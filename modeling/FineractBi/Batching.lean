import FineractBi.Convergence
import FineractBi.Lib.LastWriter

/-!
Whether the batch boundaries can be seen in the stored row. Inside a batch the
newest available value of a column wins, whichever event carries it; between
batches a delete and an event older than the row leave the columns alone. The two
agree exactly on the inputs of `invisible`.
-/
namespace FineractBi.Batching
open Calendar Newest LastWriter FineractBi.Contract FineractBi.Routing FineractBi.ApplyBatch FineractBi.Convergence
open FineractBi.StateMachine (Engine Ownership)

/-- What decides about an event, beside the values of its columns. -/
structure Shape where
  sourceGeneration : Int
  sourceLsn : Option Int
  op : Op
  unavailable : Option (List Column)
  deriving DecidableEq

def shapeOf (row : StagedRow) : Shape := ⟨row.sourceGeneration,row.sourceLsn,row.op,row.unavailable⟩

/-- The event carries a value of the column. -/
def Shape.carries (s : Shape) (c : Column) : Bool := !(s.unavailable.getD []).contains c

/-- The dedup order of the events of a key. -/
def Shape.version (s : Shape) : Int ×ₗ WithBot Int := toLex (s.sourceGeneration,s.sourceLsn)

/-- The order of the row guard. -/
def guardVersion (generation : Int) (lsn : Option Int) : Int ×ₗ Int := toLex (generation,lsn.getD (-1))
def Shape.guardVersion (s : Shape) : Int ×ₗ Int := Batching.guardVersion s.sourceGeneration s.sourceLsn

/-- Increasing versions. The two orders are one when no lsn is negative (`version_le_iff`). -/
def Increasing (events : List Shape) : Prop :=
  events.Pairwise (fun a b => a.version < b.version ∧ a.guardVersion < b.guardVersion)

instance (events : List Shape) : Decidable (Increasing events) :=
  inferInstanceAs (Decidable (events.Pairwise _))

/-- The event is not older than the row stored at first, if any. -/
def live : Option (Int × Option Int) → Shape → Bool
  | none, _ => true
  | some stored, s => guardVersion stored.1 stored.2 ≤ s.guardVersion

/-- The batch can change the column: an upsert that is not older than the row
    carries it, or the newest event is such an upsert and some event carries it. -/
def touches (stored : Option (Int × Option Int)) (c : Column) (batch : List Shape) : Bool :=
  batch.any (fun s => live stored s && s.op = .u && s.carries c) ||
    batch.getLast?.any (fun top => live stored top && top.op = .u && batch.any (·.carries c))

/-- The newest event is an upsert, and so is the newest event that carries the
    column, which is not older than the row. -/
def clean (stored : Option (Int × Option Int)) (c : Column) (batch : List Shape) : Bool :=
  batch.getLast?.any (fun top => top.op = .u) &&
    (batch.filter (·.carries c)).getLast?.any (fun s => s.op = .u && live stored s)

/-- In the batch that inserts the row, the newest event that carries the column is
    an upsert or the very first event. -/
def cleanInsert (c : Column) (batch : List Shape) : Bool :=
  (batch.filter (·.carries c)).getLast?.all (fun s => s.op = .u || batch.head? = some s)

/-- The last batch that can change the column is clean. -/
def invisible (stored : Option (Int × Option Int)) (split : List (List Shape)) (c : Column) : Bool :=
  match stored with
  | some _ => (split.filter (touches stored c)).getLast?.all (clean stored c)
  | none =>
    match split.filter (fun batch => batch ≠ []) with
    | [] => true
    | first :: rest =>
      match (rest.filter (touches none c)).getLast? with
      | some batch => clean none c batch
      | none => cleanInsert c first

structure Cell (α : Type) where
  sourceGeneration : Int
  sourceLsn : Option Int
  isDeleted : Bool
  value : α

def Cell.guardVersion {α : Type} (cell : Cell α) : Int ×ₗ Int :=
  Batching.guardVersion cell.sourceGeneration cell.sourceLsn

/-- What a batch of increasing events makes of one column. -/
def absorb {E α : Type} (shape : E → Shape) (value : E → α) (null : α) (c : Column) (old : Option (Cell α))
    (batch : List E) : Option (Cell α) :=
  match batch.getLast? with
  | none => old
  | some top =>
    let carried := (batch.filter (fun e => (shape e).carries c)).getLast?.map value
    let isDeleted : Bool := (shape top).op = .d
    match old with
    | none => some ⟨(shape top).sourceGeneration,(shape top).sourceLsn,isDeleted,carried.getD null⟩
    | some cell =>
      if cell.guardVersion ≤ (shape top).guardVersion then
        some ⟨(shape top).sourceGeneration,(shape top).sourceLsn,isDeleted,
          if isDeleted then cell.value else carried.getD cell.value⟩
      else some cell

/-- A stored row through a column. -/
def cellOf (c : Column) (row : RawRow) : Cell (Option Value) :=
  ⟨row.sourceGeneration,row.sourceLsn,row.isDeleted,row.cols c⟩

section Batch
variable {t : TableContract} {now : Int} {stage : List StagedRow} {target : String} {raw : RawTable} {k : Key}
  {c : Column}

private theorem sorted_of_increasing {rows : List StagedRow} (increasing : Increasing (rows.map shapeOf)) :
    rows.Pairwise (fun a b => ApplyBatch.version a < ApplyBatch.version b) :=
  (List.pairwise_map.mp increasing).imp (fun order => order.1)

/-- The dedup row of increasing events: the last one decides, and a column has
    the value of the last event that carries it. -/
theorem dedup_increasing {top : StagedRow} (column : c ∈ t.columns) (business : c ≠ t.primaryKey)
    (increasing : Increasing ((stagedFor stage target k).map shapeOf))
    (last : (stagedFor stage target k).getLast? = some top) :
    ∃ d, dedup t stage target k = some d ∧ d.sourceGeneration = top.sourceGeneration ∧
      d.sourceLsn = top.sourceLsn ∧ d.op = top.op ∧
      d.cols c = ((stagedFor stage target k).filter (isAvailable · c)).getLast?.bind (·.cols c) ∧
      (d.unavailable.contains c = true ↔ ((stagedFor stage target k).filter (isAvailable · c)).getLast? = none) := by
  have sorted := sorted_of_increasing increasing
  have found : newest ApplyBatch.version (stagedFor stage target k) = some top := (newest_sorted sorted).trans last
  have merged : newest ApplyBatch.version ((stagedFor stage target k).filter (isAvailable · c)) = _ :=
    newest_sorted (sorted.filter _)
  simp only [dedup,found,Option.map_some]
  refine ⟨_,rfl,rfl,rfl,rfl,?_⟩
  rw [← merged]
  by_cases unavailable : hasUnavailable stage = true
  · simp [unavailable,column,business,newest_eq_none,List.filter_eq_nil_iff]
  · have empty : ∀ row ∈ stagedFor stage target k, row.unavailable.getD [] = [] := by
      intro row member
      have lengths : ∀ row ∈ stage, (row.unavailable.getD []).length ≤ 0 := by
        simpa [hasUnavailable] using unavailable
      exact List.length_eq_zero_iff.mp (Nat.le_zero.mp (lengths row (List.mem_of_mem_filter member)))
    have full := empty top (newest_mem found)
    have carries : isAvailable top c = true := by simp [isAvailable,full]
    rw [newest_filter (p := (isAvailable · c)) found carries]
    simp [unavailable,full]

/-- The batch function, seen through a column, on the events of a key in increasing order. -/
theorem writeBatch_cell (column : c ∈ t.columns) (business : c ≠ t.primaryKey)
    (increasing : Increasing ((stagedFor stage target k).map shapeOf)) :
    ((writeBatch t .KAFKA now stage target raw).get k).map (cellOf c) =
      absorb shapeOf (·.cols c) none c ((raw.get k).map (cellOf c)) (stagedFor stage target k) := by
  rw [writeBatch_get,absorb]
  have carries : (fun e => (shapeOf e).carries c) = (isAvailable · c) := rfl
  simp only [carries]
  cases last : (stagedFor stage target k).getLast? with
  | none => simp [dedup_eq_none.mpr (List.getLast?_eq_none_iff.mp last)]
  | some top =>
    obtain ⟨d,merged,generation,lsn,op,cols,unavailable⟩ := dedup_increasing (t := t) column business increasing last
    have shape : shapeOf top = ⟨d.sourceGeneration,d.sourceLsn,d.op,top.unavailable⟩ := by
      rw [generation,lsn,op]
      rfl
    simp only [merged,shape]
    cases stored : raw.get k with
    | none =>
      cases carried : ((stagedFor stage target k).filter (isAvailable · c)).getLast? with
      | none => simp [upsert,cellOf,insertRow,cols,carried]
      | some e => simp [upsert,cellOf,insertRow,cols,carried]
    | some old =>
      simp only [Option.map_some,upsert]
      have passes : ApplyBatch.guard .KAFKA d old = decide ((cellOf c old).guardVersion ≤
          Shape.guardVersion ⟨d.sourceGeneration,d.sourceLsn,d.op,top.unavailable⟩) := rfl
      rw [passes]
      simp only [decide_eq_true_eq]
      split
      · cases carried : ((stagedFor stage target k).filter (isAvailable · c)).getLast? with
        | none =>
          have missing := unavailable.mpr carried
          simp only [cellOf,setAvailable,insertRow,missing,or_true,if_true,Option.map_none,Option.getD_none,ite_self]
        | some e =>
          have present : c ∉ d.unavailable := by
            intro member
            have none_carries := unavailable.mp (by simpa using member)
            rw [carried] at none_carries
            cases none_carries
          simp [cellOf,setAvailable,insertRow,cols,carried,present]
      · rfl

end Batch

def Cell.map {α β : Type} (f : α → β) (cell : Cell α) : Cell β :=
  ⟨cell.sourceGeneration,cell.sourceLsn,cell.isDeleted,f cell.value⟩

/-- A batch on cells that hold the event their value comes from; `none` stands
    for the value from before. -/
def track (c : Column) : Option (Cell (Option Shape)) → List Shape → Option (Cell (Option Shape)) :=
  absorb id some none c

private theorem track_isSome {c : Column} {old : Option (Cell (Option Shape))} {batch : List Shape}
    (lost : track c old batch = none) : old = none := by
  cases old with
  | none => rfl
  | some cell =>
    unfold track absorb at lost
    cases last : batch.getLast? with
    | none => simp [last] at lost
    | some top =>
      simp only [last] at lost
      split at lost <;> cases lost

/-- Values are found by looking up the events they come from. -/
theorem absorb_track {c : Column} {rows : List StagedRow} {lookup : Option Shape → Option Value}
    {old : Option (Cell (Option Shape))} (agree : ∀ row ∈ rows, lookup (some (shapeOf row)) = row.cols c)
    (base : old = none → lookup none = none) :
    absorb shapeOf (·.cols c) none c (old.map (Cell.map lookup)) rows =
      (track c old (rows.map shapeOf)).map (Cell.map lookup) := by
  unfold track absorb
  rw [List.getLast?_map]
  cases last : rows.getLast? with
  | none => simp
  | some top =>
    have carried : (((rows.map shapeOf).filter (fun e => (id e).carries c)).getLast?.map some).map lookup =
        (rows.filter (fun e => (shapeOf e).carries c)).getLast?.map (·.cols c) := by
      rw [List.filter_map,List.getLast?_map,Option.map_map,Option.map_map]
      refine Option.map_congr ?_
      intro row found
      exact agree row (List.mem_of_mem_filter (List.mem_of_getLast? found))
    cases old with
    | none =>
      simp only [Option.map_some,Option.map_none,← carried,Cell.map,id]
      cases ((rows.map shapeOf).filter (fun e => e.carries c)).getLast? with
      | none => simp [base rfl]
      | some e => rfl
    | some cell =>
      have same : (Cell.map lookup cell).guardVersion = cell.guardVersion := rfl
      simp only [Option.map_some,← carried,same,id]
      split
      · cases ((rows.map shapeOf).filter (fun e => e.carries c)).getLast? with
        | none => simp [Cell.map]
        | some e => by_cases deleted : (shapeOf top).op = .d <;> simp [Cell.map,deleted]
      · rfl

private theorem foldl_absorb_track {c : Column} {split : List (List StagedRow)} {lookup : Option Shape → Option Value}
    {old : Option (Cell (Option Shape))} (agree : ∀ rows ∈ split, ∀ row ∈ rows, lookup (some (shapeOf row)) = row.cols c)
    (base : old = none → lookup none = none) :
    split.foldl (absorb shapeOf (·.cols c) none c) (old.map (Cell.map lookup)) =
      ((split.map (List.map shapeOf)).foldl (track c) old).map (Cell.map lookup) := by
  induction split generalizing old with
  | nil => rfl
  | cons rows rest ih =>
    simp only [List.forall_mem_cons] at agree
    rw [List.foldl_cons,List.map_cons,List.foldl_cons,absorb_track agree.1 base,ih agree.2]
    exact fun lost => base (track_isSome lost)

/-! ### The last writer of a column -/

/-- The event that gives the column its value when the batch is applied as one. -/
def merged (stored : Option (Int × Option Int)) (c : Column) (batch : List Shape) : Option Shape :=
  if batch.getLast?.any (fun top => live stored top && top.op = .u)
  then (batch.filter (·.carries c)).getLast? else none

/-- The same when the events are applied one by one. -/
def single (stored : Option (Int × Option Int)) (c : Column) (batch : List Shape) : Option Shape :=
  (batch.filter (fun s => live stored s && s.op = .u && s.carries c)).getLast?

/-- The guard lets exactly the live ones of the later events pass. -/
def Tracks (stored : Option (Int × Option Int)) (cell : Cell (Option Shape)) (later : List Shape) : Prop :=
  ∀ s ∈ later, (cell.guardVersion ≤ s.guardVersion ↔ live stored s = true)

/-- Version and deletion mark of a cell. -/
def Cell.stamp {α : Type} (cell : Cell α) : Int × Option Int × Bool :=
  (cell.sourceGeneration,cell.sourceLsn,cell.isDeleted)

/-- `cell` became `cell'` by the events of a batch, its value written by `writer`. -/
structure Lands (stored : Option (Int × Option Int)) (cell cell' : Cell (Option Shape)) (batch later : List Shape)
    (writer : Option Shape) : Prop where
  tracks : Tracks stored cell' later
  value : cell'.value = writer.or cell.value
  stamp : cell'.stamp = ((batch.filter (live stored)).getLast?.map (fun s =>
    (s.sourceGeneration,s.sourceLsn,decide (s.op = .d)))).getD cell.stamp

section Writers
variable {stored : Option (Int × Option Int)} {c : Column} {cell : Cell (Option Shape)} {batch later : List Shape}

private theorem live_mono {a b : Shape} (le : a.guardVersion ≤ b.guardVersion) (isLive : live stored a = true) :
    live stored b = true := by
  cases stored with
  | none => rfl
  | some v => simpa [live] using le_trans (by simpa [live] using isLive) le

private theorem le_last {top : Shape} (increasing : Increasing batch) (last : batch.getLast? = some top) :
    ∀ s ∈ batch, s.guardVersion ≤ top.guardVersion := by
  obtain ⟨earlier,rfl⟩ := List.getLast?_eq_some_iff.mp last
  intro s member
  rcases List.mem_append.mp member with before | same
  · exact le_of_lt ((List.pairwise_append.mp increasing).2.2 s before top (by simp)).2
  · rw [List.mem_singleton.mp same]

private theorem track_lands (tracks : Tracks stored cell (batch ++ later)) (increasing : Increasing (batch ++ later)) :
    ∃ cell', track c (some cell) batch = some cell' ∧ Lands stored cell cell' batch later (merged stored c batch) := by
  have onLater : Tracks stored cell later := fun s member => tracks s (List.mem_append_right _ member)
  obtain ⟨inBatch,_,across⟩ := List.pairwise_append.mp increasing
  cases last : batch.getLast? with
  | none =>
    obtain rfl := List.getLast?_eq_none_iff.mp last
    exact ⟨cell,rfl,onLater,rfl,rfl⟩
  | some top =>
    have member := List.mem_of_getLast? last
    have topLive := tracks top (List.mem_append_left _ member)
    by_cases passes : cell.guardVersion ≤ top.guardVersion
    · have isLive := topLive.mp passes
      simp only [track,absorb,last,id,passes,if_true]
      refine ⟨_,rfl,?_,?_,?_⟩
      · intro s later_s
        have lt := (across top member s later_s).2
        exact iff_of_true (le_of_lt lt) (live_mono (le_of_lt lt) isLive)
      · by_cases deletes : top.op = .d
        · simp [merged,last,deletes]
        · have upserts : top.op = .u := by
            cases op : top.op with
            | u => rfl
            | d => exact absurd op deletes
          have writes : batch.getLast?.any (fun top => live stored top && top.op = .u) = true := by
            simp [last,isLive,upserts]
          simp only [merged,writes,if_true,upserts,reduceCtorEq,decide_false,Bool.false_eq_true,if_false]
          cases (batch.filter (·.carries c)).getLast? with
          | none => rfl
          | some e => rfl
      · simp [getLast_filter last isLive,Cell.stamp]
    · have dead : live stored top = false := by
        rw [Bool.eq_false_iff]
        exact fun isLive => passes (topLive.mpr isLive)
      have none_live : batch.filter (live stored) = [] := by
        rw [List.filter_eq_nil_iff]
        intro s inside isLive
        rw [live_mono (le_last inBatch last s inside) isLive] at dead
        cases dead
      refine ⟨cell,by simp only [track,absorb,last,id,passes,if_false],onLater,?_,?_⟩
      · simp [merged,last,dead]
      · simp [none_live]

private theorem single_cons (s : Shape) (rest : List Shape) :
    single stored c (s :: rest) = (single stored c rest).or (merged stored c [s]) := by
  rw [single,single,getLast_filter_cons,merged]
  congr 1
  by_cases carried : s.carries c = true
  · simp [carried]
  · simp [carried]

private theorem singles_land (tracks : Tracks stored cell (batch ++ later)) (increasing : Increasing (batch ++ later)) :
    ∃ cell', batch.foldl (fun old s => track c old [s]) (some cell) = some cell' ∧
      Lands stored cell cell' batch later (single stored c batch) := by
  induction batch generalizing cell with
  | nil => exact ⟨cell,rfl,tracks,rfl,rfl⟩
  | cons s rest ih =>
    obtain ⟨cell₁,first,tracks₁,value₁,stamp₁⟩ := track_lands (c := c)
      (show Tracks stored cell ([s] ++ (rest ++ later)) from tracks) increasing
    obtain ⟨cell₂,others,tracks₂,value₂,stamp₂⟩ := ih tracks₁ (List.pairwise_cons.mp increasing).2
    refine ⟨cell₂,by rw [List.foldl_cons,first,others],tracks₂,?_,?_⟩
    · rw [value₂,value₁,single_cons,Option.or_assoc]
    · have parts : (s :: rest).filter (live stored) = [s].filter (live stored) ++ rest.filter (live stored) := by
        rw [← List.filter_append,List.singleton_append]
      rw [stamp₂,stamp₁,parts,List.getLast?_append]
      cases (rest.filter (live stored)).getLast? with
      | none => rfl
      | some e => rfl

/-- Whole runs from a stored row: both ways give the same version and deletion
    mark, and each its own last writer. -/
theorem runs_land {split : List (List Shape)} {cellB cellS : Cell (Option Shape)}
    (tracksB : Tracks stored cellB split.flatten) (tracksS : Tracks stored cellS split.flatten)
    (stamps : cellB.stamp = cellS.stamp) (increasing : Increasing split.flatten) :
    ∃ finalB finalS, split.foldl (track c) (some cellB) = some finalB ∧
      split.flatten.foldl (fun old s => track c old [s]) (some cellS) = some finalS ∧
      finalB.stamp = finalS.stamp ∧
      finalB.value = (lastWriter (merged stored c) split).or cellB.value ∧
      finalS.value = (lastWriter (single stored c) split).or cellS.value := by
  induction split generalizing cellB cellS with
  | nil => exact ⟨cellB,cellS,rfl,rfl,stamps,rfl,rfl⟩
  | cons batch rest ih =>
    rw [List.flatten_cons] at tracksB tracksS increasing ⊢
    obtain ⟨nextB,stepB,tracksB',valueB,stampB⟩ := track_lands (c := c) tracksB increasing
    obtain ⟨nextS,stepS,tracksS',valueS,stampS⟩ := singles_land (c := c) tracksS increasing
    have stamps' : nextB.stamp = nextS.stamp := by rw [stampB,stampS,stamps]
    obtain ⟨finalB,finalS,runB,runS,same,lastB,lastS⟩ :=
      ih tracksB' tracksS' stamps' (List.pairwise_append.mp increasing).2.1
    refine ⟨finalB,finalS,?_,?_,same,?_,?_⟩
    · rw [List.foldl_cons,stepB,runB]
    · rw [List.foldl_append,stepS,runS]
    · rw [lastB,valueB,lastWriter_cons,Option.or_assoc]
    · rw [lastS,valueS,lastWriter_cons,Option.or_assoc]

private theorem merged_mem (batch : List Shape) (e : Shape) (found : merged stored c batch = some e) : e ∈ batch := by
  unfold merged at found
  split at found
  · exact List.mem_of_mem_filter (List.mem_of_getLast? found)
  · cases found

private theorem single_mem (batch : List Shape) (e : Shape) (found : single stored c batch = some e) : e ∈ batch :=
  List.mem_of_mem_filter (List.mem_of_getLast? found)

private theorem isSome_last_filter (p : Shape → Bool) (batch : List Shape) :
    (batch.filter p).getLast?.isSome = batch.any p := by
  rw [Bool.eq_iff_iff,Option.isSome_iff_ne_none,ne_eq,List.getLast?_eq_none_iff,List.filter_eq_nil_iff,List.any_eq_true]
  simp

private theorem touches_eq (batch : List Shape) :
    touches stored c batch = ((merged stored c batch).isSome || (single stored c batch).isSome) := by
  have single_isSome := isSome_last_filter (fun s => live stored s && s.op = .u && s.carries c) batch
  have carried_isSome := isSome_last_filter (fun s => s.carries c) batch
  rw [touches,Bool.or_comm,single,single_isSome]
  congr 1
  unfold merged
  cases batch.getLast? with
  | none => rfl
  | some top =>
    simp only [Option.any_some,← carried_isSome]
    split
    · next writes => simp only [writes,Bool.true_and]
    · next idle =>
      rw [Bool.eq_false_of_not_eq_true idle,Bool.false_and]
      rfl

/-- A batch that can change the column is clean exactly when both ways find the same writer. -/
theorem clean_iff (touched : touches stored c batch = true) (increasing : Increasing batch) :
    clean stored c batch = true ↔ merged stored c batch = single stored c batch := by
  constructor
  · intro isClean
    simp only [clean,Bool.and_eq_true,Option.any_eq_true,decide_eq_true_eq] at isClean
    obtain ⟨⟨top,last,upserts⟩,e,carried,op,isLive⟩ := isClean
    have inside := List.mem_of_mem_filter (List.mem_of_getLast? carried)
    have topLive := live_mono (le_last increasing last e inside) isLive
    have writes : batch.getLast?.any (fun top => live stored top && top.op = .u) = true := by
      simp [last,topLive,upserts]
    have written := getLast_filter (p := fun s => live stored s && s.op = .u) carried (by simp [isLive,op])
    rw [List.filter_filter] at written
    rw [merged,if_pos writes,carried,single,written]
  · intro same
    obtain ⟨e,atMerged⟩ : ∃ e, merged stored c batch = some e := by
      rw [touches_eq,← same,Bool.or_self] at touched
      exact Option.isSome_iff_exists.mp touched
    have atSingle := same ▸ atMerged
    have writer := List.of_mem_filter (List.mem_of_getLast? atSingle)
    simp only [Bool.and_eq_true,decide_eq_true_eq] at writer
    unfold merged at atMerged
    split at atMerged
    · next writes =>
      simp only [Option.any_eq_true,Bool.and_eq_true,decide_eq_true_eq] at writes
      obtain ⟨top,last,_,upserts⟩ := writes
      simp only [clean,last,atMerged,Option.any_some,upserts,writer.1.1,writer.1.2]
      rfl
    · cases atMerged

theorem Increasing.nodup {events : List Shape} (increasing : Increasing events) : events.Nodup :=
  increasing.imp (fun order same => absurd order.1 (by rw [same]; exact lt_irrefl _))

/-- The last writers of both ways agree exactly when the last batch that can
    change the column is clean. -/
theorem lastWriter_iff {split : List (List Shape)} {x y : Option Shape} (increasing : Increasing split.flatten)
    (outsideX : ∀ e, x = some e → e ∉ split.flatten) (outsideY : ∀ e, y = some e → e ∉ split.flatten) :
    (lastWriter (merged stored c) split).or x = (lastWriter (single stored c) split).or y ↔
      match (split.filter (touches stored c)).getLast? with
      | some batch => clean stored c batch = true
      | none => x = y := by
  rw [lastWriter_eq_iff merged_mem single_mem increasing.nodup outsideX outsideY]
  rw [show touches stored c = fun batch => (merged stored c batch).isSome || (single stored c batch).isSome from
    funext touches_eq]
  cases last : (split.filter (fun batch => (merged stored c batch).isSome || (single stored c batch).isSome)).getLast?
  with
  | none => rfl
  | some batch =>
    obtain ⟨member,touched⟩ := List.mem_filter.mp (List.mem_of_getLast? last)
    rw [← touches_eq] at touched
    exact (clean_iff touched (List.Pairwise.sublist (List.sublist_flatten_of_mem member) increasing)).symm

/-- The writers in the batch that inserts the row. -/
theorem cleanInsert_iff {s : Shape} {tail : List Shape} (increasing : Increasing (s :: tail)) :
    cleanInsert c (s :: tail) = true ↔
      ((s :: tail).filter (·.carries c)).getLast? = (single none c tail).or (if s.carries c then some s else none) := by
  rw [cleanInsert,getLast_filter_cons]
  cases carried : (tail.filter (·.carries c)).getLast? with
  | none =>
    have silent : single none c tail = none := by
      rw [single,List.getLast?_eq_none_iff,List.filter_eq_nil_iff]
      intro e inside writes
      simp only [Bool.and_eq_true] at writes
      exact List.filter_eq_nil_iff.mp (List.getLast?_eq_none_iff.mp carried) e inside writes.2
    rw [silent]
    by_cases head : s.carries c = true
    · simp [head]
    · simp [head]
  | some e =>
    have inside := List.mem_of_mem_filter (List.mem_of_getLast? carried)
    have other : s ≠ e := by
      rintro rfl
      exact (List.nodup_cons.mp increasing.nodup).1 inside
    by_cases upserts : e.op = .u
    · have written := getLast_filter (p := fun s => live none s && s.op = .u) carried (by simp [live,upserts])
      rw [List.filter_filter] at written
      simp [single,written,upserts]
    · have unwritten : (single none c tail).or (if s.carries c then some s else none) ≠ some e := by
        intro same
        cases found : single none c tail with
        | none =>
          rw [found,Option.none_or] at same
          split at same
          · exact other (Option.some.inj same)
          · cases same
        | some e' =>
          rw [found,Option.some_or] at same
          obtain rfl := Option.some.inj same
          have writer := List.of_mem_filter (List.mem_of_getLast? found)
          simp [upserts] at writer
      simp [upserts,other,unwritten.symm]

/-- The batch that inserts the row, in both ways. -/
theorem insert_lands {s : Shape} {tail : List Shape} (increasing : Increasing ((s :: tail) ++ later)) :
    ∃ cellB cellS, track c none (s :: tail) = some cellB ∧
      (s :: tail).foldl (fun old s => track c old [s]) none = some cellS ∧
      Tracks none cellB later ∧ Tracks none cellS later ∧ cellB.stamp = cellS.stamp ∧
      cellB.value = ((s :: tail).filter (·.carries c)).getLast? ∧
      cellS.value = (single none c tail).or (if s.carries c then some s else none) := by
  obtain ⟨_,_,across⟩ := List.pairwise_append.mp increasing
  obtain ⟨top,last⟩ : ∃ top, (s :: tail).getLast? = some top := ⟨_,List.getLast?_eq_some_getLast (List.cons_ne_nil s tail)⟩
  have inserted : track c none [s] =
      some ⟨s.sourceGeneration,s.sourceLsn,s.op = .d,if s.carries c then some s else none⟩ := by
    by_cases head : s.carries c = true
    · simp [track,absorb,head]
    · simp [track,absorb,head]
  have tracks : Tracks none ⟨s.sourceGeneration,s.sourceLsn,s.op = .d,if s.carries c then some s else none⟩
      (tail ++ later) := by
    intro e member
    exact iff_of_true (le_of_lt ((List.pairwise_cons.mp increasing).1 e member).2) rfl
  obtain ⟨cellS,runS,tracksS,valueS,stampS⟩ := singles_land (c := c) tracks (List.pairwise_cons.mp increasing).2
  refine ⟨⟨top.sourceGeneration,top.sourceLsn,top.op = .d,((s :: tail).filter (·.carries c)).getLast?⟩,cellS,?_,?_,?_,
    tracksS,?_,rfl,valueS⟩
  · simp only [track,absorb,last,id]
    cases ((s :: tail).filter (·.carries c)).getLast? with
    | none => rfl
    | some e => rfl
  · rw [List.foldl_cons,inserted,runS]
  · intro e member
    exact iff_of_true (le_of_lt (across top (List.mem_of_getLast? last) e member).2) rfl
  · have allLive : tail.filter (live none) = tail := List.filter_eq_self.mpr (fun _ _ => rfl)
    rw [stampS,allLive]
    rw [List.getLast?_cons] at last
    obtain rfl := Option.some.inj last
    cases tail.getLast? with
    | none => rfl
    | some e => rfl

private theorem cell_eq_iff {a b : Cell (Option Shape)} (stamps : a.stamp = b.stamp) : a = b ↔ a.value = b.value := by
  obtain ⟨generation,lsn,deleted,value⟩ := a
  obtain ⟨generation',lsn',deleted',value'⟩ := b
  simp only [Cell.stamp,Prod.mk.injEq] at stamps
  obtain ⟨rfl,rfl,rfl⟩ := stamps
  simp

private theorem track_nil (old : Option (Cell (Option Shape))) : track c old [] = old := rfl

private theorem foldl_track_filter (split : List (List Shape)) (old : Option (Cell (Option Shape))) :
    (split.filter (fun batch => batch ≠ [])).foldl (track c) old = split.foldl (track c) old := by
  induction split generalizing old with
  | nil => rfl
  | cons batch rest ih =>
    cases batch with
    | nil => simpa [track_nil] using ih old
    | cons s tail => simpa using ih (track c old (s :: tail))

private theorem flatten_filter (split : List (List Shape)) :
    (split.filter (fun batch => batch ≠ [])).flatten = split.flatten := by
  induction split with
  | nil => rfl
  | cons batch rest ih =>
    cases batch with
    | nil => simpa using ih
    | cons s tail => simpa using ih

/-- The two runs from a row with the version `stored` come from the same events
    exactly when batching is invisible. -/
theorem runs_agree_iff {split : List (List Shape)} (deleted : Bool) (increasing : Increasing split.flatten) :
    split.foldl (track c) (stored.map (fun v => ⟨v.1,v.2,deleted,none⟩)) =
      split.flatten.foldl (fun old s => track c old [s]) (stored.map (fun v => ⟨v.1,v.2,deleted,none⟩)) ↔
    invisible stored split c = true := by
  cases stored with
  | some v =>
    have tracks : Tracks (some v) ⟨v.1,v.2,deleted,none⟩ split.flatten := by
      intro s _
      simp [live,Cell.guardVersion]
    obtain ⟨finalB,finalS,runB,runS,stamps,valueB,valueS⟩ := runs_land (c := c) tracks tracks rfl increasing
    simp only [Option.map_some]
    rw [runB,runS,Option.some.injEq,cell_eq_iff stamps,valueB,valueS,
      lastWriter_iff increasing (by simp) (by simp)]
    rw [invisible]
    cases (split.filter (touches (some v) c)).getLast? with
    | none => simp
    | some batch => rfl
  | none =>
    simp only [Option.map_none,invisible]
    rw [← foldl_track_filter,← flatten_filter]
    rw [← flatten_filter] at increasing
    cases nonempty : split.filter (fun batch => batch ≠ []) with
    | nil => simp
    | cons first rest =>
      rw [nonempty,List.flatten_cons] at increasing
      obtain ⟨inFirst,inRest,across⟩ := List.pairwise_append.mp increasing
      cases first with
      | nil => exact absurd (List.mem_filter.mp (nonempty ▸ List.mem_cons_self)).2 (by simp)
      | cons s tail =>
        obtain ⟨cellB,cellS,insertB,insertS,tracksB,tracksS,stamps,valueB,valueS⟩ := insert_lands (c := c) increasing
        obtain ⟨finalB,finalS,runB,runS,stamps',lastB,lastS⟩ := runs_land (c := c) tracksB tracksS stamps inRest
        have outside : ∀ e ∈ s :: tail, e ∉ rest.flatten :=
          fun e inside later => (List.nodup_append'.mp increasing.nodup).2.2 inside later
        rw [List.foldl_cons,List.flatten_cons,List.foldl_append,insertB,insertS,runB,runS,Option.some.injEq,
          cell_eq_iff stamps',lastB,lastS,lastWriter_iff inRest]
        · rw [valueB,valueS,← cleanInsert_iff inFirst]
          simp only
          cases (rest.filter (touches none c)).getLast? with
          | none => rfl
          | some batch => rfl
        · intro e found
          rw [valueB] at found
          exact outside e (List.mem_of_mem_filter (List.mem_of_getLast? found))
        · intro e found
          rw [valueS] at found
          refine outside e ?_
          cases written : single none c tail with
          | none =>
            rw [written,Option.none_or] at found
            split at found
            · rw [Option.some.inj found]
              exact List.mem_cons_self
            · cases found
          | some e' =>
            rw [written,Option.some_or] at found
            rw [← Option.some.inj found]
            exact List.mem_cons_of_mem _ (single_mem tail e' written)

end Writers

/-! ### Runs of the batch function -/

/-- What accepted batches make of one target. -/
def writeBatches (t : TableContract) (target : String) (raw : RawTable) (batches : List Batch) : RawTable :=
  batches.foldl (fun raw batch => writeBatch t .KAFKA batch.now batch.stage target raw) raw

private theorem applyBatches_table {t : TableContract} {batches : List Batch} {start final : Stores} {target : String}
    (known : target = "prod" ∨ target = "shadow") (applied : applyBatches t .KAFKA batches start = .ok final) :
    final.table target = writeBatches t target (start.table target) batches := by
  induction batches generalizing start with
  | nil =>
    cases applied
    rfl
  | cons batch rest ih =>
    cases first : applyStagedBatch t .KAFKA batch.now batch.today batch.db batch.stage start with
    | error e => simp [applyBatches,first,bind,Except.bind] at applied
    | ok result =>
      obtain ⟨after,log,results⟩ := result
      simp only [applyBatches,first,bind,Except.bind] at applied
      rw [ih applied,applyStagedBatch_table known first]
      rfl

private theorem writeBatches_cell {t : TableContract} {target : String} {raw : RawTable} {batches : List Batch} {k : Key}
    {c : Column} (column : c ∈ t.columns) (business : c ≠ t.primaryKey)
    (increasing : ∀ batch ∈ batches, Increasing ((stagedFor batch.stage target k).map shapeOf)) :
    ((writeBatches t target raw batches).get k).map (cellOf c) =
      (batches.map (fun batch => stagedFor batch.stage target k)).foldl (absorb shapeOf (·.cols c) none c)
        ((raw.get k).map (cellOf c)) := by
  induction batches generalizing raw with
  | nil => rfl
  | cons batch rest ih =>
    simp only [List.forall_mem_cons] at increasing
    rw [List.map_cons,List.foldl_cons,← writeBatch_cell column business increasing.1,← ih increasing.2]
    rfl

/-- The stored version, and the events of the key batch by batch, are those of the input. -/
def OfShape (target : String) (k : Key) (stored : Option (Int × Option Int)) (split : List (List Shape))
    (start : Stores) (batches : List Batch) : Prop :=
  ((start.table target).get k).map (fun row => (row.sourceGeneration,row.sourceLsn)) = stored ∧
    batches.map (fun batch => (stagedFor batch.stage target k).map shapeOf) = split

/-- `singles` delivers the events of `batches` one per batch. -/
def OneByOne (target : String) (k : Key) (batches singles : List Batch) : Prop :=
  singles.map (fun batch => stagedFor batch.stage target k) = (delivered batches target k).map (fun row => [row])

/-- The rows agree on version, deletion mark and every business column. -/
def SameRow (t : TableContract) (a b : Option RawRow) : Prop :=
  ∀ c ∈ t.columns, c ≠ t.primaryKey → a.map (cellOf c) = b.map (cellOf c)

/-- The two ways of applying the events leave the same row. -/
def Unseen (t : TableContract) (target : String) (k : Key) (start : Stores) (batches singles : List Batch) : Prop :=
  ∀ finalB finalS, applyBatches t .KAFKA batches start = .ok finalB → applyBatches t .KAFKA singles start = .ok finalS →
    SameRow t ((finalB.table target).get k) ((finalS.table target).get k)

section Input
variable {t : TableContract} {target : String} {k : Key} {stored : Option (Int × Option Int)}
  {split : List (List Shape)} {start : Stores} {batches singles : List Batch} {c : Column}

private theorem delivered_shapes (shape : OfShape target k stored split start batches) :
    (delivered batches target k).map shapeOf = split.flatten := by
  rw [← shape.2,delivered,List.map_flatMap,List.flatMap_def]

/-- The cell of the stored row, its value being the one from before. -/
def before (start : Stores) (target : String) (k : Key) : Option (Cell (Option Shape)) :=
  ((start.table target).get k).map (fun row => ⟨row.sourceGeneration,row.sourceLsn,row.isDeleted,none⟩)

/-- Both runs, through the events that the values come from. -/
theorem runs_lookup (column : c ∈ t.columns) (business : c ≠ t.primaryKey) (increasing : Increasing split.flatten)
    (shape : OfShape target k stored split start batches) (one : OneByOne target k batches singles)
    {lookup : Option Shape → Option Value}
    (agree : ∀ row ∈ delivered batches target k, lookup (some (shapeOf row)) = row.cols c)
    (agree_before : lookup none = ((start.table target).get k).bind (·.cols c)) :
    ((writeBatches t target (start.table target) batches).get k).map (cellOf c) =
        (split.foldl (track c) (before start target k)).map (Cell.map lookup) ∧
      ((writeBatches t target (start.table target) singles).get k).map (cellOf c) =
        (split.flatten.foldl (fun old s => track c old [s]) (before start target k)).map (Cell.map lookup) := by
  have stored_cell : ((start.table target).get k).map (cellOf c) =
      (before start target k).map (Cell.map lookup) := by
    unfold before
    cases at_k : (start.table target).get k with
    | none => rfl
    | some row =>
      rw [at_k,Option.bind_some] at agree_before
      simp [Cell.map,agree_before,cellOf]
  have base : before start target k = none → lookup none = none := by
    intro absent
    simp [agree_before,Option.map_eq_none_iff.mp absent]
  constructor
  · have sorted : ∀ batch ∈ batches, Increasing ((stagedFor batch.stage target k).map shapeOf) := by
      intro batch member
      refine List.Pairwise.sublist (List.sublist_flatten_of_mem ?_) increasing
      exact shape.2 ▸ List.mem_map_of_mem member
    rw [writeBatches_cell column business sorted,stored_cell,foldl_absorb_track _ base,List.map_map]
    · exact congrArg _ (congrArg _ shape.2)
    · intro rows member row inside
      obtain ⟨batch,inBatches,rfl⟩ := List.mem_map.mp member
      exact agree row (List.mem_flatMap.mpr ⟨batch,inBatches,inside⟩)
  · have sorted : ∀ batch ∈ singles, Increasing ((stagedFor batch.stage target k).map shapeOf) := by
      intro batch member
      have staged := List.mem_map_of_mem (f := fun batch : Batch => stagedFor batch.stage target k) member
      rw [one] at staged
      obtain ⟨row,_,alone⟩ := List.mem_map.mp staged
      rw [← alone]
      exact List.pairwise_singleton _ _
    rw [writeBatches_cell column business sorted,stored_cell,one,foldl_absorb_track _ base,← delivered_shapes shape,
      List.map_map,List.foldl_map,List.foldl_map]
    · rfl
    · intro rows member row inside
      obtain ⟨row',inDelivered,rfl⟩ := List.mem_map.mp member
      rw [List.mem_singleton.mp inside]
      exact agree row' inDelivered

private theorem before_eq (shape : OfShape target k stored split start batches) :
    before start target k =
      stored.map (fun v => ⟨v.1,v.2,((start.table target).get k).any (·.isDeleted),none⟩) := by
  rw [← shape.1,before]
  cases (start.table target).get k with
  | none => rfl
  | some row => rfl

/-- On an input of this kind both ways leave the same row. -/
theorem unseen_of_invisible (known : target = "prod" ∨ target = "shadow") (increasing : Increasing split.flatten)
    (shape : OfShape target k stored split start batches) (one : OneByOne target k batches singles)
    (unseen : ∀ c ∈ t.columns, c ≠ t.primaryKey → invisible stored split c = true) :
    Unseen t target k start batches singles := by
  intro finalB finalS appliedB appliedS c column business
  have distinct : ((delivered batches target k).map shapeOf).Nodup := delivered_shapes shape ▸ increasing.nodup
  let lookup : Option Shape → Option Value := fun writer =>
    match writer with
    | none => ((start.table target).get k).bind (·.cols c)
    | some s => ((delivered batches target k).find? (fun row => shapeOf row = s)).bind (·.cols c)
  have agree : ∀ row ∈ delivered batches target k, lookup (some (shapeOf row)) = row.cols c := by
    intro row member
    simp only [lookup,(Keyed.find_iff distinct).mpr ⟨member,rfl⟩,Option.bind_some]
  obtain ⟨runB,runS⟩ := runs_lookup column business increasing shape one agree rfl
  rw [applyBatches_table known appliedB,applyBatches_table known appliedS,runB,runS,before_eq shape,
    (runs_agree_iff _ increasing).mpr (unseen c column business)]

/-- A source whose table KAFKA owns, or shadows. -/
def ownedBy (target : String) (source table : String) (text : PgText source) : ControlState where
  registry := []
  ownership := [{ sourceId := source, tableName := table,
                  engine := if target = "prod" then .KAFKA else .PYTHON,
                  shadowEngine := if target = "prod" then none else some .KAFKA,
                  cutoverState := if target = "prod" then .STEADY else .SHADOWING, epoch := 1 }]
  registryKey := by simp
  ownershipKey := by simp
  registryText := by simp
  ownershipText := by simpa using text

/-- An event of the shape, with the same value in every column. -/
def rowOf (target : String) (k : Key) (value : Shape → Option Value) (s : Shape) : StagedRow :=
  ⟨k,fun _ => value s,s.sourceGeneration,s.sourceLsn,none,s.op,s.unavailable,1,target⟩

def batchOf (target : String) (k : Key) (value : Shape → Option Value) (db : ControlState) (batch : List Shape) : Batch :=
  ⟨0,0,db,batch.map (rowOf target k value)⟩

private theorem stagedFor_rowOf (value : Shape → Option Value) (batch : List Shape) :
    stagedFor (batch.map (rowOf target k value)) target k = batch.map (rowOf target k value) := by
  rw [stagedFor,List.filter_eq_self]
  intro row member
  obtain ⟨s,_,rfl⟩ := List.mem_map.mp member
  simp [rowOf]

private theorem stagedFor_batchOf (value : Shape → Option Value) (db : ControlState) (split : List (List Shape)) :
    (split.map (batchOf target k value db)).map (fun batch => stagedFor batch.stage target k) =
      split.map (List.map (rowOf target k value)) := by
  rw [List.map_map]
  exact List.map_congr_left (fun batch _ => stagedFor_rowOf value batch)

private theorem delivered_batchOf (value : Shape → Option Value) (db : ControlState) (split : List (List Shape)) :
    delivered (split.map (batchOf target k value db)) target k = split.flatten.map (rowOf target k value) := by
  rw [delivered,List.flatMap_def,stagedFor_batchOf,List.map_flatten]

private theorem applyBatches_batchOf (known : target = "prod" ∨ target = "shadow") (text : PgText k.sourceId)
    (value : Shape → Option Value) (split : List (List Shape)) (start : Stores) :
    ∃ final, applyBatches t .KAFKA
      (split.map (batchOf target k value (ownedBy target k.sourceId t.tableName text))) start = .ok final := by
  induction split generalizing start with
  | nil => exact ⟨start,rfl⟩
  | cons batch rest ih =>
    have accepted : ∀ claim ∈ ((batch.map (rowOf target k value)).map (fun row =>
        (⟨row.key.sourceId,row.target,row.ownerEpoch⟩ : StagedClaim))).dedup, fencedBy .KAFKA claim
        ((ownedBy target k.sourceId t.tableName text).owner claim.sourceId t.tableName) = false := by
      intro claim member
      obtain ⟨row,staged,rfl⟩ := List.mem_map.mp (List.mem_dedup.mp member)
      obtain ⟨s,_,rfl⟩ := List.mem_map.mp staged
      rcases known with rfl | rfl
      · simp [ControlState.owner,ownedBy,rowOf,fencedBy]
      · simp [ControlState.owner,ownedBy,rowOf,fencedBy]
    have first : applyStagedBatch t .KAFKA 0 0 (ownedBy target k.sourceId t.tableName text)
        (batch.map (rowOf target k value)) start = .ok (_,_,_) := applyStagedBatch_ok.mpr
      ⟨by simp,(fencingCheck_ok _ _ _ _).mpr accepted,rfl,rfl,rfl⟩
    obtain ⟨final,others⟩ := ih _
    refine ⟨final,?_⟩
    simp only [List.map_cons,applyBatches,batchOf,first,bind,Except.bind]
    exact others

/-- Values that tell one writer from all others; the value from before is NULL. -/
def tell (writer : Option Shape) : Option Shape → Option Value
  | none => none
  | some s => if some s = writer then some (.int 1) else some (.int 2)

private theorem tell_ne {writer other : Option Shape} (differ : writer ≠ other) : tell writer writer ≠ tell writer other := by
  cases writer with
  | none => cases other with
    | none => exact absurd rfl differ
    | some s => simp [tell]
  | some s => cases other with
    | none => simp [tell]
    | some s' => simp [tell,Ne.symm differ]

/-- Different final cells are told apart by some values. -/
theorem exists_tell {a b : Option (Cell (Option Shape))} (differ : a ≠ b) :
    ∃ writer, a.map (Cell.map (tell writer)) ≠ b.map (Cell.map (tell writer)) := by
  cases a with
  | none => cases b with
    | none => exact absurd rfl differ
    | some cell => exact ⟨none,by simp⟩
  | some cell => cases b with
    | none => exact ⟨none,by simp⟩
    | some cell' =>
      refine ⟨cell.value,?_⟩
      intro same
      simp only [Option.map_some,Option.some.injEq,Cell.map,Cell.mk.injEq] at same
      obtain ⟨generation,lsn,deleted,value⟩ := same
      refine differ (congrArg some ((cell_eq_iff ?_).mpr ?_))
      · simp [Cell.stamp,generation,lsn,deleted]
      · by_contra other
        exact tell_ne other value

/-- The table that holds at most the row of the key, with NULL in every column. -/
def storing (k : Key) (stored : Option (Int × Option Int)) : RawTable :=
  Relation.empty.alter {k} (fun _ _ => stored.map (fun v => ⟨fun _ => none,v.1,v.2,none,0,.KAFKA,false⟩))

/-- Batch boundaries leave no trace in the row, whatever the values of the
    columns are, exactly when for every business column the last batch that can
    change it is clean. -/
theorem batching_invisible_iff (t : TableContract) (target : String) (k : Key) (stored : Option (Int × Option Int))
    (split : List (List Shape)) (known : target = "prod" ∨ target = "shadow") (text : PgText k.sourceId)
    (increasing : Increasing split.flatten) :
    (∀ start batches singles, OfShape target k stored split start batches → OneByOne target k batches singles →
      Unseen t target k start batches singles) ↔
    ∀ c ∈ t.columns, c ≠ t.primaryKey → invisible stored split c = true := by
  constructor
  · intro unseen c column business
    by_contra visible
    obtain ⟨writer,apart⟩ := exists_tell (fun same => visible ((runs_agree_iff false increasing).mp same))
    let value : Shape → Option Value := fun s => tell writer (some s)
    let start : Stores := ⟨storing k stored,storing k stored⟩
    let db := ownedBy target k.sourceId t.tableName text
    have row_at : (start.table target).get k =
        stored.map (fun v => ⟨fun _ => none,v.1,v.2,none,0,.KAFKA,false⟩) := by
      have table : start.table target = storing k stored := by
        unfold Stores.table
        split <;> rfl
      rw [table,storing,Relation.alter_get,if_pos (Finset.mem_singleton_self k)]
    have shape : OfShape target k stored split start (split.map (batchOf target k value db)) := by
      refine ⟨?_,?_⟩
      · rw [row_at]
        cases stored with
        | none => rfl
        | some v => rfl
      · rw [List.map_map]
        refine List.map_id'' (fun batch => ?_) split
        have staged : stagedFor (batch.map (rowOf target k value)) target k = batch.map (rowOf target k value) :=
          stagedFor_rowOf value batch
        simp only [Function.comp_apply,batchOf,staged,List.map_map]
        exact List.map_id'' (fun _ => rfl) batch
    have one : OneByOne target k (split.map (batchOf target k value db))
        ((split.flatten.map (fun s => [s])).map (batchOf target k value db)) := by
      rw [OneByOne,stagedFor_batchOf,delivered_batchOf,List.map_map,List.map_map]
      rfl
    obtain ⟨finalB,appliedB⟩ := applyBatches_batchOf (t := t) known text value split start
    obtain ⟨finalS,appliedS⟩ := applyBatches_batchOf (t := t) known text value (split.flatten.map (fun s => [s])) start
    have same := unseen start _ _ shape one finalB finalS appliedB appliedS c column business
    have agree : ∀ row ∈ delivered (split.map (batchOf target k value db)) target k,
        tell writer (some (shapeOf row)) = row.cols c := by
      intro row member
      rw [delivered_batchOf] at member
      obtain ⟨s,_,rfl⟩ := List.mem_map.mp member
      rfl
    have agree_before : tell writer none = ((start.table target).get k).bind (·.cols c) := by
      rw [row_at]
      cases stored with
      | none => rfl
      | some v => rfl
    have undeleted : ((start.table target).get k).any (·.isDeleted) = false := by
      rw [row_at]
      cases stored with
      | none => rfl
      | some v => rfl
    obtain ⟨runB,runS⟩ := runs_lookup column business increasing shape one agree agree_before
    rw [applyBatches_table known appliedB,applyBatches_table known appliedS,runB,runS,before_eq shape,undeleted] at same
    exact apart same
  · intro unseen start batches singles shape one
    exact unseen_of_invisible known increasing shape one unseen

end Input

/-- Office 1 with a name. -/
def office : RawTable := Relation.empty.alter {⟨"branch-001","default",1⟩} (fun _ _ =>
  some ⟨fun c => if c = "name" then some (.text "Head Office") else none,1,some 1,none,0,.KAFKA,false⟩)

/-- An update of office 1 that carries the new name, or withholds it. -/
def officeUpdate (lsn : Int) (carried : Bool) : StagedRow :=
  { officeEvent .u lsn with
    cols := fun c => if c = "name" ∧ carried then some (.text "Main Office") else none
    unavailable := if carried then none else some ["name"] }

/-- Two events in one batch, and one per batch. -/
def together (a b : StagedRow) : List Batch := [⟨0,0,kafkaOwned,[a,b]⟩]
def apart (a b : StagedRow) : List Batch := [⟨0,0,kafkaOwned,[a]⟩,⟨0,0,kafkaOwned,[b]⟩]

/-- The name that a run leaves in office 1. -/
def nameAfter (batches : List Batch) : Except String (Option Value) :=
  (applyBatches mOfficeContract .KAFKA batches ⟨office,Relation.empty⟩).map (fun final =>
    ((final.table "prod").get ⟨"branch-001","default",1⟩).bind (·.cols "name"))

/-- A renaming and a delete: in one batch the new name is lost. A delete and an
    update that withholds the name: in one batch the stored name is lost. -/
theorem batching_visible :
    (nameAfter (together (officeUpdate 2 true) (officeEvent .d 3)) = .ok (some (.text "Head Office")) ∧
      nameAfter (apart (officeUpdate 2 true) (officeEvent .d 3)) = .ok (some (.text "Main Office"))) ∧
    (nameAfter (together (officeEvent .d 2) (officeUpdate 3 false)) = .ok none ∧
      nameAfter (apart (officeEvent .d 2) (officeUpdate 3 false)) = .ok (some (.text "Head Office"))) ∧
    ¬ Unseen mOfficeContract "prod" ⟨"branch-001","default",1⟩ ⟨office,Relation.empty⟩
      (together (officeUpdate 2 true) (officeEvent .d 3)) (apart (officeUpdate 2 true) (officeEvent .d 3)) := by
  refine ⟨⟨rfl,rfl⟩,⟨rfl,rfl⟩,?_⟩
  intro unseen
  have same := congrArg (Option.map Cell.value) (unseen _ _ rfl rfl "name" (by decide) (by decide))
  have names : some (some (Value.text "Head Office")) = some (some (Value.text "Main Office")) := same
  exact absurd names (by decide)

/-- A new name followed by an update that withholds it can be batched. -/
theorem batching_invisible_iff_office :
    Unseen mOfficeContract "prod" ⟨"branch-001","default",1⟩ ⟨office,Relation.empty⟩
      (together (officeUpdate 2 true) (officeUpdate 3 false)) (apart (officeUpdate 2 true) (officeUpdate 3 false)) :=
  (batching_invisible_iff mOfficeContract "prod" ⟨"branch-001","default",1⟩ (some (1,some 1))
    [[shapeOf (officeUpdate 2 true),shapeOf (officeUpdate 3 false)]] (.inl rfl) (by decide) (by decide)).mpr (by decide)
    _ _ _ ⟨rfl,rfl⟩ rfl

end FineractBi.Batching
