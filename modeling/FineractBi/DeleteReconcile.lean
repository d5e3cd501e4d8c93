import Mathlib.Data.Prod.Lex
import Mathlib.Data.String.Basic
import FineractBi.SourceReconcile
import FineractBi.PageLoop
import FineractBi.ApplyBatch

/-!
The delete reconciliation of the Python extractor: the keys of a table are
compared with its live rows in the warehouse, the keys that are missing at the
source are looked up there once more, and the rest is marked deleted in pages.
What the comparison does not notice stays live.
-/
namespace FineractBi.DeleteReconcile
open Paging FineractBi.Contract FineractBi.ApplyBatch FineractBi.SourceReconcile
open FineractBi.PageLoop (SourceRow Content Timestamp)

/-- A table of a source and target, as a run in mode `reconcile` gets it. -/
structure Reconciliation where
  table : TableContract
  sourceId : String
  tenantId : String
  captureGeneration : Int
  epoch : Int
  target : String
  pageSize : Nat
  pagePositive : 0 < pageSize
  bucketSize : Int
  bucketPositive : 0 < bucketSize

/-- `max_drilldown_buckets`. -/
def maxDrilldownBuckets : Nat := 10000

/-- The order of the primary key of a raw table. -/
@[reducible] def keyOrder : LinearOrder Key :=
  LinearOrder.lift' (fun k : Key => toLex (k.sourceId,toLex (k.tenantId,k.id))) (by
    rintro ⟨s,t,i⟩ ⟨s',t',i'⟩ same
    simp only [EmbeddingLike.apply_eq_iff_eq,Prod.mk.injEq] at same
    obtain ⟨rfl,rfl,rfl⟩ := same
    rfl)

section
variable (x : Reconciliation)

/-- `source_id = %s AND NOT _is_deleted`. -/
def live (table : RawTable) : RawTable :=
  table.filterMap (fun k row => if k.sourceId = x.sourceId ∧ row.isDeleted = false then some row else none)

def warehouseRows (table : RawTable) : List (Int × SourceRow) :=
  (@Relation.scan Key RawRow keyOrder (live x table)).map (fun entry => (entry.1.id,entry.2.cols))

/-- `details["missing_in_source_keys"]` of the comparison. -/
def missingInSourceKeys (source : Content) (table : RawTable) : List Int :=
  (sourceVsWarehouse x.sourceId x.table.tableName x.bucketSize maxDrilldownBuckets none source.scan
    (warehouseRows x table)).details.missingInSourceKeys

/-- `_still_missing`. -/
def stillMissing (source : Content) (keys : List Int) : List Int :=
  let present := (chunks 5000 keys).flatMap (fun chunk => (source.scan.map Prod.fst).filter (fun k => k ∈ chunk))
  keys.filter (fun k => k ∉ present)

/-- A row that is staged to be deleted. -/
def deletedRow (now : Timestamp) (key : Int) : StagedRow where
  key := ⟨x.sourceId,x.tenantId,key⟩
  cols := fun c => if c = x.table.primaryKey then some (.int key) else none
  sourceGeneration := x.captureGeneration
  sourceLsn := none
  sourceTs := some now
  op := .d
  unavailable := none
  ownerEpoch := x.epoch
  target := x.target

/-- One page of deletions. -/
def writePage (now : Timestamp) (chunk : List Int) (table : RawTable) : RawTable :=
  writeBatch x.table .PYTHON now (chunk.map (deletedRow x now)) x.target table

/-- The pages, each at its time. -/
def writePages : (Nat → Timestamp) → List (List Int) → RawTable → RawTable
  | _, [], table => table
  | now, chunk :: rest, table => writePages (fun n => now (n + 1)) rest (writePage x (now 0) chunk table)

/-- `_reconcile_deletes`: the target's table after the run. -/
def reconcileDeletes (now : Nat → Timestamp) (source : Content) (table : RawTable) : RawTable :=
  writePages x now (chunks x.pageSize (stillMissing source (missingInSourceKeys x source table))) table

/-- Every live row of the source is there at the source. -/
def Complete (source : Content) (table : RawTable) : Prop := ∀ k ∈ (live x table).keys, (source.get k.id).isSome

/-- The rows of the keys that are there at the source are as they were. -/
def Kept (source : Content) (before after : RawTable) : Prop :=
  ∀ k : Key, (source.get k.id).isSome → after.get k = before.get k

def sourceCount (source : Content) (b : Int) : Nat :=
  (source.keys.filter (fun k => bucketOf x.bucketSize k = b)).card

def liveCount (table : RawTable) (b : Int) : Nat :=
  ((live x table).keys.filter (fun k => bucketOf x.bucketSize k.id = b)).card

/-- The buckets that hold different numbers of keys on the two sides. -/
def unevenBuckets (source : Content) (table : RawTable) : Finset Int :=
  (source.keys.image (bucketOf x.bucketSize) ∪ (live x table).keys.image (fun k => bucketOf x.bucketSize k.id)).filter
    (fun b => sourceCount x source b ≠ liveCount x table b)

/-- The range that holds the key is that of an uneven bucket, with few enough uneven ones before it. -/
def Noticed (source : Content) (table : RawTable) (k : Int) : Prop :=
  k / x.bucketSize ∈ unevenBuckets x source table ∧
    ((unevenBuckets x source table).filter (· < k / x.bucketSize)).card < maxDrilldownBuckets

end

section
variable {x : Reconciliation} {now : Timestamp} {chunk : List Int} {table : RawTable} {k : Key} {id : Int}

private theorem mem_live : k ∈ (live x table).keys ↔
    ∃ row, table.get k = some row ∧ k.sourceId = x.sourceId ∧ row.isDeleted = false := by
  rw [Relation.mem_keys,live,Relation.filterMap_get]
  cases table.get k with
  | none => simp
  | some row => simp [Option.isSome_iff_exists]

theorem Complete.present {source : Content} {row : RawRow} (complete : Complete x source table)
    (found : table.get k = some row) (own : k.sourceId = x.sourceId) (open' : row.isDeleted = false) :
    (source.get k.id).isSome := complete k (mem_live.mpr ⟨row,found,own,open'⟩)

/-- The row of a key is there and deleted. -/
def Deleted (table : RawTable) (k : Key) : Prop := ∃ row, table.get k = some row ∧ row.isDeleted = true

private theorem staged_nil (outside : ∀ id ∈ chunk, k ≠ ⟨x.sourceId,x.tenantId,id⟩) :
    stagedFor (chunk.map (deletedRow x now)) x.target k = [] := by
  rw [stagedFor,List.filter_eq_nil_iff]
  intro row staged own
  obtain ⟨id,inside,rfl⟩ := List.mem_map.mp staged
  simp only [deletedRow,true_and,decide_eq_true_eq] at own
  exact outside id inside own.symm

/-- A page leaves the rows of other keys as they are. -/
theorem writePage_keeps (outside : ∀ id ∈ chunk, k ≠ ⟨x.sourceId,x.tenantId,id⟩) :
    (writePage x now chunk table).get k = table.get k := by
  rw [writePage,writeBatch_get,dedup_eq_none.mpr (staged_nil outside)]

/-- A page marks the rows of its keys as deleted. -/
theorem writePage_deletes (inside : id ∈ chunk) : Deleted (writePage x now chunk table) ⟨x.sourceId,x.tenantId,id⟩ := by
  unfold Deleted
  rw [writePage,writeBatch_get]
  cases found : dedup x.table (chunk.map (deletedRow x now)) x.target ⟨x.sourceId,x.tenantId,id⟩ with
  | none =>
    have staged : deletedRow x now id ∈ stagedFor (chunk.map (deletedRow x now)) x.target ⟨x.sourceId,x.tenantId,id⟩ := by
      simpa [stagedFor,deletedRow] using inside
    rw [dedup_eq_none.mp found] at staged
    cases staged
  | some d =>
    have marked : d.op = .d := by
      obtain ⟨top,at_top,rfl⟩ := Option.map_eq_some_iff.mp found
      obtain ⟨_,_,rfl⟩ := List.mem_map.mp (List.mem_of_mem_filter (Newest.newest_mem at_top))
      rfl
    refine ⟨_,rfl,?_⟩
    have passes : ∀ old, ApplyBatch.guard .PYTHON d old = true := fun _ => rfl
    cases table.get ⟨x.sourceId,x.tenantId,id⟩ with
    | none => simp [upsert,insertRow,marked]
    | some old => simp [upsert,passes,setAvailable,insertRow,marked]

private theorem writePage_deleted (gone : Deleted table k) : Deleted (writePage x now chunk table) k := by
  by_cases inside : ∃ id ∈ chunk, k = ⟨x.sourceId,x.tenantId,id⟩
  · obtain ⟨id,inside,rfl⟩ := inside
    exact writePage_deletes inside
  · push Not at inside
    rwa [Deleted,writePage_keeps inside]

private theorem writePages_keeps {pages : List (List Int)} {now : Nat → Timestamp}
    (outside : ∀ chunk ∈ pages, ∀ id ∈ chunk, k ≠ ⟨x.sourceId,x.tenantId,id⟩) :
    (writePages x now pages table).get k = table.get k := by
  induction pages generalizing now table with
  | nil => rfl
  | cons chunk rest ih =>
    rw [writePages,ih (fun chunk later => outside chunk (List.mem_cons_of_mem _ later)),
      writePage_keeps (outside chunk List.mem_cons_self)]

private theorem writePages_deleted {pages : List (List Int)} {now : Nat → Timestamp} (gone : Deleted table k) :
    Deleted (writePages x now pages table) k := by
  induction pages generalizing now table with
  | nil => exact gone
  | cons chunk rest ih => exact ih (writePage_deleted gone)

/-- The pages mark the rows of all their keys as deleted. -/
theorem writePages_deletes {pages : List (List Int)} (now : Nat → Timestamp) (table : RawTable)
    (inside : ∃ chunk ∈ pages, id ∈ chunk) :
    Deleted (writePages x now pages table) ⟨x.sourceId,x.tenantId,id⟩ := by
  induction pages generalizing now table with
  | nil => simp at inside
  | cons chunk rest ih =>
    rw [writePages]
    by_cases first : id ∈ chunk
    · exact writePages_deleted (writePage_deletes first)
    · exact ih _ _ (by simpa [first] using inside)

end

section
variable {x : Reconciliation} {source : Content} {table : RawTable} {id : Int}

private theorem mem_stillMissing {keys : List Int} : id ∈ stillMissing source keys ↔ id ∈ keys ∧ source.get id = none := by
  have present : id ∈ keys → (id ∈ (chunks 5000 keys).flatMap
      (fun chunk => (source.scan.map Prod.fst).filter (fun k => k ∈ chunk)) ↔ (source.get id).isSome) := by
    intro inside
    obtain ⟨chunk,cut,here⟩ := (mem_chunks (n := 5000) (by decide)).mpr inside
    simp only [List.mem_flatMap,List.mem_filter,decide_eq_true_eq,List.mem_map,Prod.exists,Relation.mem_scan,
      exists_and_right,exists_eq_right,Option.isSome_iff_exists]
    refine ⟨?_,fun there => ⟨chunk,cut,there,here⟩⟩
    rintro ⟨_,_,there,_⟩
    exact there
  simp only [stillMissing,List.mem_filter,decide_eq_true_eq]
  refine and_congr_right (fun inside => ?_)
  rw [present inside,Option.not_isSome_iff_eq_none]

/-- The keys of a side that is read without hashes. -/
theorem mem_keySet_expression {V : Type} {rows : List (Int × V)} :
    id ∈ keySet (expression none rows) ↔ id ∈ rows.map Prod.fst := by
  simp [mem_keySet,expression]

private theorem source_keys : id ∈ source.scan.map Prod.fst ↔ (source.get id).isSome := by
  simp [Option.isSome_iff_exists]

private theorem warehouse_keys : id ∈ (warehouseRows x table).map Prod.fst ↔ ∃ k ∈ (live x table).keys, k.id = id := by
  have mem := @Relation.mem_scan Key RawRow keyOrder (live x table)
  simp only [warehouseRows,List.map_map,List.mem_map,Function.comp_apply,Prod.exists,mem,Relation.mem_keys,
    Option.isSome_iff_exists]
  exact ⟨fun ⟨k,row,there,same⟩ => ⟨k,⟨row,there⟩,same⟩,fun ⟨k,⟨row,there⟩,same⟩ => ⟨k,row,there,same⟩⟩

/-- Without hashes the aggregates of a bucket are the number of its keys. -/
theorem aggregates_expression {V : Type} {size : Int} {rows : List (Int × V)} (b : Int) :
    bucketAggregates size (expression none rows) b =
      if ((rows.map Prod.fst).filter (fun k => bucketOf size k = b)).length = 0 then none
      else some (((rows.map Prod.fst).filter (fun k => bucketOf size k = b)).length,0) := by
  have zeros (l : List (Int × V)) : ((l.map (fun row => (row.1,(0 : Int)))).map (·.2)).sum = 0 := by
    induction l with
    | nil => rfl
    | cons row rest ih => simpa using ih
  simp only [bucketAggregates,expression,Option.elim_none,List.filter_map,List.length_map,List.map_eq_nil_iff,zeros,
    List.length_eq_zero_iff]
  rfl

private theorem source_count (b : Int) :
    ((source.scan.map Prod.fst).filter (fun k => bucketOf x.bucketSize k = b)).length = sourceCount x source b := by
  rw [← Multiset.coe_card,← Multiset.filter_coe,← Multiset.map_coe,Relation.scan_rows,Relation.rows_keys]
  rfl

private theorem live_count (b : Int) :
    (((warehouseRows x table).map Prod.fst).filter (fun k => bucketOf x.bucketSize k = b)).length = liveCount x table b := by
  have ids : (((warehouseRows x table).map Prod.fst : List Int) : Multiset Int) = (live x table).keys.val.map (·.id) := by
    rw [← Relation.rows_keys,← @Relation.scan_rows Key RawRow keyOrder,Multiset.map_coe,Multiset.map_coe,warehouseRows,
      List.map_map,List.map_map]
    rfl
  rw [← Multiset.coe_card,← Multiset.filter_coe,ids,Multiset.filter_map,Multiset.card_map]
  rfl

/-- The aggregates of a bucket differ exactly when it is uneven. -/
theorem uneven_iff (b : Int) : b ∈ unevenBuckets x source table ↔
    bucketAggregates x.bucketSize (expression none source.scan) b ≠
      bucketAggregates x.bucketSize (expression none (warehouseRows x table)) b := by
  rw [aggregates_expression,aggregates_expression,source_count,live_count,unevenBuckets,Finset.mem_filter]
  have occupied : sourceCount x source b ≠ liveCount x table b →
      b ∈ source.keys.image (bucketOf x.bucketSize) ∪ (live x table).keys.image (fun k => bucketOf x.bucketSize k.id) := by
    intro uneven
    rcases Nat.eq_zero_or_pos (sourceCount x source b) with empty | some_key
    · obtain ⟨k,inside⟩ := Finset.card_pos.mp (Nat.pos_of_ne_zero (fun zero => uneven (empty.trans zero.symm)))
      obtain ⟨there,own⟩ := Finset.mem_filter.mp inside
      exact Finset.mem_union_right _ (Finset.mem_image.mpr ⟨k,there,own⟩)
    · obtain ⟨k,inside⟩ := Finset.card_pos.mp some_key
      obtain ⟨there,own⟩ := Finset.mem_filter.mp inside
      exact Finset.mem_union_left _ (Finset.mem_image.mpr ⟨k,there,own⟩)
  rw [and_iff_right_of_imp occupied]
  by_cases empty : sourceCount x source b = 0
  · by_cases empty' : liveCount x table b = 0
    · simp [empty,empty']
    · simp [empty,empty',Ne.symm empty']
  · by_cases empty' : liveCount x table b = 0
    · simp [empty,empty']
    · simp [empty,empty']

/-- The keys that the comparison reports as missing at the source. -/
theorem mem_missingInSourceKeys : id ∈ missingInSourceKeys x source table ↔
    ((∃ k ∈ (live x table).keys, k.id = id) ∧ source.get id = none) ∧ Noticed x source table id := by
  unfold missingInSourceKeys sourceVsWarehouse Noticed
  rw [mem_missingInSrc x.bucketPositive,mem_drilled uneven_iff,mem_keySet_expression,mem_keySet_expression,
    warehouse_keys,source_keys,Option.not_isSome_iff_eq_none]
  simp

/-- The keys that a run stages. -/
theorem mem_staged : (∃ chunk ∈ chunks x.pageSize (stillMissing source (missingInSourceKeys x source table)), id ∈ chunk) ↔
    ((∃ k ∈ (live x table).keys, k.id = id) ∧ source.get id = none) ∧ Noticed x source table id := by
  rw [mem_chunks x.pagePositive,mem_stillMissing,mem_missingInSourceKeys]
  tauto

/-- Whatever the keys are, a run does not touch a row that is there at the source. -/
theorem reconcile_kept (now : Nat → Timestamp) : Kept source table (reconcileDeletes x now source table) := by
  intro k there
  refine writePages_keeps (fun chunk cut id inside same => ?_)
  obtain ⟨⟨_,absent⟩,_⟩ := mem_staged.mp ⟨chunk,cut,inside⟩
  rw [same,absent] at there
  cases there

/-- The keys that the comparison notices, under the tenant of the source, are marked as deleted. -/
theorem reconcile_deletes (now : Nat → Timestamp) (lives : ∃ k ∈ (live x table).keys, k.id = id)
    (absent : source.get id = none) (noticed : Noticed x source table id) :
    Deleted (reconcileDeletes x now source table) ⟨x.sourceId,x.tenantId,id⟩ :=
  writePages_deletes _ _ (mem_staged.mpr ⟨⟨lives,absent⟩,noticed⟩)

/-- The other rows of the source are left as they are. -/
theorem reconcile_leaves (now : Nat → Timestamp) {k : Key} (lives : k ∈ (live x table).keys)
    (missed : ¬(k.tenantId = x.tenantId ∧ Noticed x source table k.id)) :
    (reconcileDeletes x now source table).get k = table.get k := by
  refine writePages_keeps (fun chunk cut id inside same => ?_)
  subst same
  exact missed ⟨rfl,(mem_staged.mp ⟨chunk,cut,inside⟩).2⟩

/-- A run is complete and keeps what the source has exactly when every live row that is missing
    at the source is under the source's tenant and in a range that is noticed. -/
theorem reconcile_complete_iff (x : Reconciliation) (now : Nat → Timestamp) (source : Content) (table : RawTable) :
    Complete x source (reconcileDeletes x now source table) ∧ Kept source table (reconcileDeletes x now source table) ↔
      ∀ k ∈ (live x table).keys, source.get k.id = none → k.tenantId = x.tenantId ∧ Noticed x source table k.id := by
  constructor
  · rintro ⟨complete,_⟩ k lives absent
    by_contra missed
    obtain ⟨row,found,own,open'⟩ := mem_live.mp lives
    have there := complete.present ((reconcile_leaves now lives missed).trans found) own open'
    rw [absent] at there
    cases there
  · intro noticed
    refine ⟨fun k lives => ?_,reconcile_kept now⟩
    by_contra absent
    rw [Option.not_isSome_iff_eq_none] at absent
    obtain ⟨row,found,own,open'⟩ := mem_live.mp lives
    have unstaged : ∀ chunk ∈ chunks x.pageSize (stillMissing source (missingInSourceKeys x source table)),
        ∀ id ∈ chunk, k ≠ ⟨x.sourceId,x.tenantId,id⟩ := by
      rintro chunk cut id inside rfl
      obtain ⟨row',found',marked⟩ := writePages_deletes now table ⟨chunk,cut,inside⟩
      obtain rfl := Option.some.inj (found'.symm.trans found)
      exact absurd (marked.symm.trans open') (by decide)
    have before := mem_live.mpr ⟨row,(writePages_keeps unstaged).symm.trans found,own,open'⟩
    obtain ⟨same_tenant,seen⟩ := noticed k before absent
    obtain ⟨row',found',marked⟩ := reconcile_deletes now ⟨k,before,rfl⟩ absent seen
    rw [← own,← same_tenant,found,Option.some.injEq] at found'
    subst found'
    exact absurd (marked.symm.trans open') (by decide)

end

def offices : Reconciliation where
  table := mOfficeContract
  sourceId := "s"
  tenantId := "t"
  captureGeneration := 0
  epoch := 1
  target := "prod"
  pageSize := 1000
  pagePositive := by decide
  bucketSize := 100000
  bucketPositive := by decide

/-- Office 1 has not been extracted yet. -/
def newOffice : Content := Relation.tabulate {1} (fun _ => some (fun _ => none))

/-- Office 2 is gone at the source. -/
def goneKey : Key := ⟨"s","t",2⟩

def oldOffice : RawTable := Relation.tabulate {goneKey} (fun _ => some ⟨fun _ => none,0,none,none,0,.PYTHON,false⟩)

def officesAfter : RawTable := reconcileDeletes offices (fun _ => 0) newOffice oldOffice

/-- The two keys are counted in one bucket, so the deleted office is not noticed. -/
theorem equal_counts_stay_live : ¬(Complete offices newOffice officesAfter ∧ Kept newOffice oldOffice officesAfter) := by
  rintro ⟨complete,_⟩
  have lives : (officesAfter.get goneKey).map (·.isDeleted) = some false := by decide +kernel
  obtain ⟨row,found,open'⟩ := Option.map_eq_some_iff.mp lives
  exact absurd (complete.present found rfl open') (by decide)

end FineractBi.DeleteReconcile
