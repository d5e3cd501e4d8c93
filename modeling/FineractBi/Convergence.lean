import FineractBi.ApplyBatch

/-!
Delivery converges: whatever the order, the batching and the duplication in
which the changes of a key reach `meta.apply_staged_batch`, the stored row is
that of the newest change. The reason is that the dedup order inside a batch and
the row guard between batches are one order on versions.
-/
namespace FineractBi.Convergence
open Calendar Newest FineractBi.Contract FineractBi.Routing FineractBi.ApplyBatch
open FineractBi.StateMachine (Engine Ownership)

/-- A change event of a key, without what delivery adds to it. -/
structure Change where
  cols : Column → Option Value
  sourceGeneration : Int
  sourceLsn : Option Int
  op : Op

/-- The order of changes: generation, then lsn with NULL first. -/
def Change.version (e : Change) : Int ×ₗ WithBot Int := toLex (e.sourceGeneration,e.sourceLsn)

/-- The change that a staged row delivers. -/
def changeOf (row : StagedRow) : Change := ⟨row.cols,row.sourceGeneration,row.sourceLsn,row.op⟩

/-- One call of `meta.apply_staged_batch` with the state it runs in. -/
structure Batch where
  now : Int
  today : Date
  db : ControlState
  stage : List StagedRow

/-- Calls one after the other; the first refused one stops the run. -/
def applyBatches (t : TableContract) (engine : Engine) : List Batch → Stores → Except String Stores
  | [], stores => .ok stores
  | batch :: rest, stores => do
    let (after,_,_) ← applyStagedBatch t engine batch.now batch.today batch.db batch.stage stores
    applyBatches t engine rest after

/-- The rows that a run of calls delivers for a target and key. -/
def delivered (batches : List Batch) (target : String) (k : Key) : List StagedRow :=
  batches.flatMap (fun batch => stagedFor batch.stage target k)

/-- A row whose version the two orders read alike. -/
def Versioned (row : StagedRow) : Prop := ∀ n, row.sourceLsn = some n → 0 ≤ n

/-- An upsert that carries all columns, or a delete. -/
def Complete (row : StagedRow) : Prop := row.op = .u → row.unavailable.getD [] = []

/-- The stored row says what the change `top` says. -/
def Reflects (stored : Option RawRow) : Option StagedRow → Prop
  | none => stored = none
  | some top => ∃ row, stored = some row ∧ row.sourceGeneration = top.sourceGeneration ∧
      row.sourceLsn = top.sourceLsn ∧ row.isDeleted = decide (top.op = .d) ∧ (top.op = .u → row.cols = top.cols)

/-- COALESCE(lsn, -1) and NULLS LAST order versions alike. -/
theorem version_le_iff {a b : StagedRow} (versionedA : Versioned a) (versionedB : Versioned b) :
    toLex (a.sourceGeneration,a.sourceLsn.getD (-1)) ≤ toLex (b.sourceGeneration,b.sourceLsn.getD (-1)) ↔
      version a ≤ version b := by
  simp only [version,Prod.Lex.toLex_le_toLex]
  refine or_congr_right (and_congr_right (fun _ => ?_))
  cases lsnA : a.sourceLsn with
  | none => cases lsnB : b.sourceLsn with
    | none => exact iff_of_true (le_refl _) (le_refl _)
    | some m =>
      have := versionedB m lsnB
      simp only [Option.getD_none,Option.getD_some]
      exact ⟨fun _ => bot_le,fun _ => by omega⟩
  | some n =>
    have := versionedA n lsnA
    cases lsnB : b.sourceLsn with
    | none =>
      simp only [Option.getD_none,Option.getD_some]
      exact ⟨fun le => by omega,fun le => absurd le (WithBot.not_coe_le_bot n)⟩
    | some m => exact WithBot.coe_le_coe.symm

/-- The merged columns are those of the newest row when that row carries all. -/
theorem dedup_top {t : TableContract} {stage : List StagedRow} {target : String} {k : Key} {top : StagedRow}
    (found : newest version (stagedFor stage target k) = some top) :
    ∃ d, dedup t stage target k = some d ∧ d.sourceGeneration = top.sourceGeneration ∧
      d.sourceLsn = top.sourceLsn ∧ d.op = top.op ∧
      (top.unavailable.getD [] = [] → d.cols = top.cols ∧ d.unavailable = []) := by
  simp only [dedup,found,Option.map_some]
  refine ⟨_,rfl,rfl,rfl,rfl,?_⟩
  intro full
  have carries : ∀ c, isAvailable top c = true := fun c => by simp [isAvailable,full]
  constructor
  · split
    · funext c
      show (newest version ((stagedFor stage target k).filter (isAvailable · c))).bind (·.cols c) = top.cols c
      rw [newest_filter (p := (isAvailable · c)) found (carries c)]
      rfl
    · rfl
  · split
    · rw [List.filter_eq_nil_iff]
      intro c _
      simpa using ⟨top,newest_mem found,carries c⟩
    · exact full

/-- One batch: the stored row follows the newest row delivered so far. -/
theorem reflects_writeBatch {t : TableContract} {now : Int} {stage seen : List StagedRow} {target : String}
    {raw : RawTable} {k : Key} (versioned : ∀ row ∈ seen ++ stagedFor stage target k, Versioned row)
    (complete : ∀ row ∈ stagedFor stage target k, Complete row)
    (reflects : Reflects (raw.get k) (newest version seen)) :
    Reflects ((writeBatch t .KAFKA now stage target raw).get k)
      (newest version (seen ++ stagedFor stage target k)) := by
  rw [writeBatch_get,newest_append]
  cases found : newest version (stagedFor stage target k) with
  | none =>
    rw [dedup_eq_none.mpr (newest_eq_none.mp found)]
    cases before : newest version seen with
    | none => rwa [before] at reflects
    | some x => rwa [before] at reflects
  | some top =>
    obtain ⟨d,merged,generation,lsn,op,full⟩ := dedup_top (t := t) found
    have at_top := newest_mem found
    simp only [merged]
    cases before : newest version seen with
    | none =>
      rw [before] at reflects
      rw [show raw.get k = none from reflects]
      refine ⟨_,rfl,generation,lsn,by simp [upsert,insertRow,op],?_⟩
      intro upserts
      exact (full (complete top at_top upserts)).1
    | some x =>
      rw [before] at reflects
      obtain ⟨row,stored,rowGeneration,rowLsn,deleted,carried⟩ := reflects
      have passes : guard .KAFKA d row = decide (version x ≤ version top) := by
        have order := version_le_iff (versioned x (List.mem_append_left _ (newest_mem before)))
          (versioned top (List.mem_append_right _ at_top))
        simp only [ApplyBatch.guard,rowGeneration,rowLsn,generation,lsn,order]
      simp only [stored,upsert,passes]
      by_cases le : version x ≤ version top
      · simp only [le,decide_true,if_true]
        refine ⟨_,rfl,generation,lsn,by simp [setAvailable,insertRow,op],?_⟩
        intro upserts
        obtain ⟨cols,unavailable⟩ := full (complete top at_top upserts)
        funext c
        simp [setAvailable,op,upserts,unavailable,cols]
      · simp only [le,decide_false,if_false,Bool.false_eq_true]
        exact ⟨row,rfl,rowGeneration,rowLsn,deleted,carried⟩

theorem applyStagedBatch_table {t : TableContract} {engine : Engine} {now : Int} {today : Date} {db : ControlState}
    {stage : List StagedRow} {stores after : Stores} {log : List LogEntry} {results : List BatchResult} {target : String}
    (known : target = "prod" ∨ target = "shadow")
    (applied : applyStagedBatch t engine now today db stage stores = .ok (after,log,results)) :
    after.table target = writeBatch t engine now stage target (stores.table target) := by
  obtain ⟨_,_,rfl,_,_⟩ := applyStagedBatch_ok.mp applied
  rcases known with rfl | rfl
  · simp [Stores.table]
  · simp [Stores.table]

/-- A run of calls: the stored row follows the newest row delivered by all of them. -/
theorem reflects_applyBatches {t : TableContract} {batches : List Batch} {start final : Stores} {target : String}
    {k : Key} (seen : List StagedRow) (known : target = "prod" ∨ target = "shadow")
    (versioned : ∀ row ∈ seen ++ delivered batches target k, Versioned row)
    (complete : ∀ row ∈ delivered batches target k, Complete row)
    (reflects : Reflects ((start.table target).get k) (newest version seen))
    (applied : applyBatches t .KAFKA batches start = .ok final) :
    Reflects ((final.table target).get k) (newest version (seen ++ delivered batches target k)) := by
  induction batches generalizing start seen with
  | nil =>
    cases applied
    simpa [delivered] using reflects
  | cons batch rest ih =>
    simp only [delivered,List.flatMap_cons,← List.append_assoc] at versioned complete ⊢
    cases first : applyStagedBatch t .KAFKA batch.now batch.today batch.db batch.stage start with
    | error e => simp [applyBatches,first,bind,Except.bind] at applied
    | ok result =>
      obtain ⟨after,log,results⟩ := result
      simp only [applyBatches,first,bind,Except.bind] at applied
      refine ih _ versioned (fun row member => complete row (List.mem_append_right _ member)) ?_ applied
      rw [applyStagedBatch_table known first]
      exact reflects_writeBatch (fun row member => versioned row (List.mem_append_left _ member))
        (fun row member => complete row (List.mem_append_left _ member)) reflects

/-- Whatever the order, the batching and the duplication, once every change of
    the key was delivered the stored row is that of the change with the greatest
    version. -/
theorem delivery_converges (t : TableContract) (batches : List Batch) (start final : Stores) (target : String) (k : Key)
    (events : List Change) (latest : Change)
    (known : target = "prod" ∨ target = "shadow")
    (distinct : (events.map Change.version).Nodup)
    (lsn : ∀ e ∈ events, ∀ n, e.sourceLsn = some n → 0 ≤ n)
    (fresh : (start.table target).get k = none)
    (applied : applyBatches t .KAFKA batches start = .ok final)
    (only : ∀ row ∈ delivered batches target k, changeOf row ∈ events ∧ Complete row)
    (all : ∀ e ∈ events, ∃ row ∈ delivered batches target k, changeOf row = e)
    (greatest : latest ∈ events ∧ ∀ e ∈ events, e.version ≤ latest.version) :
    ∃ row, (final.table target).get k = some row ∧
      row.sourceGeneration = latest.sourceGeneration ∧ row.sourceLsn = latest.sourceLsn ∧
      row.isDeleted = decide (latest.op = .d) ∧
      (latest.op = .u → ∀ c ∈ t.columns, columnOf t k row.cols c = columnOf t k latest.cols c) := by
  have versioned : ∀ row ∈ delivered batches target k, Versioned row :=
    fun row member => lsn (changeOf row) (only row member).1
  have reflects := reflects_applyBatches [] known (by simpa using versioned)
    (fun row member => (only row member).2) fresh applied
  rw [List.nil_append] at reflects
  obtain ⟨member,bound⟩ := greatest
  obtain ⟨row,at_row,rfl⟩ := all latest member
  cases found : newest version (delivered batches target k) with
  | none => simp [newest_eq_none.mp found] at at_row
  | some top =>
    have top_event := (only top (newest_mem found)).1
    -- the newest row delivers the greatest change, for no other has its version
    have equal : (changeOf top).version = (changeOf row).version :=
      le_antisymm (bound _ top_event) (show version row ≤ version top from newest_ge found at_row)
    have same : changeOf top = changeOf row := List.inj_on_of_nodup_map distinct top_event member equal
    rw [found] at reflects
    obtain ⟨stored,at_k,generation,lsn',deleted,cols⟩ := reflects
    rw [← same]
    refine ⟨stored,at_k,generation,lsn',deleted,?_⟩
    intro upserts c _
    rw [cols upserts]
    rfl

/-- KAFKA owns the offices of a source. -/
def kafkaOwned : ControlState where
  registry := [⟨"branch-001","default",1⟩]
  ownership := [{ sourceId := "branch-001", tableName := "m_office", engine := .KAFKA, shadowEngine := none,
                  cutoverState := .STEADY, epoch := 2 }]
  registryKey := by decide
  ownershipKey := by decide
  registryText := by decide
  ownershipText := by decide

/-- An event of office 1. -/
def officeEvent (op : Op) (lsn : Int) : StagedRow where
  key := ⟨"branch-001","default",1⟩
  cols := fun c => if c = "name" ∧ op = .u then some (.text "Head Office") else none
  sourceGeneration := 1
  sourceLsn := some lsn
  sourceTs := none
  op := op
  unavailable := none
  ownerEpoch := 2
  target := "prod"

/-- A delete at lsn 7, then the late upsert of lsn 5 twice and the delete again. -/
def lateUpsert : List Batch :=
  [⟨0,0,kafkaOwned,[officeEvent .d 7]⟩,⟨1,0,kafkaOwned,[officeEvent .u 5,officeEvent .u 5]⟩,
    ⟨2,0,kafkaOwned,[officeEvent .u 5,officeEvent .d 7]⟩]

/-- The late upsert does not resurrect the deleted office. -/
theorem delivery_converges_late_upsert :
    ∃ final, applyBatches mOfficeContract .KAFKA lateUpsert ⟨Relation.empty,Relation.empty⟩ = .ok final ∧
      ∃ row, (final.table "prod").get ⟨"branch-001","default",1⟩ = some row ∧ row.sourceLsn = some 7 ∧
        row.isDeleted = true := by
  obtain ⟨final,applied⟩ : ∃ final,
      applyBatches mOfficeContract .KAFKA lateUpsert ⟨Relation.empty,Relation.empty⟩ = .ok final := ⟨_,rfl⟩
  refine ⟨final,applied,?_⟩
  have rows : delivered lateUpsert "prod" ⟨"branch-001","default",1⟩ =
      [officeEvent .d 7,officeEvent .u 5,officeEvent .u 5,officeEvent .u 5,officeEvent .d 7] := rfl
  obtain ⟨row,stored,_,lsn,deleted,_⟩ := delivery_converges mOfficeContract lateUpsert ⟨Relation.empty,Relation.empty⟩
    final "prod" ⟨"branch-001","default",1⟩ [changeOf (officeEvent .u 5),changeOf (officeEvent .d 7)]
    (changeOf (officeEvent .d 7)) (.inl rfl) (by decide) (by decide) rfl applied
    (by simp [rows,Complete,officeEvent])
    (by simp [rows])
    ⟨by simp,by decide⟩
  exact ⟨row,stored,lsn,deleted⟩

end FineractBi.Convergence
