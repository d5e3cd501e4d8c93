import Mathlib.Data.Int.ConditionallyCompleteOrder
import Mathlib.Data.List.Dedup
import Mathlib.Data.Prod.Lex
import Mathlib.Order.WithBot
import Mathlib.Order.ConditionallyCompleteLattice.Basic
import FineractBi.Contract
import FineractBi.Routing
import FineractBi.Lib.Newest
import FineractBi.Lib.Relation

/-!
`meta.apply_staged_batch`: the staged rows of a batch are checked against the
ownership of their sources, reduced to one row per key, written to `raw` or
`raw_shadow` under the version guard, and the production changes are logged in
`meta.entity_change_log`. The spec of a batch is `writeBatch_get`.
-/
namespace FineractBi.ApplyBatch
open Calendar Newest FineractBi.Contract FineractBi.Routing
open FineractBi.StateMachine (Engine)

/-- The primary key of a raw table. -/
structure Key where
  sourceId : String
  tenantId : String
  id : Int
  deriving DecidableEq, Repr

/-- A row of a raw table without its key; `cols` holds the contract columns. -/
structure RawRow where
  cols : Column → Option Value
  sourceGeneration : Int
  sourceLsn : Option Int
  sourceTs : Option Int
  ingestedAt : Int
  ingestEngine : Engine
  isDeleted : Bool

/-- `_op` of a staged row. -/
inductive Op
  | u | d
  deriving DecidableEq, Repr

/-- A row of the stage table. The stage is a list in the order of `_stage_seq`. -/
structure StagedRow where
  key : Key
  cols : Column → Option Value
  sourceGeneration : Int
  sourceLsn : Option Int
  sourceTs : Option Int
  op : Op
  unavailable : Option (List Column)
  ownerEpoch : Int
  target : String

abbrev RawTable := Relation Key RawRow

/-- A contract column of a row, the primary key included. -/
def columnOf (t : TableContract) (key : Key) (cols : Column → Option Value) (c : Column) : Option Value :=
  if c = t.primaryKey then some (.int key.id) else cols c

/-- `ORDER BY _source_generation DESC, _source_lsn DESC NULLS LAST`: a missing
    lsn is the oldest of its generation. -/
def version (row : StagedRow) : Int ×ₗ WithBot Int := toLex (row.sourceGeneration,row.sourceLsn)

/-- `cardinality(_unavailable) > 0` for some staged row. -/
def hasUnavailable (stage : List StagedRow) : Bool :=
  stage.any (fun row => (row.unavailable.getD []).length > 0)

/-- `name <> ALL(COALESCE(_unavailable, ARRAY[]))`. -/
def isAvailable (row : StagedRow) (c : Column) : Bool := !(row.unavailable.getD []).contains c

/-- The staged rows of a target and key. -/
def stagedFor (stage : List StagedRow) (target : String) (k : Key) : List StagedRow :=
  stage.filter (fun row => row.target = target ∧ row.key = k)

/-- A row of the `dedup` query. -/
structure DedupRow where
  cols : Column → Option Value
  sourceGeneration : Int
  sourceLsn : Option Int
  sourceTs : Option Int
  op : Op
  unavailable : List Column

/-- `v_dedup`: DISTINCT ON the key when no staged row has unavailable columns,
    else the newest available value of every column. -/
def dedup (t : TableContract) (stage : List StagedRow) (target : String) (k : Key) : Option DedupRow :=
  let rows := stagedFor stage target k
  (newest version rows).map (fun top =>
    { cols := if hasUnavailable stage
        then fun c => (newest version (rows.filter (isAvailable · c))).bind (·.cols c)
        else top.cols
      sourceGeneration := top.sourceGeneration
      sourceLsn := top.sourceLsn
      sourceTs := top.sourceTs
      op := top.op
      unavailable := if hasUnavailable stage
        then (t.columns.filter (fun c => c ≠ t.primaryKey)).filter (fun c => !rows.any (isAvailable · c))
        else top.unavailable.getD [] })

/-- `v_guard`. -/
def guard (engine : Engine) (d : DedupRow) (t : RawRow) : Bool :=
  match engine with
  | .KAFKA => toLex (t.sourceGeneration,t.sourceLsn.getD (-1)) ≤ toLex (d.sourceGeneration,d.sourceLsn.getD (-1))
  | _ => true

/-- The row of an INSERT. -/
def insertRow (engine : Engine) (now : Int) (d : DedupRow) : RawRow :=
  ⟨d.cols,d.sourceGeneration,d.sourceLsn,d.sourceTs,now,engine,d.op = .d⟩

/-- `v_set`: ON CONFLICT DO UPDATE of a row that carries all columns. -/
def setAll (engine : Engine) (now : Int) (d : DedupRow) (t : RawRow) : RawRow :=
  { insertRow engine now d with cols := fun c => if d.op = .d then t.cols c else d.cols c }

/-- `v_set_unavailable`: UPDATE of a row with unavailable columns. -/
def setAvailable (engine : Engine) (now : Int) (d : DedupRow) (t : RawRow) : RawRow :=
  { insertRow engine now d with
    cols := fun c => if d.op = .d ∨ d.unavailable.contains c then t.cols c else d.cols c }

/-- A row that a statement returned in `applied`, with the row it replaced. -/
structure AppliedRow where
  key : Key
  new : RawRow
  old : Option RawRow

/-- The keys of the rows staged for a target. -/
def touched (stage : List StagedRow) (target : String) : List Key :=
  ((stage.filter (fun row => row.target = target)).map (·.key)).dedup

/-- What a statement does with a staged key: when it `selects` the dedup row, an
    insert, or an update by `set` when the guard lets it. -/
def appliedAt (t : TableContract) (engine : Engine) (now : Int) (stage : List StagedRow) (target : String)
    (selects : DedupRow → Bool) (set : DedupRow → RawRow → RawRow) (raw : RawTable) (k : Key) : Option AppliedRow :=
  match dedup t stage target k with
  | none => none
  | some d =>
    if selects d then
      match raw.get k with
      | none => some ⟨k,insertRow engine now d,none⟩
      | some old => if guard engine d old then some ⟨k,set d old,some old⟩ else none
    else none

/-- The rows that one statement returns. -/
def statement (t : TableContract) (engine : Engine) (now : Int) (stage : List StagedRow) (target : String)
    (selects : DedupRow → Bool) (set : DedupRow → RawRow → RawRow) (raw : RawTable) : List AppliedRow :=
  (touched stage target).filterMap (appliedAt t engine now stage target selects set raw)

/-- The statement for the rows without unavailable columns. -/
def applyFull (t : TableContract) (engine : Engine) (now : Int) (stage : List StagedRow) (target : String)
    (raw : RawTable) : List AppliedRow :=
  statement t engine now stage target (fun d => d.unavailable.length = 0) (setAll engine now) raw

/-- The statement for the rows with unavailable columns. -/
def applyPartial (t : TableContract) (engine : Engine) (now : Int) (stage : List StagedRow) (target : String)
    (raw : RawTable) : List AppliedRow :=
  if hasUnavailable stage
  then statement t engine now stage target (fun d => d.unavailable.length > 0) (setAvailable engine now) raw
  else []

/-- The table after a statement. -/
def store (raw : RawTable) (applied : List AppliedRow) : RawTable :=
  raw.alter (applied.map (·.key)).toFinset (fun k old => ((applied.find? (fun a => a.key = k)).map (·.new)).or old)

inductive LogEntity
  | loan | client | global | source
  deriving DecidableEq, Repr

/-- A row of `meta.entity_change_log`; its txid is that of the transaction. -/
structure LogEntry where
  sourceId : String
  tenantId : String
  entity : LogEntity
  entityId : Int
  minAffectedDate : Date
  deriving DecidableEq, Repr

/-- DATE '1900-01-01', the date of a change that affects all history. -/
def beginningOfTime : Date := ofCivil 1900 1 1
/-- DATE '9999-12-31', the date of nothing. -/
def endOfTime : Date := ofCivil 9999 12 31

/-- `v_changed`: a new row, a changed deletion mark, or a changed history column. -/
def changed (t : TableContract) (a : AppliedRow) : Bool :=
  match a.old with
  | none => true
  | some o => a.new.isDeleted ≠ o.isDeleted || t.changeHistoryColumns.isEmpty ||
      t.changeHistoryColumns.any (fun h => columnOf t a.key a.new.cols h ≠ columnOf t a.key o.cols h)

/-- The change date of a row, NULL when the contract names no date column. -/
def changeDateOf (t : TableContract) (key : Key) (row : RawRow) : Option Date :=
  t.changeDate.bind (fun c => asDate (columnOf t key row.cols c))

/-- The date from which a loan is affected by one applied row. -/
def affectedFrom (t : TableContract) (today : Date) (a : AppliedRow) : Date :=
  if changed t a then
    min (min ((changeDateOf t a.key a.new).getD beginningOfTime)
      ((a.old.bind (changeDateOf t a.key)).getD endOfTime)) today
  else today

/-- The entity that an applied row is logged under. -/
def changeKeyOf (t : TableContract) (a : AppliedRow) : Option (String × String × Int) :=
  (asInt (columnOf t a.key a.new.cols t.changeKey)).map (fun id => (a.key.sourceId,a.key.tenantId,id))

/-- `v_log`: what one statement inserts into the change log. -/
def logged (t : TableContract) (today : Date) (applied : List AppliedRow) : List LogEntry :=
  match t.changeEntity with
  | some .loan =>
    (applied.filterMap (changeKeyOf t)).dedup.filterMap (fun g =>
      ((applied.filter (fun a => changeKeyOf t a = some g)).map (affectedFrom t today)).min?.map (fun from_ =>
        ⟨g.1,g.2.1,.loan,g.2.2,from_⟩))
  | some .client =>
    (applied.filter (changed t)).filterMap (fun a =>
      (changeKeyOf t a).map (fun g => ⟨g.1,g.2.1,.client,g.2.2,beginningOfTime⟩))
  | some .global =>
    (applied.map (fun a => (a.key.sourceId,a.key.tenantId))).dedup.map (fun g =>
      ⟨g.1,g.2,.global,0,beginningOfTime⟩)
  | none => []

/-- The part of `meta.apply_staged_batch` that writes one target. -/
def writeBatch (t : TableContract) (engine : Engine) (now : Int) (stage : List StagedRow) (target : String)
    (raw : RawTable) : RawTable :=
  let raw₁ := store raw (applyFull t engine now stage target raw)
  store raw₁ (applyPartial t engine now stage target raw₁)

/-- What a batch makes of the row of a key. -/
def upsert (engine : Engine) (now : Int) (d : DedupRow) : Option RawRow → RawRow
  | none => insertRow engine now d
  | some old => if guard engine d old then setAvailable engine now d old else old

section Spec
variable {t : TableContract} {engine : Engine} {now : Int} {stage : List StagedRow} {target : String}
  {selects : DedupRow → Bool} {set : DedupRow → RawRow → RawRow} {raw : RawTable} {k : Key}

private theorem stagedFor_eq_nil (absent : k ∉ touched stage target) : stagedFor stage target k = [] := by
  rw [stagedFor,List.filter_eq_nil_iff]
  intro row member staged
  simp only [decide_eq_true_eq] at staged
  refine absent (List.mem_dedup.mpr (List.mem_map.mpr ⟨row,?_,staged.2⟩))
  simp [List.mem_filter,member,staged.1]

theorem dedup_eq_none : dedup t stage target k = none ↔ stagedFor stage target k = [] := by
  simp [dedup,newest_eq_none]

theorem appliedAt_key {a : AppliedRow} (applied : appliedAt t engine now stage target selects set raw k = some a) :
    a.key = k := by
  unfold appliedAt at applied
  repeat' split at applied
  all_goals cases applied
  all_goals rfl

/-- A statement returns the row of a key exactly as the key's dedup row says. -/
theorem statement_find : (statement t engine now stage target selects set raw).find? (fun a => a.key = k) =
    appliedAt t engine now stage target selects set raw k := by
  have keyed : ∀ k row, appliedAt t engine now stage target selects set raw k = some row → row.key = k :=
    fun _ _ => appliedAt_key
  rw [statement,Keyed.find_filterMap keyed]
  split
  · rfl
  · next absent => simp [appliedAt,dedup_eq_none.mpr (stagedFor_eq_nil absent)]

private theorem store_get (applied : List AppliedRow) : (store raw applied).get k =
    ((applied.find? (fun a => a.key = k)).map (·.new)).or (raw.get k) := by
  rw [store,Relation.alter_get]
  split
  · rfl
  · next absent =>
    have none_found : applied.find? (fun a => a.key = k) = none := by
      rw [Keyed.find_none]
      intro a member same
      exact absent (by simpa using ⟨a,member,same⟩)
    simp [none_found]

theorem setAll_eq (d : DedupRow) (old : RawRow) (full : d.unavailable = []) :
    setAll engine now d old = setAvailable engine now d old := by
  simp [setAll,setAvailable,full]

/-- Without unavailable columns in the stage no dedup row has any. -/
theorem dedup_unavailable {d : DedupRow} (carried : hasUnavailable stage = false)
    (found : dedup t stage target k = some d) : d.unavailable = [] := by
  obtain ⟨top,at_top,rfl⟩ := Option.map_eq_some_iff.mp found
  have member := List.mem_of_mem_filter (newest_mem at_top)
  have empty : (top.unavailable.getD []).length = 0 := by
    simpa [hasUnavailable] using List.any_eq_false.mp carried top member
  simpa [carried] using empty

private theorem store_statement_none (absent : dedup t stage target k = none) :
    (store raw (statement t engine now stage target selects set raw)).get k = raw.get k := by
  simp [store_get,statement_find,appliedAt,absent]

theorem store_statement_skipped {d : DedupRow} (found : dedup t stage target k = some d) (skipped : selects d = false) :
    (store raw (statement t engine now stage target selects set raw)).get k = raw.get k := by
  simp [store_get,statement_find,appliedAt,found,skipped]

private theorem store_statement_selected {d : DedupRow} (found : dedup t stage target k = some d) (selected : selects d = true)
    (same : ∀ old, set d old = setAvailable engine now d old) :
    (store raw (statement t engine now stage target selects set raw)).get k =
      some (upsert engine now d (raw.get k)) := by
  rw [store_get,statement_find]
  simp only [appliedAt,found,selected,if_true]
  cases stored : raw.get k with
  | none => rfl
  | some old =>
    by_cases passes : guard engine d old
    · simp [upsert,passes,same]
    · simp [upsert,passes]

/-- The spec of a batch: every staged key is upserted with its dedup row, and
    the other keys keep their rows. -/
theorem writeBatch_get : (writeBatch t engine now stage target raw).get k =
    match dedup t stage target k with
    | none => raw.get k
    | some d => some (upsert engine now d (raw.get k)) := by
  simp only [writeBatch,applyFull,applyPartial]
  cases found : dedup t stage target k with
  | none =>
    split
    · rw [store_statement_none found,store_statement_none found]
    · rw [store_get,List.find?_nil,Option.map_none,Option.none_or,store_statement_none found]
  | some d =>
    by_cases full : d.unavailable = []
    · have selected : (store raw (statement t engine now stage target (fun d => d.unavailable.length = 0)
          (fun d old => setAll engine now d old) raw)).get k = some (upsert engine now d (raw.get k)) :=
        store_statement_selected found (by simp [full]) (fun old => setAll_eq d old full)
      split
      · rw [store_statement_skipped found (by simp [full]),selected]
      · rw [store_get,List.find?_nil,Option.map_none,Option.none_or,selected]
    · have carried : hasUnavailable stage = true := by
        by_contra carried
        exact full (dedup_unavailable (by simpa using carried) found)
      rw [if_pos carried,store_statement_selected found (by simpa [List.length_pos_iff] using full) (fun _ => rfl),
        store_statement_skipped found (by simpa using full)]

/-- The dedup row of a key has the version of a staged row. -/
theorem dedup_staged {d : DedupRow} (found : dedup t stage target k = some d) : ∃ row ∈ stage, row.target = target ∧
    row.key = k ∧ d.sourceGeneration = row.sourceGeneration ∧ d.sourceLsn = row.sourceLsn := by
  obtain ⟨top,atTop,rfl⟩ := Option.map_eq_some_iff.mp found
  obtain ⟨inside,named,same⟩ : top ∈ stage ∧ top.target = target ∧ top.key = k := by
    simpa [stagedFor] using newest_mem atTop
  exact ⟨top,inside,named,same,rfl,rfl⟩

/-- The dedup row of a key that is staged once carries what the staged row does. -/
theorem dedup_single {row : StagedRow} (single : stagedFor stage target k = [row]) : ∃ d, dedup t stage target k = some d ∧
    d.op = row.op ∧ ∀ c, isAvailable row c = true → d.cols c = row.cols c ∧ d.unavailable.contains c = false := by
  obtain ⟨d,found⟩ : ∃ d, dedup t stage target k = some d := by simp [dedup,single,newest]
  refine ⟨d,found,?_⟩
  simp only [dedup,single,newest,Option.map_some,Option.some.injEq] at found
  subst found
  refine ⟨rfl,fun c carried => ?_⟩
  have listed : c ∉ row.unavailable.getD [] := by simpa [isAvailable] using carried
  by_cases some_unavailable : hasUnavailable stage = true
  · simp [some_unavailable,carried,newest]
  · simp [some_unavailable,listed]

/-- An upsert leaves the row or gives it the version of the dedup row. -/
theorem upsert_version (engine : Engine) (now : Int) (d : DedupRow) (old : Option RawRow) :
    old = some (upsert engine now d old) ∨
    (upsert engine now d old).sourceGeneration = d.sourceGeneration ∧ (upsert engine now d old).sourceLsn = d.sourceLsn := by
  cases old with
  | none => exact .inr ⟨rfl,rfl⟩
  | some row =>
    by_cases passes : guard engine d row
    · simp [upsert,passes,setAvailable,insertRow]
    · simp [upsert,passes]

end Spec

/-- The rows both statements applied. -/
def appliedRows (t : TableContract) (engine : Engine) (now : Int) (stage : List StagedRow) (target : String)
    (raw : RawTable) : List AppliedRow :=
  applyFull t engine now stage target raw ++
    applyPartial t engine now stage target (store raw (applyFull t engine now stage target raw))

/-- What a production batch logs, statement by statement. -/
def batchLog (t : TableContract) (engine : Engine) (now : Int) (today : Date) (stage : List StagedRow)
    (raw : RawTable) : List LogEntry :=
  logged t today (applyFull t engine now stage "prod" raw) ++
    logged t today (applyPartial t engine now stage "prod" (store raw (applyFull t engine now stage "prod" raw)))

/-- The two raw schemas of one contract table. -/
structure Stores where
  raw : RawTable
  rawShadow : RawTable

/-- A row of the result of `meta.apply_staged_batch`. -/
structure BatchResult where
  target : String
  rowsApplied : Nat
  rowsDeleted : Nat
  deriving DecidableEq, Repr

def batchResult (target : String) (applied : List AppliedRow) : List BatchResult :=
  if applied.length > 0 then [⟨target,applied.length,(applied.filter (·.new.isDeleted)).length⟩] else []

/-- `meta.apply_staged_batch`. -/
def applyStagedBatch (t : TableContract) (engine : Engine) (now : Int) (today : Date) (db : ControlState)
    (stage : List StagedRow) (stores : Stores) : Except String (Stores × List LogEntry × List BatchResult) := do
  if engine = .NONE then throw ("Unknown engine " ++ engine.value)
  fencingCheck db t.tableName engine (stage.map (fun row => ⟨row.key.sourceId,row.target,row.ownerEpoch⟩)).dedup
  return (⟨writeBatch t engine now stage "prod" stores.raw,writeBatch t engine now stage "shadow" stores.rawShadow⟩,
    batchLog t engine now today stage stores.raw,
    batchResult "prod" (appliedRows t engine now stage "prod" stores.raw) ++
      batchResult "shadow" (appliedRows t engine now stage "shadow" stores.rawShadow))

/-- The raw table behind a target. -/
def Stores.table (stores : Stores) (target : String) : RawTable :=
  if target = "shadow" then stores.rawShadow else stores.raw

theorem applyStagedBatch_ok {t : TableContract} {engine : Engine} {now : Int} {today : Date} {db : ControlState}
    {stage : List StagedRow} {stores after : Stores} {log : List LogEntry} {results : List BatchResult} :
    applyStagedBatch t engine now today db stage stores = .ok (after,log,results) ↔
      engine ≠ .NONE ∧
      fencingCheck db t.tableName engine (stage.map (fun row => ⟨row.key.sourceId,row.target,row.ownerEpoch⟩)).dedup =
        .ok () ∧
      after = ⟨writeBatch t engine now stage "prod" stores.raw,
        writeBatch t engine now stage "shadow" stores.rawShadow⟩ ∧
      log = batchLog t engine now today stage stores.raw ∧
      results = batchResult "prod" (appliedRows t engine now stage "prod" stores.raw) ++
        batchResult "shadow" (appliedRows t engine now stage "shadow" stores.rawShadow) := by
  unfold applyStagedBatch
  by_cases unknown : engine = .NONE
  · simp [unknown,bind,Except.bind,throw,throwThe,MonadExceptOf.throw]
  · cases checked : fencingCheck db t.tableName engine
        (stage.map (fun row => ⟨row.key.sourceId,row.target,row.ownerEpoch⟩)).dedup with
    | error e => simp [unknown,bind,Except.bind]
    | ok _ =>
      simp only [unknown,bind,Except.bind,pure,Except.pure,if_false,Except.ok.injEq,Prod.mk.injEq,ne_eq,
        not_false_eq_true,true_and]
      simp only [eq_comm]

/-- `meta.promote_shadow`: the shadow rows of the source replace its production
    rows, and the whole source is logged when it is registered. -/
def promoteShadow (db : ControlState) (source : String) (stores : Stores) : Stores × List LogEntry :=
  (⟨Relation.splice (fun k => k.sourceId = source) stores.rawShadow stores.raw,
    stores.rawShadow.restrict (fun k => k.sourceId ≠ source)⟩,
   (db.source source).toList.map (fun row => ⟨row.sourceId,row.tenantId,.source,0,beginningOfTime⟩))

end FineractBi.ApplyBatch
