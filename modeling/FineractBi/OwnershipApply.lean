import Mathlib.Data.String.Basic
import FineractBi.CutoverGuard
import FineractBi.PageLoop
import FineractBi.FenceSafety
import FineractBi.Lib.Locking
import FineractBi.Lib.Transaction
import FineractBi.Registry

/-!
`OwnershipRepository.apply`: one request for many tables of a source. A cutover
commits table by table, everything else once at the end; any statement may fail.
The states of a pair before and after a transition are compared through
`PairState`, which is all that the call may touch of a (source, table) pair.
-/
namespace FineractBi.OwnershipApply
open Calendar Locking FineractBi.StateMachine FineractBi.ApplyBatch FineractBi.CutoverGuard
open FineractBi.PageLoop (Watermark)
open FineractBi.WriteFence (Pair slice ofSource moveShadow commitMoved commitMoved_slice promote_raw setTable restrict_congr)
open Transaction (Commit)

/-- What `apply` reads and writes. The watermarks of a pair stand under their target. -/
structure Warehouse where
  database : Database
  stores : String → Stores
  watermarks : Pair → String → Option Watermark
  registry : Registry.Tables
  changeLog : List LogEntry

/-- The primary key of `meta.ingestion_ownership` and its reference to the registry. -/
structure WellFormed (w : Warehouse) : Prop where
  keyed : ∀ pair row, w.database.rows pair = some row → row.pair = pair
  registered : ∀ pair row, w.database.rows pair = some row → (w.registry.sources pair.1).isSome

/-- The places where a statement, or what runs between two statements, may raise. -/
inductive Point
  | settings
  | lock (table : String)
  | read (table : String)
  | check (table : String)
  | update (table : String)
  | effect (table : String)
  | maintenance (table : String)
  | generation
  deriving DecidableEq, Repr

/-- What surrounds a call: the platform and the login, the setting `require_dual_control`, the
    tables of `load_contract`, NOW() of the transaction that handles a table, what raises, and
    how the commit after a table (on a cutover) and the last one end. -/
structure Environment where
  platform : Platform
  login : String
  requireDualControl : String
  contract : List String
  now : String → Int
  raises : Point → Option String
  commit : Option String → Commit

def Environment.session (env : Environment) (table : String) : Session := ⟨env.login,env.now table⟩

def Environment.attempt (env : Environment) (p : Point) : Except String Unit :=
  match env.raises p with
  | none => pure ()
  | some e => throw e

/-- What psycopg raises when a commit fails or its answer is lost. -/
def connectionLost : String := "server closed the connection unexpectedly"

/-- `meta.promote_shadow`. -/
def promoteShadow (platform : Platform) (w : Warehouse) (source table : String) : Except String Warehouse :=
  if platform.contractTable table then
    pure { w with
      stores := commitMoved w.stores (moveShadow w.stores source table .PROMOTE_SHADOW)
      changeLog := w.changeLog ++
        (w.registry.sources source).toList.map (fun r => ⟨source,r.tenantId,.source,0,beginningOfTime⟩) }
  else throw ("Unknown contract table " ++ table)

/-- `meta.clear_shadow`; `format('%I', NULL)` raises for an unknown table. -/
def clearShadow (platform : Platform) (w : Warehouse) (source table : String) : Except String Warehouse :=
  if platform.contractTable table then
    pure { w with
      stores := commitMoved w.stores (moveShadow w.stores source table .CLEAR_SHADOW)
      watermarks := Function.update w.watermarks (source,table)
        (Function.update (w.watermarks (source,table)) "shadow" none) }
  else throw "null values cannot be formatted as an SQL identifier"

def sideEffect (platform : Platform) (source table : String) (w : Warehouse) : SideEffect → Except String Warehouse
  | .PROMOTE_SHADOW => promoteShadow platform w source table
  | .CLEAR_SHADOW => clearShadow platform w source table

/-- `reconciliation_is_valid`. -/
def reconciliationIsValid (platform : Platform) (session : Session) (db : Database) (row : Row) : Bool :=
  row.lastReconciliationId.isSome && db.runs.any (reconciles platform session row)

/-- `database_approver`: the newest approval that counts. -/
def databaseApprover (session : Session) (db : Database) (row : Row) : Option String :=
  (Newest.newest Approval.approvedAt (db.approvals.filter (approves session row))).map Approval.approvedDbUser

/-- The request as `transition` gets it. -/
def fillRequest (env : Environment) (db : Database) (request : TransitionRequest) (source table : String) (row : Row) :
    Except String TransitionRequest :=
  -- str.lower; no other character than A to Z has a lower case in these words
  let dual := env.requireDualControl.toList.map Char.toLower = "true".toList
  let session := env.session table
  let filled := { request with requireDualControl := dual }
  if request.action ≠ .CUTOVER then pure filled
  else do
    env.attempt (.check table)
    let checked := { filled with reconciliationValid := some (reconciliationIsValid env.platform session db row) }
    if dual ∧ env.platform.dualControlMode.toList.map Char.toLower = "database".toList then
      match databaseApprover session db row with
      | none => throw (source ++ "/" ++ table ++ ": dual_control_mode=database needs an approval recorded by a " ++
          "different database login (controlplane approve-cutover)")
      | some approver => pure { checked with approvedBy := some approver, databaseEnforcedApproval := true }
    else pure checked

/-- `Action.value`. -/
def actionValue : Action → String
  | .ASSIGN => "assign"
  | .START_SHADOW => "start_shadow"
  | .BEGIN_RECONCILIATION => "begin_reconciliation"
  | .RECORD_RECONCILIATION => "record_reconciliation"
  | .CUTOVER => "cutover"
  | .ABORT_SHADOW => "abort_shadow"
  | .PAUSE => "pause"
  | .RESUME => "resume"
  | .FORCE_ASSIGN => "force_assign"

/-- The arguments of `meta.transition_ownership`. -/
def arguments (source table : String) (request : TransitionRequest) (result : TransitionResult) : Transition where
  sourceId := source
  tableName := table
  expectedEpoch := result.previous.epoch
  engine := result.current.engine
  shadowEngine := result.current.shadowEngine
  cutoverState := result.current.cutoverState
  epoch := result.current.epoch
  lastReconciliationId := result.current.lastReconciliationId
  shadowRequestedBy := result.current.shadowRequestedBy
  action := some (actionValue request.action)
  actor := some request.actor
  reason := some request.reason

section
variable (env : Environment) (source : String) (request : TransitionRequest)

/-- One turn of the loop, without its commit. -/
def applyTable (state : Warehouse × List TransitionResult) (table : String) :
    Except String (Warehouse × List TransitionResult) := do
  let (w,results) := state
  env.attempt (.lock table)
  env.attempt (.read table)
  match w.database.rows (source,table) with
  | none => throw ("No ownership row for " ++ source ++ "/" ++ table)
  | some row => do
    let filled ← fillRequest env w.database request source table row
    let result ← transition row.toOwnership filled
    let called := arguments source table filled result
    env.attempt (.update table)
    let database ← transitionOwnership env.platform (env.session table) w.database called
    if (w.database.rows called.pair).all (fun found => found.epoch ≠ called.expectedEpoch) then
      throw ("Optimistic concurrency failure on " ++ source ++ "/" ++ table)
    env.attempt (.effect table)
    let moved ← result.sideEffects.foldlM (sideEffect env.platform source table) { w with database := database }
    pure (moved,results ++ [result])

/-- `_after_commit_maintenance` with its argument; VACUUM itself raises no `Exception`. -/
def afterCommitMaintenance (table : String) : Except String Unit :=
  if table ∈ env.contract then env.attempt (.maintenance table) else throw ("Unknown contract table " ++ table)

/-- The UPDATE of `meta.source_registry` after the loop. -/
def raiseCaptureGeneration (w : Warehouse) (results : List TransitionResult) : Except String Warehouse :=
  if request.action = .START_SHADOW ∧ request.engine = some .KAFKA ∧ results ≠ [] then do
    env.attempt .generation
    if (w.registry.sources source).any (fun r => r.captureGeneration = 2147483647) then throw "integer out of range"
    else pure { w with
      registry := w.registry.modify source (fun r => { r with captureGeneration := r.captureGeneration + 1 }) }
  else pure w

/-- What follows the loop, with the warehouse as it was committed last. -/
def finish (stored working : Warehouse) (results : List TransitionResult) :
    Warehouse × Except String (List TransitionResult) :=
  match raiseCaptureGeneration env source request working results with
  | .error e => (stored,.error e)
  | .ok last =>
    match env.commit none with
    | .done => (last,.ok results)
    | .refused => (stored,.error connectionLost)
    | .unanswered => (last,.error connectionLost)

/-- `OwnershipRepository.apply`: the warehouse after the call, and what it returns or raises. -/
def apply (tables : List String) (w : Warehouse) : Warehouse × Except String (List TransitionResult) :=
  match env.attempt .settings with
  | .error e => (w,.error e)
  | .ok () =>
    let (stored,looped) := Transaction.loop (request.action = .CUTOVER) (applyTable env source request)
      (fun table => env.commit (some table)) (afterCommitMaintenance env) connectionLost (w,[]) (w,[]) (sortedSet tables)
    match looped with
    | .error e => (stored.1,.error e)
    | .ok (working,results) => finish env source request stored.1 working results

end

/-- All that belongs to one (source, table). -/
structure PairState where
  row : Option Row
  raw : RawTable
  rawShadow : RawTable
  watermarks : String → Option Watermark

def Warehouse.part (w : Warehouse) (pair : Pair) : PairState :=
  ⟨w.database.rows pair,(slice w.stores pair).1,(slice w.stores pair).2,w.watermarks pair⟩

def PairState.effect (s : PairState) : SideEffect → PairState
  | .PROMOTE_SHADOW => { s with raw := s.rawShadow, rawShadow := Relation.empty }
  | .CLEAR_SHADOW => { s with rawShadow := Relation.empty, watermarks := Function.update s.watermarks "shadow" none }

/-- The ownership that the trigger stores: without a shadow nobody has requested one. -/
def settled (o : Ownership) : Ownership :=
  if o.shadowEngine = none then { o with shadowRequestedBy := none } else o

/-- The transition that `transition` allows for the row, with its side effects. -/
def Transitioned (env : Environment) (source : String) (request : TransitionRequest) (db : Database) (table : String)
    (before after : PairState) : Prop :=
  ∃ old filled result new, before.row = some old ∧ fillRequest env db request source table old = .ok filled ∧
    transition old.toOwnership filled = .ok result ∧ new.toOwnership = settled result.current ∧
    after = result.sideEffects.foldl PairState.effect { before with row := some new }

/-- The engine is the one that shadowed, the epoch the next, and the rows of the shadow are in production. -/
def CutOver (before after : PairState) : Prop :=
  ∃ old new, before.row = some old ∧ after.row = some new ∧ old.shadowEngine = some new.engine ∧
    new.shadowEngine = none ∧ new.epoch = old.epoch + 1 ∧ after.raw = before.rawShadow ∧
    after.rawShadow = Relation.empty ∧ after.watermarks = before.watermarks

/-- The next generation for the source, and nothing else. -/
def Raised (source : String) (before after : Registry.Tables) : Prop :=
  (∃ r, before.sources source = some r ∧
    after.sources source = some { r with captureGeneration := r.captureGeneration + 1 }) ∧
  (∀ other, other ≠ source → after.sources other = before.sources other) ∧ after.floors = before.floors

section
variable (env : Environment) (source : String) (request : TransitionRequest) (tables : List String) (w after : Warehouse)

/-- The request took effect on every table, and on nothing else. -/
structure Applied : Prop where
  each : ∀ table ∈ tables, Transitioned env source request w.database table (w.part (source,table))
    (after.part (source,table))
  others : ∀ pair, pair.1 ≠ source ∨ pair.2 ∉ tables → after.part pair = w.part pair
  generation : if request.action = .START_SHADOW ∧ request.engine = some .KAFKA ∧ tables ≠ []
    then Raised source w.registry after.registry else after.registry = w.registry

/-- The first tables are cut over, the others are as they were, and so is all the rest. -/
def CutOverPrefix : Prop :=
  ∃ done rest, sortedSet tables = done ++ rest ∧
    (∀ table ∈ done, CutOver (w.part (source,table)) (after.part (source,table))) ∧
    (∀ table ∈ rest, after.part (source,table) = w.part (source,table)) ∧
    (∀ pair, pair.1 ≠ source ∨ pair.2 ∉ tables → after.part pair = w.part pair) ∧ after.registry = w.registry

/-- What the caller of `apply` may rely on. -/
structure AllOrPrefix (outcome : Except String (List TransitionResult)) : Prop where
  returned : ∀ results, outcome = .ok results → Applied env source request tables w after
  raised : ∀ e, outcome = .error e → request.action ≠ .CUTOVER →
    after = w ∨ env.commit none = .unanswered ∧ Applied env source request tables w after
  cutover : ∀ e, outcome = .error e → request.action = .CUTOVER → CutOverPrefix source tables w after

end

/-! ### The effect of each statement -/

private theorem promote_slice (stores : String → Stores) (source table : String) :
    slice (commitMoved stores (moveShadow stores source table .PROMOTE_SHADOW)) (source,table) =
      ((slice stores (source,table)).2,Relation.empty) := by
  refine Prod.ext (restrict_congr fun k inside => promote_raw inside) (Relation.ext_get fun k => ?_)
  simp only [slice,commitMoved,moveShadow,setTable,if_true,Relation.restrict_get,Relation.alter_get,Relation.empty_get]
  split
  · next ours =>
    split
    · rfl
    · next absent => simpa [Relation.mem_keys,ours] using absent
  · rfl

private theorem clear_slice (stores : String → Stores) (source table : String) :
    slice (commitMoved stores (moveShadow stores source table .CLEAR_SHADOW)) (source,table) =
      ((slice stores (source,table)).1,Relation.empty) := by
  refine Prod.ext (restrict_congr fun k inside => ?_) (Relation.ext_get fun k => ?_)
  · simp [commitMoved,moveShadow,setTable,Relation.alter_get,Relation.empty]
  · simp only [slice,commitMoved,moveShadow,setTable,if_true,Relation.restrict_get,Relation.alter_get,Relation.empty_get]
    split
    · next ours =>
      split
      · rfl
      · next absent => simpa [Relation.mem_keys,ours] using absent
    · rfl

/-- Nothing but one pair and the change log differs. -/
structure Only (pair : Pair) (w w' : Warehouse) : Prop where
  database : w'.database = w.database
  registry : w'.registry = w.registry
  others : ∀ other, other ≠ pair → w'.part other = w.part other

variable {env : Environment} {platform : Platform} {source table : String} {request : TransitionRequest} {w w' : Warehouse}

private theorem sideEffect_ok {effect : SideEffect} (done : sideEffect platform source table w effect = .ok w') :
    Only (source,table) w w' ∧ w'.part (source,table) = (w.part (source,table)).effect effect := by
  cases effect with
  | PROMOTE_SHADOW =>
    simp only [sideEffect,promoteShadow] at done
    split at done
    · obtain rfl := Except.ok.inj done
      refine ⟨⟨rfl,rfl,fun other differs => ?_⟩,?_⟩
      · simp only [Warehouse.part,commitMoved_slice differs.symm]
      · simp only [Warehouse.part,PairState.effect,promote_slice]
    · cases done
  | CLEAR_SHADOW =>
    simp only [sideEffect,clearShadow] at done
    split at done
    · obtain rfl := Except.ok.inj done
      refine ⟨⟨rfl,rfl,fun other differs => ?_⟩,?_⟩
      · simp only [Warehouse.part,commitMoved_slice differs.symm,Function.update_of_ne differs]
      · simp only [Warehouse.part,PairState.effect,clear_slice,Function.update_self]
    · cases done

private theorem sideEffects_ok {effects : List SideEffect}
    (done : effects.foldlM (sideEffect platform source table) w = .ok w') :
    Only (source,table) w w' ∧ w'.part (source,table) = effects.foldl PairState.effect (w.part (source,table)) := by
  induction effects generalizing w with
  | nil =>
    cases done
    exact ⟨⟨rfl,rfl,fun _ _ => rfl⟩,rfl⟩
  | cons effect rest ih =>
    rw [List.foldlM_cons] at done
    obtain ⟨next,first,done⟩ := except_bind done
    obtain ⟨only,here⟩ := sideEffect_ok first
    obtain ⟨others,there⟩ := ih done
    refine ⟨⟨others.database.trans only.database,others.registry.trans only.registry,fun other differs => ?_⟩,?_⟩
    · rw [others.others other differs,only.others other differs]
    · rw [there,here,List.foldl_cons]

private theorem guardShadow_settled {session : Session} {db : Database} {old new row : Row}
    (passed : guardShadow session db old new = .ok row) : row.toOwnership = settled new.toOwnership := by
  unfold guardShadow at passed
  split at passed
  · next starts =>
    obtain rfl := Except.ok.inj passed
    exact (if_neg starts.1).symm
  · split at passed
    · next ended =>
      obtain rfl := Except.ok.inj passed
      exact (if_pos ended).symm
    · next shadowed =>
      split at passed
      · cases passed
      · obtain rfl := Except.ok.inj passed
        exact (if_neg shadowed).symm

private theorem guardOwnershipUpdate_settled {session : Session} {db : Database} {old new row : Row}
    (passed : guardOwnershipUpdate platform session db old new = .ok row) :
    row.toOwnership = settled new.toOwnership := by
  unfold guardOwnershipUpdate at passed
  split at passed
  · cases passed
  · obtain ⟨⟨⟩,-,rest⟩ := except_bind passed
    obtain ⟨⟨⟩,-,rest⟩ := except_bind rest
    obtain ⟨shadowed,shadow,done⟩ := except_bind rest
    obtain rfl := Except.ok.inj done
    have same := guardShadow_settled shadow
    exact same

/-- An update that finds its row puts the settled ownership in its place. -/
theorem transitionOwnership_settled {session : Session} {db db' : Database} {t : Transition} {old : Row}
    (found : db.rows t.pair = some old) (expected : old.epoch = t.expectedEpoch)
    (done : transitionOwnership platform session db t = .ok db') :
    ∃ new, new.pair = old.pair ∧ new.toOwnership = settled (t.set old).toOwnership ∧ db' = db.put new := by
  unfold transitionOwnership at done
  split at done
  · cases done
  · simp only [found,expected,ne_eq,not_true,if_false] at done
    obtain ⟨new,passed,rest⟩ := except_bind done
    split at rest
    · exact ⟨new,(guarded passed).columns.1,guardOwnershipUpdate_settled passed,(Except.ok.inj rest).symm⟩
    · cases rest

private theorem fillRequest_action {db : Database} {row : Row} {filled : TransitionRequest}
    (done : fillRequest env db request source table row = .ok filled) : filled.action = request.action := by
  unfold fillRequest at done
  simp only at done
  split at done
  · obtain rfl := Except.ok.inj done
    rfl
  · obtain ⟨⟨⟩,-,done⟩ := except_bind done
    split at done
    · split at done
      · cases done
      · obtain rfl := Except.ok.inj done
        rfl
    · obtain rfl := Except.ok.inj done
      rfl

private theorem fillRequest_congr {db db' : Database} {row : Row} (approvals : db'.approvals = db.approvals)
    (runs : db'.runs = db.runs) :
    fillRequest env db' request source table row = fillRequest env db request source table row := by
  simp only [fillRequest,reconciliationIsValid,databaseApprover,approvals,runs]

/-- The statements of a turn that does not raise. -/
theorem applyTable_ok {results results' : List TransitionResult}
    (applied : applyTable env source request (w,results) table = .ok (w',results')) :
    ∃ old filled result database, w.database.rows (source,table) = some old ∧
      fillRequest env w.database request source table old = .ok filled ∧ transition old.toOwnership filled = .ok result ∧
      transitionOwnership env.platform (env.session table) w.database (arguments source table filled result) =
        .ok database ∧
      result.sideEffects.foldlM (sideEffect env.platform source table) { w with database := database } = .ok w' ∧
      results' = results ++ [result] := by
  simp only [applyTable] at applied
  obtain ⟨⟨⟩,-,applied⟩ := except_bind applied
  obtain ⟨⟨⟩,-,applied⟩ := except_bind applied
  split at applied
  · cases applied
  · next old found =>
    obtain ⟨filled,fill,applied⟩ := except_bind applied
    obtain ⟨result,moved,applied⟩ := except_bind applied
    obtain ⟨⟨⟩,-,applied⟩ := except_bind applied
    obtain ⟨database,updated,applied⟩ := except_bind applied
    split at applied
    · cases applied
    · obtain ⟨⟨⟩,-,applied⟩ := except_bind applied
      obtain ⟨last,effects,applied⟩ := except_bind applied
      obtain ⟨rfl,rfl⟩ := Prod.mk.inj (Except.ok.inj applied)
      exact ⟨old,filled,result,database,found,fill,moved,updated,effects,rfl⟩

/-- The SET clause gives a row the ownership that `transition` computed for it. -/
theorem set_arguments {old : Row} {filled : TransitionRequest} {result : TransitionResult}
    (accepted : transition old.toOwnership filled = .ok result) :
    ((arguments source table filled result).set old).toOwnership = result.current := by
  obtain ⟨source',table'⟩ := FenceSafety.moves_key (transition_moves accepted).2
  simp only [Transition.set,arguments,← source',← table']

/-- What the tables of one request leave as it was. -/
structure Kept (w : Warehouse) (state : Warehouse × List TransitionResult) : Prop where
  formed : WellFormed state.1
  approvals : state.1.database.approvals = w.database.approvals
  runs : state.1.database.runs = w.database.runs
  registry : state.1.registry = w.registry

/-- A row put in the place of another one. -/
theorem put_formed {old new : Row} {pair : Pair} {database : Database} (formed : WellFormed w)
    (found : w.database.rows pair = some old) (named : new.pair = pair) (changed : database = w.database.put new)
    (same : w'.database = database) (registry : w'.registry = w.registry) : WellFormed w' := by
  have rows : w'.database.rows = Function.update w.database.rows pair (some new) := by
    rw [same,changed,← named]
    rfl
  refine ⟨fun other row present => ?_,fun other row present => ?_⟩
  · rw [rows] at present
    by_cases here : other = pair
    · rw [here,Function.update_self] at present
      rw [← Option.some.inj present,named,here]
    · rw [Function.update_of_ne here] at present
      exact formed.keyed other row present
  · rw [rows] at present
    rw [registry]
    by_cases here : other = pair
    · exact here ▸ formed.registered pair old found
    · rw [Function.update_of_ne here] at present
      exact formed.registered other row present

private theorem put_part (w : Warehouse) (new : Row) :
    ({ w with database := w.database.put new } : Warehouse).part new.pair =
      { w.part new.pair with row := some new } := by
  simp [Warehouse.part,Database.put]

private theorem put_part_of_ne {new : Row} {pair : Pair} (differs : pair ≠ new.pair) :
    ({ w with database := w.database.put new } : Warehouse).part pair = w.part pair := by
  simp only [Warehouse.part,Database.put,Function.update_of_ne differs]

variable (env source request w) in
/-- A turn moves the pair of its table and nothing else. -/
theorem applyTable_local :
    Transaction.Local (applyTable env source request) (fun table => (source,table)) (fun state => state.1.part)
      (Transitioned env source request w.database) (Kept w) := by
  rintro ⟨before,results⟩ table ⟨after,results'⟩ kept applied
  obtain ⟨old,filled,result,database,found,fill,accepted,updated,effects,-⟩ := applyTable_ok applied
  have keyed : old.pair = (source,table) := kept.formed.keyed _ _ found
  have expected : old.epoch = (arguments source table filled result).expectedEpoch := by
    rw [arguments,(transition_moves accepted).1]
  obtain ⟨new,samePair,settle,changed⟩ := transitionOwnership_settled found expected updated
  obtain ⟨only,there⟩ := sideEffects_ok effects
  have named : new.pair = (source,table) := samePair.trans keyed
  rw [set_arguments accepted] at settle
  refine ⟨⟨put_formed kept.formed found named changed only.database only.registry,?_,?_,?_⟩,?_,?_⟩
  · exact (congrArg Database.approvals (only.database.trans changed)).trans kept.approvals
  · exact (congrArg Database.runs (only.database.trans changed)).trans kept.runs
  · exact only.registry.trans kept.registry
  · refine ⟨old,filled,result,new,found,?_,accepted,settle,?_⟩
    · rw [← fill,fillRequest_congr kept.approvals kept.runs]
    · have placed := put_part before new
      rw [named,← changed] at placed
      rw [placed] at there
      exact there
  · intro pair differs
    have untouched : ({ before with database := before.database.put new } : Warehouse).part pair = before.part pair :=
      put_part_of_ne (named.symm ▸ differs)
    rw [← changed] at untouched
    exact (only.others pair differs).trans untouched

/-- Every turn adds its result. -/
theorem work_results {items : List String} {results results' : List TransitionResult}
    (worked : Transaction.work (applyTable env source request) (w,results) items = .ok (w',results')) :
    results'.length = results.length + items.length := by
  induction items generalizing w results with
  | nil =>
    cases worked
    rfl
  | cons item rest ih =>
    rw [Transaction.work,List.foldlM_cons] at worked
    obtain ⟨⟨next,more⟩,first,worked⟩ := except_bind worked
    obtain ⟨_,_,result,_,_,_,_,_,_,rfl⟩ := applyTable_ok first
    rw [ih worked,List.length_append,List.length_singleton,List.length_cons]
    omega

/-- A cutover that is allowed switches the engine and promotes the shadow. -/
theorem transitioned_cutOver {db : Database} {before after : PairState} (action : request.action = .CUTOVER)
    (moved : Transitioned env source request db table before after) : CutOver before after := by
  obtain ⟨old,filled,result,new,present,fill,accepted,settle,rfl⟩ := moved
  obtain ⟨-,move⟩ := transition_moves accepted
  have asked := (fillRequest_action fill).trans action
  generalize result.current = current at move settle
  generalize result.sideEffects = effects at move
  cases move with
  | cutover _ _ shadowed =>
    have engine := congrArg Ownership.engine settle
    have shadow := congrArg Ownership.shadowEngine settle
    have epoch := congrArg Ownership.epoch settle
    refine ⟨old,new,present,rfl,?_,shadow,epoch,rfl,rfl,rfl⟩
    rw [shadowed,engine]
    rfl
  | _ action => exact absurd (asked.symm.trans action) (by decide)

/-! ### The whole call -/

private theorem modify_raised {db : Registry.Tables} {r : Registry.SourceRecord} (found : db.sources source = some r) :
    Raised source db (db.modify source (fun r => { r with captureGeneration := r.captureGeneration + 1 })) := by
  obtain rfl := db.keyed source r found
  simp only [Registry.Tables.modify,found,Registry.Tables.put]
  exact ⟨⟨r,found,Function.update_self _ _ _⟩,fun other differs => Function.update_of_ne differs _ _,rfl⟩

/-- The UPDATE of the registry raises the generation of a registered source and leaves the pairs. -/
theorem raiseCaptureGeneration_ok {results : List TransitionResult}
    (registered : results ≠ [] → (w.registry.sources source).isSome)
    (done : raiseCaptureGeneration env source request w results = .ok w') :
    (∀ pair, w'.part pair = w.part pair) ∧
    if request.action = .START_SHADOW ∧ request.engine = some .KAFKA ∧ results ≠ []
      then Raised source w.registry w'.registry else w'.registry = w.registry := by
  unfold raiseCaptureGeneration at done
  split at done
  · next starts =>
    obtain ⟨⟨⟩,-,done⟩ := except_bind done
    obtain ⟨r,found⟩ := Option.isSome_iff_exists.mp (registered starts.2.2)
    split at done
    · cases done
    · obtain rfl := Except.ok.inj done
      refine ⟨fun _ => rfl,?_⟩
      rw [if_pos starts]
      exact modify_raised found
  · next others =>
    obtain rfl := Except.ok.inj done
    exact ⟨fun _ => rfl,by rw [if_neg others]⟩

private theorem sortedSet_pairs (source : String) (tables : List String) :
    ((sortedSet tables).map (fun table => (source,table))).Nodup :=
  ((sortedSet_ascending tables).imp ne_of_lt).map _ (fun _ _ differs same => differs (Prod.mk.inj same).2)

variable {tables : List String} {results : List TransitionResult}

/-- The turns of some of the tables. -/
theorem work_tables {items : List String} (formed : WellFormed w)
    (distinct : (items.map (fun table => (source,table))).Nodup)
    (worked : Transaction.work (applyTable env source request) (w,[]) items = .ok (w',results)) :
    (∀ table ∈ items, Transitioned env source request w.database table (w.part (source,table)) (w'.part (source,table))) ∧
      (∀ pair, pair.1 ≠ source ∨ pair.2 ∉ items → w'.part pair = w.part pair) ∧ w'.registry = w.registry := by
  obtain ⟨kept,effects,frame⟩ := Transaction.work_local (applyTable_local env source request w) distinct
    ⟨formed,rfl,rfl,rfl⟩ worked
  refine ⟨effects,fun pair outside => frame pair (fun inside => ?_),kept.registry⟩
  obtain ⟨table,member,rfl⟩ := List.mem_map.mp inside
  exact outside.elim (fun differs => differs rfl) (fun absent => absent member)

/-- All turns and the UPDATE after the loop. -/
theorem work_applied {last : Warehouse} (formed : WellFormed w)
    (worked : Transaction.work (applyTable env source request) (w,[]) (sortedSet tables) = .ok (w',results))
    (raised : raiseCaptureGeneration env source request w' results = .ok last) :
    Applied env source request tables w last := by
  obtain ⟨effects,frame,registry⟩ := work_tables formed (sortedSet_pairs source tables) worked
  have counted : results.length = (sortedSet tables).length := by simpa using work_results worked
  have some_tables : results ≠ [] ↔ tables ≠ [] := by
    rw [← List.length_pos_iff,counted,List.length_pos_iff_exists_mem,← List.length_pos_iff,List.length_pos_iff_exists_mem]
    exact exists_congr (fun _ => mem_sortedSet)
  have registered : results ≠ [] → (w'.registry.sources source).isSome := by
    intro any
    obtain ⟨table,member⟩ := List.exists_mem_of_ne_nil _ (some_tables.mp any)
    obtain ⟨old,_,_,_,present,_⟩ := effects table (mem_sortedSet.mpr member)
    rw [registry]
    exact formed.registered _ old present
  obtain ⟨parts,generation⟩ := raiseCaptureGeneration_ok registered raised
  refine ⟨fun table member => ?_,fun pair outside => ?_,?_⟩
  · rw [parts]
    exact effects table (mem_sortedSet.mpr member)
  · rw [parts]
    exact frame pair (outside.imp_right (fun absent member => absent (mem_sortedSet.mp member)))
  · simpa only [some_tables,registry] using generation

/-- The tables that a cutover has committed, when it stops. -/
theorem work_cutOver {done rest : List String} (formed : WellFormed w) (action : request.action = .CUTOVER)
    (split : sortedSet tables = done ++ rest)
    (worked : Transaction.work (applyTable env source request) (w,[]) done = .ok (w',results)) :
    CutOverPrefix source tables w w' := by
  have distinct := sortedSet_pairs source tables
  rw [split,List.map_append,List.nodup_append'] at distinct
  obtain ⟨first,-,disjoint⟩ := distinct
  obtain ⟨effects,frame,registry⟩ := work_tables formed first worked
  refine ⟨done,rest,split,fun table member => transitioned_cutOver action (effects table member),?_,?_,registry⟩
  · intro table member
    refine frame _ (.inr (fun early => ?_))
    exact disjoint (List.mem_map_of_mem early) (List.mem_map_of_mem member)
  · intro pair outside
    refine frame pair (outside.imp_right (fun absent early => absent ?_))
    exact mem_sortedSet.mp (split ▸ List.mem_append_left _ early)

/-- Nothing was done. -/
theorem cutOverPrefix_self (source : String) (tables : List String) (w : Warehouse) : CutOverPrefix source tables w w :=
  ⟨[],sortedSet tables,rfl,by simp,fun _ _ => rfl,fun _ _ => rfl,rfl⟩

/-- What follows the loop raises without an effect, or takes effect. -/
theorem finish_cases (env : Environment) (source : String) (request : TransitionRequest) (stored working : Warehouse)
    (results : List TransitionResult) :
    (∃ e, finish env source request stored working results = (stored,.error e)) ∨
    ∃ last, raiseCaptureGeneration env source request working results = .ok last ∧
      (finish env source request stored working results = (last,.ok results) ∨
        env.commit none = .unanswered ∧ ∃ e, finish env source request stored working results = (last,.error e)) := by
  unfold finish
  cases raiseCaptureGeneration env source request working results with
  | error e => exact .inl ⟨e,rfl⟩
  | ok last =>
    cases env.commit none with
    | done => exact .inr ⟨last,rfl,.inl rfl⟩
    | refused => exact .inl ⟨_,rfl⟩
    | unanswered => exact .inr ⟨last,rfl,.inr ⟨rfl,_,rfl⟩⟩

theorem Applied.outcome {last : Warehouse} {outcome : Except String (List TransitionResult)}
    (applied : Applied env source request tables w last) (prefixed : request.action = .CUTOVER → CutOverPrefix source tables w last)
    (ended : (∃ results, outcome = .ok results) ∨ env.commit none = .unanswered) :
    AllOrPrefix env source request tables w last outcome where
  returned := fun _ _ => applied
  raised := by
    rintro e rfl -
    rcases ended with ⟨_,⟨⟩⟩ | unanswered
    exact .inr ⟨unanswered,applied⟩
  cutover := fun _ _ => prefixed

theorem CutOverPrefix.outcome {e : String} (action : request.action = .CUTOVER) (prefixed : CutOverPrefix source tables w w') :
    AllOrPrefix env source request tables w w' (.error e) where
  returned := by rintro _ ⟨⟩
  raised := fun _ _ other => absurd action other
  cutover := fun _ _ _ => prefixed

/-- A call that raises without an effect. -/
theorem untouched_outcome (env : Environment) (source : String) (request : TransitionRequest) (tables : List String)
    (w : Warehouse) (e : String) : AllOrPrefix env source request tables w w (.error e) where
  returned := by rintro _ ⟨⟩
  raised := fun _ _ _ => .inl rfl
  cutover := fun _ _ _ => cutOverPrefix_self source tables w

/-- A call takes effect on every table, or it raises and has changed nothing, or, for a cutover,
    it has cut over the first tables of the sorted list. -/
theorem apply_whole_or_stopped (env : Environment) (source : String) (request : TransitionRequest) (tables : List String)
    (w : Warehouse) (formed : WellFormed w) :
    AllOrPrefix env source request tables w (apply env source request tables w).1
      (apply env source request tables w).2 := by
  unfold apply
  cases env.attempt .settings with
  | error e => exact untouched_outcome env source request tables w e
  | ok _ =>
    by_cases action : request.action = .CUTOVER
    · simp only [action,decide_true]
      generalize looped : Transaction.loop true (applyTable env source request) _ _ _ _ _ _ = ended
      obtain ⟨done,rest,split,worked,ends⟩ := Transaction.loop_each (w,[]) (sortedSet tables)
      rw [looped] at worked ends
      obtain ⟨stored,outcome⟩ := ended
      have prefixed := work_cutOver formed action split worked
      cases outcome with
      | error e => exact prefixed.outcome action
      | ok working =>
        obtain ⟨rfl,rfl⟩ := ends working rfl
        rw [List.append_nil] at split
        rcases finish_cases env source request working.1 working.1 working.2 with ⟨e,finished⟩ | ⟨last,raised,finished⟩
        · simp only [finished]
          exact prefixed.outcome action
        · have applied := work_applied formed (split ▸ worked) raised
          -- no generation is raised on a cutover
          simp only [raiseCaptureGeneration,action,reduceCtorEq,false_and,if_false] at raised
          obtain rfl := Except.ok.inj raised
          rcases finished with finished | ⟨unanswered,e,finished⟩
          · simp only [finished]
            exact applied.outcome (fun _ => prefixed) (.inl ⟨_,rfl⟩)
          · simp only [finished]
            exact applied.outcome (fun _ => prefixed) (.inr unanswered)
    · simp only [action,decide_false,Transaction.loop_once]
      cases worked : Transaction.work (applyTable env source request) (w,[]) (sortedSet tables) with
      | error e => exact untouched_outcome env source request tables w e
      | ok working =>
        rcases finish_cases env source request w working.1 working.2 with ⟨e,ends⟩ | ⟨last,raised,ends⟩
        · simp only [ends]
          exact untouched_outcome env source request tables w e
        · have applied := work_applied formed worked raised
          have noCutover : request.action = .CUTOVER → CutOverPrefix source tables w last := fun same => absurd same action
          rcases ends with ends | ⟨unanswered,e,ends⟩
          · simp only [ends]
            exact applied.outcome noCutover (.inl ⟨_,rfl⟩)
          · simp only [ends]
            exact applied.outcome noCutover (.inr unanswered)

/-- `m_client` is ready for its cutover and `m_loan` is not. -/
def branchRows (pair : Pair) : Option Row :=
  if pair = ("branch-001","m_client") then some
    { sourceId := "branch-001", tableName := "m_client", engine := .PYTHON, shadowEngine := some .KAFKA,
      cutoverState := .CUTOVER_READY, epoch := 3, lastReconciliationId := some 1, shadowRequestedBy := some "alice",
      shadowRequestedDbUser := some "alice", shadowStartedAt := some 1, everOwned := true, shadowCall := some 0 }
  else if pair = ("branch-001","m_loan") then some
    { sourceId := "branch-001", tableName := "m_loan", engine := .PYTHON, shadowEngine := none, cutoverState := .STEADY,
      epoch := 2, shadowRequestedDbUser := none, shadowStartedAt := none, everOwned := true, shadowCall := none }
  else none

def branch : Warehouse where
  database := ⟨branchRows,[],[⟨1,("branch-001","m_client"),.shadowVsProd,.PASSED,2,some 3⟩],1⟩
  stores := fun _ => ⟨Relation.empty,Relation.empty⟩
  watermarks := fun _ _ => none
  registry := ⟨fun source => if source = "branch-001" then some { sourceId := "branch-001", tenantId := "t1" } else none,
    fun _ => none,by
      intro source r found
      split at found
      · next same =>
        obtain rfl := Option.some.inj found
        exact same.symm
      · cases found⟩
  changeLog := []

private theorem branch_formed : WellFormed branch := by
  refine ⟨fun pair row present => ?_,fun pair row present => ?_⟩
  · simp only [branch,branchRows] at present
    split at present
    · next here => exact (Option.some.inj present) ▸ here.symm
    · split at present
      · next here => exact (Option.some.inj present) ▸ here.symm
      · cases present
  · simp only [branch,branchRows] at present ⊢
    split at present
    · next here => simp [here]
    · split at present
      · next here => simp [here]
      · cases present

/-- Nothing raises; the last commit ends as given. -/
def calm (last : Commit) : Environment where
  platform := { databaseMode with contractTable := fun _ => true, dualControlMode := "parameter" }
  login := "alice"
  requireDualControl := "true"
  contract := ["m_client","m_loan"]
  now := fun _ => 4
  raises := fun _ => none
  commit := fun point => if point = none then last else .done

def cutOverRequest : TransitionRequest where
  action := .CUTOVER
  actor := "alice"
  reason := "migration"
  approvedBy := some "bob"

/-- The second table refuses, and the first one stays cut over. -/
theorem apply_whole_or_stopped_second :
    CutOverPrefix "branch-001" ["m_loan","m_client","m_loan"] branch
      (apply (calm .done) "branch-001" cutOverRequest ["m_loan","m_client","m_loan"] branch).1 ∧
    ((apply (calm .done) "branch-001" cutOverRequest ["m_loan","m_client","m_loan"] branch).1.database.rows
      ("branch-001","m_client")).map (fun row => row.engine) = some .KAFKA := by
  have raises : (apply (calm .done) "branch-001" cutOverRequest ["m_loan","m_client","m_loan"] branch).2 =
      .error "branch-001/m_loan: cutover requires CUTOVER_READY, is STEADY" := by decide +kernel
  exact ⟨(apply_whole_or_stopped (calm .done) "branch-001" cutOverRequest ["m_loan","m_client","m_loan"] branch
    branch_formed).cutover _ raises rfl,by decide +kernel⟩

def startKafka : TransitionRequest where
  action := .START_SHADOW
  actor := "alice"
  reason := "migration"
  engine := some .KAFKA

def pauseRequest : TransitionRequest where
  action := .PAUSE
  actor := "alice"
  reason := "maintenance"

/-- A shadow of no tables returns and raises no generation; and the answer of the last commit
    may be lost after it took effect. -/
theorem empty_list_and_lost_answer :
    (apply (calm .done) "branch-001" startKafka [] branch).2 = .ok [] ∧
    ¬ Raised "branch-001" branch.registry (apply (calm .done) "branch-001" startKafka [] branch).1.registry ∧
    (apply (calm .unanswered) "branch-001" pauseRequest ["m_loan"] branch).2 = .error connectionLost ∧
    (apply (calm .unanswered) "branch-001" pauseRequest ["m_loan"] branch).1.part ("branch-001","m_loan") ≠
      branch.part ("branch-001","m_loan") := by
  refine ⟨by decide +kernel,?_,by decide +kernel,?_⟩
  · rintro ⟨⟨r,before,after⟩,-⟩
    have same : (apply (calm .done) "branch-001" startKafka [] branch).1.registry = branch.registry := rfl
    rw [same,before] at after
    have generation := congrArg Registry.SourceRecord.captureGeneration (Option.some.inj after)
    simp at generation
  · intro same
    have rows := congrArg (fun part => part.row.map (fun row => row.epoch)) same
    revert rows
    decide +kernel

end FineractBi.OwnershipApply
