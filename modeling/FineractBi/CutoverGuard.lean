import Mathlib.Logic.Function.Basic
import FineractBi.Discipline
import FineractBi.WriteFence

/-!
What the database itself enforces on ownership rows, whatever arguments a login
passes: the trigger `meta.guard_ownership_update` and the functions through
which the control plane writes. An approval is bound to a shadow by the epoch of
the row only, and the trigger lets a caller choose the epoch where neither the
engine nor the shadow changes.
-/
namespace FineractBi.CutoverGuard
open Runs FineractBi.StateMachine FineractBi.Discipline
open FineractBi.WriteFence (Pair)

/-- A row of `meta.ingestion_ownership` with the columns that the trigger maintains. The
    database does not store `shadowCall`: it is the number of the call that started the shadow. -/
structure Row extends Ownership where
  shadowRequestedDbUser : Option String
  shadowStartedAt : Option Int
  everOwned : Bool
  shadowCall : Option Nat
  deriving DecidableEq, Repr

def Row.pair (row : Row) : Pair := (row.sourceId,row.tableName)

/-- A row of `meta.cutover_approval`, with the number of the call that recorded it last. -/
structure Approval where
  pair : Pair
  epoch : Int
  approvedDbUser : String
  approvedLabel : Option String
  approvedAt : Int
  call : Nat
  deriving DecidableEq, Repr

inductive Comparison
  | shadowVsProd | sourceVsWarehouse
  deriving DecidableEq, Repr

inductive Status
  | RUNNING | PASSED | FAILED | ERROR
  deriving DecidableEq, Repr

/-- A row of `meta.reconciliation_run`. -/
structure ReconciliationRun where
  reconciliationId : Int
  pair : Pair
  comparison : Comparison
  status : Status
  startedAt : Int
  finishedAt : Option Int
  deriving DecidableEq, Repr

structure Database where
  rows : Pair → Option Row
  approvals : List Approval
  runs : List ReconciliationRun
  calls : Nat

/-- What the functions read and do not write: roles, foreign keys, settings. -/
structure Platform where
  isPlatformAdmin : String → Bool
  registered : String → Bool
  contractTable : String → Bool
  reconciliationMaxAgeMinutes : Int
  reconciliationMaxDiscrepancies : Int
  dualControlMode : String

/-- Who calls, and NOW() in microseconds. -/
structure Session where
  login : String
  now : Int

variable (platform : Platform)

/-- The run that a cutover of `old` needs. -/
def reconciles (session : Session) (old : Row) (r : ReconciliationRun) : Bool :=
  some r.reconciliationId = old.lastReconciliationId && r.pair = old.pair && r.comparison = .shadowVsProd &&
    r.status = .PASSED && old.shadowStartedAt.all (· ≤ r.startedAt) &&
    r.finishedAt.any (session.now - platform.reconciliationMaxAgeMinutes * 60000000 < ·)

/-- The approval that a cutover of `old` needs. -/
def approves (session : Session) (old : Row) (a : Approval) : Bool :=
  a.pair = old.pair && a.epoch = old.epoch && a.approvedDbUser ≠ old.shadowRequestedDbUser.getD "" &&
    a.approvedDbUser ≠ session.login

/-- The first part of `meta.guard_ownership_update`: which changes of the engine are allowed. -/
def guardEngine (session : Session) (db : Database) (old new : Row) : Except String Unit :=
  if new.engine = old.engine then pure ()
  else if old.engine = .NONE ∧ old.everOwned = false ∧ old.shadowEngine = none then pure ()
  else if old.shadowEngine = some new.engine ∧ new.shadowEngine = none ∧ old.cutoverState = .CUTOVER_READY then
    if db.runs.any (reconciles platform session old) then
      if platform.dualControlMode = "database" ∧ db.approvals.any (approves session old) = false then
        throw ("Cutover of " ++ old.sourceId ++ "/" ++ old.tableName ++
          " needs an approval recorded by a different database login (meta.approve_cutover)")
      else pure ()
    else throw ("Cutover of " ++ old.sourceId ++ "/" ++ old.tableName ++
      " needs a PASSED shadow_vs_prod reconciliation of this table, taken during the current shadow and newer than " ++
      toString platform.reconciliationMaxAgeMinutes ++ " minutes")
  else if platform.isPlatformAdmin session.login then pure ()
  else throw ("Engine change " ++ old.engine.value ++ " -> " ++ new.engine.value ++ " for " ++ old.sourceId ++ "/" ++
    old.tableName ++ " needs a reconciled cutover, or a login that is a member of fbi_platform_admin")

/-- The second part: a change of the engines needs a higher epoch. -/
def guardEpoch (old new : Row) : Except String Unit :=
  if (new.engine ≠ old.engine ∨ new.shadowEngine ≠ old.shadowEngine) ∧ new.epoch ≤ old.epoch then
    throw ("Ownership of " ++ old.sourceId ++ "/" ++ old.tableName ++ " changed without a higher epoch")
  else pure ()

/-- The third part: the columns of the shadow. -/
def guardShadow (session : Session) (db : Database) (old new : Row) : Except String Row :=
  if new.shadowEngine ≠ none ∧ old.shadowEngine = none then
    pure { new with
      shadowRequestedDbUser := some session.login, shadowStartedAt := some session.now, shadowCall := some db.calls }
  else if new.shadowEngine = none then
    pure { new with
      shadowRequestedDbUser := none, shadowRequestedBy := none, shadowStartedAt := none, shadowCall := none }
  else if new.shadowEngine ≠ old.shadowEngine then
    throw ("Shadow of " ++ old.sourceId ++ "/" ++ old.tableName ++ " cannot switch engines; abort it first")
  else pure { new with
      shadowRequestedDbUser := old.shadowRequestedDbUser, shadowStartedAt := old.shadowStartedAt,
      shadowCall := old.shadowCall }

/-- `meta.guard_ownership_update`. -/
def guardOwnershipUpdate (session : Session) (db : Database) (old new : Row) : Except String Row :=
  if new.pair ≠ old.pair then throw "The key of an ownership row cannot change"
  else do
    guardEngine platform session db old new
    guardEpoch old new
    let row ← guardShadow session db old new
    pure { row with everOwned := old.everOwned || new.engine ≠ .NONE }

instance (o : Ownership) : Decidable (CheckConstraints o) := inferInstanceAs (Decidable (_ ∧ _))

/-- COALESCE(btrim(text), '') = ''. -/
def blank (text : Option String) : Bool := (text.getD "").toList.all (· = ' ')

/-- The arguments of `meta.transition_ownership`. -/
structure Transition where
  sourceId : String
  tableName : String
  expectedEpoch : Int
  engine : Engine
  shadowEngine : Option Engine
  cutoverState : CutoverState
  epoch : Int
  lastReconciliationId : Option Int
  shadowRequestedBy : Option String
  action : Option String
  actor : Option String
  reason : Option String

def Transition.pair (t : Transition) : Pair := (t.sourceId,t.tableName)

/-- The SET clause of the UPDATE. -/
def Transition.set (t : Transition) (old : Row) : Row :=
  { old with
    engine := t.engine, shadowEngine := t.shadowEngine, cutoverState := t.cutoverState, epoch := t.epoch,
    lastReconciliationId := t.lastReconciliationId, shadowRequestedBy := t.shadowRequestedBy }

def Database.put (db : Database) (row : Row) : Database := { db with rows := Function.update db.rows row.pair (some row) }

def transitionOwnership (session : Session) (db : Database) (t : Transition) : Except String Database :=
  if blank t.actor || blank t.reason || blank t.action then throw "action, actor and reason are required"
  else match db.rows t.pair with
    | none => pure db
    | some old =>
      if old.epoch ≠ t.expectedEpoch then pure db
      else do
        let new ← guardOwnershipUpdate platform session db old (t.set old)
        if CheckConstraints new.toOwnership then pure (db.put new)
        else throw "new row for relation \"ingestion_ownership\" violates check constraint"

/-- The row that `meta.ensure_ownership_rows` inserts. -/
def newRow (pair : Pair) : Row :=
  { toOwnership := registered pair.1 pair.2, shadowRequestedDbUser := none, shadowStartedAt := none, everOwned := false,
    shadowCall := none }

def ensureOwnershipRows (db : Database) (source : String) (tables : List String) : Except String Database :=
  if tables.any (fun table => (db.rows (source,table)).isNone &&
      ! (platform.registered source && platform.contractTable table)) then
    throw "insert or update on table \"ingestion_ownership\" violates foreign key constraint"
  else pure { db with rows := fun pair =>
    if pair.1 = source ∧ pair.2 ∈ tables ∧ (db.rows pair).isNone then some (newRow pair) else db.rows pair }

/-- The unique key of `meta.cutover_approval`. -/
def Approval.sameKey (a b : Approval) : Bool :=
  a.pair = b.pair && a.epoch = b.epoch && a.approvedDbUser = b.approvedDbUser

/-- INSERT ... ON CONFLICT DO UPDATE SET approved_at = NOW(). -/
def recordApproval (approvals : List Approval) (a : Approval) : List Approval :=
  if approvals.any a.sameKey then
    approvals.map (fun b => if a.sameKey b then { b with approvedAt := a.approvedAt, call := a.call } else b)
  else a :: approvals

def approveCutover (session : Session) (db : Database) (pair : Pair) (label : Option String) : Except String Database :=
  match db.rows pair with
  | none => throw (pair.1 ++ "/" ++ pair.2 ++ " is not CUTOVER_READY")
  | some o =>
    if o.cutoverState ≠ .CUTOVER_READY then throw (pair.1 ++ "/" ++ pair.2 ++ " is not CUTOVER_READY")
    else if o.shadowRequestedDbUser = some session.login then
      throw ("The database login that requested the shadow (" ++ session.login ++ ") cannot approve its own cutover")
    else pure { db with
      approvals := recordApproval db.approvals ⟨pair,o.epoch,session.login,label,session.now,db.calls⟩ }

/-- A finished run under the next id. -/
def Database.addRun (db : Database) (session : Session) (pair : Pair) (comparison : Comparison) (status : Status) :
    Database :=
  { db with runs := db.runs ++ [⟨db.runs.length + 1,pair,comparison,status,session.now,some session.now⟩] }

/-- `meta.run_shadow_reconciliation`, with the numbers that `meta.reconcile_shadow` counts. -/
def runShadowReconciliation (session : Session) (db : Database) (pair : Pair)
    (mismatchedRows missingInProd missingInShadow : Int) : Database :=
  db.addRun session pair .shadowVsProd
    (if mismatchedRows + missingInProd + missingInShadow ≤ platform.reconciliationMaxDiscrepancies then .PASSED
     else .FAILED)

def recordSourceReconciliation (session : Session) (db : Database) (pair : Pair) (status : Status) : Database :=
  db.addRun session pair .sourceVsWarehouse status

/-! ### Calls -/

inductive Op
  | ensureOwnershipRows (source : String) (tables : List String)
  | transitionOwnership (t : Transition)
  | approveCutover (pair : Pair) (label : Option String)
  | runShadowReconciliation (pair : Pair) (mismatchedRows missingInProd missingInShadow : Int)
  | recordSourceReconciliation (pair : Pair) (status : Status)

structure Call extends Session where
  op : Op

def perform (db : Database) (call : Call) : Except String Database :=
  match call.op with
  | .ensureOwnershipRows source tables => ensureOwnershipRows platform db source tables
  | .transitionOwnership t => transitionOwnership platform call.toSession db t
  | .approveCutover pair label => approveCutover call.toSession db pair label
  | .runShadowReconciliation pair mismatched prod shadow =>
      pure (runShadowReconciliation platform call.toSession db pair mismatched prod shadow)
  | .recordSourceReconciliation pair status => pure (recordSourceReconciliation call.toSession db pair status)

/-- The database after a call; an error rolls it back. -/
def after (db : Database) (call : Call) : Database :=
  match perform platform db call with
  | .ok db' => { db' with calls := db.calls + 1 }
  | .error _ => { db with calls := db.calls + 1 }

/-- No ownership row yet. -/
def empty : Database := ⟨fun _ => none,[],[],0⟩

section
variable {platform} {session : Session} {db db' : Database}

/-- What is left of a row when the trigger lets its update pass. -/
structure Guarded (platform : Platform) (session : Session) (db : Database) (old new row : Row) : Prop where
  engine : guardEngine platform session db old new = .ok ()
  epoch : new.engine ≠ old.engine ∨ new.shadowEngine ≠ old.shadowEngine → old.epoch < new.epoch
  columns : row.pair = old.pair ∧ row.engine = new.engine ∧ row.shadowEngine = new.shadowEngine ∧ row.epoch = new.epoch
  shadow : (old.shadowEngine = none ∧ row.shadowEngine ≠ none ∧ row.shadowRequestedDbUser = some session.login ∧
      row.shadowStartedAt = some session.now ∧ row.shadowCall = some db.calls) ∨ row.shadowEngine = none ∨
    (row.shadowEngine = old.shadowEngine ∧ row.shadowRequestedDbUser = old.shadowRequestedDbUser ∧
      row.shadowStartedAt = old.shadowStartedAt ∧ row.shadowCall = old.shadowCall)

private theorem guardShadow_ok {old new row : Row} (passed : guardShadow session db old new = .ok row) :
    (row.pair = new.pair ∧ row.engine = new.engine ∧ row.shadowEngine = new.shadowEngine ∧ row.epoch = new.epoch) ∧
    ((old.shadowEngine = none ∧ row.shadowEngine ≠ none ∧ row.shadowRequestedDbUser = some session.login ∧
      row.shadowStartedAt = some session.now ∧ row.shadowCall = some db.calls) ∨ row.shadowEngine = none ∨
    (row.shadowEngine = old.shadowEngine ∧ row.shadowRequestedDbUser = old.shadowRequestedDbUser ∧
      row.shadowStartedAt = old.shadowStartedAt ∧ row.shadowCall = old.shadowCall)) := by
  unfold guardShadow at passed
  split at passed
  · next starts =>
    obtain rfl := Except.ok.inj passed
    exact ⟨⟨rfl,rfl,rfl,rfl⟩,.inl ⟨starts.2,starts.1,rfl,rfl,rfl⟩⟩
  · split at passed
    · next ended =>
      obtain rfl := Except.ok.inj passed
      exact ⟨⟨rfl,rfl,rfl,rfl⟩,.inr (.inl ended)⟩
    · split at passed
      · cases passed
      · next kept =>
        obtain rfl := Except.ok.inj passed
        exact ⟨⟨rfl,rfl,rfl,rfl⟩,.inr (.inr ⟨not_not.mp kept,rfl,rfl,rfl⟩)⟩

theorem guarded {old new row : Row} (passed : guardOwnershipUpdate platform session db old new = .ok row) :
    Guarded platform session db old new row := by
  unfold guardOwnershipUpdate at passed
  split at passed
  · cases passed
  · next same =>
    obtain ⟨⟨⟩,engine,rest⟩ := except_bind passed
    obtain ⟨⟨⟩,epoch,rest⟩ := except_bind rest
    obtain ⟨shadowed,shadow,done⟩ := except_bind rest
    obtain rfl := Except.ok.inj done
    simp only [not_not] at same
    obtain ⟨columns,cases⟩ := guardShadow_ok shadow
    refine ⟨engine,?_,?_,?_⟩
    · intro changed
      unfold guardEpoch at epoch
      split at epoch
      · cases epoch
      · next allowed => exact not_le.mp (fun low => allowed ⟨changed,low⟩)
    · exact ⟨columns.1.trans same,columns.2⟩
    · exact cases

/-- A call of `meta.transition_ownership` changes nothing, or the row it finds by its epoch. -/
theorem transitionOwnership_ok {t : Transition} (done : transitionOwnership platform session db t = .ok db') :
    db' = db ∨ ∃ old row, db.rows t.pair = some old ∧ old.epoch = t.expectedEpoch ∧
      Guarded platform session db old (t.set old) row ∧ CheckConstraints row.toOwnership ∧ db' = db.put row := by
  unfold transitionOwnership at done
  split at done
  · cases done
  · split at done
    · exact .inl (Except.ok.inj done).symm
    · next old found =>
      split at done
      · exact .inl (Except.ok.inj done).symm
      · next expected =>
        obtain ⟨row,passed,rest⟩ := except_bind done
        split at rest
        · next checked => exact .inr ⟨old,row,found,not_not.mp expected,guarded passed,checked,(Except.ok.inj rest).symm⟩
        · cases rest

/-- A shadow has its start, its login and its call on record. An approval of the pair carries an
    earlier epoch than the row, or the row's own, and then it was recorded after the shadow began. -/
structure Inv (db : Database) : Prop where
  keyed : ∀ pair row, db.rows pair = some row → row.pair = pair
  checked : ∀ pair row, db.rows pair = some row → CheckConstraints row.toOwnership
  shadows : ∀ pair row, db.rows pair = some row → row.shadowEngine ≠ none →
    (∃ login, row.shadowRequestedDbUser = some login) ∧ (∃ time, row.shadowStartedAt = some time) ∧
      ∃ n, row.shadowCall = some n ∧ n < db.calls
  approvals : ∀ a ∈ db.approvals, ∃ row, db.rows a.pair = some row ∧
    (a.epoch < row.epoch ∨
      a.epoch = row.epoch ∧ row.shadowEngine ≠ none ∧ ∃ n, row.shadowCall = some n ∧ n < a.call)

private theorem inv_empty : Inv empty where
  keyed := by simp [empty]
  checked := by simp [empty]
  shadows := by simp [empty]
  approvals := by simp [empty]

/-- A transition that lowers the epoch of its row lowers it to above the row's approvals. -/
def KeepsEpochs (db : Database) (call : Call) : Prop :=
  ∀ t old, call.op = .transitionOwnership t → db.rows t.pair = some old → old.epoch = t.expectedEpoch →
    t.epoch < old.epoch → ∀ a ∈ db.approvals, a.pair = t.pair → a.epoch < t.epoch

private theorem Inv.calls (inv : Inv db) : Inv { db with calls := db.calls + 1 } where
  keyed := inv.keyed
  checked := inv.checked
  shadows := by
    intro pair row found active
    obtain ⟨login,time,n,call,early⟩ := inv.shadows pair row found active
    exact ⟨login,time,n,call,Nat.lt_succ_of_lt early⟩
  approvals := inv.approvals

private theorem inv_put (inv : Inv db) {t : Transition} {old row : Row} (found : db.rows t.pair = some old)
    (guard : Guarded platform session db old (t.set old) row) (checked : CheckConstraints row.toOwnership)
    (keeps : t.epoch < old.epoch → ∀ a ∈ db.approvals, a.pair = t.pair → a.epoch < t.epoch) :
    Inv { db.put row with calls := db.calls + 1 } := by
  have pair : row.pair = t.pair := guard.columns.1.trans (inv.keyed _ _ found)
  -- a row of the new table is the new one or an old one of another pair
  have rows : ∀ p r, (db.put row).rows p = some r → (p = t.pair ∧ r = row) ∨ (p ≠ t.pair ∧ db.rows p = some r) := by
    intro p r there
    simp only [Database.put,pair] at there
    by_cases same : p = t.pair
    · exact .inl ⟨same,by simpa [same] using there.symm⟩
    · exact .inr ⟨same,by simpa [Function.update_of_ne same] using there⟩
  constructor
  · intro p r there
    rcases rows p r there with ⟨rfl,rfl⟩ | ⟨-,before⟩
    · exact pair
    · exact inv.keyed p r before
  · intro p r there
    rcases rows p r there with ⟨rfl,rfl⟩ | ⟨-,before⟩
    · exact checked
    · exact inv.checked p r before
  · intro p r there active
    rcases rows p r there with ⟨rfl,rfl⟩ | ⟨-,before⟩
    · rcases guard.shadow with ⟨-,-,user,start,call⟩ | ended | ⟨same,user,start,call⟩
      · exact ⟨⟨_,user⟩,⟨_,start⟩,_,call,Nat.lt_succ_self _⟩
      · exact absurd ended active
      · have earlier := inv.calls.shadows _ _ found (same ▸ active)
        rwa [← user,← start,← call] at earlier
    · exact inv.calls.shadows p r before active
  · intro a member
    obtain ⟨r,before,order⟩ := inv.approvals a member
    by_cases same : a.pair = t.pair
    · refine ⟨row,by simp [Database.put,pair,same],?_⟩
      obtain rfl : old = r := Option.some.inj (found.symm.trans (same ▸ before))
      have epoch : row.epoch = t.epoch := guard.columns.2.2.2
      have low : a.epoch ≤ old.epoch := by
        rcases order with less | ⟨equal,-⟩
        · exact less.le
        · exact equal.le
      by_cases changed : (t.set old).engine ≠ old.engine ∨ (t.set old).shadowEngine ≠ old.shadowEngine
      · exact .inl (low.trans_lt (epoch ▸ guard.epoch changed))
      · rcases lt_trichotomy t.epoch old.epoch with less | equal | greater
        · exact .inl (epoch ▸ keeps less a member same)
        · rcases order with less | ⟨own,active,recorded⟩
          · exact .inl (by rwa [epoch,equal])
          · -- the shadow is the same, so the approval is still one of it
            have kept : row.shadowEngine = old.shadowEngine :=
              guard.columns.2.2.1.trans (not_not.mp (fun differs => changed (.inr differs)))
            rcases guard.shadow with ⟨none',-⟩ | ended | ⟨-,-,-,call⟩
            · exact absurd none' active
            · exact absurd (kept.symm.trans ended) active
            · exact .inr ⟨by rw [own,epoch,equal],kept ▸ active,call ▸ recorded⟩
        · exact .inl (low.trans_lt (epoch ▸ greater))
    · exact ⟨r,by simpa [Database.put,pair,Function.update_of_ne same] using before,order⟩

private theorem inv_ensure (inv : Inv db) {source : String} {tables : List String}
    (done : ensureOwnershipRows platform db source tables = .ok db') : Inv { db' with calls := db.calls + 1 } := by
  unfold ensureOwnershipRows at done
  split at done
  · cases done
  · obtain rfl := Except.ok.inj done
    -- a row of the new table is a fresh one or an old one
    have rows : ∀ p r, (if p.1 = source ∧ p.2 ∈ tables ∧ (db.rows p).isNone then some (newRow p) else db.rows p) = some r →
        r = newRow p ∨ db.rows p = some r := by
      intro p r there
      split at there
      · exact .inl (Option.some.inj there).symm
      · exact .inr there
    constructor
    · intro p r there
      rcases rows p r there with rfl | before
      · rfl
      · exact inv.keyed p r before
    · intro p r there
      rcases rows p r there with rfl | before
      · simp [CheckConstraints,newRow,registered]
      · exact inv.checked p r before
    · intro p r there active
      rcases rows p r there with rfl | before
      · simp [newRow,registered] at active
      · exact inv.calls.shadows p r before active
    · intro a member
      obtain ⟨r,before,order⟩ := inv.approvals a member
      exact ⟨r,by simp [before],order⟩

private theorem mem_recordApproval {approvals : List Approval} {a b : Approval} (member : b ∈ recordApproval approvals a) :
    b ∈ approvals ∨ b.pair = a.pair ∧ b.epoch = a.epoch ∧ b.call = a.call := by
  unfold recordApproval at member
  split at member
  · obtain ⟨c,inside,rfl⟩ := List.mem_map.mp member
    split
    · next same =>
      simp only [Approval.sameKey,Bool.and_eq_true,decide_eq_true_eq] at same
      exact .inr ⟨same.1.1.symm,same.1.2.symm,rfl⟩
    · exact .inl inside
  · rcases List.mem_cons.mp member with rfl | old
    · exact .inr ⟨rfl,rfl,rfl⟩
    · exact .inl old

private theorem inv_approve (inv : Inv db) {pair : Pair} {label : Option String}
    (done : approveCutover session db pair label = .ok db') : Inv { db' with calls := db.calls + 1 } := by
  unfold approveCutover at done
  split at done
  · cases done
  · next o found =>
    split at done
    · cases done
    · next ready =>
      split at done
      · cases done
      · obtain rfl := Except.ok.inj done
        refine ⟨inv.keyed,inv.checked,inv.calls.shadows,?_⟩
        intro a member
        rcases mem_recordApproval member with old | ⟨named,epoch,call⟩
        · exact inv.approvals a old
        · have active : o.shadowEngine ≠ none := by
            rcases (inv.checked pair o found).2.2 with ⟨-,steady | paused⟩ | ⟨active,-⟩
            · simp [steady] at ready
            · simp [paused] at ready
            · exact active
          obtain ⟨-,-,n,started,early⟩ := inv.shadows pair o found active
          exact ⟨o,by rw [named]; exact found,.inr ⟨epoch,active,n,started,by rw [call]; exact early⟩⟩

private theorem inv_after (inv : Inv db) {call : Call} (keeps : KeepsEpochs db call) : Inv (after platform db call) := by
  unfold after
  split
  · next db' done =>
    unfold perform at done
    split at done
    · exact inv_ensure inv done
    · next t op =>
      rcases transitionOwnership_ok done with rfl | ⟨old,row,found,expected,guard,checked,rfl⟩
      · exact inv.calls
      · exact inv_put inv found guard checked (keeps t old op found expected)
    · exact inv_approve inv done
    · obtain rfl := Except.ok.inj done
      exact ⟨inv.keyed,inv.checked,inv.calls.shadows,inv.approvals⟩
    · obtain rfl := Except.ok.inj done
      exact ⟨inv.keyed,inv.checked,inv.calls.shadows,inv.approvals⟩
  · exact inv.calls

/-! ### Cutovers -/

/-- A call leaves a row as it is or passes the trigger with it. -/
theorem after_row (inv : Inv db) {call : Call} {pair : Pair} {old new : Row} (before : db.rows pair = some old)
    (now : (after platform db call).rows pair = some new) :
    new = old ∨ ∃ asked, asked.engine = new.engine ∧ Guarded platform call.toSession db old asked new := by
  have same : ∀ db' : Database, db'.rows pair = db.rows pair → db'.rows pair = some new → new = old := by
    intro db' kept there
    exact Option.some.inj (there.symm.trans (kept.trans before))
  unfold after at now
  split at now
  · next db' done =>
    unfold perform at done
    split at done
    · unfold ensureOwnershipRows at done
      split at done
      · cases done
      · obtain rfl := Except.ok.inj done
        exact .inl (same _ (by simp [before]) now)
    · next t op =>
      rcases transitionOwnership_ok done with rfl | ⟨old',row,found,-,guard,-,rfl⟩
      · exact .inl (same _ rfl now)
      · have named : row.pair = t.pair := guard.columns.1.trans (inv.keyed _ _ found)
        simp only [Database.put,named] at now
        by_cases here : pair = t.pair
        · subst here
          obtain rfl : old = old' := Option.some.inj (before.symm.trans found)
          obtain rfl : row = new := by simpa using now
          exact .inr ⟨t.set old,guard.columns.2.1.symm,guard⟩
        · exact .inl (same db rfl (by simpa [Function.update_of_ne here] using now))
    · unfold approveCutover at done
      split at done
      · cases done
      · split at done
        · cases done
        · split at done
          · cases done
          · obtain rfl := Except.ok.inj done
            exact .inl (same _ rfl now)
    · obtain rfl := Except.ok.inj done
      exact .inl (same _ rfl now)
    · obtain rfl := Except.ok.inj done
      exact .inl (same _ rfl now)
  · exact .inl (same _ rfl now)

/-- A login without the administrator role changes the engine of a row that was owned before by a
    reconciled cutover only, and an approved one in database mode. -/
theorem guardEngine_ok {old new : Row} (passed : guardEngine platform session db old new = .ok ())
    (operator : platform.isPlatformAdmin session.login = false) (owned : old.everOwned = true)
    (changed : new.engine ≠ old.engine) :
    old.shadowEngine = some new.engine ∧ db.runs.any (reconciles platform session old) = true ∧
      (platform.dualControlMode = "database" → db.approvals.any (approves session old) = true) := by
  unfold guardEngine at passed
  simp only [changed,owned,operator,if_false,reduceCtorEq,false_and,and_false] at passed
  split at passed
  · next cutover =>
    split at passed
    · next reconciled =>
      split at passed
      · cases passed
      · next approved => exact ⟨cutover.1,reconciled,fun mode => by simpa [mode] using approved⟩
    · cases passed
  · cases passed

end

/-- In every run in which no transition lowers the epoch of a row to one that an approval of its
    pair carries or exceeds: a call of a login without the administrator role that changes the
    engine of a row that was owned before makes the current shadow the owner, after a run that
    passed during the shadow and recently, and in database mode after an approval that a login
    other than the starter of the shadow and the caller recorded during the shadow. -/
theorem cutover_enforced (platform : Platform) (calls : List Call) (db : Database)
    (run : Run (fun db call db' => KeepsEpochs db call ∧ after platform db call = db') empty calls db) (call : Call)
    (operator : platform.isPlatformAdmin call.login = false) (pair : Pair) (old new : Row)
    (before : db.rows pair = some old) (owned : old.everOwned = true)
    (now : (after platform db call).rows pair = some new) (changed : new.engine ≠ old.engine) :
    old.shadowEngine = some new.engine ∧
    (∃ r ∈ db.runs, r.pair = pair ∧ r.comparison = .shadowVsProd ∧ r.status = .PASSED ∧
      (∃ started, old.shadowStartedAt = some started ∧ started ≤ r.startedAt) ∧
      ∃ finished, r.finishedAt = some finished ∧
        call.now - platform.reconciliationMaxAgeMinutes * 60000000 < finished) ∧
    (platform.dualControlMode = "database" → ∃ a ∈ db.approvals, a.pair = pair ∧
      (∃ began, old.shadowCall = some began ∧ began < a.call) ∧
      (∃ starter, old.shadowRequestedDbUser = some starter ∧ a.approvedDbUser ≠ starter) ∧
      a.approvedDbUser ≠ call.login) := by
  have inv : Inv db := run.stateInvariant inv_empty (fun _ _ _ inv step => step.2 ▸ inv_after inv step.1)
  rcases after_row inv before now with rfl | ⟨asked,same,guard⟩
  · exact absurd rfl changed
  · obtain ⟨shadow,reconciled,approved⟩ := guardEngine_ok guard.engine operator owned (same ▸ changed)
    have named := inv.keyed pair old before
    obtain ⟨⟨starter,user⟩,⟨started,start⟩,-⟩ := inv.shadows pair old before (by simp [shadow])
    refine ⟨same ▸ shadow,?_,?_⟩
    · obtain ⟨r,member,valid⟩ := List.any_eq_true.mp reconciled
      simp only [reconciles,Bool.and_eq_true,decide_eq_true_eq,start,Option.all_some,Option.any_eq_true] at valid
      obtain ⟨⟨⟨⟨⟨-,of⟩,comparison⟩,status⟩,late⟩,finished,ended,recent⟩ := valid
      exact ⟨r,member,of.trans named,comparison,status,⟨started,start,late⟩,finished,ended,recent⟩
    · intro mode
      obtain ⟨a,member,valid⟩ := List.any_eq_true.mp (approved mode)
      simp only [approves,Bool.and_eq_true,decide_eq_true_eq,user,Option.getD_some,ne_eq] at valid
      obtain ⟨⟨⟨of,epoch⟩,other⟩,caller⟩ := valid
      obtain ⟨row,there,order⟩ := inv.approvals a member
      obtain rfl : old = row := Option.some.inj (before.symm.trans (by rw [← named,← of]; exact there))
      rcases order with less | ⟨-,-,began⟩
      · exact absurd epoch less.ne
      · exact ⟨a,member,of.trans named,began,⟨starter,user,other⟩,caller⟩

/-- A call that names no epoch below the one it expects, as the control plane calls. -/
def Call.raises (call : Call) : Bool :=
  match call.op with
  | .transitionOwnership t => t.expectedEpoch ≤ t.epoch
  | _ => true

private theorem raises_keepsEpochs {db : Database} {call : Call} (raises : call.raises = true) : KeepsEpochs db call := by
  intro t old op _ expected lower
  simp only [Call.raises,op,decide_eq_true_eq] at raises
  exact absurd lower (not_lt.mpr (expected ▸ raises))

/-- Calls that lower no epoch are a run of the theorem above. -/
theorem raises_run (platform : Platform) (calls : List Call) (raises : ∀ call ∈ calls, call.raises = true) :
    Run (fun db call db' => KeepsEpochs db call ∧ after platform db call = db') empty calls
      (calls.foldl (after platform) empty) := by
  induction calls using List.reverseRecOn with
  | nil => exact .start
  | append_singleton rest call ih =>
    rw [List.foldl_append]
    exact (ih (fun c member => raises c (List.mem_append_left _ member))).extend
      ⟨raises_keepsEpochs (raises call (by simp)),rfl⟩

def loanPair : Pair := ("branch-001","m_loan")

/-- Nobody is an administrator, and approvals come from the database. -/
def databaseMode : Platform where
  isPlatformAdmin := fun _ => false
  registered := fun source => source = "branch-001"
  contractTable := fun table => table = "m_loan"
  reconciliationMaxAgeMinutes := 120
  reconciliationMaxDiscrepancies := 0
  dualControlMode := "database"

def moveTo (expected : Int) (engine : Engine) (shadow : Option Engine) (state : CutoverState) (epoch : Int)
    (run : Option Int) : Op :=
  .transitionOwnership ⟨"branch-001","m_loan",expected,engine,shadow,state,epoch,run,some "alice",some "move",
    some "alice",some "migration"⟩

/-- PYTHON owns, KAFKA shadows, `bob` approves and `alice` aborts. -/
def abortedShadow : List Call :=
  [⟨⟨"alice",0⟩,.ensureOwnershipRows "branch-001" ["m_loan"]⟩,
   ⟨⟨"alice",1⟩,moveTo 1 .PYTHON none .STEADY 2 none⟩,
   ⟨⟨"alice",2⟩,moveTo 2 .PYTHON (some .KAFKA) .CUTOVER_READY 3 none⟩,
   ⟨⟨"bob",3⟩,.approveCutover loanPair none⟩,
   ⟨⟨"alice",4⟩,moveTo 3 .PYTHON none .STEADY 4 none⟩]

/-- A second shadow, reconciled, and its epoch set back to the one of the approval. -/
def setBack : List Call :=
  [⟨⟨"alice",5⟩,moveTo 4 .PYTHON (some .KAFKA) .SHADOWING 5 none⟩,
   ⟨⟨"alice",6⟩,.runShadowReconciliation loanPair 0 0 0⟩,
   ⟨⟨"alice",7⟩,moveTo 5 .PYTHON (some .KAFKA) .CUTOVER_READY 3 (some 1)⟩]

def cutOver : Call := ⟨⟨"alice",8⟩,moveTo 3 .KAFKA none .STEADY 4 (some 1)⟩

def setBackState : Database := (abortedShadow ++ setBack).foldl (after databaseMode) empty

/-- The second shadow is cut over although nobody approved it. -/
theorem old_approval_reused :
    Run (fun db call db' => after databaseMode db call = db') empty (abortedShadow ++ setBack) setBackState ∧
    ∃ old new, setBackState.rows loanPair = some old ∧ old.everOwned = true ∧
      (after databaseMode setBackState cutOver).rows loanPair = some new ∧ new.engine ≠ old.engine ∧
      ¬ ∃ a ∈ setBackState.approvals, a.pair = loanPair ∧ ∃ began, old.shadowCall = some began ∧ began < a.call := by
  refine ⟨Run.fold _ _ _,?_⟩
  have old : setBackState.rows loanPair = some
      { sourceId := "branch-001", tableName := "m_loan", engine := .PYTHON, shadowEngine := some .KAFKA,
        cutoverState := .CUTOVER_READY, epoch := 3, lastReconciliationId := some 1, shadowRequestedBy := some "alice",
        shadowRequestedDbUser := some "alice", shadowStartedAt := some 5, everOwned := true, shadowCall := some 5 } := by
    decide +kernel
  have new : (after databaseMode setBackState cutOver).rows loanPair = some
      { sourceId := "branch-001", tableName := "m_loan", engine := .KAFKA, shadowEngine := none,
        cutoverState := .STEADY, epoch := 4, lastReconciliationId := some 1, shadowRequestedBy := none,
        shadowRequestedDbUser := none, shadowStartedAt := none, everOwned := true, shadowCall := none } := by
    decide +kernel
  refine ⟨_,_,old,rfl,new,by decide,?_⟩
  rintro ⟨a,member,-,began,⟨⟩,late⟩
  have early : ∀ a ∈ setBackState.approvals, a.call ≤ 5 := by decide +kernel
  exact absurd late (not_lt.mpr (early a member))

/-- The first shadow, reconciled and approved. -/
def approved : List Call :=
  [⟨⟨"alice",0⟩,.ensureOwnershipRows "branch-001" ["m_loan"]⟩,
   ⟨⟨"alice",1⟩,moveTo 1 .PYTHON none .STEADY 2 none⟩,
   ⟨⟨"alice",2⟩,moveTo 2 .PYTHON (some .KAFKA) .SHADOWING 3 none⟩,
   ⟨⟨"alice",3⟩,.runShadowReconciliation loanPair 0 0 0⟩,
   ⟨⟨"alice",4⟩,moveTo 3 .PYTHON (some .KAFKA) .CUTOVER_READY 3 (some 1)⟩,
   ⟨⟨"bob",5⟩,.approveCutover loanPair none⟩]

theorem cutover_enforced_approved :
    ∃ a ∈ (approved.foldl (after databaseMode) empty).approvals, a.pair = loanPair ∧ a.approvedDbUser ≠ "alice" := by
  have old : (approved.foldl (after databaseMode) empty).rows loanPair = some
      { sourceId := "branch-001", tableName := "m_loan", engine := .PYTHON, shadowEngine := some .KAFKA,
        cutoverState := .CUTOVER_READY, epoch := 3, lastReconciliationId := some 1, shadowRequestedBy := some "alice",
        shadowRequestedDbUser := some "alice", shadowStartedAt := some 2, everOwned := true, shadowCall := some 2 } := by
    decide +kernel
  have new : (after databaseMode (approved.foldl (after databaseMode) empty) cutOver).rows loanPair = some
      { sourceId := "branch-001", tableName := "m_loan", engine := .KAFKA, shadowEngine := none,
        cutoverState := .STEADY, epoch := 4, lastReconciliationId := some 1, shadowRequestedBy := none,
        shadowRequestedDbUser := none, shadowStartedAt := none, everOwned := true, shadowCall := none } := by
    decide +kernel
  obtain ⟨-,-,dual⟩ := cutover_enforced databaseMode approved _ (raises_run databaseMode approved (by decide +kernel))
    cutOver rfl loanPair _ _ old rfl new (by decide)
  obtain ⟨a,member,pair,-,-,caller⟩ := dual rfl
  exact ⟨a,member,pair,caller⟩

end FineractBi.CutoverGuard
