import FineractBi.CutoverGuard
import FineractBi.Lib.Journal

/-!
The audit of ownership. Every update of an ownership row passes the trigger
`meta.audit_ownership_change`, which records the row before and after under the
settings of the session; the audit table refuses updates and deletes, except for
the purge of old rows. Transactions interleave statement by statement and may roll
back: the audit rows of a pair account for the audited columns of its ownership row,
in their order.
-/
namespace FineractBi.OwnershipAudit
open Runs Journal FineractBi.StateMachine FineractBi.Discipline FineractBi.CutoverGuard
open FineractBi.WriteFence (Pair)

/-- A row of `meta.ingestion_ownership` without `updated_at`. -/
structure OwnershipRow extends Row where
  updatedBy : String
  changeReason : Option String
  deriving DecidableEq, Repr

/-- A row of `meta.ingestion_ownership_audit`. The states are the rows before they are turned into JSON. -/
structure AuditRow where
  auditId : Nat
  pair : Pair
  action : String
  previousState : OwnershipRow
  newState : OwnershipRow
  actor : String
  approvedBy : Option String
  reason : Option String
  createdAt : Int
  dbUser : String
  deriving DecidableEq, Repr

/-- The settings of a transaction that the triggers read; the empty text is a setting that was not made. -/
structure Settings where
  action : String := ""
  actor : String := ""
  approvedBy : String := ""
  reason : String := ""
  auditMaintenance : String := ""
  deriving DecidableEq, Repr

/-- NULLIF(current_setting(…, TRUE), ''). -/
def setting (value : String) : Option String := if value = "" then none else some value

abbrev Tracked := Engine × Option Engine × CutoverState × Int × Option Int

/-- The columns whose changes are audited. -/
def tracked (row : OwnershipRow) : Tracked :=
  (row.engine,row.shadowEngine,row.cutoverState,row.epoch,row.lastReconciliationId)

/-- `meta.audit_ownership_change`. -/
def auditOwnershipChange (session : Session) (settings : Settings) (auditId : Nat) (old new : OwnershipRow) : List AuditRow :=
  if tracked new = tracked old then []
  else [{
    auditId
    pair := new.pair
    action := (setting settings.action).getD "direct_update"
    previousState := old
    newState := new
    actor := (setting settings.actor).getD session.login
    approvedBy := setting settings.approvedBy
    reason := (setting settings.reason).or new.changeReason
    createdAt := session.now
    dbUser := session.login }]

inductive TgOp
  | UPDATE | DELETE
  deriving DecidableEq, Repr

/-- `meta.protect_ownership_audit`: whether a row may be changed. -/
def protectOwnershipAudit (op : TgOp) (settings : Settings) (currentUser owner : String) : Except String Unit :=
  if op = .DELETE ∧ settings.auditMaintenance = "on" ∧ currentUser = owner then pure ()
  else throw ("meta.ingestion_ownership_audit is append-only (" ++ (match op with | .UPDATE => "UPDATE" | .DELETE => "DELETE") ++
    " rejected)")

/-- The warehouse as far as ownership rows and their audit are concerned. The trigger on the rows reads approvals and
    runs from `db`. `audit` is what is left of the committed audit rows. -/
structure State where
  clock : Int
  db : Database
  store : Store Pair OwnershipRow AuditRow
  sessions : Nat → Session
  settings : Nat → Settings
  audit : List AuditRow

/-- An UPDATE of one row: both triggers and the CHECK constraints. -/
def update (platform : Platform) (s : State) (id : Nat) (tx : Tx Pair OwnershipRow AuditRow) (old new : OwnershipRow)
    (settings : Settings) : Except String (Store Pair OwnershipRow AuditRow) := do
  let row ← guardOwnershipUpdate platform (s.sessions id) s.db old.toRow new.toRow
  if CheckConstraints row.toOwnership then
    pure (s.store.change id tx old.pair (some { new with toRow := row })
      (auditOwnershipChange (s.sessions id) settings s.store.next old { new with toRow := row }))
  else throw "new row for relation \"ingestion_ownership\" violates check constraint"

/-- The settings that `meta.transition_ownership` makes for its UPDATE. -/
def Settings.ofCall (settings : Settings) (t : Transition) (approvedBy : Option String) : Settings :=
  { settings with
    action := t.action.getD ""
    actor := t.actor.getD ""
    approvedBy := approvedBy.getD ""
    reason := t.reason.getD "" }

/-- The settings when it returns. -/
def Settings.cleared (settings : Settings) : Settings :=
  { settings with action := "", actor := "", approvedBy := "", reason := "" }

/-- The SET clause of its UPDATE. -/
def setColumns (t : Transition) (old : OwnershipRow) : OwnershipRow :=
  { old with toRow := t.set old.toRow, updatedBy := t.actor.getD "", changeReason := t.reason }

/-- The row that `meta.ensure_ownership_rows` inserts. -/
def registeredRow (session : Session) (pair : Pair) : OwnershipRow :=
  { newRow pair with updatedBy := session.login, changeReason := some "registered" }

inductive Op
  | tick (now : Int)
  | others (db : Database)
  | begin (id : Nat) (login : String)
  | setConfig (id : Nat) (settings : Settings)
  | transitionOwnership (id : Nat) (t : Transition) (approvedBy : Option String)
  | updateRow (id : Nat) (pair : Pair) (columns : OwnershipRow → OwnershipRow)
  | ensureOwnershipRow (id : Nat) (pair : Pair)
  | deleteRow (id : Nat) (pair : Pair)
  | commit (id : Nat)
  | rollback (id : Nat)
  | changeAudit (id : Nat) (op : TgOp) (row : AuditRow)
  | purgeOwnershipAudit (days : Option Int)

def dayLength : Int := 86400000000

/-- One statement, which fails or waits where there is no step. A failed statement leaves a rollback to its
    transaction; `meta.transition_ownership` waits for the row lock when it finds its row. -/
def step (platform : Platform) (owner : String) (retentionDays : Int) (s : State) : Op → Option State
  | .tick now => if s.clock ≤ now then some { s with clock := now } else none
  | .others db => some { s with db }
  | .begin id login =>
    if (s.store.txs id).isNone then some
      { s with
        store := s.store.start id
        sessions := Function.update s.sessions id ⟨login,s.clock⟩
        settings := Function.update s.settings id {} }
    else none
  | .setConfig id settings => some { s with settings := Function.update s.settings id settings }
  | .transitionOwnership id t approvedBy =>
    if blank t.actor || blank t.reason || blank t.action then none
    else match s.store.txs id with
      | none => none
      | some tx =>
        let ended := { s with settings := Function.update s.settings id (s.settings id).cleared }
        match (s.store.view tx t.pair).filter (fun row => row.epoch = t.expectedEpoch) with
        | none => some ended
        | some old =>
          if s.store.Free id t.pair then
            ((update platform s id tx old (setColumns t old) ((s.settings id).ofCall t approvedBy)).toOption).map
              (fun store => { ended with store })
          else none
  | .updateRow id pair columns =>
    match s.store.txs id with
    | none => none
    | some tx => (s.store.view tx pair).bind (fun old =>
        if s.store.Free id pair then
          ((update platform s id tx old (columns old) (s.settings id)).toOption).map (fun store => { s with store })
        else none)
  | .ensureOwnershipRow id pair =>
    match s.store.txs id with
    | none => none
    | some tx =>
      if (s.store.view tx pair).isSome then some s
      else if s.store.Free id pair then
        some { s with store := s.store.change id tx pair (some (registeredRow (s.sessions id) pair)) [] }
      else none
  | .deleteRow id pair =>
    match s.store.txs id with
    | none => none
    | some tx => if s.store.Free id pair then some { s with store := s.store.change id tx pair none [] } else none
  | .commit id => (s.store.txs id).map (fun tx => { s with store := s.store.commit id tx, audit := s.audit ++ tx.written })
  | .rollback id => some { s with store := s.store.rollback id }
  | .changeAudit id op row => (s.store.txs id).bind (fun _ =>
    ((protectOwnershipAudit op (s.settings id) (s.sessions id).login owner).toOption).map
      (fun _ => { s with audit := s.audit.filter (fun r => r ≠ row) }))
  | .purgeOwnershipAudit days =>
    some { s with audit := s.audit.filter (fun row =>
      ¬row.createdAt < s.clock - max (days.getD 0) retentionDays * dayLength) }

/-- Nobody at work, no row yet. -/
def initial (clock : Int) (db : Database) : State := ⟨clock,db,Journal.empty,fun _ => ⟨"",clock⟩,fun _ => {},[]⟩

/-- The audit rows of a pair account for the audited columns of its ownership row: each starts where the one before it
    ended, or at a row that was inserted again, the last ends at the present row, and every change of engines raises the
    epoch. -/
structure Accounts (next : Nat) (pair : Pair) (entries : List AuditRow) (row : Option OwnershipRow) : Prop where
  explains : Explains (tracked (registeredRow ⟨"",0⟩ pair)) (entries.map (fun e => (tracked e.previousState,tracked e.newState)))
    (row.map tracked)
  ascending : entries.Pairwise (fun a b => a.auditId < b.auditId)
  issued : ∀ e ∈ entries, e.auditId < next
  raises : ∀ e ∈ entries, e.newState.engine ≠ e.previousState.engine ∨ e.newState.shadowEngine ≠ e.previousState.shadowEngine →
    e.previousState.epoch < e.newState.epoch
  keyed : ∀ r ∈ row, r.pair = pair

/-- A login that is not the owner of the audit table. -/
def Foreign (owner : String) : Op → Prop
  | .begin _ login => login ≠ owner
  | _ => True

/-- The transaction that a statement updates a row for. -/
def updater : Op → Option Nat
  | .transitionOwnership id _ _ | .updateRow id _ _ => some id
  | _ => none

/-- The transaction in progress under an id was begun by the login. -/
def BegunBy (trace : List Op) (id : Nat) (login : String) : Prop :=
  ∃ before after, trace = before ++ .begin id login :: after ∧ ∀ other, .begin id other ∉ after

/-- A statement of the transaction drew the number of the audit row, and the login of the row began the transaction. -/
def WrittenBy (platform : Platform) (owner : String) (retentionDays : Int) (start : State) (trace : List Op) (id : Nat)
    (e : AuditRow) : Prop :=
  ∃ before op after s t, trace = before ++ op :: after ∧
    Run (fun s op t => step platform owner retentionDays s op = some t) start before s ∧
    step platform owner retentionDays s op = some t ∧ updater op = some id ∧
    s.store.next = e.auditId ∧ t.store.next = e.auditId + 1 ∧ BegunBy before id e.dbUser

section
variable {platform : Platform} {owner : String} {retentionDays : Int} {s t : State} {id : Nat} {n m : Nat} {pair : Pair}
  {tx : Tx Pair OwnershipRow AuditRow} {old new : OwnershipRow} {entries : List AuditRow} {row : Option OwnershipRow}
  {session : Session} {settings : Settings}

theorem Accounts.initial (pair : Pair) : Accounts 0 pair [] none := by
  constructor
  · exact .absent
  · exact .nil
  all_goals simp

theorem Accounts.later (accounts : Accounts n pair entries row) (le : n ≤ m) : Accounts m pair entries row :=
  { accounts with issued := fun e inside => (accounts.issued e inside).trans_le le }

theorem Accounts.inserted (accounts : Accounts n pair entries none) :
    Accounts n pair entries (some (registeredRow session pair)) :=
  { accounts with
    explains := accounts.explains.inserted
    keyed := by
      rintro _ ⟨⟩
      rfl }

theorem Accounts.deleted (accounts : Accounts n pair entries row) : Accounts n pair entries none := by
  refine { accounts with explains := ?_, keyed := by simp }
  cases row with
  | none => exact accounts.explains
  | some r => exact accounts.explains.deleted

/-- The trigger records a change, or nothing of what it tracks has changed. -/
theorem auditOwnershipChange_cases (session : Session) (settings : Settings) (old new : OwnershipRow) :
    (auditOwnershipChange session settings n old new = [] ∧ tracked new = tracked old) ∨
    ∃ e, auditOwnershipChange session settings n old new = [e] ∧ e.auditId = n ∧ e.pair = new.pair ∧ e.previousState = old ∧
      e.newState = new ∧ e.dbUser = session.login := by
  unfold auditOwnershipChange
  split
  · next same => exact .inl ⟨rfl,same⟩
  · exact .inr ⟨_,rfl,rfl,rfl,rfl,rfl,rfl⟩

/-- An update that the trigger on the rows lets pass keeps the account. -/
theorem Accounts.changed (accounts : Accounts n pair entries (some old)) (same : new.pair = pair)
    (raises : new.engine ≠ old.engine ∨ new.shadowEngine ≠ old.shadowEngine → old.epoch < new.epoch) :
    Accounts (n + (auditOwnershipChange session settings n old new).length) pair
      (entries ++ auditOwnershipChange session settings n old new) (some new) := by
  rcases auditOwnershipChange_cases (n := n) session settings old new with ⟨nothing,unchanged⟩ | ⟨e,recorded,auditId,_,before,after,_⟩
  · rw [nothing,List.append_nil]
    refine { accounts with explains := ?_, keyed := ?_ }
    · rw [Option.map_some,unchanged]
      exact accounts.explains
    · rintro _ ⟨⟩
      exact same
  · rw [recorded]
    refine ⟨?_,?_,?_,?_,?_⟩
    · rw [List.map_append,List.map_singleton,before,after]
      exact accounts.explains.changed
    · refine List.pairwise_append.mpr ⟨accounts.ascending,List.pairwise_singleton _ _,?_⟩
      intro a inside b last
      rw [List.mem_singleton.mp last,auditId]
      exact accounts.issued a inside
    · intro a inside
      rcases List.mem_append.mp inside with earlier | last
      · exact (accounts.issued a earlier).trans (Nat.lt_succ_self n)
      · rw [List.mem_singleton.mp last,auditId]
        exact Nat.lt_succ_self n
    · intro a inside
      rcases List.mem_append.mp inside with earlier | last
      · exact accounts.raises a earlier
      · rw [List.mem_singleton.mp last,before,after]
        exact raises
    · rintro _ ⟨⟩
      exact same

/-- What an UPDATE of one row does when it succeeds. -/
theorem update_ok {store : Store Pair OwnershipRow AuditRow} (done : (update platform s id tx old new settings).toOption = some store) :
    ∃ row : OwnershipRow, row.pair = old.pair ∧
      (row.engine ≠ old.engine ∨ row.shadowEngine ≠ old.shadowEngine → old.epoch < row.epoch) ∧
      store = s.store.change id tx old.pair (some row) (auditOwnershipChange (s.sessions id) settings s.store.next old row) := by
  cases updated : update platform s id tx old new settings with
  | error e =>
    rw [updated] at done
    cases done
  | ok store' =>
    rw [updated] at done
    obtain rfl := Option.some.inj done
    obtain ⟨row,passed,rest⟩ := except_bind updated
    have guards := guarded passed
    split at rest
    · refine ⟨{ new with toRow := row },guards.columns.1,?_,(Except.ok.inj rest).symm⟩
      obtain ⟨_,engine,shadow,epoch⟩ := guards.columns
      have raises := guards.epoch
      rwa [← engine,← shadow,← epoch] at raises
    · cases rest

variable {start : State} {trace : List Op} {op : Op}

theorem BegunBy.append {login : String} (begun : BegunBy trace id login) (quiet : ∀ other, op ≠ .begin id other) :
    BegunBy (trace ++ [op]) id login := by
  obtain ⟨before,after,rfl,none_after⟩ := begun
  refine ⟨before,after ++ [op],by simp,?_⟩
  intro other inside
  rcases List.mem_append.mp inside with old | new
  · exact none_after other old
  · exact quiet other (List.mem_singleton.mp new).symm

theorem WrittenBy.append {e : AuditRow} (written : WrittenBy platform owner retentionDays start trace id e) (op : Op) :
    WrittenBy platform owner retentionDays start (trace ++ [op]) id e := by
  obtain ⟨before,statement,after,s,t,rfl,rest⟩ := written
  exact ⟨before,statement,after ++ [op],s,t,by simp,rest⟩

/-- The rows and their journal agree, the audit misses old rows only, and every row names the login of its
    transaction. -/
structure Inv (platform : Platform) (owner : String) (retentionDays : Int) (start : State) (trace : List Op) (s : State) :
    Prop where
  told : Told AuditRow.pair Accounts s.store
  among : s.audit.Sublist s.store.history
  purged : ∀ e ∈ s.store.history, e ∉ s.audit → e.createdAt < s.clock - retentionDays * dayLength
  sessions : ∀ id tx, s.store.txs id = some tx → BegunBy trace id (s.sessions id).login ∧ (s.sessions id).login ≠ owner ∧
    ∀ e ∈ tx.written, WrittenBy platform owner retentionDays start trace id e
  users : ∀ e ∈ s.store.history, ∃ id, WrittenBy platform owner retentionDays start trace id e

theorem Inv.extend (inv : Inv platform owner retentionDays start trace s) (op : Op) (quiet : ∀ id login, op ≠ .begin id login) :
    Inv platform owner retentionDays start (trace ++ [op]) s := by
  refine { inv with sessions := ?_, users := fun e inside => (inv.users e inside).imp (fun _ written => written.append op) }
  intro id tx found
  obtain ⟨begun,foreign,written⟩ := inv.sessions id tx found
  exact ⟨begun.append (quiet id),foreign,fun e inside => (written e inside).append op⟩

/-- A statement that changes no row. -/
theorem Inv.quiet (inv : Inv platform owner retentionDays start trace s)
    (same : (t.store,t.sessions,t.audit) = (s.store,s.sessions,s.audit))
    (later : s.clock ≤ t.clock) : Inv platform owner retentionDays start trace t := by
  simp only [Prod.mk.injEq] at same
  obtain ⟨store,sessions,audit⟩ := same
  refine ⟨store ▸ inv.told,?_,?_,?_,?_⟩
  · rw [audit,store]
    exact inv.among
  · intro e inside gone
    rw [store] at inside
    rw [audit] at gone
    exact (inv.purged e inside gone).trans_le (by omega)
  · intro id tx found
    rw [sessions]
    rw [store] at found
    exact inv.sessions id tx found
  · rw [store]
    exact inv.users

/-- A change of a row under its lock. -/
theorem Inv.change (inv : Inv platform owner retentionDays start trace s)
    (at_id : s.store.txs id = some tx) (free : s.store.Free id pair)
    (own : ∀ e ∈ entries, e.pair = pair)
    (written : ∀ e ∈ entries, WrittenBy platform owner retentionDays start trace id e)
    (keeps : ∀ h, Accounts s.store.next pair h (s.store.view tx pair) →
      Accounts (s.store.next + entries.length) pair (h ++ entries) row) (settings : Nat → Settings) :
    Inv platform owner retentionDays start trace { s with store := s.store.change id tx pair row entries, settings } := by
  refine ⟨inv.told.change (fun _ _ _ _ _ le accounts => accounts.later le) at_id free own keeps,inv.among,inv.purged,?_,inv.users⟩
  intro id' tx' found
  by_cases mine : id' = id
  · subst mine
    obtain ⟨begun,foreign,before⟩ := inv.sessions id' tx at_id
    rw [change_txs,Function.update_self] at found
    obtain rfl := Option.some.inj found
    refine ⟨begun,foreign,fun e inside => ?_⟩
    rcases List.mem_append.mp inside with old | new
    · exact before e old
    · exact written e new
  · rw [change_txs,Function.update_of_ne mine] at found
    exact inv.sessions id' tx' found

/-- An UPDATE keeps the invariant: the audit row it writes is that of its statement. -/
theorem Inv.update (inv : Inv platform owner retentionDays start trace s)
    (reached : Run (fun s op t => OwnershipAudit.step platform owner retentionDays s op = some t) start trace s)
    {store : Store Pair OwnershipRow AuditRow} {made : Nat → Settings}
    (taken : OwnershipAudit.step platform owner retentionDays s op = some { s with store, settings := made })
    (updates : updater op = some id) (at_id : s.store.txs id = some tx)
    (seen : s.store.view tx pair = some old) (free : s.store.Free id pair)
    (done : (OwnershipAudit.update platform s id tx old new settings).toOption = some store) :
    Inv platform owner retentionDays start (trace ++ [op]) { s with store, settings := made } := by
  have keyed : old.pair = pair := by
    have pending := inv.told.pending id tx at_id pair
    exact pending.keyed old (seen ▸ rfl)
  have quiet (other : Nat) (login : String) : op ≠ .begin other login := by
    rintro rfl
    cases updates
  obtain ⟨row,same,raises,rfl⟩ := update_ok done
  subst keyed
  have recorded := auditOwnershipChange_cases (n := s.store.next) (s.sessions id) settings old row
  refine (inv.extend op quiet).change at_id free ?_ ?_ (fun h accounts => ?_) made
  · intro e inside
    rcases recorded with ⟨nothing,_⟩ | ⟨e',one,_,own,_⟩
    · rw [nothing] at inside
      cases inside
    · rw [one,List.mem_singleton] at inside
      rw [inside,own,same]
  · intro e inside
    rcases recorded with ⟨nothing,_⟩ | ⟨e',one,number,_,_,_,login⟩
    · rw [nothing] at inside
      cases inside
    · rw [one,List.mem_singleton] at inside
      subst inside
      refine ⟨trace,op,[],s,_,rfl,reached,taken,updates,number.symm,?_,login ▸ (inv.sessions id tx at_id).1⟩
      rw [Store.change,one,number,List.length_singleton]
  · rw [seen] at accounts
    exact accounts.changed same raises

theorem Inv.begin (inv : Inv platform owner retentionDays start trace s) {login : String} (foreign : login ≠ owner)
    (taken : step platform owner retentionDays s (.begin id login) = some t) :
    Inv platform owner retentionDays start (trace ++ [.begin id login]) t := by
  simp only [step,Option.ite_none_right_eq_some,Option.some.injEq] at taken
  obtain ⟨unused,rfl⟩ := taken
  refine ⟨inv.told.start,inv.among,inv.purged,fun id' tx found => ?_,
    fun e inside => (inv.users e inside).imp (fun _ written => written.append _)⟩
  by_cases mine : id' = id
  · subst mine
    rw [start_txs,Function.update_self] at found
    obtain rfl := Option.some.inj found
    simp only [Function.update_self]
    exact ⟨⟨trace,[],rfl,fun _ => List.not_mem_nil⟩,foreign,fun e inside => absurd inside List.not_mem_nil⟩
  · rw [start_txs,Function.update_of_ne mine] at found
    simp only [Function.update_of_ne mine]
    obtain ⟨begun,other,written⟩ := inv.sessions id' tx found
    refine ⟨begun.append (fun login same => mine (Op.begin.inj same).1.symm),other,fun e inside => (written e inside).append _⟩

theorem Inv.commit (inv : Inv platform owner retentionDays start trace s)
    (taken : step platform owner retentionDays s (.commit id) = some t) :
    Inv platform owner retentionDays start trace t := by
  obtain ⟨tx,at_id,rfl⟩ := Option.map_eq_some_iff.mp taken
  refine ⟨inv.told.commit at_id,inv.among.append (List.Sublist.refl _),?_,?_,?_⟩
  · intro e inside gone
    rw [List.mem_append] at gone
    rcases List.mem_append.mp inside with old | new
    · exact inv.purged e old (fun kept => gone (.inl kept))
    · exact absurd (.inr new) gone
  · intro id' tx' found
    exact inv.sessions id' tx' (open_of_update found).2
  · intro e inside
    rcases List.mem_append.mp inside with old | new
    · exact inv.users e old
    · exact ⟨id,(inv.sessions id tx at_id).2.2 e new⟩

/-- The purge leaves every row that the retention keeps. -/
theorem Inv.purge (inv : Inv platform owner retentionDays start trace s) {days : Option Int}
    (taken : step platform owner retentionDays s (.purgeOwnershipAudit days) = some t) :
    Inv platform owner retentionDays start trace t := by
  obtain rfl := Option.some.inj taken
  refine ⟨inv.told,List.filter_sublist.trans inv.among,?_,inv.sessions,inv.users⟩
  intro e inside gone
  by_cases kept : e ∈ s.audit
  · have old : e.createdAt < s.clock - max (days.getD 0) retentionDays * dayLength := by
      by_contra young
      exact gone (List.mem_filter.mpr ⟨kept,by simpa using young⟩)
    have longer : retentionDays * dayLength ≤ max (days.getD 0) retentionDays * dayLength :=
      Int.mul_le_mul_of_nonneg_right (le_max_right _ _) (by decide)
    show e.createdAt < s.clock - retentionDays * dayLength
    omega
  · exact inv.purged e inside kept

/-- The audit table refuses every change by a login that does not own it. -/
theorem audit_refused {tgOp : TgOp} {e : AuditRow} (inv : Inv platform owner retentionDays start trace s) :
    step platform owner retentionDays s (.changeAudit id tgOp e) = none := by
  simp only [step]
  cases at_id : s.store.txs id with
  | none => rfl
  | some tx =>
    have foreign := (inv.sessions id tx at_id).2.1
    have refused : (protectOwnershipAudit tgOp (s.settings id) (s.sessions id).login owner).toOption = none := by
      unfold protectOwnershipAudit
      rw [if_neg (fun owns => foreign owns.2.2)]
      rfl
    rw [Option.bind_some,refused,Option.map_none]

theorem Inv.step (inv : Inv platform owner retentionDays start trace s)
    (reached : Run (fun s op t => OwnershipAudit.step platform owner retentionDays s op = some t) start trace s)
    (foreign : Foreign owner op) (taken : OwnershipAudit.step platform owner retentionDays s op = some t) :
    Inv platform owner retentionDays start (trace ++ [op]) t := by
  cases op with
  | tick now =>
    simp only [OwnershipAudit.step,Option.ite_none_right_eq_some,Option.some.injEq] at taken
    obtain ⟨later,rfl⟩ := taken
    exact (inv.extend _ (by simp)).quiet rfl later
  | others db =>
    obtain rfl := Option.some.inj taken
    exact (inv.extend _ (by simp)).quiet rfl le_rfl
  | begin id login => exact inv.begin foreign taken
  | setConfig id settings =>
    obtain rfl := Option.some.inj taken
    exact (inv.extend _ (by simp)).quiet rfl le_rfl
  | transitionOwnership id call approvedBy =>
    have made := taken
    simp only [OwnershipAudit.step] at taken
    split at taken
    · cases taken
    · split at taken
      · cases taken
      · next tx at_id =>
        split at taken
        · obtain rfl := Option.some.inj taken
          exact (inv.extend _ (by simp)).quiet rfl le_rfl
        · next old found =>
          split at taken
          · next free =>
            obtain ⟨store,done,rfl⟩ := Option.map_eq_some_iff.mp taken
            exact inv.update reached made rfl at_id (Option.filter_eq_some_iff.mp found).1 free done
          · cases taken
  | updateRow id pair columns =>
    have made := taken
    simp only [OwnershipAudit.step] at taken
    split at taken
    · cases taken
    · next tx at_id =>
      obtain ⟨old,seen,rest⟩ := Option.bind_eq_some_iff.mp taken
      split at rest
      · next free =>
        obtain ⟨store,done,rfl⟩ := Option.map_eq_some_iff.mp rest
        exact inv.update reached made rfl at_id seen free done
      · cases rest
  | ensureOwnershipRow id pair =>
    have earlier := inv.extend (.ensureOwnershipRow id pair) (by simp)
    simp only [OwnershipAudit.step] at taken
    split at taken
    · cases taken
    · next tx at_id =>
      split at taken
      · obtain rfl := Option.some.inj taken
        exact earlier
      · next absent =>
        split at taken
        · next free =>
          obtain rfl := Option.some.inj taken
          refine earlier.change at_id free (by simp) (by simp) (fun h accounts => ?_) s.settings
          rw [Option.not_isSome_iff_eq_none.mp absent] at accounts
          rw [List.append_nil]
          exact accounts.inserted
        · cases taken
  | deleteRow id pair =>
    have earlier := inv.extend (.deleteRow id pair) (by simp)
    simp only [OwnershipAudit.step] at taken
    split at taken
    · cases taken
    · next tx at_id =>
      split at taken
      · next free =>
        obtain rfl := Option.some.inj taken
        refine earlier.change at_id free (by simp) (by simp) (fun h accounts => ?_) s.settings
        rw [List.append_nil]
        exact accounts.deleted
      · cases taken
  | commit id => exact (inv.extend _ (by simp)).commit taken
  | rollback id =>
    obtain rfl := Option.some.inj taken
    have earlier := inv.extend (.rollback id) (by simp)
    refine ⟨earlier.told.rollback,earlier.among,earlier.purged,?_,earlier.users⟩
    intro id' tx' found
    exact earlier.sessions id' tx' (open_of_update found).2
  | changeAudit id tgOp e =>
    rw [audit_refused inv] at taken
    cases taken
  | purgeOwnershipAudit days => exact (inv.extend _ (by simp)).purge taken

end

instance (owner : String) (op : Op) : Decidable (Foreign owner op) :=
  match op with
  | .begin _ login => inferInstanceAs (Decidable (login ≠ owner))
  | .tick _ | .others _ | .setConfig _ _ | .transitionOwnership _ _ _ | .updateRow _ _ _ | .ensureOwnershipRow _ _
  | .deleteRow _ _ | .commit _ | .rollback _ | .changeAudit _ _ _ | .purgeOwnershipAudit _ => .isTrue trivial

end FineractBi.OwnershipAudit
