import FineractBi.ChangeLog
import FineractBi.Lib.Lease

/-!
Invocations of dbt that overlap. Each takes the lease lock `meta.dbt_run_lock` at
its start, replaces the shared tables `int_change_window` and `int_snapshot_scope`,
builds the fact table with its post-hooks and releases the lock, and may fail or
die after any statement. While every statement is executed within its lease the
invocations are serial (`invocations_serial`). When a lease is overrun and another
invocation takes the lock, the window still names the invocation that built it, and
only that one moves the cursor: no change-log row is skipped (`overlap_never_skips`).
-/
namespace FineractBi.RunLock
open Calendar Runs Lease FineractBi.ApplyBatch FineractBi.ChangeLog

/-- A row of `meta.dbt_run_lock`. -/
abbrev LockRow := Grant String Instant

def minute : Int := 60000000

/-- `meta.acquire_dbt_lock`, with NOW() and the setting `dbt_run_lease_minutes`; none is the exception FBI04. -/
def acquireDbtLock (lock : Option LockRow) (holder : String) (now leaseMinutes : Int) : Option LockRow :=
  acquire lock ⟨holder,now,now + leaseMinutes * minute⟩

/-- `meta.release_dbt_lock`. -/
def releaseDbtLock (lock : Option LockRow) (holder : String) : Option LockRow := release lock holder

/-- How far an invocation has come. -/
inductive Progress
  | waiting | started | windowed | scoped | built | ended
  deriving DecidableEq, Repr

/-- The warehouse with its lock, the invocations and the two tables they share. `log.run` stays idle: the tables
    say how far the runs are. -/
structure State where
  log : ChangeLog.State
  lock : Option LockRow
  granted : String → Option LockRow
  progress : String → Progress
  intChangeWindow : Option (String × Window)
  intSnapshotScope : Option (List LogRow × List LogRow)

def State.progresses (s : State) (invocation : String) (progress : Progress) : State :=
  { s with progress := Function.update s.progress invocation progress }

inductive Event
  | log (e : ChangeLog.Event)
  | acquireRunLock (invocation : String) (now leaseMinutes : Int)
  | buildWindow (invocation : String) (fullRebuild : Bool)
  | buildScope (invocation : String)
  | buildFact (invocation : String)
  | finishRun (invocation : String)
  | die (invocation : String)

/-- The steps of the run of the log, which the invocations take here. -/
def ofRun : ChangeLog.Event → Bool
  | .buildWindow _ | .buildScope | .buildFact | .failRun => true
  | _ => false

/-- `advance_fact_cursor`: the window moves the cursor for the invocation that built it. -/
def advanceFactCursor (s : State) (invocation : String) : ChangeLog.State :=
  match s.intChangeWindow,s.intSnapshotScope with
  | some (builder,w),some (changes,rebuilt) =>
    if builder = invocation then { s.log with cursor := some ⟨w.horizonTxid,s.log.clock⟩, seen := changes ++ rebuilt ++ s.log.seen }
    else s.log
  | _,_ => s.log

/-- One step. A run whose lock is refused ends; the hook at the end of a run is executed however far the run came. -/
def step (s : State) : Event → Option State
  | .log e => if ofRun e then none else (ChangeLog.step s.log e).map (fun log => { s with log })
  | .acquireRunLock i now leaseMinutes =>
    if s.progress i = .waiting ∧ now ≤ s.log.clock then
      match acquireDbtLock s.lock i now leaseMinutes with
      | some row => some ({ s with lock := some row, granted := Function.update s.granted i (some row) }.progresses i .started)
      | none => some (s.progresses i .ended)
    else none
  | .buildWindow i fullRebuild =>
    if s.progress i = .started then
      some ({ s with intChangeWindow := some (i,⟨cursorTxid s.log,snapshotXmin s.log,fullRebuild⟩) }.progresses i .windowed)
    else none
  | .buildScope i =>
    match s.progress i,s.intChangeWindow with
    | .windowed,some (_,w) =>
      some ({ s with intSnapshotScope := some (changesIn s.log w,if w.fullRebuild then visible s.log else []) }.progresses i .scoped)
    | _,_ => none
  | .buildFact i =>
    if s.progress i = .scoped then some ({ s with log := advanceFactCursor s i }.progresses i .built) else none
  | .finishRun i =>
    some ({ s with lock := releaseDbtLock s.lock i, granted := Function.update s.granted i none }.progresses i .ended)
  | .die i => some ({ s with granted := Function.update s.granted i none }.progresses i .ended)

/-- The statements of a run are executed while its lease lasts. -/
def InLease (s : State) : Event → Prop
  | .buildWindow i _ | .buildScope i | .buildFact i => ∃ row, s.granted i = some row ∧ s.log.clock ≤ row.expiresAt
  | _ => True

instance (s : State) (e : Event) : Decidable (InLease s e) :=
  match e with
  | .buildWindow i _ | .buildScope i | .buildFact i =>
    decidable_of_iff (∃ row ∈ s.granted i, s.log.clock ≤ row.expiresAt) (by simp [InLease])
  | .log _ | .acquireRunLock _ _ _ | .finishRun _ | .die _ => .isTrue trivial

/-- The condition on a step of the log: `ChangeLog.Calm`. -/
def Calm (s : State) : Event → Prop
  | .log e => ChangeLog.Calm s.log e
  | _ => True

instance (s : State) (e : Event) : Decidable (Calm s e) :=
  match e with
  | .log e => inferInstanceAs (Decidable (ChangeLog.Calm s.log e))
  | .acquireRunLock _ _ _ | .buildWindow _ _ | .buildScope _ | .buildFact _ | .finishRun _ | .die _ => .isTrue trivial

/-- Nobody at work. -/
def initial (clock : Instant) (settings : Settings) (partitions : List Date) : State where
  log := ChangeLog.initial clock settings partitions
  lock := none
  granted := fun _ => none
  progress := fun _ => .waiting
  intChangeWindow := none
  intSnapshotScope := none

section Log
variable {s t : ChangeLog.State} {e : ChangeLog.Event}

private theorem ensurePartitions_step {daysBack daysAhead : Nat} (ensured : ensurePartitions s daysBack daysAhead = some t) :
    t.run = s.run ∧ t.cursor = s.cursor ∧ ∀ run, ensurePartitions { s with run } daysBack daysAhead = some { t with run } := by
  simp only [ensurePartitions] at ensured
  split at ensured
  · cases ensured
  · next clear =>
    obtain rfl := Option.some.inj ensured
    exact ⟨rfl,rfl,fun run => if_neg clear⟩

/-- A step that is not of the run leaves the run and the cursor, and does not depend on the run. -/
theorem log_step (other : ofRun e = false) (taken : ChangeLog.step s e = some t) :
    t.run = s.run ∧ t.cursor = s.cursor ∧ ∀ run, ChangeLog.step { s with run } e = some { t with run } := by
  cases e with
  | tick instant =>
    simp only [ChangeLog.step,Option.ite_none_right_eq_some,Option.some.injEq] at taken
    obtain ⟨later,rfl⟩ := taken
    exact ⟨rfl,rfl,fun run => if_pos later⟩
  | configure settings =>
    obtain rfl := Option.some.inj taken
    exact ⟨rfl,rfl,fun _ => rfl⟩
  | start =>
    obtain rfl := Option.some.inj taken
    exact ⟨rfl,rfl,fun _ => rfl⟩
  | insert txid entry =>
    simp only [ChangeLog.step,Option.map_eq_some_iff] at taken
    obtain ⟨tx,found,rfl⟩ := taken
    exact ⟨rfl,rfl,fun run => by simp [ChangeLog.step,found]⟩
  | commit txid =>
    simp only [ChangeLog.step,Option.ite_none_right_eq_some,Option.some.injEq] at taken
    obtain ⟨known,rfl⟩ := taken
    exact ⟨rfl,rfl,fun run => if_pos known⟩
  | abort txid =>
    simp only [ChangeLog.step,Option.ite_none_right_eq_some,Option.some.injEq] at taken
    obtain ⟨known,rfl⟩ := taken
    exact ⟨rfl,rfl,fun run => if_pos known⟩
  | buildWindow fullRebuild => cases other
  | buildScope => cases other
  | buildFact => cases other
  | failRun => cases other
  | ensurePartitions daysBack daysAhead => exact ensurePartitions_step taken
  | purgeBegin session argument maxPartitions =>
    simp only [ChangeLog.step] at taken ⊢
    split at taken
    · cases taken
    · obtain ⟨between,ensured,rfl⟩ := Option.map_eq_some_iff.mp taken
      obtain ⟨run_same,cursor,others⟩ := ensurePartitions_step ensured
      refine ⟨run_same,cursor,fun run => ?_⟩
      exact Option.map_eq_some_iff.mpr ⟨_,others run,rfl⟩
  | purgeFloor session =>
    simp only [ChangeLog.step] at taken ⊢
    split at taken
    · split at taken
      · obtain rfl := Option.some.inj taken
        exact ⟨rfl,rfl,fun _ => rfl⟩
      · obtain rfl := Option.some.inj taken
        exact ⟨rfl,rfl,fun _ => rfl⟩
    · cases taken
  | purgePartitions session =>
    simp only [ChangeLog.step] at taken ⊢
    split at taken
    · obtain rfl := Option.some.inj taken
      exact ⟨rfl,rfl,fun _ => rfl⟩
    · cases taken
  | purgeNext session =>
    simp only [ChangeLog.step,purgeNext] at taken ⊢
    split at taken
    · obtain rfl := Option.some.inj taken
      exact ⟨rfl,rfl,fun _ => rfl⟩
    · repeat' split at taken
      all_goals cases taken
      · next enough => exact ⟨rfl,rfl,fun run => if_pos enough⟩
      · next more attached unread =>
        exact ⟨rfl,rfl,fun run => (if_neg more).trans ((if_neg attached).trans (if_pos unread))⟩
      · next more attached read =>
        exact ⟨rfl,rfl,fun run => (if_neg more).trans ((if_neg attached).trans (if_neg read))⟩
    · cases taken
  | purgeDrop session =>
    simp only [ChangeLog.step,purgeDrop] at taken ⊢
    split at taken
    · split at taken
      · cases taken
      · next clear =>
        obtain rfl := Option.some.inj taken
        exact ⟨rfl,rfl,fun run => if_neg clear⟩
    · cases taken
  | purgeBusy session =>
    simp only [ChangeLog.step] at taken ⊢
    split at taken
    · obtain rfl := Option.some.inj taken
      exact ⟨rfl,rfl,fun _ => rfl⟩
    · cases taken
  | purgeDefault session =>
    simp only [ChangeLog.step] at taken ⊢
    split at taken
    · obtain rfl := Option.some.inj taken
      exact ⟨rfl,rfl,fun _ => rfl⟩
    · cases taken
  | purgeFail session =>
    obtain rfl := Option.some.inj taken
    exact ⟨rfl,rfl,fun _ => rfl⟩

end Log

section Steps
variable {s t : State} {e : Event} {i j : String} {p : Progress} {row : LockRow}

@[simp] theorem progresses_log : (s.progresses i p).log = s.log := rfl
@[simp] theorem progresses_lock : (s.progresses i p).lock = s.lock := rfl
@[simp] theorem progresses_granted : (s.progresses i p).granted = s.granted := rfl
@[simp] theorem progresses_window : (s.progresses i p).intChangeWindow = s.intChangeWindow := rfl
@[simp] theorem progresses_scope : (s.progresses i p).intSnapshotScope = s.intSnapshotScope := rfl
@[simp] theorem progresses_self : (s.progresses i p).progress i = p := Function.update_self _ _ _
theorem progresses_other (other : j ≠ i) : (s.progresses i p).progress j = s.progress j := Function.update_of_ne other _ _

/-! ### Within the leases -/

/-- The run of the log that the tables of an invocation stand for. -/
def AtPhase (s : State) (i : String) (run : RunPhase) : Prop :=
  match s.progress i with
  | .started => run = .idle
  | .windowed => ∃ w, s.intChangeWindow = some (i,w) ∧ run = .window w
  | .scoped => ∃ w changes rebuilt, s.intChangeWindow = some (i,w) ∧ s.intSnapshotScope = some (changes,rebuilt) ∧
      run = .scope w changes rebuilt
  | _ => True

theorem AtPhase.congr {run : RunPhase} (at_phase : AtPhase s i run) (progress : t.progress i = s.progress i)
    (same : (t.intChangeWindow,t.intSnapshotScope) = (s.intChangeWindow,s.intSnapshotScope)) : AtPhase t i run := by
  obtain ⟨window,scope⟩ := Prod.mk.inj same
  simpa only [AtPhase,progress,window,scope] using at_phase

/-- The tables are those of the invocation whose lease lasts, if there is one. -/
structure Serial (s : State) (run : RunPhase) : Prop where
  exclusive : Exclusive s.log.clock s.lock s.granted
  at_phase : ∀ i row, s.granted i = some row → s.log.clock ≤ row.expiresAt → AtPhase s i run

/-- What a step is in the log. -/
def inLog : Event → List ChangeLog.Event
  | .log e => [e]
  | .buildWindow _ fullRebuild => [.buildWindow fullRebuild]
  | .buildScope _ => [.buildScope]
  | .buildFact _ => [.buildFact]
  | .acquireRunLock _ _ _ | .finishRun _ | .die _ => []

/-- The end of a run whose invocation died. -/
def isFailRun : ChangeLog.Event → Bool
  | .failRun => true
  | _ => false

/-- A step of the system is the same step of the log, after which the tables are the run's; where a new invocation
    starts the run before it has failed. -/
def Simulates (s : State) (run : RunPhase) (e : Event) (t : State) : Prop :=
  ∃ serial run', exec ChangeLog.step { s.log with run } serial = some { t.log with run := run' } ∧
    serial.filter (fun e => !isFailRun e) = inLog e ∧ Serial t run'

/-- The other invocations are out of their leases. -/
theorem serial_only {run : RunPhase} (exclusive : Exclusive t.log.clock t.lock t.granted) (mine : t.granted i = some row)
    (lasts : t.log.clock ≤ row.expiresAt) (at_phase : AtPhase t i run) : Serial t run := by
  refine ⟨exclusive,fun j row' found lasts' => ?_⟩
  obtain rfl := exclusive.unique mine found lasts lasts'
  exact at_phase

theorem Serial.log {run : RunPhase} (serial : Serial s run) {e : ChangeLog.Event} (taken : step s (.log e) = some t) :
    Simulates s run (.log e) t := by
  simp only [step] at taken
  split at taken
  · cases taken
  · next other =>
    obtain ⟨log,logged,rfl⟩ := Option.map_eq_some_iff.mp taken
    obtain ⟨_,_,same⟩ := log_step (Bool.eq_false_iff.mpr other) logged
    have later := (step_grows logged).clock
    refine ⟨[e],run,?_,?_,serial.exclusive.later later,fun i row found lasts =>
      serial.at_phase i row found (later.trans lasts)⟩
    · simp [exec,same run]
    · cases e with
      | failRun => exact absurd rfl other
      | _ => rfl

theorem Serial.acquire {run : RunPhase} (serial : Serial s run) {now leaseMinutes : Int}
    (taken : step s (.acquireRunLock i now leaseMinutes) = some t) : Simulates s run (.acquireRunLock i now leaseMinutes) t := by
  simp only [step] at taken
  split at taken
  · next begun =>
    split at taken
    · next row granted =>
      obtain rfl := Option.some.inj taken
      obtain ⟨free,rfl⟩ := acquire_eq_some.mp granted
      have exclusive := serial.exclusive.taken free begun.2
      refine ⟨[.failRun],.idle,rfl,rfl,exclusive,fun j row found lasts => ?_⟩
      have mine : j = i := (exclusive.own j row found).symm.trans
        (congrArg Grant.holder (Option.some.inj (exclusive.held j row found lasts))).symm
      subst mine
      simp [AtPhase]
    · obtain rfl := Option.some.inj taken
      refine ⟨[],run,rfl,rfl,serial.exclusive,fun j row found lasts => ?_⟩
      by_cases mine : j = i
      · subst mine
        simp [AtPhase]
      · exact (serial.at_phase j row found lasts).congr (progresses_other mine) rfl
  · cases taken

theorem Serial.window {run : RunPhase} (serial : Serial s run) {fullRebuild : Bool}
    (lease : InLease s (.buildWindow i fullRebuild)) (taken : step s (.buildWindow i fullRebuild) = some t) :
    Simulates s run (.buildWindow i fullRebuild) t := by
  obtain ⟨row,mine,lasts⟩ := lease
  simp only [step,Option.ite_none_right_eq_some,Option.some.injEq] at taken
  obtain ⟨started,rfl⟩ := taken
  have idle := serial.at_phase i row mine lasts
  simp only [AtPhase,started] at idle
  subst idle
  refine ⟨[.buildWindow fullRebuild],.window ⟨cursorTxid s.log,snapshotXmin s.log,fullRebuild⟩,rfl,rfl,
    serial_only serial.exclusive mine lasts ?_⟩
  simp [AtPhase]

theorem Serial.scope {run : RunPhase} (serial : Serial s run) (lease : InLease s (.buildScope i))
    (taken : step s (.buildScope i) = some t) : Simulates s run (.buildScope i) t := by
  obtain ⟨row,mine,lasts⟩ := lease
  simp only [step] at taken
  split at taken
  · next builder w windowed at_window =>
    obtain rfl := Option.some.inj taken
    have windowed_run := serial.at_phase i row mine lasts
    simp only [AtPhase,windowed] at windowed_run
    obtain ⟨w',own,rfl⟩ := windowed_run
    rw [own] at at_window
    obtain ⟨rfl,rfl⟩ := Prod.mk.inj (Option.some.inj at_window)
    refine ⟨[.buildScope],.scope w' (changesIn s.log w') (if w'.fullRebuild then visible s.log else []),rfl,rfl,
      serial_only serial.exclusive mine lasts ?_⟩
    simp [AtPhase,own]
  · cases taken

theorem Serial.fact {run : RunPhase} (serial : Serial s run) (lease : InLease s (.buildFact i))
    (taken : step s (.buildFact i) = some t) : Simulates s run (.buildFact i) t := by
  obtain ⟨row,mine,lasts⟩ := lease
  simp only [step,Option.ite_none_right_eq_some,Option.some.injEq] at taken
  obtain ⟨at_scoped,rfl⟩ := taken
  have scoped_run := serial.at_phase i row mine lasts
  simp only [AtPhase,at_scoped] at scoped_run
  obtain ⟨w,changes,rebuilt,at_window,at_scope,rfl⟩ := scoped_run
  have advanced : advanceFactCursor s i =
      { s.log with cursor := some ⟨w.horizonTxid,s.log.clock⟩, seen := changes ++ rebuilt ++ s.log.seen } := by
    simp [advanceFactCursor,at_window,at_scope]
  refine ⟨[.buildFact],.idle,?_,rfl,?_⟩
  · simp [exec,ChangeLog.step,advanced]
  · have same_clock : (advanceFactCursor s i).clock = s.log.clock := by rw [advanced]
    refine serial_only (by simpa [same_clock] using serial.exclusive) mine (by simpa [same_clock] using lasts) ?_
    simp [AtPhase]

/-- Who ends leaves the tables of the others. -/
theorem Serial.ended {run : RunPhase} (serial : Serial s run) {lock : Option LockRow}
    (exclusive : Exclusive s.log.clock lock (Function.update s.granted i none)) :
    Serial ({ s with lock, granted := Function.update s.granted i none }.progresses i .ended) run := by
  refine ⟨exclusive,fun j row found lasts => ?_⟩
  have granted : Function.update s.granted i none j = some row := found
  have other : j ≠ i := by
    rintro rfl
    rw [Function.update_self] at granted
    cases granted
  rw [Function.update_of_ne other] at granted
  exact (serial.at_phase j row granted lasts).congr (progresses_other other) rfl

/-- Every step within its lease is a step of the log. -/
theorem Serial.step {run : RunPhase} (serial : Serial s run) (lease : InLease s e) (taken : step s e = some t) :
    Simulates s run e t := by
  cases e with
  | log e => exact serial.log taken
  | acquireRunLock i now leaseMinutes => exact serial.acquire taken
  | buildWindow i fullRebuild => exact serial.window lease taken
  | buildScope i => exact serial.scope lease taken
  | buildFact i => exact serial.fact lease taken
  | finishRun i =>
    obtain rfl := Option.some.inj taken
    exact ⟨[],run,rfl,rfl,serial.ended (serial.exclusive.released i)⟩
  | die i =>
    obtain rfl := Option.some.inj taken
    exact ⟨[],run,rfl,rfl,serial.ended (serial.exclusive.left i)⟩

end Steps

/-- While every statement of a dbt run is executed within its lease, any interleaving of invocations, deaths
    included, is a run of the change log in which one run follows the other: the same steps in the same order, the
    runs of dead invocations having failed. -/
theorem invocations_serial (clock : Instant) (settings : Settings) (partitions : List Date) (trace : List Event) (s : State)
    (run : Run (fun s e t => InLease s e ∧ step s e = some t) (initial clock settings partitions) trace s) :
    ∃ serial at_run, Run (fun s e t => ChangeLog.step s e = some t) (ChangeLog.initial clock settings partitions) serial
        { s.log with run := at_run } ∧
      serial.filter (fun e => !isFailRun e) = trace.flatMap inLog := by
  have related : ∃ serial at_run, exec ChangeLog.step (ChangeLog.initial clock settings partitions) serial =
      some { s.log with run := at_run } ∧ serial.filter (fun e => !isFailRun e) = trace.flatMap inLog ∧ Serial s at_run := by
    refine run.invariant (I := fun trace s => ∃ serial at_run, exec ChangeLog.step
      (ChangeLog.initial clock settings partitions) serial = some { s.log with run := at_run } ∧
        serial.filter (fun e => !isFailRun e) = trace.flatMap inLog ∧ Serial s at_run) ?_ ?_
    · exact ⟨[],.idle,rfl,rfl,.initial clock,by intro i row found; cases found⟩
    · rintro trace s e t ⟨serial,at_run,executed,same,related⟩ ⟨lease,taken⟩
      obtain ⟨more,at_run',executed',same',related'⟩ := related.step lease taken
      refine ⟨serial ++ more,at_run',?_,?_,related'⟩
      · rw [exec_append,executed,Option.bind_some,executed']
      · rw [List.filter_append,same,same',List.flatMap_append,List.flatMap_singleton]
  obtain ⟨serial,at_run,executed,same,_⟩ := related
  exact ⟨serial,at_run,exec_run (fun _ _ _ taken => taken) executed,same⟩

/-- An invocation dies after its scope, and another takes the lock once the lease is over. -/
def deathAndSuccessor : List Event := [
  .acquireRunLock "first" 0 360,.log .start,.log (.insert 1 someEntry),.log (.commit 1),.buildWindow "first" false,
  .buildScope "first",.die "first",.acquireRunLock "second" 0 360,.log (.tick (361 * minute)),
  .acquireRunLock "third" (361 * minute) 360,.buildWindow "third" false,.buildScope "third",.buildFact "third",
  .finishRun "third"]

theorem invocations_serial_death : ∃ (s : State) (serial : List ChangeLog.Event) (at_run : RunPhase),
    Run (fun s e t => ChangeLog.step s e = some t) (ChangeLog.initial 0 defaults []) serial { s.log with run := at_run } ∧
      s.progress "second" = .ended ∧ s.lock = none ∧ s.log.seen.length = 1 := by
  obtain ⟨s,executed,shown⟩ : ∃ s, exec (fun s e => if InLease s e then step s e else none) (initial 0 defaults [])
      deathAndSuccessor = some s ∧ s.progress "second" = .ended ∧ s.lock = none ∧ s.log.seen.length = 1 :=
    ⟨_,rfl,rfl,rfl,rfl⟩
  have run : Run (fun s e t => InLease s e ∧ step s e = some t) (initial 0 defaults []) deathAndSuccessor s :=
    exec_run (fun s e t taken => by simpa using taken) executed
  obtain ⟨serial,at_run,same,_⟩ := invocations_serial 0 defaults [] deathAndSuccessor s run
  exact ⟨s,serial,at_run,same,shown⟩

/-- An invocation that has still to move the cursor by its window. -/
def Pending (s : State) (i : String) : Prop := s.progress i = .windowed ∨ s.progress i = .scoped

/-- The window of an invocation at work starts at the cursor, and the scope it will use holds what the window reads. -/
structure Guarded (s : State) : Prop where
  log : Inv s.log
  idle : s.log.run = .idle
  window : ∀ i w, s.intChangeWindow = some (i,w) → Pending s i → RunSafe s.log (.window w)
  scope : ∀ i w, s.intChangeWindow = some (i,w) → s.progress i = .scoped →
    ∃ changes rebuilt, s.intSnapshotScope = some (changes,rebuilt) ∧ RunSafe s.log (.scope w changes rebuilt)

section Overlap
variable {s t : State} {e : Event} {i j : String} {p : Progress}

private theorem Inv.at_run {s : ChangeLog.State} (inv : Inv s) {run : RunPhase} (safe : RunSafe s run) :
    Inv { s with run } where
  books := inv.books.quiet rfl
  cursor := inv.cursor
  run := by cases run <;> exact safe
  purges session call found := by
    have old := inv.purges session call found
    revert old
    cases call.phase <;> exact id

/-- A scope that is built from a safe window is safe, whoever builds it. -/
theorem scope_safe {s : ChangeLog.State} (inv : Inv s) {w : Window} (safe : RunSafe s (.window w)) :
    RunSafe s (.scope w (changesIn s w) (if w.fullRebuild then visible s else [])) :=
  (inv_buildScope (Inv.at_run inv safe) rfl).run

/-- Progress that takes no invocation into work keeps what is guarded. -/
theorem Guarded.progresses (guarded : Guarded s) (quiet : ¬(p = .windowed ∨ p = .scoped)) : Guarded (s.progresses i p) := by
  have others (j : String) (pending : Pending (s.progresses i p) j) : j ≠ i ∧ Pending s j := by
    by_cases mine : j = i
    · subst mine
      rw [Pending,progresses_self] at pending
      exact absurd pending quiet
    · rw [Pending,progresses_other mine] at pending
      exact ⟨mine,pending⟩
  refine ⟨guarded.log,guarded.idle,fun j w at_window pending => guarded.window j w at_window (others j pending).2,?_⟩
  intro j w at_window at_scoped
  have mine := (others j (.inr at_scoped)).1
  rw [progresses_other mine] at at_scoped
  exact guarded.scope j w at_window at_scoped

private theorem Guarded.log_step (guarded : Guarded s) {e : ChangeLog.Event} (calm : ChangeLog.Calm s.log e)
    (taken : step s (.log e) = some t) : Guarded t := by
  simp only [step] at taken
  split at taken
  · cases taken
  · next other =>
    obtain ⟨log,logged,rfl⟩ := Option.map_eq_some_iff.mp taken
    obtain ⟨run,cursor,_⟩ := RunLock.log_step (Bool.eq_false_iff.mpr other) logged
    have grows := step_grows logged
    have same : cursorTxid log = cursorTxid s.log := by rw [cursorTxid,cursorTxid,cursor]
    refine ⟨step_inv guarded.log calm logged,run.trans guarded.idle,
      fun i w at_window pending => (guarded.window i w at_window pending).grows grows same,?_⟩
    intro i w at_window at_scoped
    obtain ⟨changes,rebuilt,at_scope,safe⟩ := guarded.scope i w at_window at_scoped
    exact ⟨changes,rebuilt,at_scope,safe.grows grows same⟩

private theorem Guarded.build_window (guarded : Guarded s) {fullRebuild : Bool}
    (taken : step s (.buildWindow i fullRebuild) = some t) : Guarded t := by
  simp only [step,Option.ite_none_right_eq_some,Option.some.injEq] at taken
  obtain ⟨_,rfl⟩ := taken
  refine ⟨guarded.log,guarded.idle,?_,?_⟩
  · intro j w at_window _
    obtain ⟨_,rfl⟩ := Prod.mk.inj (Option.some.inj at_window)
    exact ⟨rfl,snapshotXmin_behind s.log⟩
  · intro j w at_window at_scoped
    obtain ⟨rfl,_⟩ := Prod.mk.inj (Option.some.inj at_window)
    rw [progresses_self] at at_scoped
    cases at_scoped

/-- Another invocation may replace the scope of the one that built the window: it reads the same window. -/
theorem Guarded.build_scope (guarded : Guarded s) (taken : step s (.buildScope i) = some t) : Guarded t := by
  simp only [step] at taken
  split at taken
  · next builder w at_windowed at_window =>
    obtain rfl := Option.some.inj taken
    have before (j : String) (pending : Pending (s.progresses i .scoped) j) : Pending s j := by
      by_cases mine : j = i
      · exact .inl (mine ▸ at_windowed)
      · rwa [Pending,progresses_other mine] at pending
    refine ⟨guarded.log,guarded.idle,fun j w' same pending => guarded.window j w' same (before j pending),?_⟩
    intro j w' same at_scoped
    have own : s.intChangeWindow = some (j,w') := same
    obtain ⟨rfl,rfl⟩ := Prod.mk.inj (Option.some.inj (at_window.symm.trans own))
    exact ⟨_,_,rfl,scope_safe guarded.log (guarded.window builder w at_window (before builder (.inr at_scoped)))⟩
  · cases taken

/-- The cursor moves only by a window whose own invocation builds the fact table. -/
theorem Guarded.build_fact (guarded : Guarded s) (taken : step s (.buildFact i) = some t) : Guarded t := by
  simp only [step,Option.ite_none_right_eq_some,Option.some.injEq] at taken
  obtain ⟨at_scoped,rfl⟩ := taken
  have stays (same : advanceFactCursor s i = s.log) :
      Guarded ({ s with log := advanceFactCursor s i }.progresses i .built) := by
    rw [same]
    exact guarded.progresses (by simp)
  by_cases mine : ∃ w, s.intChangeWindow = some (i,w)
  · obtain ⟨w,at_window⟩ := mine
    obtain ⟨changes,rebuilt,at_scope,safe⟩ := guarded.scope i w at_window at_scoped
    have advanced : advanceFactCursor s i =
        { s.log with cursor := some ⟨w.horizonTxid,s.log.clock⟩, seen := changes ++ rebuilt ++ s.log.seen } := by
      simp [advanceFactCursor,at_window,at_scope]
    have nobody (j : String) (w' : Window) (at_j : s.intChangeWindow = some (j,w'))
        (pending : Pending ({ s with log := advanceFactCursor s i }.progresses i .built) j) : False := by
      obtain ⟨rfl,_⟩ := Prod.mk.inj (Option.some.inj (at_window.symm.trans at_j))
      rw [Pending,progresses_self] at pending
      simp at pending
    refine ⟨?_,?_,fun j w' at_j pending => (nobody j w' at_j pending).elim,
      fun j w' at_j scoped' => (nobody j w' at_j (.inr scoped')).elim⟩
    · have built := inv_buildFact (Inv.at_run guarded.log safe) rfl
      rw [progresses_log,advanced]
      have idle : RunSafe { s.log with
          cursor := some ⟨w.horizonTxid,s.log.clock⟩, seen := changes ++ rebuilt ++ s.log.seen } s.log.run := by
        rw [guarded.idle]
        trivial
      exact Inv.at_run built idle
    · rw [progresses_log,advanced]
      exact guarded.idle
  · refine stays ?_
    unfold advanceFactCursor
    split
    · next builder w _ _ at_window _ => exact if_neg (by rintro rfl; exact mine ⟨w,at_window⟩)
    · rfl

theorem Guarded.step (guarded : Guarded s) (calm : Calm s e) (taken : step s e = some t) : Guarded t := by
  cases e with
  | log e => exact guarded.log_step calm taken
  | acquireRunLock i now leaseMinutes =>
    simp only [RunLock.step] at taken
    split at taken
    · split at taken
      · obtain rfl := Option.some.inj taken
        exact Guarded.progresses ⟨guarded.log,guarded.idle,guarded.window,guarded.scope⟩ (by simp)
      · obtain rfl := Option.some.inj taken
        exact guarded.progresses (by simp)
    · cases taken
  | buildWindow i fullRebuild => exact guarded.build_window taken
  | buildScope i => exact guarded.build_scope taken
  | buildFact i => exact guarded.build_fact taken
  | finishRun i =>
    obtain rfl := Option.some.inj taken
    exact Guarded.progresses ⟨guarded.log,guarded.idle,guarded.window,guarded.scope⟩ (by simp)
  | die i =>
    obtain rfl := Option.some.inj taken
    exact Guarded.progresses ⟨guarded.log,guarded.idle,guarded.window,guarded.scope⟩ (by simp)

/-- The last window of the trace is that of the invocation. -/
def LastBuilder (trace : List Event) (i : String) : Prop :=
  ∃ before fullRebuild after, trace = before ++ .buildWindow i fullRebuild :: after ∧ ∀ j full, .buildWindow j full ∉ after

theorem LastBuilder.append {trace : List Event} (last : LastBuilder trace i) (other : ∀ j full, e ≠ .buildWindow j full) :
    LastBuilder (trace ++ [e]) i := by
  obtain ⟨before,fullRebuild,after,rfl,none_after⟩ := last
  refine ⟨before,fullRebuild,after ++ [e],by simp,?_⟩
  intro j full member
  rcases List.mem_append.mp member with old | new
  · exact none_after j full old
  · exact other j full (List.mem_singleton.mp new).symm

private theorem step_window (taken : step s e = some t) (other : ∀ j full, e ≠ .buildWindow j full) :
    t.intChangeWindow = s.intChangeWindow := by
  cases e with
  | log e =>
    simp only [step] at taken
    split at taken
    · cases taken
    · obtain ⟨log,_,rfl⟩ := Option.map_eq_some_iff.mp taken
      rfl
  | acquireRunLock i now leaseMinutes =>
    simp only [step] at taken
    repeat' split at taken
    all_goals cases taken
    all_goals rfl
  | buildWindow i fullRebuild => exact absurd rfl (other i fullRebuild)
  | buildScope i =>
    simp only [step] at taken
    split at taken
    · obtain rfl := Option.some.inj taken
      rfl
    · cases taken
  | buildFact i =>
    simp only [step,Option.ite_none_right_eq_some,Option.some.injEq] at taken
    obtain ⟨_,rfl⟩ := taken
    rfl
  | finishRun i =>
    obtain rfl := Option.some.inj taken
    rfl
  | die i =>
    obtain rfl := Option.some.inj taken
    rfl

/-- The table names the invocation whose window it holds. -/
theorem window_of_last {start : State} {trace : List Event} (fresh : start.intChangeWindow = none)
    (run : Run (fun s e t => step s e = some t) start trace s) : ∀ i w, s.intChangeWindow = some (i,w) → LastBuilder trace i := by
  refine run.invariant (I := fun trace s => ∀ i w, s.intChangeWindow = some (i,w) → LastBuilder trace i) ?_ ?_
  · intro i w at_window
    rw [fresh] at at_window
    cases at_window
  · intro trace s e t held taken i w at_window
    by_cases built : ∃ j full, e = .buildWindow j full
    · obtain ⟨j,full,rfl⟩ := built
      simp only [step,Option.ite_none_right_eq_some,Option.some.injEq] at taken
      obtain ⟨_,rfl⟩ := taken
      obtain ⟨rfl,_⟩ := Prod.mk.inj (Option.some.inj at_window)
      exact ⟨trace,full,[],rfl,fun _ _ => List.not_mem_nil⟩
    · have other (j : String) (full : Bool) (same : e = .buildWindow j full) : False := built ⟨j,full,same⟩
      rw [step_window taken other] at at_window
      exact (held i w at_window).append other

/-- A cursor moves by a window whose own invocation builds the fact table, and to its end. -/
theorem cursor_moves (taken : step s e = some t) (moved : t.log.cursor ≠ s.log.cursor) :
    ∃ i w, e = .buildFact i ∧ s.intChangeWindow = some (i,w) ∧ cursorTxid t.log = w.horizonTxid := by
  cases e with
  | log e =>
    simp only [step] at taken
    split at taken
    · cases taken
    · next other =>
      obtain ⟨log,logged,rfl⟩ := Option.map_eq_some_iff.mp taken
      exact absurd (RunLock.log_step (Bool.eq_false_iff.mpr other) logged).2.1 moved
  | acquireRunLock i now leaseMinutes =>
    simp only [step] at taken
    repeat' split at taken
    all_goals cases taken
    all_goals exact absurd rfl moved
  | buildWindow i fullRebuild =>
    simp only [step,Option.ite_none_right_eq_some,Option.some.injEq] at taken
    obtain ⟨_,rfl⟩ := taken
    exact absurd rfl moved
  | buildScope i =>
    simp only [step] at taken
    split at taken
    · obtain rfl := Option.some.inj taken
      exact absurd rfl moved
    · cases taken
  | buildFact i =>
    simp only [step,Option.ite_none_right_eq_some,Option.some.injEq] at taken
    obtain ⟨_,rfl⟩ := taken
    rw [progresses_log] at moved ⊢
    unfold advanceFactCursor at moved ⊢
    split at moved
    · next builder w changes rebuilt at_window at_scope =>
      split at moved
      · next own =>
        subst own
        exact ⟨builder,w,rfl,at_window,by simp [cursorTxid]⟩
      · exact absurd rfl moved
    · exact absurd rfl moved
  | finishRun i =>
    obtain rfl := Option.some.inj taken
    exact absurd rfl moved
  | die i =>
    obtain rfl := Option.some.inj taken
    exact absurd rfl moved

end Overlap

/-- Whatever leases are overrun, and however the statements of the invocations interleave, as long as a purge tests a
    partition after the transactions of its day: no committed change-log row is behind the cursor unless a scope that a
    cursor was moved with had read it, and only the invocation of the last window moves the cursor, to that window's end. -/
theorem overlap_never_skips (clock : Instant) (settings : Settings) (partitions : List Date) (trace : List Event) (s : State)
    (run : Run (fun s e t => Calm s e ∧ step s e = some t) (initial clock settings partitions) trace s) :
    NothingLost s.log ∧ ∀ e t, step s e = some t → t.log.cursor ≠ s.log.cursor →
      ∃ i w, e = .buildFact i ∧ LastBuilder trace i ∧ s.intChangeWindow = some (i,w) ∧ cursorTxid t.log = w.horizonTxid := by
  have guarded : Guarded s := by
    refine run.stateInvariant ⟨initial_inv clock settings partitions,rfl,?_,?_⟩
      (fun _ _ _ guarded taken => guarded.step taken.1 taken.2)
    · intro i w at_window
      cases at_window
    · intro i w at_window
      cases at_window
  refine ⟨⟨guarded.log.books.removedSeen,?_⟩,?_⟩
  · intro c at_cursor row member unseen
    by_contra behind
    refine unseen (guarded.log.cursor.2 row member ?_)
    rw [cursorTxid,at_cursor]
    exact Nat.not_le.mp behind
  · intro e t taken moved
    obtain ⟨i,w,own,at_window,ends⟩ := cursor_moves taken moved
    exact ⟨i,w,own,window_of_last rfl (run.imp (fun _ _ _ taken => taken.2)) i w at_window,at_window,ends⟩

/-- The first run outlives its lease: the second takes the lock, and both build the fact table from one window. -/
def overrun : List Event := [
  .acquireRunLock "first" 0 360,.buildWindow "first" false,.log (.tick (361 * minute)),
  .acquireRunLock "second" (361 * minute) 360,.log .start,.log (.insert 1 someEntry),.log (.commit 1),
  .buildWindow "second" false,.buildScope "second",.buildScope "first",.buildFact "first"]

/-- The window of the second names it: the first moved no cursor, and the second moves it to the end of its window. -/
theorem overlap_never_skips_overrun : ∃ s t, Run (fun s e t => Calm s e ∧ step s e = some t) (initial 0 defaults []) overrun s ∧
    s.log.cursor = none ∧ step s (.buildFact "second") = some t ∧ t.log.seen.length = 1 ∧ NothingLost s.log ∧
      ∃ w, LastBuilder overrun "second" ∧ s.intChangeWindow = some ("second",w) ∧ cursorTxid t.log = w.horizonTxid := by
  obtain ⟨s,executed,unmoved,t,taken,seen,moved⟩ : ∃ s, exec (fun s e => if Calm s e then step s e else none)
      (initial 0 defaults []) overrun = some s ∧ s.log.cursor = none ∧ ∃ t, step s (.buildFact "second") = some t ∧
        t.log.seen.length = 1 ∧ t.log.cursor = some ⟨2,361 * minute⟩ := ⟨_,rfl,rfl,_,rfl,rfl,rfl⟩
  have run : Run (fun s e t => Calm s e ∧ step s e = some t) (initial 0 defaults []) overrun s :=
    exec_run (fun s e t taken => by simpa using taken) executed
  obtain ⟨kept,moves⟩ := overlap_never_skips 0 defaults [] overrun s run
  obtain ⟨i,w,built,last,at_window,ends⟩ := moves _ t taken (by rw [moved,unmoved]; exact Option.some_ne_none _)
  obtain rfl := Event.buildFact.inj built
  exact ⟨s,t,run,unmoved,taken,seen,kept,w,last,at_window,ends⟩

end FineractBi.RunLock
