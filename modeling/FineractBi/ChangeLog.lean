import Mathlib.Data.List.Sort
import FineractBi.ApplyBatch
import FineractBi.Lib.Runs

/-!
The life of a row of `meta.entity_change_log`: writer transactions insert it,
dbt runs read it between the cursor and the horizon, and `meta.purge_change_log`
removes it. Every statement is a step of its own, so any interleaving is a run.
-/
namespace FineractBi.ChangeLog
open Calendar Runs FineractBi.ApplyBatch

/-- A timestamp in microseconds, and the day it falls on. -/
abbrev Instant := Int
def day : Int := 86400000000
def dayOf (t : Instant) : Date := t / day

/-- A writer transaction in progress. -/
structure Tx where
  txid : Nat
  beganAt : Instant
  deriving DecidableEq, Repr

/-- A row of the log. `changed_at` is NOW(), the begin of its transaction. -/
structure LogRow where
  changeId : Nat
  entry : LogEntry
  changedAt : Instant
  txid : Nat
  deriving DecidableEq, Repr

/-- The row of `fact_loan_snapshot` in `meta.dbt_change_cursor`, the only consumer. -/
structure Cursor where
  lastTxid : Nat
  updatedAt : Instant
  deriving DecidableEq, Repr

/-- `int_change_window`. -/
structure Window where
  lastTxid : Nat
  horizonTxid : Nat
  fullRebuild : Bool
  deriving DecidableEq, Repr

/-- How far the dbt run that holds the run lock has come. `rebuilt` are the rows
    committed when a full rebuild reads the raw tables. -/
inductive RunPhase
  | idle
  | window (w : Window)
  | scope (w : Window) (changes rebuilt : List LogRow)

/-- Where a call of `meta.purge_change_log` stands. -/
inductive PurgePhase
  | begun (staleDays : Int)
  | floored (floor : Nat)
  | looping (floor : Nat) (todo : List Date) (dropped : Nat)
  | dropping (floor : Nat) (partition : Date) (todo : List Date) (dropped : Nat)
  | deleting (floor : Nat)

structure PurgeCall where
  now : Instant
  days : Int
  maxPartitions : Int
  phase : PurgePhase

/-- The settings that retention reads. -/
structure Settings where
  changeLogRetentionDays : Int
  cursorStaleDays : Int
  deriving DecidableEq, Repr

/-- The warehouse as far as the change log is concerned. The last three fields
    record what happened to the rows: `seen` are those that a successful run read. -/
structure State where
  clock : Instant
  settings : Settings
  nextTxid : Nat
  nextChangeId : Nat
  inProgress : List Tx
  log : List LogRow
  partitions : List Date
  cursor : Option Cursor
  run : RunPhase
  purges : Nat → Option PurgeCall
  committed : List LogRow
  seen : List LogRow
  removed : List LogRow

/-- `pg_snapshot_xmin(pg_current_snapshot())`: the smallest txid in progress. -/
def snapshotXmin (s : State) : Nat := (s.inProgress.map (·.txid)).foldr min s.nextTxid

/-- The rows that a statement sees: those of finished transactions. -/
def visible (s : State) : List LogRow := s.log.filter (fun row => !s.inProgress.any (fun tx => tx.txid = row.txid))

/-- The rows of a day partition. A row is in the partition of its day if there is
    one, else in the default partition. -/
def rowsOn (rows : List LogRow) (partition : Date) : List LogRow :=
  rows.filter (fun row => dayOf row.changedAt = partition)

def cursorTxid (s : State) : Nat := (s.cursor.map (·.lastTxid)).getD 0

/-- The `changes` of `int_snapshot_scope`. -/
def changesIn (s : State) (w : Window) : List LogRow :=
  (visible s).filter (fun row => !w.fullRebuild && w.lastTxid ≤ row.txid && row.txid < w.horizonTxid)

inductive Event
  | tick (t : Instant)
  | configure (settings : Settings)
  | start
  | insert (txid : Nat) (entry : LogEntry)
  | commit (txid : Nat)
  | abort (txid : Nat)
  | buildWindow (fullRebuild : Bool)
  | buildScope
  | buildFact
  | failRun
  | ensurePartitions (daysBack daysAhead : Nat)
  | purgeBegin (session : Nat) (retentionDays maxPartitions : Option Int)
  | purgeFloor (session : Nat)
  | purgePartitions (session : Nat)
  | purgeNext (session : Nat)
  | purgeDrop (session : Nat)
  | purgeBusy (session : Nat)
  | purgeDefault (session : Nat)
  | purgeFail (session : Nat)

/-- `meta.ensure_change_log_partitions`. Rows of the default partition move to the
    new partitions; ATTACH fails while a transaction holds rows of such a day there. -/
def ensurePartitions (s : State) (daysBack daysAhead : Nat) : Option State :=
  let back := min daysBack 62
  let ahead := min daysAhead 31
  let days := (List.range (back + ahead + 1)).map (fun i => dayOf s.clock - back + i)
  let missing := days.filter (fun d => d ∉ s.partitions)
  if ∃ row ∈ s.log, (∃ tx ∈ s.inProgress, tx.txid = row.txid) ∧ dayOf row.changedAt ∈ missing then none
  else some { s with partitions := s.partitions ++ missing }

/-- The call, moved to another phase or ended. -/
def setPurge (s : State) (session : Nat) (call : Option PurgeCall) : State :=
  { s with purges := fun i => if i = session then call else s.purges i }

/-- The partition whose rows the next iteration of a purge loop tests. -/
def checked (s : State) (session : Nat) : Option Date :=
  match s.purges session with
  | some ⟨_,_,maxPartitions,.looping _ (p :: _) dropped⟩ =>
    if maxPartitions ≤ dropped ∨ p ∉ s.partitions then none else some p
  | _ => none

/-- One iteration of the loop of `meta.purge_change_log` up to its test. -/
def purgeNext (s : State) (session : Nat) : Option State :=
  match s.purges session with
  | some ⟨now,days,maxPartitions,.looping floor [] _⟩ =>
    some (setPurge s session (some ⟨now,days,maxPartitions,.deleting floor⟩))
  | some ⟨now,days,maxPartitions,.looping floor (p :: todo) dropped⟩ =>
    if maxPartitions ≤ dropped then some (setPurge s session (some ⟨now,days,maxPartitions,.deleting floor⟩))
    else if p ∉ s.partitions then none
    else if (rowsOn (visible s) p).any (fun row => floor ≤ row.txid)
      then some (setPurge s session (some ⟨now,days,maxPartitions,.looping floor todo dropped⟩))
      else some (setPurge s session (some ⟨now,days,maxPartitions,.dropping floor p todo dropped⟩))
  | _ => none

/-- DROP TABLE of a partition, which waits for the transactions with rows in it. -/
def purgeDrop (s : State) (session : Nat) : Option State :=
  match s.purges session with
  | some ⟨now,days,maxPartitions,.dropping floor p todo dropped⟩ =>
    if p ∉ s.partitions ∨ ∃ row ∈ rowsOn s.log p, ∃ tx ∈ s.inProgress, tx.txid = row.txid then none
    else some (setPurge
      { s with
        partitions := s.partitions.filter (fun q => q ≠ p)
        log := s.log.filter (fun row => dayOf row.changedAt ≠ p)
        removed := rowsOn s.log p ++ s.removed }
      session (some ⟨now,days,maxPartitions,.looping floor todo (dropped + 1)⟩))
  | _ => none

/-- What the DELETE on `meta.entity_change_log_default` removes. -/
def expired (s : State) (now : Instant) (days : Int) (floor : Nat) (row : LogRow) : Bool :=
  dayOf row.changedAt ∉ s.partitions && row.changedAt < now - days * day && row.txid < floor &&
    !s.inProgress.any (fun tx => tx.txid = row.txid)

/-- The retention days of a call. -/
def retentionDays (s : State) (argument : Option Int) : Int := max (argument.getD 0) s.settings.changeLogRetentionDays

/-- One step. A purge that fails after a DROP undoes it, which is the failure before it. -/
def step (s : State) : Event → Option State
  | .tick t => if s.clock ≤ t then some { s with clock := t } else none
  | .configure settings => some { s with settings := settings }
  | .start => some { s with inProgress := ⟨s.nextTxid,s.clock⟩ :: s.inProgress, nextTxid := s.nextTxid + 1 }
  | .insert txid entry =>
    (s.inProgress.find? (fun tx => tx.txid = txid)).map (fun tx =>
      { s with log := ⟨s.nextChangeId,entry,tx.beganAt,txid⟩ :: s.log, nextChangeId := s.nextChangeId + 1 })
  | .commit txid =>
    if s.inProgress.any (fun tx => tx.txid = txid) then some
      { s with
        inProgress := s.inProgress.filter (fun tx => tx.txid ≠ txid)
        committed := s.log.filter (fun row => row.txid = txid) ++ s.committed }
    else none
  | .abort txid =>
    if s.inProgress.any (fun tx => tx.txid = txid) then some
      { s with
        inProgress := s.inProgress.filter (fun tx => tx.txid ≠ txid)
        log := s.log.filter (fun row => row.txid ≠ txid) }
    else none
  | .buildWindow fullRebuild =>
    match s.run with
    | .idle => some { s with run := .window ⟨cursorTxid s,snapshotXmin s,fullRebuild⟩ }
    | _ => none
  | .buildScope =>
    match s.run with
    | .window w => some { s with run := .scope w (changesIn s w) (if w.fullRebuild then visible s else []) }
    | _ => none
  | .buildFact =>
    match s.run with
    | .scope w changes rebuilt => some
      { s with run := .idle, cursor := some ⟨w.horizonTxid,s.clock⟩, seen := changes ++ rebuilt ++ s.seen }
    | _ => none
  | .failRun => some { s with run := .idle }
  | .ensurePartitions daysBack daysAhead => ensurePartitions s daysBack daysAhead
  | .purgeBegin session argument maxPartitions =>
    match s.purges session with
    | some _ => none
    | none => (ensurePartitions s 1 7).map (fun s => setPurge s session
        (some ⟨s.clock,retentionDays s argument,max (maxPartitions.getD 1) 1,.begun s.settings.cursorStaleDays⟩))
  | .purgeFloor session =>
    match s.purges session with
    | some ⟨now,days,maxPartitions,.begun staleDays⟩ =>
      match s.cursor.filter (fun c => c.updatedAt > now - staleDays * day) with
      | none => some (setPurge s session none)
      | some c => some (setPurge s session (some ⟨now,days,maxPartitions,.floored c.lastTxid⟩))
    | _ => none
  | .purgePartitions session =>
    match s.purges session with
    | some ⟨now,days,maxPartitions,.floored floor⟩ => some (setPurge s session (some ⟨now,days,maxPartitions,.looping floor
        ((s.partitions.filter (fun p => p + 1 ≤ dayOf (now - days * day))).insertionSort (fun a b => a ≤ b)) 0⟩))
    | _ => none
  | .purgeNext session => purgeNext s session
  | .purgeDrop session => purgeDrop s session
  | .purgeBusy session =>
    match s.purges session with
    | some ⟨now,days,maxPartitions,.dropping floor _ _ _⟩ =>
      some (setPurge s session (some ⟨now,days,maxPartitions,.deleting floor⟩))
    | _ => none
  | .purgeDefault session =>
    match s.purges session with
    | some ⟨now,days,_,.deleting floor⟩ => some (setPurge
        { s with
          log := s.log.filter (fun row => !expired s now days floor row)
          removed := s.log.filter (expired s now days floor) ++ s.removed } session none)
    | _ => none
  | .purgeFail session => some (setPurge s session none)

/-- The part of the state that grows: transactions start with the next txid at
    the present, rows are committed by transactions in progress, and what was
    committed or seen stays so. -/
structure Grows (s t : State) : Prop where
  clock : s.clock ≤ t.clock
  nextTxid : s.nextTxid ≤ t.nextTxid
  inProgress : ∀ tx ∈ t.inProgress, tx ∈ s.inProgress ∨ tx.txid = s.nextTxid ∧ tx.beganAt = s.clock
  committed : ∀ row ∈ s.committed, row ∈ t.committed
  newlyCommitted : ∀ row ∈ t.committed, row ∈ s.committed ∨ ∃ tx ∈ s.inProgress, tx.txid = row.txid
  seen : ∀ row ∈ s.seen, row ∈ t.seen
  log : ∀ row ∈ t.log, row ∈ s.log ∨ ∃ tx ∈ s.inProgress, tx.txid = row.txid ∧ tx.beganAt = row.changedAt

/-- A step that starts and ends no transaction and inserts no row. -/
theorem Grows.of_same {s t : State} (clock : s.clock ≤ t.clock) (nextTxid : t.nextTxid = s.nextTxid)
    (inProgress : t.inProgress = s.inProgress) (committed : t.committed = s.committed)
    (seen : ∀ row ∈ s.seen, row ∈ t.seen) (log : ∀ row ∈ t.log, row ∈ s.log) : Grows s t where
  clock := clock
  nextTxid := nextTxid.ge
  inProgress _ member := .inl (inProgress ▸ member)
  committed _ member := committed.symm ▸ member
  newlyCommitted _ member := .inl (committed ▸ member)
  seen := seen
  log row member := .inl (log row member)

/-- A step that changes nothing of all that. -/
theorem Grows.quiet {s t : State} (same : (t.clock,t.nextTxid,t.inProgress,t.committed,t.seen,t.log) =
    (s.clock,s.nextTxid,s.inProgress,s.committed,s.seen,s.log)) : Grows s t := by
  simp only [Prod.mk.injEq] at same
  obtain ⟨clock,nextTxid,inProgress,committed,seen,log⟩ := same
  exact .of_same clock.ge nextTxid inProgress committed (fun _ member => seen.symm ▸ member)
    (fun _ member => log ▸ member)

private theorem ensurePartitions_eq {s t : State} {daysBack daysAhead : Nat}
    (ensured : ensurePartitions s daysBack daysAhead = some t) : ∃ more, t = { s with partitions := s.partitions ++ more } := by
  simp only [ensurePartitions] at ensured
  split at ensured
  · cases ensured
  · exact ⟨_,(Option.some.inj ensured).symm⟩

theorem step_grows {s t : State} {e : Event} (taken : step s e = some t) : Grows s t := by
  cases e with
  | tick instant =>
    simp only [step,Option.ite_none_right_eq_some,Option.some.injEq] at taken
    obtain ⟨later,rfl⟩ := taken
    exact .of_same later rfl rfl rfl (fun _ => id) (fun _ => id)
  | configure settings =>
    obtain rfl := Option.some.inj taken
    exact .quiet rfl
  | start =>
    obtain rfl := Option.some.inj taken
    refine ⟨le_rfl,Nat.le_succ _,?_,fun _ => id,fun _ => .inl,fun _ => id,fun _ => .inl⟩
    intro tx member
    rcases List.mem_cons.mp member with rfl | old
    · exact .inr ⟨rfl,rfl⟩
    · exact .inl old
  | insert txid entry =>
    simp only [step,Option.map_eq_some_iff] at taken
    obtain ⟨tx,found,rfl⟩ := taken
    refine ⟨le_rfl,le_rfl,fun _ => .inl,fun _ => id,fun _ => .inl,fun _ => id,?_⟩
    intro row member
    rcases List.mem_cons.mp member with rfl | old
    · exact .inr ⟨tx,List.mem_of_find?_eq_some found,by simpa using List.find?_some found,rfl⟩
    · exact .inl old
  | commit txid =>
    simp only [step,Option.ite_none_right_eq_some,Option.some.injEq] at taken
    obtain ⟨known,rfl⟩ := taken
    refine ⟨le_rfl,le_rfl,?_,fun _ => List.mem_append_right _,?_,fun _ => id,fun _ => .inl⟩
    · intro tx member
      exact .inl (List.mem_of_mem_filter member)
    · intro row member
      rcases List.mem_append.mp member with new | old
      · obtain ⟨tx,inside,same⟩ := List.any_eq_true.mp known
        have named := List.of_mem_filter new
        simp only [decide_eq_true_eq] at same named
        exact .inr ⟨tx,inside,same.trans named.symm⟩
      · exact .inl old
  | abort txid =>
    simp only [step,Option.ite_none_right_eq_some,Option.some.injEq] at taken
    obtain ⟨_,rfl⟩ := taken
    refine ⟨le_rfl,le_rfl,?_,fun _ => id,fun _ => .inl,fun _ => id,?_⟩
    · exact fun tx member => .inl (List.mem_of_mem_filter member)
    · exact fun row member => .inl (List.mem_of_mem_filter member)
  | buildWindow fullRebuild =>
    simp only [step] at taken
    split at taken
    · obtain rfl := Option.some.inj taken
      exact .quiet rfl
    · cases taken
  | buildScope =>
    simp only [step] at taken
    split at taken
    · obtain rfl := Option.some.inj taken
      exact .quiet rfl
    · cases taken
  | buildFact =>
    simp only [step] at taken
    split at taken
    · obtain rfl := Option.some.inj taken
      exact .of_same le_rfl rfl rfl rfl (fun _ => List.mem_append_right _) (fun _ => id)
    · cases taken
  | failRun =>
    obtain rfl := Option.some.inj taken
    exact .quiet rfl
  | ensurePartitions daysBack daysAhead =>
    obtain ⟨more,rfl⟩ := ensurePartitions_eq taken
    exact .quiet rfl
  | purgeBegin session argument maxPartitions =>
    simp only [step] at taken
    split at taken
    · cases taken
    · obtain ⟨between,ensured,rfl⟩ := Option.map_eq_some_iff.mp taken
      obtain ⟨more,rfl⟩ := ensurePartitions_eq ensured
      exact .quiet rfl
  | purgeFloor session =>
    simp only [step] at taken
    split at taken
    · split at taken
      · obtain rfl := Option.some.inj taken
        exact .quiet rfl
      · obtain rfl := Option.some.inj taken
        exact .quiet rfl
    · cases taken
  | purgePartitions session =>
    simp only [step] at taken
    split at taken
    · obtain rfl := Option.some.inj taken
      exact .quiet rfl
    · cases taken
  | purgeNext session =>
    simp only [step,purgeNext] at taken
    repeat' split at taken
    all_goals cases taken
    all_goals exact .quiet rfl
  | purgeDrop session =>
    simp only [step,purgeDrop] at taken
    split at taken
    · split at taken
      · cases taken
      · obtain rfl := Option.some.inj taken
        exact .of_same le_rfl rfl rfl rfl (fun _ => id) (fun _ => List.mem_of_mem_filter)
    · cases taken
  | purgeBusy session =>
    simp only [step] at taken
    split at taken
    · obtain rfl := Option.some.inj taken
      exact .quiet rfl
    · cases taken
  | purgeDefault session =>
    simp only [step] at taken
    split at taken
    · obtain rfl := Option.some.inj taken
      exact .of_same le_rfl rfl rfl rfl (fun _ => id) (fun _ => List.mem_of_mem_filter)
    · cases taken
  | purgeFail session =>
    obtain rfl := Option.some.inj taken
    exact .quiet rfl

/-! ### The invariant -/

/-- No transaction below `h` is in progress or still to start. -/
def Behind (s : State) (h : Nat) : Prop := h ≤ s.nextTxid ∧ ∀ tx ∈ s.inProgress, h ≤ tx.txid

/-- Below `h` everything is finished and what was committed was seen. -/
def Covered (s : State) (h : Nat) : Prop := Behind s h ∧ ∀ row ∈ s.committed, row.txid < h → row ∈ s.seen

theorem Behind.grows {s t : State} {h : Nat} (behind : Behind s h) (grows : Grows s t) : Behind t h := by
  refine ⟨le_trans behind.1 grows.nextTxid,?_⟩
  intro tx member
  rcases grows.inProgress tx member with old | ⟨new,_⟩
  · exact behind.2 tx old
  · exact new ▸ behind.1

/-- Rows committed after `h` was passed have later txids. -/
theorem Behind.committed {s t : State} {h : Nat} {row : LogRow} (behind : Behind s h) (grows : Grows s t)
    (member : row ∈ t.committed) (below : row.txid < h) : row ∈ s.committed := by
  rcases grows.newlyCommitted row member with old | ⟨tx,inside,same⟩
  · exact old
  · exact absurd (same ▸ behind.2 tx inside) (Nat.not_le.mpr below)

theorem Covered.grows {s t : State} {h : Nat} (covered : Covered s h) (grows : Grows s t) : Covered t h :=
  ⟨covered.1.grows grows,fun row member below =>
    grows.seen row (covered.2 row (covered.1.committed grows member below) below)⟩

theorem snapshotXmin_behind (s : State) : Behind s (snapshotXmin s) := by
  have bounds : ∀ (txs : List Tx) (next : Nat), (txs.map (·.txid)).foldr min next ≤ next ∧
      ∀ tx ∈ txs, (txs.map (·.txid)).foldr min next ≤ tx.txid := by
    intro txs next
    induction txs with
    | nil => simp
    | cons tx rest ih =>
      simp only [List.map_cons,List.foldr_cons,List.forall_mem_cons]
      exact ⟨le_trans (min_le_right _ _) ih.1,min_le_left _ _,fun other member =>
        le_trans (min_le_right _ _) (ih.2 other member)⟩
  exact bounds s.inProgress s.nextTxid

/-- Where the rows are: in the log, committed or of a transaction in progress,
    and what was removed had been seen. -/
structure Books (s : State) : Prop where
  issued : ∀ tx ∈ s.inProgress, tx.txid < s.nextTxid
  issuedRows : ∀ row ∈ s.committed, row.txid < s.nextTxid
  finished : ∀ row ∈ s.committed, ∀ tx ∈ s.inProgress, tx.txid ≠ row.txid
  accounted : ∀ row ∈ s.log, row ∈ s.committed ∨
    ∃ tx ∈ s.inProgress, tx.txid = row.txid ∧ tx.beganAt = row.changedAt
  kept : ∀ row ∈ s.committed, row ∈ s.log ∨ row ∈ s.removed
  removedSeen : ∀ row ∈ s.removed, row ∈ s.seen

/-- A run in progress will have read everything below its horizon. -/
def RunSafe (s : State) : RunPhase → Prop
  | .idle => True
  | .window w => w.lastTxid = cursorTxid s ∧ Behind s w.horizonTxid
  | .scope w changes rebuilt => Behind s w.horizonTxid ∧
      ∀ row ∈ s.committed, row.txid < w.horizonTxid → row ∈ s.seen ∨ row ∈ changes ++ rebuilt

/-- All rows of the partition are committed below the floor, and no further row can come. -/
def Closed (s : State) (floor : Nat) (p : Date) : Prop :=
  p < dayOf s.clock ∧ (∀ tx ∈ s.inProgress, dayOf tx.beganAt ≠ p) ∧
    ∀ row ∈ s.log, dayOf row.changedAt = p → row ∈ s.committed ∧ row.txid < floor

def PurgeSafe (s : State) : PurgePhase → Prop
  | .begun _ => True
  | .floored floor => Covered s floor
  | .looping floor _ _ => Covered s floor
  | .dropping floor p _ _ => Covered s floor ∧ Closed s floor p
  | .deleting floor => Covered s floor

structure Inv (s : State) : Prop where
  books : Books s
  cursor : Covered s (cursorTxid s)
  run : RunSafe s s.run
  purges : ∀ session call, s.purges session = some call → PurgeSafe s call.phase

private theorem dayOf_mono {a b : Instant} (le : a ≤ b) : dayOf a ≤ dayOf b := Int.ediv_le_ediv (by decide) le

theorem Closed.grows {s t : State} {floor : Nat} {p : Date} (closed : Closed s floor p) (grows : Grows s t) :
    Closed t floor p := by
  obtain ⟨past,none_began,rows⟩ := closed
  refine ⟨lt_of_lt_of_le past (dayOf_mono grows.clock),?_,?_⟩
  · intro tx member
    rcases grows.inProgress tx member with old | ⟨_,new⟩
    · exact none_began tx old
    · exact new ▸ ne_of_gt past
  · intro row member onDay
    rcases grows.log row member with old | ⟨tx,inside,_,began⟩
    · obtain ⟨committed,below⟩ := rows row old onDay
      exact ⟨grows.committed row committed,below⟩
    · exact absurd (began ▸ onDay) (none_began tx inside)

theorem PurgeSafe.grows {s t : State} {phase : PurgePhase} (safe : PurgeSafe s phase) (grows : Grows s t) :
    PurgeSafe t phase := by
  cases phase with
  | begun staleDays => trivial
  | floored floor => exact Covered.grows safe grows
  | looping floor todo dropped => exact Covered.grows safe grows
  | dropping floor p todo dropped => exact ⟨safe.1.grows grows,safe.2.grows grows⟩
  | deleting floor => exact Covered.grows safe grows

theorem RunSafe.grows {s t : State} {phase : RunPhase} (safe : RunSafe s phase) (grows : Grows s t)
    (cursor : cursorTxid t = cursorTxid s) : RunSafe t phase := by
  cases phase with
  | idle => trivial
  | window w => exact ⟨safe.1.trans cursor.symm,safe.2.grows grows⟩
  | scope w changes rebuilt =>
    refine ⟨safe.1.grows grows,?_⟩
    intro row member below
    rcases safe.2 row (safe.1.committed grows member below) below with seen | read
    · exact .inl (grows.seen row seen)
    · exact .inr read

private theorem visible_committed {s : State} (books : Books s) {row : LogRow} (member : row ∈ visible s) :
    row ∈ s.committed := by
  obtain ⟨inLog,finished⟩ := List.mem_filter.mp member
  rcases books.accounted row inLog with committed | ⟨tx,inside,same,_⟩
  · exact committed
  · simp only [Bool.not_eq_true',List.any_eq_false,decide_eq_true_eq] at finished
    exact absurd same (finished tx inside)

private theorem committed_visible {s : State} (books : Books s) {row : LogRow} (committed : row ∈ s.committed)
    (inLog : row ∈ s.log) : row ∈ visible s := by
  refine List.mem_filter.mpr ⟨inLog,?_⟩
  simpa using fun tx inside => books.finished row committed tx inside

/-- A step that leaves the cursor and the run alone keeps the invariant when it
    keeps the books and the purge calls it changes. -/
theorem Inv.advance {s t : State} (inv : Inv s) (grows : Grows s t) (books : Books t) (cursor : t.cursor = s.cursor)
    (run : t.run = s.run) (purges : ∀ session call, t.purges session = some call →
      s.purges session = some call ∨ PurgeSafe t call.phase) : Inv t where
  books := books
  cursor := by
    have same : cursorTxid t = cursorTxid s := by rw [cursorTxid,cursorTxid,cursor]
    exact same ▸ inv.cursor.grows grows
  run := run ▸ inv.run.grows grows (by rw [cursorTxid,cursorTxid,cursor])
  purges session call found := by
    rcases purges session call found with old | safe
    · exact (inv.purges session call old).grows grows
    · exact safe

theorem Books.quiet {s t : State} (books : Books s)
    (same : (t.nextTxid,t.inProgress,t.committed,t.log,t.removed,t.seen) =
      (s.nextTxid,s.inProgress,s.committed,s.log,s.removed,s.seen)) : Books t := by
  simp only [Prod.mk.injEq] at same
  obtain ⟨nextTxid,inProgress,committed,log,removed,seen⟩ := same
  obtain ⟨issued,issuedRows,finished,accounted,kept,removedSeen⟩ := books
  constructor <;> simp only [nextTxid,inProgress,committed,log,removed,seen] <;> assumption

private theorem setPurge_purges {s : State} {session i : Nat} {new : Option PurgeCall} {call : PurgeCall}
    (found : (setPurge s session new).purges i = some call) : s.purges i = some call ∨ new = some call := by
  simp only [setPurge] at found
  split at found
  · exact .inr found
  · exact .inl found

/-- Removing rows that were seen keeps the books. -/
theorem Books.remove {s t : State} (books : Books s) (gone : LogRow → Bool)
    (same : (t.nextTxid,t.inProgress,t.committed,t.seen) = (s.nextTxid,s.inProgress,s.committed,s.seen))
    (log : t.log = s.log.filter (fun row => !gone row)) (removed : t.removed = s.log.filter gone ++ s.removed)
    (read : ∀ row ∈ s.log, gone row = true → row ∈ s.seen) : Books t := by
  simp only [Prod.mk.injEq] at same
  obtain ⟨nextTxid,inProgress,committed,seen⟩ := same
  refine ⟨?_,?_,?_,?_,?_,?_⟩
  · simpa only [nextTxid,inProgress] using books.issued
  · simpa only [nextTxid,committed] using books.issuedRows
  · simpa only [inProgress,committed] using books.finished
  · intro row member
    rw [log] at member
    simpa only [inProgress,committed] using books.accounted row (List.mem_of_mem_filter member)
  · intro row member
    rw [committed] at member
    rw [log,removed]
    rcases books.kept row member with inLog | old
    · by_cases drops : gone row = true
      · exact .inr (List.mem_append_left _ (List.mem_filter.mpr ⟨inLog,drops⟩))
      · exact .inl (List.mem_filter.mpr ⟨inLog,by simpa using drops⟩)
    · exact .inr (List.mem_append_right _ old)
  · intro row member
    rw [removed] at member
    rw [seen]
    rcases List.mem_append.mp member with new | old
    · obtain ⟨inLog,drops⟩ := List.mem_filter.mp new
      exact read row inLog drops
    · exact books.removedSeen row old

/-- When a purge tests a partition, the partition's day is over and no
    transaction that began on it is still in progress. -/
def Calm (s : State) : Event → Prop
  | .purgeNext session => ∀ p ∈ checked s session, p < dayOf s.clock ∧ ∀ tx ∈ s.inProgress, dayOf tx.beganAt ≠ p
  | _ => True

instance (s : State) (e : Event) : Decidable (Calm s e) :=
  match e with
  | .purgeNext session => inferInstanceAs (Decidable (∀ p ∈ checked s session, _))
  | .tick _ | .configure _ | .start | .insert _ _ | .commit _ | .abort _ | .buildWindow _ | .buildScope | .buildFact
  | .failRun | .ensurePartitions _ _ | .purgeBegin _ _ _ | .purgeFloor _ | .purgePartitions _ | .purgeDrop _
  | .purgeBusy _ | .purgeDefault _ | .purgeFail _ => .isTrue trivial

section Steps
variable {s t : State}

theorem inv_start (inv : Inv s) (taken : step s .start = some t) : Inv t := by
  have grows := step_grows taken
  obtain rfl := Option.some.inj taken
  refine inv.advance grows ⟨?_,?_,?_,?_,inv.books.kept,inv.books.removedSeen⟩ rfl rfl (fun _ _ => .inl)
  · intro tx member
    rcases List.mem_cons.mp member with rfl | old
    · exact Nat.lt_succ_self _
    · exact Nat.lt_succ_of_lt (inv.books.issued tx old)
  · exact fun row member => Nat.lt_succ_of_lt (inv.books.issuedRows row member)
  · intro row member tx inside
    rcases List.mem_cons.mp inside with rfl | old
    · exact ne_of_gt (inv.books.issuedRows row member)
    · exact inv.books.finished row member tx old
  · intro row member
    rcases inv.books.accounted row member with committed | ⟨tx,inside,same⟩
    · exact .inl committed
    · exact .inr ⟨tx,List.mem_cons_of_mem _ inside,same⟩

private theorem inv_insert (inv : Inv s) {txid : Nat} {entry : LogEntry} (taken : step s (.insert txid entry) = some t) :
    Inv t := by
  have grows := step_grows taken
  simp only [step,Option.map_eq_some_iff] at taken
  obtain ⟨tx,found,rfl⟩ := taken
  refine inv.advance grows ⟨inv.books.issued,inv.books.issuedRows,inv.books.finished,?_,?_,inv.books.removedSeen⟩
    rfl rfl (fun _ _ => .inl)
  · intro row member
    rcases List.mem_cons.mp member with rfl | old
    · exact .inr ⟨tx,List.mem_of_find?_eq_some found,by simpa using List.find?_some found,rfl⟩
    · exact inv.books.accounted row old
  · intro row member
    rcases inv.books.kept row member with inLog | removed
    · exact .inl (List.mem_cons_of_mem _ inLog)
    · exact .inr removed

private theorem inv_commit (inv : Inv s) {txid : Nat} (taken : step s (.commit txid) = some t) : Inv t := by
  have grows := step_grows taken
  simp only [step,Option.ite_none_right_eq_some,Option.some.injEq] at taken
  obtain ⟨known,rfl⟩ := taken
  obtain ⟨tx,inside,named⟩ := List.any_eq_true.mp known
  simp only [decide_eq_true_eq] at named
  refine inv.advance grows ⟨?_,?_,?_,?_,?_,inv.books.removedSeen⟩ rfl rfl (fun _ _ => .inl)
  · exact fun tx member => inv.books.issued tx (List.mem_of_mem_filter member)
  · intro row member
    rcases List.mem_append.mp member with new | old
    · have same := List.of_mem_filter new
      simp only [decide_eq_true_eq] at same
      rw [same,← named]
      exact inv.books.issued tx inside
    · exact inv.books.issuedRows row old
  · intro row member other left
    obtain ⟨stays,differs⟩ := List.mem_filter.mp left
    simp only [decide_eq_true_eq] at differs
    rcases List.mem_append.mp member with new | old
    · have same := List.of_mem_filter new
      simp only [decide_eq_true_eq] at same
      exact same ▸ differs
    · exact inv.books.finished row old other stays
  · intro row member
    by_cases same : row.txid = txid
    · exact .inl (List.mem_append_left _ (List.mem_filter.mpr ⟨member,by simpa using same⟩))
    · rcases inv.books.accounted row member with committed | ⟨other,stays,equal,began⟩
      · exact .inl (List.mem_append_right _ committed)
      · exact .inr ⟨other,List.mem_filter.mpr ⟨stays,by simpa [equal] using same⟩,equal,began⟩
  · intro row member
    rcases List.mem_append.mp member with new | old
    · exact .inl (List.mem_of_mem_filter new)
    · exact inv.books.kept row old

private theorem inv_abort (inv : Inv s) {txid : Nat} (taken : step s (.abort txid) = some t) : Inv t := by
  have grows := step_grows taken
  simp only [step,Option.ite_none_right_eq_some,Option.some.injEq] at taken
  obtain ⟨known,rfl⟩ := taken
  obtain ⟨tx,inside,named⟩ := List.any_eq_true.mp known
  simp only [decide_eq_true_eq] at named
  refine inv.advance grows ⟨?_,inv.books.issuedRows,?_,?_,?_,inv.books.removedSeen⟩ rfl rfl (fun _ _ => .inl)
  · exact fun tx member => inv.books.issued tx (List.mem_of_mem_filter member)
  · exact fun row member tx left => inv.books.finished row member tx (List.mem_of_mem_filter left)
  · intro row member
    obtain ⟨inLog,differs⟩ := List.mem_filter.mp member
    rcases inv.books.accounted row inLog with committed | ⟨other,stays,equal,began⟩
    · exact .inl committed
    · exact .inr ⟨other,List.mem_filter.mpr ⟨stays,by simpa [equal] using differs⟩,equal,began⟩
  · intro row member
    have other : row.txid ≠ txid := fun same => inv.books.finished row member tx inside (named.trans same.symm)
    rcases inv.books.kept row member with inLog | removed
    · exact .inl (List.mem_filter.mpr ⟨inLog,by simpa using other⟩)
    · exact .inr removed

/-- The window starts at the cursor and ends where transactions are in progress. -/
theorem inv_buildWindow (inv : Inv s) {fullRebuild : Bool} (taken : step s (.buildWindow fullRebuild) = some t) :
    Inv t := by
  have grows := step_grows taken
  simp only [step] at taken
  split at taken
  · obtain rfl := Option.some.inj taken
    exact ⟨inv.books.quiet rfl,inv.cursor.grows grows,⟨rfl,(snapshotXmin_behind s).grows grows⟩,
      fun session call found => (inv.purges session call found).grows grows⟩
  · cases taken

/-- The change set holds what is committed below the horizon and not yet seen. -/
theorem inv_buildScope (inv : Inv s) (taken : step s .buildScope = some t) : Inv t := by
  have grows := step_grows taken
  simp only [step] at taken
  split at taken
  · next w atWindow =>
    have safe := inv.run
    rw [atWindow] at safe
    obtain rfl := Option.some.inj taken
    refine ⟨inv.books.quiet rfl,inv.cursor.grows grows,⟨safe.2.grows grows,?_⟩,
      fun session call found => (inv.purges session call found).grows grows⟩
    intro row member below
    rcases inv.books.kept row member with inLog | removed
    · have sees := committed_visible inv.books member inLog
      by_cases old : row.txid < w.lastTxid
      · exact .inl (inv.cursor.2 row member (safe.1 ▸ old))
      · refine .inr (List.mem_append.mpr ?_)
        cases full : w.fullRebuild with
        | true => exact .inr (by simpa [full] using sees)
        | false => exact .inl (List.mem_filter.mpr ⟨sees,by simp [full,below,Nat.le_of_not_lt old]⟩)
    · exact .inl (inv.books.removedSeen row removed)
  · cases taken

/-- The cursor moves to the horizon together with the fact. -/
theorem inv_buildFact (inv : Inv s) (taken : step s .buildFact = some t) : Inv t := by
  have grows := step_grows taken
  simp only [step] at taken
  split at taken
  · next w changes rebuilt atScope =>
    have safe := inv.run
    rw [atScope] at safe
    obtain rfl := Option.some.inj taken
    refine ⟨⟨inv.books.issued,inv.books.issuedRows,inv.books.finished,inv.books.accounted,inv.books.kept,?_⟩,
      ⟨safe.1.grows grows,?_⟩,trivial,fun session call found => (inv.purges session call found).grows grows⟩
    · exact fun row removed => List.mem_append_right _ (inv.books.removedSeen row removed)
    · intro row member below
      rcases safe.2 row member below with seen | read
      · exact List.mem_append_right _ seen
      · exact List.mem_append_left _ read
  · cases taken

private theorem inv_failRun (inv : Inv s) (taken : step s .failRun = some t) : Inv t := by
  have grows := step_grows taken
  obtain rfl := Option.some.inj taken
  exact ⟨inv.books.quiet rfl,inv.cursor.grows grows,trivial,
    fun session call found => (inv.purges session call found).grows grows⟩

/-- Moving a purge call to a safe phase keeps the invariant. -/
theorem Inv.setPurge (inv : Inv s) {session : Nat} {new : Option PurgeCall}
    (safe : ∀ call, new = some call → PurgeSafe s call.phase) : Inv (setPurge s session new) := by
  have grows : Grows s (ChangeLog.setPurge s session new) := .quiet rfl
  refine inv.advance grows (inv.books.quiet rfl) rfl rfl ?_
  intro i call found
  rcases setPurge_purges found with old | moved
  · exact .inl old
  · exact .inr ((safe call moved).grows grows)

private theorem inv_ensurePartitions (inv : Inv s) {daysBack daysAhead : Nat}
    (ensured : ensurePartitions s daysBack daysAhead = some t) : Inv t := by
  obtain ⟨more,rfl⟩ := ensurePartitions_eq ensured
  exact inv.advance (.quiet rfl) (inv.books.quiet rfl) rfl rfl (fun _ _ => .inl)

private theorem inv_purgeBegin (inv : Inv s) {session : Nat} {argument maxPartitions : Option Int}
    (taken : step s (.purgeBegin session argument maxPartitions) = some t) : Inv t := by
  simp only [step] at taken
  split at taken
  · cases taken
  · obtain ⟨between,ensured,rfl⟩ := Option.map_eq_some_iff.mp taken
    refine (inv_ensurePartitions inv ensured).setPurge ?_
    rintro _ ⟨⟩
    trivial

/-- The floor of a purge is the cursor it reads. -/
theorem inv_purgeFloor (inv : Inv s) {session : Nat} (taken : step s (.purgeFloor session) = some t) : Inv t := by
  simp only [step] at taken
  split at taken
  · split at taken
    · obtain rfl := Option.some.inj taken
      exact inv.setPurge (by simp)
    · next c fresh =>
      obtain rfl := Option.some.inj taken
      have atCursor : cursorTxid s = c.lastTxid := by
        rw [cursorTxid,(Option.filter_eq_some_iff.mp fresh).1]
        rfl
      refine inv.setPurge ?_
      rintro _ ⟨⟩
      exact atCursor ▸ inv.cursor
  · cases taken

/-- A calm test that finds nothing pending closes the partition. -/
theorem closed_of_calm (inv : Inv s) {floor : Nat} {p : Date}
    (calm : p < dayOf s.clock ∧ ∀ tx ∈ s.inProgress, dayOf tx.beganAt ≠ p)
    (consumed : ¬ (rowsOn (visible s) p).any (fun row => floor ≤ row.txid) = true) : Closed s floor p := by
  refine ⟨calm.1,calm.2,?_⟩
  intro row member onDay
  have committed : row ∈ s.committed := by
    rcases inv.books.accounted row member with committed | ⟨tx,inside,_,began⟩
    · exact committed
    · exact absurd (began ▸ onDay) (calm.2 tx inside)
  have sees := committed_visible inv.books committed member
  have below : ∀ row ∈ rowsOn (visible s) p, row.txid < floor := by simpa using consumed
  exact ⟨committed,below row (List.mem_filter.mpr ⟨sees,by simpa using onDay⟩)⟩

private theorem inv_purgeNext (inv : Inv s) {session : Nat} (calm : Calm s (.purgeNext session))
    (taken : step s (.purgeNext session) = some t) : Inv t := by
  simp only [step,purgeNext] at taken
  split at taken
  · next atCall =>
    obtain rfl := Option.some.inj taken
    have safe := inv.purges session _ atCall
    refine inv.setPurge ?_
    rintro _ ⟨⟩
    exact safe
  · next p _ _ atCall =>
    have safe := inv.purges session _ atCall
    split at taken
    · obtain rfl := Option.some.inj taken
      refine inv.setPurge ?_
      rintro _ ⟨⟩
      exact safe
    · next more =>
      split at taken
      · cases taken
      · next attached =>
        split at taken
        · obtain rfl := Option.some.inj taken
          refine inv.setPurge ?_
          rintro _ ⟨⟩
          exact safe
        · next consumed =>
          obtain rfl := Option.some.inj taken
          have quiet := calm p (by simp [checked,atCall,more,attached])
          refine inv.setPurge ?_
          rintro _ ⟨⟩
          exact ⟨safe,closed_of_calm inv quiet consumed⟩
  · cases taken

private theorem inv_purgeDrop (inv : Inv s) {session : Nat} (taken : step s (.purgeDrop session) = some t) : Inv t := by
  simp only [step,purgeDrop] at taken
  split at taken
  · next floor p todo dropped atCall =>
    obtain ⟨covered,closed⟩ := inv.purges session _ atCall
    split at taken
    · cases taken
    · obtain rfl := Option.some.inj taken
      refine Inv.setPurge ?_ ?_
      · have grows : Grows s { s with
            partitions := s.partitions.filter (fun q => q ≠ p)
            log := s.log.filter (fun row => dayOf row.changedAt ≠ p)
            removed := rowsOn s.log p ++ s.removed } :=
          .of_same le_rfl rfl rfl rfl (fun _ => id) (fun _ => List.mem_of_mem_filter)
        refine inv.advance grows (inv.books.remove (fun row => dayOf row.changedAt = p) rfl (by simp) rfl ?_)
          rfl rfl (fun _ _ => .inl)
        intro row member onDay
        obtain ⟨committed,below⟩ := closed.2.2 row member (by simpa using onDay)
        exact covered.2 row committed below
      · rintro _ ⟨⟩
        exact ⟨covered.1,covered.2⟩
  · cases taken

private theorem inv_purgeDefault (inv : Inv s) {session : Nat} (taken : step s (.purgeDefault session) = some t) : Inv t := by
  simp only [step] at taken
  split at taken
  · next now days _ floor atCall =>
    have covered : Covered s floor := inv.purges session _ atCall
    obtain rfl := Option.some.inj taken
    refine Inv.setPurge ?_ (by simp)
    have grows : Grows s { s with
        log := s.log.filter (fun row => !expired s now days floor row)
        removed := s.log.filter (expired s now days floor) ++ s.removed } :=
      .of_same le_rfl rfl rfl rfl (fun _ => id) (fun _ => List.mem_of_mem_filter)
    refine inv.advance grows (inv.books.remove (expired s now days floor) rfl rfl rfl ?_)
      rfl rfl (fun _ _ => .inl)
    intro row member gone
    simp only [expired,Bool.and_eq_true,decide_eq_true_eq] at gone
    have sees : row ∈ visible s := List.mem_filter.mpr ⟨member,gone.2⟩
    exact covered.2 row (visible_committed inv.books sees) gone.1.2
  · cases taken

/-- Every calm step keeps the invariant. -/
theorem step_inv (inv : Inv s) {e : Event} (calm : Calm s e) (taken : step s e = some t) : Inv t := by
  cases e with
  | tick instant =>
    have grows := step_grows taken
    simp only [step,Option.ite_none_right_eq_some,Option.some.injEq] at taken
    obtain ⟨_,rfl⟩ := taken
    exact inv.advance grows (inv.books.quiet rfl) rfl rfl (fun _ _ => .inl)
  | configure settings =>
    have grows := step_grows taken
    obtain rfl := Option.some.inj taken
    exact inv.advance grows (inv.books.quiet rfl) rfl rfl (fun _ _ => .inl)
  | start => exact inv_start inv taken
  | insert txid entry => exact inv_insert inv taken
  | commit txid => exact inv_commit inv taken
  | abort txid => exact inv_abort inv taken
  | buildWindow fullRebuild => exact inv_buildWindow inv taken
  | buildScope => exact inv_buildScope inv taken
  | buildFact => exact inv_buildFact inv taken
  | failRun => exact inv_failRun inv taken
  | ensurePartitions daysBack daysAhead => exact inv_ensurePartitions inv taken
  | purgeBegin session argument maxPartitions => exact inv_purgeBegin inv taken
  | purgeFloor session => exact inv_purgeFloor inv taken
  | purgePartitions session =>
    simp only [step] at taken
    split at taken
    · next atCall =>
      have covered : Covered s _ := inv.purges session _ atCall
      obtain rfl := Option.some.inj taken
      refine inv.setPurge ?_
      rintro _ ⟨⟩
      exact covered
    · cases taken
  | purgeNext session => exact inv_purgeNext inv calm taken
  | purgeDrop session => exact inv_purgeDrop inv taken
  | purgeBusy session =>
    simp only [step] at taken
    split at taken
    · next atCall =>
      have safe := inv.purges session _ atCall
      obtain rfl := Option.some.inj taken
      refine inv.setPurge ?_
      rintro _ ⟨⟩
      exact safe.1
    · cases taken
  | purgeDefault session => exact inv_purgeDefault inv taken
  | purgeFail session =>
    obtain rfl := Option.some.inj taken
    exact inv.setPurge (by simp)

end Steps

/-- An empty log, nobody at work. -/
def initial (clock : Instant) (settings : Settings) (partitions : List Date) : State where
  clock := clock
  settings := settings
  nextTxid := 1
  nextChangeId := 1
  inProgress := []
  log := []
  partitions := partitions
  cursor := none
  run := .idle
  purges := fun _ => none
  committed := []
  seen := []
  removed := []

theorem initial_inv (clock : Instant) (settings : Settings) (partitions : List Date) :
    Inv (initial clock settings partitions) where
  books := by constructor <;> simp [initial]
  cursor := by simp [Covered,Behind,initial,cursorTxid]
  run := trivial
  purges := by simp [initial]

/-- What is said of a state: removed rows had been seen, and no committed row
    that was not seen is behind the cursor. -/
def NothingLost (s : State) : Prop :=
  (∀ row ∈ s.removed, row ∈ s.seen) ∧
    ∀ c, s.cursor = some c → ∀ row ∈ s.committed, row ∉ s.seen → c.lastTxid ≤ row.txid

/-- In every run in which each partition is tested after the transactions of its
    day have ended, no change-log row is skipped or dropped unread. -/
theorem change_log_never_lost (clock : Instant) (settings : Settings) (partitions : List Date) (trace : List Event)
    (s : State) (run : Run (fun s e t => Calm s e ∧ step s e = some t) (initial clock settings partitions) trace s) :
    NothingLost s := by
  have inv : Inv s := run.stateInvariant (initial_inv clock settings partitions)
    (fun _ _ _ inv taken => step_inv inv taken.1 taken.2)
  refine ⟨inv.books.removedSeen,?_⟩
  intro c atCursor row member unseen
  by_contra behind
  refine unseen (inv.cursor.2 row member ?_)
  rw [cursorTxid,atCursor]
  exact Nat.not_le.mp behind

/-- The default settings, and an entry of the log. -/
def defaults : Settings := ⟨14,7⟩
def someEntry : LogEntry := ⟨"branch-001","default",.loan,7,0⟩

/-- A row of day 10 is read by a run, and its partition is dropped on day 25. -/
def droppedRead : List Event :=
  [.start,.insert 1 someEntry,.commit 1,.tick (25 * day),.buildWindow false,.buildScope,.buildFact,
    .purgeBegin 0 none none,.purgeFloor 0,.purgePartitions 0,.purgeNext 0,.purgeDrop 0,.purgeNext 0,.purgeDefault 0]

theorem change_log_never_lost_purged :
    ∃ s, Run (fun s e t => Calm s e ∧ step s e = some t) (initial (10 * day) defaults [10]) droppedRead s ∧
      s.removed.length = 1 ∧ NothingLost s := by
  obtain ⟨s,executed,removed⟩ : ∃ s, exec (fun s e => if Calm s e then step s e else none)
      (initial (10 * day) defaults [10]) droppedRead = some s ∧ s.removed.length = 1 := ⟨_,rfl,rfl⟩
  have run : Run (fun s e t => Calm s e ∧ step s e = some t) (initial (10 * day) defaults [10]) droppedRead s :=
    exec_run (fun s e t taken => by simpa using taken) executed
  exact ⟨s,run,removed,change_log_never_lost _ _ _ _ s run⟩

/-- A transaction of day 10 inserts a row and stays in progress. On day 25 a run
    moves the cursor to it, and a purge tests the partition of day 10 and finds
    nothing pending. The transaction commits before the partition is dropped. -/
def droppedUnread : List Event :=
  [.start,.insert 1 someEntry,.tick (25 * day),.buildWindow true,.buildScope,.buildFact,
    .purgeBegin 0 none none,.purgeFloor 0,.purgePartitions 0,.purgeNext 0,.commit 1,.purgeDrop 0]

/-- The committed row is gone and no run has read it. -/
theorem row_dropped_unread :
    ∃ s, exec step (initial (10 * day) defaults [10]) droppedUnread = some s ∧ s.committed.length = 1 ∧
      s.removed = s.committed ∧ s.log = [] ∧ s.seen = [] ∧ ¬ NothingLost s := by
  refine ⟨_,rfl,rfl,rfl,rfl,rfl,?_⟩
  intro nothingLost
  have seen := nothingLost.1 ⟨1,someEntry,10 * day,1⟩ List.mem_cons_self
  cases seen

end FineractBi.ChangeLog
