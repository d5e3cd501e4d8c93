import Mathlib.Algebra.Order.Group.Int
import FineractBi.Lib.Numeral
import FineractBi.Lib.Runs
import FineractBi.Registry

/-!
The capture generations of a source over its registrations. `retire_source`
works in three transactions: it reads the registry row, writes the generation
floor and unassigns the source, and deletes the row. Between them the
generation may be bumped, and a new registration may not read the floor.
-/
namespace FineractBi.Generations
open Runs FineractBi.Registry

def lifecyclePath : Lifecycle → List Lifecycle
  | .RETIRED => []
  | .REQUESTED | .VALIDATING | .RETIRING => [.RETIRED]
  | _ => [.RETIRING,.RETIRED]

/-- The registry part of the purge transaction, from what the first transaction read. -/
def purge (db : Tables) (source : String) : Option SourceRecord → Except RegistryError Tables
  | none => pure db
  | some existing =>
      (lifecyclePath existing.lifecycleState).foldlM (fun db next => setLifecycle db source next)
        (db.raiseFloor source (existing.captureGeneration + 1))

/-- A call of `retire_source` after its first and after its second transaction. -/
inductive Retiring
  | looked (source : String) (existing : Option SourceRecord)
  | purged (source : String) (existing : Option SourceRecord)

/-- `tombstones` holds the generation that a `retire_source` has read of the row that it left as a tombstone. -/
structure State where
  db : Tables
  retires : Nat → Option Retiring
  tombstones : String → Option Int

/-- `bump` is `bump_capture_generation` or a START_SHADOW of KAFKA, `cleanup` the reconciler that deletes
    what row the source of a tombstone has by then, `finish` the end of a `retire_source` that leaves the row. -/
inductive Op
  | create (r : SourceRecord)
  | upsert (records : List SourceRecord) (allowConnectionChange : Bool)
  | bump (source : String)
  | setLifecycle (source : String) (new : Lifecycle)
  | look (id : Nat) (source : String)
  | purge (id : Nat)
  | forget (id : Nat)
  | tombstone (id : Nat)
  | finish (id : Nat)
  | cleanup (source : String)

def State.setRetire (s : State) (id : Nat) (r : Option Retiring) : State :=
  { s with retires := Function.update s.retires id r }

/-- The label that an unfinished forget leaves. -/
def labelTombstone (r : SourceRecord) : SourceRecord :=
  { r with labels := ("forget_after_cleanup",.boolean true) :: r.labels.filter (fun l => l.1 ≠ "forget_after_cleanup") }

section
variable (checkReference : String → String → Except String Unit)

inductive Step : State → Op → State → Prop
  | create {s : State} {r : SourceRecord} {db : Tables} (created : create checkReference s.db r = .ok db) :
      Step s (.create r) { s with db := db }
  | upsert {s : State} {records : List SourceRecord} {allow : Bool} {db : Tables} {n : Nat}
      (upserted : upsert checkReference s.db records allow = .ok (db,n)) :
      Step s (.upsert records allow) { s with db := db }
  | bump {s : State} {source : String} {db : Tables} {generation : Int}
      (bumped : bumpCaptureGeneration s.db source = .ok (db,generation)) : Step s (.bump source) { s with db := db }
  | setLifecycle {s : State} {source : String} {new : Lifecycle} {db : Tables}
      (allowed : setLifecycle s.db source new = .ok db) : Step s (.setLifecycle source new) { s with db := db }
  | look {s : State} {id : Nat} {source : String} (free : s.retires id = none) :
      Step s (.look id source) (s.setRetire id (some (.looked source (s.db.sources source))))
  | purge {s : State} {id : Nat} {source : String} {existing : Option SourceRecord} {db : Tables}
      (looked : s.retires id = some (.looked source existing)) (purged : purge s.db source existing = .ok db) :
      Step s (.purge id) (State.setRetire { s with db := db } id (some (.purged source existing)))
  | forget {s : State} {id : Nat} {source : String} {existing : SourceRecord}
      (purged : s.retires id = some (.purged source (some existing))) :
      Step s (.forget id) (State.setRetire { s with db := s.db.delete source } id none)
  | tombstone {s : State} {id : Nat} {source : String} {existing : SourceRecord}
      (purged : s.retires id = some (.purged source (some existing))) :
      Step s (.tombstone id) (State.setRetire { s with
        db := s.db.modify source labelTombstone
        tombstones := Function.update s.tombstones source (some existing.captureGeneration) } id none)
  | finish {s : State} {id : Nat} : Step s (.finish id) (s.setRetire id none)
  | cleanup {s : State} {source : String} : Step s (.cleanup source) { s with db := s.db.delete source }

end

/-- The row of the source, if there is one, has a generation below the floor. -/
def BelowFloor (db : Tables) (source : String) : Prop :=
  ∀ r, db.sources source = some r → ∃ floor, db.floors source = some floor ∧ r.captureGeneration < floor

/-- A new row does not start below the floor, and a row is deleted only when the floor is
    above its generation. -/
def RespectsFloor (source : String) (s : State) : Op → Prop
  | .create r => r.sourceId = source → (s.db.floors source).getD 0 ≤ r.captureGeneration
  | .forget id => ∀ existing, s.retires id = some (.purged source (some existing)) → BelowFloor s.db source
  | .cleanup other => other = source → BelowFloor s.db source
  | _ => True

/-- A new row does not start below the floor, and a row is deleted only with the generation that its `retire_source` read
    in the first transaction: no bump and no registration has come in between. -/
def Undisturbed (source : String) (s : State) : Op → Prop
  | .create r => r.sourceId = source → (s.db.floors source).getD 0 ≤ r.captureGeneration
  | .forget id => ∀ existing, s.retires id = some (.purged source (some existing)) →
      ∀ r, s.db.sources source = some r → r.captureGeneration = existing.captureGeneration
  | .cleanup other => other = source →
      ∀ r, s.db.sources source = some r → s.tombstones source = some r.captureGeneration
  | _ => True

/-- What an operation that deletes nothing may do to the row of a source. `fresh` says which
    rows it may insert. -/
inductive Grows (fresh : SourceRecord → Prop) : Option SourceRecord → Option SourceRecord → Prop
  | absent : Grows fresh none none
  | inserted {r r' : SourceRecord} (new : fresh r) (grown : r.captureGeneration ≤ r'.captureGeneration) :
      Grows fresh none (some r')
  | rewritten {r r' : SourceRecord} (grown : r.captureGeneration ≤ r'.captureGeneration)
      (retired : r.lifecycleState = .RETIRED → r'.lifecycleState = .RETIRED) : Grows fresh (some r) (some r')

theorem Grows.refl (fresh : SourceRecord → Prop) (row : Option SourceRecord) : Grows fresh row row := by
  cases row with
  | none => exact .absent
  | some r => exact .rewritten le_rfl id

theorem Grows.trans {fresh : SourceRecord → Prop} {a b c : Option SourceRecord} (first : Grows fresh a b)
    (second : Grows fresh b c) : Grows fresh a c := by
  cases first with
  | absent => exact second
  | inserted new grown =>
    cases second with
    | rewritten grown' _ => exact .inserted new (grown.trans grown')
  | rewritten grown retired =>
    cases second with
    | rewritten grown' retired' => exact .rewritten (grown.trans grown') (fun was => retired' (retired was))

/-- An operation that deletes no row and leaves the floors. -/
structure Keeps (fresh : String → SourceRecord → Prop) (db db' : Tables) : Prop where
  rows : ∀ source, Grows (fresh source) (db.sources source) (db'.sources source)
  floors : db'.floors = db.floors

section
variable {fresh : String → SourceRecord → Prop}

theorem Keeps.refl (db : Tables) : Keeps fresh db db := ⟨fun _ => .refl _ _,rfl⟩

theorem Keeps.trans {a b c : Tables} (first : Keeps fresh a b) (second : Keeps fresh b c) : Keeps fresh a c :=
  ⟨fun source => (first.rows source).trans (second.rows source),second.floors.trans first.floors⟩

private theorem put_keeps {db : Tables} {r : SourceRecord}
    (grows : Grows (fresh r.sourceId) (db.sources r.sourceId) (some r)) : Keeps fresh db (db.put r) := by
  refine ⟨?_,rfl⟩
  intro source
  by_cases same : source = r.sourceId
  · subst same
    simpa [Tables.put] using grows
  · simpa [Tables.put,Function.update_of_ne same] using Grows.refl _ _

private theorem modify_keeps {db : Tables} {source : String} {f : SourceRecord → SourceRecord}
    (grows : ∀ r, db.sources source = some r → r.captureGeneration ≤ (f r).captureGeneration ∧
      (r.lifecycleState = .RETIRED → (f r).lifecycleState = .RETIRED)) : Keeps fresh db (db.modify source f) := by
  unfold Tables.modify
  split
  · exact .refl db
  · next r found =>
    refine put_keeps ?_
    rw [db.keyed source r found,found]
    exact .rewritten (grows r found).1 (grows r found).2

private theorem setLifecycle_keeps {db db' : Tables} {source : String} {new : Lifecycle}
    (allowed : setLifecycle db source new = .ok db') : Keeps fresh db db' := by
  unfold setLifecycle at allowed
  split at allowed
  · cases allowed
  · next r found =>
    split at allowed
    · obtain rfl := Except.ok.inj allowed
      exact .refl db
    · split at allowed
      · next possible =>
        obtain rfl := Except.ok.inj allowed
        refine modify_keeps ?_
        intro r' found'
        obtain rfl : r = r' := Option.some.inj (found.symm.trans found')
        refine ⟨le_rfl,fun retired => ?_⟩
        simp [retired,lifecycleTransitions] at possible
      · cases allowed

private theorem bump_keeps {db db' : Tables} {source : String} {generation : Int}
    (bumped : bumpCaptureGeneration db source = .ok (db',generation)) : Keeps fresh db db' := by
  unfold bumpCaptureGeneration at bumped
  split at bumped
  · cases bumped
  · obtain ⟨rfl,_⟩ := Prod.mk.inj (Except.ok.inj bumped)
    exact modify_keeps (fun r _ => ⟨by simp,id⟩)

private theorem lifecycles_keeps {path : List Lifecycle} {db db' : Tables} {source : String}
    (allowed : path.foldlM (fun db next => setLifecycle db source next) db = .ok db') : Keeps fresh db db' := by
  induction path generalizing db with
  | nil =>
    obtain rfl := Except.ok.inj allowed
    exact .refl db
  | cons next rest ih =>
    rw [List.foldlM_cons] at allowed
    cases first : setLifecycle db source next with
    | error e => simp [first,bind,Except.bind] at allowed
    | ok between =>
      rw [first] at allowed
      exact (setLifecycle_keeps first).trans (ih allowed)

end

/-- A row that does not start below the floor. -/
def AtFloor (db : Tables) (source : String) (r : SourceRecord) : Prop :=
  (db.floors source).getD 0 ≤ r.captureGeneration

private theorem upsertRow_keeps (db : Tables) (r : SourceRecord) : Keeps (AtFloor db) db (upsertRow db r) := by
  unfold upsertRow
  split
  · next missing =>
    refine put_keeps ?_
    simp only [missing]
    exact .inserted (le_max_right _ _) le_rfl
  · next old found =>
    refine put_keeps ?_
    simp only [found]
    exact .rewritten le_rfl id

private theorem upsertRows_keeps (records : List SourceRecord) (db : Tables) :
    Keeps (AtFloor db) db (records.foldl upsertRow db) := by
  induction records generalizing db with
  | nil => exact .refl db
  | cons r rest ih =>
    have first := upsertRow_keeps db r
    have others := ih (upsertRow db r)
    have same : AtFloor (upsertRow db r) = AtFloor db := by
      funext source r'
      rw [AtFloor,AtFloor,first.floors]
    exact first.trans (same ▸ others)

theorem upsert_ok {checkReference : String → String → Except String Unit} {db db' : Tables}
    {records : List SourceRecord} {allow : Bool} {n : Nat}
    (upserted : upsert checkReference db records allow = .ok (db',n)) : db' = records.foldl upsertRow db := by
  unfold upsert at upserted
  have valid : (records.forM (SourceRecord.validate checkReference) >>= fun _ =>
      pure (records.foldl upsertRow db,records.length)) = Except.ok (db',n) := by
    split at upserted
    · obtain ⟨_,_,rest⟩ := StateMachine.except_bind upserted
      exact rest
    · exact upserted
  obtain ⟨_,_,done⟩ := StateMachine.except_bind valid
  exact (congrArg Prod.fst (Except.ok.inj done)).symm

private theorem create_ok {checkReference : String → String → Except String Unit} {db db' : Tables} {r : SourceRecord}
    (created : create checkReference db r = .ok db') : db.sources r.sourceId = none ∧ db' = db.put r := by
  unfold create at created
  obtain ⟨_,_,rest⟩ := StateMachine.except_bind created
  split at rest
  · next missing => exact ⟨missing,(Except.ok.inj rest).symm⟩
  · cases rest

/-- What a step that respects the floor does to the row and the floor of a source. -/
structure Moves (source : String) (db db' : Tables) : Prop where
  floors : ∀ floor, db.floors source = some floor → ∃ floor', db'.floors source = some floor' ∧ floor ≤ floor'
  rows : Grows (AtFloor db source) (db.sources source) (db'.sources source) ∨
    db'.sources source = none ∧ BelowFloor db source

theorem Keeps.moves {db db' : Tables} (kept : Keeps (AtFloor db) db db') (source : String) : Moves source db db' where
  floors := fun floor there => ⟨floor,by rw [kept.floors,there],le_rfl⟩
  rows := .inl (kept.rows source)

private theorem delete_moves {db : Tables} {source other : String} (below : other = source → BelowFloor db source) :
    Moves source db (db.delete other) where
  floors := fun floor there => ⟨floor,there,le_rfl⟩
  rows := by
    by_cases same : other = source
    · exact .inr ⟨by simp [Tables.delete,same],below same⟩
    · exact .inl (by simpa [Tables.delete,Function.update_of_ne (Ne.symm same)] using Grows.refl _ _)

private theorem purge_moves {db db' : Tables} {source other : String} {existing : Option SourceRecord}
    (purged : purge db other existing = .ok db') : Moves source db db' := by
  cases existing with
  | none =>
    obtain rfl := Except.ok.inj purged
    exact (Keeps.refl db).moves source
  | some r =>
    have kept : Keeps (AtFloor db) _ db' := lifecycles_keeps purged
    refine ⟨?_,.inl (kept.rows source)⟩
    intro floor there
    rw [kept.floors]
    by_cases same : source = other
    · subst same
      exact ⟨_,Function.update_self ..,by simp [there]⟩
    · exact ⟨floor,by simpa [Tables.raiseFloor,Function.update_of_ne same] using there,le_rfl⟩

private theorem row_step {checkReference : String → String → Except String Unit} {s s' : State} {op : Op} {source : String}
    (step : Step checkReference s op s') (respects : RespectsFloor source s op) : Moves source s.db s'.db := by
  cases step with
  | @create r db created =>
    obtain ⟨missing,rfl⟩ := create_ok created
    refine ⟨fun floor there => ⟨floor,there,le_rfl⟩,.inl ?_⟩
    by_cases same : source = r.sourceId
    · subst same
      simpa [Tables.put,missing] using Grows.inserted (respects rfl) le_rfl
    · simpa [Tables.put,Function.update_of_ne same] using Grows.refl _ _
  | upsert upserted =>
    rw [upsert_ok upserted]
    exact (upsertRows_keeps _ _).moves source
  | bump bumped => exact (bump_keeps bumped).moves source
  | setLifecycle allowed => exact (setLifecycle_keeps allowed).moves source
  | look free => exact (Keeps.refl _).moves source
  | purge looked purged => exact purge_moves purged
  | forget purged => exact delete_moves (fun same => respects _ (same ▸ purged))
  | tombstone purged =>
    refine Keeps.moves (modify_keeps ?_) source
    exact fun r _ => ⟨le_rfl,id⟩
  | finish => exact (Keeps.refl _).moves source
  | cleanup => exact delete_moves respects

section
variable (checkReference : String → String → Except String Unit) (source : String)

/-- A step that the source's retirements are not disturbed by. -/
def UndisturbedStep (s : State) (op : Op) (s' : State) : Prop := Undisturbed source s op ∧ Step checkReference s op s'

/-- No `retire_source` is in progress and none has left a tombstone. -/
structure Idle (s : State) : Prop where
  retires : ∀ id, s.retires id = none
  tombstones : ∀ source, s.tombstones source = none

/-- The floor is above a generation. -/
def Floored (db : Tables) (generation : Int) : Prop := ∃ floor, db.floors source = some floor ∧ generation < floor

/-- The floor is above what a `retire_source` has read, once its second transaction is done. -/
structure Raised (s : State) : Prop where
  purged : ∀ id existing, s.retires id = some (.purged source (some existing)) → Floored source s.db existing.captureGeneration
  tombstones : ∀ generation, s.tombstones source = some generation → Floored source s.db generation

variable {checkReference source} {s s' : State} {trace : List Op} {generation : Int}

/-- A row is rewritten, or deleted below the floor. -/
theorem Moves.row {db db' : Tables} (moves : Moves source db db') {r : SourceRecord} (there : db.sources source = some r) :
    (∃ r', db'.sources source = some r' ∧ r.captureGeneration ≤ r'.captureGeneration ∧
      (r.lifecycleState = .RETIRED → r'.lifecycleState = .RETIRED)) ∨
    db'.sources source = none ∧ ∃ floor, db'.floors source = some floor ∧ r.captureGeneration < floor := by
  rcases moves.rows with grows | ⟨gone,below⟩
  · rw [there] at grows
    generalize row : db'.sources source = now at grows
    cases grows with
    | rewritten grown kept => exact .inl ⟨_,rfl,grown,kept⟩
  · obtain ⟨floor,floored,less⟩ := below r there
    obtain ⟨floor',there',grown⟩ := moves.floors floor floored
    exact .inr ⟨gone,floor',there',less.trans_le grown⟩

/-- A row that was not there before is not below the floor. -/
theorem Moves.inserted {db db' : Tables} (moves : Moves source db db') {r : SourceRecord} {floor : Int}
    (missing : db.sources source = none) (floored : db.floors source = some floor)
    (there : db'.sources source = some r) : floor ≤ r.captureGeneration := by
  rcases moves.rows with grows | ⟨gone,-⟩
  · rw [missing,there] at grows
    cases grows with
    | inserted new grown =>
      rw [AtFloor,floored] at new
      exact le_trans new grown
  · rw [gone] at there
    cases there

/-- What follows a row of `generation`: a row of at least that generation, or no row and a floor
    above it. -/
def Reached (source : String) (generation : Int) (db : Tables) : Prop :=
  (db.sources source = none ∧ ∃ floor, db.floors source = some floor ∧ generation < floor) ∨
    ∃ r, db.sources source = some r ∧ generation ≤ r.captureGeneration

private theorem reached_moves {db db' : Tables} (moves : Moves source db db') (reached : Reached source generation db) :
    Reached source generation db' := by
  rcases reached with ⟨missing,floor,there,below⟩ | ⟨r,there,above⟩
  · cases row : db'.sources source with
    | none =>
      obtain ⟨floor',there',grown⟩ := moves.floors floor there
      exact .inl ⟨row,floor',there',below.trans_le grown⟩
    | some r => exact .inr ⟨r,row,below.le.trans (moves.inserted missing there row)⟩
  · rcases moves.row there with ⟨r',there',grown,-⟩ | ⟨gone,floor,floored,less⟩
    · exact .inr ⟨r',there',above.trans grown⟩
    · exact .inl ⟨gone,floor,floored,above.trans_lt less⟩

/-- The floor is above the generation, and so is the row if there is one. -/
def Superseded (source : String) (generation : Int) (db : Tables) : Prop :=
  ∃ floor, db.floors source = some floor ∧ generation < floor ∧
    ∀ r, db.sources source = some r → generation < r.captureGeneration

private theorem superseded_moves {db db' : Tables} (moves : Moves source db db')
    (superseded : Superseded source generation db) : Superseded source generation db' := by
  obtain ⟨floor,there,below,rows⟩ := superseded
  obtain ⟨floor',there',grown⟩ := moves.floors floor there
  refine ⟨floor',there',below.trans_le grown,?_⟩
  intro r' row
  cases before : db.sources source with
  | none => exact below.trans_le (moves.inserted before there row)
  | some r =>
    rcases moves.row before with ⟨r'',there'',grown',-⟩ | ⟨gone,-⟩
    · obtain rfl : r'' = r' := Option.some.inj (there''.symm.trans row)
      exact (rows r before).trans_le grown'
    · rw [gone] at row
      cases row

/-- What follows the retirement of a row of `generation`. -/
def Withdrawn (source : String) (generation : Int) (db : Tables) : Prop :=
  (∃ r, db.sources source = some r ∧ r.lifecycleState = .RETIRED ∧ generation ≤ r.captureGeneration) ∨
    Superseded source generation db

private theorem withdrawn_moves {db db' : Tables} (moves : Moves source db db') (withdrawn : Withdrawn source generation db) :
    Withdrawn source generation db' := by
  rcases withdrawn with ⟨r,there,retired,above⟩ | superseded
  · rcases moves.row there with ⟨r',there',grown,kept⟩ | ⟨gone,floor,floored,less⟩
    · exact .inl ⟨r',there',kept retired,above.trans grown⟩
    · exact .inr ⟨floor,floored,above.trans_lt less,by simp [gone]⟩
  · exact .inr (superseded_moves moves superseded)

theorem Idle.raised (idle : Idle s) : Raised source s where
  purged id existing found := by
    rw [idle.retires id] at found
    cases found
  tombstones generation found := by
    rw [idle.tombstones source] at found
    cases found

theorem Floored.moves {db db' : Tables} (floored : Floored source db generation) (moves : Moves source db db') :
    Floored source db' generation := by
  obtain ⟨floor,there,below⟩ := floored
  obtain ⟨floor',there',grown⟩ := moves.floors floor there
  exact ⟨floor',there',below.trans_le grown⟩

/-- The purge raises the floor above the generation that was read. -/
theorem purge_floored {db db' : Tables} {existing : SourceRecord} (purged : purge db source (some existing) = .ok db') :
    Floored source db' existing.captureGeneration := by
  have kept : Keeps (AtFloor db) (db.raiseFloor source (existing.captureGeneration + 1)) db' := lifecycles_keeps purged
  rw [Floored,kept.floors]
  refine ⟨_,Function.update_self ..,?_⟩
  split
  · exact Int.lt_succ_self _
  · exact (Int.lt_succ_self _).trans_le (le_max_right _ _)

/-- Where the row is what was read, the floor is above it. -/
theorem Raised.respects {op : Op} (raised : Raised source s) (undisturbed : Undisturbed source s op) :
    RespectsFloor source s op := by
  cases op with
  | create r => exact undisturbed
  | forget id =>
    intro existing found r there
    rw [undisturbed existing found r there]
    exact raised.purged id existing found
  | cleanup other => exact fun same r there => raised.tombstones _ (undisturbed same r there)
  | _ => trivial

/-- A transaction of one call leaves the calls of others. -/
theorem Raised.setRetire (raised : Raised source s) (id : Nat) (call : Option Retiring)
    (own : ∀ existing, call = some (.purged source (some existing)) → Floored source s.db existing.captureGeneration) :
    Raised source (s.setRetire id call) where
  purged id' existing found := by
    by_cases same : id' = id
    · subst same
      exact own existing (by simpa [State.setRetire] using found)
    · exact raised.purged id' existing (by simpa [State.setRetire,Function.update_of_ne same] using found)
  tombstones := raised.tombstones

theorem Raised.step {op : Op} (raised : Raised source s) (undisturbed : Undisturbed source s op)
    (step : Step checkReference s op s') : Raised source s' := by
  have moves : Moves source s.db s'.db := row_step step (raised.respects undisturbed)
  have kept : Raised source { s with db := s'.db } :=
    ⟨fun id existing found => (raised.purged id existing found).moves moves,
      fun generation found => (raised.tombstones generation found).moves moves⟩
  cases step with
  | @look id => exact kept.setRetire id _ (fun _ own => by cases own)
  | @purge id other existing db looked purged =>
    refine kept.setRetire id _ (fun read own => ?_)
    cases own
    exact purge_floored purged
  | @forget id => exact kept.setRetire id none (fun _ own => by cases own)
  | @tombstone id other existing purged =>
    have left : Raised source { s with
        db := s.db.modify other labelTombstone
        tombstones := Function.update s.tombstones other (some existing.captureGeneration) } := by
      refine ⟨kept.purged,fun generation found => ?_⟩
      by_cases same : source = other
      · subst same
        simp only [Function.update_self,Option.some.injEq] at found
        exact found ▸ kept.purged id existing purged
      · exact kept.tombstones generation (by simpa [Function.update_of_ne same] using found)
    exact left.setRetire id none (fun _ own => by cases own)
  | @finish id => exact kept.setRetire id none (fun _ own => by cases own)
  | _ => exact kept

/-- What the moves keep, an undisturbed run keeps. -/
theorem kept_run {I : Tables → Prop} (kept : ∀ db db', Moves source db db' → I db → I db')
    (run : Run (UndisturbedStep checkReference source) s trace s') (raised : Raised source s) (holds : I s.db) :
    I s'.db ∧ Raised source s' :=
  run.stateInvariant (I := fun s => I s.db ∧ Raised source s) ⟨holds,raised⟩
    (fun _ _ _ inv step => ⟨kept _ _ (row_step step.2 (inv.2.respects step.1)) inv.1,inv.2.step step.1 step.2⟩)

end

theorem toString_int_injective {g g' : Int} (same : toString g = toString g') : g = g' := by
  have read := Numeral.readInt_toString g
  rw [same,Numeral.readInt_toString] at read
  exact (Option.some.inj read).symm

theorem connectorName_generation {source : String} {g g' : Int}
    (same : connectorName source g = connectorName source g') : g = g' := by
  simp only [connectorName,String.append_right_inj] at same
  exact toString_int_injective same

private theorem slotName_generation {r r' : SourceRecord} (source : r.sourceId = r'.sourceId)
    (same : r.slotName = r'.slotName) :
    r.captureGeneration = r'.captureGeneration := by
  simp only [SourceRecord.slotName,source,String.append_right_inj] at same
  exact toString_int_injective same

/-- Between two moments of an undisturbed run the source was retired, its row gone or left RETIRED: a registration
    after it has a greater generation than any before it, and other names. -/
theorem generation_not_reissued (checkReference : String → String → Except String Unit) (source : String)
    (start a c d : State) (earlier between after : List Op) (r r' : SourceRecord) (idle : Idle start)
    (past : Run (UndisturbedStep checkReference source) start earlier a) (before : a.db.sources source = some r)
    (first : Run (UndisturbedStep checkReference source) a between c)
    (second : Run (UndisturbedStep checkReference source) c after d)
    (retired : ∀ gone, c.db.sources source = some gone → gone.lifecycleState = .RETIRED)
    (later : d.db.sources source = some r')
    (registered : c.db.sources source = none ∨ r'.lifecycleState ≠ .RETIRED) :
    r.captureGeneration < r'.captureGeneration ∧ r.connectorName ≠ r'.connectorName ∧ r.slotName ≠ r'.slotName := by
  obtain ⟨-,raised_a⟩ := kept_run (I := fun _ => True) (fun _ _ _ => id) past idle.raised trivial
  obtain ⟨reached,raised_c⟩ := kept_run (fun _ _ => reached_moves) first raised_a (.inr ⟨r,before,le_rfl⟩)
  have greater : r.captureGeneration < r'.captureGeneration := by
    rcases reached with ⟨missing,floor,floored,below⟩ | ⟨gone,there,above⟩
    · obtain ⟨⟨-,-,-,rows⟩,-⟩ : Superseded source r.captureGeneration d.db ∧ Raised source d :=
        kept_run (fun _ _ => superseded_moves) second raised_c ⟨floor,floored,below,by simp [missing]⟩
      exact rows r' later
    · obtain ⟨withdrawn,-⟩ : Withdrawn source r.captureGeneration d.db ∧ Raised source d :=
        kept_run (fun _ _ => withdrawn_moves) second raised_c (.inl ⟨gone,there,retired gone there,above⟩)
      rcases withdrawn with ⟨r'',there'',still,-⟩ | ⟨-,-,-,rows⟩
      · obtain rfl : r'' = r' := Option.some.inj (there''.symm.trans later)
        simp [there,still] at registered
      · exact rows r' later
  have same : r.sourceId = r'.sourceId := (a.db.keyed source r before).trans (d.db.keyed source r' later).symm
  refine ⟨greater,?_,?_⟩
  · intro names
    rw [SourceRecord.connectorName,SourceRecord.connectorName,same] at names
    exact greater.ne (connectorName_generation names)
  · exact fun names => greater.ne (slotName_generation same names)

def branchRecord (state : Lifecycle) (generation : Int) : SourceRecord :=
  { sourceId := "branch-001", tenantId := "default", lifecycleState := state, captureGeneration := generation }

def emptyTables : Tables := ⟨fun _ => none,fun _ => none,by simp⟩

/-- References that the environment allows; the records below have none. -/
def allowAny (_ _ : String) : Except String Unit := .ok ()

/-- A source that captures with generation 0. -/
def capturing : State := ⟨emptyTables.put (branchRecord .ACTIVE 0),fun _ => none,fun _ => none⟩

def floored : Tables := capturing.db.raiseFloor "branch-001" 1
def retiring : Tables := floored.modify "branch-001" ({ · with lifecycleState := .RETIRING })
def retired : Tables := retiring.modify "branch-001" ({ · with lifecycleState := .RETIRED })

private theorem purge_capturing : purge capturing.db "branch-001" (capturing.db.sources "branch-001") = .ok retired := by
  have first : setLifecycle floored "branch-001" .RETIRING = .ok retiring := rfl
  have second : setLifecycle retiring "branch-001" .RETIRED = .ok retired := rfl
  change (setLifecycle floored "branch-001" .RETIRING >>= fun db => setLifecycle db "branch-001" .RETIRED >>= pure) = _
  rw [first]
  change (setLifecycle retiring "branch-001" .RETIRED >>= pure) = _
  rw [second]
  rfl

/-- The three transactions of `retire_source --forget`. -/
def looked : State := capturing.setRetire 1 (some (.looked "branch-001" (some (branchRecord .ACTIVE 0))))
def purged : State := State.setRetire { looked with db := retired } 1
  (some (.purged "branch-001" (some (branchRecord .ACTIVE 0))))
def forgotten : State := State.setRetire { purged with db := retired.delete "branch-001" } 1 none

private theorem looked_step : Step allowAny capturing (.look 1 "branch-001") looked := .look rfl

private theorem purged_step : Step allowAny looked (.purge 1) purged := by
  have read : looked.retires 1 = some (.looked "branch-001" (some (branchRecord .ACTIVE 0))) := rfl
  exact .purge read purge_capturing

private theorem forgotten_step : Step allowAny purged (.forget 1) forgotten := by
  have read : purged.retires 1 = some (.purged "branch-001" (some (branchRecord .ACTIVE 0))) := rfl
  exact .forget read

private theorem forgotten_run : Run (UndisturbedStep allowAny "branch-001") capturing [.look 1 "branch-001",.purge 1,.forget 1]
    forgotten := by
  -- the row has the generation that the call has read
  have unchanged : Undisturbed "branch-001" purged (.forget 1) := by
    intro existing found r there
    obtain rfl : branchRecord .RETIRED 0 = r := Option.some.inj there
    cases found
    rfl
  exact ((Run.start.extend ⟨trivial,looked_step⟩).extend ⟨trivial,purged_step⟩).extend ⟨unchanged,forgotten_step⟩

/-- The source, onboarded again. -/
def onboarded : State := { forgotten with db := forgotten.db.put (branchRecord .REQUESTED 0) }

/-- The new registration starts at generation 0, below the floor, with the names of the old one. -/
theorem onboarded_name_reissued :
    capturing.db.sources "branch-001" = some (branchRecord .ACTIVE 0) ∧
    Run (Step allowAny) capturing [.look 1 "branch-001",.purge 1,.forget 1] forgotten ∧
    forgotten.db.sources "branch-001" = none ∧
    Run (Step allowAny) forgotten [.create (branchRecord .REQUESTED 0)] onboarded ∧
    onboarded.db.sources "branch-001" = some (branchRecord .REQUESTED 0) ∧
    (branchRecord .ACTIVE 0).connectorName = (branchRecord .REQUESTED 0).connectorName ∧
    (branchRecord .ACTIVE 0).slotName = (branchRecord .REQUESTED 0).slotName := by
  have forget : Run (Step allowAny) capturing [.look 1 "branch-001",.purge 1,.forget 1] forgotten :=
    ((Run.start.extend looked_step).extend purged_step).extend forgotten_step
  exact ⟨rfl,forget,rfl,Run.start.extend (.create rfl),rfl,rfl,rfl⟩

/-- The source, registered again through `upsert`. -/
def upserted : State := { forgotten with db := upsertRow forgotten.db (branchRecord .ACTIVE 0) }

theorem generation_not_reissued_upsert :
    (branchRecord .ACTIVE 0).connectorName ≠ (branchRecord .ACTIVE 1).connectorName := by
  have idle : Idle capturing := ⟨fun _ => rfl,fun _ => rfl⟩
  have upsert : Run (UndisturbedStep allowAny "branch-001") forgotten [.upsert [branchRecord .ACTIVE 0] false] upserted :=
    Run.start.extend ⟨trivial,.upsert (n := 1) rfl⟩
  exact (generation_not_reissued allowAny "branch-001" capturing capturing forgotten upserted _ _ _ (branchRecord .ACTIVE 0)
    (branchRecord .ACTIVE 1) idle .start rfl forgotten_run upsert (fun gone there => by cases there) rfl (.inl rfl)).2.1

end FineractBi.Generations
