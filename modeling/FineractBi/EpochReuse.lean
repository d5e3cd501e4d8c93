import FineractBi.Discipline
import FineractBi.FenceSafety

/-!
The life of an ownership row: registered, moved by the control plane, retired,
deleted with its source and registered again. Within one life the epoch only
grows, and it grows with every change of the engines; a new life starts at the
same epoch as the one before it.
-/
namespace FineractBi.EpochReuse
open Runs FineractBi.StateMachine FineractBi.Discipline FineractBi.Routing FineractBi.WriteFence
open FineractBi.FenceSafety (moves_key assignKafka)

/-- The operations on the control tables. `insert` is a registration that finds no row of the
    pair, `register` one that finds it; `registry` is a change of `meta.source_registry`. -/
inductive Op
  | insert (source table : String)
  | register (source table : String)
  | apply (source table : String) (request : TransitionRequest)
  | retire (source : String)
  | forget (source : String)
  | registry
  deriving DecidableEq

/-- What `OwnershipRepository.apply` commits for one table. -/
def applied (db : ControlState) (o : Ownership) (request : TransitionRequest) : ControlState :=
  if request.action = .START_SHADOW ∧ request.engine = some .KAFKA then raiseGeneration (updateOwner db o) o.sourceId
  else updateOwner db o

inductive Step : ControlState → Op → ControlState → Prop
  | insert {db db' : ControlState} {source table : String} (ensured : ensureOwner db source table = some db') :
      Step db (.insert source table) db'
  | register {db : ControlState} {source table : String} {o : Ownership} (present : db.owner source table = some o) :
      Step db (.register source table) db
  | apply {db : ControlState} {source table : String} {request : TransitionRequest} {o o' : Ownership}
      (found : db.owner source table = some o) (accepted : Accepts o request o') :
      Step db (.apply source table request) (applied db o' request)
  | retire {db : ControlState} {source : String} : Step db (.retire source) (retireOwners db source)
  | forget {db : ControlState} {source : String} (guarded : ∀ o ∈ db.ownership, o.sourceId = source → Unowned o) :
      Step db (.forget source) (forgetSource db source)
  | registry {db db' : ControlState} (kept : db'.ownership = db.ownership) : Step db .registry db'

/-- The same engine writes the table and the same engine shadows it. -/
def SameOwner (o o' : Ownership) : Prop := o'.engine = o.engine ∧ o'.shadowEngine = o.shadowEngine

/-- A later state of a row: at the same epoch with the same owner, or at a greater epoch. -/
def Later (o o' : Ownership) : Prop := (o'.epoch = o.epoch ∧ SameOwner o o') ∨ o.epoch < o'.epoch

theorem Later.refl (o : Ownership) : Later o o := .inl ⟨rfl,rfl,rfl⟩

theorem Later.trans {o o' o'' : Ownership} (first : Later o o') (second : Later o' o'') : Later o o'' := by
  rcases first with ⟨same,engine,shadow⟩ | less
  · rcases second with ⟨same',engine',shadow'⟩ | less'
    · exact .inl ⟨same'.trans same,engine'.trans engine,shadow'.trans shadow⟩
    · exact .inr (same ▸ less')
  · rcases second with ⟨same',-⟩ | less'
    · exact .inr (same'.symm ▸ less)
    · exact .inr (less.trans less')

theorem Later.epoch {o o' : Ownership} (later : Later o o') : o.epoch ≤ o'.epoch := by
  rcases later with ⟨same,-⟩ | less
  · exact same.ge
  · exact less.le

private theorem Later.sameOwner {o o' : Ownership} (later : Later o o') (same : o'.epoch = o.epoch) : SameOwner o o' := by
  rcases later with ⟨-,owner⟩ | less
  · exact owner
  · exact absurd same less.ne'

private theorem later_accepts {o o' : Ownership} {request : TransitionRequest} (accepted : Accepts o request o') :
    Later o o' := by
  obtain ⟨effects,move⟩ := accepted.moves
  rcases epoch_moves move with ⟨same,engine,shadow,-⟩ | next
  · exact .inl ⟨same,engine,shadow⟩
  · exact .inr (by omega)

/-- Registering a pair leaves the others as they are. -/
theorem ensureOwner_other {db db' : ControlState} {source table source' table' : String}
    (ensured : ensureOwner db source table = some db') (differs : ¬ (source = source' ∧ table = table')) :
    db'.owner source' table' = db.owner source' table' := by
  unfold ensureOwner at ensured
  split at ensured
  · obtain rfl := Option.some.inj ensured
    simp [ControlState.owner,List.find?_append,registered,differs]
  · cases ensured

private theorem applied_owner (db : ControlState) (o : Ownership) (request : TransitionRequest) (source table : String) :
    (applied db o request).owner source table = (updateOwner db o).owner source table := by
  unfold applied
  split <;> rfl

/-- Every operation but the insertion of its row deletes the row of a pair or leads to a later
    state of it. -/
theorem owner_step {db db' : ControlState} {op : Op} {source table : String} (step : Step db op db')
    (other : op ≠ .insert source table) :
    db'.owner source table = none ∨
      ∃ o o', db.owner source table = some o ∧ db'.owner source table = some o' ∧ Later o o' := by
  -- it is enough that a row of the pair has a later state of it after the step
  have rewritten : ∀ f : Ownership → Ownership, db'.owner source table = (db.owner source table).map f →
      (∀ o, db.owner source table = some o → Later o (f o)) → db'.owner source table = none ∨
      ∃ o o', db.owner source table = some o ∧ db'.owner source table = some o' ∧ Later o o' := by
    intro f now later
    cases owned : db.owner source table with
    | none => exact .inl (by rw [now,owned]; rfl)
    | some o => exact .inr ⟨o,f o,rfl,by rw [now,owned]; rfl,later o owned⟩
  cases step with
  | @insert _ source' table' ensured =>
    have differs : ¬ (source' = source ∧ table' = table) := by
      rintro ⟨rfl,rfl⟩
      exact other rfl
    exact rewritten id (by simpa using ensureOwner_other ensured differs) (fun o _ => .refl o)
  | register present => exact rewritten id (by simp) (fun o _ => .refl o)
  | @apply source' table' request o o' found accepted =>
    refine rewritten _ ((applied_owner ..).trans (mapOwners_owner ..)) ?_
    intro p owned
    split
    · next same =>
      obtain ⟨-,named⟩ := (db.owner_iff source' table' o).mp found
      obtain ⟨-,named'⟩ := (db.owner_iff source table p).mp owned
      obtain ⟨effects,move⟩ := accepted.moves
      have key := moves_key move
      obtain rfl : p = o := by
        rw [← named'.1,← named'.2,same.1,same.2,key.1,key.2,named.1,named.2,found] at owned
        exact (Option.some.inj owned).symm
      exact later_accepts accepted
    · exact .refl p
  | @retire source' =>
    refine rewritten _ (mapOwners_owner ..) ?_
    intro o owned
    split
    · exact .inr (by simp [bump])
    · exact .refl o
  | @forget source' guarded =>
    by_cases gone : source = source'
    · exact .inl (by rw [forgetSource_owner,if_pos gone])
    · exact rewritten id (by simp [forgetSource_owner,gone]) (fun o _ => .refl o)
  | registry kept => exact rewritten id (by simp [ControlState.owner,kept]) (fun o _ => .refl o)

/-- A row that is there has been inserted. -/
theorem inserted_run {db a : ControlState} {trace : List Op} {source table : String}
    (fresh : db.owner source table = none) (run : Run Step db trace a) :
    ∀ o, a.owner source table = some o → Op.insert source table ∈ trace := by
  refine run.invariant (I := fun trace a => ∀ o, a.owner source table = some o → Op.insert source table ∈ trace) ?_ ?_
  · intro o owned
    rw [fresh] at owned
    cases owned
  · intro trace a op b holds step o owned
    by_cases inserts : op = .insert source table
    · simp [inserts]
    · rcases owner_step step inserts with gone | ⟨p,-,before,-⟩
      · rw [gone] at owned
        cases owned
      · exact List.mem_append_left _ (holds p before)

/-- Without an insertion a missing row stays missing. -/
theorem missing_run {a b : ControlState} {trace : List Op} {source table : String}
    (run : Run Step a trace b) (never : Op.insert source table ∉ trace) (missing : a.owner source table = none) :
    b.owner source table = none := by
  cases owned : b.owner source table with
  | none => rfl
  | some o => exact absurd (inserted_run missing run o owned) never

/-- Without an insertion a row is deleted or later. -/
theorem later_run {a b : ControlState} {trace : List Op} {source table : String} {o : Ownership}
    (run : Run Step a trace b) (never : Op.insert source table ∉ trace) (owned : a.owner source table = some o) :
    b.owner source table = none ∨ ∃ o', b.owner source table = some o' ∧ Later o o' := by
  revert never
  refine run.invariant (I := fun trace b => Op.insert source table ∉ trace →
    b.owner source table = none ∨ ∃ o', b.owner source table = some o' ∧ Later o o') ?_ ?_
  · exact fun _ => .inr ⟨o,owned,.refl o⟩
  · intro trace b op c holds step never
    simp only [List.mem_append,List.mem_singleton,not_or] at never
    rcases owner_step step (Ne.symm never.2) with gone | ⟨p,p',before,after,later⟩
    · exact .inl gone
    · rcases holds never.1 with none' | ⟨q,there,reached⟩
      · rw [none'] at before
        cases before
      · obtain rfl : q = p := Option.some.inj (there.symm.trans before)
        exact .inr ⟨p',after,reached.trans later⟩

/-- Three moments of a run whose pair is inserted at most once: a row that carries the epoch of
    the first moment at the last one had the same owner all the time in between; and once the
    owner has changed, or the row is gone, what was staged with the first epoch is fenced. -/
theorem epoch_not_reused (db a c b : ControlState) (source table : String) (trace between after : List Op)
    (o : Ownership) (fresh : db.owner source table = none) (first : Run Step db trace a) (second : Run Step a between c)
    (third : Run Step c after b) (once : (trace ++ between ++ after).count (.insert source table) ≤ 1)
    (owned : a.owner source table = some o) :
    (∀ o', b.owner source table = some o' → o'.epoch = o.epoch →
      SameOwner o o' ∧ ∃ o'', c.owner source table = some o'' ∧ SameOwner o o'') ∧
    ((∀ o'', c.owner source table = some o'' → ¬ SameOwner o o'') → ∀ (engine : Engine) (claims : List StagedClaim),
      (∃ claim ∈ claims, claim.sourceId = source ∧ claim.ownerEpoch = o.epoch) →
      fencingCheck b table engine claims ≠ .ok ()) := by
  have inserted := List.count_pos_iff.mpr (inserted_run fresh first o owned)
  simp only [List.count_append] at once
  have never : Op.insert source table ∉ between := List.count_eq_zero.mp (by omega)
  have never' : Op.insert source table ∉ after := List.count_eq_zero.mp (by omega)
  have kept : ∀ o', b.owner source table = some o' → o'.epoch = o.epoch →
      SameOwner o o' ∧ ∃ o'', c.owner source table = some o'' ∧ SameOwner o o'' := by
    intro o' present same
    rcases later_run second never owned with gone | ⟨o'',there,later⟩
    · rw [missing_run third never' gone] at present
      cases present
    · rcases later_run third never' there with gone | ⟨p,present',later'⟩
      · rw [gone] at present
        cases present
      · obtain rfl : p = o' := Option.some.inj (present'.symm.trans present)
        have low := later.epoch
        have high := later'.epoch
        exact ⟨(later.trans later').sameOwner same,o'',there,later.sameOwner (by omega)⟩
  refine ⟨kept,?_⟩
  rintro changed engine claims ⟨claim,member,rfl,epoch⟩ passed
  have fits := (fencingCheck_ok b table engine claims).mp passed claim member
  cases present : b.owner claim.sourceId table with
  | none => simp [present,fencedBy] at fits
  | some o' =>
    have same : o'.epoch = o.epoch := by
      simp only [present,fencedBy,Bool.or_eq_false_iff,decide_eq_false_iff_not,not_not] at fits
      exact fits.1.1.1.1.trans epoch
    obtain ⟨-,o'',there,owner⟩ := kept o' present same
    exact changed o'' there owner

/-- The operations as the code computes them. -/
def next (db : ControlState) : Op → Option ControlState
  | .insert source table => ensureOwner db source table
  | .register source table => (db.owner source table).map (fun _ => db)
  | .apply source table request => (db.owner source table).bind (fun o =>
      match transition o request with
      | .ok result => some (applied db result.current request)
      | .error _ => none)
  | .retire source => some (retireOwners db source)
  | .forget source =>
      if ∀ o ∈ db.ownership, o.sourceId = source → o.engine = .NONE ∧ o.shadowEngine = none
      then some (forgetSource db source) else none
  | .registry => some db

private theorem next_step (db : ControlState) (op : Op) (db' : ControlState) (taken : next db op = some db') :
    Step db op db' := by
  cases op with
  | insert source table => exact .insert taken
  | register source table =>
    obtain ⟨o,present,rfl⟩ := Option.map_eq_some_iff.mp taken
    exact .register present
  | apply source table request =>
    obtain ⟨o,found,moved⟩ := Option.bind_eq_some_iff.mp taken
    split at moved
    · next result accepted =>
      obtain rfl := Option.some.inj moved
      obtain ⟨rfl,-⟩ := transition_moves accepted
      exact .apply found ⟨_,accepted⟩
    · cases moved
  | retire source =>
    obtain rfl := Option.some.inj taken
    exact .retire
  | forget source =>
    simp only [next] at taken
    split at taken
    · next guarded =>
      obtain rfl := Option.some.inj taken
      exact .forget guarded
    · cases taken
  | registry =>
    obtain rfl := Option.some.inj taken
    exact .registry rfl

/-- A source in the registry with no ownership row. -/
def enrolled : ControlState where
  registry := [⟨"branch-001","default",0⟩]
  ownership := []
  registryKey := pythonOwned.registryKey
  ownershipKey := by decide
  registryText := pythonOwned.registryText
  ownershipText := by decide

def own : List Op := [.insert "branch-001" "m_office",.apply "branch-001" "m_office" assignKafka]

/-- Where the operations lead. -/
def reach (db : ControlState) (trace : List Op) : ControlState := (exec next db trace).getD db

private theorem reach_run {db : ControlState} {trace : List Op} (possible : (exec next db trace).isSome = true) :
    Run Step db trace (reach db trace) := by
  obtain ⟨db',reached⟩ := Option.isSome_iff_exists.mp possible
  rw [reach,reached]
  exact exec_run next_step reached

/-- The row after its registration and the first ASSIGN. -/
def kafkaRow : Ownership := { bump (registered "branch-001" "m_office") with engine := .KAFKA }

def owned : ControlState := reach enrolled own
def forgotten : ControlState := reach owned [.retire "branch-001",.forget "branch-001"]

/-- Owned, retired, forgotten, onboarded, registered and owned again: the row carries the epoch
    of its first life, and what a sink staged then passes the fencing check. -/
theorem forgotten_epoch_reused :
    Run Step enrolled own owned ∧ owned.owner "branch-001" "m_office" = some kafkaRow ∧
    Run Step owned [.retire "branch-001",.forget "branch-001"] forgotten ∧
    forgotten.owner "branch-001" "m_office" = none ∧
    ∃ again, Run Step forgotten (.registry :: own) again ∧ again.owner "branch-001" "m_office" = some kafkaRow ∧
      fencingCheck again "m_office" .KAFKA [⟨"branch-001","prod",kafkaRow.epoch⟩] = .ok () := by
  have life : exec next enrolled own = some owned := by
    obtain ⟨db,reached⟩ := Option.isSome_iff_exists.mp (by decide +kernel : (exec next enrolled own).isSome = true)
    rw [owned,reach,reached]
    rfl
  have onboarded : Run Step forgotten [.registry] enrolled := Run.start.extend (.registry (by decide +kernel))
  have again : Run Step forgotten (.registry :: own) owned := by
    obtain ⟨db,first,second⟩ := Option.bind_eq_some_iff.mp life
    obtain ⟨db',taken,rest⟩ := Option.bind_eq_some_iff.mp second
    obtain rfl := Option.some.inj rest
    exact (onboarded.extend (next_step _ _ _ first)).extend (next_step _ _ _ taken)
  refine ⟨exec_run next_step life,by decide +kernel,reach_run (by decide +kernel),by decide +kernel,owned,again,
    by decide +kernel,?_⟩
  rw [fencingCheck_ok]
  decide +kernel

theorem epoch_not_reused_retired :
    fencingCheck forgotten "m_office" .KAFKA [⟨"branch-001","prod",2⟩] ≠ .ok () := by
  refine (epoch_not_reused enrolled owned forgotten forgotten "branch-001" "m_office" own
    [.retire "branch-001",.forget "branch-001"] [] kafkaRow (by decide +kernel) (reach_run (by decide +kernel))
    (reach_run (by decide +kernel)) .start (by decide +kernel) (by decide +kernel)).2 ?_ .KAFKA _
    ⟨_,List.mem_singleton_self _,rfl,rfl⟩
  intro o present
  have gone : forgotten.owner "branch-001" "m_office" = none := by decide +kernel
  rw [gone] at present
  cases present

end FineractBi.EpochReuse
