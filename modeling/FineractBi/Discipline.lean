import FineractBi.StateMachine

/-!
What every run of accepted transition requests keeps: the CHECK constraints of
`meta.ingestion_ownership`, the epoch as a fencing token, and the rule that an
owned table changes its engine only by a forced assignment or by a cutover that
follows a passed reconciliation of the current shadow.
-/
namespace FineractBi.Discipline
open Runs FineractBi.StateMachine

/-- The row that `meta.ensure_ownership_rows` inserts. -/
def registered (source table : String) : Ownership :=
  { sourceId := source, tableName := table, engine := .NONE, shadowEngine := none, cutoverState := .STEADY, epoch := 1 }

/-- `request` is accepted in `o` and leads to `o'`. -/
def Accepts (o : Ownership) (request : TransitionRequest) (o' : Ownership) : Prop :=
  ∃ effects, transition o request = .ok ⟨o,o',effects⟩

theorem Accepts.moves {o o' : Ownership} {request : TransitionRequest} (accepted : Accepts o request o') :
    ∃ effects, Moves o request o' effects := by
  obtain ⟨effects,accepted⟩ := accepted
  exact ⟨effects,(transition_moves accepted).2⟩

/-- The CHECK constraints on the engine columns of `meta.ingestion_ownership`. -/
def CheckConstraints (o : Ownership) : Prop :=
  o.shadowEngine ≠ some .NONE ∧ o.shadowEngine ≠ some o.engine ∧
    ((o.shadowEngine = none ∧ (o.cutoverState = .STEADY ∨ o.cutoverState = .PAUSED)) ∨
     (o.shadowEngine ≠ none ∧ (o.cutoverState = .SHADOWING ∨ o.cutoverState = .RECONCILING ∨
        o.cutoverState = .CUTOVER_READY ∨ o.cutoverState = .PAUSED)))

/-- The constraints, and no shadow without a production owner. -/
def Consistent (o : Ownership) : Prop :=
  CheckConstraints o ∧ (o.shadowEngine ≠ none → o.engine ≠ .NONE)

private theorem consistent_registered (source table : String) : Consistent (registered source table) := by
  simp [Consistent,CheckConstraints,registered]

/-- A move out of a consistent state ends in one. -/
theorem consistent_moves {o o' : Ownership} {request : TransitionRequest} {effects : List SideEffect}
    (consistent : Consistent o) (move : Moves o request o' effects) : Consistent o' := by
  obtain ⟨⟨named,differs,states⟩,owned⟩ := consistent
  cases move with
  | assign _ _ _ _ unshadowed => simp [Consistent,CheckConstraints,bump,unshadowed]
  | startShadow _ _ engineNamed _ engineOwned other =>
    simp [Consistent,CheckConstraints,bump,engineNamed,other,engineOwned]
  | beginReconciliation _ active =>
    have shadowed : o.shadowEngine ≠ none := by
      rcases states with ⟨_,idle⟩ | ⟨shadowed,_⟩
      · rcases idle with idle | idle <;> simp [idle] at active
      · exact shadowed
    exact ⟨⟨named,differs,.inr ⟨shadowed,.inr (.inl rfl)⟩⟩,owned⟩
  | recordPassed _ reconciling _ =>
    have shadowed : o.shadowEngine ≠ none := by
      intro unshadowed
      simp [unshadowed,reconciling] at states
    exact ⟨⟨named,differs,.inr ⟨shadowed,.inr (.inr (.inl rfl))⟩⟩,owned⟩
  | recordFailed _ reconciling _ =>
    have shadowed : o.shadowEngine ≠ none := by
      intro unshadowed
      simp [unshadowed,reconciling] at states
    exact ⟨⟨named,differs,.inr ⟨shadowed,.inl rfl⟩⟩,owned⟩
  | cutover => simp [Consistent,CheckConstraints]
  | abortShadow => simp [Consistent,CheckConstraints,bump]
  | pause =>
    refine ⟨⟨named,differs,?_⟩,owned⟩
    by_cases unshadowed : o.shadowEngine = none
    · exact .inl ⟨unshadowed,.inr rfl⟩
    · exact .inr ⟨unshadowed,.inr (.inr (.inr rfl))⟩
  | resume =>
    refine ⟨⟨named,differs,?_⟩,owned⟩
    cases shadow : o.shadowEngine with
    | none => simp [bump,shadow]
    | some engine => simp [bump,shadow]
  | forceAssign _ _ unshadowed => simp [Consistent,CheckConstraints,bump,unshadowed]

/-- What the check inside `meta.apply_staged_batch` reads besides the epoch:
    two ownerships that agree on it route writers alike. -/
def SameRouting (o o' : Ownership) : Prop :=
  o'.engine = o.engine ∧ o'.shadowEngine = o.shadowEngine ∧
    (o'.cutoverState = .PAUSED ↔ o.cutoverState = .PAUSED)

/-- A move keeps the epoch and the routing, or takes the next epoch. -/
theorem epoch_moves {o o' : Ownership} {request : TransitionRequest} {effects : List SideEffect}
    (move : Moves o request o' effects) :
    (o'.epoch = o.epoch ∧ SameRouting o o') ∨ o'.epoch = o.epoch + 1 := by
  cases move with
  | beginReconciliation _ active =>
    refine .inl ⟨rfl,rfl,rfl,?_⟩
    rcases active with active | active | active <;> simp [active]
  | recordPassed _ reconciling _ => exact .inl ⟨rfl,rfl,rfl,by simp [reconciling]⟩
  | recordFailed _ reconciling _ => exact .inl ⟨rfl,rfl,rfl,by simp [reconciling]⟩
  | _ => exact .inr rfl

/-- Since the last START_SHADOW, which asked for `engine`, no request of
    `history` ended the shadow. -/
def ShadowedSince (history : List TransitionRequest) (engine : Engine) (starter : Option String) : Prop :=
  ∃ before start since, history = before ++ start :: since ∧
    start.action = .START_SHADOW ∧ start.engine = some engine ∧ starter = some start.actor ∧
    ∀ request ∈ since, request.action ≠ .START_SHADOW ∧ request.action ≠ .ABORT_SHADOW ∧ request.action ≠ .CUTOVER

/-- The last request of `history` recorded a passed reconciliation. -/
def JustReconciled (history : List TransitionRequest) (id : Option Int) : Prop :=
  ∃ before record, history = before ++ [record] ∧ record.action = .RECORD_RECONCILIATION ∧
    record.reconciliationPassed = some true ∧ record.reconciliationId = id

/-- The invariant that ties the state to the history of the run. -/
structure Told (history : List TransitionRequest) (o : Ownership) : Prop where
  consistent : Consistent o
  shadow : ∀ engine, o.shadowEngine = some engine → ShadowedSince history engine o.shadowRequestedBy
  ready : o.cutoverState = .CUTOVER_READY → JustReconciled history o.lastReconciliationId

/-- Requests that neither start nor end a shadow extend its history. -/
theorem ShadowedSince.extend {history : List TransitionRequest} {engine : Engine} {starter : Option String}
    {request : TransitionRequest} (since : ShadowedSince history engine starter)
    (other : request.action ≠ .START_SHADOW ∧ request.action ≠ .ABORT_SHADOW ∧ request.action ≠ .CUTOVER) :
    ShadowedSince (history ++ [request]) engine starter := by
  obtain ⟨before,start,rest,rfl,started,asked,actor,kept⟩ := since
  refine ⟨before,start,rest ++ [request],by simp,started,asked,actor,?_⟩
  intro r member
  rcases List.mem_append.mp member with earlier | last
  · exact kept r earlier
  · rw [List.mem_singleton.mp last]; exact other

private theorem told_moves {history : List TransitionRequest} {o o' : Ownership} {request : TransitionRequest}
    {effects : List SideEffect} (told : Told history o) (move : Moves o request o' effects) :
    Told (history ++ [request]) o' := by
  refine ⟨consistent_moves told.consistent move,?_,?_⟩
  · intro engine shadowed
    cases move with
    | assign _ _ _ _ unshadowed => simp [bump,unshadowed] at shadowed
    | startShadow action asked =>
      obtain rfl : _ = engine := Option.some.inj shadowed
      exact ⟨history,request,[],rfl,action,asked,rfl,by simp⟩
    | beginReconciliation action _ => exact (told.shadow engine shadowed).extend (by simp [action])
    | recordPassed action _ _ => exact (told.shadow engine shadowed).extend (by simp [action])
    | recordFailed action _ _ => exact (told.shadow engine shadowed).extend (by simp [action])
    | cutover => simp at shadowed
    | abortShadow => simp at shadowed
    | pause action _ => exact (told.shadow engine shadowed).extend (by simp [action])
    | resume action _ => exact (told.shadow engine shadowed).extend (by simp [action])
    | forceAssign _ _ unshadowed => simp [bump,unshadowed] at shadowed
  · intro ready
    -- CUTOVER_READY is entered by a passed record alone, and every other move leaves it.
    cases move with
    | recordPassed action _ passed => exact ⟨history,request,rfl,action,passed,rfl⟩
    | resume => cases shadow : o.shadowEngine <;> simp [shadow] at ready
    | _ => simp at ready

private theorem told_run {source table : String} {history : List TransitionRequest} {o : Ownership}
    (run : Run Accepts (registered source table) history o) : Told history o := by
  refine run.invariant (I := Told) ⟨consistent_registered source table,by simp [registered],by simp [registered]⟩ ?_
  intro history o request o' told accepted
  obtain ⟨effects,move⟩ := accepted.moves
  exact told_moves told move

/-- A forced assignment: no shadow, and an approver who is not the actor. -/
def Forced (o : Ownership) (request : TransitionRequest) : Prop :=
  request.action = .FORCE_ASSIGN ∧ o.shadowEngine = none ∧
    ∃ approver, request.approvedBy = some approver ∧ approver ≠ "" ∧ approver ≠ request.actor

/-- A cutover to the shadow engine, right after a passed reconciliation that was
    recorded while this shadow, started by `start`, was running. -/
def ReconciledCutover (history : List TransitionRequest) (o : Ownership) (request : TransitionRequest)
    (o' : Ownership) : Prop :=
  request.action = .CUTOVER ∧ o.shadowEngine = some o'.engine ∧
    ∃ before start since record, history = before ++ start :: since ++ [record] ∧
      start.action = .START_SHADOW ∧ start.engine = some o'.engine ∧ o.shadowRequestedBy = some start.actor ∧
      (∀ r ∈ since, r.action ≠ .START_SHADOW ∧ r.action ≠ .ABORT_SHADOW ∧ r.action ≠ .CUTOVER) ∧
      record.action = .RECORD_RECONCILIATION ∧ record.reconciliationPassed = some true ∧
      record.reconciliationId = o.lastReconciliationId

private theorem truthy_some {text : Option String} (present : truthy text = true) : ∃ t, text = some t ∧ t ≠ "" := by
  cases text with
  | none => simp [truthy] at present
  | some t => exact ⟨t,rfl,by simpa [truthy] using present⟩

/-- The record that made the state CUTOVER_READY lies inside the current shadow. -/
theorem reconciled_since {history : List TransitionRequest} {engine : Engine} {starter : Option String}
    {id : Option Int} (since : ShadowedSince history engine starter) (just : JustReconciled history id) :
    ∃ before start rest record, history = before ++ start :: rest ++ [record] ∧
      start.action = .START_SHADOW ∧ start.engine = some engine ∧ starter = some start.actor ∧
      (∀ r ∈ rest, r.action ≠ .START_SHADOW ∧ r.action ≠ .ABORT_SHADOW ∧ r.action ≠ .CUTOVER) ∧
      record.action = .RECORD_RECONCILIATION ∧ record.reconciliationPassed = some true ∧
      record.reconciliationId = id := by
  obtain ⟨before,start,rest,shape,started,asked,actor,kept⟩ := since
  obtain ⟨_,record,last,recorded,passed,same⟩ := just
  rcases List.eq_nil_or_concat rest with empty | ⟨rest,final,rfl⟩
  · -- The START_SHADOW would be the record itself.
    rw [last,empty] at shape
    have : record = start := (List.append_inj' shape rfl).2 |> List.singleton_inj.mp
    rw [this,started] at recorded
    cases recorded
  · rw [List.concat_eq_append] at shape kept
    have shape' : history = (before ++ start :: rest) ++ [final] := by simp [shape]
    have : record = final := List.singleton_inj.mp (List.append_inj' (last.symm.trans shape') rfl).2
    subst this
    exact ⟨before,start,rest,record,shape',started,asked,actor,
      fun r member => kept r (List.mem_append_left _ member),recorded,passed,same⟩

/-- Every state reached by accepted requests satisfies the constraints of the
    table, and every further accepted request under dual control keeps the
    epoch discipline and replaces an owner only by force or after a passed
    reconciliation of the current shadow. -/
theorem ownership_discipline (source table : String) (history : List TransitionRequest) (o : Ownership)
    (run : Run Accepts (registered source table) history o) :
    Consistent o ∧ ∀ request o', Accepts o request o' → request.requireDualControl = true →
      Consistent o' ∧ o.epoch ≤ o'.epoch ∧ (¬ SameRouting o o' → o'.epoch = o.epoch + 1) ∧
      (o.engine ≠ .NONE → o'.engine ≠ o.engine → Forced o request ∨ ReconciledCutover history o request o') := by
  have told := told_run run
  refine ⟨told.consistent,?_⟩
  intro request o' accepted dualNow
  obtain ⟨effects,move⟩ := accepted.moves
  refine ⟨consistent_moves told.consistent move,?_,?_,?_⟩
  · rcases epoch_moves move with ⟨same,_⟩ | next <;> omega
  · intro rerouted
    rcases epoch_moves move with ⟨_,same⟩ | next
    · exact absurd same rerouted
    · exact next
  · intro owned changed
    cases move with
    | assign _ _ _ unowned => exact absurd unowned owned
    | cutover action ready shadowed =>
      have since := told.shadow _ shadowed
      exact .inr ⟨action,shadowed,reconciled_since since (told.ready ready)⟩
    | forceAssign action _ unshadowed approver approved =>
      obtain ⟨name,named,filled⟩ := truthy_some approver
      refine .inl ⟨action,unshadowed,name,named,filled,?_⟩
      rintro rfl
      exact approved dualNow named
    | _ => exact absurd rfl changed

/-- Assign PYTHON, shadow it with KAFKA and reconcile: the requests before a cutover. -/
def migration : List TransitionRequest :=
  [{ action := .ASSIGN, actor := "alice", reason := "first owner", engine := some .PYTHON },
   { action := .START_SHADOW, actor := "alice", reason := "migrate", engine := some .KAFKA },
   { action := .BEGIN_RECONCILIATION, actor := "alice", reason := "migrate" },
   { action := .RECORD_RECONCILIATION, actor := "alice", reason := "migrate", reconciliationPassed := some true,
     reconciliationId := some 41 }]

/-- The state in which the cutover of the migration is requested. -/
def migrated : Ownership :=
  { sourceId := "branch-001", tableName := "m_loan", engine := .PYTHON, shadowEngine := some .KAFKA,
    cutoverState := .CUTOVER_READY, epoch := 3, lastReconciliationId := some 41, shadowRequestedBy := some "alice" }

private theorem migration_run : Run Accepts (registered "branch-001" "m_loan") migration migrated :=
  .extend (.extend (.extend (.extend .start ⟨[],rfl⟩) ⟨[.CLEAR_SHADOW],rfl⟩) ⟨[],rfl⟩) ⟨[],rfl⟩

/-- The request that ends the migration, and the state it leads to. -/
def cutoverRequest : TransitionRequest :=
  { action := .CUTOVER, actor := "alice", reason := "go", approvedBy := some "bob", reconciliationValid := some true }
def cutOver : Ownership :=
  { migrated with engine := .KAFKA, shadowEngine := none, cutoverState := .STEADY, epoch := 4, shadowRequestedBy := none }

/-- The discipline at the cutover of a whole migration. -/
theorem ownership_discipline_migration :
    Accepts migrated cutoverRequest cutOver ∧ ReconciledCutover migration migrated cutoverRequest cutOver := by
  have accepted : Accepts migrated cutoverRequest cutOver := ⟨[.PROMOTE_SHADOW],rfl⟩
  have discipline := (ownership_discipline "branch-001" "m_loan" migration migrated migration_run).2
    cutoverRequest cutOver accepted rfl
  have owned : Forced migrated cutoverRequest ∨ ReconciledCutover migration migrated cutoverRequest cutOver :=
    discipline.2.2.2 (by decide) (by decide)
  exact ⟨accepted,owned.resolve_left (fun forced => by simp [Forced,cutoverRequest] at forced)⟩

end FineractBi.Discipline
