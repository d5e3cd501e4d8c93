import FineractBi.Lib.Runs

/-!
The ownership state machine of `controlplane/ownership.py`: who writes a
(source, table) pair, which engine shadows it, and the transitions between
these states. Error texts are the ones the code raises.
-/
namespace FineractBi.StateMachine

inductive Engine
  | PYTHON | KAFKA | NONE
  deriving DecidableEq, Repr

inductive CutoverState
  | STEADY | SHADOWING | RECONCILING | CUTOVER_READY | PAUSED
  deriving DecidableEq, Repr

inductive Action
  | ASSIGN | START_SHADOW | BEGIN_RECONCILIATION | RECORD_RECONCILIATION | CUTOVER
  | ABORT_SHADOW | PAUSE | RESUME | FORCE_ASSIGN
  deriving DecidableEq, Repr

inductive SideEffect
  | CLEAR_SHADOW | PROMOTE_SHADOW
  deriving DecidableEq, Repr

def Engine.value : Engine → String
  | .PYTHON => "PYTHON"
  | .KAFKA => "KAFKA"
  | .NONE => "NONE"

def CutoverState.value : CutoverState → String
  | .STEADY => "STEADY"
  | .SHADOWING => "SHADOWING"
  | .RECONCILING => "RECONCILING"
  | .CUTOVER_READY => "CUTOVER_READY"
  | .PAUSED => "PAUSED"

structure Ownership where
  sourceId : String
  tableName : String
  engine : Engine
  shadowEngine : Option Engine
  cutoverState : CutoverState
  epoch : Int
  lastReconciliationId : Option Int := none
  shadowRequestedBy : Option String := none
  deriving DecidableEq, Repr

structure TransitionRequest where
  action : Action
  actor : String
  reason : String
  engine : Option Engine := none
  approvedBy : Option String := none
  reconciliationPassed : Option Bool := none
  reconciliationId : Option Int := none
  requireDualControl : Bool := true
  reconciliationValid : Option Bool := none
  databaseEnforcedApproval : Bool := false
  deriving DecidableEq, Repr

structure TransitionResult where
  previous : Ownership
  current : Ownership
  sideEffects : List SideEffect := []
  deriving DecidableEq, Repr

/-- The characters that `str.strip` removes. -/
def isSpace (c : Char) : Bool :=
  let n := c.toNat
  (9 ≤ n && n ≤ 13) || (28 ≤ n && n ≤ 32) || n == 133 || n == 160 || n == 5760 ||
    (8192 ≤ n && n ≤ 8202) || n == 8232 || n == 8233 || n == 8239 || n == 8287 || n == 12288

/-- `bool(text and text.strip())`. -/
def notBlank (text : String) : Bool := text.toList.any (fun c => !isSpace c)

/-- `bool(text)` of an optional text: present and not empty. -/
def truthy : Option String → Bool
  | none => false
  | some text => text != ""

/-- How an f-string renders an optional text. -/
def shown : Option String → String
  | none => "None"
  | some text => text

/-- How an f-string renders an optional engine. -/
def shownEngine : Option Engine → String
  | none => "None"
  | some engine => engine.value

/-- `_require`: go on when the condition holds, else raise `TransitionError`. -/
def require (condition : Bool) (message : String) : Except String Unit :=
  if condition then .ok () else .error message

/-- `_bump`: the next epoch. -/
def bump (o : Ownership) : Ownership := { o with epoch := o.epoch + 1 }

/-- `transition`: the next ownership with its side effects, or the reason for
    the refusal. -/
def transition (o : Ownership) (request : TransitionRequest) : Except String TransitionResult := do
  require (notBlank request.actor) "actor is required"
  require (notBlank request.reason) "reason is required"
  let place := o.sourceId ++ "/" ++ o.tableName
  match request.action with
  | .ASSIGN =>
    require (request.engine = some .PYTHON ∨ request.engine = some .KAFKA) "assign needs engine PYTHON or KAFKA"
    require (o.engine = .NONE) (place ++ ": already owned by " ++ o.engine.value ++ "; use start_shadow to migrate")
    require (o.shadowEngine = none) (place ++ ": shadow in progress")
    return ⟨o, { bump o with engine := request.engine.getD .NONE, cutoverState := .STEADY }, []⟩
  | .START_SHADOW =>
    require (request.engine = some .PYTHON ∨ request.engine = some .KAFKA) "start_shadow needs engine PYTHON or KAFKA"
    require (o.cutoverState = .STEADY) (place ++ ": start_shadow requires STEADY, is " ++ o.cutoverState.value)
    require (o.engine ≠ .NONE) (place ++ ": no production owner yet; use assign")
    require (request.engine ≠ some o.engine) (place ++ ": " ++ shownEngine request.engine ++ " already owns production")
    return ⟨o, { bump o with
      shadowEngine := request.engine
      cutoverState := .SHADOWING
      lastReconciliationId := none
      shadowRequestedBy := some request.actor }, [.CLEAR_SHADOW]⟩
  | .BEGIN_RECONCILIATION =>
    require (o.cutoverState = .SHADOWING ∨ o.cutoverState = .RECONCILING ∨ o.cutoverState = .CUTOVER_READY)
      (place ++ ": reconciliation requires an active shadow, state is " ++ o.cutoverState.value)
    return ⟨o, { o with cutoverState := .RECONCILING }, []⟩
  | .RECORD_RECONCILIATION =>
    require (o.cutoverState = .RECONCILING) (place ++ ": not RECONCILING")
    require request.reconciliationPassed.isSome "reconciliation_passed is required"
    return ⟨o, { o with
      cutoverState := if request.reconciliationPassed = some true then .CUTOVER_READY else .SHADOWING
      lastReconciliationId := request.reconciliationId }, []⟩
  | .CUTOVER =>
    require (o.cutoverState = .CUTOVER_READY)
      (place ++ ": cutover requires CUTOVER_READY, is " ++ o.cutoverState.value)
    require o.shadowEngine.isSome (place ++ ": no shadow engine")
    require o.lastReconciliationId.isSome (place ++ ": no passing reconciliation recorded")
    require (request.reconciliationValid = some true)
      (place ++ ": the recorded reconciliation is not a recent PASSED shadow_vs_prod run for this table")
    if request.requireDualControl then
      require (truthy request.approvedBy) (place ++ ": cutover requires approved_by (dual control)")
      if !request.databaseEnforcedApproval then
        require (request.approvedBy ≠ some request.actor) (place ++ ": approver must differ from requester")
        require (request.approvedBy ≠ o.shadowRequestedBy)
          (place ++ ": approver must differ from whoever started the shadow (" ++ shown o.shadowRequestedBy ++ ")")
    return ⟨o, { bump o with
      engine := o.shadowEngine.getD .NONE
      shadowEngine := none
      cutoverState := .STEADY
      shadowRequestedBy := none }, [.PROMOTE_SHADOW]⟩
  | .ABORT_SHADOW =>
    require o.shadowEngine.isSome (place ++ ": no shadow to abort")
    return ⟨o, { bump o with
      shadowEngine := none
      cutoverState := .STEADY
      lastReconciliationId := none
      shadowRequestedBy := none }, [.CLEAR_SHADOW]⟩
  | .PAUSE =>
    require (o.cutoverState ≠ .PAUSED) (place ++ ": already paused")
    return ⟨o, { bump o with cutoverState := .PAUSED }, []⟩
  | .RESUME =>
    require (o.cutoverState = .PAUSED) (place ++ ": not paused")
    return ⟨o, { bump o with cutoverState := if o.shadowEngine.isSome then .SHADOWING else .STEADY }, []⟩
  | .FORCE_ASSIGN =>
    require request.engine.isSome "force_assign needs an engine"
    require (o.shadowEngine = none) (place ++ ": abort the shadow first")
    require (truthy request.approvedBy) (place ++ ": force_assign requires approved_by")
    if request.requireDualControl then
      require (request.approvedBy ≠ some request.actor) (place ++ ": approver must differ from requester")
    return ⟨o, { bump o with engine := request.engine.getD .NONE, cutoverState := .STEADY }, []⟩

/-- The effect of an accepted request, action by action, with its guards. -/
inductive Moves (o : Ownership) (request : TransitionRequest) : Ownership → List SideEffect → Prop
  | assign {engine : Engine} (action : request.action = .ASSIGN) (asked : request.engine = some engine)
      (named : engine ≠ .NONE) (unowned : o.engine = .NONE) (unshadowed : o.shadowEngine = none) :
      Moves o request { bump o with engine := engine, cutoverState := .STEADY } []
  | startShadow {engine : Engine} (action : request.action = .START_SHADOW) (asked : request.engine = some engine)
      (named : engine ≠ .NONE) (steady : o.cutoverState = .STEADY) (owned : o.engine ≠ .NONE)
      (other : engine ≠ o.engine) :
      Moves o request { bump o with
        shadowEngine := some engine
        cutoverState := .SHADOWING
        lastReconciliationId := none
        shadowRequestedBy := some request.actor } [.CLEAR_SHADOW]
  | beginReconciliation (action : request.action = .BEGIN_RECONCILIATION)
      (active : o.cutoverState = .SHADOWING ∨ o.cutoverState = .RECONCILING ∨ o.cutoverState = .CUTOVER_READY) :
      Moves o request { o with cutoverState := .RECONCILING } []
  | recordPassed (action : request.action = .RECORD_RECONCILIATION) (reconciling : o.cutoverState = .RECONCILING)
      (passed : request.reconciliationPassed = some true) :
      Moves o request { o with
        cutoverState := .CUTOVER_READY, lastReconciliationId := request.reconciliationId } []
  | recordFailed (action : request.action = .RECORD_RECONCILIATION) (reconciling : o.cutoverState = .RECONCILING)
      (failed : request.reconciliationPassed = some false) :
      Moves o request { o with
        cutoverState := .SHADOWING, lastReconciliationId := request.reconciliationId } []
  | cutover {engine : Engine} (action : request.action = .CUTOVER) (ready : o.cutoverState = .CUTOVER_READY)
      (shadowed : o.shadowEngine = some engine) (reconciled : o.lastReconciliationId.isSome)
      (valid : request.reconciliationValid = some true)
      (approved : request.requireDualControl = true → truthy request.approvedBy = true ∧
        (request.databaseEnforcedApproval = false →
          request.approvedBy ≠ some request.actor ∧ request.approvedBy ≠ o.shadowRequestedBy)) :
      Moves o request { bump o with
        engine := engine
        shadowEngine := none
        cutoverState := .STEADY
        shadowRequestedBy := none } [.PROMOTE_SHADOW]
  | abortShadow (action : request.action = .ABORT_SHADOW) (shadowed : o.shadowEngine.isSome) :
      Moves o request { bump o with
        shadowEngine := none
        cutoverState := .STEADY
        lastReconciliationId := none
        shadowRequestedBy := none } [.CLEAR_SHADOW]
  | pause (action : request.action = .PAUSE) (running : o.cutoverState ≠ .PAUSED) :
      Moves o request { bump o with cutoverState := .PAUSED } []
  | resume (action : request.action = .RESUME) (paused : o.cutoverState = .PAUSED) :
      Moves o request { bump o with
        cutoverState := if o.shadowEngine.isSome then .SHADOWING else .STEADY } []
  | forceAssign {engine : Engine} (action : request.action = .FORCE_ASSIGN) (asked : request.engine = some engine)
      (unshadowed : o.shadowEngine = none) (approver : truthy request.approvedBy = true)
      (approved : request.requireDualControl = true → request.approvedBy ≠ some request.actor) :
      Moves o request { bump o with engine := engine, cutoverState := .STEADY } []

/-- A computation that succeeds, part by part. -/
theorem except_bind {ε α β : Type} {x : Except ε α} {f : α → Except ε β} {b : β} (bound : x >>= f = .ok b) :
    ∃ a, x = .ok a ∧ f a = .ok b := by
  cases x with
  | error e => cases bound
  | ok a => exact ⟨a,rfl,bound⟩

@[simp] theorem require_bind (condition : Bool) (message : String) {α : Type} (next : Unit → Except String α)
    (result : α) :
    (require condition message >>= next) = .ok result ↔ condition = true ∧ next () = .ok result := by
  cases condition with
  | false => simp [require,bind,Except.bind]
  | true => simp [require,bind,Except.bind]

@[simp] theorem require_map (condition : Bool) (message : String) {α : Type} (f : Unit → α) (result : α) :
    f <$> require condition message = .ok result ↔ condition = true ∧ f () = result := by
  cases condition with
  | false => simp [require,Functor.map,Except.map]
  | true => simp [require,Functor.map,Except.map]

/-- Every accepted request is one of the moves. -/
theorem transition_moves {o : Ownership} {request : TransitionRequest} {result : TransitionResult}
    (accepted : transition o request = .ok result) :
    result.previous = o ∧ Moves o request result.current result.sideEffects := by
  unfold transition at accepted
  simp only [require_bind] at accepted
  obtain ⟨-,-,accepted⟩ := accepted
  cases action : request.action with
  | ASSIGN =>
    simp only [action,require_bind,decide_eq_true_eq] at accepted
    obtain ⟨asked,unowned,unshadowed,done⟩ := accepted
    cases done
    rcases asked with asked | asked
    · simpa [asked] using Moves.assign action asked (by decide) unowned unshadowed
    · simpa [asked] using Moves.assign action asked (by decide) unowned unshadowed
  | START_SHADOW =>
    simp only [action,require_bind,decide_eq_true_eq] at accepted
    obtain ⟨asked,steady,owned,other,done⟩ := accepted
    cases done
    rcases asked with asked | asked
    · have differs : Engine.PYTHON ≠ o.engine := fun same => other (by rw [asked,same])
      simpa [asked] using Moves.startShadow action asked (by decide) steady owned differs
    · have differs : Engine.KAFKA ≠ o.engine := fun same => other (by rw [asked,same])
      simpa [asked] using Moves.startShadow action asked (by decide) steady owned differs
  | BEGIN_RECONCILIATION =>
    simp only [action,require_bind,decide_eq_true_eq] at accepted
    obtain ⟨active,done⟩ := accepted
    cases done
    exact ⟨rfl,.beginReconciliation action active⟩
  | RECORD_RECONCILIATION =>
    simp only [action,require_bind,decide_eq_true_eq] at accepted
    obtain ⟨reconciling,present,done⟩ := accepted
    cases done
    cases passed : request.reconciliationPassed with
    | none => simp [passed] at present
    | some outcome =>
      cases outcome with
      | true => exact ⟨rfl,by simpa using Moves.recordPassed action reconciling passed⟩
      | false => exact ⟨rfl,by simpa using Moves.recordFailed action reconciling passed⟩
  | CUTOVER =>
    simp only [action,require_bind,decide_eq_true_eq] at accepted
    obtain ⟨ready,shadowed,reconciled,valid,accepted⟩ := accepted
    obtain ⟨engine,shadowed⟩ := Option.isSome_iff_exists.mp shadowed
    have move := Moves.cutover action ready shadowed reconciled valid
    cases dual : request.requireDualControl with
    | false =>
      simp [dual] at accepted
      cases accepted
      simpa [shadowed] using move (by simp [dual])
    | true =>
      simp only [dual,if_true,require_bind] at accepted
      cases enforced : request.databaseEnforcedApproval with
      | true =>
        simp [enforced] at accepted
        obtain ⟨approver,done⟩ := accepted
        cases done
        simpa [shadowed] using move (by simp [approver,enforced])
      | false =>
        simp [enforced] at accepted
        obtain ⟨approver,notActor,notStarter,done⟩ := accepted
        cases done
        simpa [shadowed] using move (fun _ => ⟨approver,fun _ => ⟨notActor,notStarter⟩⟩)
  | ABORT_SHADOW =>
    simp only [action,require_bind] at accepted
    obtain ⟨shadowed,done⟩ := accepted
    cases done
    exact ⟨rfl,.abortShadow action shadowed⟩
  | PAUSE =>
    simp only [action,require_bind,decide_eq_true_eq] at accepted
    obtain ⟨running,done⟩ := accepted
    cases done
    exact ⟨rfl,.pause action running⟩
  | RESUME =>
    simp only [action,require_bind,decide_eq_true_eq] at accepted
    obtain ⟨paused,done⟩ := accepted
    cases done
    exact ⟨rfl,.resume action paused⟩
  | FORCE_ASSIGN =>
    simp only [action,require_bind,decide_eq_true_eq] at accepted
    obtain ⟨asked,unshadowed,approver,accepted⟩ := accepted
    obtain ⟨engine,asked⟩ := Option.isSome_iff_exists.mp asked
    have move := Moves.forceAssign action asked unshadowed approver
    cases dual : request.requireDualControl with
    | false =>
      simp [dual] at accepted
      cases accepted
      simpa [asked] using move (by simp [dual])
    | true =>
      simp [dual] at accepted
      obtain ⟨notActor,done⟩ := accepted
      cases done
      simpa [asked] using move (fun _ => notActor)

end FineractBi.StateMachine
