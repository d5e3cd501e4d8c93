import Mathlib.Data.List.Induction

/-!
Runs of a labelled transition system. A run keeps the list of labels it took,
so that an invariant may speak about the history as well as about the state.
-/
namespace Runs
universe u v
variable {State : Type u} {Label : Type v}

/-- `Run step s trace t`: the labels of `trace`, taken in order, lead from `s` to `t`. -/
inductive Run (step : State → Label → State → Prop) (s : State) : List Label → State → Prop
  | start : Run step s [] s
  | extend {trace : List Label} {t u : State} {a : Label} :
      Run step s trace t → step t a u → Run step s (trace ++ [a]) u

variable {step : State → Label → State → Prop} {s t : State} {trace : List Label}

/-- What holds at the start and is kept by every step, history included, holds
    at the end of every run. -/
theorem Run.invariant {I : List Label → State → Prop} (run : Run step s trace t) (initial : I [] s)
    (kept : ∀ trace t a u, I trace t → step t a u → I (trace ++ [a]) u) : I trace t := by
  induction run with
  | start => exact initial
  | extend _ taken ih => exact kept _ _ _ _ ih taken

/-- The same for a property of the state alone. -/
theorem Run.stateInvariant {I : State → Prop} (run : Run step s trace t) (initial : I s)
    (kept : ∀ t a u, I t → step t a u → I u) : I t :=
  run.invariant (I := fun _ t => I t) initial (fun _ t a u holds taken => kept t a u holds taken)

/-- A run of a system with fewer steps. -/
theorem Run.imp {step' : State → Label → State → Prop} (run : Run step s trace t)
    (weaker : ∀ s a t, step s a t → step' s a t) : Run step' s trace t := by
  induction run with
  | start => exact .start
  | extend _ taken ih => exact ih.extend (weaker _ _ _ taken)

/-- The run of a system that is a function. -/
theorem Run.fold (f : State → Label → State) (s : State) (trace : List Label) :
    Run (fun s a t => f s a = t) s trace (trace.foldl f s) := by
  induction trace using List.reverseRecOn with
  | nil => exact .start
  | append_singleton rest a ih =>
    rw [List.foldl_append]
    exact ih.extend rfl

/-- The state that a list of labels leads to, for a system that computes its steps. -/
def exec (next : State → Label → Option State) (s : State) : List Label → Option State
  | [] => some s
  | a :: rest => (next s a).bind (fun t => exec next t rest)

/-- What is executed is a run. -/
theorem exec_run {next : State → Label → Option State} (sound : ∀ s a t, next s a = some t → step s a t)
    (executed : exec next s trace = some t) : Run step s trace t := by
  have continues : ∀ (trace earlier : List Label) (u : State), Run step s earlier u → exec next u trace = some t →
      Run step s (earlier ++ trace) t := by
    intro trace
    induction trace with
    | nil =>
      intro earlier u before done
      obtain rfl := Option.some.inj done
      simpa using before
    | cons a rest ih =>
      intro earlier u before more
      obtain ⟨v,taken,others⟩ := Option.bind_eq_some_iff.mp more
      simpa using ih (earlier ++ [a]) v (before.extend (sound u a v taken)) others
  exact continues trace [] s .start executed

theorem exec_append (next : State → Label → Option State) (s : State) (trace more : List Label) :
    exec next s (trace ++ more) = (exec next s trace).bind (fun t => exec next t more) := by
  induction trace generalizing s with
  | nil => rfl
  | cons a rest ih =>
    rw [List.cons_append,exec,exec,Option.bind_assoc]
    exact congrArg _ (funext ih)

/-- A run is what is executed. -/
theorem Run.executed {next : State → Label → Option State} (run : Run (fun s a t => next s a = some t) s trace t) :
    exec next s trace = some t := by
  induction run with
  | start => rfl
  | extend _ taken ih => rw [exec_append,ih,Option.bind_some,exec,taken]; rfl

end Runs
