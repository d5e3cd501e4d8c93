import Mathlib.Data.List.Basic

/-!
A loop over items inside a transaction that is committed once, at its end, or
after every item. What the store holds when the loop ends is the work of a prefix
of the items, and of none of them when the commit is left to the end.
-/
namespace Transaction
universe u v w x y
variable {State : Type u} {Item : Type v} {Error : Type w}

/-- How a commit ends: it takes effect, it does not, or it does and nobody is told. -/
inductive Commit
  | done | refused | unanswered
  deriving DecidableEq, Repr

/-- The work of the items, one after the other. -/
def work (step : State → Item → Except Error State) (s : State) (items : List Item) : Except Error State :=
  items.foldlM step s

/-- The loop: `each` commits after every item and then does what follows the commit. Shown are
    the state of the store and the state that the loop works on, or the error that ends it. -/
def loop (each : Bool) (step : State → Item → Except Error State) (commit : Item → Commit)
    (follow : Item → Except Error Unit) (lost : Error) (committed working : State) :
    List Item → State × Except Error State
  | [] => (committed,.ok working)
  | item :: rest =>
    match step working item with
    | .error e => (committed,.error e)
    | .ok next =>
      if each then
        match commit item with
        | .refused => (committed,.error lost)
        | .unanswered => (next,.error lost)
        | .done =>
          match follow item with
          | .error e => (next,.error e)
          | .ok () => loop each step commit follow lost next next rest
      else loop each step commit follow lost committed next rest

section
variable {step : State → Item → Except Error State} {commit : Item → Commit} {follow : Item → Except Error Unit}
  {lost : Error} {s t : State}

private theorem work_cons {item : Item} {rest : List Item} (made : step s item = .ok t) :
    work step s (item :: rest) = work step t rest := by
  rw [work,List.foldlM_cons,made]
  rfl

/-- Without commits the store stays as it is. -/
theorem loop_once (committed working : State) (items : List Item) :
    loop false step commit follow lost committed working items = (committed,work step working items) := by
  induction items generalizing working with
  | nil => rfl
  | cons item rest ih =>
    rw [loop]
    cases made : step working item with
    | error e =>
      rw [work,List.foldlM_cons,made]
      rfl
    | ok next =>
      rw [work_cons made]
      simpa using ih next

/-- With a commit after every item, the store holds the work of a prefix, and of all items when
    the loop ends without an error. -/
theorem loop_each (s : State) (items : List Item) : ∃ done rest, items = done ++ rest ∧
    work step s done = .ok (loop true step commit follow lost s s items).1 ∧
    ∀ t, (loop true step commit follow lost s s items).2 = .ok t →
      rest = [] ∧ t = (loop true step commit follow lost s s items).1 := by
  induction items generalizing s with
  | nil => exact ⟨[],[],rfl,rfl,fun t ended => ⟨rfl,(Except.ok.inj ended).symm⟩⟩
  | cons item rest ih =>
    rw [loop]
    cases made : step s item with
    | error e => exact ⟨[],item :: rest,rfl,rfl,fun t ended => by cases ended⟩
    | ok next =>
      have one : work step s [item] = .ok next := work_cons made
      simp only [if_true]
      cases commit item with
      | refused => exact ⟨[],item :: rest,rfl,rfl,fun t ended => by cases ended⟩
      | unanswered => exact ⟨[item],rest,rfl,one,fun t ended => by cases ended⟩
      | done =>
        cases follow item with
        | error e => exact ⟨[item],rest,rfl,one,fun t ended => by cases ended⟩
        | ok followed =>
          obtain ⟨done,others,split,worked,ends⟩ := ih next
          exact ⟨item :: done,others,by rw [split]; rfl,(work_cons made).trans worked,ends⟩

end

section
variable {Key : Type x} {View : Type y} (step : State → Item → Except Error State) (key : Item → Key)
  (view : State → Key → View) (Effect : Item → View → View → Prop) (Kept : State → Prop)

/-- A step keeps a property of the state, has its effect on the part of its item, and leaves the other parts. -/
def Local : Prop :=
  ∀ s item t, Kept s → step s item = .ok t →
    Kept t ∧ Effect item (view s (key item)) (view t (key item)) ∧ ∀ k, k ≠ key item → view t k = view s k

variable {step key view Effect Kept} {s t : State}

/-- Different items have their effects on the parts as they were at first. -/
theorem work_local (isLocal : Local step key view Effect Kept) {items : List Item} (distinct : (items.map key).Nodup)
    (kept : Kept s) (worked : work step s items = .ok t) :
    Kept t ∧ (∀ item ∈ items, Effect item (view s (key item)) (view t (key item))) ∧
      ∀ k, k ∉ items.map key → view t k = view s k := by
  induction items generalizing s with
  | nil =>
    cases worked
    exact ⟨kept,by simp,fun _ _ => rfl⟩
  | cons item rest ih =>
    cases made : step s item with
    | error e =>
      rw [work,List.foldlM_cons,made] at worked
      cases worked
    | ok next =>
      rw [work_cons made] at worked
      obtain ⟨fresh,distinct⟩ := List.nodup_cons.mp distinct
      obtain ⟨keptNext,effect,frame⟩ := isLocal s item next kept made
      obtain ⟨keptLast,effects,frames⟩ := ih distinct keptNext worked
      refine ⟨keptLast,fun other member => ?_,fun k outside => ?_⟩
      · rcases List.mem_cons.mp member with rfl | later
        · rw [frames _ fresh]
          exact effect
        · have differs : key other ≠ key item := fun same => fresh (same ▸ List.mem_map_of_mem later)
          rw [← frame _ differs]
          exact effects other later
      · rw [List.map_cons,List.mem_cons,not_or] at outside
        rw [frames k outside.2,frame k outside.1]

end

end Transaction
