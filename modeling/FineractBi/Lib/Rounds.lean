import Mathlib.Data.List.Flatten
import Mathlib.Data.List.Nodup
import Mathlib.Logic.Function.Iterate
import FineractBi.Lib.Relation

/-!
Rounds of keyed edits on a relation. The edits of a round that have one key
decide the row of that key alone, and rounds that lower a rank as long as there
is work come to an end.
-/
namespace Rounds
universe u v w
variable {Key : Type u} {Row : Type v} {Action : Type w} [DecidableEq Key]

/-- The relation after a list of actions, each of which edits the row of its key. -/
def perform (place : Action → Key) (effect : Action → Option Row → Option Row) (r : Relation Key Row)
    (actions : List Action) : Relation Key Row :=
  actions.foldl (fun r a => r.alter {place a} (fun _ => effect a)) r

/-- A key sees its own actions only. -/
theorem perform_get (place : Action → Key) (effect : Action → Option Row → Option Row) (r : Relation Key Row)
    (actions : List Action) (k : Key) : (perform place effect r actions).get k =
      (actions.filter (fun a => place a = k)).foldl (fun row a => effect a row) (r.get k) := by
  induction actions generalizing r with
  | nil => rfl
  | cons a rest ih =>
    rw [perform,List.foldl_cons,← perform,ih,Relation.alter_get]
    by_cases own : place a = k
    · simp [own]
    · simp [own,Ne.symm own]

section
variable {Item : Type u} {key : Item → Key} {place : Action → Key} {items : List Item} {work : Item → List Action}

variable (key) in
/-- No item has the key, and no action. -/
theorem filter_absent (keyed : ∀ item ∈ items, ∀ a ∈ work item, place a = key item) {k : Key}
    (absent : ∀ item ∈ items, key item ≠ k) : (items.flatMap work).filter (fun a => place a = k) = [] := by
  rw [List.filter_eq_nil_iff]
  intro a member
  obtain ⟨item,inside,planned⟩ := List.mem_flatMap.mp member
  simpa [keyed item inside a planned] using absent item inside

/-- The actions at the key of an item are those planned for the item. -/
theorem filter_own (keyed : ∀ item ∈ items, ∀ a ∈ work item, place a = key item) (distinct : (items.map key).Nodup)
    {item : Item} (member : item ∈ items) :
    (items.flatMap work).filter (fun a => place a = key item) = work item := by
  induction items with
  | nil => cases member
  | cons first rest ih =>
    have others : ∀ item ∈ rest, ∀ a ∈ work item, place a = key item :=
      fun item inside => keyed item (List.mem_cons_of_mem _ inside)
    rw [List.map_cons,List.nodup_cons] at distinct
    rw [List.flatMap_cons,List.filter_append]
    rcases List.mem_cons.mp member with rfl | later
    · have mine : (work item).filter (fun a => place a = key item) = work item :=
        List.filter_eq_self.mpr (fun a planned => by simpa using keyed item List.mem_cons_self a planned)
      rw [mine,filter_absent key others,List.append_nil]
      exact fun other inside same => distinct.1 (List.mem_map.mpr ⟨other,inside,same⟩)
    · have foreign : (work first).filter (fun a => place a = key item) = [] := by
        rw [List.filter_eq_nil_iff]
        intro a planned
        have own := keyed first List.mem_cons_self a planned
        simp only [own,decide_eq_true_eq]
        exact fun same => distinct.1 (List.mem_map.mpr ⟨item,later,same.symm⟩)
      rw [foreign,List.nil_append,ih others distinct.2 later]

end

/-- A rank that every round with work left lowers, under an invariant of the rounds. -/
theorem finishes_within {State : Type u} {round : State → State} (Inv Done : State → Prop) (rank : State → Nat)
    (kept : ∀ s, Inv s → Inv (round s)) (lowers : ∀ s, Inv s → ¬ Done s → rank (round s) < rank s) (s : State)
    (inv : Inv s) : ∃ n, Done (round^[n] s) := by
  induction measured : rank s using Nat.strong_induction_on generalizing s with
  | h n ih =>
    by_cases done : Done s
    · exact ⟨0,done⟩
    · obtain ⟨m,reached⟩ := ih (rank (round s)) (measured ▸ lowers s inv done) (round s) (kept s inv) rfl
      exact ⟨m + 1,reached⟩

/-- A rank that every round with work left lowers. -/
theorem finishes {State : Type u} {round : State → State} (Done : State → Prop) (rank : State → Nat)
    (lowers : ∀ s, ¬ Done s → rank (round s) < rank s) (s : State) : ∃ n, Done (round^[n] s) :=
  finishes_within (fun _ => True) Done rank (fun _ _ => trivial) (fun s _ => lowers s) s trivial

theorem iterate_kept {State : Type u} {round : State → State} {Inv : State → Prop} (kept : ∀ s, Inv s → Inv (round s))
    {s : State} (inv : Inv s) (n : Nat) : Inv (round^[n] s) := by
  induction n with
  | zero => exact inv
  | succ n ih =>
    rw [Function.iterate_succ_apply']
    exact kept _ ih

end Rounds
