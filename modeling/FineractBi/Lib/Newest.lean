import Mathlib.Data.List.Basic
import Mathlib.Order.Lattice

/-!
The newest element of a list under a version: `ORDER BY version DESC, seq DESC`
followed by taking the first row, where `seq` is the position in the list.
-/
namespace Newest
universe u v
variable {α : Type u} {Version : Type v} [LinearOrder Version]

/-- The last of the elements with the greatest version. -/
def newest (version : α → Version) : List α → Option α
  | [] => none
  | x :: rest =>
    match newest version rest with
    | none => some x
    | some y => if version x ≤ version y then some y else some x

variable {version : α → Version} {l : List α} {x y : α}

@[simp] theorem newest_nil : newest version [] = none := rfl

theorem newest_eq_none : newest version l = none ↔ l = [] := by
  cases l with
  | nil => simp
  | cons a rest =>
    simp only [newest,reduceCtorEq,iff_false]
    split
    · simp
    · split <;> simp

theorem newest_mem (found : newest version l = some x) : x ∈ l := by
  induction l generalizing x with
  | nil => simp at found
  | cons a rest ih =>
    simp only [newest] at found
    split at found
    · rw [← Option.some.inj found]; exact List.mem_cons_self
    · next y at_rest =>
      split at found
      · rw [← Option.some.inj found]; exact List.mem_cons_of_mem _ (ih at_rest)
      · rw [← Option.some.inj found]; exact List.mem_cons_self

theorem newest_ge (found : newest version l = some x) (member : y ∈ l) : version y ≤ version x := by
  induction l generalizing x with
  | nil => simp at member
  | cons a rest ih =>
    simp only [newest] at found
    split at found
    · next empty =>
      rw [newest_eq_none.mp empty,List.mem_singleton] at member
      rw [member,Option.some.inj found]
    · next z at_rest =>
      rcases List.mem_cons.mp member with rfl | later
      · split at found
        · next le => rw [← Option.some.inj found]; exact le
        · rw [Option.some.inj found]
      · have bound := ih at_rest later
        split at found
        · rw [← Option.some.inj found]; exact bound
        · next gt => rw [← Option.some.inj found]; exact le_trans bound (le_of_not_ge gt)

/-- The newest element stays the newest among those that satisfy a test it passes. -/
theorem newest_filter {p : α → Bool} (found : newest version l = some x) (passes : p x = true) :
    newest version (l.filter p) = some x := by
  induction l with
  | nil => cases found
  | cons a rest ih =>
    simp only [newest] at found
    cases at_rest : newest version rest with
    | none =>
      rw [at_rest] at found
      obtain rfl := Option.some.inj found
      rw [newest_eq_none.mp at_rest]
      simp [passes,newest]
    | some z =>
      rw [at_rest] at found
      simp only at found
      split at found
      · next le =>
        obtain rfl := Option.some.inj found
        rw [List.filter_cons]
        split
        · simp [newest,ih at_rest,le]
        · exact ih at_rest
      · next gt =>
        obtain rfl := Option.some.inj found
        rw [List.filter_cons_of_pos passes,newest]
        cases kept : newest version (rest.filter p) with
        | none => rfl
        | some y =>
          have bound := newest_ge at_rest (List.mem_of_mem_filter (newest_mem kept))
          have gt' : ¬ version a ≤ version y := fun le => gt (le_trans le bound)
          simp [gt']

/-- The newest of two lists, where the second is the later one. -/
theorem newest_append (l r : List α) : newest version (l ++ r) =
    match newest version l, newest version r with
    | none, y => y
    | some x, none => some x
    | some x, some y => if version x ≤ version y then some y else some x := by
  induction l with
  | nil => rfl
  | cons a rest ih =>
    simp only [List.cons_append,newest,ih]
    cases left : newest version rest with
    | none => cases right : newest version r with
      | none => rfl
      | some y => rfl
    | some x => cases right : newest version r with
      | none => by_cases le : version a ≤ version x <;> simp [le]
      | some y =>
        by_cases le : version a ≤ version x
        · by_cases le' : version x ≤ version y
          · simp [le,le',le_trans le le']
          · simp [le,le']
        · by_cases le' : version x ≤ version y
          · simp [le,le']
          · have gt : ¬ version a ≤ version y := fun h => le (le_trans h (le_of_not_ge le'))
            simp [le,le',gt]

/-- In a list of increasing versions the newest element is the last one. -/
theorem newest_sorted (sorted : l.Pairwise (fun a b => version a < version b)) : newest version l = l.getLast? := by
  induction l with
  | nil => rfl
  | cons a rest ih =>
    rw [List.pairwise_cons] at sorted
    simp only [newest,ih sorted.2]
    cases last : rest.getLast? with
    | none => simp [List.getLast?_eq_none_iff.mp last]
    | some z =>
      have le : version a ≤ version z := le_of_lt (sorted.1 z (List.mem_of_getLast? last))
      simp [le,List.getLast?_cons,last]

end Newest
