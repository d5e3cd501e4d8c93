import Mathlib.Data.List.Basic

/-!
Texts that are put together with a separator and taken apart at its first or its last
occurrence.
-/
namespace Separator
universe u
variable {α : Type u} [DecidableEq α]

/-- What stands before and after the last occurrence of a separator. -/
def rpartition (sep : List α) : List α → Option (List α × List α)
  | [] => if sep = [] then some ([],[]) else none
  | x :: rest =>
    match rpartition sep rest with
    | some (before,after) => some (x :: before,after)
    | none => if sep.isPrefixOf (x :: rest) then some ([],(x :: rest).drop sep.length) else none

/-- The parts give the text. -/
theorem rpartition_some {sep text before after : List α} (found : rpartition sep text = some (before,after)) :
    text = before ++ sep ++ after := by
  induction text generalizing before with
  | nil =>
    unfold rpartition at found
    split at found
    · next empty =>
      obtain ⟨rfl,rfl⟩ := Prod.mk.inj (Option.some.inj found)
      simp [empty]
    · cases found
  | cons x rest ih =>
    unfold rpartition at found
    split at found
    · next before' after' later =>
      obtain ⟨rfl,rfl⟩ := Prod.mk.inj (Option.some.inj found)
      rw [ih later]
      simp
    · split at found
      · next here =>
        obtain ⟨rfl,rfl⟩ := Prod.mk.inj (Option.some.inj found)
        obtain ⟨after,same⟩ := List.isPrefixOf_iff_prefix.mp here
        rw [← same,List.drop_left]
        rfl
      · cases found

/-- A text without the first element of the separator does not hold the separator. -/
theorem rpartition_none {c : α} {sep text : List α} (absent : c ∉ text) : rpartition (c :: sep) text = none := by
  induction text with
  | nil => rfl
  | cons x rest ih =>
    obtain ⟨other,absent⟩ := not_or.mp (fun inside => absent (List.mem_cons.mpr inside))
    have elsewhere : (c :: sep).isPrefixOf (x :: rest) = false := by simp [List.isPrefixOf,other]
    simp [rpartition,ih absent,elsewhere]

/-- A text that ends in the separator and more without its first element is taken apart there. -/
theorem rpartition_append (c : α) (sep before : List α) {after : List α} (absent : c ∉ sep ++ after) :
    rpartition (c :: sep) (before ++ (c :: sep) ++ after) = some (before,after) := by
  induction before with
  | nil =>
    have here : (c :: sep).isPrefixOf (c :: (sep ++ after)) = true :=
      List.isPrefixOf_iff_prefix.mpr (List.prefix_append (c :: sep) after)
    have rest : ((c :: sep) ++ after).drop (c :: sep).length = after := List.drop_left
    rw [List.nil_append,List.cons_append,rpartition,rpartition_none absent]
    simp only [here,if_true]
    exact congrArg (fun after => some ([],after)) rest
  | cons x more ih =>
    rw [List.cons_append,List.cons_append,rpartition,ih]

/-- Two texts that agree agree before and after a last separator. -/
theorem append_separator (c : α) (sep : List α) {before before' after after' : List α} (absent : c ∉ sep ++ after)
    (absent' : c ∉ sep ++ after') (same : before ++ (c :: sep) ++ after = before' ++ (c :: sep) ++ after') :
    before = before' ∧ after = after' := by
  have parts : some (before,after) = some (before',after') := by
    rw [← rpartition_append c sep before absent,same,rpartition_append c sep before' absent']
  exact Prod.mk.inj (Option.some.inj parts)

omit [DecidableEq α] in
/-- Two texts that agree agree before and after a first element. -/
theorem append_first {x : α} {before before' after after' : List α} (absent : x ∉ before) (absent' : x ∉ before')
    (same : before ++ x :: after = before' ++ x :: after') : before = before' ∧ after = after' := by
  induction before generalizing before' with
  | nil =>
    cases before' with
    | nil => exact ⟨rfl,by simpa using same⟩
    | cons y rest =>
      obtain ⟨rfl,_⟩ : x = y ∧ after = rest ++ x :: after' := by simpa using same
      exact absurd List.mem_cons_self absent'
  | cons y rest ih =>
    cases before' with
    | nil =>
      obtain ⟨rfl,_⟩ : y = x ∧ rest ++ x :: after = after' := by simpa using same
      exact absurd List.mem_cons_self absent
    | cons z rest' =>
      obtain ⟨rfl,tails⟩ : y = z ∧ rest ++ x :: after = rest' ++ x :: after' := by simpa using same
      obtain ⟨rfl,afters⟩ := ih (fun inside => absent (List.mem_cons_of_mem _ inside))
        (fun inside => absent' (List.mem_cons_of_mem _ inside)) tails
      exact ⟨rfl,afters⟩

end Separator
