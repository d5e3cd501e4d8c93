import Mathlib.Data.Finset.Sort

/-!
Keyset paging over a finite set with a linear order: a page is the beginning of
what is selected, in order. What is selected and is not on the page lies after
the page, and there is none of it when the page is short.
-/
namespace Paging
universe u
variable {α : Type u} [LinearOrder α] {s : Finset α} {selects : α → Bool} {n : Nat} {x : α}

/-- The first `n` selected elements. -/
def page (s : Finset α) (selects : α → Bool) (n : Nat) : List α := ((s.filter (fun x => selects x)).sort (· ≤ ·)).take n

theorem mem_page (member : x ∈ page s selects n) : x ∈ s ∧ selects x = true := by
  simpa using List.mem_of_mem_take member

theorem page_nodup : (page s selects n).Nodup := (Finset.sort_nodup _ _).sublist (List.take_sublist _ _)

/-- A selected element is on the page or after all of the page. -/
theorem page_covers (inside : x ∈ s) (selected : selects x = true) :
    x ∈ page s selects n ∨ (page s selects n).length = n ∧ ∀ y ∈ page s selects n, y < x := by
  have member : x ∈ (s.filter (fun x => selects x)).sort (· ≤ ·) := by simpa using ⟨inside,selected⟩
  have sorted := Finset.sortedLT_sort (s.filter (fun x => selects x))
  rw [← List.take_append_drop n ((s.filter (fun x => selects x)).sort (· ≤ ·))] at member
  rcases List.mem_append.mp member with first | later
  · exact .inl first
  · refine .inr ⟨?_,fun y on_page => ?_⟩
    · have more := List.length_pos_of_mem later
      rw [List.length_drop] at more
      exact List.length_take_of_le (by omega)
    · have ordered := sorted.pairwise
      rw [← List.take_append_drop n ((s.filter (fun x => selects x)).sort (· ≤ ·))] at ordered
      exact (List.pairwise_append.mp ordered).2.2 y on_page x later

/-- A short page holds all that is selected. -/
theorem page_short (short : (page s selects n).length < n) (inside : x ∈ s) (selected : selects x = true) :
    x ∈ page s selects n := by
  rcases page_covers (n := n) inside selected with on_page | ⟨full,_⟩
  · exact on_page
  · exact absurd full short.ne

/-- What is selected and not on a page lies after its last element. -/
theorem page_last {last : α} (at_end : (page s selects n).getLast? = some last) (inside : x ∈ s)
    (selected : selects x = true) : x ∈ page s selects n ∨ last < x :=
  (page_covers inside selected).imp id (fun after => after.2 last (List.mem_of_getLast? at_end))

/-- The last element of a page is its greatest. -/
theorem page_le_last {last : α} (at_end : (page s selects n).getLast? = some last) (on_page : x ∈ page s selects n) :
    x ≤ last := by
  have ordered : (page s selects n).Pairwise (· < ·) :=
    (Finset.sortedLT_sort (s.filter (fun x => selects x))).pairwise.sublist (List.take_sublist _ _)
  obtain ⟨init,split⟩ := List.getLast?_eq_some_iff.mp at_end
  rw [split] at on_page ordered
  rcases List.mem_append.mp on_page with before | here
  · exact ((List.pairwise_append.mp ordered).2.2 x before last List.mem_cons_self).le
  · exact (List.mem_singleton.mp here).le

/-- A page of what is selected, given in order. -/
theorem page_eq {l : List α} (sorted : l.Pairwise (· < ·)) (selected : s.filter (fun x => selects x) = l.toFinset) :
    page s selects n = l.take n := by
  have distinct : l.Nodup := sorted.imp (fun less => less.ne)
  rw [page,selected,(List.toFinset_sort (· ≤ ·) distinct).mpr (sorted.imp (fun less => less.le))]

private theorem mem_take_iff {l : List α} (sorted : l.Pairwise (· < ·)) :
    x ∈ l.take n ↔ x ∈ l ∧ (l.filter (fun y => decide (y < x))).length < n := by
  induction l generalizing n with
  | nil => simp
  | cons y rest ih =>
    obtain ⟨first,rest_sorted⟩ := List.pairwise_cons.mp sorted
    cases n with
    | zero => simp
    | succ n =>
      rw [List.take_succ_cons,List.mem_cons,List.mem_cons,ih rest_sorted]
      by_cases own : x = y
      · subst own
        have smallest : rest.filter (fun y => decide (y < x)) = [] := by
          simpa [List.filter_eq_nil_iff] using fun y inside => (first y inside).le
        simp [smallest]
      · simp only [own,false_or]
        refine and_congr_right (fun inside => ?_)
        have counted : y < x := first x inside
        simp [counted]

/-- A selected element is on the page exactly when fewer than `n` selected ones come before it. -/
theorem mem_page_iff (selects : α → Bool) : x ∈ page s selects n ↔
    x ∈ s.filter (fun y => selects y) ∧ ((s.filter (fun y => selects y)).filter (· < x)).card < n := by
  rw [page,mem_take_iff (Finset.sortedLT_sort _).pairwise,Finset.mem_sort]
  have counts : ((s.filter (fun y => selects y)).filter (· < x)).card =
      (((s.filter (fun y => selects y)).sort (· ≤ ·)).filter (fun y => decide (y < x))).length := by
    rw [Finset.card_def,Finset.filter_val,← Finset.sort_eq (r := (· ≤ ·)),Multiset.filter_coe,Multiset.coe_card]
  rw [counts]

/-- A list in pieces of `n`. -/
def chunks {β : Type u} (n : Nat) (l : List β) : List (List β) :=
  (List.range ((l.length + n - 1) / n)).map (fun i => (l.drop (i * n)).take n)

theorem mem_chunks {β : Type u} {l : List β} {b : β} (positive : 0 < n) : (∃ chunk ∈ chunks n l, b ∈ chunk) ↔ b ∈ l := by
  constructor
  · rintro ⟨chunk,inside,here⟩
    obtain ⟨i,_,rfl⟩ := List.mem_map.mp inside
    exact List.mem_of_mem_drop (List.mem_of_mem_take here)
  · intro inside
    obtain ⟨j,bound,rfl⟩ := List.getElem_of_mem inside
    refine ⟨_,List.mem_map.mpr ⟨j / n,List.mem_range.mpr ?_,rfl⟩,?_⟩
    · rw [Nat.div_lt_iff_lt_mul positive]
      have covers := Nat.lt_div_mul_add positive (a := l.length + n - 1)
      omega
    · rw [List.mem_take_iff_getElem]
      have split := Nat.div_add_mod' j n
      have small := Nat.mod_lt j positive
      refine ⟨j % n,?_,?_⟩
      · rw [List.length_drop]
        omega
      · rw [List.getElem_drop]
        simp only [split]

end Paging
