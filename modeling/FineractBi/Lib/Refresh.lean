import Mathlib.Data.Multiset.Count
import Mathlib.Data.Multiset.Filter

/-!
A stored view that is refreshed by keys: the rows of the keys in a window are
deleted and inserted again. What has to be known about the window is that it
contains every key at which the view is stale.
-/
namespace Refresh
open Multiset
universe u v
variable {α : Type u} {κ : Type v} [DecidableEq κ]

/-- The rows of a key. -/
def atKey (key : α → κ) (k : κ) (rows : Multiset α) : Multiset α := rows.filter (fun r => key r = k)

/-- Delete the rows of the keys in the window and insert others. -/
def refresh (key : α → κ) (inside : κ → Bool) (content inserted : Multiset α) : Multiset α :=
  content.filter (fun r => inside (key r) = false) + inserted

/-- At every key that is not stale the stored view agrees with the full one. -/
def Accounted (key : α → κ) (stale : κ → Prop) (content full : Multiset α) : Prop :=
  ∀ k, ¬stale k → atKey key k content = atKey key k full

section
variable {key : α → κ} {stale stale' : κ → Prop} {inside : κ → Bool} {content inserted full full' : Multiset α}

/-- Views that agree at every key are equal. -/
theorem ext_atKey (key : α → κ) (same : ∀ k, atKey key k content = atKey key k full) : content = full := by
  classical
  refine Multiset.ext.mpr (fun r => ?_)
  have counted (rows : Multiset α) : rows.count r = (atKey key (key r) rows).count r :=
    (count_filter_of_pos (p := fun r' => key r' = key r) rfl).symm
  rw [counted content,counted full,same]

theorem refresh_atKey (k : κ) : atKey key k (refresh key inside content inserted) =
    (if inside k then 0 else atKey key k content) + atKey key k inserted := by
  rw [refresh,atKey,filter_add,filter_filter]
  refine congrArg (· + atKey key k inserted) ?_
  split
  · next within =>
    refine filter_eq_nil.mpr (fun r _ both => ?_)
    rw [both.1,within] at both
    cases both.2
  · next without =>
    refine filter_congr (fun r _ => and_iff_left_of_imp ?_)
    rintro rfl
    simpa using without

/-- A refresh whose window contains the stale keys, and those at which the full view changes, gives the full view. -/
theorem Accounted.refreshed (accounted : Accounted key stale content full) (covers : ∀ k, stale k → inside k = true)
    (kept : ∀ k, inside k = false → atKey key k full = atKey key k full')
    (window : ∀ k, atKey key k inserted = if inside k then atKey key k full' else 0) :
    refresh key inside content inserted = full' := by
  refine ext_atKey key (fun k => ?_)
  rw [refresh_atKey,window]
  split
  · rw [Multiset.zero_add]
  · next without =>
    have outside : inside k = false := by simpa using without
    rw [Multiset.add_zero,accounted k (fun old => without (covers k old)),kept k outside]

/-- A view that is not refreshed is stale where it was, and where the full view changes. -/
theorem Accounted.skipped (accounted : Accounted key stale content full) (grows : ∀ k, stale k → stale' k)
    (kept : ∀ k, ¬stale' k → atKey key k full = atKey key k full') : Accounted key stale' content full' :=
  fun k fresh => (accounted k (fun old => fresh (grows k old))).trans (kept k fresh)

/-- The rows of some keys are deleted, and the full view has none of them any more. -/
theorem Accounted.deleted (accounted : Accounted key stale content full) (kept : κ → Prop) [DecidablePred kept]
    (others : ∀ k, kept k → atKey key k full = atKey key k full') (gone : ∀ k, ¬kept k → atKey key k full' = 0) :
    Accounted key stale (content.filter (fun r => kept (key r))) full' := by
  intro k fresh
  rw [atKey,filter_filter]
  by_cases inside : kept k
  · rw [← others k inside,← accounted k fresh]
    refine filter_congr (fun r _ => and_iff_left_of_imp ?_)
    rintro rfl
    exact inside
  · rw [gone k inside]
    refine filter_eq_nil.mpr (fun r _ both => inside ?_)
    rw [← both.1]
    exact both.2

end

end Refresh
