import Mathlib.Logic.Function.Basic
import Mathlib.Order.Lattice

/-!
A lock that is leased: one row names the holder and the time its grant expires.
A row that has expired may be taken by another, so that a participant that died
blocks nobody for longer than its lease. Among participants whose grants have
not expired, at most one holds the lock (`Exclusive.unique`).
-/
namespace Lease
universe u v
variable {Holder : Type u} {Time : Type v}

/-- The row of a lock. -/
structure Grant (Holder : Type u) (Time : Type v) where
  holder : Holder
  acquiredAt : Time
  expiresAt : Time
  deriving DecidableEq, Repr

section
variable [LinearOrder Time]

/-- A row can be taken when it has expired or is the caller's own. -/
def Free (row : Option (Grant Holder Time)) (holder : Holder) (now : Time) : Prop :=
  ∀ g ∈ row, g.expiresAt < now ∨ g.holder = holder

instance [DecidableEq Holder] (row : Option (Grant Holder Time)) (holder : Holder) (now : Time) : Decidable (Free row holder now) :=
  inferInstanceAs (Decidable (∀ g ∈ row, _))

/-- The row after a request, unless it is refused. -/
def acquire [DecidableEq Holder] (row : Option (Grant Holder Time)) (request : Grant Holder Time) : Option (Grant Holder Time) :=
  if Free row request.holder request.acquiredAt then some request else none

/-- The row after a release, which removes the caller's own row only. -/
def release [DecidableEq Holder] (row : Option (Grant Holder Time)) (holder : Holder) : Option (Grant Holder Time) :=
  row.filter (fun g => g.holder ≠ holder)

/-- What participants were granted, against the row: a grant that has not expired is the row. -/
structure Exclusive (clock : Time) (row : Option (Grant Holder Time)) (granted : Holder → Option (Grant Holder Time)) : Prop where
  own : ∀ h g, granted h = some g → g.holder = h
  held : ∀ h g, granted h = some g → clock ≤ g.expiresAt → row = some g

variable {clock clock' : Time} {row : Option (Grant Holder Time)} {granted : Holder → Option (Grant Holder Time)}
  {holder holder' : Holder} {g g' : Grant Holder Time}

theorem acquire_eq_some [DecidableEq Holder] : acquire row g = some g' ↔ Free row g.holder g.acquiredAt ∧ g' = g := by
  rw [acquire,Option.ite_none_right_eq_some,Option.some.injEq,eq_comm (a := g)]

theorem Exclusive.initial (clock : Time) : Exclusive clock (none : Option (Grant Holder Time)) (fun _ => none) := by
  constructor <;> simp

/-- At most one grant has not expired. -/
theorem Exclusive.unique (exclusive : Exclusive clock row granted) (first : granted holder = some g)
    (second : granted holder' = some g') (lasts : clock ≤ g.expiresAt) (lasts' : clock ≤ g'.expiresAt) : holder = holder' := by
  have same : some g = some g' := (exclusive.held holder g first lasts).symm.trans (exclusive.held holder' g' second lasts')
  rw [← exclusive.own holder g first,← exclusive.own holder' g' second,Option.some.inj same]

theorem Exclusive.later (exclusive : Exclusive clock row granted) (le : clock ≤ clock') : Exclusive clock' row granted :=
  ⟨exclusive.own,fun h g found lasts => exclusive.held h g found (le_trans le lasts)⟩

section
variable [DecidableEq Holder]

/-- Who takes the row finds no other grant that lasts. -/
theorem Exclusive.taken (exclusive : Exclusive clock row granted) (free : Free row g.holder g.acquiredAt)
    (begun : g.acquiredAt ≤ clock) : Exclusive clock (some g) (Function.update granted g.holder (some g)) := by
  refine ⟨fun h g' found => ?_,fun h g' found lasts => ?_⟩
  · by_cases mine : h = g.holder
    · rw [mine,Function.update_self] at found
      rw [mine,← Option.some.inj found]
    · rw [Function.update_of_ne mine] at found
      exact exclusive.own h g' found
  · by_cases mine : h = g.holder
    · rwa [mine,Function.update_self] at found
    · rw [Function.update_of_ne mine] at found
      have held := exclusive.held h g' found lasts
      rcases free g' held with expired | same
      · exact absurd (lt_of_le_of_lt lasts (lt_of_lt_of_le expired begun)) (lt_irrefl _)
      · exact absurd ((exclusive.own h g' found).symm.trans same) mine

/-- Who ends no longer has a grant, whether it releases the row or dies. -/
theorem Exclusive.left (exclusive : Exclusive clock row granted) (holder : Holder) :
    Exclusive clock row (Function.update granted holder none) := by
  have others (h : Holder) (g : Grant Holder Time) (found : Function.update granted holder none h = some g) :
      h ≠ holder ∧ granted h = some g := by
    by_cases mine : h = holder
    · rw [mine,Function.update_self] at found
      cases found
    · rw [Function.update_of_ne mine] at found
      exact ⟨mine,found⟩
  exact ⟨fun h g found => exclusive.own h g (others h g found).2,
    fun h g found lasts => exclusive.held h g (others h g found).2 lasts⟩

omit [LinearOrder Time] in
theorem release_of_ne (held : row = some g) (other : g.holder ≠ holder) : release row holder = some g := by
  rw [held,release,Option.filter_some,if_pos (by simpa using other)]

/-- A release leaves the row of every other participant. -/
theorem Exclusive.released (exclusive : Exclusive clock row granted) (holder : Holder) :
    Exclusive clock (release row holder) (Function.update granted holder none) := by
  refine ⟨(exclusive.left holder).own,fun h g found lasts => ?_⟩
  have other : h ≠ holder := by
    rintro rfl
    rw [Function.update_self] at found
    cases found
  have held := (exclusive.left holder).held h g found lasts
  exact release_of_ne held ((exclusive.left holder).own h g found ▸ other)

end

end

end Lease
