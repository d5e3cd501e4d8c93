import Mathlib.Data.Finset.Lattice.Fold
import Mathlib.Data.Finset.Card
import Mathlib.Order.WithBot

/-!
Carrying the last known value along an ordered set of points, the way a query
does it with two window functions: `count(value)` over the points up to the
current one numbers the groups, and `max(value)` over a group is its value.
-/
namespace Window
universe u v w
variable {Point : Type u} {Place : Type v} {Val : Type w} [LinearOrder Place]

/-- `count(value) over (order by place rows between unbounded preceding and current row)`. -/
def running (points : Finset Point) (place : Point → Place) (value : Point → Option Val) (p : Point) : Nat :=
  (points.filter (fun q => (value q).isSome ∧ place q ≤ place p)).card

/-- A value that may be missing, below all values when it is. -/
def known (value : Point → Option Val) (q : Point) : WithBot Val := value q

/-- The points of the group of a point. -/
def group (points : Finset Point) (place : Point → Place) (value : Point → Option Val) (p : Point) : Finset Point :=
  points.filter (fun q => running points place value q = running points place value p)

/-- `max(value) over (partition by running)`. -/
def carried [SemilatticeSup Val] (points : Finset Point) (place : Point → Place) (value : Point → Option Val)
    (p : Point) : Option Val :=
  ((group points place value p).sup (known value) : WithBot Val)

variable {points points' : Finset Point} {place : Point → Place} {value : Point → Option Val} {p q : Point}

/-- A later point with a value opens a new group. -/
theorem running_lt (member : q ∈ points) (bearing : (value q).isSome) (later : place p < place q) :
    running points place value p < running points place value q := by
  refine Finset.card_lt_card ((Finset.ssubset_iff_of_subset ?_).mpr ⟨q,?_,?_⟩)
  · intro r counted
    obtain ⟨inside,some_value,upto⟩ := Finset.mem_filter.mp counted
    exact Finset.mem_filter.mpr ⟨inside,some_value,upto.trans later.le⟩
  · exact Finset.mem_filter.mpr ⟨member,bearing,le_rfl⟩
  · intro counted
    exact absurd (Finset.mem_filter.mp counted).2.2 (not_le.mpr later)

/-- The count at a point depends only on the points with a value up to it. -/
theorem running_congr (same : ∀ r, (value r).isSome → place r ≤ place p → (r ∈ points ↔ r ∈ points'))
    (upto : place q ≤ place p) : running points place value q = running points' place value q := by
  have filters : points.filter (fun r => (value r).isSome ∧ place r ≤ place q) =
      points'.filter (fun r => (value r).isSome ∧ place r ≤ place q) := by
    ext r
    simp only [Finset.mem_filter,and_congr_left_iff]
    rintro ⟨bearing,before⟩
    exact same r bearing (before.trans upto)
  rw [running,running,filters]

section Carried
variable [SemilatticeSup Val]

/-- Only the points with a value up to the current one count in its group. -/
theorem group_sup_upto (points : Finset Point) (place : Point → Place) (value : Point → Option Val) (p : Point) :
    (group points place value p).sup (known value) =
      (points.filter (fun q => (value q).isSome ∧ place q ≤ place p ∧
        running points place value q = running points place value p)).sup (known value) := by
  refine le_antisymm (Finset.sup_le ?_) (Finset.sup_mono ?_)
  · intro q grouped
    obtain ⟨member,same_group⟩ := Finset.mem_filter.mp grouped
    by_cases bearing : (value q).isSome
    · have upto : place q ≤ place p := by
        by_contra later
        exact absurd same_group (running_lt member bearing (not_le.mp later)).ne'
      exact Finset.le_sup (Finset.mem_filter.mpr ⟨member,bearing,upto,same_group⟩)
    · rw [known,Option.not_isSome_iff_eq_none.mp bearing]
      exact bot_le
  · intro q grouped
    obtain ⟨member,_,_,same_group⟩ := Finset.mem_filter.mp grouped
    exact Finset.mem_filter.mpr ⟨member,same_group⟩

/-- The carried value depends only on the points with a value up to the current one. -/
theorem carried_congr (same : ∀ q, (value q).isSome → place q ≤ place p → (q ∈ points ↔ q ∈ points')) :
    carried points place value p = carried points' place value p := by
  suffices sups : (group points place value p).sup (known value) = (group points' place value p).sup (known value) from
    sups
  rw [group_sup_upto,group_sup_upto]
  refine congrArg (fun group => group.sup (known value)) (Finset.ext (fun q => ?_))
  simp only [Finset.mem_filter]
  constructor
  · rintro ⟨member,bearing,upto,same_group⟩
    rw [running_congr same upto,running_congr same le_rfl] at same_group
    exact ⟨(same q bearing upto).mp member,bearing,upto,same_group⟩
  · rintro ⟨member,bearing,upto,same_group⟩
    rw [← running_congr same upto,← running_congr same le_rfl] at same_group
    exact ⟨(same q bearing upto).mpr member,bearing,upto,same_group⟩

/-- Up to a point nothing has a value: nothing is carried. -/
theorem carried_none (before : ∀ q ∈ points, (value q).isSome → ¬place q ≤ place p) :
    carried points place value p = none := by
  suffices sups : (group points place value p).sup (known value) = ⊥ from sups
  rw [group_sup_upto,Finset.filter_eq_empty_iff.mpr,Finset.sup_empty]
  rintro q member ⟨bearing,upto,_⟩
  exact before q member bearing upto

/-- What holds of the values and of the greater of two holds of the carried value. -/
theorem carried_all {P : Val → Prop} (sup : ∀ x y, P x → P y → P (x ⊔ y)) (each : ∀ q ∈ points, ∀ v, value q = some v → P v)
    {v : Val} (found : carried points place value p = some v) : P v := by
  suffices every : ∀ v : Val, (group points place value p).sup (known value) = (v : WithBot Val) → P v from every v found
  refine Finset.sup_induction (p := fun x => ∀ v : Val, x = (v : WithBot Val) → P v) ?_ ?_ ?_
  · intro v absent
    cases absent
  · intro x holds_x y holds_y v joined
    cases x with
    | bot => exact holds_y v (by rwa [bot_sup_eq] at joined)
    | coe x =>
      cases y with
      | bot => exact holds_x v (by rwa [sup_bot_eq] at joined)
      | coe y =>
        obtain rfl := WithBot.coe_injective joined
        exact sup x y (holds_x x rfl) (holds_y y rfl)
  · intro q grouped v at_q
    exact each q (Finset.mem_filter.mp grouped).1 v at_q

/-- The carried value is that of the last point up to the current one that has a value. -/
theorem carried_last {v : Val} (member : q ∈ points) (bears : value q = some v) (upto : place q ≤ place p)
    (last : ∀ r ∈ points, (value r).isSome → place r ≤ place p → r ≠ q → place r < place q) :
    carried points place value p = some v := by
  have bearing : (value q).isSome := by simp [bears]
  have same_group : running points place value q = running points place value p := by
    refine congrArg Finset.card (Finset.filter_congr ?_)
    intro r inside
    refine and_congr_right (fun some_value => ⟨fun earlier => earlier.trans upto,fun earlier => ?_⟩)
    by_cases same : r = q
    · rw [same]
    · exact (last r inside some_value earlier same).le
  have alone : points.filter (fun r => (value r).isSome ∧ place r ≤ place p ∧
      running points place value r = running points place value p) = {q} := by
    ext r
    simp only [Finset.mem_filter,Finset.mem_singleton]
    constructor
    · rintro ⟨inside,some_value,earlier,grouped⟩
      by_contra other
      have before := running_lt member bearing (last r inside some_value earlier other)
      exact absurd (grouped.trans same_group.symm) before.ne
    · rintro rfl
      exact ⟨member,bearing,upto,same_group⟩
  suffices sups : (group points place value p).sup (known value) = (v : WithBot Val) from sups
  rw [group_sup_upto,alone,Finset.sup_singleton,known,bears]
  rfl

end Carried

section Lag
variable {α : Type u} {γ : Type w} {part : α → γ} {place' : α → Place} {l l' : List α} {x : α}

/-- The row of a partition that comes right before a place, or that there is none. -/
def Before (part : α → γ) (place : α → Place) (Row : α → Prop) (x : α) : Option α → Prop
  | none => ∀ y, Row y → part y = part x → ¬ place y < place x
  | some p => Row p ∧ part p = part x ∧ place p < place x ∧
      ∀ y, Row y → part y = part x → place y < place x → place y ≤ place p

/-- No two rows of a partition have one place. -/
def Untied (part : α → γ) (place : α → Place) (Row : α → Prop) : Prop :=
  ∀ x y, Row x → Row y → part x = part y → place x = place y → x = y

/-- There is one row right before. -/
theorem before_unique {Row : α → Prop} (untied : Untied part place' Row) {p q : Option α}
    (first : Before part place' Row x p) (second : Before part place' Row x q) : p = q := by
  cases p with
  | none =>
    cases q with
    | none => rfl
    | some q => exact absurd second.2.2.1 (first q second.1 second.2.1)
  | some p =>
    cases q with
    | none => exact absurd first.2.2.1 (second p first.1 first.2.1)
    | some q =>
      have tie := le_antisymm (second.2.2.2 p first.1 first.2.1 first.2.2.1) (first.2.2.2 q second.1 second.2.1 second.2.2.1)
      rw [untied p q first.1 second.1 (first.2.1.trans second.2.1.symm) tie]

variable [DecidableEq γ]

/-- `lag(…) over (partition by … order by …)` of rows in order, `seen` being the earlier ones, latest first. -/
def lagAfter (part : α → γ) (seen : List α) : List α → List (α × Option α)
  | [] => []
  | x :: rest => (x,seen.find? (fun y => part y = part x)) :: lagAfter part (x :: seen) rest

/-- Every row with the last one before it in its partition. -/
def lag (part : α → γ) (l : List α) : List (α × Option α) := lagAfter part [] l

private theorem lagAfter_fst (seen l : List α) : (lagAfter part seen l).map Prod.fst = l := by
  induction l generalizing seen with
  | nil => rfl
  | cons x rest ih => rw [lagAfter,List.map_cons,ih]

theorem lag_fst (part : α → γ) (l : List α) : (lag part l).map Prod.fst = l := lagAfter_fst [] l

private theorem mem_lagAfter {seen : List α} {r : α × Option α} (member : r ∈ lagAfter part seen l) : ∃ earlier later,
    l = earlier ++ r.1 :: later ∧ r.2 = (earlier.reverse ++ seen).find? (fun y => part y = part r.1) := by
  induction l generalizing seen with
  | nil => cases member
  | cons x rest ih =>
    rcases List.mem_cons.mp member with rfl | further
    · exact ⟨[],rest,rfl,rfl⟩
    · obtain ⟨earlier,later,split,found⟩ := ih further
      exact ⟨x :: earlier,later,by rw [split,List.cons_append],by simpa using found⟩

/-- With no ties in a partition, `lag` finds the row right before. -/
theorem lag_before (sorted : l.Pairwise (fun x y => place' x ≤ place' y)) (distinct : l.Nodup)
    (untied : Untied part place' (· ∈ l)) {r : α × Option α} (member : r ∈ lag part l) :
    Before part place' (· ∈ l) r.1 r.2 := by
  obtain ⟨x,found⟩ := r
  obtain ⟨earlier,later,split,at_x⟩ := mem_lagAfter member
  simp only [List.append_nil] at split at_x
  subst split
  obtain ⟨earlier_sorted,tail_sorted,between⟩ := List.pairwise_append.mp sorted
  obtain ⟨after,_⟩ := List.pairwise_cons.mp tail_sorted
  have early (y : α) (inside : y ∈ earlier ++ x :: later) (less : place' y < place' x) : y ∈ earlier := by
    rcases List.mem_append.mp inside with first | rest
    · exact first
    · rcases List.mem_cons.mp rest with rfl | last
      · exact absurd less (lt_irrefl _)
      · exact absurd less (after y last).not_gt
  have less_of (y : α) (inside : y ∈ earlier) (kin : part y = part x) : place' y < place' x := by
    refine lt_of_le_of_ne (between y inside x List.mem_cons_self) (fun tie => ?_)
    have equal := untied y x (by simp [inside]) (by simp) kin tie
    subst equal
    exact (List.nodup_append.mp distinct).2.2 y inside y List.mem_cons_self rfl
  cases found with
  | none =>
    intro y inside kin less
    have none_kin := List.find?_eq_none.mp at_x.symm y (by simpa using early y inside less)
    exact none_kin (by simpa using kin)
  | some p =>
    obtain ⟨kin,newer,older,parts,skipped⟩ := List.find?_eq_some_iff_append.mp at_x.symm
    have order : earlier = older.reverse ++ p :: newer.reverse := by
      rw [← List.reverse_reverse earlier,parts]
      simp
    have inside : p ∈ earlier := by simp [order]
    have own : part p = part x := by simpa using kin
    refine ⟨by simp [inside],own,less_of p inside own,fun y member' kin' less => ?_⟩
    have first := early y member' less
    rw [order] at first earlier_sorted
    rcases List.mem_append.mp first with old | rest
    · exact (List.pairwise_append.mp earlier_sorted).2.2 y old p List.mem_cons_self
    · rcases List.mem_cons.mp rest with rfl | new
      · exact le_rfl
      · have not_kin := skipped y (List.mem_reverse.mp new)
        simp [kin'] at not_kin

theorem mem_lag_iff (sorted : l.Pairwise (fun x y => place' x ≤ place' y)) (distinct : l.Nodup)
    (untied : Untied part place' (· ∈ l)) {p : Option α} :
    (x,p) ∈ lag part l ↔ x ∈ l ∧ Before part place' (· ∈ l) x p := by
  constructor
  · intro member
    refine ⟨?_,lag_before sorted distinct untied member⟩
    rw [← lag_fst part l]
    exact List.mem_map.mpr ⟨_,member,rfl⟩
  · rintro ⟨inside,before⟩
    have listed := inside
    rw [← lag_fst part l] at listed
    obtain ⟨⟨x',q⟩,member,rfl⟩ := List.mem_map.mp listed
    rw [before_unique untied before (lag_before sorted distinct untied member)]
    exact member

/-- Without ties the rows before do not depend on the order in which the partitions are mixed. -/
theorem lag_perm (sorted : l.Pairwise (fun x y => place' x ≤ place' y))
    (sorted' : l'.Pairwise (fun x y => place' x ≤ place' y)) (distinct : l.Nodup) (perm : l.Perm l')
    (untied : Untied part place' (· ∈ l)) : (lag part l).Perm (lag part l') := by
  have lag_nodup {l : List α} (nodup : l.Nodup) : (lag part l).Nodup := by
    rw [← lag_fst part l] at nodup
    exact nodup.of_map
  have same : (· ∈ l) = (· ∈ l') := funext (fun y => propext perm.mem_iff)
  have untied' : Untied part place' (· ∈ l') := same ▸ untied
  refine (List.perm_ext_iff_of_nodup (lag_nodup distinct) (lag_nodup (perm.nodup distinct))).mpr ?_
  rintro ⟨x,p⟩
  rw [mem_lag_iff sorted distinct untied,mem_lag_iff sorted' (perm.nodup distinct) untied',perm.mem_iff,same]

end Lag

end Window
