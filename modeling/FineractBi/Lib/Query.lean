import Mathlib.Algebra.BigOperators.Group.Finset.Piecewise
import Mathlib.Algebra.BigOperators.Group.Multiset.Basic
import Mathlib.Data.Multiset.Bind
import Mathlib.Data.Multiset.Dedup
import Mathlib.Order.Defs.LinearOrder
import FineractBi.Lib.Relation

/-!
Queries over bags of rows, with the joins and groupings of SQL. A join condition
is a Boolean of two rows, so a comparison with NULL is one that is false.
-/
namespace Query
open Multiset
universe u v w x
variable {α : Type u} {β : Type v} {κ : Type w}

instance decidableExistsMem (a : Multiset α) (p : α → Prop) [DecidablePred p] : Decidable (∃ x ∈ a, p x) :=
  Multiset.decidableExistsMultiset

/-- The rows of `b` that match a row. -/
def matching (on : α → β → Bool) (b : Multiset β) (x : α) : Multiset β := b.filter (fun y => on x y)

/-- `a inner join b on …`. -/
def join (on : α → β → Bool) (a : Multiset α) (b : Multiset β) : Multiset (α × β) :=
  a.bind (fun x => (matching on b x).map (fun y => (x,y)))

/-- The matches of a row as a left join has them: one row of NULLs when there are none. -/
def orNull (matches' : Multiset β) : Multiset (Option β) := if matches'.card = 0 then {none} else matches'.map some

/-- `a left join b on …`. -/
def leftJoin (on : α → β → Bool) (a : Multiset α) (b : Multiset β) : Multiset (α × Option β) :=
  a.bind (fun x => (orNull (matching on b x)).map (fun y => (x,y)))

/-- A left join of which every left row keeps its first match, by `row_number()` over a descending
    place; without ties, as `rank()` numbers them. -/
def leftJoinFirst {π : Type w} [LinearOrder π] (on : α → β → Bool) (place : β → π) (a : Multiset α) (b : Multiset β) :
    Multiset (α × Option β) :=
  a.bind (fun x => (orNull ((matching on b x).filter (fun y => ∀ z ∈ matching on b x, place z ≤ place y))).map
    (fun y => (x,y)))

/-- The rows of `b` that match no row of `a`. -/
def unmatched (on : α → β → Bool) (a : Multiset α) (b : Multiset β) : Multiset β :=
  b.filter (fun y => ∀ x ∈ a, on x y = false)

/-- `a full outer join b on …`. -/
def fullJoin (on : α → β → Bool) (a : Multiset α) (b : Multiset β) : Multiset (Option α × Option β) :=
  (leftJoin on a b).map (fun r => (some r.1,r.2)) + (unmatched on a b).map (fun y => (none,some y))

/-- `group by key`: the keys in use, each with its rows. -/
def groupBy [DecidableEq κ] (key : α → κ) (a : Multiset α) : Multiset (κ × Multiset α) :=
  (a.map key).dedup.map (fun k => (k,a.filter (fun x => key x = k)))

theorem filterMap_congr {a : Multiset α} {f g : α → Option β} (same : ∀ x ∈ a, f x = g x) :
    a.filterMap f = a.filterMap g := by
  rw [filterMap_eq_bind,filterMap_eq_bind]
  exact bind_congr (fun x member => by rw [same x member])

section Joins
variable {on : α → β → Bool} {a : Multiset α} {b : Multiset β}

@[simp] theorem mem_matching {x : α} {y : β} : y ∈ matching on b x ↔ y ∈ b ∧ on x y = true := by
  simp [matching]

theorem mem_join {r : α × β} : r ∈ join on a b ↔ r.1 ∈ a ∧ r.2 ∈ b ∧ on r.1 r.2 = true := by
  obtain ⟨x,y⟩ := r
  simp [join]

private theorem join_eq_filter (on : α → β → Bool) (a : Multiset α) (b : Multiset β) :
    join on a b = (a ×ˢ b).filter (fun r => on r.1 r.2) := by
  rw [join,show a ×ˢ b = a.bind (fun x => b.map (fun y => (x,y))) from rfl,filter_bind]
  refine bind_congr (fun x _ => ?_)
  rw [filter_map]
  rfl

theorem join_nodup (distinct : a.Nodup) (distinct' : b.Nodup) : (join on a b).Nodup := by
  rw [join_eq_filter]
  exact (distinct.product distinct').filter _

/-- Rows that each match at most one row. -/
theorem join_eq_filterMap {f : α → Option β} (one : ∀ x ∈ a, matching on b x = (f x).elim 0 ({·})) :
    join on a b = a.filterMap (fun x => (f x).map (fun y => (x,y))) := by
  rw [filterMap_eq_bind,join]
  refine bind_congr (fun x member => ?_)
  rw [one x member]
  cases f x with
  | none => rfl
  | some y => rfl

/-- Every row stays, with its match if it has one. -/
theorem leftJoin_eq_map {f : α → Option β} (one : ∀ x ∈ a, matching on b x = (f x).elim 0 ({·})) :
    leftJoin on a b = a.map (fun x => (x,f x)) := by
  rw [← bind_singleton,leftJoin]
  refine bind_congr (fun x member => ?_)
  rw [one x member]
  cases f x with
  | none => simp [orNull]
  | some y => simp [orNull]

/-- The first match of every row, when no two matches have one place. -/
theorem leftJoinFirst_eq_map {π : Type w} [LinearOrder π] {place : β → π} {f : α → Option β}
    (first : ∀ x ∈ a, (matching on b x).filter (fun y => ∀ z ∈ matching on b x, place z ≤ place y) = (f x).elim 0 ({·})) :
    leftJoinFirst on place a b = a.map (fun x => (x,f x)) := by
  rw [← bind_singleton,leftJoinFirst]
  refine bind_congr (fun x member => ?_)
  rw [first x member]
  cases f x with
  | none => simp [orNull]
  | some y => simp [orNull]

/-- Two rows that a left join pairs match. -/
theorem leftJoin_on {x : α} {y : β} (paired : (x,some y) ∈ leftJoin on a b) : on x y = true := by
  simp only [leftJoin,mem_bind,mem_map,Prod.mk.injEq,orNull] at paired
  obtain ⟨x',_,y',among,rfl,rfl⟩ := paired
  split at among
  · simp at among
  · obtain ⟨z,found,same⟩ := mem_map.mp among
    obtain rfl := Option.some.inj same
    exact (mem_filter.mp found).2

/-- The rows of a left join whose left side satisfies `p`. -/
theorem leftJoin_filter (p : α → Prop) [DecidablePred p] : (leftJoin on a b).filter (fun r => p r.1) =
    leftJoin on (a.filter p) b := by
  rw [leftJoin,filter_bind,filter_eq_bind,leftJoin,bind_assoc]
  refine bind_congr (fun x _ => ?_)
  split
  · next holds =>
    rw [singleton_bind]
    refine filter_eq_self.mpr (fun r paired => ?_)
    obtain ⟨_,_,rfl⟩ := mem_map.mp paired
    exact holds
  · next fails =>
    rw [zero_bind]
    refine filter_eq_nil.mpr (fun r paired => ?_)
    obtain ⟨_,_,rfl⟩ := mem_map.mp paired
    exact fails

/-- A left join reads the matches of its rows alone. -/
theorem leftJoin_congr {b' : Multiset β} (same : ∀ x ∈ a, matching on b x = matching on b' x) :
    leftJoin on a b = leftJoin on a b' :=
  bind_congr (fun x member => by rw [same x member])

/-- A condition that no two matching rows meet, and every row alone does, finds the rows without a match. -/
theorem fullJoin_filter_unmatched {p : Option α × Option β → Bool}
    (agree : ∀ x ∈ a, ∀ y ∈ b, on x y = true → p (some x,some y) = false) (left : ∀ x, p (some x,none) = true)
    (right : ∀ y, p (none,some y) = true) : (fullJoin on a b).filter (fun r => p r) =
      (a.filter (fun x => ∀ y ∈ b, on x y = false)).map (fun x => (some x,none)) +
        (unmatched on a b).map (fun y => (none,some y)) := by
  have alone : (leftJoin on a b).filter (fun r => p (some r.1,r.2)) =
      (a.filter (fun x => ∀ y ∈ b, on x y = false)).map (fun x => (x,none)) := by
    rw [leftJoin,filter_bind]
    conv_rhs => rw [← filterMap_eq_filter,map_filterMap,filterMap_eq_bind]
    refine bind_congr (fun x inside => ?_)
    by_cases unmatched : ∀ y ∈ b, on x y = false
    · have none_match : matching on b x = 0 := filter_eq_nil.mpr (fun y member => by simp [unmatched y member])
      simp [none_match,orNull,left,Option.guard,eq_true unmatched,filter_singleton]
    · have some_match : (matching on b x).card ≠ 0 := by
        push Not at unmatched
        obtain ⟨y,member,matched⟩ := unmatched
        exact (card_pos_iff_exists_mem.mpr ⟨y,mem_filter.mpr ⟨member,by simpa using matched⟩⟩).ne'
      have none_left : ((orNull (matching on b x)).map (fun y => (x,y))).filter (fun r => p (some r.1,r.2)) = 0 := by
        refine filter_eq_nil.mpr ?_
        rintro r among holds
        obtain ⟨z,found,rfl⟩ := mem_map.mp among
        rw [orNull,if_neg some_match] at found
        obtain ⟨y,matched,rfl⟩ := mem_map.mp found
        rw [agree x inside y (mem_filter.mp matched).1 (mem_filter.mp matched).2] at holds
        cases holds
      rw [none_left]
      simp [Option.guard,eq_false unmatched]
  have kept : (unmatched on a b).filter (fun y => p (none,some y)) = unmatched on a b :=
    filter_eq_self.mpr (fun y _ => right y)
  rw [fullJoin,filter_add,filter_map,filter_map]
  refine congrArg₂ (· + ·) ?_ (congrArg (Multiset.map _) kept)
  exact (congrArg (Multiset.map _) alone).trans (by rw [map_map]; rfl)

/-- Two rows that a full join pairs match. -/
theorem fullJoin_on {x : α} {y : β} (paired : (some x,some y) ∈ fullJoin on a b) : on x y = true := by
  simp only [fullJoin,mem_add,mem_map,Prod.mk.injEq] at paired
  rcases paired with ⟨⟨x',y'⟩,inside,left,right⟩ | ⟨_,_,left,_⟩
  · obtain rfl := Option.some.inj left
    obtain rfl : y' = some y := right
    exact leftJoin_on inside
  · cases left

/-- At most one row of `b` matches, when its rows have distinct keys that a match fixes. -/
theorem matching_le_one {γ : Type w} {key : β → γ} {x : α} (distinct : (b.map key).Nodup)
    (fixes : ∀ y z, y ∈ b → z ∈ b → on x y = true → on x z = true → key y = key z) : (matching on b x).card ≤ 1 := by
  rw [matching]
  by_contra more
  obtain ⟨y,z,rest,same⟩ : ∃ y z rest, b.filter (fun y => on x y) = y ::ₘ z ::ₘ rest := by
    obtain ⟨y,inside⟩ := card_pos_iff_exists_mem.mp (lt_trans Nat.zero_lt_one (not_le.mp more))
    obtain ⟨others,split⟩ := exists_cons_of_mem inside
    rw [split,card_cons] at more
    obtain ⟨z,inside'⟩ := card_pos_iff_exists_mem.mp (by omega : 0 < others.card)
    obtain ⟨rest,split'⟩ := exists_cons_of_mem inside'
    exact ⟨y,z,rest,by rw [split,split']⟩
  have within : y ::ₘ z ::ₘ rest ≤ b := same ▸ filter_le _ _
  have member_y : y ∈ b.filter (fun y => on x y) := by rw [same]; exact mem_cons_self _ _
  have member_z : z ∈ b.filter (fun y => on x y) := by rw [same]; exact mem_cons_of_mem (mem_cons_self _ _)
  obtain ⟨in_y,on_y⟩ := mem_filter.mp member_y
  obtain ⟨in_z,on_z⟩ := mem_filter.mp member_z
  have twice := nodup_of_le (map_le_map within) distinct
  rw [map_cons,map_cons,nodup_cons] at twice
  exact twice.1 (by rw [fixes y z in_y in_z on_y on_z]; exact mem_cons_self _ _)

end Joins

/-- `a = b` of SQL: true of equal values, not of NULLs. -/
def sqlEq {γ : Type u} [DecidableEq γ] (x y : Option γ) : Bool := x.isSome && x = y

@[simp] theorem sqlEq_iff {γ : Type u} [DecidableEq γ] {x y : Option γ} : sqlEq x y = true ↔ x = y ∧ x.isSome := by
  simp [sqlEq,and_comm]

section Sums
variable {M : Type x} [AddCommMonoid M] {on : α → β → Bool} {a : Multiset α} {b : Multiset β}

theorem sum_filterMap (f : α → Option β) (g : β → M) (a : Multiset α) :
    ((a.filterMap f).map g).sum = (a.map (fun x => (f x).elim 0 g)).sum := by
  induction a using Multiset.induction_on with
  | empty => rfl
  | cons x rest ih =>
    rw [filterMap_cons,Multiset.map_add,sum_add,ih,map_cons,sum_cons]
    cases f x <;> simp

theorem sum_filter (p : α → Prop) [DecidablePred p] (g : α → M) (a : Multiset α) :
    ((a.filter p).map g).sum = (a.map (fun x => if p x then g x else 0)).sum := by
  induction a using Multiset.induction_on with
  | empty => rfl
  | cons x rest ih =>
    by_cases holds : p x
    · simp [holds,ih]
    · simp [holds,ih]

theorem sum_ite_const (p : α → Prop) [DecidablePred p] (m : M) (a : Multiset α) :
    (a.map (fun x => if p x then m else 0)).sum = (a.filter p).card • m := by
  rw [← sum_filter p (fun _ => m),map_const',sum_replicate]

/-- A left join counts every row on the right once for each of its matches. -/
theorem sum_leftJoin_right (on : α → β → Bool) (a : Multiset α) (b : Multiset β) (g : β → M) :
    ((leftJoin on a b).map (fun r => r.2.elim 0 g)).sum = (b.map (fun y => (a.filter (fun x => on x y)).card • g y)).sum := by
  have matched (x : α) : (((orNull (matching on b x)).map (fun y => (x,y))).map (fun r => r.2.elim 0 g)).sum =
      (b.map (fun y => if on x y then g y else 0)).sum := by
    have kept := sum_filter (fun y => on x y = true) g b
    rw [← kept,map_map,orNull]
    split
    · next empty =>
      rw [Multiset.card_eq_zero.mp (show (b.filter (fun y => on x y = true)).card = 0 from empty)]
      simp
    · rw [map_map]
      rfl
  rw [leftJoin,Multiset.map_bind,sum_bind]
  simp only [matched]
  rw [sum_map_sum_map]
  exact congrArg sum (map_congr rfl (fun y _ => sum_ite_const (fun x => on x y = true) (g y) a))

/-- With at most one match each, the rows on the left stay as they are. -/
theorem leftJoin_map_fst (few : ∀ x ∈ a, (matching on b x).card ≤ 1) : (leftJoin on a b).map Prod.fst = a := by
  rw [leftJoin,Multiset.map_bind]
  conv_rhs => rw [← map_id a,← bind_singleton a id]
  refine bind_congr (fun x inside => ?_)
  rw [map_map,orNull]
  split
  · rfl
  · next some_match =>
    obtain ⟨y,single⟩ := card_eq_one.mp (le_antisymm (few x inside) (Nat.one_le_iff_ne_zero.mpr some_match))
    rw [single]
    rfl

/-- A join with at most one match each keeps the rows that have one. -/
theorem join_map_fst (few : ∀ x ∈ a, (matching on b x).card ≤ 1) :
    (join on a b).map Prod.fst = a.filter (fun x => 0 < (matching on b x).card) := by
  rw [join,Multiset.map_bind,filter_eq_bind]
  refine bind_congr (fun x inside => ?_)
  rw [map_map]
  split
  · next found =>
    obtain ⟨z,single⟩ := card_eq_one.mp (le_antisymm (few x inside) found)
    rw [single]
    rfl
  · next alone =>
    rw [Multiset.card_eq_zero.mp (Nat.eq_zero_of_not_pos alone)]
    rfl

/-- A full join counts every row on the left once. -/
theorem sum_fullJoin_left (few : ∀ x ∈ a, (matching on b x).card ≤ 1) (f : α → M) :
    ((fullJoin on a b).map (fun r => r.1.elim 0 f)).sum = (a.map f).sum := by
  rw [fullJoin,Multiset.map_add,sum_add,map_map,map_map]
  have nulls : ((unmatched on a b).map ((fun r : Option α × Option β => r.1.elim 0 f) ∘ fun y => (none,some y))).sum = 0 :=
    sum_eq_zero (by simp)
  rw [nulls,add_zero]
  conv_rhs => rw [← leftJoin_map_fst few,map_map]
  rfl

/-- A full join counts every row on the right once. -/
theorem sum_fullJoin_right (few : ∀ y ∈ b, (a.filter (fun x => on x y)).card ≤ 1) (g : β → M) :
    ((fullJoin on a b).map (fun r => r.2.elim 0 g)).sum = (b.map g).sum := by
  rw [fullJoin,Multiset.map_add,sum_add,map_map,map_map]
  have left := sum_leftJoin_right on a b g
  have right : ((unmatched on a b).map g).sum =
      (b.map (fun y => if ∀ x ∈ a, on x y = false then g y else 0)).sum := sum_filter _ g b
  rw [show ((leftJoin on a b).map ((fun r : Option α × Option β => r.2.elim 0 g) ∘ fun r => (some r.1,r.2))).sum = _ from left,
    show ((unmatched on a b).map ((fun r : Option α × Option β => r.2.elim 0 g) ∘ fun y => (none,some y))).sum = _ from right,
    ← sum_map_add]
  refine congrArg sum (map_congr rfl (fun y inside => ?_))
  by_cases alone : ∀ x ∈ a, on x y = false
  · have none_match : a.filter (fun x => on x y = true) = 0 := filter_eq_nil.mpr (fun x member => by simp [alone x member])
    rw [none_match,card_zero,zero_nsmul,zero_add,if_pos alone]
  · have one_match : (a.filter (fun x => on x y = true)).card = 1 := by
      refine le_antisymm (few y inside) (card_pos_iff_exists_mem.mpr ?_)
      push Not at alone
      obtain ⟨x,member,matched⟩ := alone
      exact ⟨x,mem_filter.mpr ⟨member,by simpa using matched⟩⟩
    rw [one_match,one_nsmul,if_neg alone,add_zero]

end Sums

section Keyed
variable {A B : Type v} {on : κ × A → κ × B → Bool} {a : Multiset (κ × A)} {b : Multiset (κ × B)} {Comparable : κ → Prop}
  {p : κ → Prop}

theorem matching_key_le_one (onKeys : ∀ x y, on x y = true ↔ x.1 = y.1 ∧ Comparable x.1) (distinct : (b.map Prod.fst).Nodup)
    (x : κ × A) : (matching on b x).card ≤ 1 :=
  matching_le_one distinct (fun y z _ _ on_y on_z => ((onKeys x y).mp on_y).1.symm.trans ((onKeys x z).mp on_z).1)

theorem filter_key_le_one (onKeys : ∀ x y, on x y = true ↔ x.1 = y.1 ∧ Comparable x.1) (distinct : (a.map Prod.fst).Nodup)
    (y : κ × B) : (a.filter (fun x => on x y)).card ≤ 1 :=
  show (matching (fun y x => on x y) a y).card ≤ 1 from matching_le_one distinct
    (fun x z _ _ on_x on_z => ((onKeys x y).mp on_x).1.trans ((onKeys z y).mp on_z).1.symm)

/-- Rows of one key match rows of that key. -/
theorem matching_filter_key [DecidableEq κ] (onKeys : ∀ x y, on x y = true ↔ x.1 = y.1 ∧ Comparable x.1) {k : κ} {x : κ × A}
    (own : x.1 = k) : matching on b x = matching on (b.filter (fun y => y.1 = k)) x := by
  rw [matching,matching,filter_filter]
  refine filter_congr (fun y _ => (and_iff_left_of_imp (fun on_y => ?_)).symm)
  rw [← own,((onKeys x y).mp on_y).1]

/-- The rows of a key in a full join on keys are the full join of the rows of the key. -/
theorem fullJoin_filter_key [DecidableEq κ] (onKeys : ∀ x y, on x y = true ↔ x.1 = y.1 ∧ Comparable x.1) (k : κ) :
    (fullJoin on a b).filter (fun r => (r.1.map Prod.fst).or (r.2.map Prod.fst) = some k) =
      fullJoin on (a.filter (fun x => x.1 = k)) (b.filter (fun y => y.1 = k)) := by
  have left : (leftJoin on a b).filter (fun r => r.1.1 = k) =
      leftJoin on (a.filter (fun x => x.1 = k)) (b.filter (fun y => y.1 = k)) := by
    rw [leftJoin_filter (fun x : κ × A => x.1 = k)]
    exact leftJoin_congr (fun x member => matching_filter_key onKeys (mem_filter.mp member).2)
  have right : (unmatched on a b).filter (fun y => y.1 = k) =
      unmatched on (a.filter (fun x => x.1 = k)) (b.filter (fun y => y.1 = k)) := by
    rw [unmatched,unmatched,filter_filter,filter_filter]
    refine filter_congr (fun y _ => ?_)
    rw [and_comm]
    refine and_congr_left (fun own => forall_congr' (fun x => ?_))
    rw [mem_filter]
    refine ⟨fun alone member => alone member.1,fun alone member => ?_⟩
    by_contra matched
    have on_y : on x y = true := by simpa using matched
    rw [alone ⟨member,((onKeys x y).mp on_y).1.trans own⟩] at on_y
    cases on_y
  rw [fullJoin,fullJoin,filter_add,filter_map,filter_map,← left,← right]
  simp [Function.comp_def]

/-- The keys of a full join: those on the left, and those of the unmatched rows on the right. -/
def fullKeys (on : κ × A → κ × B → Bool) (a : Multiset (κ × A)) (b : Multiset (κ × B)) : Multiset κ :=
  a.map Prod.fst + (unmatched on a b).map Prod.fst

theorem fullJoin_keys (few : ∀ x ∈ a, (matching on b x).card ≤ 1) :
    (fullJoin on a b).filterMap (fun r => (r.1.map Prod.fst).or (r.2.map Prod.fst)) = fullKeys on a b := by
  rw [fullJoin,filterMap_add,filterMap_map,filterMap_map,fullKeys]
  refine congrArg₂ (· + ·) ?_ (filterMap_eq_map Prod.fst ▸ rfl)
  conv_rhs => rw [← leftJoin_map_fst few,map_map]
  rw [← filterMap_eq_map]
  rfl

private theorem mem_unmatched_keys (onKeys : ∀ x y, on x y = true ↔ x.1 = y.1 ∧ Comparable x.1) {k : κ} :
    k ∈ (unmatched on a b).map Prod.fst ↔ k ∈ b.map Prod.fst ∧ (k ∈ a.map Prod.fst → ¬ Comparable k) := by
  simp only [mem_map,unmatched,mem_filter]
  constructor
  · rintro ⟨y,⟨inside,alone⟩,rfl⟩
    refine ⟨⟨y,inside,rfl⟩,?_⟩
    rintro ⟨x,member,same⟩ comparable
    have matched : on x y = true := (onKeys x y).mpr ⟨same,by rw [same]; exact comparable⟩
    rw [alone x member] at matched
    cases matched
  · rintro ⟨⟨y,inside,rfl⟩,alone⟩
    refine ⟨y,⟨inside,fun x member => ?_⟩,rfl⟩
    by_contra matched
    obtain ⟨same,comparable⟩ := (onKeys x y).mp (by simpa using matched)
    exact alone ⟨x,member,same⟩ (by rw [← same]; exact comparable)

private theorem mem_fullKeys (onKeys : ∀ x y, on x y = true ↔ x.1 = y.1 ∧ Comparable x.1) {k : κ} :
    k ∈ fullKeys on a b ↔ k ∈ a.map Prod.fst ∨ k ∈ b.map Prod.fst := by
  rw [fullKeys,Multiset.mem_add,mem_unmatched_keys onKeys]
  by_cases left : k ∈ a.map Prod.fst
  · simp [left]
  · simp only [left,false_or,false_implies,and_true]

/-- The keys repeat only where both sides have a key that cannot be compared. -/
theorem fullKeys_filter_nodup_iff [DecidablePred p] (onKeys : ∀ x y, on x y = true ↔ x.1 = y.1 ∧ Comparable x.1)
    (distinct : (a.map Prod.fst).Nodup) (distinct' : (b.map Prod.fst).Nodup) :
    ((fullKeys on a b).filter p).Nodup ↔ ∀ k, p k → k ∈ a.map Prod.fst → k ∈ b.map Prod.fst → Comparable k := by
  have left : ((a.map Prod.fst).filter p).Nodup := distinct.filter p
  have right : (((unmatched on a b).map Prod.fst).filter p).Nodup :=
    (nodup_of_le (map_le_map (filter_le _ _)) distinct').filter p
  rw [fullKeys,filter_add,nodup_add]
  constructor
  · rintro ⟨_,_,apart⟩ k holds inside inside'
    by_contra incomparable
    refine disjoint_left.mp apart (mem_filter.mpr ⟨inside,holds⟩) (mem_filter.mpr ⟨?_,holds⟩)
    exact (mem_unmatched_keys onKeys).mpr ⟨inside',fun _ => incomparable⟩
  · intro comparable
    refine ⟨left,right,disjoint_left.mpr (fun inside inside' => ?_)⟩
    obtain ⟨inside,holds⟩ := mem_filter.mp inside
    obtain ⟨on_right,alone⟩ := (mem_unmatched_keys onKeys).mp (mem_filter.mp inside').1
    exact alone inside (comparable _ holds inside on_right)

/-- A key that can be compared occurs once, on whatever side it is. -/
theorem count_fullKeys [DecidableEq κ] (onKeys : ∀ x y, on x y = true ↔ x.1 = y.1 ∧ Comparable x.1)
    (distinct : (a.map Prod.fst).Nodup) (distinct' : (b.map Prod.fst).Nodup) {k : κ} (comparable : Comparable k) :
    (fullKeys on a b).count k = if k ∈ a.map Prod.fst ∨ k ∈ b.map Prod.fst then 1 else 0 := by
  have nodup : ((fullKeys on a b).filter (fun k' => k' = k)).Nodup :=
    (fullKeys_filter_nodup_iff onKeys distinct distinct').mpr (fun k' own _ _ => own ▸ comparable)
  rw [← count_filter_of_pos (p := fun k' => k' = k) (rfl : k = k),count_eq_of_nodup nodup]
  simp only [mem_filter,mem_fullKeys onKeys,and_true]

end Keyed

section Relations
variable {A B : Type v} [DecidableEq κ] {on : κ × A → κ × B → Bool} {a : Relation κ A} {b : Relation κ B}

/-- A full join of two relations on their keys: one row for each key of either. -/
theorem fullJoin_rows (onKeys : ∀ x ∈ a.rows, ∀ y ∈ b.rows, (on x y = true ↔ y.1 = x.1)) : fullJoin on a.rows b.rows =
    (a.keys ∪ b.keys).val.map (fun k => ((a.get k).map (fun row => (k,row)),(b.get k).map (fun row => (k,row)))) := by
  have matched : leftJoin on a.rows b.rows = a.rows.map (fun x => (x,(b.get x.1).map (fun row => (x.1,row)))) := by
    refine leftJoin_eq_map (fun x inside => ?_)
    have own : matching on b.rows x = b.rows.filter (fun y => y.1 = x.1) :=
      filter_congr (fun y member => onKeys x inside y member)
    rw [own,b.rows_filter_key _ (fun _ => Iff.rfl)]
    cases b.get x.1 <;> rfl
  have alone : unmatched on a.rows b.rows = b.rows.filter (fun y => y.1 ∉ a.keys) := by
    refine filter_congr (fun y member => ?_)
    rw [Relation.mem_keys,Option.isSome_iff_exists]
    constructor
    · rintro none_match ⟨row,found⟩
      have joined := (onKeys (y.1,row) (Relation.mem_rows.mpr found) y member).mpr rfl
      rw [none_match _ (Relation.mem_rows.mpr found)] at joined
      cases joined
    · intro absent x inside
      by_contra joined
      have same := (onKeys x inside y member).mp (by simpa using joined)
      exact absent ⟨x.2,same ▸ Relation.mem_rows.mp inside⟩
  have keys : (a.keys ∪ b.keys).val = a.keys.val + (b.keys.val.filter (· ∉ a.keys)) := by
    rw [← Finset.union_sdiff_self_eq_union,← Finset.disjUnion_eq_union _ _ Finset.disjoint_sdiff]
    show a.keys.val + (b.keys \ a.keys).val = _
    rw [Finset.sdiff_eq_filter]
    rfl
  have right : (b.rows.filter (fun y => y.1 ∉ a.keys)).map (fun y => ((none : Option (κ × A)),some y)) =
      (b.keys.val.filter (· ∉ a.keys)).map
        (fun k => ((a.get k).map (fun row => (k,row)),(b.get k).map (fun row => (k,row)))) := by
    rw [Relation.rows,filter_filterMap,Multiset.map_filterMap,← filterMap_eq_map,filterMap_filter]
    refine filterMap_congr (fun k inside => ?_)
    obtain ⟨row,found⟩ := Option.isSome_iff_exists.mp ((b.mem_keys k).mp inside)
    by_cases absent : k ∈ a.keys
    · simp [found,absent]
    · have none_there : a.get k = none := by simpa [Relation.mem_keys] using absent
      simp [found,absent,none_there]
  rw [fullJoin,matched,alone,keys,Multiset.map_add,right,Multiset.map_map]
  refine congrArg (· + _) (a.rows_map _ _ (fun k row found => ?_))
  simp [found]

end Relations

section Groups
variable [DecidableEq κ] {key : α → κ} {a : Multiset α}

theorem groupBy_keys (key : α → κ) (a : Multiset α) : (groupBy key a).map Prod.fst = (a.map key).dedup := by
  simp [groupBy]

/-- Every key has one group. -/
theorem groupBy_keys_nodup (key : α → κ) (a : Multiset α) : ((groupBy key a).map Prod.fst).Nodup := by
  rw [groupBy_keys]
  exact nodup_dedup _

theorem mem_groupBy {g : κ × Multiset α} : g ∈ groupBy key a ↔
    (∃ x ∈ a, key x = g.1) ∧ a.filter (fun x => key x = g.1) = g.2 := by
  obtain ⟨k,rows⟩ := g
  simp only [groupBy,mem_map,mem_dedup,Prod.mk.injEq]
  constructor
  · rintro ⟨k',used,rfl,same⟩
    exact ⟨used,same⟩
  · rintro ⟨used,same⟩
    exact ⟨k,used,rfl,same⟩

/-- The group of a key in use. -/
theorem groupBy_filter_key {k : κ} (used : ∃ x ∈ a, key x = k) :
    (groupBy key a).filter (fun g => g.1 = k) = {(k,a.filter (fun x => key x = k))} := by
  have distinct : (groupBy key a).Nodup := .of_map Prod.fst (groupBy_keys_nodup key a)
  refine ((distinct.filter _).ext (nodup_singleton _)).mpr (fun g => ?_)
  rw [mem_filter,mem_groupBy,mem_singleton]
  constructor
  · rintro ⟨⟨_,own⟩,rfl⟩
    rw [own]
  · rintro rfl
    exact ⟨⟨used,rfl⟩,rfl⟩

/-- The groups of the keys that satisfy `p`. -/
theorem groupBy_filter (key : α → κ) (a : Multiset α) (p : κ → Prop) [DecidablePred p] :
    (groupBy key a).filter (fun g => p g.1) = groupBy key (a.filter (fun x => p (key x))) := by
  have distinct (b : Multiset α) : (groupBy key b).Nodup := .of_map Prod.fst (groupBy_keys_nodup key b)
  refine (((distinct a).filter _).ext (distinct _)).mpr ?_
  rintro ⟨k,rows⟩
  rw [mem_filter,mem_groupBy,mem_groupBy]
  by_cases holds : p k
  · have same : (a.filter (fun x => p (key x))).filter (fun x => key x = k) = a.filter (fun x => key x = k) := by
      rw [filter_filter]
      refine filter_congr (fun x _ => and_iff_left_of_imp ?_)
      rintro rfl
      exact holds
    rw [same,and_iff_left holds]
    refine and_congr_left (fun _ => ⟨?_,?_⟩)
    · rintro ⟨x,inside,rfl⟩
      exact ⟨x,mem_filter.mpr ⟨inside,holds⟩,rfl⟩
    · rintro ⟨x,inside,own⟩
      exact ⟨x,(mem_filter.mp inside).1,own⟩
  · refine iff_of_false (fun inside => holds inside.2) ?_
    rintro ⟨⟨x,inside,rfl⟩,_⟩
    exact holds (mem_filter.mp inside).2

/-- The sums of the groups add up to the sum of the rows. -/
theorem sum_groupBy {M : Type u} [AddCommMonoid M] (key : α → κ) (a : Multiset α) (f : α → M) :
    ((groupBy key a).map (fun g => (g.2.map f).sum)).sum = (a.map f).sum := by
  have by_keys : ∀ (keys : Finset κ) (a : Multiset α), (∀ x ∈ a, key x ∈ keys) →
      keys.sum (fun k => ((a.filter (fun x => key x = k)).map f).sum) = (a.map f).sum := by
    intro keys a
    induction a using Multiset.induction_on with
    | empty => simp
    | cons x rest ih =>
      intro inside
      have own : keys.sum (fun k => if key x = k then f x else 0) = f x := by
        rw [Finset.sum_ite_eq,if_pos (inside x (mem_cons_self _ _))]
      have split : ∀ k, (((x ::ₘ rest).filter (fun x => key x = k)).map f).sum =
          (if key x = k then f x else 0) + ((rest.filter (fun x => key x = k)).map f).sum := by
        intro k
        by_cases same : key x = k
        · rw [filter_cons_of_pos rest (p := fun x => key x = k) same,map_cons,sum_cons,if_pos same]
        · rw [filter_cons_of_neg rest (p := fun x => key x = k) same,if_neg same,zero_add]
      simp only [split,Finset.sum_add_distrib,own,ih (fun y member => inside y (mem_cons_of_mem member)),map_cons,sum_cons]
  have grouped := by_keys (a.map key).toFinset a (fun x member => mem_toFinset.mpr (mem_map_of_mem key member))
  rw [← grouped,groupBy,map_map]
  rfl

/-- The same for the groups and the rows whose keys satisfy `p`. -/
theorem sum_groupBy_where {M : Type u} [AddCommMonoid M] (key : α → κ) (a : Multiset α) (f : α → M) (p : κ → Prop)
    [DecidablePred p] :
    ((groupBy key a).map (fun g => if p g.1 then (g.2.map f).sum else 0)).sum =
      (a.map (fun x => if p (key x) then f x else 0)).sum := by
  rw [← sum_groupBy key]
  refine congrArg sum (map_congr rfl (fun g inside => ?_))
  obtain ⟨_,own⟩ := mem_groupBy.mp inside
  have keyed : ∀ x ∈ g.2, key x = g.1 := by
    intro x member
    rw [← own] at member
    exact (mem_filter.mp member).2
  by_cases holds : p g.1
  · rw [if_pos holds]
    exact congrArg sum (map_congr rfl (fun x member => by rw [keyed x member,if_pos holds]))
  · rw [if_neg holds]
    exact (sum_eq_zero (by simpa using fun x member applies => absurd (keyed x member ▸ applies) holds)).symm

end Groups

end Query
