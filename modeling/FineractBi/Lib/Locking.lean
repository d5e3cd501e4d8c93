import Mathlib.Logic.Relation
import Mathlib.Logic.Function.Basic
import Mathlib.Data.List.Sort
import Mathlib.Data.List.Dedup
import FineractBi.Lib.Runs

/-!
Transactions that take locks one after another and keep them to their end. A
transaction's program is the list of its requests; what it holds is a part of
the program that it has gone through. A wait graph with a rank that grows along
every wait of a waiting transaction has no cycle.
-/
namespace Locking
open Runs
universe u v w
variable {Owner : Type u} {Key : Type v}

inductive Mode
  | shared | exclusive
  deriving DecidableEq, Repr

/-- Two shared locks are the only compatible ones. -/
def Mode.conflicts : Mode → Mode → Bool
  | .shared, .shared => false
  | _, _ => true

private theorem Mode.conflicts_comm (m n : Mode) : m.conflicts n = n.conflicts m := by
  cases m <;> cases n <;> rfl

structure Request (Key : Type v) where
  key : Key
  mode : Mode
  deriving DecidableEq, Repr

/-- A running transaction: whose it is, the locks it holds and those it will still ask for. -/
structure Txn (Owner : Type u) (Key : Type v) where
  owner : Owner
  held : List (Request Key)
  wanted : List (Request Key)

abbrev State (Owner : Type u) (Key : Type v) := Nat → Option (Txn Owner Key)

/-- No transaction runs. -/
def idle : State Owner Key := fun _ => none

/-- `other` holds a lock that a request of `id` conflicts with. -/
def Blocks (s : State Owner Key) (id : Nat) (r : Request Key) (other : Nat) : Prop :=
  other ≠ id ∧ ∃ u, s other = some u ∧ ∃ h ∈ u.held, h.key = r.key ∧ h.mode.conflicts r.mode = true

inductive Event (Owner : Type u)
  | begin (id : Nat) (owner : Owner)
  | acquire (id : Nat)
  | finish (id : Nat)

/-- A transaction begins, is granted its next request, or ends (commit or rollback, at any
    moment) and gives all its locks back. -/
inductive Step (program : Owner → List (Request Key)) : State Owner Key → Event Owner → State Owner Key → Prop
  | begin {s : State Owner Key} {id : Nat} (owner : Owner) (free : s id = none) :
      Step program s (.begin id owner) (Function.update s id (some ⟨owner,[],program owner⟩))
  | acquire {s : State Owner Key} {id : Nat} {t : Txn Owner Key} {r : Request Key} {rest : List (Request Key)}
      (running : s id = some t) (asked : t.wanted = r :: rest) (granted : ∀ other, ¬ Blocks s id r other) :
      Step program s (.acquire id) (Function.update s id (some ⟨t.owner,t.held ++ [r],rest⟩))
  | finish {s : State Owner Key} {id : Nat} {t : Txn Owner Key} (running : s id = some t) :
      Step program s (.finish id) (Function.update s id none)

/-- The next request of `i` is for a lock that `j` holds. -/
def WaitsFor (s : State Owner Key) (i j : Nat) : Prop :=
  ∃ t r rest, s i = some t ∧ t.wanted = r :: rest ∧ Blocks s i r j

/-- Some transaction waits, over others or at once, for itself. -/
def Deadlock (s : State Owner Key) : Prop := ∃ i, Relation.TransGen (WaitsFor s) i i

/-- Every transaction is on its program, and no two hold conflicting locks. -/
structure Sound (program : Owner → List (Request Key)) (s : State Owner Key) : Prop where
  followed : ∀ id t, s id = some t → t.held ++ t.wanted = program t.owner
  compatible : ∀ i j t u, i ≠ j → s i = some t → s j = some u →
    ∀ a ∈ t.held, ∀ b ∈ u.held, a.key = b.key → a.mode.conflicts b.mode = false

variable {program : Owner → List (Request Key)}

private theorem sound_idle : Sound program (idle : State Owner Key) :=
  ⟨fun _ _ running => by simp [idle] at running,fun _ _ _ _ _ running => by simp [idle] at running⟩

/-- What runs after an update is the transaction put there or one that ran before. -/
theorem running_update {s : State Owner Key} {id i : Nat} {t : Option (Txn Owner Key)} {u : Txn Owner Key}
    (running : Function.update s id t i = some u) : (i = id ∧ t = some u) ∨ (i ≠ id ∧ s i = some u) := by
  by_cases same : i = id
  · subst same
    exact .inl ⟨rfl,by simpa using running⟩
  · exact .inr ⟨same,by simpa [Function.update_of_ne same] using running⟩

/-- A transaction that takes the place of `id`, or none, keeps the state sound. -/
theorem Sound.update {s : State Owner Key} (sound : Sound program s) (id : Nat) (t : Option (Txn Owner Key))
    (follows : ∀ u, t = some u → u.held ++ u.wanted = program u.owner)
    (fits : ∀ u, t = some u → ∀ j v, j ≠ id → s j = some v →
      ∀ a ∈ u.held, ∀ b ∈ v.held, a.key = b.key → a.mode.conflicts b.mode = false) :
    Sound program (Function.update s id t) := by
  constructor
  · intro i u running
    obtain ⟨rfl,there⟩ | ⟨-,there⟩ := running_update running
    · exact follows u there
    · exact sound.followed i u there
  · intro i j u v apart first second a ha b hb key
    obtain ⟨rfl,placed⟩ | ⟨-,before⟩ := running_update first
    · obtain ⟨rfl,-⟩ | ⟨-,there⟩ := running_update second
      · exact absurd rfl apart
      · exact fits u placed j v apart.symm there a ha b hb key
    · obtain ⟨rfl,placed⟩ | ⟨-,there⟩ := running_update second
      · rw [Mode.conflicts_comm]
        exact fits v placed i u apart before b hb a ha key.symm
      · exact sound.compatible i j u v apart before there a ha b hb key

private theorem sound_step {s s' : State Owner Key} {e : Event Owner} (sound : Sound program s) (step : Step program s e s') :
    Sound program s' := by
  cases step with
  | begin owner free =>
    refine sound.update _ _ ?_ ?_
    · rintro u ⟨⟩
      rfl
    · rintro u ⟨⟩ j v - - a ha
      simp at ha
  | @acquire id t r rest running asked granted =>
    refine sound.update _ _ ?_ ?_
    · rintro u ⟨⟩
      simpa [asked] using sound.followed id t running
    · rintro u ⟨⟩ j v other there a ha b hb key
      rcases List.mem_append.mp ha with old | new
      · exact sound.compatible id j t v other.symm running there a old b hb key
      · obtain rfl : a = r := by simpa using new
        by_contra conflict
        refine granted j ⟨other,v,there,b,hb,key.symm,?_⟩
        rw [Mode.conflicts_comm]
        simpa using conflict
  | finish running => exact sound.update _ none (fun _ gone => by cases gone) (fun _ gone => by cases gone)

theorem sound_run {trace : List (Event Owner)} {s : State Owner Key} (run : Run (Step program) idle trace s) :
    Sound program s :=
  run.stateInvariant sound_idle (fun _ _ _ sound step => sound_step sound step)

/-- Every running transaction has begun. -/
theorem begun_run {trace : List (Event Owner)} {s : State Owner Key} (run : Run (Step program) idle trace s) :
    ∀ id t, s id = some t → Event.begin id t.owner ∈ trace := by
  refine run.invariant (I := fun trace s => ∀ id t, s id = some t → Event.begin id t.owner ∈ trace) ?_ ?_
  · intro id t running
    simp [idle] at running
  · intro trace s e s' begun step id t running
    cases step with
    | begin owner free =>
      obtain ⟨rfl,⟨⟩⟩ | ⟨-,there⟩ := running_update running
      · simp
      · exact List.mem_append_left _ (begun id t there)
    | acquire found asked granted =>
      obtain ⟨rfl,⟨⟩⟩ | ⟨-,there⟩ := running_update running
      · have earlier := begun id _ found
        exact List.mem_append_left _ earlier
      · exact List.mem_append_left _ (begun id t there)
    | finish found =>
      obtain ⟨-,⟨⟩⟩ | ⟨-,there⟩ := running_update running
      exact List.mem_append_left _ (begun id t there)

/-- A request that waits is for a lock that its transaction does not hold yet. -/
theorem Sound.waits_new {s : State Owner Key} (sound : Sound program s) {i j : Nat} {t : Txn Owner Key} {r : Request Key}
    (running : s i = some t) (blocks : Blocks s i r j) : r ∉ t.held := by
  intro held
  obtain ⟨apart,u,there,h,hh,key,conflict⟩ := blocks
  have free := sound.compatible i j t u apart.symm running there r held h hh key.symm
  rw [Mode.conflicts_comm,conflict] at free
  cases free

section
variable {R : Type w} [Preorder R]

/-- A rank that grows along every wait for a transaction that waits itself rules out a deadlock. -/
theorem no_deadlock_of_rank {s : State Owner Key} (rank : Nat → R)
    (grows : ∀ i j k, WaitsFor s i j → WaitsFor s j k → rank i < rank j) : ¬ Deadlock s := by
  rintro ⟨i,cycle⟩
  have along : ∀ j k, Relation.TransGen (WaitsFor s) j k → ∀ l, WaitsFor s k l → rank j < rank k := by
    intro j k path
    induction path with
    | single edge => exact fun l next => grows j _ l edge next
    | tail _ edge ih => exact fun l next => (ih _ edge).trans (grows _ _ l edge next)
  obtain ⟨l,first,_⟩ := Relation.TransGen.head'_iff.mp cycle
  exact lt_irrefl _ (along i i cycle l first)

end

/-- The distinct elements in ascending order. -/
def sortedSet {α : Type v} [LinearOrder α] (xs : List α) : List α := xs.dedup.insertionSort (· ≤ ·)

theorem mem_sortedSet {α : Type v} [LinearOrder α] {xs : List α} {x : α} : x ∈ sortedSet xs ↔ x ∈ xs := by
  rw [sortedSet,List.mem_insertionSort,List.mem_dedup]

theorem sortedSet_ascending {α : Type v} [LinearOrder α] (xs : List α) : (sortedSet xs).Pairwise (· < ·) := by
  have sorted : (sortedSet xs).Pairwise (· ≤ ·) := List.pairwise_insertionSort _ _
  have distinct : (sortedSet xs).Nodup := (List.perm_insertionSort _ _).nodup_iff.mpr (List.nodup_dedup xs)
  exact (sorted.and distinct).imp (fun both => lt_of_le_of_ne both.1 both.2)

/-- In two ascending lists after one another, an element that has not stood before is above
    all that stand before it, if this is so for those of the second list missing in the first. -/
theorem first_above {α : Type v} {le : α → α → Prop} {xs ys before rest : List α} {r : α} (first : xs.Pairwise le)
    (second : ys.Pairwise le) (cross : ∀ a ∈ xs, ∀ b ∈ ys, b ∉ xs → le a b) (split : xs ++ ys = before ++ r :: rest)
    (new : r ∉ before) : ∀ a ∈ before, le a r := by
  intro a ha
  rcases List.append_eq_append_iff.mp split with ⟨gone,rfl,tail⟩ | ⟨more,rfl,tail⟩
  · -- `r` is an element of the second list
    subst tail
    rcases List.mem_append.mp ha with early | late
    · exact cross a early r (by simp) (fun there => new (List.mem_append_left _ there))
    · exact (List.pairwise_append.mp second).2.2 a late r (by simp)
  · cases more with
    | nil =>
      obtain rfl : ys = r :: rest := by simpa using tail.symm
      exact cross a (by simpa using ha) r (by simp) (by simpa using new)
    | cons b more =>
      obtain ⟨rfl,-⟩ : r = b ∧ rest = more ++ ys := by simpa using tail
      exact (List.pairwise_append.mp first).2.2 a ha r (by simp)

end Locking
