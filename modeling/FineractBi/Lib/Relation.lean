import Mathlib.Data.Finset.Sort
import Mathlib.Data.Finset.Union
import Mathlib.Data.Multiset.Filter

/-!
Finite relations with a primary key, as a database table holds them: a partial
map from keys to rows with finitely many keys. Two relations with the same rows
are equal, and the rows are available as a multiset for queries.
-/
universe u v w

/-- A relation: the row of each key, and the finite set of keys in use. -/
structure Relation (Key : Type u) (Row : Type v) where
  get : Key → Option Row
  keys : Finset Key
  mem_keys : ∀ k, k ∈ keys ↔ (get k).isSome

namespace Relation
variable {Key : Type u} {Row : Type v}

theorem ext_get {a b : Relation Key Row} (same : ∀ k, a.get k = b.get k) : a = b := by
  obtain ⟨getA,keysA,memA⟩ := a
  obtain ⟨getB,keysB,memB⟩ := b
  obtain rfl : getA = getB := funext same
  obtain rfl : keysA = keysB := Finset.ext (fun k => (memA k).trans (memB k).symm)
  rfl

/-- No rows. -/
def empty : Relation Key Row := ⟨fun _ => none,∅,by simp⟩

@[simp] theorem empty_get (k : Key) : (empty : Relation Key Row).get k = none := rfl

/-- Rewrite the rows of the touched keys: `f` gives a key's new row from its old one. -/
def alter [DecidableEq Key] (r : Relation Key Row) (touched : Finset Key) (f : Key → Option Row → Option Row) :
    Relation Key Row where
  get k := if k ∈ touched then f k (r.get k) else r.get k
  keys := (r.keys ∪ touched).filter (fun k => (if k ∈ touched then f k (r.get k) else r.get k).isSome)
  mem_keys k := by
    simp only [Finset.mem_filter,Finset.mem_union,and_iff_right_iff_imp]
    intro present
    by_cases inside : k ∈ touched
    · exact .inr inside
    · simp only [inside,if_false] at present
      exact .inl ((r.mem_keys k).mpr present)

theorem alter_get [DecidableEq Key] (r : Relation Key Row) (touched : Finset Key)
    (f : Key → Option Row → Option Row) (k : Key) :
    (r.alter touched f).get k = if k ∈ touched then f k (r.get k) else r.get k := rfl

/-- The rows of the keys that satisfy `p`. -/
def restrict (r : Relation Key Row) (p : Key → Bool) : Relation Key Row where
  get k := if p k then r.get k else none
  keys := r.keys.filter (fun k => p k)
  mem_keys k := by
    by_cases holds : p k
    · simp [holds,r.mem_keys]
    · simp [holds]

@[simp] theorem restrict_get (r : Relation Key Row) (p : Key → Bool) (k : Key) :
    (r.restrict p).get k = if p k then r.get k else none := rfl

/-- The rows of `a` on the keys that satisfy `p`, those of `b` on the others. -/
def splice [DecidableEq Key] (p : Key → Bool) (a b : Relation Key Row) : Relation Key Row where
  get k := if p k then a.get k else b.get k
  keys := a.keys.filter (fun k => p k) ∪ b.keys.filter (fun k => !p k)
  mem_keys k := by
    by_cases holds : p k
    · simp [holds,a.mem_keys]
    · simp [holds,b.mem_keys]

@[simp] theorem splice_get [DecidableEq Key] (p : Key → Bool) (a b : Relation Key Row) (k : Key) :
    (splice p a b).get k = if p k then a.get k else b.get k := rfl

/-- Every row through `f`; the rows that `f` drops are left out. -/
def filterMap {Row' : Type w} (r : Relation Key Row) (f : Key → Row → Option Row') : Relation Key Row' where
  get k := (r.get k).bind (f k)
  keys := r.keys.filter (fun k => ((r.get k).bind (f k)).isSome)
  mem_keys k := by
    simp only [Finset.mem_filter,r.mem_keys,and_iff_right_iff_imp]
    exact Option.isSome_of_isSome_bind

@[simp] theorem filterMap_get {Row' : Type w} (r : Relation Key Row) (f : Key → Row → Option Row') (k : Key) :
    (r.filterMap f).get k = (r.get k).bind (f k) := rfl

/-- The relation whose rows are computed from their keys, over a finite domain. -/
def tabulate [DecidableEq Key] (domain : Finset Key) (f : Key → Option Row) : Relation Key Row where
  get k := if k ∈ domain then f k else none
  keys := domain.filter (fun k => (f k).isSome)
  mem_keys k := by
    by_cases inside : k ∈ domain
    · simp [inside]
    · simp [inside]

@[simp] theorem tabulate_get [DecidableEq Key] (domain : Finset Key) (f : Key → Option Row) (k : Key) :
    (tabulate domain f).get k = if k ∈ domain then f k else none := rfl

/-- The rows of both, those of `a` first. -/
def union [DecidableEq Key] (a b : Relation Key Row) : Relation Key Row where
  get k := (a.get k).or (b.get k)
  keys := a.keys ∪ b.keys
  mem_keys k := by simp [a.mem_keys,b.mem_keys]

@[simp] theorem union_get [DecidableEq Key] (a b : Relation Key Row) (k : Key) :
    (a.union b).get k = (a.get k).or (b.get k) := rfl

/-- The rows with their keys, as a query reads them. -/
def rows (r : Relation Key Row) : Multiset (Key × Row) :=
  r.keys.val.filterMap (fun k => (r.get k).map (fun row => (k,row)))

@[simp] theorem mem_rows {r : Relation Key Row} {k : Key} {row : Row} : (k,row) ∈ r.rows ↔ r.get k = some row := by
  unfold rows
  rw [Multiset.mem_filterMap]
  constructor
  · rintro ⟨k',_,found⟩
    obtain ⟨row',at_k',same⟩ := Option.map_eq_some_iff.mp found
    obtain ⟨rfl,rfl⟩ := Prod.mk.inj same
    exact at_k'
  · intro found
    exact ⟨k,(r.mem_keys k).mpr (by simp [found]),by simp [found]⟩

theorem rows_nodup (r : Relation Key Row) : r.rows.Nodup := by
  refine Multiset.Nodup.filterMap _ ?_ r.keys.nodup
  intro a b pair inA inB
  simp only [Option.mem_def,Option.map_eq_some_iff] at inA inB
  obtain ⟨_,_,rfl⟩ := inA
  obtain ⟨_,_,same⟩ := inB
  exact (Prod.mk.inj same).1.symm

/-- Two rows of one key are the same. -/
theorem rows_key_injective {r : Relation Key Row} : ∀ a ∈ r.rows, ∀ b ∈ r.rows, a.1 = b.1 → a = b := by
  rintro ⟨k,row⟩ inside ⟨k',row'⟩ inside' same
  obtain rfl : k = k' := same
  rw [mem_rows] at inside inside'
  rw [Option.some.inj (inside.symm.trans inside')]

/-- The rows through a function that the keys determine. -/
theorem rows_map {C : Type w} (r : Relation Key Row) (f : Key × Row → C) (g : Key → C)
    (same : ∀ k row, r.get k = some row → f (k,row) = g k) : r.rows.map f = r.keys.val.map g := by
  rw [rows,Multiset.map_filterMap,← Multiset.filterMap_eq_map,Multiset.filterMap_eq_bind,Multiset.filterMap_eq_bind]
  refine Multiset.bind_congr (fun k inside => ?_)
  obtain ⟨row,found⟩ := Option.isSome_iff_exists.mp ((r.mem_keys k).mp inside)
  simp [found,same k row found]

theorem rows_keys (r : Relation Key Row) : r.rows.map Prod.fst = r.keys.val :=
  (r.rows_map Prod.fst id (fun _ _ _ => rfl)).trans (Multiset.map_id _)

/-- The rows of one key. -/
theorem rows_filter_key [DecidableEq Key] (r : Relation Key Row) (p : Key × Row → Prop) [DecidablePred p] {k : Key}
    (own : ∀ entry, p entry ↔ entry.1 = k) : r.rows.filter p = (r.get k).elim 0 (fun row => {(k,row)}) := by
  refine ((r.rows_nodup.filter p).ext ?_).mpr ?_
  · cases r.get k with
    | none => exact Multiset.nodup_zero
    | some row => exact Multiset.nodup_singleton _
  · rintro ⟨k',row⟩
    rw [Multiset.mem_filter,mem_rows,own]
    constructor
    · rintro ⟨found,rfl⟩
      simp [found]
    · intro inside
      cases at_k : r.get k with
      | none => simp [at_k] at inside
      | some row' =>
        simp only [at_k,Option.elim_some,Multiset.mem_singleton,Prod.mk.injEq] at inside
        obtain ⟨rfl,rfl⟩ := inside
        exact ⟨at_k,rfl⟩

/-- The rows of the keys that stay, with their new rows. -/
theorem rows_filterMap {Row' : Type w} (r : Relation Key Row) (f : Key → Row → Option Row') :
    (r.filterMap f).rows = r.rows.filterMap (fun entry => (f entry.1 entry.2).map (fun row => (entry.1,row))) := by
  have keyed : ∀ k k' row row' (found : (k',row') ∈ (f k row).map (fun row => (k,row))), k = k' := by
    intro k k' row row' found
    obtain ⟨_,_,same⟩ := Option.map_eq_some_iff.mp found
    exact (Prod.mk.inj same).1
  refine ((rows_nodup _).ext ?_).mpr ?_
  · rw [rows,Multiset.filterMap_filterMap]
    refine Multiset.Nodup.filterMap _ ?_ r.keys.nodup
    rintro k k' ⟨k'',row'⟩ inside inside'
    obtain ⟨⟨_,row⟩,found,there⟩ := Option.bind_eq_some_iff.mp inside
    obtain ⟨⟨_,row₂⟩,found₂,there₂⟩ := Option.bind_eq_some_iff.mp inside'
    obtain ⟨_,_,same⟩ := Option.map_eq_some_iff.mp found
    obtain ⟨_,_,same₂⟩ := Option.map_eq_some_iff.mp found₂
    obtain ⟨rfl,rfl⟩ := Prod.mk.inj same
    obtain ⟨rfl,rfl⟩ := Prod.mk.inj same₂
    exact (keyed _ _ _ _ there).trans (keyed _ _ _ _ there₂).symm
  · rintro ⟨k,row'⟩
    rw [mem_rows,filterMap_get,Multiset.mem_filterMap,Option.bind_eq_some_iff]
    constructor
    · rintro ⟨row,found,there⟩
      exact ⟨(k,row),mem_rows.mpr found,by simp [there]⟩
    · rintro ⟨⟨k₂,row⟩,inside,there⟩
      obtain rfl : k₂ = k := keyed _ _ _ _ there
      obtain ⟨_,found,same⟩ := Option.map_eq_some_iff.mp there
      obtain ⟨_,rfl⟩ := Prod.mk.inj same
      exact ⟨row,mem_rows.mp inside,found⟩

/-- The rows after every row has been rewritten. -/
theorem rows_filterMap_some {Row' : Type w} (r : Relation Key Row) (g : Key → Row → Row') :
    (r.filterMap (fun k row => some (g k row))).rows = r.rows.map (fun entry => (entry.1,g entry.1 entry.2)) := by
  rw [rows_filterMap,← Multiset.filterMap_eq_map]
  rfl

/-- The rows as a finite set. -/
def rowSet (r : Relation Key Row) : Finset (Key × Row) := ⟨r.rows,r.rows_nodup⟩

@[simp] theorem mem_rowSet {r : Relation Key Row} {entry : Key × Row} :
    entry ∈ r.rowSet ↔ r.get entry.1 = some entry.2 := mem_rows

/-- Keys sort by their own order. -/
local instance keys_trans [LinearOrder Key] : IsTrans Key (fun a b => a ≤ b) := inferInstance

local instance keys_antisymm [LinearOrder Key] : Std.Antisymm (fun a b : Key => a ≤ b) := inferInstance

local instance keys_total [LinearOrder Key] : Std.Total (fun a b : Key => a ≤ b) := inferInstance

/-- The rows in the order of their keys. -/
def scan [LinearOrder Key] (r : Relation Key Row) : List (Key × Row) :=
  (r.keys.sort (· ≤ ·)).filterMap (fun k => (r.get k).map (fun row => (k,row)))

theorem scan_rows [LinearOrder Key] (r : Relation Key Row) : (r.scan : Multiset (Key × Row)) = r.rows := by
  rw [scan,← Multiset.filterMap_coe,Finset.sort_eq,rows]

@[simp] theorem mem_scan [LinearOrder Key] {r : Relation Key Row} {k : Key} {row : Row} :
    (k,row) ∈ r.scan ↔ r.get k = some row := by
  rw [← Multiset.mem_coe,scan_rows,mem_rows]

end Relation
