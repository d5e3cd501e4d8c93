import Mathlib.Algebra.BigOperators.Group.Finset.Basic
import Mathlib.Algebra.Ring.Int.Defs
import FineractBi.Lib.Paging
import FineractBi.Lib.Relation

/-!
`source_vs_warehouse`: a table of a source and its live rows in the warehouse
are compared by aggregates over buckets of keys, and the buckets that differ are
drilled into by ranges of keys, up to a limit. A bucket comes from a division
that rounds toward zero, its range from one that rounds down.
-/
namespace FineractBi.SourceReconcile
open Paging
universe u

/-- `details` of a result. -/
structure Details where
  bucketSize : Int
  buckets : Nat
  mismatchedBuckets : Nat
  keysOnly : Bool
  missingInWarehouseSample : List Int
  missingInSourceKeys : List Int
  drilldownTruncated : Bool
  deriving DecidableEq, Repr

structure ReconciliationResult where
  sourceId : String
  tableName : String
  comparison : String
  comparedRows : Nat
  mismatchedRows : Nat
  missingLeft : Nat
  missingRight : Nat
  sampleKeys : List Int
  details : Details
  deriving DecidableEq, Repr

def ReconciliationResult.discrepancies (r : ReconciliationResult) : Nat :=
  r.mismatchedRows + r.missingLeft + r.missingRight

def ReconciliationResult.passed (r : ReconciliationResult) (maxDiscrepancies : Int) : Bool :=
  r.discrepancies ≤ maxDiscrepancies

/-- What a side is read as: the key and the hash of every row. -/
abbrev Rows := List (Int × Int)

/-- `pk / bucket_size`, which PostgreSQL rounds toward zero. -/
def bucketOf (size k : Int) : Int := k.tdiv size

/-- `_bucket_aggregates`: the count and the sum of the hashes of a bucket. -/
def bucketAggregates (size : Int) (rows : Rows) (b : Int) : Option (Nat × Int) :=
  let inside := rows.filter (fun row => bucketOf size row.1 = b)
  if inside = [] then none else some (inside.length,(inside.map (·.2)).sum)

def bucketsOf (size : Int) (rows : Rows) : Finset Int := (rows.map (fun row => bucketOf size row.1)).toFinset

/-- `_bucket_rows`: the rows of the keys from `lo` to `hi`. -/
def bucketRows (rows : Rows) (lo hi : Int) : Rows := rows.filter (fun row => lo ≤ row.1 ∧ row.1 < hi)

def keySet (rows : Rows) : Finset Int := (rows.map (·.1)).toFinset

/-- The value of a key in the dictionary of the rows, where a later row wins. -/
def valueAt (rows : Rows) (k : Int) : Option Int := (rows.reverse.find? (fun row => row.1 = k)).map (·.2)

/-- `src_buckets.get(b) != wh_buckets.get(b)`. -/
def mismatched (size : Int) (src wh : Rows) (b : Int) : Bool := bucketAggregates size src b ≠ bucketAggregates size wh b

/-- `mismatched_buckets`. -/
def mismatchedBuckets (size : Int) (src wh : Rows) : List Int :=
  ((bucketsOf size src ∪ bucketsOf size wh).filter (fun b => mismatched size src wh b)).sort (· ≤ ·)

/-- What has been found in the buckets so far. -/
structure Drill where
  missingInWh : List Int
  missingInSrc : List Int
  mismatchedRows : Nat
  sampleKeys : List Int

/-- The keys of `a` that are not in `b`. -/
def missing (a b : Rows) : List Int := (keySet a \ keySet b).sort (· ≤ ·)

def differing (a b : Rows) : List Int :=
  ((keySet a ∩ keySet b).filter (fun k => valueAt a k ≠ valueAt b k)).sort (· ≤ ·)

/-- One bucket of the drill-down. -/
def drill (size : Int) (src wh : Rows) (d : Drill) (b : Int) : Drill :=
  let srcRows := bucketRows src (b * size) ((b + 1) * size)
  let whRows := bucketRows wh (b * size) ((b + 1) * size)
  { missingInWh := d.missingInWh ++ missing srcRows whRows
    missingInSrc := d.missingInSrc ++ missing whRows srcRows
    mismatchedRows := d.mismatchedRows + (differing srcRows whRows).length
    sampleKeys := d.sampleKeys ++ (differing srcRows whRows).take (20 - d.sampleKeys.length) }

/-- `src_expr` and `wh_expr` over the rows of a side; without a row hash only the keys are compared. -/
def expression {V : Type u} (rowHash : Option (Int → V → Int)) (rows : List (Int × V)) : Rows :=
  rows.map (fun row => (row.1,rowHash.elim 0 (fun hash => hash row.1 row.2)))

/-- `source_vs_warehouse`, from the rows of the source and the live rows of the warehouse. -/
def sourceVsWarehouse {V : Type u} (sourceId tableName : String) (size : Int) (maxDrilldownBuckets : Nat)
    (rowHash : Option (Int → V → Int)) (source warehouse : List (Int × V)) : ReconciliationResult :=
  let src := expression rowHash source
  let wh := expression rowHash warehouse
  let mismatched := mismatchedBuckets size src wh
  let found := (mismatched.take maxDrilldownBuckets).foldl (drill size src wh) ⟨[],[],0,[]⟩
  { sourceId := sourceId
    tableName := tableName
    comparison := "source_vs_warehouse"
    comparedRows := ∑ b ∈ bucketsOf size src, ((bucketAggregates size src b).map (·.1)).getD 0
    mismatchedRows := found.mismatchedRows
    missingLeft := found.missingInWh.length
    missingRight := found.missingInSrc.length
    sampleKeys := found.sampleKeys
    details := {
      bucketSize := size
      buckets := (bucketsOf size src ∪ bucketsOf size wh).card
      mismatchedBuckets := mismatched.length
      keysOnly := rowHash.isNone
      missingInWarehouseSample := found.missingInWh.take 20
      missingInSourceKeys := found.missingInSrc
      drilldownTruncated := maxDrilldownBuckets < mismatched.length } }

section
variable {size : Int} {src wh : Rows} {b k : Int}

theorem mem_keySet {rows : Rows} : k ∈ keySet rows ↔ ∃ h, (k,h) ∈ rows := by
  simp [keySet]

private theorem aggregates_eq_none {rows : Rows} :
    bucketAggregates size rows b = none ↔ rows.filter (fun row => bucketOf size row.1 = b) = [] := by
  simp only [bucketAggregates]
  split
  · next empty => simp [empty]
  · next occupied => simp [occupied]

private theorem not_mem_bucketsOf {rows : Rows} (outside : b ∉ bucketsOf size rows) : bucketAggregates size rows b = none := by
  rw [aggregates_eq_none,List.filter_eq_nil_iff]
  intro row inside own
  exact outside (by simpa [bucketsOf] using ⟨row.1,⟨row.2,inside⟩,by simpa using own⟩)

/-- A bucket is drilled into when its aggregates differ and fewer than the limit before it do. -/
theorem mem_drilled {limit : Nat} {uneven : Finset Int}
    (differs : ∀ b, b ∈ uneven ↔ bucketAggregates size src b ≠ bucketAggregates size wh b) :
    b ∈ (mismatchedBuckets size src wh).take limit ↔ b ∈ uneven ∧ (uneven.filter (· < b)).card < limit := by
  have all : (bucketsOf size src ∪ bucketsOf size wh).filter (fun b => mismatched size src wh b) = uneven := by
    ext c
    rw [Finset.mem_filter,mismatched,decide_eq_true_eq,← differs,Finset.mem_union]
    refine ⟨And.right,fun inside => ⟨?_,inside⟩⟩
    by_contra outside
    rw [not_or] at outside
    exact (differs c).mp inside ((not_mem_bucketsOf outside.1).trans (not_mem_bucketsOf outside.2).symm)
  have paged := mem_page_iff (s := bucketsOf size src ∪ bucketsOf size wh) (n := limit) (x := b)
    (mismatched size src wh)
  rw [all] at paged
  exact paged

private theorem mem_bucketRows {rows : Rows} {row : Int × Int} (positive : 0 < size) :
    row ∈ bucketRows rows (b * size) ((b + 1) * size) ↔ row ∈ rows ∧ row.1 / size = b := by
  rw [bucketRows,List.mem_filter,decide_eq_true_eq,← Int.le_ediv_iff_mul_le positive,← Int.ediv_lt_iff_lt_mul positive]
  refine and_congr_right (fun _ => ?_)
  omega

private theorem mem_keySet_bucketRows {rows : Rows} (positive : 0 < size) :
    k ∈ keySet (bucketRows rows (b * size) ((b + 1) * size)) ↔ k ∈ keySet rows ∧ k / size = b := by
  simp [mem_keySet,mem_bucketRows positive]

/-- The keys that a drill-down finds in the warehouse only. -/
theorem mem_missingInSrc (positive : 0 < size) (buckets : List Int) (d : Drill) :
    k ∈ (buckets.foldl (drill size src wh) d).missingInSrc ↔
      k ∈ d.missingInSrc ∨ (k ∈ keySet wh ∧ k ∉ keySet src) ∧ k / size ∈ buckets := by
  induction buckets generalizing d with
  | nil => simp
  | cons b rest ih =>
    rw [List.foldl_cons,ih]
    have here : k ∈ (drill size src wh d b).missingInSrc ↔
        k ∈ d.missingInSrc ∨ (k ∈ keySet wh ∧ k ∉ keySet src) ∧ k / size = b := by
      simp only [drill,missing,List.mem_append,Finset.mem_sort,Finset.mem_sdiff,mem_keySet_bucketRows positive]
      tauto
    rw [here,List.mem_cons]
    tauto

/-- The differences that a drill-down counts. -/
def Drill.count (d : Drill) : Nat := d.mismatchedRows + d.missingInWh.length + d.missingInSrc.length

/-- The keys of a bucket's range that a drill-down counts. -/
def foundIn (size : Int) (src wh : Rows) (b : Int) : Finset Int :=
  let srcRows := bucketRows src (b * size) ((b + 1) * size)
  let whRows := bucketRows wh (b * size) ((b + 1) * size)
  (keySet srcRows \ keySet whRows) ∪ (keySet whRows \ keySet srcRows) ∪
    (keySet srcRows ∩ keySet whRows).filter (fun k => valueAt srcRows k ≠ valueAt whRows k)

private theorem drill_count (d : Drill) : (drill size src wh d b).count = d.count + (foundIn size src wh b).card := by
  have apart : Disjoint (keySet (bucketRows src (b * size) ((b + 1) * size)) \ keySet (bucketRows wh (b * size) ((b + 1) * size)))
      (keySet (bucketRows wh (b * size) ((b + 1) * size)) \ keySet (bucketRows src (b * size) ((b + 1) * size))) :=
    disjoint_sdiff_sdiff
  rw [foundIn,Finset.card_union_of_disjoint,Finset.card_union_of_disjoint apart]
  · simp only [drill,Drill.count,missing,differing,List.length_append,Finset.length_sort]
    omega
  · rw [Finset.disjoint_left]
    intro k one both
    simp only [Finset.mem_union,Finset.mem_sdiff,Finset.mem_filter,Finset.mem_inter] at one both
    tauto

/-- The ranges of the buckets do not overlap, so a drill-down counts each key once. -/
theorem foldl_count {counted : Finset Int}
    (found : ∀ b, foundIn size src wh b = counted.filter (fun k => k / size = b)) (buckets : List Int)
    (distinct : buckets.Nodup) (d : Drill) :
    (buckets.foldl (drill size src wh) d).count = d.count + (counted.filter (fun k => k / size ∈ buckets)).card := by
  induction buckets generalizing d with
  | nil => simp
  | cons b rest ih =>
    obtain ⟨fresh,distinct⟩ := List.nodup_cons.mp distinct
    have parts : counted.filter (fun k => k / size ∈ b :: rest) =
        counted.filter (fun k => k / size = b) ∪ counted.filter (fun k => k / size ∈ rest) := by
      ext k
      simp only [List.mem_cons,Finset.mem_filter,Finset.mem_union]
      tauto
    have apart : Disjoint (counted.filter (fun k => k / size = b)) (counted.filter (fun k => k / size ∈ rest)) := by
      rw [Finset.disjoint_filter]
      rintro k _ rfl
      exact fresh
    rw [List.foldl_cons,ih distinct,drill_count,found,parts,Finset.card_union_of_disjoint apart]
    omega

end

section
variable {V : Type u} {rowHash : Int → V → Int} {size : Int} {k b : Int}

/-- What a side with these rows is read as, with the hashes of the rows. -/
def hashed (rowHash : Int → V → Int) (side : Relation Int V) : Rows := expression (some rowHash) side.scan

private theorem mem_hashed {side : Relation Int V} {h : Int} :
    (k,h) ∈ hashed rowHash side ↔ ∃ v, side.get k = some v ∧ rowHash k v = h := by
  simp [hashed,expression]

private theorem keySet_hashed (side : Relation Int V) : k ∈ keySet (hashed rowHash side) ↔ (side.get k).isSome := by
  simp [mem_keySet,mem_hashed,Option.isSome_iff_exists]

private theorem valueAt_bucketRows (positive : 0 < size) (side : Relation Int V) (inside : k / size = b) :
    valueAt (bucketRows (hashed rowHash side) (b * size) ((b + 1) * size)) k = (side.get k).map (rowHash k) := by
  unfold valueAt
  cases found : (bucketRows (hashed rowHash side) (b * size) ((b + 1) * size)).reverse.find? (fun row => row.1 = k) with
  | none =>
    rw [List.find?_eq_none] at found
    cases at_k : side.get k with
    | none => rfl
    | some v =>
      have there : (k,rowHash k v) ∈ bucketRows (hashed rowHash side) (b * size) ((b + 1) * size) :=
        (mem_bucketRows positive).mpr ⟨mem_hashed.mpr ⟨v,at_k,rfl⟩,inside⟩
      exact absurd (decide_eq_true rfl) (found _ (List.mem_reverse.mpr there))
  | some row =>
    obtain ⟨k',h⟩ := row
    obtain rfl : k' = k := by simpa using List.find?_some found
    have there := (mem_bucketRows positive).mp (List.mem_reverse.mp (List.mem_of_find?_eq_some found))
    obtain ⟨v,at_k,rfl⟩ := mem_hashed.mp there.1
    simp [at_k]

/-- A row of one of the sides. -/
def Compared (source warehouse : Relation Int V) (row : Int × V) : Prop :=
  source.get row.1 = some row.2 ∨ warehouse.get row.1 = some row.2

/-- The row hash is injective on the compared rows. -/
def HashInjective (rowHash : Int → V → Int) (source warehouse : Relation Int V) : Prop :=
  ∀ a b, Compared source warehouse a → Compared source warehouse b → rowHash a.1 a.2 = rowHash b.1 b.2 → a = b

/-- The hashes of the rows of a bucket. -/
def bucketHashes (rowHash : Int → V → Int) (size : Int) (side : Relation Int V) (b : Int) : Multiset Int :=
  (side.rows.filter (fun row => bucketOf size row.1 = b)).map (fun row => rowHash row.1 row.2)

/-- Different multisets of hashes in a bucket have different counts or sums. -/
def AggregatesTell (rowHash : Int → V → Int) (size : Int) (source warehouse : Relation Int V) : Prop :=
  ∀ b, (bucketHashes rowHash size source b).card = (bucketHashes rowHash size warehouse b).card →
    (bucketHashes rowHash size source b).sum = (bucketHashes rowHash size warehouse b).sum →
    bucketHashes rowHash size source b = bucketHashes rowHash size warehouse b

private theorem hashes_listed (side : Relation Int V) (b : Int) :
    (((hashed rowHash side).filter (fun row => bucketOf size row.1 = b)).map (·.2) : Multiset Int) =
      bucketHashes rowHash size side b := by
  rw [bucketHashes,← Relation.scan_rows,Multiset.filter_coe,Multiset.map_coe,hashed,expression,List.filter_map,List.map_map]
  rfl

private theorem aggregates_hashed (side : Relation Int V) (b : Int) : bucketAggregates size (hashed rowHash side) b =
    if bucketHashes rowHash size side b = 0 then none
    else some ((bucketHashes rowHash size side b).card,(bucketHashes rowHash size side b).sum) := by
  simp only [← hashes_listed,bucketAggregates,Multiset.coe_eq_zero,List.map_eq_nil_iff,Multiset.coe_card,
    List.length_map,Multiset.sum_coe]

private theorem mem_bucketHashes {side : Relation Int V} {h : Int} : h ∈ bucketHashes rowHash size side b ↔
    ∃ k v, side.get k = some v ∧ bucketOf size k = b ∧ rowHash k v = h := by
  simp only [bucketHashes,Multiset.mem_map,Multiset.mem_filter,Prod.exists,Relation.mem_rows]
  constructor
  · rintro ⟨k,v,⟨found,inside⟩,same⟩
    exact ⟨k,v,found,inside,same⟩
  · rintro ⟨k,v,found,inside,same⟩
    exact ⟨k,v,⟨found,inside⟩,same⟩

/-- With the same hashes in its bucket on both sides, a row of one side is in the other. -/
theorem row_of_hashes {a b : Relation Int V} (injective : HashInjective rowHash a b) {v : V} (found : a.get k = some v)
    (same : bucketHashes rowHash size a (bucketOf size k) = bucketHashes rowHash size b (bucketOf size k)) :
    b.get k = some v := by
  have there : rowHash k v ∈ bucketHashes rowHash size b (bucketOf size k) :=
    same ▸ mem_bucketHashes.mpr ⟨k,v,found,rfl,rfl⟩
  obtain ⟨k',v',found',_,equal⟩ := mem_bucketHashes.mp there
  obtain ⟨rfl,rfl⟩ := Prod.mk.inj (injective (k',v') (k,v) (.inr found') (.inl found) equal)
  exact found'

variable [DecidableEq V]

/-- The keys that are on one side only or whose values differ. -/
def differingKeys (source warehouse : Relation Int V) : Finset Int :=
  (source.keys ∪ warehouse.keys).filter (fun k => source.get k ≠ warehouse.get k)

private theorem mem_differingKeys {source warehouse : Relation Int V} :
    k ∈ differingKeys source warehouse ↔ source.get k ≠ warehouse.get k := by
  rw [differingKeys,Finset.mem_filter,Finset.mem_union,source.mem_keys,warehouse.mem_keys,and_iff_right_iff_imp]
  intro differ
  by_contra absent
  rw [not_or,Option.not_isSome_iff_eq_none,Option.not_isSome_iff_eq_none] at absent
  exact differ (absent.1.trans absent.2.symm)

private theorem foundIn_eq (positive : 0 < size) {source warehouse : Relation Int V}
    (injective : HashInjective rowHash source warehouse) (b : Int) :
    foundIn size (hashed rowHash source) (hashed rowHash warehouse) b =
      (differingKeys source warehouse).filter (fun k => k / size = b) := by
  ext k
  simp only [foundIn,Finset.mem_union,Finset.mem_sdiff,Finset.mem_filter,Finset.mem_inter,
    mem_keySet_bucketRows positive,keySet_hashed,mem_differingKeys]
  by_cases inside : k / size = b
  · rw [valueAt_bucketRows positive source inside,valueAt_bucketRows positive warehouse inside]
    cases at_source : source.get k with
    | none => cases at_warehouse : warehouse.get k <;> simp [inside]
    | some v =>
      cases at_warehouse : warehouse.get k with
      | none => simp [inside]
      | some v' =>
        have same : rowHash k v = rowHash k v' → v = v' := fun equal =>
          (Prod.mk.inj (injective (k,v) (k,v') (.inl at_source) (.inr at_warehouse) equal)).2
        simp only [inside,Option.isSome_some,Option.map_some,ne_eq,Option.some.injEq,and_self,not_true,and_false,
          false_or,true_and,and_true]
        exact not_congr ⟨same,fun equal => congrArg _ equal⟩
  · simp [inside]

/-- The aggregates of a bucket differ exactly when a key of the bucket does. -/
theorem uneven_iff {source warehouse : Relation Int V} (injective : HashInjective rowHash source warehouse)
    (tell : AggregatesTell rowHash size source warehouse) (b : Int) :
    b ∈ (differingKeys source warehouse).image (bucketOf size) ↔
      bucketAggregates size (hashed rowHash source) b ≠ bucketAggregates size (hashed rowHash warehouse) b := by
  rw [aggregates_hashed,aggregates_hashed,Finset.mem_image]
  constructor
  · rintro ⟨k,differ,rfl⟩ equal
    have same : bucketHashes rowHash size source (bucketOf size k) = bucketHashes rowHash size warehouse (bucketOf size k) := by
      split at equal <;> split at equal
      · next none_left none_right => rw [none_left,none_right]
      · cases equal
      · cases equal
      · obtain ⟨count,total⟩ := Prod.mk.inj (Option.some.inj equal)
        exact tell _ count total
    refine mem_differingKeys.mp differ (Option.ext (fun v => ?_))
    exact ⟨fun found => row_of_hashes injective found same,fun found => row_of_hashes (b := source)
      (fun x y inX inY => injective x y inX.symm inY.symm) found same.symm⟩
  · intro uneven
    by_contra even
    push Not at even
    have agree : ∀ k, bucketOf size k = b → source.get k = warehouse.get k := by
      intro k inside
      by_contra differ
      exact even k (mem_differingKeys.mpr differ) inside
    have same : bucketHashes rowHash size source b = bucketHashes rowHash size warehouse b := by
      have rows : source.rows.filter (fun row => bucketOf size row.1 = b) =
          warehouse.rows.filter (fun row => bucketOf size row.1 = b) := by
        refine ((source.rows_nodup.filter _).ext (warehouse.rows_nodup.filter _)).mpr ?_
        rintro ⟨k,v⟩
        rw [Multiset.mem_filter,Multiset.mem_filter,Relation.mem_rows,Relation.mem_rows]
        exact and_congr_left (fun inside => by rw [agree k inside])
      rw [bucketHashes,bucketHashes,rows]
    exact uneven (by rw [same])

/-- The range that holds a key is that of a bucket with a difference, and it is drilled into. -/
def Reached (size : Int) (limit : Nat) (source warehouse : Relation Int V) (k : Int) : Prop :=
  k / size ∈ (differingKeys source warehouse).image (bucketOf size) ∧
    (((differingKeys source warehouse).image (bucketOf size)).filter (· < k / size)).card < limit

instance (size : Int) (limit : Nat) (source warehouse : Relation Int V) (k : Int) :
    Decidable (Reached size limit source warehouse k) := inferInstanceAs (Decidable (_ ∧ _))

/-- The discrepancies of a result are the differing keys whose ranges are drilled into. -/
theorem discrepancies_eq (sourceId tableName : String) (positive : 0 < size) (limit : Nat)
    {source warehouse : Relation Int V} (injective : HashInjective rowHash source warehouse)
    (tell : AggregatesTell rowHash size source warehouse) :
    (sourceVsWarehouse sourceId tableName size limit (some rowHash) source.scan warehouse.scan).discrepancies =
      ((differingKeys source warehouse).filter (Reached size limit source warehouse)).card := by
  have distinct : ((mismatchedBuckets size (hashed rowHash source) (hashed rowHash warehouse)).take limit).Nodup :=
    (Finset.sort_nodup _ _).sublist (List.take_sublist _ _)
  have counted := foldl_count (foundIn_eq positive injective) _ distinct ⟨[],[],0,[]⟩
  have reached : (differingKeys source warehouse).filter
        (fun k => k / size ∈ (mismatchedBuckets size (hashed rowHash source) (hashed rowHash warehouse)).take limit) =
      (differingKeys source warehouse).filter (Reached size limit source warehouse) :=
    Finset.filter_congr (fun k _ => mem_drilled (uneven_iff injective tell))
  rw [reached] at counted
  exact counted.trans (by simp [Drill.count])

/-- A passing comparison bounds the differing keys at every tolerance exactly when every
    differing key is reached. -/
theorem passed_bounds_iff (sourceId tableName : String) (size : Int) (positive : 0 < size) (limit : Nat)
    (rowHash : Int → V → Int) (source warehouse : Relation Int V) (injective : HashInjective rowHash source warehouse)
    (tell : AggregatesTell rowHash size source warehouse) :
    (∀ m : Int, (sourceVsWarehouse sourceId tableName size limit (some rowHash) source.scan warehouse.scan).passed m = true →
        (differingKeys source warehouse).card ≤ m) ↔
      ∀ k ∈ differingKeys source warehouse, Reached size limit source warehouse k := by
  simp only [ReconciliationResult.passed,decide_eq_true_eq,discrepancies_eq sourceId tableName positive limit injective tell]
  constructor
  · intro bounds k differ
    have all : (differingKeys source warehouse).filter (Reached size limit source warehouse) = differingKeys source warehouse :=
      Finset.eq_of_subset_of_card_le (Finset.filter_subset _ _) (by exact_mod_cast bounds _ le_rfl)
    rw [← all] at differ
    exact (Finset.mem_filter.mp differ).2
  · intro reached m passed
    rwa [Finset.filter_true_of_mem reached] at passed

end

/-- One row, with the key `k`. -/
def oneRow (k : Int) : Relation Int Int := Relation.tabulate {k} (fun _ => some 7)

private theorem oneRow_injective (k : Int) : HashInjective (fun _ v => v) (oneRow k) Relation.empty := by
  have own : ∀ a : Int × Int, Compared (oneRow k) Relation.empty a → a = (k,7) := by
    rintro ⟨k',v⟩ compared
    simp only [Compared,oneRow,Relation.tabulate_get,Finset.mem_singleton,Relation.empty_get,reduceCtorEq,or_false] at compared
    split at compared
    · next same => rw [same,← Option.some.inj compared]
    · cases compared
  intro a b inA inB _
  rw [own a inA,own b inB]

private theorem oneRow_tell (k : Int) : AggregatesTell (fun _ v => v) 10 (oneRow k) Relation.empty :=
  fun _ count _ => Multiset.card_eq_zero.mp count

theorem lost_row_fails :
    (sourceVsWarehouse "s" "m_loan" 10 50 (some (fun _ v => v)) (oneRow 3).scan Relation.empty.scan).passed 0 = false := by
  have bounds := (passed_bounds_iff "s" "m_loan" 10 (by decide) 50 (fun _ v => v) (oneRow 3) Relation.empty
    (oneRow_injective 3) (oneRow_tell 3)).mpr (by decide)
  exact Bool.eq_false_iff.mpr (fun passed => absurd (bounds 0 passed) (by decide))

/-- The bucket of -1 is bucket 0, whose range starts at 0: the lost row is not counted. -/
theorem negative_key_passes : HashInjective (fun _ v => v) (oneRow (-1)) Relation.empty ∧
    AggregatesTell (fun _ v => v) 10 (oneRow (-1)) Relation.empty ∧
    (sourceVsWarehouse "s" "m_loan" 10 50 (some (fun _ v => v)) (oneRow (-1)).scan Relation.empty.scan).passed 0 = true ∧
    (differingKeys (oneRow (-1)) Relation.empty).card = 1 :=
  ⟨oneRow_injective (-1),oneRow_tell (-1),by decide +kernel,by decide⟩

end FineractBi.SourceReconcile
