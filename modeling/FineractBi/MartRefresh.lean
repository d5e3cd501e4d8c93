import FineractBi.Lib.Refresh
import FineractBi.PortfolioHealth

/-!
The refresh of `mart_delinquency_par` and `mart_portfolio_health` by the recompute
window: the delete and the insert touch the same groups of date, office and
product, and what a build inserts for a group depends on the rows, the flows and
the names of that group alone.
-/
namespace FineractBi.MartRefresh
open Calendar Query Refresh FineractBi.Contract FineractBi.ApplyBatch FineractBi.Staging FineractBi.LoanSnapshot
open FineractBi.FactBuild FineractBi.FactContent FineractBi.ParMart FineractBi.PortfolioHealth
open FineractBi.RepaymentMart (RecomputeRow RepaymentTransaction PostedRow LoanDimension namesOf onRecompute)

/-- The marts over the fact table. -/
inductive Mart
  | delinquencyPar | portfolioHealth
  deriving DecidableEq, Repr

abbrev Mart.Row : Mart → Type
  | .delinquencyPar => ParRow
  | .portfolioHealth => HealthRow

/-- The group of a row. -/
def Mart.key : (m : Mart) → m.Row → ParKey
  | .delinquencyPar => fun r : ParRow => r.key
  | .portfolioHealth => fun r : HealthRow => r.key

/-- The rows that a build inserts. -/
def Mart.select (h : Hashes) (run : Option MartRun) (fact : Multiset FactEntry) (raw : RawTables) :
    (m : Mart) → Multiset m.Row
  | .delinquencyPar => martDelinquencyPar run fact raw
  | .portfolioHealth => martPortfolioHealth h run fact raw

/-- The join condition of `mart_delete_recompute_window`. -/
def covers (w : RecomputeRow) (k : ParKey) : Bool :=
  k.sourceId = w.sourceId && k.officeId = w.officeId && k.productId = w.productId && w.recomputeFrom ≤ k.snapshotDate

/-- `mart_delete_recompute_window`. -/
def martDeleteRecomputeWindow (m : Mart) (run : MartRun) (rows : Multiset m.Row) : Multiset m.Row :=
  rows.filter (fun r => ∀ w ∈ martRecomputeWindow (fun d => some d.fromDate) run, covers w (m.key r) = false)

/-- The mart after a build, `rows` being its rows before it. -/
def Mart.build (h : Hashes) (m : Mart) (fullRefresh : Bool) (run : MartRun) (fact : Multiset FactEntry) (raw : RawTables)
    (rows : Option (Multiset m.Row)) : Multiset m.Row :=
  match fullRefresh,rows with
  | false,some rows => martDeleteRecomputeWindow m run rows + m.select h (some run) fact raw
  | _,_ => m.select h none fact raw

section Window
variable {run : MartRun} {k : ParKey} {fact : Multiset FactEntry} {raw : RawTables} {h : Hashes}

/-- A dirty row reaches a group. -/
def Reaches (d : DirtyRow) (k : ParKey) : Prop :=
  d.sourceId = k.sourceId ∧ d.officeId = k.officeId ∧ d.productId = k.productId ∧ d.fromDate ≤ k.snapshotDate

instance (d : DirtyRow) (k : ParKey) : Decidable (Reaches d k) := inferInstanceAs (Decidable (_ ∧ _ ∧ _ ∧ _))

/-- A run reads a dirty row that reaches the group. -/
def inWindow (run : MartRun) (k : ParKey) : Bool :=
  decide (∃ d ∈ run.dirty, run.lastRunId < d.runId ∧ d.runId ≤ run.upperRunId ∧ Reaches d k)

private theorem least_mem {dates : Multiset Date} (some_date : dates ≠ 0) : least dates ∈ dates := by
  have nonempty : dates.toFinset.Nonempty := by
    obtain ⟨d,inside⟩ := Multiset.exists_mem_of_ne_zero some_date
    exact ⟨d,Multiset.mem_toFinset.mpr inside⟩
  obtain ⟨d,inside,attained⟩ := Finset.exists_mem_eq_inf dates.toFinset nonempty (fun d => (d : WithTop Date))
  rw [least,attained]
  exact Multiset.mem_toFinset.mp inside

theorem least_le {dates : Multiset Date} {d : Date} (inside : d ∈ dates) : least dates ≤ d := by
  have below : dates.toFinset.inf (fun d => (d : WithTop Date)) ≤ (d : WithTop Date) :=
    Finset.inf_le (Multiset.mem_toFinset.mpr inside)
  rw [least]
  cases first : dates.toFinset.inf (fun d => (d : WithTop Date)) with
  | top => rw [first] at below; exact absurd below (not_le.mpr (WithTop.coe_lt_top d))
  | coe x => rw [first] at below; exact WithTop.coe_le_coe.mp below

private theorem least_le_iff {dates : Multiset Date} {d : Date} (some_date : dates ≠ 0) :
    least dates ≤ d ↔ ∃ x ∈ dates, x ≤ d := by
  constructor
  · intro le
    exact ⟨least dates,least_mem some_date,le⟩
  · rintro ⟨x,inside,le⟩
    exact (least_le inside).trans le

/-- The partition of a dirty row. -/
def partitionOf (d : DirtyRow) : String × Option Int × Option Int := (d.sourceId,d.officeId,d.productId)

/-- The dirty rows that a run reads by a date column. -/
def unreadBy (column : DirtyRow → Option Date) (run : MartRun) : Multiset DirtyRow :=
  run.dirty.filter (fun d => run.lastRunId < d.runId ∧ d.runId ≤ run.upperRunId ∧ (column d).isSome)

section Column
variable {column : DirtyRow → Option Date}

private theorem mem_unreadBy {d : DirtyRow} {x : Date} (dated : column d = some x) :
    d ∈ unreadBy column run ↔ d ∈ run.dirty ∧ run.lastRunId < d.runId ∧ d.runId ≤ run.upperRunId := by
  simp [unreadBy,dated]

/-- The window begins for a partition with the first of its dirty rows. -/
theorem group_first {g : (String × Option Int × Option Int) × Multiset DirtyRow}
    (grouped : g ∈ groupBy partitionOf (unreadBy column run)) (date : Date) : least (g.2.filterMap column) ≤ date ↔
      ∃ d ∈ unreadBy column run, partitionOf d = g.1 ∧ ∃ x, column d = some x ∧ x ≤ date := by
  obtain ⟨⟨d,inside,keyed⟩,own⟩ := mem_groupBy.mp grouped
  have dated (x : Date) : x ∈ g.2.filterMap column ↔ ∃ d ∈ unreadBy column run, partitionOf d = g.1 ∧ column d = some x := by
    simp only [← own,Multiset.mem_filterMap,Multiset.mem_filter,and_assoc]
  rw [least_le_iff]
  · simp only [dated]
    constructor
    · rintro ⟨x,⟨d,inside,keyed,at_x⟩,le⟩
      exact ⟨d,inside,keyed,x,at_x,le⟩
    · rintro ⟨d,inside,keyed,x,at_x,le⟩
      exact ⟨x,⟨d,inside,keyed,at_x⟩,le⟩
  · intro empty
    obtain ⟨x,at_x⟩ := Option.isSome_iff_exists.mp (Multiset.of_mem_filter inside).2.2
    have member := (dated x).mpr ⟨d,inside,keyed,at_x⟩
    rw [empty] at member
    exact Multiset.notMem_zero _ member

/-- A partition is in the window by a date when one of its dirty rows has a date not after it. -/
theorem window_iff {source : String} {office product : Option Int} {date : Date} :
    (∃ w ∈ martRecomputeWindow column run, source = w.sourceId ∧ office = w.officeId ∧ product = w.productId ∧
      w.recomputeFrom ≤ date) ↔
    ∃ d ∈ run.dirty, run.lastRunId < d.runId ∧ d.runId ≤ run.upperRunId ∧ d.sourceId = source ∧ d.officeId = office ∧
      d.productId = product ∧ ∃ x, column d = some x ∧ x ≤ date := by
  have window : martRecomputeWindow column run = (groupBy partitionOf (unreadBy column run)).map
    (fun g => ⟨g.1.1,g.1.2.1,g.1.2.2,least (g.2.filterMap column)⟩) := rfl
  simp only [window,Multiset.mem_map]
  constructor
  · rintro ⟨_,⟨g,grouped,rfl⟩,source,office,product,begun⟩
    obtain ⟨d,inside,keyed,x,at_x,le⟩ := (group_first grouped date).mp begun
    obtain ⟨dirty,after,upto⟩ := (mem_unreadBy at_x).mp inside
    refine ⟨d,dirty,after,upto,?_,?_,?_,x,at_x,le⟩
    · rw [source,← keyed]; rfl
    · rw [office,← keyed]; rfl
    · rw [product,← keyed]; rfl
  · rintro ⟨d,dirty,after,upto,source,office,product,x,at_x,le⟩
    have inside : d ∈ unreadBy column run := (mem_unreadBy at_x).mpr ⟨dirty,after,upto⟩
    have grouped : (partitionOf d,(unreadBy column run).filter (fun x => partitionOf x = partitionOf d)) ∈
        groupBy partitionOf (unreadBy column run) := mem_groupBy.mpr ⟨⟨d,inside,rfl⟩,rfl⟩
    exact ⟨_,⟨_,grouped,rfl⟩,source.symm,office.symm,product.symm,(group_first grouped date).mpr ⟨d,inside,rfl,x,at_x,le⟩⟩

/-- A row is joined with at most one row of the window. -/
theorem few_windows {A : Type} {on : A → RecomputeRow → Bool} {x : A}
    (fixes : ∀ w w', on x w = true → on x w' = true → (w.sourceId,w.officeId,w.productId) = (w'.sourceId,w'.officeId,w'.productId)) :
    (matching on (martRecomputeWindow column run) x).card ≤ 1 :=
  matching_le_one (martRecomputeWindow_nodup _ run) (fun w w' _ _ on_w on_w' => fixes w w' on_w on_w')

theorem few_recompute {Row : Type} {date : Row → Option Date} (r : (Key × Row) × LoanDimension) :
    (matching (onRecompute date) (martRecomputeWindow column run) r).card ≤ 1 := by
  refine few_windows (fun w w' on_w on_w' => ?_)
  simp only [onRecompute,Bool.and_eq_true,decide_eq_true_eq] at on_w on_w'
  rw [← on_w.1.1.1,← on_w.1.1.2,← on_w.1.2,← on_w'.1.1.1,← on_w'.1.1.2,← on_w'.1.2]

end Column

/-- A group is covered by the window when one of its dirty rows reaches it. -/
theorem covered_iff : (∃ w ∈ martRecomputeWindow (fun d => some d.fromDate) run, covers w k = true) ↔
    inWindow run k = true := by
  simp only [covers,Bool.and_eq_true,decide_eq_true_eq,inWindow,and_assoc]
  rw [window_iff]
  simp [Reaches]

/-- The delete and the insert are a refresh of the groups in the window. -/
theorem build_eq_refresh (m : Mart) (rows : Multiset m.Row) : m.build h false run fact raw (some rows) =
    refresh m.key (inWindow run) rows (m.select h (some run) fact raw) := by
  refine congrArg (· + m.select h (some run) fact raw) (Multiset.filter_congr (fun r _ => ?_))
  rw [← Bool.not_eq_true,← covered_iff]
  simp

private theorem window_matches {A : Type} {on : A → RecomputeRow → Bool} {x : A} (own : ∀ w, on x w = covers w k) :
    0 < (matching on (martRecomputeWindow (fun d => some d.fromDate) run) x).card ↔ inWindow run k = true := by
  rw [← covered_iff,Multiset.card_pos_iff_exists_mem]
  simp only [mem_matching,own]

theorem portfolioBase_eq : portfolioBase (some run) fact = fact.filter (fun f => inWindow run (parKey f)) := by
  have own (f : FactEntry) (w : RecomputeRow) : onWindow f w = covers w (parKey f) := rfl
  have few (f : FactEntry) : (matching onWindow (martRecomputeWindow (fun d => some d.fromDate) run) f).card ≤ 1 := by
    refine few_windows (fun w w' on_w on_w' => ?_)
    simp only [onWindow,Bool.and_eq_true,decide_eq_true_eq] at on_w on_w'
    rw [← on_w.1.1.1,← on_w.1.1.2,← on_w.1.2,← on_w'.1.1.1,← on_w'.1.1.2,← on_w'.1.2]
  rw [portfolioBase,join_map_fst (fun f _ => few f)]
  exact Multiset.filter_congr (fun f _ => window_matches (own f))

/-- The rows of a group are all in the window, or none of them. -/
theorem groupRows_window : groupRows (some run) fact k = if inWindow run k then groupRows none fact k else 0 := by
  rw [groupRows,portfolioBase_eq,Multiset.filter_filter]
  split
  · next within =>
    refine Multiset.filter_congr (fun f _ => and_iff_left_of_imp ?_)
    rintro rfl
    exact within
  · next without =>
    refine Multiset.filter_eq_nil.mpr (fun f _ both => without ?_)
    rw [← both.1]
    exact both.2

private theorem groupFlows_window (within : inWindow run k = true) :
    groupFlows h (some run) raw k = groupFlows h none raw k := by
  rw [groupFlows,groupFlows,flowRows,flowRows]
  simp only [join_map_fst (fun r _ => few_recompute r),Multiset.filter_filter]
  refine congrArg (Multiset.map Prod.fst) (Multiset.filter_congr (fun r _ => ?_))
  refine and_congr_right (fun keyed => and_iff_left_of_imp (fun _ => ?_))
  refine (window_matches (k := k) (fun w => ?_)).mpr within
  obtain ⟨d,s,t,o,p,c⟩ := k
  simp only [flowKey,toFlow,FlowKey.mk.injEq] at keyed
  obtain ⟨date,rfl,rfl,rfl,rfl,rfl⟩ := keyed
  simp [onRecompute,covers,date]

end Window

section Group
variable {h : Hashes} {run : Option MartRun} {fact fact' : Multiset FactEntry} {raw raw' : RawTables} {k : ParKey}

/-- The buckets of a group and their total are those of its rows. -/
theorem grouped_at (k : ParKey) : (grouped run fact).filter (fun g => g.key = k) = grouped none (groupRows run fact k) := by
  have totals : (portfolioTotals run fact).filter (fun pt => pt.1 = k) = portfolioTotals none (groupRows run fact k) := by
    rw [portfolioTotals,Multiset.filter_map]
    exact congrArg (Multiset.map _) (groupBy_filter parKey (portfolioBase run fact) (fun key => key = k))
  have distribution : (bucketDistribution run fact).filter (fun g => g.key = k) =
      bucketDistribution none (groupRows run fact k) := by
    rw [bucketDistribution,Multiset.filter_map]
    exact congrArg (Multiset.map _) (groupBy_filter bucketKey (portfolioBase run fact) (fun b => b.key = k))
  rw [grouped,Multiset.filter_add,distribution,Multiset.filter_map,grouped]
  exact congrArg (fun pt => bucketDistribution none (groupRows run fact k) + Multiset.map allPortfolio pt) totals

/-- The rows of a group in `mart_delinquency_par` are what the mart makes of the group's rows. -/
theorem par_at (k : ParKey) : (martDelinquencyPar run fact raw).filter (fun r => r.key = k) =
    (grouped none (groupRows run fact k)).filterMap (fun g => (shown raw k).map (fun n =>
      selectPar (((g,(k,parTotals (groupRows run fact k))),n.1),n.2))) := by
  rw [mart_eq,Multiset.filter_filterMap,← grouped_at,Multiset.filterMap_filter]
  refine filterMap_congr (fun g _ => ?_)
  by_cases own : g.key = k
  · subst own
    cases shown raw g.key with
    | none => simp
    | some n => simp [selectPar,totalsOf]
  · rw [if_neg own]
    cases shown raw g.key with
    | none => rfl
    | some n => simp [selectPar,own]

private theorem health_at (k : ParKey) : (martPortfolioHealth h run fact raw).filter (fun r => r.key = k) =
    (stockMetrics none (groupRows run fact k)).filterMap (fun sm => (namesOf raw k.toMart).map (fun n =>
      selectHealth (((sm,flowsOf k (groupFlows h run raw k)),n.1),n.2))) := by
  have stock : (stockMetrics run fact).filter (fun sm => sm.1 = k) = stockMetrics none (groupRows run fact k) := by
    rw [stockMetrics,Multiset.filter_map]
    exact congrArg (Multiset.map _) (groupBy_filter parKey (portfolioBase run fact) (fun key => key = k))
  rw [health_eq,Multiset.filter_filterMap,← stock,Multiset.filterMap_filter]
  refine filterMap_congr (fun sm _ => ?_)
  by_cases own : sm.1 = k
  · subst own
    cases namesOf raw sm.1.toMart with
    | none => simp
    | some n => simp [selectHealth]
  · rw [if_neg own]
    cases namesOf raw sm.1.toMart with
    | none => rfl
    | some n => simp [selectHealth,own]

/-- A group without rows is not in the marts. -/
theorem select_empty (m : Mart) (empty : groupRows run fact k = 0) : atKey m.key k (m.select h run fact raw) = 0 := by
  have no_buckets : grouped none 0 = 0 := rfl
  have no_stock : stockMetrics none 0 = 0 := rfl
  cases m with
  | delinquencyPar =>
    refine (par_at k).trans ?_
    rw [empty,no_buckets,Multiset.filterMap_zero]
  | portfolioHealth =>
    refine (health_at k).trans ?_
    rw [empty,no_stock,Multiset.filterMap_zero]

/-- An incremental build inserts the groups in the window as a full build has them. -/
theorem select_window {run : MartRun} (m : Mart) (k : ParKey) : atKey m.key k (m.select h (some run) fact raw) =
    if inWindow run k then atKey m.key k (m.select h none fact raw) else 0 := by
  have rows : groupRows (some run) fact k = if inWindow run k then groupRows none fact k else 0 := groupRows_window
  split
  · next within =>
    rw [if_pos within] at rows
    cases m with
    | delinquencyPar =>
      refine (par_at k).trans (Eq.trans ?_ (par_at k).symm)
      rw [rows]
    | portfolioHealth =>
      refine (health_at k).trans (Eq.trans ?_ (health_at k).symm)
      rw [rows,groupFlows_window within]
  · next without =>
    rw [if_neg without] at rows
    exact select_empty m rows

/-- What a mart shows of a group with rows, beside these. -/
structure SameInputs (h : Hashes) (m : Mart) (raw raw' : RawTables) (k : ParKey) : Prop where
  names : namesOf raw k.toMart = namesOf raw' k.toMart
  flows : m = .portfolioHealth → groupFlows h none raw k = groupFlows h none raw' k

/-- A group with the same rows, names and flows has the same rows in the mart. -/
theorem select_congr (m : Mart) (rows : groupRows none fact k = groupRows none fact' k)
    (same : groupRows none fact k ≠ 0 → SameInputs h m raw raw' k) :
    atKey m.key k (m.select h none fact raw) = atKey m.key k (m.select h none fact' raw') := by
  by_cases empty : groupRows none fact k = 0
  · rw [select_empty m empty,select_empty m (rows ▸ empty)]
  · obtain ⟨names,flows⟩ := same empty
    cases m with
    | delinquencyPar =>
      refine (par_at k).trans (Eq.trans ?_ (par_at k).symm)
      rw [← rows,shown,shown,names]
    | portfolioHealth =>
      refine (health_at k).trans (Eq.trans ?_ (health_at k).symm)
      rw [← rows,names,flows rfl]

end Group

end FineractBi.MartRefresh
