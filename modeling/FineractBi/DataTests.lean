import Mathlib.Tactic.Linarith
import Mathlib.Tactic.NormNum
import FineractBi.MartIncremental

/-!
The data tests of the dbt project over `fact_loan_snapshot`, `mart_delinquency_par`
and `mart_portfolio_health`, and what they select after any run of the warehouse. A
test passes when it selects no row.
-/
namespace FineractBi.DataTests
open Calendar Query Refresh Runs FineractBi.Contract FineractBi.ApplyBatch FineractBi.Staging FineractBi.LoanSnapshot
open FineractBi.FactBuild FineractBi.FactContent FineractBi.ChangeTracking FineractBi.FactIncremental FineractBi.ParMart
open FineractBi.PortfolioHealth FineractBi.MartRefresh FineractBi.MartRuns FineractBi.MartIncremental
open FineractBi.RepaymentMart (namesOf sqlSum countDistinct)

/-- `<`, which is not true of NULL. -/
def sqlLt : Option Rat → Option Rat → Bool
  | some a,some b => a < b
  | _,_ => false

/-- `abs(a - b) > 0.005`. -/
def apart : Option Rat → Option Rat → Bool
  | some a,some b => 5 / 1000 < |a - b|
  | _,_ => false

/-- `amount * 1.001`. -/
def withTolerance (amount : Option Rat) : Option Rat := amount.map (· * (1001 / 1000))

/-- `ratio not between 0 and 1`. -/
def outOfBounds : Option Rat → Bool
  | some ratio => ratio < 0 || 1 < ratio
  | none => false

/-- `par_rollup`. -/
def parRollup (par : Multiset ParRow) : Multiset ParRow := par.filter (fun d => d.bucketKey = -1)

/-- The six equalities of the full join. -/
def onMetrics (h : HealthRow) (d : ParRow) : Bool :=
  h.key.sourceId = d.key.sourceId && h.key.tenantId = d.key.tenantId && h.key.snapshotDate = d.key.snapshotDate &&
    sqlEq h.key.officeId d.key.officeId && sqlEq h.key.productId d.key.productId &&
    sqlEq h.key.currencyCode d.key.currencyCode

/-- The condition of `assert_metric_consistency_across_marts`. -/
def inconsistent : Option HealthRow × Option ParRow → Bool
  | (some h,some d) => apart h.stock.grossLoanPortfolio d.totals.totalPortfolioAmount ||
      apart h.stock.parOutstandingAmount d.totals.par30Amount || apart h.stock.npaOutstandingAmount d.totals.npaAmount ||
      h.stock.activeLoanCount ≠ d.totals.totalLoanCount
  | _ => true

/-- `assert_metric_consistency_across_marts`. -/
def assertMetricConsistencyAcrossMarts (health : Multiset HealthRow) (par : Multiset ParRow) :
    Multiset (Option HealthRow × Option ParRow) :=
  (fullJoin onMetrics health (parRollup par)).filter (fun r => inconsistent r)

/-- The condition of `assert_par_hierarchy_never_violated`. -/
def hierarchyViolated (t : ParTotals) : Bool :=
  sqlLt t.par30Amount t.par60Amount || sqlLt t.par60Amount t.par90Amount || t.par30LoanCount < t.par60LoanCount ||
    t.par60LoanCount < t.par90LoanCount

/-- `assert_par_hierarchy_never_violated`. -/
def assertParHierarchyNeverViolated (par : Multiset ParRow) : Multiset ParRow := par.filter (fun r => hierarchyViolated r.totals)

/-- The condition of `assert_par_components_never_exceed_portfolio`. -/
def componentsExceed (t : ParTotals) : Bool :=
  sqlLt (withTolerance t.totalPortfolioAmount) t.par30Amount || sqlLt (withTolerance t.totalPortfolioAmount) t.npaAmount ||
    sqlLt (withTolerance t.totalPortfolioAmount) t.watchListAmount ||
    sqlLt (withTolerance t.totalPortfolioAmount) t.currentAmount || t.totalLoanCount < t.par30LoanCount ||
    t.totalLoanCount < t.npaLoanCount

/-- `assert_par_components_never_exceed_portfolio`. -/
def assertParComponentsNeverExceedPortfolio (par : Multiset ParRow) : Multiset ParRow :=
  par.filter (fun r => componentsExceed r.totals)

/-- The condition of `assert_par_ratios_within_bounds`. -/
def ratiosOutOfBounds (r : ParRow) : Bool :=
  outOfBounds r.par30Ratio || outOfBounds r.par60Ratio || outOfBounds r.par90Ratio || outOfBounds r.npaRatio

/-- `assert_par_ratios_within_bounds`. -/
def assertParRatiosWithinBounds (par : Multiset ParRow) : Multiset ParRow := par.filter (fun r => ratiosOutOfBounds r)

/-- `assert_no_future_dated_facts`. -/
def assertNoFutureDatedFacts (currentDate : Date) (par : Multiset ParRow) (health : Multiset HealthRow)
    (fact : Multiset FactEntry) : Multiset (String × Date) :=
  (par.filter (fun r => currentDate < r.key.snapshotDate)).map (fun r => ("mart_delinquency_par",r.key.snapshotDate)) +
    (health.filter (fun r => currentDate < r.key.snapshotDate)).map (fun r => ("mart_portfolio_health",r.key.snapshotDate)) +
    (fact.filter (fun f => currentDate < f.1.2)).map (fun f => ("fact_loan_snapshot",f.1.2))

/-- The rows of `mart_delinquency_par`. -/
def parRows (s : Marts) : Multiset ParRow := (s.contents .delinquencyPar).getD 0

/-- The rows of `mart_portfolio_health`. -/
def healthRows (s : Marts) : Multiset HealthRow := (s.contents .portfolioHealth).getD 0

section Consistency
variable {h : Hashes} {fact : Multiset FactEntry} {raw : RawTables} {k : ParKey} {r : HealthRow} {d : ParRow}

private theorem onMetrics_iff : onMetrics r d = true ↔ d.key = r.key ∧ Comparable r.key := by
  obtain ⟨⟨date,source,tenant,office,product,currency⟩,_⟩ := r
  obtain ⟨⟨⟨⟨date',source',tenant',office',product',currency'⟩,_⟩,_⟩,_⟩ := d
  simp only [onMetrics,Bool.and_eq_true,decide_eq_true_eq,sqlEq_iff,Comparable,ParKey.mk.injEq]
  constructor
  · rintro ⟨⟨⟨⟨⟨rfl,rfl⟩,rfl⟩,rfl,office⟩,rfl,product⟩,rfl,currency⟩
    exact ⟨⟨rfl,rfl,rfl,rfl,rfl,rfl⟩,office,product,currency⟩
  · rintro ⟨⟨rfl,rfl,rfl,rfl,rfl,rfl⟩,office,product,currency⟩
    exact ⟨⟨⟨⟨⟨rfl,rfl⟩,rfl⟩,rfl,office⟩,rfl,product⟩,rfl,currency⟩

private theorem not_apart (amount : Option Rat) : apart amount amount = false := by
  cases amount with
  | none => rfl
  | some a =>
    rw [apart,sub_self,abs_zero]
    exact decide_eq_false (by norm_num)

/-- Two rows that show the figures of the same rows are consistent. -/
theorem consistent {rows : Multiset FactEntry} (stock : r.stock = aggregateStock rows) (totals : d.totals = parTotals rows) :
    inconsistent (some r,some d) = false := by
  rw [inconsistent,stock,totals]
  simp [aggregateStock,parTotals,not_apart]

/-- A row of `mart_portfolio_health` shows the stock of the rows of its group, which has both names. -/
theorem health_row (inside : r ∈ martPortfolioHealth h none fact raw) : groupRows none fact r.key ≠ 0 ∧
    (namesOf raw r.key.toMart).isSome ∧ r.stock = aggregateStock (groupRows none fact r.key) := by
  rw [health_eq] at inside
  obtain ⟨sm,stock,named⟩ := (Multiset.mem_filterMap _ _).mp inside
  obtain ⟨n,found,rfl⟩ := Option.map_eq_some_iff.mp named
  obtain ⟨g,grouped,rfl⟩ := Multiset.mem_map.mp stock
  obtain ⟨⟨f,member,keyed⟩,own⟩ := mem_groupBy.mp grouped
  refine ⟨?_,Option.isSome_iff_exists.mpr ⟨n,found⟩,congrArg aggregateStock own.symm⟩
  have among : f ∈ groupRows none fact g.1 := Multiset.mem_filter.mpr ⟨member,keyed⟩
  intro empty
  exact Multiset.notMem_zero f (empty ▸ among)

private theorem par_selected {run : Option MartRun} (inside : d ∈ martDelinquencyPar run fact raw) :
    ∃ g ∈ grouped run fact, ∃ n, shown raw g.key = some n ∧ d = selectPar (((g,totalsOf run fact g.key),n.1),n.2) := by
  rw [mart_eq] at inside
  obtain ⟨g,grouped,named⟩ := (Multiset.mem_filterMap _ _).mp inside
  obtain ⟨n,found,rfl⟩ := Option.map_eq_some_iff.mp named
  exact ⟨g,grouped,n,found,rfl⟩

/-- A row of `mart_delinquency_par` shows the totals of the rows of its group, which it shows. -/
theorem par_row {run : Option MartRun} (inside : d ∈ martDelinquencyPar run fact raw) : groupRows run fact d.key ≠ 0 ∧
    (shown raw d.key).isSome ∧ d.totals = parTotals (groupRows run fact d.key) := by
  obtain ⟨g,grouped,n,found,rfl⟩ := par_selected inside
  refine ⟨?_,Option.isSome_iff_exists.mpr ⟨n,found⟩,rfl⟩
  obtain ⟨f,member,keyed⟩ := grouped_used grouped
  have among : f ∈ groupRows run fact g.key := Multiset.mem_filter.mpr ⟨member,keyed⟩
  intro empty
  exact Multiset.notMem_zero f (empty ▸ among)

/-- A group with rows that the mart shows has its row over all buckets. -/
theorem all_portfolio (some_rows : groupRows none fact k ≠ 0) (found : (shown raw k).isSome) :
    ∃ d ∈ martDelinquencyPar none fact raw, d.key = k ∧ d.bucketKey = -1 := by
  obtain ⟨f,among⟩ := Multiset.exists_mem_of_ne_zero some_rows
  obtain ⟨n,found⟩ := Option.isSome_iff_exists.mp found
  have used : ∃ f ∈ portfolioBase none fact, parKey f = k := ⟨f,Multiset.mem_filter.mp among⟩
  have total : totalsOf none fact k ∈ portfolioTotals none fact := by
    have alone : totalsOf none fact k ∈ (portfolioTotals none fact).filter (fun pt => pt.1 = k) := by
      rw [portfolioTotals_filter used]
      exact Multiset.mem_singleton_self _
    exact (Multiset.mem_filter.mp alone).1
  have member : allPortfolio (totalsOf none fact k) ∈ grouped none fact :=
    Multiset.mem_add.mpr (.inr (Multiset.mem_map_of_mem _ total))
  refine ⟨selectPar (((allPortfolio (totalsOf none fact k),totalsOf none fact k),n.1),n.2),?_,rfl,rfl⟩
  rw [mart_eq]
  exact (Multiset.mem_filterMap _ _).mpr ⟨_,member,Option.map_eq_some_iff.mpr ⟨n,found,rfl⟩⟩

/-- A group with rows and both names has a row of `mart_portfolio_health`. -/
theorem health_present (h : Hashes) (some_rows : groupRows none fact k ≠ 0) (found : (namesOf raw k.toMart).isSome) :
    ∃ r ∈ martPortfolioHealth h none fact raw, r.key = k := by
  obtain ⟨f,among⟩ := Multiset.exists_mem_of_ne_zero some_rows
  obtain ⟨n,found⟩ := Option.isSome_iff_exists.mp found
  obtain ⟨member,keyed⟩ := Multiset.mem_filter.mp among
  have stock : (k,aggregateStock (groupRows none fact k)) ∈ stockMetrics none fact :=
    Multiset.mem_map.mpr ⟨(k,groupRows none fact k),mem_groupBy.mpr ⟨⟨f,member,keyed⟩,rfl⟩,rfl⟩
  refine ⟨selectHealth ((((k,aggregateStock (groupRows none fact k)),flowsOf k (groupFlows h none raw k)),n.1),n.2),?_,rfl⟩
  rw [health_eq]
  exact (Multiset.mem_filterMap _ _).mpr ⟨_,stock,Option.map_eq_some_iff.mpr ⟨n,found,rfl⟩⟩

/-- A group with names is comparable unless its currency is NULL. -/
theorem comparable_iff (found : (namesOf raw k.toMart).isSome) : Comparable k ↔ k.currencyCode ≠ none := by
  obtain ⟨P,_,in_partition⟩ := RepaymentMart.namesOf_isSome.mp found
  have office : k.officeId.isSome := by
    rw [show k.officeId = k.toMart.officeId from rfl,in_partition.2.2.1]
    rfl
  have product : k.productId.isSome := by
    rw [show k.productId = k.toMart.productId from rfl,in_partition.2.2.2]
    rfl
  simp [Comparable,office,product,Option.isSome_iff_ne_none]

private theorem shown_isSome : (shown raw k).isSome ↔ Comparable k ∧ (namesOf raw k.toMart).isSome := by
  rw [shown]
  split
  · next comparable => simp [comparable]
  · next incomparable => simp [incomparable]

end Consistency

/-! ### Both marts in every run -/

/-- A run builds the two marts or neither. -/
def BuildsBoth : MartRuns.Act → Prop
  | .dbtRun _ _ built => .martDelinquencyPar ∈ built ↔ .martPortfolioHealth ∈ built
  | _ => True

instance buildsBoth_decidable : (a : MartRuns.Act) → Decidable (BuildsBoth a)
  | .applyStagedBatch _ _ _ _ _ _ _ => isTrue trivial
  | .promoteShadow _ _ _ _ => isTrue trivial
  | .dbtRun _ _ _ => inferInstanceAs (Decidable (_ ↔ _))

/-- A step whose run builds the two marts or neither. -/
def JointStep (p : Project) (s : Marts) (a : MartRuns.Act) (t : Marts) : Prop :=
  MartRuns.next p s a = some t ∧ BuildsBoth a

/-- Every group is in the marts as one full build has it. -/
def SameBuild (h : Hashes) (rows : (m : Mart) → Multiset m.Row) : Prop :=
  ∀ k, ∃ fact raw, ∀ m : Mart, atKey m.key k (rows m) = atKey m.key k (m.select h none fact raw)

/-- The marts have one cursor, and every group of them comes from one build. -/
structure Joint (p : Project) (s : Marts) : Prop where
  cursors : ∀ m m', s.cursors (consumerOf m) = s.cursors (consumerOf m')
  groups : (∀ m, s.contents m = none) ∨ ∃ rows, (∀ m, s.contents m = some (rows m)) ∧ SameBuild p.hashes rows

section Runs
variable {p : Project} {s t : Marts} {fullRefresh : Bool} {today : Date} {built : Finset Consumer} {fact : FactTable}

/-- A run that builds one of the marts builds all. -/
theorem builds_all (both : BuildsBoth (.dbtRun fullRefresh today built)) {m : Mart} (member : consumerOf m ∈ built)
    (m' : Mart) :
    consumerOf m' ∈ built := by
  have both : Consumer.martDelinquencyPar ∈ built ↔ Consumer.martPortfolioHealth ∈ built := both
  cases m <;> cases m' <;> simp_all [consumerOf]

private theorem select_sameBuild (h : Hashes) (fact : Multiset FactEntry) (raw : RawTables) :
    SameBuild h (fun m => m.select h none fact raw) :=
  fun _ => ⟨fact,raw,fun _ => rfl⟩

/-- A refresh of all marts from one window takes the groups in it from the new build, and leaves the others. -/
theorem SameBuild.refreshed {h : Hashes} {rows : (m : Mart) → Multiset m.Row} (same : SameBuild h rows) (run : MartRun)
    (fact : Multiset FactEntry) (raw : RawTables) :
    SameBuild h (fun m => m.build h false run fact raw (some (rows m))) := by
  intro k
  by_cases within : inWindow run k = true
  · refine ⟨fact,raw,fun m => ?_⟩
    dsimp only
    rw [build_eq_refresh,refresh_atKey,select_window,if_pos within,if_pos within,Multiset.zero_add]
  · obtain ⟨fact',raw',earlier⟩ := same k
    refine ⟨fact',raw',fun m => ?_⟩
    dsimp only
    rw [build_eq_refresh,refresh_atKey,select_window,if_neg within,if_neg within,Multiset.add_zero]
    exact earlier m

theorem Joint.run (joint : Joint p s) (both : BuildsBoth (.dbtRun fullRefresh today built))
    (ran : Ran p fullRefresh today built s t fact) : Joint p t := by
  by_cases member : ∃ m, consumerOf m ∈ built
  · obtain ⟨m₀,member⟩ := member
    have all (m : Mart) : consumerOf m ∈ built := builds_all both member m
    refine ⟨fun m m' => by rw [ran.cursors,ran.cursors,if_pos (all m),if_pos (all m')],.inr ?_⟩
    -- one window, since the marts have one cursor
    let window : MartRun := ⟨(s.cursors (consumerOf m₀)).getD 0,s.warehouse.dbtRunSeq + 1,
      s.dirty + s.recorded p fullRefresh today⟩
    have content (m : Mart) : t.contents m = some (m.build p.hashes fullRefresh window fact.rows s.raw (s.contents m)) := by
      rw [ran.contents,if_pos (all m),joint.cursors m m₀]
    refine ⟨_,content,?_⟩
    rcases joint.groups with unbuilt | ⟨rows,stored,same⟩
    · simp only [unbuilt]
      cases fullRefresh <;> exact select_sameBuild _ _ _
    · simp only [stored]
      cases fullRefresh with
      | true => exact select_sameBuild _ _ _
      | false => exact same.refreshed window fact.rows s.raw
  · push Not at member
    refine ⟨fun m m' => ?_,?_⟩
    · rw [ran.cursors,ran.cursors,if_neg (member m),if_neg (member m')]
      exact joint.cursors m m'
    · have stays (m : Mart) : t.contents m = s.contents m := by rw [ran.contents,if_neg (member m)]
      simp only [stays]
      exact joint.groups

/-- A committed call leaves the marts as they are. -/
theorem call_keeps {a : MartRuns.Act} (taken : MartRuns.next p s a = some t)
    (call : ∀ fullRefresh today built, a ≠ .dbtRun fullRefresh today built) :
    t.cursors = s.cursors ∧ t.contents = s.contents ∧ t.warehouse.factLoanSnapshot = s.warehouse.factLoanSnapshot ∧
      t.warehouse.ranOn = s.warehouse.ranOn := by
  cases a with
  | applyStagedBatch txid name engine now today db stage =>
    obtain ⟨after,called,rfl⟩ := Option.map_eq_some_iff.mp taken
    simp only [FactBuild.next] at called
    split at called
    · split at called
      · cases called
      · obtain rfl := Option.some.inj called
        exact ⟨rfl,rfl,rfl,rfl⟩
    · cases called
  | promoteShadow txid name source db =>
    obtain ⟨after,called,rfl⟩ := Option.map_eq_some_iff.mp taken
    simp only [FactBuild.next] at called
    split at called
    · obtain rfl := Option.some.inj called
      exact ⟨rfl,rfl,rfl,rfl⟩
    · cases called
  | dbtRun fullRefresh today built => exact absurd rfl (call fullRefresh today built)

theorem Joint.step {a : MartRuns.Act} (joint : Joint p s) (step : JointStep p s a t) : Joint p t := by
  obtain ⟨taken,both⟩ := step
  by_cases call : ∀ fullRefresh today built, a ≠ .dbtRun fullRefresh today built
  · obtain ⟨cursors,contents,_,_⟩ := call_keeps taken call
    refine ⟨?_,?_⟩
    · rw [cursors]
      exact joint.cursors
    · rw [contents]
      exact joint.groups
  · push Not at call
    obtain ⟨fullRefresh,today,built,rfl⟩ := call
    obtain ⟨fact,ran⟩ := ran_of_next taken
    exact joint.run both ran

private theorem joint_unbuilt (unbuilt : Unbuilt s) : Joint p s :=
  ⟨fun m m' => by rw [unbuilt.cursors,unbuilt.cursors],.inl unbuilt.contents⟩

/-- What the test selects from marts whose groups come from one build each. -/
theorem SameBuild.reported {h : Hashes} {rows : (m : Mart) → Multiset m.Row} (same : SameBuild h rows) :
    assertMetricConsistencyAcrossMarts (rows .portfolioHealth) (rows .delinquencyPar) =
      ((rows .portfolioHealth).filter (fun r : HealthRow => r.key.currencyCode = none)).map (fun r => (some r,none)) := by
  -- the rows of a group, in both marts
  have health (r : HealthRow) (inside : r ∈ rows .portfolioHealth) : ∃ fact raw, (∀ m : Mart, atKey m.key r.key (rows m) =
      atKey m.key r.key (m.select h none fact raw)) ∧ r ∈ martPortfolioHealth h none fact raw := by
    obtain ⟨fact,raw,at_key⟩ := same r.key
    have among : r ∈ atKey (Mart.key .portfolioHealth) r.key (rows .portfolioHealth) := Multiset.mem_filter.mpr ⟨inside,rfl⟩
    rw [at_key .portfolioHealth] at among
    exact ⟨fact,raw,at_key,(Multiset.mem_filter.mp among).1⟩
  have par (d : ParRow) (inside : d ∈ rows .delinquencyPar) {k : ParKey} (keyed : d.key = k) {fact : Multiset FactEntry}
      {raw : RawTables} (at_key : ∀ m : Mart, atKey m.key k (rows m) = atKey m.key k (m.select h none fact raw)) :
      d ∈ martDelinquencyPar none fact raw := by
    have among : d ∈ atKey (Mart.key .delinquencyPar) k (rows .delinquencyPar) := Multiset.mem_filter.mpr ⟨inside,keyed⟩
    rw [at_key .delinquencyPar] at among
    exact (Multiset.mem_filter.mp among).1
  have agree : ∀ r ∈ rows .portfolioHealth, ∀ d ∈ parRollup (rows .delinquencyPar), onMetrics r d = true →
      inconsistent (some r,some d) = false := by
    intro r inside d rolled matched
    obtain ⟨keyed,_⟩ := onMetrics_iff.mp matched
    obtain ⟨fact,raw,at_key,built⟩ := health r inside
    have totals := (par_row (par d (Multiset.mem_filter.mp rolled).1 keyed at_key)).2.2
    rw [keyed] at totals
    exact consistent (health_row built).2.2 totals
  have no_par : unmatched onMetrics (rows .portfolioHealth) (parRollup (rows .delinquencyPar)) = 0 := by
    refine Multiset.filter_eq_nil.mpr (fun d rolled alone => ?_)
    obtain ⟨fact,raw,at_key⟩ := same d.key
    obtain ⟨some_rows,found,_⟩ := par_row (par d (Multiset.mem_filter.mp rolled).1 rfl at_key)
    obtain ⟨comparable,names⟩ := shown_isSome.mp found
    obtain ⟨r,built,keyed⟩ := health_present h some_rows names
    have among : r ∈ atKey (Mart.key .portfolioHealth) d.key (rows .portfolioHealth) := by
      rw [at_key .portfolioHealth]
      exact Multiset.mem_filter.mpr ⟨built,keyed⟩
    have matched : onMetrics r d = true := onMetrics_iff.mpr ⟨keyed.symm,by rwa [keyed]⟩
    rw [alone r (Multiset.mem_filter.mp among).1] at matched
    cases matched
  have alone (r : HealthRow) (inside : r ∈ rows .portfolioHealth) :
      (∀ d ∈ parRollup (rows .delinquencyPar), onMetrics r d = false) ↔ r.key.currencyCode = none := by
    obtain ⟨fact,raw,at_key,built⟩ := health r inside
    obtain ⟨some_rows,names,_⟩ := health_row built
    constructor
    · intro unmatched
      by_contra known
      have comparable : Comparable r.key := (comparable_iff names).mpr known
      obtain ⟨d,present,keyed,all⟩ := all_portfolio some_rows (shown_isSome.mpr ⟨comparable,names⟩)
      have among : d ∈ atKey (Mart.key .delinquencyPar) r.key (rows .delinquencyPar) := by
        rw [at_key .delinquencyPar]
        exact Multiset.mem_filter.mpr ⟨present,keyed⟩
      have matched : onMetrics r d = true := onMetrics_iff.mpr ⟨keyed,comparable⟩
      rw [unmatched d (Multiset.mem_filter.mpr ⟨(Multiset.mem_filter.mp among).1,all⟩)] at matched
      cases matched
    · intro null d _
      by_contra matched
      have comparable := (onMetrics_iff.mp (by simpa using matched)).2
      rw [Comparable,null] at comparable
      cases comparable.2.2
  rw [assertMetricConsistencyAcrossMarts,fullJoin_filter_unmatched agree (fun _ => rfl) (fun _ => rfl),no_par,Multiset.map_zero,
    Multiset.add_zero]
  exact congrArg _ (Multiset.filter_congr alone)

/-- In every run of calls and dbt runs that build both marts or neither, `assert_metric_consistency_across_marts` selects
    the rows of `mart_portfolio_health` without a currency and no others. -/
theorem marts_stay_consistent {s₀ : Marts} {trace : List MartRuns.Act} (unbuilt : Unbuilt s₀)
    (run : Run (JointStep p) s₀ trace s) : assertMetricConsistencyAcrossMarts (healthRows s) (parRows s) =
      ((healthRows s).filter (fun r => r.key.currencyCode = none)).map (fun r => (some r,none)) := by
  have joint : Joint p s := run.stateInvariant (joint_unbuilt unbuilt) (fun _ _ _ joint step => joint.step step)
  rcases joint.groups with none_built | ⟨rows,stored,same⟩
  · rw [healthRows,parRows,none_built,none_built]
    rfl
  · rw [healthRows,parRows,stored,stored]
    exact same.reported

/-- The steps that a condition lets through. -/
def nextWhere (p : Project) (allowed : Marts → MartRuns.Act → Prop) [∀ s a, Decidable (allowed s a)] (s : Marts)
    (a : MartRuns.Act) : Option Marts :=
  if allowed s a then MartRuns.next p s a else none

private theorem nextWhere_some {allowed : Marts → MartRuns.Act → Prop} [∀ s a, Decidable (allowed s a)] {a : MartRuns.Act}
    (taken : nextWhere p allowed s a = some t) : MartRuns.next p s a = some t ∧ allowed s a := by
  rw [nextWhere] at taken
  split at taken
  · next lets => exact ⟨taken,lets⟩
  · cases taken

/-- A loan with a currency and one without, a run, a repaid balance and another run. -/
def currencyRun : List MartRuns.Act := [
  call 1 .mOffice [upserted 1 1 [("name",.text "Head office")]],
  call 2 .mProductLoan [upserted 1 1 [("name",.text "Personal loan")]],
  call 3 .mClient [upserted 1 1 [("office_id",.int 1)]],
  call 4 .mLoan [upserted 1 1 [("client_id",.int 1),("product_id",.int 1),("currency_code",.text "USD"),
      ("disbursedon_date",.date newYear),("principal_disbursed_derived",.numeric 100)],
    upserted 2 1 [("client_id",.int 1),("product_id",.int 1),("disbursedon_date",.date newYear)]],
  .dbtRun false newYear {.martDelinquencyPar,.martPortfolioHealth},
  .applyStagedBatch 7 .mLoanTransaction .KAFKA 0 newYear loansOwned [repayment 1 1],
  .dbtRun false newYear {.martDelinquencyPar,.martPortfolioHealth}]

/-- The loan without a currency is reported, the other one is not. -/
theorem nullCurrency_reported : ∃ s, Run (JointStep sampleProject) emptyMarts currencyRun s ∧ (healthRows s).card = 2 ∧
    (assertMetricConsistencyAcrossMarts (healthRows s) (parRows s)).card = 1 := by
  have counted : (exec (nextWhere sampleProject (fun _ a => BuildsBoth a)) emptyMarts currencyRun).map (fun s =>
      ((healthRows s).card,((healthRows s).filter (fun r => r.key.currencyCode = none)).card)) = some (2,1) := by decide +kernel
  obtain ⟨s,executed,counts⟩ := Option.map_eq_some_iff.mp counted
  have run : Run (JointStep sampleProject) emptyMarts currencyRun s := exec_run (fun _ _ _ => nextWhere_some) executed
  have unbuilt : Unbuilt emptyMarts := ⟨rfl,fun _ => rfl,fun _ => rfl⟩
  refine ⟨s,run,congrArg Prod.fst counts,?_⟩
  rw [marts_stay_consistent unbuilt run,Multiset.card_map]
  exact congrArg Prod.snd counts

end Runs

section Figures
variable {rows : Multiset FactEntry} {flag flag' : FactRow → Bool}

/-- The principals that are known are not negative. -/
def NonNegative (rows : Multiset FactEntry) : Prop := ∀ r ∈ rows, ∀ x ∈ r.2.principalOutstanding, 0 ≤ x

/-- A row as a summand of a figure. -/
def share (flag : FactRow → Bool) (r : FactEntry) : Rat := if flag r.2 then r.2.principalOutstanding.getD 0 else 0

private theorem amountWhere_eq {amount : Rat} (found : amountWhere flag rows = some amount) :
    amount = (rows.map (share flag)).sum := by
  have total := RepaymentMart.sqlSum_getD (rows.map (fun r => if flag r.2 then r.2.principalOutstanding else some 0))
  rw [show sqlSum _ = some amount from found,Multiset.map_map] at total
  refine total.trans (congrArg Multiset.sum (Multiset.map_congr rfl (fun r _ => ?_)))
  rw [Function.comp_apply,share]
  split <;> rfl

private theorem portfolio_eq (rows : Multiset FactEntry) : (parTotals rows).totalPortfolioAmount =
    amountWhere (fun _ => true) rows := rfl

private theorem share_nonneg (nonNegative : NonNegative rows) {r : FactEntry} (inside : r ∈ rows) : 0 ≤ share flag r := by
  rw [share]
  split
  · cases known : r.2.principalOutstanding with
    | none => exact le_rfl
    | some x => exact nonNegative r inside x known
  · exact le_rfl

private theorem amount_nonneg (nonNegative : NonNegative rows) {amount : Rat} (found : amountWhere flag rows = some amount) :
    0 ≤ amount := by
  rw [amountWhere_eq found]
  refine Multiset.sum_nonneg (fun x summed => ?_)
  obtain ⟨r,inside,rfl⟩ := Multiset.mem_map.mp summed
  exact share_nonneg nonNegative inside

/-- A figure of fewer rows is not greater. -/
theorem amount_le (nonNegative : NonNegative rows) (fewer : ∀ r ∈ rows, flag r.2 = true → flag' r.2 = true)
    {amount amount' : Rat}
    (found : amountWhere flag rows = some amount) (found' : amountWhere flag' rows = some amount') : amount ≤ amount' := by
  rw [amountWhere_eq found,amountWhere_eq found']
  refine Multiset.sum_map_le_sum_map _ _ (fun r inside => ?_)
  cases flagged : flag r.2 with
  | true => simp [share,flagged,fewer r inside flagged]
  | false =>
    rw [share,flagged]
    exact share_nonneg nonNegative inside

private theorem not_lt_fewer (nonNegative : NonNegative rows) (fewer : ∀ r ∈ rows, flag r.2 = true → flag' r.2 = true) :
    sqlLt (amountWhere flag' rows) (amountWhere flag rows) = false := by
  cases found' : amountWhere flag' rows with
  | none => rfl
  | some amount' =>
    cases found : amountWhere flag rows with
    | none => rfl
    | some amount => exact decide_eq_false (not_lt.mpr (amount_le nonNegative fewer found found'))

private theorem not_exceeding (nonNegative : NonNegative rows) (flag : FactRow → Bool) :
    sqlLt (withTolerance (amountWhere (fun _ => true) rows)) (amountWhere flag rows) = false := by
  cases portfolio : amountWhere (fun _ => true) rows with
  | none => rfl
  | some total =>
    cases found : amountWhere flag rows with
    | none => rfl
    | some amount =>
      have below := amount_le nonNegative (fun _ _ _ => rfl) found portfolio
      have some_tolerance : total ≤ total * (1001 / 1000) := by linarith [amount_nonneg nonNegative portfolio]
      exact decide_eq_false (not_lt.mpr (below.trans some_tolerance))

private theorem ratio_bounded (nonNegative : NonNegative rows) (flag : FactRow → Bool) :
    outOfBounds (safeDivide (amountWhere flag rows) (amountWhere (fun _ => true) rows)) = false := by
  cases found : amountWhere flag rows with
  | none => rfl
  | some amount =>
    cases portfolio : amountWhere (fun _ => true) rows with
    | none => rfl
    | some total =>
      rw [safeDivide]
      split
      · rfl
      · next nonzero =>
        have positive : 0 < total := lt_of_le_of_ne (amount_nonneg nonNegative portfolio) (Ne.symm nonzero)
        have below : amount / total ≤ 1 := (div_le_one₀ positive).mpr (amount_le nonNegative (fun _ _ _ => rfl) found portfolio)
        have above : 0 ≤ amount / total := div_nonneg (amount_nonneg nonNegative found) positive.le
        simp [outOfBounds,not_lt.mpr below,not_lt.mpr above]

/-- A flagged loan is a loan. -/
theorem loanCount_le (once : (rows.map (·.1.1.id)).Nodup) (flag : FactRow → Bool) :
    loanCountWhere flag rows ≤ (parTotals rows).totalLoanCount := by
  have total : (parTotals rows).totalLoanCount = rows.card := countDistinct_eq once
  rw [total,loanCountWhere,countDistinct_eq (Multiset.nodup_of_le (Multiset.map_le_map (Multiset.filter_le _ _)) once)]
  exact Multiset.card_le_card (Multiset.filter_le _ _)

private theorem hierarchy_holds (once : (rows.map (·.1.1.id)).Nodup) (nested : ∀ r ∈ rows, Nested r.2)
    (nonNegative : NonNegative rows) :
    hierarchyViolated (parTotals rows) = false := by
  obtain ⟨_,par60,par30⟩ := counts_partition once nested
  have amount60 : sqlLt (amountWhere (·.isPar30) rows) (amountWhere (·.isPar60) rows) = false :=
    not_lt_fewer nonNegative (fun r inside => (nested r inside).par30)
  have amount90 : sqlLt (amountWhere (·.isPar60) rows) (amountWhere (·.isPar90) rows) = false :=
    not_lt_fewer nonNegative (fun r inside => (nested r inside).par60)
  simp only [hierarchyViolated,Bool.or_eq_false_iff,decide_eq_false_iff_not,not_lt]
  exact ⟨⟨⟨amount60,amount90⟩,par30⟩,par60⟩

private theorem components_within (once : (rows.map (·.1.1.id)).Nodup) (nonNegative : NonNegative rows) :
    componentsExceed (parTotals rows) = false := by
  have exceeding := not_exceeding nonNegative
  rw [← portfolio_eq] at exceeding
  simp only [componentsExceed,Bool.or_eq_false_iff,decide_eq_false_iff_not,not_lt]
  exact ⟨⟨⟨⟨⟨exceeding (·.isPar30),exceeding npa⟩,exceeding (·.isWatchList)⟩,exceeding performing⟩,
    loanCount_le once (·.isPar30)⟩,loanCount_le once npa⟩

end Figures

/-! ### The rows of the fact table -/

/-- The balances that a build reads are not negative. -/
def Balances (raw : RawTables) : Prop :=
  (∀ e ∈ (stgMLoan raw).rowSet, ∀ x ∈ e.2.principalDisbursedDerived, 0 ≤ x) ∧
    ∀ e ∈ (stgMLoanTransaction raw).rowSet, ∀ x ∈ e.2.outstandingLoanBalanceDerived, 0 ≤ x

instance balances_decidable (raw : RawTables) : Decidable (Balances raw) := inferInstanceAs (Decidable (_ ∧ _))

/-- A fact row with nested flags, a principal that is not negative, and a date up to a last one. -/
structure Regular (last : Date) (f : FactEntry) : Prop where
  nested : Nested f.2
  principal : ∀ x ∈ f.2.principalOutstanding, 0 ≤ x
  dated : f.1.2 ≤ last

theorem Regular.later {last last' : Date} {f : FactEntry} (regular : Regular last f) (later : last ≤ last') : Regular last' f :=
  ⟨regular.nested,regular.principal,regular.dated.trans later⟩

section Rows
variable {h : Hashes} {raw : RawTables} {scope : Relation Key Scope} {today : Date} {l : Key} {d : Date}

private theorem statusRow_nested (base : LoanBase) (dates : Finset Date) :
    Nested (factRow h (l,d) (statusRow h raw l base dates d)) := by
  simp only [factRow,statusRow]
  refine ⟨?_,?_,?_,standardParBand_ne _⟩
  · simp only [decide_eq_true_eq]
    omega
  · simp only [decide_eq_true_eq]
    omega
  · simp only [Bool.and_eq_true,decide_eq_true_eq,decide_eq_false_iff_not]
    omega

/-- A carried balance is the greatest of some balances of the loan's transactions. -/
theorem balance_nonneg (balances : Balances raw) (dates : Finset Date) {x : Rat}
    (found : (asOf (timeline raw l dates) d).balanceAsOf = some x) : 0 ≤ x := by
  refine Window.carried_all (P := fun x => 0 ≤ x) (fun x y holds _ => le_sup_of_le_left holds) ?_ found
  intro q member v bears
  have bearing : Bearing q := .inl (by rw [bears]; rfl)
  rcases (mem_timeline bearing).mp member with ⟨t,among,rfl⟩ | ⟨e,_,rfl⟩
  · exact balances.2 t (Finset.mem_filter.mp among).1 v bears
  · cases bears

private theorem principal_nonneg (balances : Balances raw) {base : LoanBase} (at_l : loanBase raw l = some base)
    (dates : Finset Date) :
    ∀ x ∈ (statusRow h raw l base dates d).principalOutstanding, 0 ≤ x := by
  intro x found
  have found : ((asOf (timeline raw l dates) d).balanceAsOf).or base.loan.principalDisbursedDerived = some x := found
  rcases Option.or_eq_some_iff.mp found with carried | ⟨_,disbursed⟩
  · exact balance_nonneg balances dates carried
  · exact balances.1 (l,base.loan) (Relation.mem_rowSet.mpr (loanBase_eq_some.mp at_l).1) x disbursed

private theorem selected_regular (balances : Balances raw) {f : FactEntry} (inside : f ∈ (selectFact h raw scope today).rows) :
    Regular today f := by
  obtain ⟨⟨l,d⟩,row⟩ := f
  have found : (selectFact h raw scope today).get (l,d) = some row := Relation.mem_rows.mp inside
  cases at_scope : scope.get l with
  | none =>
    rw [selectFact_get_none at_scope] at found
    cases found
  | some sc =>
    rw [selectFact_get at_scope] at found
    split at found
    · next within =>
      obtain ⟨status,snapshot,rfl⟩ := Option.map_eq_some_iff.mp found
      obtain ⟨base,at_base,kept⟩ := Option.bind_eq_some_iff.mp snapshot
      split at kept
      · obtain rfl := Option.some.inj kept
        exact ⟨statusRow_nested base {d},principal_nonneg balances at_base {d},within.2⟩
      · cases kept
    · cases found

private theorem restrict_some {table : FactTable} {kept : Key × Date → Bool} {k : Key × Date} {row : FactRow}
    (found : (table.restrict kept).get k = some row) : table.get k = some row := by
  rw [Relation.restrict_get] at found
  split at found
  · exact found
  · cases found

/-- A build leaves rows of the table before it and rows that it selects. -/
theorem buildFact_mem {fullRefresh : Bool} {table : Option FactTable} {fact : FactTable}
    (built : buildFact h raw scope today fullRefresh table = some fact) {f : FactEntry} (inside : f ∈ fact.rows) :
    (∃ before, table = some before ∧ f ∈ before.rows) ∨ f ∈ (selectFact h raw scope today).rows := by
  obtain ⟨⟨l,d⟩,row⟩ := f
  cases table with
  | none =>
    cases fullRefresh
    all_goals
      obtain rfl := Option.some.inj built
      exact .inr inside
  | some before =>
    cases fullRefresh with
    | true =>
      obtain rfl := Option.some.inj built
      exact .inr inside
    | false =>
      rw [buildFact,append_deletes] at built
      obtain rfl := Option.some.inj built
      rw [Relation.mem_rows,Relation.union_get] at inside
      rcases Option.or_eq_some_iff.mp inside with kept | ⟨_,selected⟩
      · refine .inl ⟨before,rfl,Relation.mem_rows.mpr ?_⟩
        exact restrict_some (restrict_some kept)
      · exact .inr (Relation.mem_rows.mpr selected)

end Rows

/-- A row of `mart_delinquency_par` that no test selects, with a date up to a last one. -/
structure Passing (last : Date) (r : ParRow) : Prop where
  hierarchy : hierarchyViolated r.totals = false
  components : componentsExceed r.totals = false
  ratios : ratiosOutOfBounds r = false
  dated : r.key.snapshotDate ≤ last

/-- What a mart that reads regular fact rows shows. -/
theorem par_passing {fact : FactTable} {raw : RawTables} {run : Option MartRun} {last : Date}
    (regular : ∀ f ∈ fact.rows, Regular last f) {r : ParRow} (inside : r ∈ martDelinquencyPar run fact.rows raw) :
    Passing last r := by
  obtain ⟨g,grouped,n,_,rfl⟩ := par_selected inside
  have sound : Sound fact.rows := by
    refine ⟨?_,fun f member => (regular f member).nested⟩
    rw [Relation.rows_keys]
    exact fact.keys.nodup
  have nested : ∀ f ∈ groupRows run fact.rows g.key, Nested f.2 := groupRows_nested sound g.key
  have once := loans_once sound (le_refl (groupRows run fact.rows g.key))
  have among (f : FactEntry) (member : f ∈ groupRows run fact.rows g.key) : f ∈ fact.rows :=
    Multiset.mem_of_le (portfolioBase_le run fact.rows) (Multiset.mem_filter.mp member).1
  have nonNegative : NonNegative (groupRows run fact.rows g.key) := fun f member => (regular f (among f member)).principal
  refine ⟨hierarchy_holds once nested nonNegative,components_within once nonNegative,?_,?_⟩
  · simp only [ratiosOutOfBounds,Bool.or_eq_false_iff]
    exact ⟨⟨⟨ratio_bounded nonNegative (·.isPar30),ratio_bounded nonNegative (·.isPar60)⟩,
      ratio_bounded nonNegative (·.isPar90)⟩,ratio_bounded nonNegative npa⟩
  · obtain ⟨f,based,keyed⟩ := grouped_used grouped
    have dated := (regular f (Multiset.mem_of_le (portfolioBase_le run fact.rows) based)).dated
    rw [show f.1.2 = (parKey f).snapshotDate from rfl,keyed] at dated
    exact dated

private theorem health_dated {h : Hashes} {fact : FactTable} {raw : RawTables} {run : Option MartRun} {last : Date}
    (regular : ∀ f ∈ fact.rows, Regular last f) {r : HealthRow} (inside : r ∈ martPortfolioHealth h run fact.rows raw) :
    r.key.snapshotDate ≤ last := by
  rw [health_eq] at inside
  obtain ⟨sm,stock,named⟩ := (Multiset.mem_filterMap _ _).mp inside
  obtain ⟨n,_,rfl⟩ := Option.map_eq_some_iff.mp named
  obtain ⟨g,grouped,rfl⟩ := Multiset.mem_map.mp stock
  obtain ⟨⟨f,based,keyed⟩,_⟩ := mem_groupBy.mp grouped
  have dated := (regular f (Multiset.mem_of_le (portfolioBase_le run fact.rows) based)).dated
  rw [show f.1.2 = (parKey f).snapshotDate from rfl,keyed] at dated
  exact dated

/-- What holds of the rows of a mart. -/
def Holds (last : Date) : (m : Mart) → m.Row → Prop
  | .delinquencyPar => Passing last
  | .portfolioHealth => fun r : HealthRow => r.key.snapshotDate ≤ last

private theorem holds_selected {h : Hashes} {fact : FactTable} {raw : RawTables} {run : Option MartRun} {last : Date} (m : Mart)
    (regular : ∀ f ∈ fact.rows, Regular last f) : ∀ r ∈ m.select h run fact.rows raw, Holds last m r := by
  cases m with
  | delinquencyPar => exact fun r inside => par_passing regular inside
  | portfolioHealth => exact fun r inside => health_dated regular inside

theorem Holds.later {last last' : Date} {m : Mart} {r : m.Row} (holds : Holds last m r) (later : last ≤ last') :
    Holds last' m r := by
  cases m with
  | delinquencyPar => exact ⟨holds.hierarchy,holds.components,holds.ratios,holds.dated.trans later⟩
  | portfolioHealth => exact le_trans holds later

/-- A build leaves rows of the mart before it and rows that it selects. -/
theorem build_mem {h : Hashes} {m : Mart} {fullRefresh : Bool} {run : MartRun} {fact : Multiset FactEntry} {raw : RawTables}
    {rows : Option (Multiset m.Row)} {r : m.Row} (inside : r ∈ m.build h fullRefresh run fact raw rows) :
    (∃ before, rows = some before ∧ r ∈ before) ∨ ∃ run, r ∈ m.select h run fact raw := by
  cases rows with
  | none => cases fullRefresh <;> exact .inr ⟨none,inside⟩
  | some before =>
    cases fullRefresh with
    | true => exact .inr ⟨none,inside⟩
    | false =>
      rcases Multiset.mem_add.mp inside with kept | selected
      · exact .inl ⟨before,rfl,(Multiset.mem_filter.mp kept).1⟩
      · exact .inr ⟨some run,selected⟩

private theorem mem_getD {A : Type} {content : Option (Multiset A)} {r : A} (inside : r ∈ content.getD 0) :
    ∃ rows, content = some rows ∧ r ∈ rows := by
  cases content with
  | none => exact absurd inside (Multiset.notMem_zero r)
  | some rows => exact ⟨rows,rfl,inside⟩

/-- A run reads balances that are not negative. -/
def ReadsClean (s : Marts) : MartRuns.Act → Prop
  | .dbtRun _ _ _ => Balances s.raw
  | _ => True

instance readsClean_decidable (s : Marts) : (a : MartRuns.Act) → Decidable (ReadsClean s a)
  | .applyStagedBatch _ _ _ _ _ _ _ => isTrue trivial
  | .promoteShadow _ _ _ _ => isTrue trivial
  | .dbtRun _ _ _ => inferInstanceAs (Decidable (Balances s.raw))

/-- A step whose run reads balances that are not negative. -/
def CleanStep (p : Project) (s : Marts) (a : MartRuns.Act) (t : Marts) : Prop :=
  MartRuns.next p s a = some t ∧ ReadsClean s a

/-- The fact rows are regular and those of the marts pass, up to the date of the last run. -/
structure Clean (s : Marts) : Prop where
  fact : ∀ table, s.warehouse.factLoanSnapshot = some table →
    ∃ last, s.warehouse.ranOn = some last ∧ ∀ f ∈ table.rows, Regular last f
  marts : ∀ m rows, s.contents m = some rows → ∃ last, s.warehouse.ranOn = some last ∧ ∀ r ∈ rows, Holds last m r

section Runs
variable {p : Project} {s t : Marts}

private theorem clean_unbuilt (unbuilt : Unbuilt s) : Clean s := by
  refine ⟨?_,?_⟩
  · intro table found
    rw [unbuilt.fact] at found
    cases found
  · intro m rows found
    rw [unbuilt.contents] at found
    cases found

theorem Clean.run {fullRefresh : Bool} {today : Date} {built : Finset Consumer} {fact : FactTable} (clean : Clean s)
    (balances : Balances s.raw) (later : ∀ ran ∈ s.warehouse.ranOn, ran ≤ today) (ran : Ran p fullRefresh today built s t fact)
    (selected : buildFact p.hashes s.raw (s.warehouse.snapshotScope p fullRefresh today) today fullRefresh
      s.warehouse.factLoanSnapshot = some fact) : Clean t := by
  have regular : ∀ f ∈ fact.rows, Regular today f := by
    intro f inside
    rcases buildFact_mem selected inside with ⟨before,stored,old⟩ | new
    · obtain ⟨last,at_last,regular⟩ := clean.fact before stored
      exact (regular f old).later (later last at_last)
    · exact selected_regular balances new
  have before (m : Mart) (rows : Multiset m.Row) (stored : s.contents m = some rows) : ∀ r ∈ rows, Holds today m r := by
    intro r inside
    obtain ⟨last,at_last,holds⟩ := clean.marts m rows stored
    exact (holds r inside).later (later last at_last)
  refine ⟨?_,?_⟩
  · intro table stored
    obtain rfl := Option.some.inj (ran.stored.symm.trans stored)
    exact ⟨today,ran.ranOn,regular⟩
  · intro m rows stored
    refine ⟨today,ran.ranOn,fun r inside => ?_⟩
    rw [ran.contents] at stored
    split at stored
    · obtain rfl := Option.some.inj stored
      rcases build_mem inside with ⟨earlier,at_m,old⟩ | ⟨run,new⟩
      · exact before m earlier at_m r old
      · exact holds_selected m regular r new
    · exact before m rows stored r inside

theorem Clean.step {a : MartRuns.Act} (clean : Clean s) (step : CleanStep p s a t) : Clean t := by
  obtain ⟨taken,balances⟩ := step
  by_cases call : ∀ fullRefresh today built, a ≠ .dbtRun fullRefresh today built
  · obtain ⟨_,contents,fact,ranOn⟩ := call_keeps taken call
    refine ⟨?_,?_⟩
    · rw [fact,ranOn]
      exact clean.fact
    · rw [contents,ranOn]
      exact clean.marts
  · push Not at call
    obtain ⟨fullRefresh,today,built,rfl⟩ := call
    simp only [MartRuns.next] at taken
    split at taken
    · next allowed =>
      obtain ⟨fact,ran,selected⟩ := ran_of_run taken
      exact clean.run balances allowed.2 ran selected
    · cases taken

/-- In every run of calls and dbt runs that read no negative balance, full or incremental, on any day from the last dbt run
    on, the tests of the PAR figures and of the dates select nothing. -/
theorem par_tests_pass {s₀ : Marts} {trace : List MartRuns.Act} (unbuilt : Unbuilt s₀) (run : Run (CleanStep p) s₀ trace s)
    {currentDate : Date} (present : ∀ ran ∈ s.warehouse.ranOn, ran ≤ currentDate) :
    assertParHierarchyNeverViolated (parRows s) = 0 ∧ assertParComponentsNeverExceedPortfolio (parRows s) = 0 ∧
      assertParRatiosWithinBounds (parRows s) = 0 ∧
      assertNoFutureDatedFacts currentDate (parRows s) (healthRows s) (factRows s.warehouse.factLoanSnapshot) = 0 := by
  have clean : Clean s := run.stateInvariant (clean_unbuilt unbuilt) (fun _ _ _ clean step => clean.step step)
  have passing : ∀ r ∈ parRows s, Passing currentDate r := by
    intro r inside
    obtain ⟨rows,stored,inside⟩ := mem_getD inside
    obtain ⟨last,at_last,holds⟩ := clean.marts .delinquencyPar rows stored
    exact Holds.later (m := .delinquencyPar) (holds r inside) (present last at_last)
  have health_passing : ∀ r ∈ healthRows s, r.key.snapshotDate ≤ currentDate := by
    intro r inside
    obtain ⟨rows,stored,inside⟩ := mem_getD inside
    obtain ⟨last,at_last,holds⟩ := clean.marts .portfolioHealth rows stored
    exact le_trans (holds r inside) (present last at_last)
  have fact_passing : ∀ f ∈ factRows s.warehouse.factLoanSnapshot, f.1.2 ≤ currentDate := by
    intro f inside
    obtain ⟨rows,stored,inside⟩ := mem_getD inside
    obtain ⟨table,at_fact,rfl⟩ := Option.map_eq_some_iff.mp stored
    obtain ⟨last,at_last,regular⟩ := clean.fact table at_fact
    exact (regular f inside).dated.trans (present last at_last)
  refine ⟨?_,?_,?_,?_⟩
  · exact Multiset.filter_eq_nil.mpr (fun r inside violated => by simp [(passing r inside).hierarchy] at violated)
  · exact Multiset.filter_eq_nil.mpr (fun r inside violated => by simp [(passing r inside).components] at violated)
  · exact Multiset.filter_eq_nil.mpr (fun r inside violated => by simp [(passing r inside).ratios] at violated)
  · rw [assertNoFutureDatedFacts,Multiset.filter_eq_nil.mpr (fun r inside => not_lt.mpr (passing r inside).dated),
      Multiset.filter_eq_nil.mpr (fun r inside => not_lt.mpr (health_passing r inside)),
      Multiset.filter_eq_nil.mpr (fun f inside => not_lt.mpr (fact_passing f inside))]
    rfl

/-- The balance of a loan is 100 in the first run and 40 in the second. -/
theorem par_tests_pass_repaid : ∃ s, Run (CleanStep sampleProject) emptyMarts currencyRun s ∧ (parRows s).card = 2 ∧
    assertParHierarchyNeverViolated (parRows s) = 0 ∧ assertParComponentsNeverExceedPortfolio (parRows s) = 0 ∧
      assertParRatiosWithinBounds (parRows s) = 0 ∧
      assertNoFutureDatedFacts newYear (parRows s) (healthRows s) (factRows s.warehouse.factLoanSnapshot) = 0 := by
  have counted : (exec (nextWhere sampleProject ReadsClean) emptyMarts currencyRun).map (fun s =>
      ((parRows s).card,s.warehouse.ranOn)) = some (2,some newYear) := by decide +kernel
  obtain ⟨s,executed,counts⟩ := Option.map_eq_some_iff.mp counted
  have run : Run (CleanStep sampleProject) emptyMarts currencyRun s := exec_run (fun _ _ _ => nextWhere_some) executed
  have unbuilt : Unbuilt emptyMarts := ⟨rfl,fun _ => rfl,fun _ => rfl⟩
  have present : ∀ ran ∈ s.warehouse.ranOn, ran ≤ newYear := by
    intro ran found
    have at_newYear : s.warehouse.ranOn = some newYear := congrArg Prod.snd counts
    rw [at_newYear] at found
    exact (Option.some.inj found).ge
  exact ⟨s,run,congrArg Prod.fst counts,par_tests_pass unbuilt run present⟩

end Runs

end FineractBi.DataTests
