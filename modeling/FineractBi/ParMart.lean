import Mathlib.Algebra.Group.WithOne.Defs
import Mathlib.Algebra.Order.BigOperators.Group.Multiset
import Mathlib.Algebra.Order.Ring.Nat
import FineractBi.FactContent
import FineractBi.RepaymentMart

/-!
`mart_delinquency_par`: for each group of date, source, tenant, office, product
and currency the totals of the portfolio and of its PAR bands, beside one row for
each delinquency bucket and one for all of them. The figures are separate
conditional aggregates; they add up since the flags of a row are nested and a
loan occurs once on a date (`FactContent`).
-/
namespace FineractBi.ParMart
open Calendar Query FineractBi.Contract FineractBi.ApplyBatch FineractBi.Staging FineractBi.LoanSnapshot
open FineractBi.Delinquency FineractBi.FactBuild FineractBi.FactContent
open FineractBi.RepaymentMart (RecomputeRow sqlSum countDistinct dimOffice dimProduct)

/-- A row of `meta.dbt_mart_dirty`. -/
structure DirtyRow where
  runId : Nat
  sourceId : String
  officeId : Option Int
  productId : Option Int
  fromDate : Date
  changedFrom : Option Date
  deriving DecidableEq

/-- The dirty rows of an incremental run and the two run ids between which it reads them. -/
structure MartRun where
  lastRunId : Nat
  upperRunId : Nat
  dirty : Multiset DirtyRow

/-- `min` of a date column. -/
def least (dates : Multiset Date) : Date := (dates.toFinset.inf (fun d => (d : WithTop Date))).untopD endOfTime

/-- `mart_recompute_window`. -/
def martRecomputeWindow (fromColumn : DirtyRow → Option Date) (run : MartRun) : Multiset RecomputeRow :=
  (groupBy (fun d : DirtyRow => (d.sourceId,d.officeId,d.productId)) (run.dirty.filter (fun d =>
    run.lastRunId < d.runId ∧ d.runId ≤ run.upperRunId ∧ (fromColumn d).isSome))).map
    (fun g => ⟨g.1.1,g.1.2.1,g.1.2.2,least (g.2.filterMap fromColumn)⟩)

def onWindow (f : FactEntry) (w : RecomputeRow) : Bool :=
  f.1.1.sourceId = w.sourceId && f.2.officeId = w.officeId && f.2.productId = w.productId && w.recomputeFrom ≤ f.1.2

/-- The rows that a build aggregates: those of the window, or all of them when it is not incremental. -/
def portfolioBase (run : Option MartRun) (fact : Multiset FactEntry) : Multiset FactEntry :=
  match run with
  | none => fact
  | some run => (join onWindow fact (martRecomputeWindow (fun d => some d.fromDate) run)).map Prod.fst

/-- The columns of `group by 1, 2, 3, 4, 5, 6`. -/
structure ParKey where
  snapshotDate : Date
  sourceId : String
  tenantId : String
  officeId : Option Int
  productId : Option Int
  currencyCode : Option String
  deriving DecidableEq

def parKey (f : FactEntry) : ParKey :=
  ⟨f.1.2,f.1.1.sourceId,f.1.1.tenantId,f.2.officeId,f.2.productId,f.2.currencyCode⟩

/-- `sum(case when … then principal_outstanding else 0 end)`. -/
def amountWhere (flag : FactRow → Bool) (rows : Multiset FactEntry) : Option Rat :=
  sqlSum (rows.map (fun r => if flag r.2 then r.2.principalOutstanding else some 0))

/-- `count(distinct case when … then loan_id end)`. -/
def loanCountWhere (flag : FactRow → Bool) (rows : Multiset FactEntry) : Nat :=
  countDistinct (·.1.1.id) (rows.filter (fun r => flag r.2))

/-- `not is_par_30 and not is_watch_list`. -/
def performing (r : FactRow) : Bool := !r.isPar30 && !r.isWatchList

/-- `is_npa` where it is not NULL. -/
def npa (r : FactRow) : Bool := r.isNpa = some true

/-- A row of `portfolio_totals`, without its key. -/
structure ParTotals where
  totalLoanCount : Nat
  totalPortfolioAmount : Option Rat
  watchListAmount : Option Rat
  par3059Amount : Option Rat
  par6089Amount : Option Rat
  par90PlusAmount : Option Rat
  par30Amount : Option Rat
  par60Amount : Option Rat
  par90Amount : Option Rat
  npaAmount : Option Rat
  currentAmount : Option Rat
  watchListLoanCount : Nat
  par30LoanCount : Nat
  par60LoanCount : Nat
  par90LoanCount : Nat
  npaLoanCount : Nat
  currentLoanCount : Nat
  deriving DecidableEq

def parTotals (rows : Multiset FactEntry) : ParTotals where
  totalLoanCount := countDistinct (·.1.1.id) rows
  totalPortfolioAmount := sqlSum (rows.map (·.2.principalOutstanding))
  watchListAmount := amountWhere (·.isWatchList) rows
  par3059Amount := amountWhere (fun r => r.isPar30 && !r.isPar60) rows
  par6089Amount := amountWhere (fun r => r.isPar60 && !r.isPar90) rows
  par90PlusAmount := amountWhere (·.isPar90) rows
  par30Amount := amountWhere (·.isPar30) rows
  par60Amount := amountWhere (·.isPar60) rows
  par90Amount := amountWhere (·.isPar90) rows
  npaAmount := amountWhere npa rows
  currentAmount := amountWhere performing rows
  watchListLoanCount := loanCountWhere (·.isWatchList) rows
  par30LoanCount := loanCountWhere (·.isPar30) rows
  par60LoanCount := loanCountWhere (·.isPar60) rows
  par90LoanCount := loanCountWhere (·.isPar90) rows
  npaLoanCount := loanCountWhere npa rows
  currentLoanCount := loanCountWhere performing rows

/-- The columns of `group by 1, …, 9`. -/
structure BucketKey where
  key : ParKey
  bucketKey : Int
  bucketName : String
  standardParBand : String
  deriving DecidableEq

def bucketKey (f : FactEntry) : BucketKey := ⟨parKey f,f.2.bucketKey,f.2.bucketName,f.2.standardParBand⟩

/-- A row of `grouped`. -/
structure BucketRow extends BucketKey where
  bucketLoanCount : Nat
  bucketOutstandingAmount : Option Rat
  deriving DecidableEq

section
variable (run : Option MartRun) (fact : Multiset FactEntry) (raw : RawTables)

def portfolioTotals : Multiset (ParKey × ParTotals) :=
  (groupBy parKey (portfolioBase run fact)).map (fun g => (g.1,parTotals g.2))

def bucketDistribution : Multiset BucketRow :=
  (groupBy bucketKey (portfolioBase run fact)).map (fun g =>
    ⟨g.1,countDistinct (·.1.1.id) g.2,sqlSum (g.2.map (·.2.principalOutstanding))⟩)

def allPortfolio (pt : ParKey × ParTotals) : BucketRow :=
  ⟨⟨pt.1,-1,"All Portfolio","All Portfolio"⟩,pt.2.totalLoanCount,pt.2.totalPortfolioAmount⟩

/-- The rows of the buckets, and one of all of them for each group. -/
def grouped : Multiset BucketRow := bucketDistribution run fact + (portfolioTotals run fact).map allPortfolio

/-- The six equalities of the join with `portfolio_totals`. -/
def onTotals (g : BucketRow) (pt : ParKey × ParTotals) : Bool :=
  g.key.snapshotDate = pt.1.snapshotDate && g.key.sourceId = pt.1.sourceId && g.key.tenantId = pt.1.tenantId &&
    sqlEq g.key.officeId pt.1.officeId && sqlEq g.key.productId pt.1.productId &&
    sqlEq g.key.currencyCode pt.1.currencyCode

/-- A group of an office or product, by the dimension's key. -/
def ParKey.refers (k : ParKey) (id : Option Int) (k' : Key) : Bool := names ⟨k.sourceId,k.tenantId,0⟩ id k'

def onOffice (r : BucketRow × (ParKey × ParTotals)) (o : Key × Option String) : Bool :=
  r.1.key.refers r.1.key.officeId o.1

abbrev NamedRow := ((BucketRow × (ParKey × ParTotals)) × (Key × Option String)) × (Key × Option String)

def onProduct (r : (BucketRow × (ParKey × ParTotals)) × (Key × Option String)) (p : Key × Option String) : Bool :=
  r.1.1.key.refers r.1.1.key.productId p.1

/-- `safe_divide`. -/
def safeDivide (numerator denominator : Option Rat) : Option Rat :=
  match numerator,denominator with
  | some n,some d => if d = 0 then none else some (n / d)
  | _,_ => none

/-- A row of the mart, without `dbt_loaded_at`. -/
structure ParRow extends BucketRow where
  officeName : Option String
  productName : Option String
  totals : ParTotals
  par30Ratio : Option Rat
  par60Ratio : Option Rat
  par90Ratio : Option Rat
  npaRatio : Option Rat
  par30Rate : Option Rat
  par60Rate : Option Rat
  par90Rate : Option Rat
  averageLoanOutstanding : Option Rat
  deriving DecidableEq

/-- The select list. -/
def selectPar (r : NamedRow) : ParRow :=
  let pt := r.1.1.2.2
  let loans := some (pt.totalLoanCount : Rat)
  { toBucketRow := r.1.1.1
    officeName := r.1.2.2
    productName := r.2.2
    totals := pt
    par30Ratio := safeDivide pt.par30Amount pt.totalPortfolioAmount
    par60Ratio := safeDivide pt.par60Amount pt.totalPortfolioAmount
    par90Ratio := safeDivide pt.par90Amount pt.totalPortfolioAmount
    npaRatio := safeDivide pt.npaAmount pt.totalPortfolioAmount
    par30Rate := safeDivide (some (pt.par30LoanCount : Rat)) loans
    par60Rate := safeDivide (some (pt.par60LoanCount : Rat)) loans
    par90Rate := safeDivide (some (pt.par90LoanCount : Rat)) loans
    averageLoanOutstanding := safeDivide pt.totalPortfolioAmount loans }

/-- The rows that a build of `mart_delinquency_par` inserts. -/
def martDelinquencyPar : Multiset ParRow :=
  (join onProduct (join onOffice (join onTotals (grouped run fact) (portfolioTotals run fact)) (dimOffice raw).rows)
    (dimProduct raw).rows).map selectPar

end

/-- `+` of SQL. -/
def plus (a b : Option Rat) : Option Rat := Option.map₂ (· + ·) a b

/-- The amounts of the bands make up the portfolio and the cumulative amounts. -/
structure AmountsPartition (t : ParTotals) : Prop where
  portfolio : plus (plus (plus (plus t.currentAmount t.watchListAmount) t.par3059Amount) t.par6089Amount) t.par90PlusAmount =
    t.totalPortfolioAmount
  par30 : t.par30Amount = plus (plus t.par3059Amount t.par6089Amount) t.par90PlusAmount
  par60 : t.par60Amount = plus t.par6089Amount t.par90Amount

/-- So do the loan counts, and the cumulative ones decrease. -/
structure CountsPartition (t : ParTotals) : Prop where
  portfolio : t.currentLoanCount + t.watchListLoanCount + t.par30LoanCount = t.totalLoanCount
  par60 : t.par90LoanCount ≤ t.par60LoanCount
  par30 : t.par60LoanCount ≤ t.par30LoanCount

/-- The row over all buckets. -/
def ParRow.isAllPortfolio (r : ParRow) : Bool :=
  r.bucketKey = -1 && r.bucketName = "All Portfolio" && r.standardParBand = "All Portfolio"

/-- One row over all buckets, and the rows of the buckets sum to it. -/
def BucketsSum (rows : Multiset ParRow) : Prop :=
  ∃ all, rows.filter (fun r => r.isAllPortfolio) = {all} ∧
    sqlSum ((rows.filter (fun r => !r.isAllPortfolio)).map (·.bucketOutstandingAmount)) = all.bucketOutstandingAmount ∧
    ((rows.filter (fun r => !r.isAllPortfolio)).map (·.bucketLoanCount)).sum = all.bucketLoanCount

/-- The band that the flags of a row put it in. -/
def flags (r : FactRow) : Bool × Bool × Bool × Bool := (r.isWatchList,r.isPar30,r.isPar60,r.isPar90)

/-- Some loan of the group has a principal outstanding, or all its loans are in one band. -/
def Summable (rows : Multiset FactEntry) : Prop :=
  (∃ r ∈ rows, r.2.principalOutstanding.isSome) ∨ ∀ r ∈ rows, ∀ r' ∈ rows, flags r.2 = flags r'.2

/-! ### Sums with NULL -/

/-- A value as something to sum, NULL adding nothing. -/
def summand (x : Option Rat) : WithZero Rat := x

private theorem sqlSum_cons (x : Option Rat) (rest : Multiset (Option Rat)) :
    summand (sqlSum (x ::ₘ rest)) = summand x + summand (sqlSum rest) := by
  cases x with
  | none =>
    rw [sqlSum,Multiset.filterMap_cons_none _ _ rfl]
    exact (zero_add (summand (sqlSum rest))).symm
  | some q =>
    rw [sqlSum,Multiset.filterMap_cons_some id _ _ rfl,Multiset.card_cons,if_neg (Nat.succ_ne_zero _),
      Multiset.sum_cons,sqlSum]
    split
    · next empty =>
      rw [Multiset.card_eq_zero.mp empty,Multiset.sum_zero,add_zero]
      rfl
    · rfl

private theorem summand_sqlSum (values : Multiset (Option Rat)) : summand (sqlSum values) = (values.map summand).sum := by
  induction values using Multiset.induction_on with
  | empty => rfl
  | cons x rest ih => rw [sqlSum_cons,ih,Multiset.map_cons,Multiset.sum_cons]

private theorem sqlSum_known {values : Multiset (Option Rat)} (known : ∃ v ∈ values, v.isSome) :
    sqlSum values = some ((values.map (·.getD 0)).sum) := by
  obtain ⟨v,inside,present⟩ := known
  obtain ⟨q,rfl⟩ := Option.isSome_iff_exists.mp present
  have found : q ∈ values.filterMap id := Multiset.mem_filterMap id values |>.mpr ⟨some q,inside,rfl⟩
  have total := RepaymentMart.sqlSum_getD values
  rw [← total,sqlSum,if_neg (fun empty => absurd found (by rw [Multiset.card_eq_zero.mp empty]; exact Multiset.notMem_zero _))]
  rfl

private theorem sqlSum_unknown {values : Multiset (Option Rat)} (unknown : ∀ v ∈ values, v = none) : sqlSum values = none := by
  refine if_pos (Multiset.card_eq_zero.mpr (Multiset.eq_zero_of_forall_notMem (fun q found => ?_)))
  obtain ⟨v,inside,present⟩ := (Multiset.mem_filterMap id values).mp found
  rw [unknown v inside] at present
  cases present

section
variable {rows : Multiset FactEntry} {flag : FactRow → Bool}

/-- With some principal known, a figure is the sum of the flagged principals. -/
theorem amountWhere_known (known : ∃ r ∈ rows, r.2.principalOutstanding.isSome) : amountWhere flag rows =
    some ((rows.map (fun r => if flag r.2 then r.2.principalOutstanding.getD 0 else 0)).sum) := by
  have some_summand : ∃ v ∈ rows.map (fun r => if flag r.2 then r.2.principalOutstanding else some 0), v.isSome := by
    obtain ⟨r,inside,present⟩ := known
    refine ⟨_,Multiset.mem_map_of_mem _ inside,?_⟩
    cases flag r.2
    · rfl
    · exact present
  rw [amountWhere,sqlSum_known some_summand,Multiset.map_map]
  refine congrArg (fun values => some (Multiset.sum values)) (Multiset.map_congr rfl (fun r _ => ?_))
  rw [Function.comp_apply]
  split <;> rfl

/-- A figure is NULL only when every row is flagged. -/
theorem amountWhere_null (null : amountWhere flag rows = none) : ∀ r ∈ rows, flag r.2 = true := by
  intro r inside
  by_contra plain
  have zero : ∃ v ∈ rows.map (fun r => if flag r.2 then r.2.principalOutstanding else some 0), v.isSome :=
    ⟨_,Multiset.mem_map_of_mem _ inside,by simp [plain]⟩
  rw [amountWhere,sqlSum_known zero] at null
  cases null

/-- The figure of rows that are all flagged, or all not. -/
theorem amountWhere_alike (unknown : ∀ r ∈ rows, r.2.principalOutstanding = none) {r : FactEntry} (inside : r ∈ rows)
    (alike : ∀ r' ∈ rows, flag r'.2 = flag r.2) : amountWhere flag rows = cond (flag r.2) none (some 0) := by
  cases flagged : flag r.2 with
  | true =>
    refine sqlSum_unknown (fun v member => ?_)
    obtain ⟨r',inside',rfl⟩ := Multiset.mem_map.mp member
    rw [alike r' inside',flagged,if_pos rfl,unknown r' inside']
  | false =>
    have zeros : rows.map (fun r => if flag r.2 then r.2.principalOutstanding else some 0) = rows.map (fun _ => some 0) :=
      Multiset.map_congr rfl (fun r' inside' => by rw [alike r' inside',flagged]; rfl)
    have zero : ∃ v ∈ rows.map (fun _ => some (0 : Rat)), v.isSome := ⟨some 0,Multiset.mem_map.mpr ⟨r,inside,rfl⟩,rfl⟩
    rw [amountWhere,zeros,sqlSum_known zero]
    simp

/-- With some principal known, the amounts of the bands add up row by row. -/
theorem amounts_known (nested : ∀ r ∈ rows, Nested r.2) (known : ∃ r ∈ rows, r.2.principalOutstanding.isSome) :
    AmountsPartition (parTotals rows) := by
  have total : sqlSum (rows.map (·.2.principalOutstanding)) =
      some ((rows.map (fun r => r.2.principalOutstanding.getD 0)).sum) := by
    obtain ⟨r,inside,present⟩ := known
    rw [sqlSum_known ⟨_,Multiset.mem_map_of_mem _ inside,present⟩,Multiset.map_map]
    rfl
  refine ⟨?_,?_,?_⟩
  · simp only [parTotals,amountWhere_known known,total,plus,Option.map₂_some_some,← Multiset.sum_map_add]
    refine congrArg (fun values => some (Multiset.sum values)) (Multiset.map_congr rfl (fun r inside => ?_))
    obtain ⟨par60,par30,watchList,_⟩ := nested r inside
    revert par60 par30 watchList
    unfold performing
    cases r.2.isWatchList <;> cases r.2.isPar30 <;> cases r.2.isPar60 <;> cases r.2.isPar90 <;> simp
  · simp only [parTotals,amountWhere_known known,plus,Option.map₂_some_some,← Multiset.sum_map_add]
    refine congrArg (fun values => some (Multiset.sum values)) (Multiset.map_congr rfl (fun r inside => ?_))
    obtain ⟨par60,par30,_,_⟩ := nested r inside
    revert par60 par30
    cases r.2.isPar30 <;> cases r.2.isPar60 <;> cases r.2.isPar90 <;> simp
  · simp only [parTotals,amountWhere_known known,plus,Option.map₂_some_some,← Multiset.sum_map_add]
    refine congrArg (fun values => some (Multiset.sum values)) (Multiset.map_congr rfl (fun r inside => ?_))
    obtain ⟨par60,_,_,_⟩ := nested r inside
    revert par60
    cases r.2.isPar60 <;> cases r.2.isPar90 <;> simp

/-- Rows of one band have the same flags. -/
theorem band_flags {r r' : FactRow} (nested : Nested r) (nested' : Nested r')
    (band : (performing r ∧ performing r') ∨ (r.isWatchList ∧ r'.isWatchList) ∨
      ((r.isPar30 && !r.isPar60) ∧ (r'.isPar30 && !r'.isPar60)) ∨
      ((r.isPar60 && !r.isPar90) ∧ (r'.isPar60 && !r'.isPar90)) ∨ (r.isPar90 ∧ r'.isPar90)) : flags r = flags r' := by
  obtain ⟨par60,par30,watchList,_⟩ := nested
  obtain ⟨par60',par30',watchList',_⟩ := nested'
  unfold flags
  rcases band with ⟨on,on'⟩ | ⟨on,on'⟩ | ⟨on,on'⟩ | ⟨on,on'⟩ | ⟨on,on'⟩
  · simp_all [performing]
  · simp_all
  · simp_all
  · simp_all
  · simp_all

private theorem total_unknown (unknown : ∀ r ∈ rows, r.2.principalOutstanding = none) :
    (parTotals rows).totalPortfolioAmount = none := by
  refine sqlSum_unknown (fun v member => ?_)
  obtain ⟨r,inside,rfl⟩ := Multiset.mem_map.mp member
  exact unknown r inside

/-- With no principal known, rows of one band show NULL for it and for the portfolio. -/
theorem amounts_alike (unknown : ∀ r ∈ rows, r.2.principalOutstanding = none) {r : FactEntry} (inside : r ∈ rows)
    (nested : Nested r.2) (alike : ∀ r' ∈ rows, flags r'.2 = flags r.2) : AmountsPartition (parTotals rows) := by
  have watch (r' : FactEntry) (inside' : r' ∈ rows) : r'.2.isWatchList = r.2.isWatchList :=
    congrArg Prod.fst (alike r' inside')
  have par30 (r' : FactEntry) (inside' : r' ∈ rows) : r'.2.isPar30 = r.2.isPar30 :=
    congrArg (fun f => f.2.1) (alike r' inside')
  have par60 (r' : FactEntry) (inside' : r' ∈ rows) : r'.2.isPar60 = r.2.isPar60 :=
    congrArg (fun f => f.2.2.1) (alike r' inside')
  have par90 (r' : FactEntry) (inside' : r' ∈ rows) : r'.2.isPar90 = r.2.isPar90 :=
    congrArg (fun f => f.2.2.2) (alike r' inside')
  have figure (flag : FactRow → Bool) (on_flags : ∀ r' ∈ rows, flag r'.2 = flag r.2) :
      amountWhere flag rows = cond (flag r.2) none (some 0) := amountWhere_alike unknown inside on_flags
  have current := figure performing (fun r' inside' => by rw [performing,performing,watch r' inside',par30 r' inside'])
  have band30 := figure (fun r => r.isPar30 && !r.isPar60) (fun r' inside' => by rw [par30 r' inside',par60 r' inside'])
  have band60 := figure (fun r => r.isPar60 && !r.isPar90) (fun r' inside' => by rw [par60 r' inside',par90 r' inside'])
  have on_watch := figure (·.isWatchList) watch
  have on_par30 := figure (·.isPar30) par30
  have on_par60 := figure (·.isPar60) par60
  have on_par90 := figure (·.isPar90) par90
  obtain ⟨nested60,nested30,nested_watch,_⟩ := nested
  refine ⟨?_,?_,?_⟩
  · rw [total_unknown unknown]
    simp only [parTotals,current,on_watch,band30,band60,on_par90,plus,performing]
    revert nested60 nested30 nested_watch
    cases r.2.isWatchList <;> cases r.2.isPar30 <;> cases r.2.isPar60 <;> cases r.2.isPar90 <;> simp
  · simp only [parTotals,on_par30,band30,band60,on_par90,plus]
    revert nested60 nested30
    cases r.2.isPar30 <;> cases r.2.isPar60 <;> cases r.2.isPar90 <;> simp
  · simp only [parTotals,on_par60,band60,on_par90,plus]
    revert nested60
    cases r.2.isPar60 <;> cases r.2.isPar90 <;> simp

/-- With none known, the amounts add up when all rows are in one band: otherwise each band shows 0 and the portfolio
    NULL. -/
theorem amounts_unknown (nested : ∀ r ∈ rows, Nested r.2) (unknown : ∀ r ∈ rows, r.2.principalOutstanding = none)
    {r : FactEntry} (inside : r ∈ rows) :
    AmountsPartition (parTotals rows) ↔ ∀ r ∈ rows, ∀ r' ∈ rows, flags r.2 = flags r'.2 := by
  refine ⟨?_,fun alike => amounts_alike unknown inside (nested r inside) (fun r' inside' => alike r' inside' r inside)⟩
  intro partition r inside r' inside'
  have null := partition.portfolio
  rw [total_unknown unknown] at null
  simp only [plus,parTotals,Option.map₂_eq_none_iff] at null
  refine band_flags (nested r inside) (nested r' inside') ?_
  rcases null with (((null | null) | null) | null) | null
  · exact .inl ⟨amountWhere_null null r inside,amountWhere_null null r' inside'⟩
  · exact .inr (.inl ⟨amountWhere_null null r inside,amountWhere_null null r' inside'⟩)
  · exact .inr (.inr (.inl ⟨amountWhere_null null r inside,amountWhere_null null r' inside'⟩))
  · exact .inr (.inr (.inr (.inl ⟨amountWhere_null null r inside,amountWhere_null null r' inside'⟩)))
  · exact .inr (.inr (.inr (.inr ⟨amountWhere_null null r inside,amountWhere_null null r' inside'⟩)))

private theorem amounts_iff (nested : ∀ r ∈ rows, Nested r.2) {r : FactEntry} (inside : r ∈ rows) :
    AmountsPartition (parTotals rows) ↔ Summable rows := by
  by_cases known : ∃ r ∈ rows, r.2.principalOutstanding.isSome
  · exact iff_of_true (amounts_known nested known) (.inl known)
  · have unknown : ∀ r ∈ rows, r.2.principalOutstanding = none := by simpa using known
    rw [amounts_unknown nested unknown inside,Summable,or_iff_right known]

end

section
variable {rows : Multiset FactEntry}

theorem countDistinct_eq {A B : Type} [DecidableEq B] {f : A → B} {rows : Multiset A} (distinct : (rows.map f).Nodup) :
    countDistinct f rows = rows.card := by
  rw [countDistinct,Multiset.dedup_eq_self.mpr distinct,Multiset.card_map]

/-- With every loan once, the loans of a flag are its rows. -/
theorem loanCountWhere_eq (once : (rows.map (·.1.1.id)).Nodup) (flag : FactRow → Bool) :
    loanCountWhere flag rows = (rows.map (fun r => if flag r.2 then 1 else 0)).sum := by
  rw [loanCountWhere,countDistinct_eq (Multiset.nodup_of_le (Multiset.map_le_map (Multiset.filter_le _ _)) once),
    sum_ite_const,Nat.nsmul_eq_mul,mul_one]

theorem counts_partition (once : (rows.map (·.1.1.id)).Nodup) (nested : ∀ r ∈ rows, Nested r.2) :
    CountsPartition (parTotals rows) := by
  have total : (parTotals rows).totalLoanCount = (rows.map (fun _ => 1)).sum := by
    rw [Multiset.map_const',Multiset.sum_replicate,Nat.nsmul_eq_mul,mul_one]
    exact countDistinct_eq once
  refine ⟨?_,?_,?_⟩
  · rw [total]
    simp only [parTotals,loanCountWhere_eq once,← Multiset.sum_map_add]
    refine congrArg Multiset.sum (Multiset.map_congr rfl (fun r inside => ?_))
    have watchList := (nested r inside).watchList
    revert watchList
    unfold performing
    cases r.2.isWatchList <;> cases r.2.isPar30 <;> simp
  · simp only [parTotals,loanCountWhere_eq once]
    refine Multiset.sum_map_le_sum_map _ _ (fun r inside => ?_)
    have par60 := (nested r inside).par60
    revert par60
    cases r.2.isPar60 <;> cases r.2.isPar90 <;> simp
  · simp only [parTotals,loanCountWhere_eq once]
    refine Multiset.sum_map_le_sum_map _ _ (fun r inside => ?_)
    have par30 := (nested r inside).par30
    revert par30
    cases r.2.isPar30 <;> cases r.2.isPar60 <;> simp

end

section
variable {run : Option MartRun} {fact : Multiset FactEntry}

/-- The rows that a build aggregates for a group. -/
def groupRows (run : Option MartRun) (fact : Multiset FactEntry) (k : ParKey) : Multiset FactEntry :=
  (portfolioBase run fact).filter (fun f => parKey f = k)

theorem martRecomputeWindow_nodup (fromColumn : DirtyRow → Option Date) (run : MartRun) :
    ((martRecomputeWindow fromColumn run).map (fun w => (w.sourceId,w.officeId,w.productId))).Nodup := by
  rw [martRecomputeWindow,Multiset.map_map]
  exact groupBy_keys_nodup _ _

/-- The window keeps every row at most once. -/
theorem portfolioBase_le (run : Option MartRun) (fact : Multiset FactEntry) : portfolioBase run fact ≤ fact := by
  cases run with
  | none => exact le_rfl
  | some run =>
    have few (f : FactEntry) : (matching onWindow (martRecomputeWindow (fun d => some d.fromDate) run) f).card ≤ 1 := by
      refine matching_le_one (martRecomputeWindow_nodup _ run) (fun w w' _ _ on_w on_w' => ?_)
      simp only [onWindow,Bool.and_eq_true,decide_eq_true_eq] at on_w on_w'
      rw [← on_w.1.1.1,← on_w.1.1.2,← on_w.1.2,← on_w'.1.1.1,← on_w'.1.1.2,← on_w'.1.2]
    rw [portfolioBase,join_map_fst (fun f _ => few f)]
    exact Multiset.filter_le _ _

theorem groupRows_nested (sound : Sound fact) (k : ParKey) : ∀ r ∈ groupRows run fact k, Nested r.2 :=
  fun r inside => sound.nested r (Multiset.mem_of_le (portfolioBase_le run fact) (Multiset.mem_filter.mp inside).1)

/-- A loan is once among rows of one group. -/
theorem loans_once (sound : Sound fact) {k : ParKey} {rows : Multiset FactEntry} (among : rows ≤ groupRows run fact k) :
    (rows.map (·.1.1.id)).Nodup := by
  have within : rows ≤ fact := among.trans ((Multiset.filter_le _ _).trans (portfolioBase_le run fact))
  have once : (rows.map Prod.fst).Nodup := Multiset.nodup_of_le (Multiset.map_le_map within) sound.once
  refine (Multiset.Nodup.of_map _ once).map_on ?_
  rintro ⟨⟨⟨source,tenant,id⟩,d⟩,row⟩ inside ⟨⟨⟨source',tenant',id'⟩,d'⟩,row'⟩ inside' same
  have key := (Multiset.mem_filter.mp (Multiset.mem_of_le among inside)).2
  have key' := (Multiset.mem_filter.mp (Multiset.mem_of_le among inside')).2
  have keys := key.trans key'.symm
  simp only [parKey,ParKey.mk.injEq] at keys
  obtain ⟨rfl,rfl,rfl,_⟩ := keys
  obtain rfl : id = id' := same
  exact Multiset.inj_on_of_nodup_map once _ inside _ inside' rfl

/-! ### The rows of the mart -/

/-- The key of a group, as the dimensions are joined on it. -/
def ParKey.toMart (k : ParKey) : RepaymentMart.MartKey :=
  ⟨k.sourceId,k.tenantId,some k.snapshotDate,k.officeId,k.productId,k.currencyCode,none⟩

/-- The columns of a group that are joined on are not NULL. -/
def Comparable (k : ParKey) : Prop := k.officeId.isSome ∧ k.productId.isSome ∧ k.currencyCode.isSome

instance (k : ParKey) : Decidable (Comparable k) := inferInstanceAs (Decidable (_ ∧ _ ∧ _))

/-- The dimension rows of a group that the mart shows. -/
def shown (raw : RawTables) (k : ParKey) : Option ((Key × Option String) × (Key × Option String)) :=
  if Comparable k then RepaymentMart.namesOf raw k.toMart else none

def totalsOf (run : Option MartRun) (fact : Multiset FactEntry) (k : ParKey) : ParKey × ParTotals :=
  (k,parTotals (groupRows run fact k))

private theorem onTotals_iff {g : BucketRow} {pt : ParKey × ParTotals} :
    onTotals g pt = true ↔ pt.1 = g.key ∧ Comparable g.key := by
  obtain ⟨⟨⟨d,s,t,o,p,c⟩,b,n,l⟩,_,_⟩ := g
  obtain ⟨⟨d',s',t',o',p',c'⟩,_⟩ := pt
  simp only [onTotals,Bool.and_eq_true,decide_eq_true_eq,sqlEq_iff,Comparable,ParKey.mk.injEq]
  constructor
  · rintro ⟨⟨⟨⟨⟨rfl,rfl⟩,rfl⟩,rfl,office⟩,rfl,product⟩,rfl,currency⟩
    exact ⟨⟨rfl,rfl,rfl,rfl,rfl,rfl⟩,office,product,currency⟩
  · rintro ⟨⟨rfl,rfl,rfl,rfl,rfl,rfl⟩,office,product,currency⟩
    exact ⟨⟨⟨⟨⟨rfl,rfl⟩,rfl⟩,rfl,office⟩,rfl,product⟩,rfl,currency⟩

theorem portfolioTotals_filter {k : ParKey} (used : ∃ f ∈ portfolioBase run fact, parKey f = k) :
    (portfolioTotals run fact).filter (fun pt => pt.1 = k) = {totalsOf run fact k} := by
  rw [portfolioTotals,Multiset.filter_map]
  exact (congrArg (Multiset.map _) (groupBy_filter_key used)).trans rfl

private theorem bucketDistribution_used {g : BucketRow} (inside : g ∈ bucketDistribution run fact) :
    ∃ f ∈ portfolioBase run fact, bucketKey f = g.toBucketKey := by
  obtain ⟨group,member,rfl⟩ := Multiset.mem_map.mp inside
  exact (mem_groupBy.mp member).1

theorem grouped_used {g : BucketRow} (inside : g ∈ grouped run fact) : ∃ f ∈ portfolioBase run fact, parKey f = g.key := by
  rcases Multiset.mem_add.mp inside with bucket | total
  · obtain ⟨f,member,own⟩ := bucketDistribution_used bucket
    exact ⟨f,member,congrArg BucketKey.key own⟩
  · obtain ⟨pt,totalled,rfl⟩ := Multiset.mem_map.mp total
    obtain ⟨group,member,rfl⟩ := Multiset.mem_map.mp totalled
    exact (mem_groupBy.mp member).1

/-- A row of `grouped` is in the mart with the totals of its group, when the mart shows the group. -/
theorem mart_eq (raw : RawTables) : martDelinquencyPar run fact raw = (grouped run fact).filterMap (fun g =>
    (shown raw g.key).map (fun n => selectPar (((g,totalsOf run fact g.key),n.1),n.2))) := by
  have totals : join onTotals (grouped run fact) (portfolioTotals run fact) = (grouped run fact).filterMap (fun g =>
      (if Comparable g.key then some (totalsOf run fact g.key) else none).map (fun pt => (g,pt))) := by
    refine join_eq_filterMap (fun g inside => ?_)
    by_cases comparable : Comparable g.key
    · rw [if_pos comparable,matching]
      refine Eq.trans ?_ (portfolioTotals_filter (grouped_used inside))
      exact Multiset.filter_congr (fun pt _ => by rw [onTotals_iff,and_iff_left comparable])
    · rw [if_neg comparable]
      exact Multiset.filter_eq_nil.mpr (fun pt _ on_pt => comparable (onTotals_iff.mp on_pt).2)
  have names := RepaymentMart.names_join raw (fun r : BucketRow × (ParKey × ParTotals) => r.1.key.toMart)
    (join onTotals (grouped run fact) (portfolioTotals run fact))
  rw [martDelinquencyPar]
  refine (congrArg (Multiset.map selectPar) names).trans ?_
  rw [totals,Multiset.filterMap_filterMap,Multiset.map_filterMap]
  refine filterMap_congr (fun g _ => ?_)
  simp only [shown]
  by_cases comparable : Comparable g.key
  · simp [comparable,Function.comp_def]
  · simp [comparable]

/-- The rows of a group that the mart shows. -/
theorem mart_filter {raw : RawTables} {k : ParKey} {n : (Key × Option String) × (Key × Option String)}
    (found : shown raw k = some n) : (martDelinquencyPar run fact raw).filter (fun r => r.key = k) =
      ((grouped run fact).filter (fun g => g.key = k)).map (fun g => selectPar (((g,totalsOf run fact k),n.1),n.2)) := by
  rw [mart_eq,Multiset.filter_filterMap,← Multiset.filterMap_eq_map,Multiset.filterMap_filter]
  refine filterMap_congr (fun g _ => ?_)
  by_cases own : g.key = k
  · subst own
    simp [found,selectPar]
  · rw [if_neg own]
    cases shown raw g.key with
    | none => rfl
    | some n' => simp [selectPar,own]

private theorem bucketDistribution_plain (sound : Sound fact) {g : BucketRow} (inside : g ∈ bucketDistribution run fact) :
    g.standardParBand ≠ "All Portfolio" := by
  obtain ⟨f,member,own⟩ := bucketDistribution_used inside
  rw [← congrArg BucketKey.standardParBand own]
  exact (sound.nested f (Multiset.mem_of_le (portfolioBase_le run fact) member)).band

/-- The amounts of the buckets of a group sum to that of the group. -/
theorem bucket_amounts (run : Option MartRun) (fact : Multiset FactEntry) (k : ParKey) :
    sqlSum (((bucketDistribution run fact).filter (fun g => g.key = k)).map (·.bucketOutstandingAmount)) =
      (totalsOf run fact k).2.totalPortfolioAmount := by
  show summand (sqlSum _) = summand (sqlSum _)
  rw [summand_sqlSum,summand_sqlSum,Multiset.map_map,Multiset.map_map,sum_filter,bucketDistribution,Multiset.map_map,
    groupRows,sum_filter]
  refine Eq.trans ?_ (sum_groupBy_where bucketKey (portfolioBase run fact) (fun f => summand f.2.principalOutstanding)
    (fun b => b.key = k))
  refine congrArg Multiset.sum (Multiset.map_congr rfl (fun g _ => ?_))
  simp only [Function.comp_apply,summand_sqlSum,Multiset.map_map]

/-- So do the counts. -/
theorem bucket_counts (sound : Sound fact) (k : ParKey) :
    (((bucketDistribution run fact).filter (fun g => g.key = k)).map (·.bucketLoanCount)).sum =
      (totalsOf run fact k).2.totalLoanCount := by
  have total : (totalsOf run fact k).2.totalLoanCount = ((groupRows run fact k).map (fun _ => 1)).sum := by
    rw [Multiset.map_const',Multiset.sum_replicate,Nat.nsmul_eq_mul,mul_one]
    exact countDistinct_eq (loans_once sound le_rfl)
  rw [total,sum_filter,bucketDistribution,Multiset.map_map,groupRows,sum_filter]
  refine Eq.trans ?_ (sum_groupBy_where bucketKey (portfolioBase run fact) (fun _ => 1) (fun b => b.key = k))
  refine congrArg Multiset.sum (Multiset.map_congr rfl (fun g inside => ?_))
  obtain ⟨_,own⟩ := mem_groupBy.mp inside
  by_cases of_group : g.1.key = k
  · have among : g.2 ≤ groupRows run fact k := by
      rw [← own]
      refine Multiset.monotone_filter_right _ (fun f same => ?_)
      rw [← of_group,← same]
      rfl
    simp only [Function.comp_apply,of_group,if_true]
    rw [countDistinct_eq (loans_once sound among),Multiset.map_const',Multiset.sum_replicate,Nat.nsmul_eq_mul,mul_one]
  · simp [of_group]

/-- The rows of a group that the mart shows: its buckets, and one row over them. -/
theorem buckets_sum (sound : Sound fact) {raw : RawTables} {k : ParKey} (used : ∃ f ∈ portfolioBase run fact, parKey f = k)
    {n : (Key × Option String) × (Key × Option String)} (found : shown raw k = some n) :
    BucketsSum ((martDelinquencyPar run fact raw).filter (fun r => r.key = k)) := by
  let select (g : BucketRow) : ParRow := selectPar (((g,totalsOf run fact k),n.1),n.2)
  have total_row : ((portfolioTotals run fact).map allPortfolio).filter (fun g => g.key = k) =
      {allPortfolio (totalsOf run fact k)} := by
    rw [Multiset.filter_map]
    exact (congrArg (Multiset.map allPortfolio) (portfolioTotals_filter used)).trans rfl
  have rows : (martDelinquencyPar run fact raw).filter (fun r => r.key = k) =
      ((bucketDistribution run fact).filter (fun g => g.key = k)).map select +
        {select (allPortfolio (totalsOf run fact k))} := by
    rw [mart_filter found,grouped,Multiset.filter_add,Multiset.map_add,total_row,Multiset.map_singleton]
  have plain : ∀ r ∈ ((bucketDistribution run fact).filter (fun g => g.key = k)).map select, r.isAllPortfolio = false := by
    intro r inside
    obtain ⟨g,member,rfl⟩ := Multiset.mem_map.mp inside
    have band := bucketDistribution_plain sound (Multiset.mem_filter.mp member).1
    simp [ParRow.isAllPortfolio,select,selectPar,band]
  have buckets : ((martDelinquencyPar run fact raw).filter (fun r => r.key = k)).filter (fun r => !r.isAllPortfolio) =
      ((bucketDistribution run fact).filter (fun g => g.key = k)).map select := by
    rw [rows,Multiset.filter_add,Multiset.filter_eq_self.mpr (fun r inside => by simp [plain r inside])]
    exact add_zero _
  refine ⟨select (allPortfolio (totalsOf run fact k)),?_,?_,?_⟩
  · rw [rows,Multiset.filter_add,Multiset.filter_eq_nil.mpr (fun r inside on => by simp [plain r inside] at on),zero_add]
    rfl
  · rw [buckets,Multiset.map_map]
    exact bucket_amounts run fact k
  · rw [buckets,Multiset.map_map]
    exact bucket_counts sound k

end

/-- What holds of a row of the mart: its amounts, its loan counts, the rows and the names of its group. -/
theorem mart_row {h : Hashes} {run : Option MartRun} {fact : Multiset FactEntry} (built : Built h fact) {raw : RawTables}
    {r : ParRow} (inside : r ∈ martDelinquencyPar run fact raw) :
    (AmountsPartition r.totals ↔ Summable (groupRows run fact r.key)) ∧ CountsPartition r.totals ∧
      (∃ f ∈ portfolioBase run fact, parKey f = r.key) ∧ ∃ n, shown raw r.key = some n := by
  rw [mart_eq,Multiset.mem_filterMap] at inside
  obtain ⟨g,member,selected⟩ := inside
  obtain ⟨n,found,rfl⟩ := Option.map_eq_some_iff.mp selected
  obtain ⟨f,based,own⟩ := grouped_used member
  have nested : ∀ r ∈ groupRows run fact g.key, Nested r.2 := groupRows_nested built.sound g.key
  have grouped_row : f ∈ groupRows run fact g.key := Multiset.mem_filter.mpr ⟨based,own⟩
  exact ⟨amounts_iff nested grouped_row,counts_partition (loans_once built.sound le_rfl) nested,⟨f,based,own⟩,n,found⟩

/-- For every content of the fact table and every row of the mart: the loan counts partition the group, the rows of the
    buckets sum to the one over all of them, and the amounts partition the portfolio exactly when some loan of the group
    has a principal outstanding or all its loans are in one band. -/
theorem par_partitions (h : Hashes) (fact : Multiset FactEntry) (built : Built h fact) (run : Option MartRun)
    (raw : RawTables) : ∀ r ∈ martDelinquencyPar run fact raw,
      (AmountsPartition r.totals ↔ Summable (groupRows run fact r.key)) ∧ CountsPartition r.totals ∧
      BucketsSum ((martDelinquencyPar run fact raw).filter (fun r' => r'.key = r.key)) := by
  intro r inside
  obtain ⟨amounts,counts,used,n,found⟩ := mart_row built inside
  exact ⟨amounts,counts,buckets_sum built.sound used found⟩

/-- The amounts of a source that keeps its NOT NULL on `principal_disbursed_derived` partition its portfolio. -/
theorem kept_principals_partition {h : Hashes} {fact : Multiset FactEntry} {source : String}
    (built : BuiltWhile h (KeepsPrincipal source) fact) (run : Option MartRun) (raw : RawTables) :
    ∀ r ∈ martDelinquencyPar run fact raw, r.key.sourceId = source → AmountsPartition r.totals := by
  intro r inside own
  obtain ⟨amounts,_,⟨f,based,keyed⟩,_⟩ := mart_row built.built inside
  have of_source : f.1.1.sourceId = source := (congrArg ParKey.sourceId keyed).trans own
  have known := built.principal (Multiset.mem_of_le (portfolioBase_le run fact) based) of_source
  exact amounts.mpr (.inl ⟨f,Multiset.mem_filter.mpr ⟨based,keyed⟩,known⟩)

/-- Two loans of one client, the second with two installments that were not paid. -/
def lateLoan (principal : List (Column × Value)) : RawTables := rawOf [
  (.mOffice,1,[("name",.text "Head office")]),
  (.mProductLoan,1,[("name",.text "Personal loan")]),
  (.mClient,1,[("office_id",.int 1)]),
  (.mLoan,1,[("client_id",.int 1),("product_id",.int 1),("currency_code",.text "USD"),("disbursedon_date",.date 0)] ++ principal),
  (.mLoan,2,[("client_id",.int 1),("product_id",.int 1),("currency_code",.text "USD"),("disbursedon_date",.date 0)] ++ principal),
  (.mLoanRepaymentSchedule,1,[("loan_id",.int 2),("duedate",.date 1)]),
  (.mLoanRepaymentSchedule,2,[("loan_id",.int 2),("duedate",.date 10)])]

def bothLoans : Relation Key Scope := .tabulate {branchKey 1,branchKey 2} (fun _ => some ⟨50,some 50⟩)

/-- The snapshots of day 50. -/
def day50 (principal : List (Column × Value)) : Multiset FactEntry :=
  selected RepaymentMart.someHashes (lateLoan principal) bothLoans 50 (fun _ => none)

/-- With principals of 100 the amounts of day 50 add up. -/
theorem known_principals_add_up : ∃ r ∈ martDelinquencyPar none (day50 [("principal_disbursed_derived",.numeric 100)])
    (lateLoan []), AmountsPartition r.totals ∧ CountsPartition r.totals := by
  have first : NumbersFirst (lateLoan [("principal_disbursed_derived",.numeric 100)]) bothLoans 50 (fun _ => none) := by
    unfold NumbersFirst
    decide +kernel
  have known : ∃ r ∈ martDelinquencyPar none (day50 [("principal_disbursed_derived",.numeric 100)]) (lateLoan []),
      Summable (groupRows none (day50 [("principal_disbursed_derived",.numeric 100)]) r.key) := by
    unfold Summable
    decide +kernel
  have built : Built RepaymentMart.someHashes (day50 [("principal_disbursed_derived",.numeric 100)]) := .full first
  have partition := par_partitions RepaymentMart.someHashes (day50 [("principal_disbursed_derived",.numeric 100)]) built none
    (lateLoan [])
  exact known.imp (fun r found => ⟨found.1,(partition r found.1).1.mpr found.2,(partition r found.1).2.1⟩)

/-- Without principals the bands of day 50 show 0 and the portfolio NULL. -/
theorem null_principals_do_not : ∃ fact, Built RepaymentMart.someHashes fact ∧
    ∃ r ∈ martDelinquencyPar none fact (lateLoan []), ¬AmountsPartition r.totals := by
  have first : NumbersFirst (lateLoan []) bothLoans 50 (fun _ => none) := by
    unfold NumbersFirst
    decide +kernel
  have differ : ∃ r ∈ martDelinquencyPar none (day50 []) (lateLoan []),
      plus (plus (plus (plus r.totals.currentAmount r.totals.watchListAmount) r.totals.par3059Amount) r.totals.par6089Amount)
        r.totals.par90PlusAmount ≠ r.totals.totalPortfolioAmount := by
    decide +kernel
  obtain ⟨r,inside,differ⟩ := differ
  exact ⟨day50 [],.full first,r,inside,fun amounts => differ amounts.portfolio⟩

end FineractBi.ParMart
