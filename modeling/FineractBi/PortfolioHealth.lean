import FineractBi.ParMart

/-!
`mart_portfolio_health`: the stock of each group of date, source, tenant, office,
product and currency, aggregated from the fact table, beside the flows of the
date, aggregated from the transactions under the present office, product and
currency of their loans.
-/
namespace FineractBi.PortfolioHealth
open Calendar Query FineractBi.Contract FineractBi.ApplyBatch FineractBi.Staging FineractBi.LoanSnapshot
open FineractBi.FactBuild FineractBi.FactContent FineractBi.ParMart
open FineractBi.RepaymentMart (RepaymentTransaction PostedRow LoanDimension sqlSum countDistinct dimOffice dimProduct
  stagedTransactions loanDimensions onLoan onRecompute namesOf)

/-- A row of `stock_metrics`, without its key. -/
structure StockMetrics where
  activeLoanCount : Nat
  activeBorrowerCount : Nat
  grossLoanPortfolio : Option Rat
  totalOutstandingAmount : Rat
  interestOutstandingAmount : Rat
  npaOutstandingAmount : Option Rat
  npaLoanCount : Nat
  parOutstandingAmount : Option Rat
  parLoanCount : Nat
  performingOutstandingAmount : Option Rat
  performingLoanCount : Nat
  deriving DecidableEq

/-- `greatest(total_outstanding - principal_outstanding, 0)`, which ignores NULL. -/
def interestOutstanding (r : FactRow) : Rat :=
  match r.principalOutstanding with
  | none => 0
  | some principal => max (r.totalOutstanding - principal) 0

def aggregateStock (rows : Multiset FactEntry) : StockMetrics where
  activeLoanCount := countDistinct (·.1.1.id) rows
  activeBorrowerCount := (rows.filterMap (·.2.clientHash)).dedup.card
  grossLoanPortfolio := sqlSum (rows.map (·.2.principalOutstanding))
  totalOutstandingAmount := (rows.map (·.2.totalOutstanding)).sum
  interestOutstandingAmount := (rows.map (fun r => interestOutstanding r.2)).sum
  npaOutstandingAmount := amountWhere npa rows
  npaLoanCount := loanCountWhere npa rows
  parOutstandingAmount := amountWhere (·.isPar30) rows
  parLoanCount := loanCountWhere (·.isPar30) rows
  performingOutstandingAmount := amountWhere performing rows
  performingLoanCount := loanCountWhere performing rows

/-- `snapshot_base` is the join that `portfolio_base` is. -/
def snapshotBase (run : Option MartRun) (fact : Multiset FactEntry) : Multiset FactEntry := portfolioBase run fact

def stockMetrics (run : Option MartRun) (fact : Multiset FactEntry) : Multiset (ParKey × StockMetrics) :=
  (groupBy parKey (snapshotBase run fact)).map (fun g => (g.1,aggregateStock g.2))

/-- The columns that the flows are grouped by. -/
structure FlowKey where
  snapshotDate : Option Date
  sourceId : String
  tenantId : String
  officeId : Option Int
  productId : Option Int
  currencyCode : Option String
  deriving DecidableEq

def flowKey (r : PostedRow) : FlowKey :=
  ⟨r.1.2.transactionDate,r.1.1.sourceId,r.1.1.tenantId,r.2.officeId,r.2.productId,r.2.currencyCode⟩

/-- A row of `flow_metrics`, without its key. -/
structure FlowMetrics where
  disbursedAmountOnDate : Option Rat
  disbursedLoanCountOnDate : Nat
  principalCollectedOnDate : Rat
  collectedAmountOnDate : Option Rat
  writeoffAmountOnDate : Option Rat
  writeoffCountOnDate : Nat
  deriving DecidableEq

abbrev Posted := Key × RepaymentTransaction

def ofType (type : Int) (t : Posted) : Bool := t.2.transactionTypeEnum = some type

/-- `sum(case when transaction_type_enum = … then amount else 0 end)`. -/
def amountOfType (type : Int) (rows : Multiset Posted) : Option Rat :=
  sqlSum (rows.map (fun t => if ofType type t then t.2.amount else some 0))

/-- `count(distinct case when transaction_type_enum = … then loan_id end)`. -/
def loansOfType (type : Int) (rows : Multiset Posted) : Nat :=
  ((rows.filter (fun t => ofType type t)).filterMap (·.2.loanId)).dedup.card

/-- The enum values of disbursements, repayments and write-offs. -/
def disbursement : Int := 1
def repayment : Int := 2
def writeoff : Int := 6

def aggregateFlows (rows : Multiset Posted) : FlowMetrics where
  disbursedAmountOnDate := amountOfType disbursement rows
  disbursedLoanCountOnDate := loansOfType disbursement rows
  principalCollectedOnDate := (rows.map (fun t => if ofType repayment t then t.2.principalPortionDerived else 0)).sum
  collectedAmountOnDate := amountOfType repayment rows
  writeoffAmountOnDate := amountOfType writeoff rows
  writeoffCountOnDate := loansOfType writeoff rows

/-- A row of `combined`, without the columns of `stock_metrics`. -/
structure Flows where
  disbursedAmountOnDate : Rat
  disbursedLoanCountOnDate : Nat
  principalCollectedOnDate : Rat
  collectedAmountOnDate : Rat
  writeoffAmountOnDate : Rat
  writeoffCountOnDate : Nat
  deriving DecidableEq

/-- `coalesce(fm.…, 0)`. -/
def coalesceFlows : Option FlowMetrics → Flows
  | none => ⟨0,0,0,0,0,0⟩
  | some fm => ⟨fm.disbursedAmountOnDate.getD 0,fm.disbursedLoanCountOnDate,fm.principalCollectedOnDate,
      fm.collectedAmountOnDate.getD 0,fm.writeoffAmountOnDate.getD 0,fm.writeoffCountOnDate⟩

section
variable (h : Hashes) (run : Option MartRun) (fact : Multiset FactEntry) (raw : RawTables)

/-- The transactions with the dimensions of their loans, those of the window or all of them. -/
def flowRows : Multiset PostedRow :=
  let joined := join (onLoan (fun t : RepaymentTransaction => t.loanId)) (stagedTransactions raw).rows (loanDimensions h raw)
  (match run with
    | none => joined
    | some run => (join (onRecompute (fun t : RepaymentTransaction => t.transactionDate)) joined
        (martRecomputeWindow (fun d => some d.fromDate) run)).map Prod.fst
  ).filter (fun r => r.1.2.isReversed = some false)

def flowMetrics : Multiset (FlowKey × FlowMetrics) :=
  (groupBy flowKey (flowRows h run raw)).map (fun g => (g.1,aggregateFlows (g.2.map Prod.fst)))

/-- The six equalities of the join with `flow_metrics`. -/
def onFlow (sm : ParKey × StockMetrics) (fm : FlowKey × FlowMetrics) : Bool :=
  sqlEq (some sm.1.snapshotDate) fm.1.snapshotDate && sm.1.sourceId = fm.1.sourceId && sm.1.tenantId = fm.1.tenantId &&
    sqlEq sm.1.officeId fm.1.officeId && sqlEq sm.1.productId fm.1.productId && sqlEq sm.1.currencyCode fm.1.currencyCode

abbrev CombinedRow := (ParKey × StockMetrics) × Option (FlowKey × FlowMetrics)

def combined : Multiset CombinedRow := leftJoin onFlow (stockMetrics run fact) (flowMetrics h run raw)

def onOffice (c : CombinedRow) (o : Key × Option String) : Bool := c.1.1.refers c.1.1.officeId o.1

abbrev NamedRow := (CombinedRow × (Key × Option String)) × (Key × Option String)

def onProduct (r : CombinedRow × (Key × Option String)) (p : Key × Option String) : Bool :=
  r.1.1.1.refers r.1.1.1.productId p.1

/-- A row of the mart, without `dbt_loaded_at`. -/
structure HealthRow where
  key : ParKey
  officeName : Option String
  productName : Option String
  stock : StockMetrics
  averageLoanSize : Option Rat
  averageExposurePerBorrower : Option Rat
  npaRatio : Option Rat
  parRatio : Option Rat
  performingRatio : Option Rat
  flows : Flows
  deriving DecidableEq

/-- The select list. -/
def selectHealth (r : NamedRow) : HealthRow :=
  let c := r.1.1
  let stock := c.1.2
  { key := c.1.1
    officeName := r.1.2.2
    productName := r.2.2
    stock
    averageLoanSize := safeDivide stock.grossLoanPortfolio (some (stock.activeLoanCount : Rat))
    averageExposurePerBorrower := safeDivide stock.grossLoanPortfolio (some (stock.activeBorrowerCount : Rat))
    npaRatio := safeDivide stock.npaOutstandingAmount stock.grossLoanPortfolio
    parRatio := safeDivide stock.parOutstandingAmount stock.grossLoanPortfolio
    performingRatio := safeDivide stock.performingOutstandingAmount stock.grossLoanPortfolio
    flows := coalesceFlows (c.2.map Prod.snd) }

/-- The rows that a build of `mart_portfolio_health` inserts. -/
def martPortfolioHealth : Multiset HealthRow :=
  (join onProduct (join onOffice (combined h run fact raw) (dimOffice raw).rows) (dimProduct raw).rows).map selectHealth

end

section
variable {h : Hashes} {run : Option MartRun} {fact : Multiset FactEntry} {raw : RawTables}

/-- The key of a group in `flow_metrics`. -/
def toFlow (k : ParKey) : FlowKey := ⟨some k.snapshotDate,k.sourceId,k.tenantId,k.officeId,k.productId,k.currencyCode⟩

/-- The transactions of a group. -/
def groupFlows (h : Hashes) (run : Option MartRun) (raw : RawTables) (k : ParKey) : Multiset Posted :=
  ((flowRows h run raw).filter (fun r => flowKey r = toFlow k)).map Prod.fst

/-- What the mart shows of a group's transactions. -/
def flowsOf (k : ParKey) (rows : Multiset Posted) : Option (FlowKey × FlowMetrics) :=
  if Comparable k ∧ rows ≠ 0 then some (toFlow k,aggregateFlows rows) else none

private theorem onFlow_iff {sm : ParKey × StockMetrics} {fm : FlowKey × FlowMetrics} :
    onFlow sm fm = true ↔ fm.1 = toFlow sm.1 ∧ Comparable sm.1 := by
  obtain ⟨⟨d,s,t,o,p,c⟩,_⟩ := sm
  obtain ⟨⟨d',s',t',o',p',c'⟩,_⟩ := fm
  simp only [onFlow,Bool.and_eq_true,decide_eq_true_eq,sqlEq_iff,Comparable,toFlow,FlowKey.mk.injEq]
  constructor
  · rintro ⟨⟨⟨⟨⟨⟨rfl,_⟩,rfl⟩,rfl⟩,rfl,office⟩,rfl,product⟩,rfl,currency⟩
    exact ⟨⟨rfl,rfl,rfl,rfl,rfl,rfl⟩,office,product,currency⟩
  · rintro ⟨⟨rfl,rfl,rfl,rfl,rfl,rfl⟩,office,product,currency⟩
    exact ⟨⟨⟨⟨⟨⟨rfl,rfl⟩,rfl⟩,rfl⟩,rfl,office⟩,rfl,product⟩,rfl,currency⟩

/-- A group joins the flows of its own key. -/
theorem matching_flow (sm : ParKey × StockMetrics) : matching onFlow (flowMetrics h run raw) sm =
    (flowsOf sm.1 (groupFlows h run raw sm.1)).elim 0 ({·}) := by
  by_cases comparable : Comparable sm.1
  · have own : matching onFlow (flowMetrics h run raw) sm =
        ((groupBy flowKey (flowRows h run raw)).filter (fun g => g.1 = toFlow sm.1)).map
          (fun g => (g.1,aggregateFlows (g.2.map Prod.fst))) := by
      rw [matching,flowMetrics,Multiset.filter_map]
      refine congrArg (Multiset.map _) (Multiset.filter_congr (fun g _ => ?_))
      rw [Function.comp_apply,onFlow_iff,and_iff_left comparable]
    rw [own]
    by_cases used : ∃ r ∈ flowRows h run raw, flowKey r = toFlow sm.1
    · have some_rows : groupFlows h run raw sm.1 ≠ 0 := by
        obtain ⟨r,inside,keyed⟩ := used
        intro empty
        have member : r.1 ∈ groupFlows h run raw sm.1 :=
          Multiset.mem_map_of_mem _ (Multiset.mem_filter.mpr ⟨inside,keyed⟩)
        rw [empty] at member
        exact Multiset.notMem_zero _ member
      rw [groupBy_filter_key used,flowsOf,if_pos ⟨comparable,some_rows⟩]
      rfl
    · have no_rows : groupFlows h run raw sm.1 = 0 := by
        rw [groupFlows,Multiset.filter_eq_nil.mpr (fun r inside keyed => used ⟨r,inside,keyed⟩)]
        rfl
      rw [flowsOf,if_neg (fun both => both.2 no_rows),Multiset.filter_eq_nil.mpr]
      · rfl
      · intro g member keyed
        obtain ⟨⟨r,inside,own⟩,_⟩ := mem_groupBy.mp member
        exact used ⟨r,inside,own.trans keyed⟩
  · rw [flowsOf,if_neg (fun both => comparable both.1)]
    exact Multiset.filter_eq_nil.mpr (fun fm _ on => comparable (onFlow_iff.mp on).2)

/-- A group is in the mart with its flows, when it has both names. -/
theorem health_eq : martPortfolioHealth h run fact raw = (stockMetrics run fact).filterMap (fun sm =>
    (namesOf raw sm.1.toMart).map (fun n => selectHealth (((sm,flowsOf sm.1 (groupFlows h run raw sm.1)),n.1),n.2))) := by
  have flows : combined h run fact raw = (stockMetrics run fact).map (fun sm => (sm,flowsOf sm.1 (groupFlows h run raw sm.1))) :=
    leftJoin_eq_map (fun sm _ => matching_flow sm)
  have names := RepaymentMart.names_join raw (fun c : CombinedRow => c.1.1.toMart) (combined h run fact raw)
  rw [martPortfolioHealth]
  refine (congrArg (Multiset.map selectHealth) names).trans ?_
  rw [flows,Multiset.filterMap_map,Multiset.map_filterMap]
  refine filterMap_congr (fun sm _ => ?_)
  rw [Function.comp_apply,Option.map_map]
  rfl

end

end FineractBi.PortfolioHealth
