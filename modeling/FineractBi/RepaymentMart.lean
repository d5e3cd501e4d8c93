import Mathlib.Algebra.Order.Ring.Rat
import FineractBi.Delinquency
import FineractBi.LoanSnapshot

/-!
A non-incremental build of `mart_repayment_behavior`: repayments, recoveries and
due amounts are summed for each date, office, product, currency and client; the
repayments and due amounts are full joined and the recoveries left joined to them.
A row is in the mart as often as the joins find its key, which is not once for
all of them.
-/
namespace FineractBi.RepaymentMart
open Calendar Query FineractBi.Contract FineractBi.ApplyBatch FineractBi.Staging FineractBi.LoanSnapshot
open FineractBi.Delinquency (names matching_named)

/-- A row of `stg_m_loan_transaction` with the columns that the mart reads. -/
structure RepaymentTransaction extends Transaction where
  transactionTypeEnum : Option Int
  amount : Option Rat
  overpaymentPortionDerived : Rat
  deriving DecidableEq

def RepaymentTransaction.read (cols : Column → Option Value) : RepaymentTransaction where
  toTransaction := Transaction.read cols
  transactionTypeEnum := asInt (cols "transaction_type_enum")
  amount := asNumeric (cols "amount")
  overpaymentPortionDerived := (asNumeric (cols "overpayment_portion_derived")).getD 0

/-- A row of `stg_m_loan_repayment_schedule` with the columns that the mart reads. -/
structure DueInstallment extends Installment where
  principalAmount : Rat
  interestAmount : Rat
  interestWaivedDerived : Rat
  feeChargesAmount : Rat
  feeChargesWaivedDerived : Rat
  penaltyChargesAmount : Rat
  penaltyChargesWaivedDerived : Rat
  totalPaidInAdvanceDerived : Rat
  totalPaidLateDerived : Rat
  completedDerived : Option Bool
  isReAged : Option Bool
  deriving DecidableEq

def DueInstallment.read (cols : Column → Option Value) : DueInstallment where
  toInstallment := Installment.read cols
  principalAmount := (asNumeric (cols "principal_amount")).getD 0
  interestAmount := (asNumeric (cols "interest_amount")).getD 0
  interestWaivedDerived := (asNumeric (cols "interest_waived_derived")).getD 0
  feeChargesAmount := (asNumeric (cols "fee_charges_amount")).getD 0
  feeChargesWaivedDerived := (asNumeric (cols "fee_charges_waived_derived")).getD 0
  penaltyChargesAmount := (asNumeric (cols "penalty_charges_amount")).getD 0
  penaltyChargesWaivedDerived := (asNumeric (cols "penalty_charges_waived_derived")).getD 0
  totalPaidInAdvanceDerived := (asNumeric (cols "total_paid_in_advance_derived")).getD 0
  totalPaidLateDerived := (asNumeric (cols "total_paid_late_derived")).getD 0
  completedDerived := asBoolean (cols "completed_derived")
  isReAged := asBoolean (cols "is_re_aged")

def stagedTransactions (raw : RawTables) : Relation Key RepaymentTransaction :=
  staged (raw .mLoanTransaction) RepaymentTransaction.read
def stagedInstallments (raw : RawTables) : Relation Key DueInstallment :=
  staged (raw .mLoanRepaymentSchedule) DueInstallment.read

/-- `dim_office` and `dim_product`, with the names that the mart shows. -/
def dimOffice (raw : RawTables) : Relation Key (Option String) := staged (raw .mOffice) (fun cols => asText (cols "name"))
def dimProduct (raw : RawTables) : Relation Key (Option String) :=
  staged (raw .mProductLoan) (fun cols => asText (cols "name"))

/-- A row of `loan_dimensions`. -/
structure LoanDimension where
  loan : Key
  productId : Option Int
  currencyCode : Option String
  clientId : Int
  clientHash : Option String
  officeId : Option Int
  deriving DecidableEq

section
variable (h : Hashes) (raw : RawTables)

def onClient (l : Key × Loan) (c : Key × Client) : Bool := names l.1 l.2.clientId c.1

def selectDimension (row : (Key × Loan) × (Key × Client)) : LoanDimension :=
  ⟨row.1.1,row.1.2.productId,row.1.2.currencyCode,row.2.1.id,
    h.clientHash row.2.1.sourceId row.2.1.tenantId row.2.1.id,row.2.2.officeId⟩

def loanDimensions : Multiset LoanDimension :=
  (join onClient (stgMLoan raw).rows (stgMClient raw).rows).map (selectDimension h)

/-- A row of `recompute`. -/
structure RecomputeRow where
  sourceId : String
  officeId : Option Int
  productId : Option Int
  recomputeFrom : Date
  deriving DecidableEq

/-- `recompute` of a build that is not incremental. -/
def recompute : Multiset RecomputeRow :=
  ((loanDimensions h raw).map (fun d => ⟨d.loan.sourceId,d.officeId,d.productId,beginningOfTime⟩)).dedup

end

section
variable {Row : Type}

def onLoan (loanId : Row → Option Int) (t : Key × Row) (d : LoanDimension) : Bool := names t.1 (loanId t.2) d.loan

def onRecompute (date : Row → Option Date) (r : (Key × Row) × LoanDimension) (w : RecomputeRow) : Bool :=
  r.1.1.sourceId = w.sourceId && r.2.officeId = w.officeId && r.2.productId = w.productId &&
    (date r.1.2).any (w.recomputeFrom ≤ ·)

/-- Rows of loans, joined with `loan_dimensions` and `recompute`. -/
def inWindow (h : Hashes) (raw : RawTables) (loanId : Row → Option Int) (date : Row → Option Date)
    (rows : Multiset (Key × Row)) : Multiset ((Key × Row) × LoanDimension) :=
  (join (onRecompute date) (join (onLoan loanId) rows (loanDimensions h raw)) (recompute h raw)).map Prod.fst

end

/-- The columns of `group by 1, 2, 3, 4, 5, 6, 7`. -/
structure MartKey where
  sourceId : String
  tenantId : String
  reportingDate : Option Date
  officeId : Option Int
  productId : Option Int
  currencyCode : Option String
  clientHash : Option String
  deriving DecidableEq

def martKey (k : Key) (date : Option Date) (d : LoanDimension) : MartKey :=
  ⟨k.sourceId,k.tenantId,date,d.officeId,d.productId,d.currencyCode,d.clientHash⟩

/-- `sum` of a nullable column: NULL when there is nothing to add. -/
def sqlSum (values : Multiset (Option Rat)) : Option Rat :=
  if (values.filterMap id).card = 0 then none else some (values.filterMap id).sum

/-- A row of `repayment_aggregated`, without its key. -/
structure RepaymentAggregate where
  repaymentTransactionCount : Nat
  repaidLoanCount : Nat
  repayingBorrowerCount : Nat
  repaymentAmount : Option Rat
  principalCollected : Rat
  interestCollected : Rat
  feeCollected : Rat
  penaltyCollected : Rat
  overpaymentCollected : Rat
  postTransactionOutstandingBalance : Rat
  deriving DecidableEq

/-- A row of `recovery_aggregated`, without its key. -/
structure RecoveryAggregate where
  recoveryRepaymentAmount : Option Rat
  recoveryLoanCount : Nat
  deriving DecidableEq

/-- A row of `due_amounts`, without its key. -/
structure DueAggregate where
  contractuallyDueAmount : Rat
  overduePenaltyCharged : Rat
  overduePenaltyWaived : Rat
  waivedAmount : Rat
  paidInAdvanceAmount : Rat
  paidLateAmount : Rat
  earlyPaymentCount : Nat
  onTimePaymentCount : Nat
  latePaymentCount : Nat
  restructuredInstallmentCount : Nat
  totalInstallmentsDue : Nat
  deriving DecidableEq

abbrev PostedRow := (Key × RepaymentTransaction) × LoanDimension
abbrev DueRow := (Key × DueInstallment) × LoanDimension

/-- `count(distinct …)` of a column that is not NULL. -/
def countDistinct {A B : Type} [DecidableEq B] (f : A → B) (rows : Multiset A) : Nat := (rows.map f).dedup.card

def aggregateRepayments (rows : Multiset PostedRow) : RepaymentAggregate where
  repaymentTransactionCount := rows.card
  repaidLoanCount := countDistinct (·.2.loan) rows
  repayingBorrowerCount := countDistinct (·.2.clientId) rows
  repaymentAmount := sqlSum (rows.map (·.1.2.amount))
  principalCollected := (rows.map (·.1.2.principalPortionDerived)).sum
  interestCollected := (rows.map (·.1.2.interestPortionDerived)).sum
  feeCollected := (rows.map (·.1.2.feeChargesPortionDerived)).sum
  penaltyCollected := (rows.map (·.1.2.penaltyChargesPortionDerived)).sum
  overpaymentCollected := (rows.map (·.1.2.overpaymentPortionDerived)).sum
  postTransactionOutstandingBalance := (rows.map (fun r => r.1.2.outstandingLoanBalanceDerived.getD 0)).sum

def aggregateRecoveries (rows : Multiset PostedRow) : RecoveryAggregate where
  recoveryRepaymentAmount := sqlSum (rows.map (·.1.2.amount))
  recoveryLoanCount := countDistinct (·.2.loan) rows

/-- What an installment contributes to `contractually_due_amount`. -/
def DueInstallment.due (s : DueInstallment) : Rat :=
  s.principalAmount + s.interestAmount + s.feeChargesAmount + s.penaltyChargesAmount

/-- `s.completed_derived and s.obligations_met_on_date … s.duedate`. -/
def DueInstallment.met (s : DueInstallment) (compare : Date → Date → Bool) : Bool :=
  s.completedDerived = some true && match s.obligationsMetOnDate, s.duedate with
    | some met, some due => compare met due
    | _, _ => false

def aggregateDue (rows : Multiset DueRow) : DueAggregate where
  contractuallyDueAmount := (rows.map (·.1.2.due)).sum
  overduePenaltyCharged := (rows.map (·.1.2.penaltyChargesAmount)).sum
  overduePenaltyWaived := (rows.map (·.1.2.penaltyChargesWaivedDerived)).sum
  waivedAmount := (rows.map (fun r => r.1.2.interestWaivedDerived + r.1.2.feeChargesWaivedDerived +
    r.1.2.penaltyChargesWaivedDerived)).sum
  paidInAdvanceAmount := (rows.map (·.1.2.totalPaidInAdvanceDerived)).sum
  paidLateAmount := (rows.map (·.1.2.totalPaidLateDerived)).sum
  earlyPaymentCount := (rows.filter (fun r => r.1.2.met (· < ·))).card
  onTimePaymentCount := (rows.filter (fun r => r.1.2.met (· = ·))).card
  latePaymentCount := (rows.filter (fun r => r.1.2.met (· > ·))).card
  restructuredInstallmentCount := (rows.filter (fun r => r.1.2.isReAged = some true)).card
  totalInstallmentsDue := rows.card

section
variable (h : Hashes) (raw : RawTables)

def transactions : Multiset PostedRow :=
  (inWindow h raw (·.loanId) (·.transactionDate) (stagedTransactions raw).rows).filter (fun r => r.1.2.isReversed = some false)

def transactionKey (r : PostedRow) : MartKey := martKey r.1.1 r.1.2.transactionDate r.2

def dueKey (r : DueRow) : MartKey := martKey r.1.1 r.1.2.duedate r.2

/-- The enum values of repayments and of recovery repayments. -/
def repayment : Int := 2
def recovery : Int := 8

def ofType (type : Int) (rows : Multiset PostedRow) : Multiset PostedRow :=
  rows.filter (fun r => r.1.2.transactionTypeEnum = some type)

def repaymentAggregated : Multiset (MartKey × RepaymentAggregate) :=
  (groupBy transactionKey (ofType repayment (transactions h raw))).map (fun g => (g.1,aggregateRepayments g.2))

def recoveryAggregated : Multiset (MartKey × RecoveryAggregate) :=
  (groupBy transactionKey (ofType recovery (transactions h raw))).map (fun g => (g.1,aggregateRecoveries g.2))

def dueAmounts : Multiset (MartKey × DueAggregate) :=
  (groupBy dueKey (inWindow h raw (·.loanId) (·.duedate) (stagedInstallments raw).rows)).map
    (fun g => (g.1,aggregateDue g.2))

/-- The seven equalities of the joins on the group columns. -/
def onKeys {A B : Type} (x : MartKey × A) (y : MartKey × B) : Bool :=
  x.1.sourceId = y.1.sourceId && x.1.tenantId = y.1.tenantId && sqlEq x.1.reportingDate y.1.reportingDate &&
    sqlEq x.1.officeId y.1.officeId && sqlEq x.1.productId y.1.productId && sqlEq x.1.currencyCode y.1.currencyCode &&
    sqlEq x.1.clientHash y.1.clientHash

/-- `coalesce(ra.…, da.…)` of the group columns. -/
def coalesceKey : Option MartKey → Option MartKey → Option MartKey
  | some ra, some da => some
    { ra with
      reportingDate := ra.reportingDate.or da.reportingDate
      officeId := ra.officeId.or da.officeId
      productId := ra.productId.or da.productId
      currencyCode := ra.currencyCode.or da.currencyCode
      clientHash := ra.clientHash.or da.clientHash }
  | some ra, none => some ra
  | none, da => da

/-- A row of `combined`. -/
structure CombinedRow where
  key : MartKey
  repaid : RepaymentAggregate
  repaymentAmount : Rat
  actualCollectedAmount : Rat
  due : DueAggregate

/-- `coalesce(…, 0)` of the columns of a side that is missing. -/
def noRepayments : RepaymentAggregate := ⟨0,0,0,none,0,0,0,0,0,0⟩
def noDue : DueAggregate := ⟨0,0,0,0,0,0,0,0,0,0,0⟩

def selectCombined (r : Option (MartKey × RepaymentAggregate) × Option (MartKey × DueAggregate)) : Option CombinedRow :=
  (coalesceKey (r.1.map Prod.fst) (r.2.map Prod.fst)).map (fun key =>
    let repaid := (r.1.map Prod.snd).getD noRepayments
    ⟨key,repaid,repaid.repaymentAmount.getD 0,repaid.repaymentAmount.getD 0,(r.2.map Prod.snd).getD noDue⟩)

def combined : Multiset CombinedRow :=
  (fullJoin onKeys (repaymentAggregated h raw) (dueAmounts h raw)).filterMap selectCombined

/-- A group of an office or product, by the dimension's key. -/
def MartKey.refers (k : MartKey) (id : Option Int) (k' : Key) : Bool := names ⟨k.sourceId,k.tenantId,0⟩ id k'

def onOffice (c : CombinedRow) (o : Key × Option String) : Bool := c.key.refers c.key.officeId o.1

def onProduct (r : CombinedRow × (Key × Option String)) (p : Key × Option String) : Bool :=
  r.1.key.refers r.1.key.productId p.1

abbrev NamedRow := (CombinedRow × (Key × Option String)) × (Key × Option String)

def onRecovery (r : NamedRow) (rec : MartKey × RecoveryAggregate) : Bool := onKeys (r.1.1.key,()) rec

/-- A row of the mart. -/
structure MartRow where
  key : MartKey
  officeName : Option String
  productName : Option String
  repaid : RepaymentAggregate
  repaymentAmount : Rat
  actualCollectedAmount : Rat
  due : DueAggregate
  collectionEfficiencyRatio : Option Rat
  recoveryRepaymentAmount : Rat
  recoveryLoanCount : Nat

/-- `safe_divide`. -/
def safeDivide (numerator denominator : Rat) : Option Rat := if denominator = 0 then none else some (numerator / denominator)

/-- The select list. -/
def selectMart (r : NamedRow × Option (MartKey × RecoveryAggregate)) : MartRow :=
  let c := r.1.1.1
  { key := c.key
    officeName := r.1.1.2.2
    productName := r.1.2.2
    repaid := c.repaid
    repaymentAmount := c.repaymentAmount
    actualCollectedAmount := c.actualCollectedAmount
    due := c.due
    collectionEfficiencyRatio := safeDivide c.actualCollectedAmount c.due.contractuallyDueAmount
    recoveryRepaymentAmount := (r.2.bind (·.2.recoveryRepaymentAmount)).getD 0
    recoveryLoanCount := (r.2.map (·.2.recoveryLoanCount)).getD 0 }

def namedRows : Multiset NamedRow :=
  join onProduct (join onOffice (combined h raw) (dimOffice raw).rows) (dimProduct raw).rows

/-- `mart_repayment_behavior`. -/
def martRepaymentBehavior : Multiset MartRow :=
  (leftJoin onRecovery (namedRows h raw) (recoveryAggregated h raw)).map selectMart

end

/-! ### The loan of a row -/

section
variable {h : Hashes} {raw : RawTables}

/-- The row of `loan_dimensions` of a loan that has a client. -/
def dimension (h : Hashes) (raw : RawTables) (l : Key) : Option LoanDimension := do
  let loan ← (stgMLoan raw).get l
  let clientId ← loan.clientId
  let client ← (stgMClient raw).get (refer l clientId)
  return ⟨l,loan.productId,loan.currencyCode,clientId,h.clientHash l.sourceId l.tenantId clientId,client.officeId⟩

/-- The row of `loan_dimensions` that a row of a loan joins. -/
def dimensionOf (h : Hashes) (raw : RawTables) (k : Key) (loanId : Option Int) : Option LoanDimension :=
  loanId.bind (fun id => dimension h raw (refer k id))

theorem dimension_loan {l : Key} {d : LoanDimension} (found : dimension h raw l = some d) : d.loan = l := by
  simp only [dimension,Option.bind_eq_bind,Option.bind_eq_some_iff,Option.pure_def,Option.some.injEq] at found
  obtain ⟨_,_,_,_,_,_,rfl⟩ := found
  rfl

/-- The rows of `loan_dimensions`, by loan. -/
def dimensions (h : Hashes) (raw : RawTables) : Relation Key LoanDimension :=
  (stgMLoan raw).filterMap (fun l _ => dimension h raw l)

theorem dimensions_get (l : Key) : (dimensions h raw).get l = dimension h raw l := by
  rw [dimensions,Relation.filterMap_get,dimension]
  cases (stgMLoan raw).get l <;> rfl

theorem loanDimensions_eq : loanDimensions h raw = (dimensions h raw).rows.map Prod.snd := by
  have owned : join onClient (stgMLoan raw).rows (stgMClient raw).rows = _ :=
    join_eq_filterMap (fun l _ => matching_named l.1 l.2.clientId (fun _ => rfl))
  rw [loanDimensions,owned,dimensions,Relation.rows_filterMap,Multiset.map_filterMap,Multiset.map_filterMap]
  refine filterMap_congr ?_
  rintro ⟨l,loan⟩ found
  rw [Relation.mem_rows] at found
  simp only [dimension,found,Option.bind_eq_bind,Option.bind_some]
  cases loan.clientId with
  | none => rfl
  | some id =>
    simp only [Option.bind_some]
    cases (stgMClient raw).get (refer l id) <;> rfl

theorem mem_loanDimensions {d : LoanDimension} : d ∈ loanDimensions h raw ↔ dimension h raw d.loan = some d := by
  rw [loanDimensions_eq,Multiset.mem_map]
  constructor
  · rintro ⟨⟨l,d⟩,inside,rfl⟩
    rw [Relation.mem_rows,dimensions_get] at inside
    rwa [dimension_loan inside]
  · intro found
    exact ⟨(d.loan,d),Relation.mem_rows.mpr (by rwa [dimensions_get]),rfl⟩

variable {Row : Type} {loanId : Row → Option Int} {date : Row → Option Date}

/-- A row joins the dimensions of its loan. -/
theorem matching_dimensions (t : Key × Row) :
    matching (onLoan loanId) (loanDimensions h raw) t = (dimensionOf h raw t.1 (loanId t.2)).elim 0 ({·}) := by
  have keyed : (dimensions h raw).rows.filter (fun e => onLoan loanId t e.2) =
      matching (fun (t : Key × Row) e => names t.1 (loanId t.2) e.1) (dimensions h raw).rows t := by
    refine Multiset.filter_congr ?_
    rintro ⟨l,d⟩ inside
    rw [Relation.mem_rows,dimensions_get] at inside
    rw [onLoan,dimension_loan inside]
  rw [matching,loanDimensions_eq,Multiset.filter_map]
  simp only [Function.comp_def]
  rw [keyed,matching_named _ _ (fun _ => rfl),dimensionOf]
  cases loanId t.2 with
  | none => rfl
  | some id =>
    simp only [Option.bind_some,dimensions_get]
    cases dimension h raw (refer t.1 id) <;> rfl

/-- The date is in the window of a build that is not incremental. -/
def Dated (date : Option Date) : Prop := ∃ d, date = some d ∧ beginningOfTime ≤ d

instance (date : Option Date) : Decidable (Dated date) :=
  match date with
  | none => isFalse (by simp [Dated])
  | some d => decidable_of_iff (beginningOfTime ≤ d) (by simp [Dated])

/-- A row of a loan with dimensions is in the window of its own partition, when it is dated. -/
theorem matching_recompute {r : (Key × Row) × LoanDimension} (joined : dimensionOf h raw r.1.1 (loanId r.1.2) = some r.2) :
    matching (onRecompute date) (recompute h raw) r =
      if Dated (date r.1.2) then {⟨r.1.1.sourceId,r.2.officeId,r.2.productId,beginningOfTime⟩} else 0 := by
  obtain ⟨⟨k,row⟩,d⟩ := r
  obtain ⟨id,_,found⟩ := Option.bind_eq_some_iff.mp joined
  have own := dimension_loan found
  have there : (⟨k.sourceId,d.officeId,d.productId,beginningOfTime⟩ : RecomputeRow) ∈ recompute h raw := by
    refine Multiset.mem_dedup.mpr (Multiset.mem_map.mpr ⟨d,mem_loanDimensions.mpr (by rwa [own]),?_⟩)
    rw [own]
    rfl
  have window (w : RecomputeRow) (inside : w ∈ recompute h raw) : w.recomputeFrom = beginningOfTime := by
    obtain ⟨_,_,rfl⟩ := Multiset.mem_map.mp (Multiset.mem_dedup.mp inside)
    rfl
  have matched (w : RecomputeRow) (inside : w ∈ recompute h raw) : onRecompute date ((k,row),d) w = true ↔
      Dated (date row) ∧ w = ⟨k.sourceId,d.officeId,d.productId,beginningOfTime⟩ := by
    obtain ⟨source,office,product,first⟩ := w
    obtain rfl : first = beginningOfTime := window _ inside
    simp only [onRecompute,Bool.and_eq_true,decide_eq_true_eq,Option.any_eq_true,RecomputeRow.mk.injEq,Dated]
    constructor
    · rintro ⟨⟨⟨rfl,rfl⟩,rfl⟩,dated⟩
      exact ⟨dated,rfl,rfl,rfl,trivial⟩
    · rintro ⟨dated,rfl,rfl,rfl,_⟩
      exact ⟨⟨⟨rfl,rfl⟩,rfl⟩,dated⟩
  refine ((Multiset.Nodup.filter _ (Multiset.nodup_dedup _)).ext ?_).mpr (fun w => ?_)
  · split
    · exact Multiset.nodup_singleton _
    · exact Multiset.nodup_zero
  · rw [Multiset.mem_filter]
    split
    · next dated =>
      rw [Multiset.mem_singleton]
      constructor
      · rintro ⟨inside,on⟩
        exact ((matched w inside).mp on).2
      · rintro rfl
        exact ⟨there,(matched _ there).mpr ⟨dated,rfl⟩⟩
    · next undated =>
      simp only [Multiset.notMem_zero,iff_false]
      rintro ⟨inside,on⟩
      exact undated ((matched w inside).mp on).1

/-- The rows in the window: those that are dated and whose loan has dimensions, each once. -/
theorem inWindow_eq (rows : Multiset (Key × Row)) : inWindow h raw loanId date rows =
    rows.filterMap (fun t => if Dated (date t.2) then (dimensionOf h raw t.1 (loanId t.2)).map (fun d => (t,d)) else none) := by
  have joined : join (onLoan loanId) rows (loanDimensions h raw) = _ :=
    join_eq_filterMap (fun t _ => matching_dimensions t)
  have windowed : join (onRecompute date) (join (onLoan loanId) rows (loanDimensions h raw)) (recompute h raw) =
      (join (onLoan loanId) rows (loanDimensions h raw)).filterMap (fun r => (if Dated (date r.1.2)
        then some (⟨r.1.1.sourceId,r.2.officeId,r.2.productId,beginningOfTime⟩ : RecomputeRow) else none).map (fun w => (r,w))) := by
    refine join_eq_filterMap (fun r inside => ?_)
    rw [joined,Multiset.mem_filterMap] at inside
    obtain ⟨t,_,paired⟩ := inside
    obtain ⟨d,found,rfl⟩ := Option.map_eq_some_iff.mp paired
    rw [matching_recompute found]
    split <;> rfl
  rw [inWindow,windowed,joined,Multiset.map_filterMap,Multiset.filterMap_filterMap]
  refine filterMap_congr (fun t _ => ?_)
  cases dimensionOf h raw t.1 (loanId t.2) with
  | none => simp
  | some d =>
    simp only [Option.map_some,Option.bind_some]
    split <;> rfl

/-- The group that a row of a loan belongs to. -/
def keyOf (h : Hashes) (raw : RawTables) (k : Key) (loanId : Option Int) (date : Option Date) : Option MartKey :=
  (dimensionOf h raw k loanId).map (martKey k date)

/-- The sum over the rows in the window, by group. -/
theorem sum_groups (h : Hashes) (raw : RawTables) (loanId : Row → Option Int) (date : Row → Option Date)
    (rows : Multiset (Key × Row)) (f : Row → Rat) (p : MartKey → Prop) [DecidablePred p] :
    ((groupBy (fun r : (Key × Row) × LoanDimension => martKey r.1.1 (date r.1.2) r.2) (inWindow h raw loanId date rows)).map
      (fun g => if p g.1 then (g.2.map (fun r => f r.1.2)).sum else 0)).sum =
    (rows.map (fun t => if Dated (date t.2) ∧ (keyOf h raw t.1 (loanId t.2) (date t.2)).any (fun k => p k) = true
      then f t.2 else 0)).sum := by
  rw [sum_groupBy_where,inWindow_eq,sum_filterMap]
  refine congrArg Multiset.sum (Multiset.map_congr rfl (fun t _ => ?_))
  by_cases dated : Dated (date t.2)
  · simp only [dated,if_true,true_and,keyOf]
    cases dimensionOf h raw t.1 (loanId t.2) with
    | none => rfl
    | some d => simp
  · simp [dated]

/-- The keys of the groups. -/
theorem mem_groups {rows : Multiset (Key × Row)} {k : MartKey} :
    k ∈ (groupBy (fun r : (Key × Row) × LoanDimension => martKey r.1.1 (date r.1.2) r.2)
      (inWindow h raw loanId date rows)).map Prod.fst ↔
    ∃ t ∈ rows, Dated (date t.2) ∧ keyOf h raw t.1 (loanId t.2) (date t.2) = some k := by
  rw [groupBy_keys,Multiset.mem_dedup,inWindow_eq,Multiset.mem_map]
  constructor
  · rintro ⟨r,inside,rfl⟩
    obtain ⟨t,there,selected⟩ := (Multiset.mem_filterMap _ _).mp inside
    split at selected
    · next dated =>
      obtain ⟨d,found,rfl⟩ := Option.map_eq_some_iff.mp selected
      exact ⟨t,there,dated,by simp [keyOf,found]⟩
    · cases selected
  · rintro ⟨t,there,dated,keyed⟩
    obtain ⟨d,found,same⟩ := Option.map_eq_some_iff.mp keyed
    exact ⟨(t,d),(Multiset.mem_filterMap _ _).mpr ⟨t,there,by simp [dated,found]⟩,same⟩

/-- The transactions of a type that are not reversed. -/
def posted (raw : RawTables) (type : Int) : Multiset (Key × RepaymentTransaction) :=
  (stagedTransactions raw).rows.filter (fun t => t.2.transactionTypeEnum = some type ∧ t.2.isReversed = some false)

private theorem ofType_transactions (type : Int) : ofType type (transactions h raw) =
    inWindow h raw (·.loanId) (·.transactionDate) (posted raw type) := by
  rw [ofType,transactions,posted,inWindow_eq,inWindow_eq,Multiset.filter_filter,← Multiset.filterMap_eq_filter,
    ← Multiset.filterMap_eq_filter,Multiset.filterMap_filterMap,Multiset.filterMap_filterMap]
  refine filterMap_congr (fun t _ => ?_)
  by_cases dated : Dated t.2.transactionDate
  · by_cases kept : t.2.transactionTypeEnum = some type ∧ t.2.isReversed = some false
    · cases found : dimensionOf h raw t.1 t.2.loanId <;> simpa [dated,kept,Option.guard] using found
    · cases dimensionOf h raw t.1 t.2.loanId <;> simp [dated,kept,Option.guard]
  · by_cases kept : t.2.transactionTypeEnum = some type ∧ t.2.isReversed = some false
    · simp [dated,kept,Option.guard]
    · simp [dated,kept,Option.guard]

end

/-- An office and a product of a tenant. -/
structure Partition where
  sourceId : String
  tenantId : String
  officeId : Int
  productId : Int

def MartKey.inPartition (k : MartKey) (P : Partition) : Prop :=
  k.sourceId = P.sourceId ∧ k.tenantId = P.tenantId ∧ k.officeId = some P.officeId ∧ k.productId = some P.productId

instance (k : MartKey) (P : Partition) : Decidable (k.inPartition P) := inferInstanceAs (Decidable (_ ∧ _ ∧ _ ∧ _))

section
variable (h : Hashes) (raw : RawTables) (P : Partition)

/-- The office and the product have dimension rows. -/
def HasDimensions : Prop :=
  ((dimOffice raw).get ⟨P.sourceId,P.tenantId,P.officeId⟩).isSome ∧
    ((dimProduct raw).get ⟨P.sourceId,P.tenantId,P.productId⟩).isSome

/-- The loan of the row has a client and is of the office and product. -/
def OfPartition (k : Key) (loanId : Option Int) : Prop :=
  ∃ d, dimensionOf h raw k loanId = some d ∧ k.sourceId = P.sourceId ∧ k.tenantId = P.tenantId ∧
    d.officeId = some P.officeId ∧ d.productId = some P.productId

instance (k : Key) (loanId : Option Int) : Decidable (OfPartition h raw P k loanId) :=
  match found : dimensionOf h raw k loanId with
  | none => isFalse (by simp [OfPartition,found])
  | some d => decidable_of_iff (k.sourceId = P.sourceId ∧ k.tenantId = P.tenantId ∧ d.officeId = some P.officeId ∧
      d.productId = some P.productId) (by simp [OfPartition,found])

/-- The sum over all rows of the office and product. -/
def total {Row : Type} (loanId : Row → Option Int) (amount : Row → Rat) (rows : Multiset (Key × Row)) : Rat :=
  ((rows.filter (fun t => OfPartition h raw P t.1 (loanId t.2))).map (fun t => amount t.2)).sum

def RepaymentTransaction.paid (t : RepaymentTransaction) : Rat := t.amount.getD 0

/-- The sum of a column over the mart's rows of the office and product. -/
def martTotal (column : MartRow → Rat) : Rat :=
  (((martRepaymentBehavior h raw).filter (fun r => r.key.inPartition P)).map column).sum

/-- The mart holds the money of an office and product. -/
structure Conserves : Prop where
  repayments : martTotal h raw P (·.repaymentAmount) = total h raw P (·.loanId) (·.paid) (posted raw repayment)
  recoveries : martTotal h raw P (·.recoveryRepaymentAmount) = total h raw P (·.loanId) (·.paid) (posted raw recovery)
  due : martTotal h raw P (·.due.contractuallyDueAmount) =
    total h raw P (·.loanId) (·.due) (stagedInstallments raw).rows

/-- A repayment has the group's key. -/
def Repaid (k : MartKey) : Prop :=
  ∃ t ∈ posted raw repayment, Dated t.2.transactionDate ∧ keyOf h raw t.1 t.2.loanId t.2.transactionDate = some k

/-- An installment has the group's key. -/
def FallsDue (k : MartKey) : Prop :=
  ∃ s ∈ (stagedInstallments raw).rows, Dated s.2.duedate ∧ keyOf h raw s.1 s.2.loanId s.2.duedate = some k

/-- No column of the key is NULL, so that the key equals itself. -/
def Comparable (k : MartKey) : Prop :=
  k.reportingDate.isSome ∧ k.officeId.isSome ∧ k.productId.isSome ∧ k.currencyCode.isSome ∧ k.clientHash.isSome

instance (k : MartKey) : Decidable (Repaid h raw k) := Multiset.decidableExistsMultiset
instance (k : MartKey) : Decidable (FallsDue h raw k) := Multiset.decidableExistsMultiset
instance (k : MartKey) : Decidable (Comparable k) := inferInstanceAs (Decidable (_ ∧ _ ∧ _ ∧ _ ∧ _))

/-- A recovery with the key has a row to be joined to. -/
def Joined (k : MartKey) : Prop := Comparable k ∧ (Repaid h raw k ∨ FallsDue h raw k)

instance (k : MartKey) : Decidable (Joined h raw k) := inferInstanceAs (Decidable (_ ∧ (_ ∨ _)))

/-- The recovery is in the window, and its group is joined. -/
def Shown (t : Key × RepaymentTransaction) : Prop :=
  Dated t.2.transactionDate ∧
    (keyOf h raw t.1 t.2.loanId t.2.transactionDate).any (fun k => Joined h raw k) = true

instance (t : Key × RepaymentTransaction) : Decidable (Shown h raw t) := inferInstanceAs (Decidable (_ ∧ _))

/-- The rows that the mart leaves out sum to nothing. -/
structure NothingLost : Prop where
  repayments : total h raw P (·.loanId) (·.paid) ((posted raw repayment).filter (fun t => ¬ Dated t.2.transactionDate)) = 0
  recoveries : total h raw P (·.loanId) (·.paid) ((posted raw recovery).filter (fun t => ¬ Shown h raw t)) = 0
  due : total h raw P (·.loanId) (·.due) ((stagedInstallments raw).rows.filter (fun s => ¬ Dated s.2.duedate)) = 0

end

section
variable {h : Hashes} {raw : RawTables} {P : Partition} {Row : Type} {loanId : Row → Option Int} {date : Row → Option Date}

private theorem total_split (amount : Row → Rat) (rows : Multiset (Key × Row)) (p : Key × Row → Prop) [DecidablePred p] :
    total h raw P loanId amount rows =
      total h raw P loanId amount (rows.filter p) + total h raw P loanId amount (rows.filter (fun t => ¬ p t)) := by
  rw [total,total,total,← Multiset.sum_add,← Multiset.map_add,← Multiset.filter_add,Multiset.filter_add_not]

/-- What the mart leaves out is the difference. -/
theorem total_eq_iff (amount : Row → Rat) (rows : Multiset (Key × Row)) (p : Key × Row → Prop) [DecidablePred p] :
    total h raw P loanId amount (rows.filter p) = total h raw P loanId amount rows ↔
      total h raw P loanId amount (rows.filter (fun t => ¬ p t)) = 0 := by
  rw [total_split amount rows p,eq_comm,add_eq_left]

private theorem keyOf_inPartition (k : Key) (id : Option Int) (d : Option Date) :
    (keyOf h raw k id d).any (fun k => k.inPartition P) = true ↔ OfPartition h raw P k id := by
  rw [keyOf,OfPartition]
  cases dimensionOf h raw k id with
  | none => simp
  | some d' =>
    rw [Option.map_some,Option.any_some,decide_eq_true_eq]
    simp [MartKey.inPartition,martKey]

/-- The groups of a partition sum to the dated rows of its loans. -/
theorem sum_partition (h : Hashes) (raw : RawTables) (P : Partition) (loanId : Row → Option Int) (date : Row → Option Date)
    (amount : Row → Rat) (rows : Multiset (Key × Row)) :
    ((groupBy (fun r : (Key × Row) × LoanDimension => martKey r.1.1 (date r.1.2) r.2) (inWindow h raw loanId date rows)).map
      (fun g => if g.1.inPartition P then (g.2.map (fun r => amount r.1.2)).sum else 0)).sum =
    total h raw P loanId amount (rows.filter (fun t => Dated (date t.2))) := by
  rw [sum_groups h raw loanId date rows amount (fun k => k.inPartition P),total,Multiset.filter_filter,sum_filter]
  refine congrArg Multiset.sum (Multiset.map_congr rfl (fun t _ => ?_))
  simp only [keyOf_inPartition,and_comm]

theorem sqlSum_getD (values : Multiset (Option Rat)) : (sqlSum values).getD 0 = (values.map (·.getD 0)).sum := by
  have present : (values.filterMap id).sum = (values.map (·.getD 0)).sum := by
    have added := sum_filterMap (M := Rat) id id values
    rw [Multiset.map_id] at added
    rw [added]
    exact congrArg Multiset.sum (Multiset.map_congr rfl (fun v _ => by cases v <;> rfl))
  rw [← present,sqlSum]
  split
  · next empty => rw [Multiset.card_eq_zero.mp empty]; rfl
  · rfl

/-! ### The joins of the aggregates -/

theorem onKeys_iff {A B : Type} (x : MartKey × A) (y : MartKey × B) :
    onKeys x y = true ↔ x.1 = y.1 ∧ Comparable x.1 := by
  obtain ⟨⟨s,t,d,o,p,c,i⟩,a⟩ := x
  obtain ⟨⟨s',t',d',o',p',c',i'⟩,b⟩ := y
  simp only [onKeys,Comparable,Bool.and_eq_true,decide_eq_true_eq,sqlEq_iff,MartKey.mk.injEq]
  tauto

private theorem repaymentAggregated_nodup : ((repaymentAggregated h raw).map Prod.fst).Nodup := by
  rw [repaymentAggregated,Multiset.map_map]
  exact groupBy_keys_nodup _ _

private theorem recoveryAggregated_nodup : ((recoveryAggregated h raw).map Prod.fst).Nodup := by
  rw [recoveryAggregated,Multiset.map_map]
  exact groupBy_keys_nodup _ _

private theorem dueAmounts_nodup : ((dueAmounts h raw).map Prod.fst).Nodup := by
  rw [dueAmounts,Multiset.map_map]
  exact groupBy_keys_nodup _ _

private theorem mem_repaymentAggregated {k : MartKey} : k ∈ (repaymentAggregated h raw).map Prod.fst ↔ Repaid h raw k := by
  rw [repaymentAggregated,Multiset.map_map,ofType_transactions]
  exact mem_groups

private theorem mem_dueAmounts {k : MartKey} : k ∈ (dueAmounts h raw).map Prod.fst ↔ FallsDue h raw k := by
  rw [dueAmounts,Multiset.map_map]
  exact mem_groups

/-- The key of a row of the full join is that of its first side, or else of the other. -/
theorem coalesceKey_eq {repaid : Multiset (MartKey × RepaymentAggregate)} {due : Multiset (MartKey × DueAggregate)}
    {r : Option (MartKey × RepaymentAggregate) × Option (MartKey × DueAggregate)} (inside : r ∈ fullJoin onKeys repaid due) :
    coalesceKey (r.1.map Prod.fst) (r.2.map Prod.fst) = (r.1.map Prod.fst).or (r.2.map Prod.fst) := by
  obtain ⟨left,right⟩ := r
  cases left with
  | none => rfl
  | some ra =>
    cases right with
    | none => rfl
    | some da =>
      obtain ⟨same,_⟩ := (onKeys_iff ra da).mp (fullJoin_on inside)
      simp [coalesceKey,same]

private theorem few_due (x : MartKey × RepaymentAggregate) : (matching onKeys (dueAmounts h raw) x).card ≤ 1 :=
  matching_key_le_one onKeys_iff dueAmounts_nodup x

private theorem few_repayments (y : MartKey × DueAggregate) :
    ((repaymentAggregated h raw).filter (fun x => onKeys x y)).card ≤ 1 :=
  filter_key_le_one onKeys_iff repaymentAggregated_nodup y

private theorem combined_keys : (combined h raw).map (·.key) =
    fullKeys onKeys (repaymentAggregated h raw) (dueAmounts h raw) := by
  rw [combined,Multiset.map_filterMap,← fullJoin_keys (fun x _ => few_due x)]
  refine filterMap_congr (fun r inside => ?_)
  rw [← coalesceKey_eq inside,selectCombined,Option.map_map]
  simp [Function.comp_def]

/-- The sum of a column of `combined` that comes from the repayments. -/
theorem sum_combined_repayments : ((combined h raw).map (fun c => if c.key.inPartition P then c.repaymentAmount else 0)).sum =
    total h raw P (·.loanId) (·.paid) ((posted raw repayment).filter (fun t => Dated t.2.transactionDate)) := by
  have sides : ((combined h raw).map (fun c => if c.key.inPartition P then c.repaymentAmount else 0)).sum =
      ((fullJoin onKeys (repaymentAggregated h raw) (dueAmounts h raw)).map (fun r => r.1.elim 0
        (fun ra => if ra.1.inPartition P then ra.2.repaymentAmount.getD 0 else 0))).sum := by
    rw [combined,sum_filterMap]
    refine congrArg Multiset.sum (Multiset.map_congr rfl (fun r inside => ?_))
    rw [selectCombined,coalesceKey_eq inside]
    obtain ⟨left,right⟩ := r
    cases left with
    | none => cases right <;> simp [noRepayments]
    | some ra => simp
  have kept := sum_partition h raw P (·.loanId) (·.transactionDate) (·.paid) (posted raw repayment)
  rw [sides,sum_fullJoin_left (fun x _ => few_due x),← kept,repaymentAggregated,Multiset.map_map,ofType_transactions]
  refine congrArg Multiset.sum (Multiset.map_congr rfl (fun g _ => ?_))
  simp only [Function.comp_apply,aggregateRepayments,sqlSum_getD,Multiset.map_map]
  rfl

/-- The sum of a column of `combined` that comes from the due amounts. -/
theorem sum_combined_due :
    ((combined h raw).map (fun c => if c.key.inPartition P then c.due.contractuallyDueAmount else 0)).sum =
    total h raw P (·.loanId) (·.due) ((stagedInstallments raw).rows.filter (fun s => Dated s.2.duedate)) := by
  have sides : ((combined h raw).map (fun c => if c.key.inPartition P then c.due.contractuallyDueAmount else 0)).sum =
      ((fullJoin onKeys (repaymentAggregated h raw) (dueAmounts h raw)).map (fun r => r.2.elim 0
        (fun da => if da.1.inPartition P then da.2.contractuallyDueAmount else 0))).sum := by
    rw [combined,sum_filterMap]
    refine congrArg Multiset.sum (Multiset.map_congr rfl (fun r inside => ?_))
    rw [selectCombined,coalesceKey_eq inside]
    obtain ⟨left,right⟩ := r
    cases left with
    | none => cases right <;> simp
    | some ra =>
      cases right with
      | none => simp [noDue]
      | some da => simp [((onKeys_iff ra da).mp (fullJoin_on inside)).1]
  have kept := sum_partition h raw P (·.loanId) (·.duedate) (·.due) (stagedInstallments raw).rows
  rw [sides,sum_fullJoin_right (fun y _ => few_repayments y),← kept,dueAmounts,Multiset.map_map]
  rfl

/-- The dimension row of a group's office or product. -/
def named (r : Relation Key (Option String)) (k : MartKey) (id : Option Int) : Option (Key × Option String) :=
  id.bind (fun n => (r.get ⟨k.sourceId,k.tenantId,n⟩).map (fun row => (⟨k.sourceId,k.tenantId,n⟩,row)))

/-- The dimension rows of a group. -/
def namesOf (raw : RawTables) (k : MartKey) : Option ((Key × Option String) × (Key × Option String)) :=
  (named (dimOffice raw) k k.officeId).bind (fun o => (named (dimProduct raw) k k.productId).map (fun p => (o,p)))

/-- The joins with the dimensions, of rows that have the key of a group. -/
theorem names_join {A : Type} (raw : RawTables) (key : A → MartKey) (a : Multiset A) :
    join (fun r p => (key r.1).refers (key r.1).productId p.1)
      (join (fun c o => (key c).refers (key c).officeId o.1) a (dimOffice raw).rows) (dimProduct raw).rows =
    a.filterMap (fun c => (namesOf raw (key c)).map (fun n => ((c,n.1),n.2))) := by
  have offices : join (fun c o => (key c).refers (key c).officeId o.1) a (dimOffice raw).rows = _ :=
    join_eq_filterMap (fun c _ => matching_named ⟨(key c).sourceId,(key c).tenantId,0⟩ (key c).officeId
      (fun _ => rfl))
  have products : join (fun r p => (key r.1).refers (key r.1).productId p.1)
      (join (fun c o => (key c).refers (key c).officeId o.1) a (dimOffice raw).rows) (dimProduct raw).rows = _ :=
    join_eq_filterMap (fun r _ => matching_named ⟨(key r.1).sourceId,(key r.1).tenantId,0⟩
      (key r.1).productId (fun _ => rfl))
  rw [products,offices,Multiset.filterMap_filterMap]
  refine filterMap_congr (fun c _ => ?_)
  simp only [namesOf,named]
  cases (key c).officeId with
  | none => rfl
  | some o =>
    simp only [Option.bind_some,refer]
    cases (dimOffice raw).get ⟨(key c).sourceId,(key c).tenantId,o⟩ with
    | none => rfl
    | some office =>
      simp only [Option.map_some,Option.bind_some]
      cases (key c).productId with
      | none => rfl
      | some p =>
        simp only [Option.bind_some]
        cases (dimProduct raw).get ⟨(key c).sourceId,(key c).tenantId,p⟩ <;> rfl

theorem namedRows_eq : namedRows h raw =
    (combined h raw).filterMap (fun c => (namesOf raw c.key).map (fun n => ((c,n.1),n.2))) := by
  rw [← names_join raw (fun c : CombinedRow => c.key)]
  rfl

/-- A group has names when its office and product have dimension rows. -/
theorem namesOf_isSome {k : MartKey} :
    (namesOf raw k).isSome ↔ ∃ P, HasDimensions raw P ∧ k.inPartition P := by
  obtain ⟨source,tenant,d,office,product,c,i⟩ := k
  constructor
  · intro found
    cases office with
    | none => simp [namesOf,named] at found
    | some o =>
      cases product with
      | none => simp [namesOf,named] at found
      | some p =>
        refine ⟨⟨source,tenant,o,p⟩,?_,rfl,rfl,rfl,rfl⟩
        simp only [namesOf,named,HasDimensions,Option.bind_some] at found ⊢
        cases office : (dimOffice raw).get ⟨source,tenant,o⟩ with
        | none => simp [office] at found
        | some name =>
          cases product : (dimProduct raw).get ⟨source,tenant,p⟩ with
          | none => simp [office,product] at found
          | some name' => simp
  · rintro ⟨P,dims,rfl,rfl,rfl,rfl⟩
    obtain ⟨o,office⟩ := Option.isSome_iff_exists.mp dims.1
    obtain ⟨p,product⟩ := Option.isSome_iff_exists.mp dims.2
    simp [namesOf,named,office,product]

private theorem few_recoveries (x : NamedRow) : (matching onRecovery (recoveryAggregated h raw) x).card ≤ 1 :=
  matching_key_le_one (fun x y => onKeys_iff x y) recoveryAggregated_nodup (x.1.1.key,())

private theorem recoveries_keep : (leftJoin onRecovery (namedRows h raw) (recoveryAggregated h raw)).map Prod.fst =
    namedRows h raw :=
  leftJoin_map_fst (fun x _ => few_recoveries x)

private theorem namedRows_keys : (namedRows h raw).map (·.1.1.key) =
    (fullKeys onKeys (repaymentAggregated h raw) (dueAmounts h raw)).filter (fun k => (namesOf raw k).isSome) := by
  rw [← combined_keys,namedRows_eq,Multiset.map_filterMap,Multiset.filter_map,← Multiset.filterMap_eq_filter,
    Multiset.map_filterMap]
  refine filterMap_congr (fun c _ => ?_)
  cases found : namesOf raw c.key <;> simp [Option.guard,found]

/-- The keys of the mart. -/
theorem mart_keys : (martRepaymentBehavior h raw).map (·.key) =
    (fullKeys onKeys (repaymentAggregated h raw) (dueAmounts h raw)).filter (fun k => (namesOf raw k).isSome) := by
  rw [← namedRows_keys,martRepaymentBehavior,Multiset.map_map]
  conv_rhs => rw [← recoveries_keep,Multiset.map_map]
  rfl

private theorem mart_keys_nodup_iff : ((martRepaymentBehavior h raw).map (·.key)).Nodup ↔
    ∀ k, (namesOf raw k).isSome → Repaid h raw k → FallsDue h raw k → Comparable k := by
  rw [mart_keys,fullKeys_filter_nodup_iff onKeys_iff repaymentAggregated_nodup dueAmounts_nodup]
  simp only [mem_repaymentAggregated,mem_dueAmounts]

/-- The joins with the names and the recoveries keep the sums of `combined` for a partition with dimensions. -/
theorem martTotal_combined (dims : HasDimensions raw P) (column : CombinedRow → Rat) :
    ((leftJoin onRecovery (namedRows h raw) (recoveryAggregated h raw)).map
      (fun r => if r.1.1.1.key.inPartition P then column r.1.1.1 else 0)).sum =
    ((combined h raw).map (fun c => if c.key.inPartition P then column c else 0)).sum := by
  have kept : ((leftJoin onRecovery (namedRows h raw) (recoveryAggregated h raw)).map
      (fun r => if r.1.1.1.key.inPartition P then column r.1.1.1 else 0)).sum =
      ((namedRows h raw).map (fun r => if r.1.1.key.inPartition P then column r.1.1 else 0)).sum := by
    conv_rhs => rw [← recoveries_keep,Multiset.map_map]
    rfl
  rw [kept,namedRows_eq,sum_filterMap]
  refine congrArg Multiset.sum (Multiset.map_congr rfl (fun c _ => ?_))
  by_cases inside : c.key.inPartition P
  · obtain ⟨n,found⟩ := Option.isSome_iff_exists.mp (namesOf_isSome.mpr ⟨P,dims,inside⟩)
    simp [found]
  · cases namesOf raw c.key <;> simp [inside]

private theorem martTotal_repayments (dims : HasDimensions raw P) : martTotal h raw P (·.repaymentAmount) =
    total h raw P (·.loanId) (·.paid) ((posted raw repayment).filter (fun t => Dated t.2.transactionDate)) := by
  rw [martTotal,sum_filter,martRepaymentBehavior,Multiset.map_map,← sum_combined_repayments]
  exact martTotal_combined dims (·.repaymentAmount)

private theorem martTotal_due (dims : HasDimensions raw P) : martTotal h raw P (·.due.contractuallyDueAmount) =
    total h raw P (·.loanId) (·.due) ((stagedInstallments raw).rows.filter (fun s => Dated s.2.duedate)) := by
  rw [martTotal,sum_filter,martRepaymentBehavior,Multiset.map_map,← sum_combined_due]
  exact martTotal_combined dims (·.due.contractuallyDueAmount)

/-- A group of recoveries is joined to one row, or to none. -/
theorem recovery_matches (dims : HasDimensions raw P) (y : MartKey × RecoveryAggregate) (inside : y.1.inPartition P) :
    ((namedRows h raw).filter (fun x => onRecovery x y)).card = if Joined h raw y.1 then 1 else 0 := by
  have on_key : (namedRows h raw).filter (fun x => onRecovery x y) =
      (namedRows h raw).filter (fun x => y.1 = x.1.1.key ∧ Comparable y.1) := by
    refine Multiset.filter_congr (fun x _ => ?_)
    rw [onRecovery,onKeys_iff,eq_comm]
    exact and_congr_right (fun same => by rw [same])
  rw [on_key]
  by_cases comparable : Comparable y.1
  · have names : (namesOf raw y.1).isSome = true := namesOf_isSome.mpr ⟨P,dims,inside⟩
    simp only [comparable,and_true]
    rw [← Multiset.count_map (fun x : NamedRow => x.1.1.key) _ y.1,namedRows_keys,Multiset.count_filter_of_pos (p := fun k => (namesOf raw k).isSome = true) names,
      count_fullKeys onKeys_iff repaymentAggregated_nodup dueAmounts_nodup comparable]
    simp only [mem_repaymentAggregated,mem_dueAmounts,Joined,comparable,true_and]
  · simp [comparable,Joined]

private theorem martTotal_recoveries (dims : HasDimensions raw P) : martTotal h raw P (·.recoveryRepaymentAmount) =
    total h raw P (·.loanId) (·.paid) ((posted raw recovery).filter (fun t => Shown h raw t)) := by
  have matched : martTotal h raw P (·.recoveryRepaymentAmount) =
      ((leftJoin onRecovery (namedRows h raw) (recoveryAggregated h raw)).map (fun r => r.2.elim 0
        (fun rec => if rec.1.inPartition P then rec.2.recoveryRepaymentAmount.getD 0 else 0))).sum := by
    rw [martTotal,sum_filter,martRepaymentBehavior,Multiset.map_map]
    refine congrArg Multiset.sum (Multiset.map_congr rfl (fun r inside => ?_))
    obtain ⟨x,found⟩ := r
    cases found with
    | none => exact ite_self (0 : Rat)
    | some rec =>
      have paired : onRecovery x rec = true := leftJoin_on inside
      have on_key : onKeys (x.1.1.key,()) rec = true := paired
      have same : x.1.1.key = rec.1 := ((onKeys_iff (x.1.1.key,()) rec).mp on_key).1
      simp [selectMart,same]
  have grouped := sum_groups h raw (·.loanId) (·.transactionDate) (posted raw recovery) (·.paid)
    (fun k => k.inPartition P ∧ Joined h raw k)
  have joined : martTotal h raw P (·.recoveryRepaymentAmount) =
      ((recoveryAggregated h raw).map (fun y => if y.1.inPartition P ∧ Joined h raw y.1
        then y.2.recoveryRepaymentAmount.getD 0 else 0)).sum := by
    rw [matched,sum_leftJoin_right]
    refine congrArg Multiset.sum (Multiset.map_congr rfl (fun y _ => ?_))
    by_cases inside : y.1.inPartition P
    · rw [recovery_matches dims y inside]
      by_cases shown : Joined h raw y.1
      · simp [inside,shown]
      · simp [inside,shown]
    · simp [inside]
  rw [joined,recoveryAggregated,Multiset.map_map,ofType_transactions,total,Multiset.filter_filter,sum_filter]
  refine Eq.trans ?_ (grouped.trans ?_)
  · refine congrArg Multiset.sum (Multiset.map_congr rfl (fun g _ => ?_))
    simp only [Function.comp_apply,aggregateRecoveries,sqlSum_getD,Multiset.map_map]
    rfl
  · refine congrArg Multiset.sum (Multiset.map_congr rfl (fun t _ => if_congr ?_ rfl rfl))
    rw [← keyOf_inPartition t.1 t.2.loanId t.2.transactionDate,Shown]
    cases keyOf h raw t.1 t.2.loanId t.2.transactionDate with
    | none => simp
    | some k =>
      simp only [Option.any_some,decide_eq_true_eq]
      tauto

end

/-- The mart holds the money of every office and product with dimension rows, in one row for each
    group, exactly when the rows that it leaves out sum to nothing and no group without a currency or
    a client hash has both repayments and due amounts. -/
theorem mart_conserves_iff (h : Hashes) (raw : RawTables) :
    (∀ P, HasDimensions raw P → Conserves h raw P) ∧ ((martRepaymentBehavior h raw).map (·.key)).Nodup ↔
      (∀ P, HasDimensions raw P → NothingLost h raw P) ∧
      ∀ P k, HasDimensions raw P → k.inPartition P → Repaid h raw k → FallsDue h raw k →
        k.currencyCode.isSome ∧ k.clientHash.isSome := by
  refine and_congr (forall₂_congr (fun P dims => ?_)) ?_
  · constructor
    · rintro ⟨repayments,recoveries,due⟩
      rw [martTotal_repayments dims] at repayments
      rw [martTotal_recoveries dims] at recoveries
      rw [martTotal_due dims] at due
      exact ⟨(total_eq_iff _ _ _).mp repayments,(total_eq_iff _ _ _).mp recoveries,(total_eq_iff _ _ _).mp due⟩
    · rintro ⟨repayments,recoveries,due⟩
      exact ⟨(martTotal_repayments dims).trans ((total_eq_iff _ _ _).mpr repayments),
        (martTotal_recoveries dims).trans ((total_eq_iff _ _ _).mpr recoveries),
        (martTotal_due dims).trans ((total_eq_iff _ _ _).mpr due)⟩
  · rw [mart_keys_nodup_iff]
    constructor
    · intro comparable P k dims inside repaid due
      obtain ⟨_,_,_,currency,client⟩ := comparable k (namesOf_isSome.mpr ⟨P,dims,inside⟩) repaid due
      exact ⟨currency,client⟩
    · intro known k names repaid due
      obtain ⟨P,dims,inside⟩ := namesOf_isSome.mp names
      obtain ⟨currency,client⟩ := known P k dims inside repaid due
      obtain ⟨t,_,⟨d,dated,_⟩,keyed⟩ := repaid
      obtain ⟨dimension,_,rfl⟩ := Option.map_eq_some_iff.mp keyed
      refine ⟨by simp [martKey,dated],?_,?_,currency,client⟩
      · rw [inside.2.2.1]; rfl
      · rw [inside.2.2.2]; rfl

/-- A loan that was written off, and a recovery of 50 on it. -/
def recoveredLoan : RawTables := rawOf [
  (.mOffice,1,[("name",.text "Head office")]),
  (.mProductLoan,1,[("name",.text "Personal loan")]),
  (.mClient,1,[("office_id",.int 1)]),
  (.mLoan,1,[("client_id",.int 1),("product_id",.int 1),("currency_code",.text "USD")]),
  (.mLoanTransaction,1,[("loan_id",.int 1),("transaction_type_enum",.int 8),("transaction_date",.date 0),
    ("amount",.numeric 50),("is_reversed",.boolean false)])]

def someHashes : Hashes := ⟨fun _ _ _ => some "hash",id⟩

def headOffice : Partition := ⟨"branch-001","default",1,1⟩

/-- There is no repayment and no due amount to join the recovery to. -/
theorem recovery_lost : ¬((∀ P, HasDimensions recoveredLoan P → Conserves someHashes recoveredLoan P) ∧
    ((martRepaymentBehavior someHashes recoveredLoan).map (·.key)).Nodup) := by
  rintro ⟨conserves,_⟩
  have dims : HasDimensions recoveredLoan headOffice := by
    unfold HasDimensions
    decide +kernel
  have lost : martTotal someHashes recoveredLoan headOffice (·.recoveryRepaymentAmount) ≠
      total someHashes recoveredLoan headOffice (·.loanId) (·.paid) (posted recoveredLoan recovery) := by
    decide +kernel
  exact lost (conserves headOffice dims).recoveries

end FineractBi.RepaymentMart
