import Mathlib.Algebra.BigOperators.Group.Finset.Basic
import Mathlib.Algebra.Order.Ring.Unbundled.Rat
import Mathlib.Data.Finset.Max
import Mathlib.Data.Finset.Range
import Mathlib.Data.Int.ConditionallyCompleteOrder
import Mathlib.Order.ConditionallyCompleteLattice.Basic
import FineractBi.Lib.Window
import FineractBi.Staging

/-!
`int_loan_delinquency_status`: one row for each loan in scope and each snapshot
date from its scope date on, with balances and days past due carried along a
timeline of transactions and installment events. `snapshotAt` is the row of one
loan and date, whatever the scope is (`status_get`).
-/
namespace FineractBi.LoanSnapshot
open Calendar Window FineractBi.Contract FineractBi.ApplyBatch FineractBi.Staging

/-- The functions of the database that the models call: `meta.client_hash` and `md5`. -/
structure Hashes where
  clientHash : String → String → Int → Option String
  md5 : String → String

/-- A row of `int_snapshot_scope`. -/
structure Scope where
  fromDate : Date
  changedFrom : Option Date
  deriving DecidableEq

/-- A row of `loan_base` without its scope date. -/
structure LoanBase where
  loan : Loan
  disbursedonDate : Date
  clientId : Int
  client : Client

def loanBase (raw : RawTables) (l : Key) : Option LoanBase := do
  let loan ← (stgMLoan raw).get l
  let disbursedonDate ← loan.disbursedonDate
  let clientId ← loan.clientId
  let client ← (stgMClient raw).get (refer l clientId)
  return ⟨loan,disbursedonDate,clientId,client⟩

/-- `coalesce(maturedon_date, current_date)`. -/
def effectiveMaturityDate (today : Date) (loan : Loan) : Date := loan.maturedonDate.getD today

/-- `generate_series(first, last, '1 day')`. -/
def generateSeries (first last : Int) : Finset Int :=
  (Finset.range (last + 1 - first).toNat).image (fun (n : Nat) => first + (n : Int))

theorem mem_generateSeries {first last d : Int} : d ∈ generateSeries first last ↔ first ≤ d ∧ d ≤ last := by
  simp only [generateSeries,Finset.mem_image,Finset.mem_range]
  constructor
  · rintro ⟨n,inside,rfl⟩
    omega
  · rintro ⟨begun,past⟩
    exact ⟨(d - first).toNat,by omega,by omega⟩

/-- The dates from the least scope date to the current date. -/
def dateSpine (scope : Relation Key Scope) (today : Date) : Finset Date :=
  generateSeries ((scope.rowSet.inf (fun s => (s.2.fromDate : WithTop Date))).untopD today) today

/-- The snapshot dates of a loan in `loan_snapshots`. -/
def loanSnapshots (scope : Relation Key Scope) (today : Date) (l : Key) (base : LoanBase) : Finset Date :=
  match scope.get l with
  | none => ∅
  | some s => (dateSpine scope today).filter (fun d =>
      max base.disbursedonDate s.fromDate ≤ d ∧ d ≤ effectiveMaturityDate today base.loan)

/-- NULLS LAST, the order of an ascending column. -/
def nullsLast {α : Type} (x : Option α) : WithTop α := x
/-- NULLS FIRST. -/
def nullsFirst {α : Type} (x : Option α) : WithBot α := x

/-- The join condition of a row with its loan. -/
def OfLoan (l k : Key) (loanId : Option Int) : Prop :=
  k.sourceId = l.sourceId ∧ k.tenantId = l.tenantId ∧ loanId = some l.id

instance (l k : Key) (loanId : Option Int) : Decidable (OfLoan l k loanId) :=
  inferInstanceAs (Decidable (_ ∧ _ ∧ _))

def scopedTransactions (raw : RawTables) (l : Key) : Finset (Key × Transaction) :=
  (stgMLoanTransaction raw).rowSet.filter (fun t => OfLoan l t.1 t.2.loanId ∧ t.2.isReversed = some false)

/-- `order by transaction_date, loan_transaction_id`. -/
def transactionPlace (t : Key × Transaction) : WithTop Date ×ₗ Int := toLex (nullsLast t.2.transactionDate,t.1.id)

def Transaction.portions (t : Transaction) : Rat :=
  t.principalPortionDerived + t.interestPortionDerived + t.feeChargesPortionDerived + t.penaltyChargesPortionDerived

/-- The running sum of the portions up to a transaction. -/
def cumulativeObligationSatisfied (transactions : Finset (Key × Transaction)) (t : Key × Transaction) : Rat :=
  (transactions.filter (fun u => transactionPlace u ≤ transactionPlace t)).sum (fun u => Transaction.portions u.2)

def installmentStatus (raw : RawTables) (l : Key) : Finset (Key × Installment) :=
  (stgMLoanRepaymentSchedule raw).rowSet.filter (fun i => OfLoan l i.1 i.2.loanId)

/-- `coalesce(obligations_met_on_date, date '9999-12-31')`. -/
def resolvedDate (i : Installment) : Date := i.obligationsMetOnDate.getD endOfTime

def installmentEvents (installments : Finset (Key × Installment)) : Finset (Option Date) :=
  installments.image (·.2.duedate) ∪
    (installments.filter (fun i => resolvedDate i.2 < endOfTime)).image (fun i => some (resolvedDate i.2))

/-- `i.duedate < e.event_date and i.resolved_date > e.event_date`. -/
def unpaidAsOf (e : Option Date) (i : Installment) : Bool :=
  match e,i.duedate with
  | some event,some due => due < event && event < resolvedDate i
  | _,_ => false

def oldestUnpaidAsOfEvent (installments : Finset (Key × Installment)) (e : Option Date) : Date :=
  ((installments.filter (fun i => unpaidAsOf e i.2)).inf (fun i => nullsLast i.2.duedate)).untopD endOfTime

/-- A row of `timeline`. -/
structure TimelinePoint where
  pointDate : Option Date
  kind : Int
  txnId : Option Int
  balance : Option Rat
  cumulativeObligation : Option Rat
  oldestUnpaid : Option Date
  deriving DecidableEq

def snapshotPoint (d : Date) : TimelinePoint := ⟨some d,1,none,none,none,none⟩

def transactionPoint (transactions : Finset (Key × Transaction)) (t : Key × Transaction) : TimelinePoint :=
  ⟨t.2.transactionDate,0,some t.1.id,t.2.outstandingLoanBalanceDerived,
    some (cumulativeObligationSatisfied transactions t),none⟩

def eventPoint (installments : Finset (Key × Installment)) (e : Option Date) : TimelinePoint :=
  ⟨e,0,none,none,none,some (oldestUnpaidAsOfEvent installments e)⟩

def timeline (raw : RawTables) (l : Key) (dates : Finset Date) : Finset TimelinePoint :=
  dates.image snapshotPoint ∪
    (scopedTransactions raw l).image (transactionPoint (scopedTransactions raw l)) ∪
    (installmentEvents (installmentStatus raw l)).image (eventPoint (installmentStatus raw l))

/-- `order by point_date, kind, txn_id nulls first`. -/
def pointPlace (p : TimelinePoint) : WithTop Date ×ₗ Int ×ₗ WithBot Int :=
  toLex (nullsLast p.pointDate,toLex (p.kind,nullsFirst p.txnId))

/-- A row of `as_of`. -/
structure AsOf where
  balanceAsOf : Option Rat
  obligationSatisfiedToDate : Rat
  daysPastDue : Int
  deriving DecidableEq

def daysPastDue (d : Date) : Option Date → Int
  | none => 0
  | some oldest => if endOfTime ≤ oldest then 0 else d - oldest

def asOf (points : Finset TimelinePoint) (d : Date) : AsOf where
  balanceAsOf := carried points pointPlace (·.balance) (snapshotPoint d)
  obligationSatisfiedToDate := (carried points pointPlace (·.cumulativeObligation) (snapshotPoint d)).getD 0
  daysPastDue := daysPastDue d (carried points pointPlace (·.oldestUnpaid) (snapshotPoint d))

/-- A delinquency tag is in force on a date. -/
def inForce (d : Date) (e : DelinquencyEvent) : Bool :=
  match e.addedonDate with
  | none => false
  | some added => added ≤ d && (match e.liftedonDate with
    | none => true
    | some lifted => d < lifted)

/-- The rows of `stg_m_delinquency` that join a snapshot. -/
def delinquencyMatches (raw : RawTables) (l : Key) (d : Date) : Finset (Key × DelinquencyEvent) :=
  (stgMDelinquency raw).rowSet.filter (fun e => OfLoan l e.1 e.2.loanId ∧ inForce d e.2)

/-- `order by d.addedon_date desc, d.delinquency_event_id desc`. -/
def matchPlace (e : Key × DelinquencyEvent) : WithBot (WithBot Date ×ₗ Int) :=
  (toLex (nullsFirst e.2.addedonDate,e.1.id) : WithBot Date ×ₗ Int)

/-- The match with `rn = 1`. -/
def delinquencyMatch (raw : RawTables) (l : Key) (d : Date) : Option DelinquencyEvent :=
  match (delinquencyMatches raw l d).sup matchPlace with
  | ⊥ => none
  | (place : WithBot Date ×ₗ Int) => (stgMDelinquency raw).get (refer l (ofLex place).2)

/-- A row of `int_loan_delinquency_status`, keyed by loan and snapshot date. -/
structure StatusRow where
  clientId : Int
  clientHash : Option String
  officeId : Option Int
  productId : Option Int
  currencyCode : Option String
  bucketKey : Int
  bucketName : String
  delinquencyRangeClassification : String
  daysPastDueLowerBound : Int
  daysPastDueUpperBound : Int
  principalDisbursedDerived : Option Rat
  principalOutstanding : Option Rat
  totalOutstanding : Rat
  isNpa : Option Bool
  standardParBand : String
  isPar30 : Bool
  isPar60 : Bool
  isPar90 : Bool
  isWatchList : Bool
  deriving DecidableEq

def standardParBand (daysPastDue : Int) : String :=
  if daysPastDue = 0 then "Performing"
  else if daysPastDue < 30 then "Watch-list"
  else if daysPastDue < 60 then "PAR 30-59"
  else if daysPastDue < 90 then "PAR 60-89"
  else "PAR 90+"

/-- The select list, for a loan with the given snapshot dates. -/
def statusRow (h : Hashes) (raw : RawTables) (l : Key) (base : LoanBase) (dates : Finset Date) (d : Date) : StatusRow :=
  let a := asOf (timeline raw l dates) d
  let joined := ((delinquencyMatch raw l d).map (·.joined)).getD ⟨none,none,none,none,none⟩
  { clientId := base.clientId
    clientHash := h.clientHash l.sourceId l.tenantId base.clientId
    officeId := base.client.officeId
    productId := base.loan.productId
    currencyCode := base.loan.currencyCode
    bucketKey := joined.bucketId.getD 0
    bucketName := joined.bucketName.getD "Current"
    delinquencyRangeClassification := joined.delinquencyRangeClassification.getD "Current"
    daysPastDueLowerBound := joined.minAgeDays.getD 0
    daysPastDueUpperBound := joined.maxAgeDays.getD 0
    principalDisbursedDerived := base.loan.principalDisbursedDerived
    principalOutstanding := a.balanceAsOf.or base.loan.principalDisbursedDerived
    -- greatest ignores NULL: without an expected repayment nothing is outstanding
    totalOutstanding := match base.loan.totalExpectedRepaymentDerived with
      | none => 0
      | some expected => max (expected - a.obligationSatisfiedToDate) 0
    isNpa := base.loan.isNpa
    standardParBand := standardParBand a.daysPastDue
    isPar30 := 30 ≤ a.daysPastDue
    isPar60 := 60 ≤ a.daysPastDue
    isPar90 := 90 ≤ a.daysPastDue
    isWatchList := 0 < a.daysPastDue && a.daysPastDue < 30 }

def intLoanDelinquencyStatus (h : Hashes) (raw : RawTables) (scope : Relation Key Scope) (today : Date) :
    Relation (Key × Date) StatusRow :=
  Relation.tabulate ((stgMLoan raw).keys ×ˢ dateSpine scope today) (fun k =>
    (loanBase raw k.1).bind (fun base =>
      let dates := loanSnapshots scope today k.1 base
      if k.2 ∈ dates then some (statusRow h raw k.1 base dates k.2) else none))

/-- The row of a loan and a date when the date is in its scope. -/
def snapshotAt (h : Hashes) (raw : RawTables) (l : Key) (d : Date) : Option StatusRow :=
  (loanBase raw l).bind (fun base =>
    if base.disbursedonDate ≤ d ∧ (∀ matured ∈ base.loan.maturedonDate, d ≤ matured)
    then some (statusRow h raw l base {d} d) else none)

section Dependencies
variable {h : Hashes} {raw raw' : RawTables} {l : Key} {d today : Date} {points points' : Finset TimelinePoint}
  {dates dates' : Finset Date} {p : TimelinePoint}

/-- A point of the timeline that brings a value. -/
def Bearing (p : TimelinePoint) : Prop :=
  p.balance.isSome ∨ p.cumulativeObligation.isSome ∨ p.oldestUnpaid.isSome

theorem pointPlace_le (before : pointPlace p ≤ pointPlace (snapshotPoint d)) : ∃ x, p.pointDate = some x ∧ x ≤ d := by
  have dates : nullsLast p.pointDate ≤ nullsLast (some d) := Prod.Lex.monotone_fst _ _ before
  cases dated : p.pointDate with
  | none => exact absurd dates (by rw [dated]; exact not_le.mpr (WithTop.coe_lt_top d))
  | some x =>
    rw [dated] at dates
    exact ⟨x,rfl,WithTop.coe_le_coe.mp dates⟩

/-- The values as of a date come from the points with a value up to it. -/
theorem asOf_congr (same : ∀ p x, Bearing p → p.pointDate = some x → x ≤ d → (p ∈ points ↔ p ∈ points')) :
    asOf points d = asOf points' d := by
  have upto : ∀ p, Bearing p → pointPlace p ≤ pointPlace (snapshotPoint d) → (p ∈ points ↔ p ∈ points') := by
    intro p bearing before
    obtain ⟨x,dated,le⟩ := pointPlace_le before
    exact same p x bearing dated le
  simp only [asOf]
  rw [carried_congr (fun q bearing => upto q (.inl bearing)),
    carried_congr (fun q bearing => upto q (.inr (.inl bearing))),
    carried_congr (fun q bearing => upto q (.inr (.inr bearing)))]

theorem mem_timeline (bearing : Bearing p) : p ∈ timeline raw l dates ↔
    (∃ t ∈ scopedTransactions raw l, transactionPoint (scopedTransactions raw l) t = p) ∨
    (∃ e ∈ installmentEvents (installmentStatus raw l), eventPoint (installmentStatus raw l) e = p) := by
  have not_snapshot : p ∉ dates.image snapshotPoint := by
    intro member
    obtain ⟨x,_,rfl⟩ := Finset.mem_image.mp member
    simp [Bearing,snapshotPoint] at bearing
  simp only [timeline,Finset.mem_union,not_snapshot,false_or,Finset.mem_image]

private theorem asOf_dates (dates dates' : Finset Date) : asOf (timeline raw l dates) d = asOf (timeline raw l dates') d :=
  asOf_congr (fun _ _ bearing _ _ => (mem_timeline bearing).trans (mem_timeline bearing).symm)

private theorem statusRow_dates (base : LoanBase) : statusRow h raw l base dates d = statusRow h raw l base dates' d := by
  simp only [statusRow,asOf_dates dates dates']

/-- The parts of the raw tables that the timeline of a loan shows up to a date. -/
structure SameTimeline (raw raw' : RawTables) (l : Key) (d : Date) : Prop where
  transactions : ∀ t x, t.2.transactionDate = some x → x ≤ d →
    (t ∈ scopedTransactions raw l ↔ t ∈ scopedTransactions raw' l)
  events : ∀ e ≤ d, some e ∈ installmentEvents (installmentStatus raw l) ↔
    some e ∈ installmentEvents (installmentStatus raw' l)
  unpaid : ∀ e ≤ d, oldestUnpaidAsOfEvent (installmentStatus raw l) (some e) =
    oldestUnpaidAsOfEvent (installmentStatus raw' l) (some e)

private theorem cumulative_congr {ts ts' : Finset (Key × Transaction)}
    (same : ∀ t x, t.2.transactionDate = some x → x ≤ d → (t ∈ ts ↔ t ∈ ts')) {t : Key × Transaction} {x : Date}
    (dated : t.2.transactionDate = some x) (le : x ≤ d) :
    cumulativeObligationSatisfied ts t = cumulativeObligationSatisfied ts' t := by
  have filters : ts.filter (fun u => transactionPlace u ≤ transactionPlace t) =
      ts'.filter (fun u => transactionPlace u ≤ transactionPlace t) := by
    ext u
    simp only [Finset.mem_filter,and_congr_left_iff]
    intro before
    have dates : nullsLast u.2.transactionDate ≤ nullsLast t.2.transactionDate := Prod.Lex.monotone_fst _ _ before
    rw [dated] at dates
    cases dated_u : u.2.transactionDate with
    | none => exact absurd dates (by rw [dated_u]; exact not_le.mpr (WithTop.coe_lt_top x))
    | some y =>
      rw [dated_u] at dates
      exact same u y dated_u ((WithTop.coe_le_coe.mp dates).trans le)
  rw [cumulativeObligationSatisfied,cumulativeObligationSatisfied,filters]

private theorem mem_timeline_of_same (same : SameTimeline raw raw' l d) {x : Date} (bearing : Bearing p)
    (dated : p.pointDate = some x) (le : x ≤ d) (member : p ∈ timeline raw l dates) : p ∈ timeline raw' l dates' := by
  rw [mem_timeline bearing] at member ⊢
  rcases member with ⟨t,inside,rfl⟩ | ⟨e,inside,rfl⟩
  · refine .inl ⟨t,(same.transactions t x dated le).mp inside,?_⟩
    simp only [transactionPoint,cumulative_congr same.transactions dated le]
  · obtain rfl : e = some x := dated
    refine .inr ⟨some x,(same.events x le).mp inside,?_⟩
    simp only [eventPoint,same.unpaid x le]

theorem SameTimeline.symm (same : SameTimeline raw raw' l d) : SameTimeline raw' raw l d :=
  ⟨fun t x dated le => (same.transactions t x dated le).symm,fun e le => (same.events e le).symm,
    fun e le => (same.unpaid e le).symm⟩

theorem SameTimeline.asOf (same : SameTimeline raw raw' l d) :
    asOf (timeline raw l dates) d = asOf (timeline raw' l dates) d :=
  asOf_congr (fun _ _ bearing dated le =>
    ⟨mem_timeline_of_same same bearing dated le,mem_timeline_of_same same.symm bearing dated le⟩)

/-- The chosen match is the newest tag in force. -/
theorem delinquencyMatch_eq {e : Key × DelinquencyEvent} (member : e ∈ delinquencyMatches raw l d)
    (newest : ∀ f ∈ delinquencyMatches raw l d, matchPlace f ≤ matchPlace e) :
    delinquencyMatch raw l d = some e.2 := by
  have top : (delinquencyMatches raw l d).sup matchPlace = matchPlace e :=
    le_antisymm (Finset.sup_le newest) (Finset.le_sup member)
  obtain ⟨found,⟨source,tenant,_⟩,_⟩ := Finset.mem_filter.mp member
  have own_key : refer l e.1.id = e.1 := by
    obtain ⟨⟨_,_,_⟩,_⟩ := e
    simp_all [refer]
  have at_key : (stgMDelinquency raw).get e.1 = some e.2 := Relation.mem_rowSet.mp found
  simp only [delinquencyMatch,top]
  show (stgMDelinquency raw).get (refer l e.1.id) = some e.2
  rw [own_key,at_key]

private theorem delinquencyMatch_congr (same : delinquencyMatches raw l d = delinquencyMatches raw' l d) :
    delinquencyMatch raw l d = delinquencyMatch raw' l d := by
  rcases (delinquencyMatches raw l d).eq_empty_or_nonempty with empty | inhabited
  · simp only [delinquencyMatch,← same,empty,Finset.sup_empty]
  · obtain ⟨e,member,newest⟩ := (delinquencyMatches raw l d).exists_max_image matchPlace inhabited
    rw [delinquencyMatch_eq member newest]
    rw [same] at member newest
    rw [delinquencyMatch_eq member newest]

/-- A snapshot is a function of its loan and client, its timeline and its delinquency tags in force. -/
theorem snapshotAt_congr (base : loanBase raw l = loanBase raw' l) (same : SameTimeline raw raw' l d)
    (tags : delinquencyMatches raw l d = delinquencyMatches raw' l d) :
    snapshotAt h raw l d = snapshotAt h raw' l d := by
  simp only [snapshotAt,base,statusRow,same.asOf,delinquencyMatch_congr tags]

end Dependencies

section Rows
variable {h : Hashes} {raw : RawTables} {scope : Relation Key Scope} {l : Key} {s : Scope} {d today : Date}

private theorem dateSpine_mem (in_scope : scope.get l = some s) (inside : s.fromDate ≤ d) (past : d ≤ today) :
    d ∈ dateSpine scope today := by
  have least : scope.rowSet.inf (fun s => (s.2.fromDate : WithTop Date)) ≤ (s.fromDate : WithTop Date) :=
    Finset.inf_le (f := fun s : Key × Scope => (s.2.fromDate : WithTop Date)) (b := (l,s)) (Relation.mem_rowSet.mpr in_scope)
  obtain ⟨start,at_start,le⟩ := WithTop.le_coe_iff.mp least
  simp only [dateSpine,at_start,mem_generateSeries]
  exact ⟨(WithTop.untopD_coe today start).le.trans (le.trans inside),past⟩

theorem loanSnapshots_mem (in_scope : scope.get l = some s) (base : LoanBase) : d ∈ loanSnapshots scope today l base ↔
    (s.fromDate ≤ d ∧ d ≤ today) ∧ base.disbursedonDate ≤ d ∧ ∀ matured ∈ base.loan.maturedonDate, d ≤ matured := by
  simp only [loanSnapshots,in_scope,Finset.mem_filter,max_le_iff,effectiveMaturityDate]
  constructor
  · rintro ⟨spine,⟨disbursed,inside⟩,open_⟩
    refine ⟨⟨inside,(mem_generateSeries.mp spine).2⟩,disbursed,?_⟩
    intro matured ended
    rwa [Option.mem_def.mp ended] at open_
  · rintro ⟨⟨inside,past⟩,disbursed,open_⟩
    refine ⟨dateSpine_mem in_scope inside past,⟨disbursed,inside⟩,?_⟩
    cases ended : base.loan.maturedonDate with
    | none => simpa using past
    | some matured => simpa using open_ matured ended

theorem loanBase_loan {base : LoanBase} (found : loanBase raw l = some base) : (stgMLoan raw).get l = some base.loan := by
  simp only [loanBase,Option.bind_eq_bind,Option.bind_eq_some_iff] at found
  obtain ⟨loan,at_l,_,_,_,_,_,_,same⟩ := found
  rw [at_l,← Option.some.inj same]

/-- The rows of a loan are its snapshots from its scope date up to the current date. -/
theorem status_get (in_scope : scope.get l = some s) : (intLoanDelinquencyStatus h raw scope today).get (l,d) =
    if s.fromDate ≤ d ∧ d ≤ today then snapshotAt h raw l d else none := by
  simp only [intLoanDelinquencyStatus,Relation.tabulate_get,Finset.mem_product,snapshotAt]
  cases found : loanBase raw l with
  | none => simp
  | some base =>
    have key : l ∈ (stgMLoan raw).keys := (Relation.mem_keys _ l).mpr (by simp [loanBase_loan found])
    simp only [key,true_and,Option.bind_some,loanSnapshots_mem in_scope]
    by_cases inside : s.fromDate ≤ d ∧ d ≤ today
    · simp only [dateSpine_mem in_scope inside.1 inside.2,inside,true_and,if_true]
      rw [statusRow_dates base]
    · simp [inside]

theorem status_get_none (unscoped : scope.get l = none) :
    (intLoanDelinquencyStatus h raw scope today).get (l,d) = none := by
  simp [intLoanDelinquencyStatus,loanSnapshots,unscoped]

end Rows

end FineractBi.LoanSnapshot
