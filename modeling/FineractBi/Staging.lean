import Mathlib.Data.Finset.Lattice.Fold
import FineractBi.ApplyBatch

/-!
The staging views of dbt over the production raw tables: the rows that are not
deleted, with the columns that the loan snapshots read, and the delinquency
events that `stg_m_delinquency` joins from four tables.
-/
namespace FineractBi.Staging
open Calendar FineractBi.Contract FineractBi.ApplyBatch

/-- The tables of the `raw` schema. -/
abbrev RawTables := Table → RawTable

/-- `select … from raw where not _is_deleted`, with the row type read from the columns. -/
def staged {Row : Type} (raw : RawTable) (read : (Column → Option Value) → Row) : Relation Key Row :=
  raw.filterMap (fun _ row => if row.isDeleted then none else some (read row.cols))

/-- A row of `stg_m_loan`. -/
structure Loan where
  clientId : Option Int
  productId : Option Int
  currencyCode : Option String
  disbursedonDate : Option Date
  maturedonDate : Option Date
  principalDisbursedDerived : Option Rat
  totalExpectedRepaymentDerived : Option Rat
  isNpa : Option Bool
  deriving DecidableEq

def Loan.read (cols : Column → Option Value) : Loan where
  clientId := asInt (cols "client_id")
  productId := asInt (cols "product_id")
  currencyCode := asText (cols "currency_code")
  disbursedonDate := asDate (cols "disbursedon_date")
  maturedonDate := asDate (cols "maturedon_date")
  principalDisbursedDerived := asNumeric (cols "principal_disbursed_derived")
  totalExpectedRepaymentDerived := asNumeric (cols "total_expected_repayment_derived")
  isNpa := asBoolean (cols "is_npa")

/-- A row of `stg_m_client`; its hash is computed from its key. -/
structure Client where
  officeId : Option Int
  deriving DecidableEq

def Client.read (cols : Column → Option Value) : Client where
  officeId := asInt (cols "office_id")

/-- A row of `stg_m_loan_transaction`. -/
structure Transaction where
  loanId : Option Int
  transactionDate : Option Date
  principalPortionDerived : Rat
  interestPortionDerived : Rat
  feeChargesPortionDerived : Rat
  penaltyChargesPortionDerived : Rat
  outstandingLoanBalanceDerived : Option Rat
  isReversed : Option Bool
  deriving DecidableEq

def Transaction.read (cols : Column → Option Value) : Transaction where
  loanId := asInt (cols "loan_id")
  transactionDate := asDate (cols "transaction_date")
  principalPortionDerived := (asNumeric (cols "principal_portion_derived")).getD 0
  interestPortionDerived := (asNumeric (cols "interest_portion_derived")).getD 0
  feeChargesPortionDerived := (asNumeric (cols "fee_charges_portion_derived")).getD 0
  penaltyChargesPortionDerived := (asNumeric (cols "penalty_charges_portion_derived")).getD 0
  outstandingLoanBalanceDerived := asNumeric (cols "outstanding_loan_balance_derived")
  isReversed := asBoolean (cols "is_reversed")

/-- A row of `stg_m_loan_repayment_schedule`. -/
structure Installment where
  loanId : Option Int
  duedate : Option Date
  obligationsMetOnDate : Option Date
  deriving DecidableEq

def Installment.read (cols : Column → Option Value) : Installment where
  loanId := asInt (cols "loan_id")
  duedate := asDate (cols "duedate")
  obligationsMetOnDate := asDate (cols "obligations_met_on_date")

/-- A live row of `m_loan_delinquency_tag_history`. -/
structure Tag where
  loanId : Option Int
  delinquencyRangeId : Option Int
  addedonDate : Option Date
  liftedonDate : Option Date
  deriving DecidableEq

def Tag.read (cols : Column → Option Value) : Tag where
  loanId := asInt (cols "loan_id")
  delinquencyRangeId := asInt (cols "delinquency_range_id")
  addedonDate := asDate (cols "addedon_date")
  liftedonDate := asDate (cols "liftedon_date")

/-- A live row of `m_delinquency_range`. -/
structure DelinquencyRange where
  classification : Option String
  minAgeDays : Option Int
  maxAgeDays : Option Int
  deriving DecidableEq

def DelinquencyRange.read (cols : Column → Option Value) : DelinquencyRange where
  classification := asText (cols "classification")
  minAgeDays := asInt (cols "min_age_days")
  maxAgeDays := asInt (cols "max_age_days")

/-- A live row of `m_delinquency_bucket_mappings`. -/
structure BucketMapping where
  delinquencyRangeId : Option Int
  delinquencyBucketId : Option Int
  deriving DecidableEq

def BucketMapping.read (cols : Column → Option Value) : BucketMapping where
  delinquencyRangeId := asInt (cols "delinquency_range_id")
  delinquencyBucketId := asInt (cols "delinquency_bucket_id")

/-- The name of a live row of `m_delinquency_bucket`. -/
def bucketName (cols : Column → Option Value) : Option String := asText (cols "name")

def stgMLoan (raw : RawTables) : Relation Key Loan := staged (raw .mLoan) Loan.read
def stgMClient (raw : RawTables) : Relation Key Client := staged (raw .mClient) Client.read
def stgMLoanTransaction (raw : RawTables) : Relation Key Transaction :=
  staged (raw .mLoanTransaction) Transaction.read
def stgMLoanRepaymentSchedule (raw : RawTables) : Relation Key Installment :=
  staged (raw .mLoanRepaymentSchedule) Installment.read
def tagHistory (raw : RawTables) : Relation Key Tag := staged (raw .mLoanDelinquencyTagHistory) Tag.read
def ranges (raw : RawTables) : Relation Key DelinquencyRange := staged (raw .mDelinquencyRange) DelinquencyRange.read
def mappings (raw : RawTables) : Relation Key BucketMapping :=
  staged (raw .mDelinquencyBucketMappings) BucketMapping.read
def buckets (raw : RawTables) : Relation Key (Option String) := staged (raw .mDelinquencyBucket) bucketName

/-- The key that a foreign id refers to from a row of key `k`. -/
def refer (k : Key) (id : Int) : Key := { k with id := id }

/-- The live mappings of a range. -/
def mappingsOf (raw : RawTables) (range : Key) : Finset (Key × BucketMapping) :=
  (mappings raw).rowSet.filter (fun m => m.1.sourceId = range.sourceId ∧ m.1.tenantId = range.tenantId ∧
    m.2.delinquencyRangeId = some range.id)

/-- Every delinquency range is mapped to at most one bucket. -/
def SingleMapping (raw : RawTables) : Prop :=
  ∀ m ∈ (mappings raw).rowSet, ∀ n ∈ (mappings raw).rowSet, m.1.sourceId = n.1.sourceId → m.1.tenantId = n.1.tenantId →
    m.2.delinquencyRangeId.isSome → m.2.delinquencyRangeId = n.2.delinquencyRangeId → m = n

instance (raw : RawTables) : Decidable (SingleMapping raw) := inferInstanceAs (Decidable (∀ m ∈ _, ∀ n ∈ _, _))

/-- The mapping that a range joins; `SingleMapping` makes the choice of the greatest id immaterial. -/
def mappingOf (raw : RawTables) (range : Key) : Option BucketMapping :=
  match (mappingsOf raw range).sup (fun m => (m.1.id : WithBot Int)) with
  | ⊥ => none
  | (id : Int) => (mappings raw).get (refer range id)

/-- The columns of `stg_m_delinquency` that come from the range of a tag. -/
structure Classification where
  delinquencyRangeClassification : Option String
  minAgeDays : Option Int
  maxAgeDays : Option Int
  bucketId : Option Int
  bucketName : Option String
  deriving DecidableEq

/-- The left joins of a tag with its range, the mapping of the range and the bucket. -/
def classification (raw : RawTables) (k : Key) (tag : Tag) : Classification :=
  match tag.delinquencyRangeId.bind (fun id => ((ranges raw).get (refer k id)).map (fun r => (refer k id,r))) with
  | none => ⟨none,none,none,none,none⟩
  | some (rangeKey,r) =>
    let bucketId := (mappingOf raw rangeKey).bind (·.delinquencyBucketId)
    ⟨r.classification,r.minAgeDays,r.maxAgeDays,bucketId,
      (bucketId.bind (fun id => (buckets raw).get (refer k id))).join⟩

/-- A row of `stg_m_delinquency`, keyed by `delinquency_event_id`. -/
structure DelinquencyEvent where
  loanId : Option Int
  addedonDate : Option Date
  liftedonDate : Option Date
  joined : Classification
  deriving DecidableEq

def stgMDelinquency (raw : RawTables) : Relation Key DelinquencyEvent :=
  (tagHistory raw).filterMap (fun k tag =>
    some ⟨tag.loanId,tag.addedonDate,tag.liftedonDate,classification raw k tag⟩)

def branchKey (id : Int) : Key := ⟨"branch-001","default",id⟩

def liveRow (cols : List (Column × Value)) : RawRow := ⟨fun c => cols.lookup c,1,none,none,0,.PYTHON,false⟩

/-- The raw tables with the given live rows of one source. -/
def rawOf (rows : List (Table × Int × List (Column × Value))) : RawTables := fun t =>
  Relation.tabulate ((rows.filter (fun r => r.1 = t)).map (fun r => branchKey r.2.1)).toFinset (fun k =>
    (rows.find? (fun r => r.1 = t ∧ branchKey r.2.1 = k)).map (fun r => liveRow r.2.2))

end FineractBi.Staging
