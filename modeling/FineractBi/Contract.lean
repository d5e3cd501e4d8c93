import FineractBi.Lib.Calendar

/-!
The table contract of `contracts/fineract_tables.json`, as
`meta.load_table_contract` stores it: columns, primary key and change tracking
of every ingested table, and the values a column holds.
-/
namespace FineractBi.Contract
open Calendar

/-- A value of a contract column; SQL NULL is the absence of a value. -/
inductive Value
  | int (n : Int)
  | numeric (q : Rat)
  | date (d : Date)
  | timestamptz (micros : Int)
  | text (s : String)
  | boolean (b : Bool)
  deriving DecidableEq

/-- The value of a column as the type its reader expects. -/
def asInt : Option Value → Option Int
  | some (.int n) => some n
  | _ => none
def asNumeric : Option Value → Option Rat
  | some (.numeric q) => some q
  | _ => none
def asDate : Option Value → Option Date
  | some (.date d) => some d
  | _ => none
def asText : Option Value → Option String
  | some (.text s) => some s
  | _ => none
def asBoolean : Option Value → Option Bool
  | some (.boolean b) => some b
  | _ => none

abbrev Column := String

/-- `change_tracking.entity`. -/
inductive ChangeEntity
  | loan | client | global
  deriving DecidableEq, Repr

/-- A row of `meta.table_contract`. -/
structure TableContract where
  tableName : String
  primaryKey : Column
  columns : List Column
  changeEntity : Option ChangeEntity
  changeKey : Column
  changeDate : Option Column
  changeHistoryColumns : List Column

/-- The tables of the contract. -/
inductive Table
  | mOffice | mCurrency | mClient | mProductLoan | mLoan
  | mLoanTransaction | mLoanRepaymentSchedule | mDelinquencyRange | mDelinquencyBucket | mDelinquencyBucketMappings
  | mLoanDelinquencyTagHistory | batchJobExecution | batchJobInstance
  deriving DecidableEq, Repr

def mOfficeContract : TableContract where
  tableName := "m_office"
  primaryKey := "id"
  columns :=
    ["id", "parent_id", "hierarchy", "external_id", "name", "opening_date", "created_on_utc",
    "last_modified_on_utc"]
  changeEntity := some .global
  changeKey := "id"
  changeDate := none
  changeHistoryColumns := []

def mCurrencyContract : TableContract where
  tableName := "m_currency"
  primaryKey := "id"
  columns :=
    ["id", "code", "decimal_places", "currency_multiplesof", "display_symbol", "name",
    "internationalized_name_code", "created_on_utc", "last_modified_on_utc"]
  changeEntity := none
  changeKey := "id"
  changeDate := none
  changeHistoryColumns := []

def mClientContract : TableContract where
  tableName := "m_client"
  primaryKey := "id"
  columns :=
    ["id", "account_no", "external_id", "status_enum", "activation_date", "office_joining_date", "office_id",
    "staff_id", "gender_cv_id", "date_of_birth", "legal_form_enum", "submittedon_date", "updated_on",
    "created_on_utc", "last_modified_on_utc"]
  changeEntity := some .client
  changeKey := "id"
  changeDate := none
  changeHistoryColumns :=
    ["office_id"]

def mProductLoanContract : TableContract where
  tableName := "m_product_loan"
  primaryKey := "id"
  columns :=
    ["id", "short_name", "currency_code", "currency_digits", "currency_multiplesof", "principal_amount",
    "min_principal_amount", "max_principal_amount", "arrearstolerance_amount", "name", "description",
    "nominal_interest_rate_per_period", "annual_nominal_interest_rate", "repay_every",
    "repayment_period_frequency_enum", "number_of_repayments", "overdue_days_for_npa", "start_date",
    "close_date", "created_on_utc", "last_modified_on_utc"]
  changeEntity := none
  changeKey := "id"
  changeDate := none
  changeHistoryColumns := []

def mLoanContract : TableContract where
  tableName := "m_loan"
  primaryKey := "id"
  columns :=
    ["id", "account_no", "external_id", "client_id", "product_id", "loan_status_id", "loan_type_enum",
    "currency_code", "currency_digits", "currency_multiplesof", "principal_amount_proposed", "principal_amount",
    "approved_principal", "net_disbursal_amount", "annual_nominal_interest_rate",
    "nominal_interest_rate_per_period", "interest_method_enum", "interest_calculated_in_period_enum",
    "term_frequency", "term_period_frequency_enum", "repay_every", "repayment_period_frequency_enum",
    "number_of_repayments", "amortization_method_enum", "submittedon_date", "approvedon_date",
    "expected_disbursedon_date", "expected_firstrepaymenton_date", "disbursedon_date",
    "expected_maturedon_date", "maturedon_date", "principal_disbursed_derived", "principal_repaid_derived",
    "principal_writtenoff_derived", "principal_outstanding_derived", "interest_charged_derived",
    "interest_repaid_derived", "interest_writtenoff_derived", "interest_outstanding_derived",
    "fee_charges_outstanding_derived", "penalty_charges_outstanding_derived",
    "total_expected_repayment_derived", "total_repayment_derived", "total_writtenoff_derived",
    "total_outstanding_derived", "loan_counter", "is_npa", "created_on_utc", "last_modified_on_utc"]
  changeEntity := some .loan
  changeKey := "id"
  changeDate := some "disbursedon_date"
  changeHistoryColumns :=
    ["client_id", "product_id", "currency_code", "loan_status_id", "principal_amount",
    "principal_disbursed_derived", "total_expected_repayment_derived", "disbursedon_date", "maturedon_date",
    "expected_maturedon_date", "is_npa"]

def mLoanTransactionContract : TableContract where
  tableName := "m_loan_transaction"
  primaryKey := "id"
  columns :=
    ["id", "loan_id", "office_id", "is_reversed", "transaction_type_enum", "transaction_date", "amount",
    "principal_portion_derived", "interest_portion_derived", "fee_charges_portion_derived",
    "penalty_charges_portion_derived", "overpayment_portion_derived", "outstanding_loan_balance_derived",
    "submitted_on_date", "created_on_utc", "last_modified_on_utc"]
  changeEntity := some .loan
  changeKey := "loan_id"
  changeDate := some "transaction_date"
  changeHistoryColumns :=
    ["loan_id", "office_id", "is_reversed", "transaction_type_enum", "transaction_date", "amount",
    "principal_portion_derived", "interest_portion_derived", "fee_charges_portion_derived",
    "penalty_charges_portion_derived", "overpayment_portion_derived", "outstanding_loan_balance_derived"]

def mLoanRepaymentScheduleContract : TableContract where
  tableName := "m_loan_repayment_schedule"
  primaryKey := "id"
  columns :=
    ["id", "loan_id", "fromdate", "duedate", "installment", "principal_amount", "principal_completed_derived",
    "principal_writtenoff_derived", "interest_amount", "interest_completed_derived",
    "interest_writtenoff_derived", "interest_waived_derived", "fee_charges_amount",
    "fee_charges_completed_derived", "fee_charges_writtenoff_derived", "fee_charges_waived_derived",
    "penalty_charges_amount", "penalty_charges_completed_derived", "penalty_charges_writtenoff_derived",
    "penalty_charges_waived_derived", "total_paid_in_advance_derived", "total_paid_late_derived",
    "completed_derived", "obligations_met_on_date", "is_re_aged", "lastmodified_date"]
  changeEntity := some .loan
  changeKey := "loan_id"
  changeDate := some "duedate"
  changeHistoryColumns :=
    ["loan_id", "fromdate", "duedate", "installment", "principal_amount", "principal_completed_derived",
    "principal_writtenoff_derived", "interest_amount", "interest_completed_derived",
    "interest_writtenoff_derived", "interest_waived_derived", "fee_charges_amount",
    "fee_charges_completed_derived", "fee_charges_writtenoff_derived", "fee_charges_waived_derived",
    "penalty_charges_amount", "penalty_charges_completed_derived", "penalty_charges_writtenoff_derived",
    "penalty_charges_waived_derived", "completed_derived", "obligations_met_on_date", "is_re_aged"]

def mDelinquencyRangeContract : TableContract where
  tableName := "m_delinquency_range"
  primaryKey := "id"
  columns :=
    ["id", "classification", "min_age_days", "max_age_days", "created_on_utc", "last_modified_on_utc"]
  changeEntity := some .global
  changeKey := "id"
  changeDate := none
  changeHistoryColumns := []

def mDelinquencyBucketContract : TableContract where
  tableName := "m_delinquency_bucket"
  primaryKey := "id"
  columns :=
    ["id", "name", "created_on_utc", "last_modified_on_utc"]
  changeEntity := some .global
  changeKey := "id"
  changeDate := none
  changeHistoryColumns := []

def mDelinquencyBucketMappingsContract : TableContract where
  tableName := "m_delinquency_bucket_mappings"
  primaryKey := "id"
  columns :=
    ["id", "delinquency_range_id", "delinquency_bucket_id", "created_on_utc", "last_modified_on_utc"]
  changeEntity := some .global
  changeKey := "id"
  changeDate := none
  changeHistoryColumns := []

def mLoanDelinquencyTagHistoryContract : TableContract where
  tableName := "m_loan_delinquency_tag_history"
  primaryKey := "id"
  columns :=
    ["id", "delinquency_range_id", "loan_id", "addedon_date", "liftedon_date", "created_on_utc",
    "last_modified_on_utc"]
  changeEntity := some .loan
  changeKey := "loan_id"
  changeDate := some "addedon_date"
  changeHistoryColumns :=
    ["delinquency_range_id", "loan_id", "addedon_date", "liftedon_date"]

def batchJobExecutionContract : TableContract where
  tableName := "batch_job_execution"
  primaryKey := "job_execution_id"
  columns :=
    ["job_execution_id", "job_instance_id", "status", "start_time", "end_time", "exit_code", "exit_message",
    "created_on_utc", "last_modified_on_utc"]
  changeEntity := none
  changeKey := "id"
  changeDate := none
  changeHistoryColumns := []

def batchJobInstanceContract : TableContract where
  tableName := "batch_job_instance"
  primaryKey := "job_instance_id"
  columns :=
    ["job_instance_id", "job_name", "job_key"]
  changeEntity := none
  changeKey := "id"
  changeDate := none
  changeHistoryColumns := []

/-- The contract of a table. -/
def contract : Table → TableContract
  | .mOffice => mOfficeContract
  | .mCurrency => mCurrencyContract
  | .mClient => mClientContract
  | .mProductLoan => mProductLoanContract
  | .mLoan => mLoanContract
  | .mLoanTransaction => mLoanTransactionContract
  | .mLoanRepaymentSchedule => mLoanRepaymentScheduleContract
  | .mDelinquencyRange => mDelinquencyRangeContract
  | .mDelinquencyBucket => mDelinquencyBucketContract
  | .mDelinquencyBucketMappings => mDelinquencyBucketMappingsContract
  | .mLoanDelinquencyTagHistory => mLoanDelinquencyTagHistoryContract
  | .batchJobExecution => batchJobExecutionContract
  | .batchJobInstance => batchJobInstanceContract

end FineractBi.Contract
