import FineractBi.Contract
import FineractBi.Envelope
import FineractBi.Lib.ArrayText

/-!
The tables of the contract with the types of their columns, as the extractor
and the sink read them: `contracts/fineract_tables.json` through `ColumnSpec`.
-/
namespace FineractBi.FineractTables
open FineractBi.Contract (Table contract)

/-- `ColumnSpec`, with what either engine reads of it. -/
structure Column where
  name : String
  type : String
  cdc : List String
  synthetic : Bool
  pii : Bool
  cdcUnit : String
  deriving DecidableEq

/-- The columns of the source table that may hold the column: its name, unless others are given. -/
def Column.candidates (c : Column) : List String := if c.cdc = [] then [c.name] else c.cdc

structure TypedTable where
  tableName : String
  primaryKey : String
  columns : List Column
  keyed : ∃ c ∈ columns, c.name = primaryKey

def plain (type name : String) : Column := ⟨name,type,[],false,false,"micros"⟩
def captured (type name : String) (cdc : List String) : Column := ⟨name,type,cdc,false,false,"micros"⟩
def synthetic (type name : String) : Column := ⟨name,type,[],true,false,"micros"⟩
def personal (type name : String) : Column := ⟨name,type,[],false,true,"micros"⟩

def mOffice : TypedTable where
  tableName := "m_office"
  primaryKey := "id"
  columns :=
    [plain "bigint" "id", plain "bigint" "parent_id", plain "text" "hierarchy", plain "text" "external_id",
      plain "text" "name", plain "date" "opening_date", synthetic "timestamptz" "created_on_utc",
      synthetic "timestamptz" "last_modified_on_utc"]
  keyed := by decide +kernel

def mCurrency : TypedTable where
  tableName := "m_currency"
  primaryKey := "id"
  columns :=
    [plain "bigint" "id", plain "text" "code", plain "smallint" "decimal_places",
      plain "smallint" "currency_multiplesof", plain "text" "display_symbol", plain "text" "name",
      plain "text" "internationalized_name_code", synthetic "timestamptz" "created_on_utc",
      synthetic "timestamptz" "last_modified_on_utc"]
  keyed := by decide +kernel

def mClient : TypedTable where
  tableName := "m_client"
  primaryKey := "id"
  columns :=
    [plain "bigint" "id", plain "text" "account_no", plain "text" "external_id", plain "integer" "status_enum",
      plain "date" "activation_date", plain "date" "office_joining_date", plain "bigint" "office_id",
      plain "bigint" "staff_id", plain "integer" "gender_cv_id", personal "date" "date_of_birth",
      plain "integer" "legal_form_enum", plain "date" "submittedon_date", plain "date" "updated_on",
      plain "timestamptz" "created_on_utc", plain "timestamptz" "last_modified_on_utc"]
  keyed := by decide +kernel

def mProductLoan : TypedTable where
  tableName := "m_product_loan"
  primaryKey := "id"
  columns :=
    [plain "bigint" "id", plain "text" "short_name", plain "text" "currency_code",
      plain "smallint" "currency_digits", plain "smallint" "currency_multiplesof",
      plain "numeric(19,6)" "principal_amount", plain "numeric(19,6)" "min_principal_amount",
      plain "numeric(19,6)" "max_principal_amount", plain "numeric(19,6)" "arrearstolerance_amount",
      plain "text" "name", plain "text" "description", plain "numeric(19,6)" "nominal_interest_rate_per_period",
      plain "numeric(19,6)" "annual_nominal_interest_rate", plain "smallint" "repay_every",
      plain "smallint" "repayment_period_frequency_enum", plain "smallint" "number_of_repayments",
      plain "smallint" "overdue_days_for_npa", plain "date" "start_date", plain "date" "close_date",
      synthetic "timestamptz" "created_on_utc", synthetic "timestamptz" "last_modified_on_utc"]
  keyed := by decide +kernel

def mLoan : TypedTable where
  tableName := "m_loan"
  primaryKey := "id"
  columns :=
    [plain "bigint" "id", plain "text" "account_no", plain "text" "external_id", plain "bigint" "client_id",
      plain "bigint" "product_id", plain "smallint" "loan_status_id", plain "smallint" "loan_type_enum",
      plain "text" "currency_code", plain "smallint" "currency_digits", plain "smallint" "currency_multiplesof",
      plain "numeric(19,6)" "principal_amount_proposed", plain "numeric(19,6)" "principal_amount",
      plain "numeric(19,6)" "approved_principal", plain "numeric(19,6)" "net_disbursal_amount",
      plain "numeric(19,6)" "annual_nominal_interest_rate", plain "numeric(19,6)" "nominal_interest_rate_per_period",
      plain "smallint" "interest_method_enum", plain "smallint" "interest_calculated_in_period_enum",
      plain "smallint" "term_frequency", plain "smallint" "term_period_frequency_enum",
      plain "smallint" "repay_every", plain "smallint" "repayment_period_frequency_enum",
      plain "smallint" "number_of_repayments", plain "smallint" "amortization_method_enum",
      plain "date" "submittedon_date", plain "date" "approvedon_date", plain "date" "expected_disbursedon_date",
      plain "date" "expected_firstrepaymenton_date", plain "date" "disbursedon_date",
      plain "date" "expected_maturedon_date", plain "date" "maturedon_date",
      plain "numeric(19,6)" "principal_disbursed_derived", plain "numeric(19,6)" "principal_repaid_derived",
      plain "numeric(19,6)" "principal_writtenoff_derived", plain "numeric(19,6)" "principal_outstanding_derived",
      plain "numeric(19,6)" "interest_charged_derived", plain "numeric(19,6)" "interest_repaid_derived",
      plain "numeric(19,6)" "interest_writtenoff_derived", plain "numeric(19,6)" "interest_outstanding_derived",
      plain "numeric(19,6)" "fee_charges_outstanding_derived",
      plain "numeric(19,6)" "penalty_charges_outstanding_derived",
      plain "numeric(19,6)" "total_expected_repayment_derived", plain "numeric(19,6)" "total_repayment_derived",
      plain "numeric(19,6)" "total_writtenoff_derived", plain "numeric(19,6)" "total_outstanding_derived",
      plain "smallint" "loan_counter", plain "boolean" "is_npa", plain "timestamptz" "created_on_utc",
      plain "timestamptz" "last_modified_on_utc"]
  keyed := by decide +kernel

def mLoanTransaction : TypedTable where
  tableName := "m_loan_transaction"
  primaryKey := "id"
  columns :=
    [plain "bigint" "id", plain "bigint" "loan_id", plain "bigint" "office_id", plain "boolean" "is_reversed",
      plain "smallint" "transaction_type_enum", plain "date" "transaction_date", plain "numeric(19,6)" "amount",
      plain "numeric(19,6)" "principal_portion_derived", plain "numeric(19,6)" "interest_portion_derived",
      plain "numeric(19,6)" "fee_charges_portion_derived", plain "numeric(19,6)" "penalty_charges_portion_derived",
      plain "numeric(19,6)" "overpayment_portion_derived", plain "numeric(19,6)" "outstanding_loan_balance_derived",
      plain "date" "submitted_on_date", plain "timestamptz" "created_on_utc",
      plain "timestamptz" "last_modified_on_utc"]
  keyed := by decide +kernel

def mLoanRepaymentSchedule : TypedTable where
  tableName := "m_loan_repayment_schedule"
  primaryKey := "id"
  columns :=
    [plain "bigint" "id", plain "bigint" "loan_id", plain "date" "fromdate", plain "date" "duedate",
      plain "smallint" "installment", plain "numeric(19,6)" "principal_amount",
      plain "numeric(19,6)" "principal_completed_derived", plain "numeric(19,6)" "principal_writtenoff_derived",
      plain "numeric(19,6)" "interest_amount", plain "numeric(19,6)" "interest_completed_derived",
      plain "numeric(19,6)" "interest_writtenoff_derived", plain "numeric(19,6)" "interest_waived_derived",
      plain "numeric(19,6)" "fee_charges_amount", plain "numeric(19,6)" "fee_charges_completed_derived",
      plain "numeric(19,6)" "fee_charges_writtenoff_derived", plain "numeric(19,6)" "fee_charges_waived_derived",
      plain "numeric(19,6)" "penalty_charges_amount", plain "numeric(19,6)" "penalty_charges_completed_derived",
      plain "numeric(19,6)" "penalty_charges_writtenoff_derived",
      plain "numeric(19,6)" "penalty_charges_waived_derived", plain "numeric(19,6)" "total_paid_in_advance_derived",
      plain "numeric(19,6)" "total_paid_late_derived", plain "boolean" "completed_derived",
      plain "date" "obligations_met_on_date", plain "boolean" "is_re_aged",
      captured "timestamptz" "lastmodified_date" ["last_modified_on_utc","lastmodified_date"]]
  keyed := by decide +kernel

def mDelinquencyRange : TypedTable where
  tableName := "m_delinquency_range"
  primaryKey := "id"
  columns :=
    [plain "bigint" "id", plain "text" "classification", plain "bigint" "min_age_days",
      plain "bigint" "max_age_days", plain "timestamptz" "created_on_utc",
      plain "timestamptz" "last_modified_on_utc"]
  keyed := by decide +kernel

def mDelinquencyBucket : TypedTable where
  tableName := "m_delinquency_bucket"
  primaryKey := "id"
  columns :=
    [plain "bigint" "id", plain "text" "name", plain "timestamptz" "created_on_utc",
      plain "timestamptz" "last_modified_on_utc"]
  keyed := by decide +kernel

def mDelinquencyBucketMappings : TypedTable where
  tableName := "m_delinquency_bucket_mappings"
  primaryKey := "id"
  columns :=
    [plain "bigint" "id", plain "bigint" "delinquency_range_id", plain "bigint" "delinquency_bucket_id",
      plain "timestamptz" "created_on_utc", plain "timestamptz" "last_modified_on_utc"]
  keyed := by decide +kernel

def mLoanDelinquencyTagHistory : TypedTable where
  tableName := "m_loan_delinquency_tag_history"
  primaryKey := "id"
  columns :=
    [plain "bigint" "id", plain "bigint" "delinquency_range_id", plain "bigint" "loan_id",
      plain "date" "addedon_date", plain "date" "liftedon_date", plain "timestamptz" "created_on_utc",
      plain "timestamptz" "last_modified_on_utc"]
  keyed := by decide +kernel

def batchJobExecution : TypedTable where
  tableName := "batch_job_execution"
  primaryKey := "job_execution_id"
  columns :=
    [plain "bigint" "job_execution_id", plain "bigint" "job_instance_id", plain "text" "status",
      plain "timestamptz" "start_time", plain "timestamptz" "end_time", plain "text" "exit_code",
      plain "text" "exit_message", captured "timestamptz" "created_on_utc" ["create_time"],
      captured "timestamptz" "last_modified_on_utc" ["last_updated"]]
  keyed := by decide +kernel

def batchJobInstance : TypedTable where
  tableName := "batch_job_instance"
  primaryKey := "job_instance_id"
  columns :=
    [plain "bigint" "job_instance_id", plain "text" "job_name", plain "text" "job_key"]
  keyed := by decide +kernel

def typed : Table → TypedTable
  | .mOffice => mOffice
  | .mCurrency => mCurrency
  | .mClient => mClient
  | .mProductLoan => mProductLoan
  | .mLoan => mLoan
  | .mLoanTransaction => mLoanTransaction
  | .mLoanRepaymentSchedule => mLoanRepaymentSchedule
  | .mDelinquencyRange => mDelinquencyRange
  | .mDelinquencyBucket => mDelinquencyBucket
  | .mDelinquencyBucketMappings => mDelinquencyBucketMappings
  | .mLoanDelinquencyTagHistory => mLoanDelinquencyTagHistory
  | .batchJobExecution => batchJobExecution
  | .batchJobInstance => batchJobInstance

/-- The tables, in the order of the file. -/
def tables : List Table :=
  [.mOffice,.mCurrency,.mClient,.mProductLoan,.mLoan,.mLoanTransaction,.mLoanRepaymentSchedule,
    .mDelinquencyRange,.mDelinquencyBucket,.mDelinquencyBucketMappings,.mLoanDelinquencyTagHistory,.batchJobExecution,.batchJobInstance]

/-- The columns are those of the raw tables. -/
theorem typed_columns (t : Table) : (typed t).columns.map (·.name) = (contract t).columns ∧
    (typed t).tableName = (contract t).tableName ∧ (typed t).primaryKey = (contract t).primaryKey := by
  cases t <;> decide +kernel

def Column.spec (c : Column) : Envelope.ColumnSpec := ⟨c.name,c.type,c.candidates,c.synthetic,c.cdcUnit⟩

def TypedTable.sink (t : TypedTable) : Envelope.TableContract where
  tableName := t.tableName
  primaryKey := t.primaryKey
  columns := t.columns.map Column.spec
  keyed := by
    obtain ⟨c,inside,named⟩ := t.keyed
    exact ⟨c.spec,List.mem_map_of_mem inside,named⟩

def fineract : Envelope.Contract where
  topicPrefix := "fineract.cdc"
  tables := tables.map (fun t => (typed t).sink)
  names := by
    intro table inside
    obtain ⟨t,_,rfl⟩ := List.mem_map.mp inside
    cases t <;> decide

def topic (t : Table) : String := "fineract.cdc" ++ "." ++ (typed t).tableName

/-- Every table is found by its topic. -/
theorem tableForTopic_topic (t : Table) : fineract.tableForTopic (topic t) = some (typed t).sink := by
  have distinct : (fineract.tables.map (·.tableName)).Nodup := by decide
  have inside : (typed t).sink ∈ fineract.tables := List.mem_map_of_mem (by cases t <;> decide)
  have same (table : Envelope.TableContract) :
      topic t = fineract.topicPrefix ++ "." ++ table.tableName ↔ table.tableName = (typed t).sink.tableName := by
    simp only [topic,fineract,String.append_right_inj,TypedTable.sink]
    exact eq_comm
  simp only [Envelope.Contract.tableForTopic,same]
  exact (Keyed.find_iff distinct).mpr ⟨inside,rfl⟩

def TypedTable.withheld (t : TypedTable) (excludePii : Bool) : List String :=
  if excludePii then (t.columns.filter (·.pii)).map (·.name) else []

/-- The columns of the source table that the connector captures, as in `build_connector_config`. -/
def TypedTable.includeList (t : TypedTable) (excludePii : Bool) : List String :=
  (t.columns.filter (fun c => !c.synthetic && !(excludePii && c.pii))).flatMap (·.candidates)

/-- What the tables of the contract have in common: the types, a key that is always shown, and
    personal columns that need no quotes and that no other column is read from. -/
structure Sound (t : TypedTable) : Prop where
  types : ∀ c ∈ t.columns, c.type ∈ ["bigint","integer","smallint","text","boolean","date","timestamptz","numeric(19,6)"]
  units : ∀ c ∈ t.columns, c.cdcUnit = "micros" ∨ c.cdcUnit = "millis"
  key : ∀ c ∈ t.columns, c.name = t.primaryKey → c.synthetic = false ∧ c.pii = false
  names : ∀ c ∈ t.columns, c.pii = true →
    c.name.toList ≠ [] ∧ c.name.toList.all (fun ch => ArrayText.Bare ch) = true ∧ ArrayText.isNull c.name.toList = false
  personal : ∀ c ∈ t.columns, c.pii = true → c.synthetic = false ∧ ∀ name ∈ c.candidates, name ∉ t.includeList true

theorem sound (t : Table) : Sound (typed t) := by
  cases t <;> exact ⟨by decide +kernel,by decide +kernel,by decide +kernel,by decide +kernel,by decide +kernel⟩

end FineractBi.FineractTables
