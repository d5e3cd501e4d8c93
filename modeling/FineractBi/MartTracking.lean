import FineractBi.MartRuns

/-!
What the change log says about a committed call for the marts: the fact rows stay
within reach of their loans' entries, a changed office is logged for its whole
source, and a changed flow is reported for its loan.
-/
namespace FineractBi.MartTracking
open Calendar FineractBi.Contract FineractBi.ApplyBatch FineractBi.Staging FineractBi.LoanSnapshot
open FineractBi.FactBuild FineractBi.ChangeTracking FineractBi.FactIncremental FineractBi.ParMart
open FineractBi.PortfolioHealth FineractBi.MartRefresh FineractBi.MartRuns
open FineractBi.RepaymentMart (RepaymentTransaction stagedTransactions dimension dimOffice dimProduct)

/-- The loan is live and disbursed by the date. -/
def DisbursedBy (raw : RawTables) (l : Key) (d : Date) : Prop :=
  ∃ loan disbursed, (loans raw).get l = some loan ∧ loan.disbursedonDate = some disbursed ∧ disbursed ≤ d

/-- The log names the loan from the date on. -/
def NamedBy (log : List LogEntry) (l : Key) (d : Date) : Prop := ∃ c ∈ log, NamesLoan l c ∧ c.minAffectedDate ≤ d

/-- The log has an entry for all the loans of a source. -/
def WholeSource (log : List LogEntry) (source : String) : Prop :=
  ∃ c ∈ log, (c.entity = .global ∨ c.entity = .source) ∧ c.sourceId = source

section Reports
variable {raw raw' : RawTables} {log log' : List LogEntry} {l : Key} {d : Date}

theorem NamedBy.mono (sub : log ⊆ log') (named : NamedBy log l d) : NamedBy log' l d := by
  obtain ⟨c,member,rest⟩ := named
  exact ⟨c,sub member,rest⟩

theorem WholeSource.mono {source : String} (sub : log ⊆ log') (whole : WholeSource log source) : WholeSource log' source := by
  obtain ⟨c,member,rest⟩ := whole
  exact ⟨c,sub member,rest⟩

theorem DisbursedBy.loaned (disbursed : DisbursedBy raw l d) : ((loans raw).get l).isSome := by
  obtain ⟨loan,_,found,_⟩ := disbursed
  exact Option.isSome_iff_exists.mpr ⟨loan,found⟩

/-- An entry for the source reports its disbursed loans. -/
theorem WholeSource.reports (whole : WholeSource log l.sourceId) (loaned : ((loans raw).get l).isSome) :
    Reported raw log l d := by
  obtain ⟨loan,found⟩ := Option.isSome_iff_exists.mp loaned
  obtain ⟨c,member,reaches⟩ := whole
  exact .inr ⟨loan,found,c,member,.inr reaches⟩

/-- A report stays with a loan that stays. -/
theorem Reported.stays (reported : Reported raw log l d) (same : (loans raw).get l = (loans raw').get l) :
    Reported raw' (log ++ log') l d := by
  refine reported_mono (fun _ => List.mem_append_left _) ?_
  rwa [Reported,← same]

/-- A disbursed loan stays disbursed or is named. -/
theorem DisbursedBy.stays (disbursed : DisbursedBy raw l d)
    (reach : ∀ loan disbursed, (loans raw).get l = some loan → loan.disbursedonDate = some disbursed →
      StaysInReach raw' log' l loan disbursed) : NamedBy log' l d ∨ DisbursedBy raw' l d := by
  obtain ⟨loan,disbursed,found,dated,le⟩ := disbursed
  rcases reach loan disbursed found dated with ⟨c,member,named,before⟩ | ⟨loan',disbursed',found',dated',before,_⟩
  · exact .inl ⟨c,member,named,before.trans le⟩
  · exact .inr ⟨loan',disbursed',found',dated',before.trans le⟩

end Reports

/-- Office, product and currency of a live loan with a live client. -/
def loanPartition (raw : RawTables) (l : Key) : Option (Option Int × Option Int × Option String) := do
  let loan ← (stgMLoan raw).get l
  let clientId ← loan.clientId
  let client ← (stgMClient raw).get (refer l clientId)
  return (client.officeId,loan.productId,loan.currencyCode)

theorem dimension_partition {h : Hashes} {raw : RawTables} {l : Key} :
    (dimension h raw l).map (fun d => (d.officeId,d.productId,d.currencyCode)) = loanPartition raw l := by
  simp only [dimension,loanPartition,Option.bind_eq_bind]
  cases (stgMLoan raw).get l with
  | none => rfl
  | some loan =>
    simp only [Option.bind_some]
    cases loan.clientId with
    | none => rfl
    | some id =>
      simp only [Option.bind_some]
      cases (stgMClient raw).get (refer l id) <;> rfl

/-- A transaction of the loan that the flows of the date count. -/
def Counted (raw : RawTables) (l : Key) (d : Date) (t : Posted) : Prop :=
  (stagedTransactions raw).get t.1 = some t.2 ∧ OfLoan l t.1 t.2.loanId ∧ t.2.isReversed = some false ∧
    t.2.transactionDate = some d

/-- A transaction in the flows of a partition. -/
def FlowsAt (raw : RawTables) (l : Key) (d : Date) (partition : Option Int × Option Int × Option String) (t : Posted) : Prop :=
  loanPartition raw l = some partition ∧ Counted raw l d t

/-- The flows of the loan on the date differ. -/
def FlowsDiffer (raw raw' : RawTables) (l : Key) (d : Date) : Prop :=
  ∃ partition t, ¬(FlowsAt raw l d partition t ↔ FlowsAt raw' l d partition t)

/-- The tables that the flows read. -/
def flowTables : List Table := [.mLoan,.mClient,.mLoanTransaction]

/-- `m_loan_transaction` as the flows read it. -/
def postedTable : LoanTable RepaymentTransaction where
  t := mLoanTransactionContract
  read := RepaymentTransaction.read
  loanOf := fun _ t => t.loanId
  dateOf := (·.transactionDate)
  date := "transaction_date"
  entity := transactionTable.entity
  dated := transactionTable.dated
  history := by
    intro k cols cols' same
    simp [mLoanTransactionContract,columnOf] at same
    simp [RepaymentTransaction.read,Transaction.read,same]
  loan_read := transactionTable.loan_read
  date_read := transactionTable.date_read

section Flows
variable {raw raw' raw'' : RawTables} {after : RawTable} {log : List LogEntry} {today d : Date} {l : Key}

theorem loanPartition_sameSource (same : SameSource flowTables raw raw' l.sourceId) :
    loanPartition raw l = loanPartition raw' l := by
  have loan_eq : (stgMLoan raw).get l = (stgMLoan raw').get l := same.staged (by decide) rfl
  have client_eq : ∀ id, (stgMClient raw).get (refer l id) = (stgMClient raw').get (refer l id) :=
    fun _ => same.staged (by decide) rfl
  simp only [loanPartition,loan_eq,client_eq]

theorem counted_sameSource {t : Posted} (same : SameSource flowTables raw raw' l.sourceId) :
    Counted raw l d t ↔ Counted raw' l d t := by
  refine and_congr_left (fun rest => ?_)
  rw [stagedTransactions,stagedTransactions,same.staged (by decide) rest.1.1]

/-- The flows of a loan are made of the rows of its source. -/
theorem not_differ (same : SameSource flowTables raw raw' l.sourceId) : ¬FlowsDiffer raw raw' l d := by
  rintro ⟨partition,t,differ⟩
  exact differ (by rw [FlowsAt,FlowsAt,loanPartition_sameSource same,counted_sameSource same])

/-- Flows that differ after a step differed before it, or the step changed them. -/
theorem FlowsDiffer.before (differ : FlowsDiffer raw raw'' l d) : FlowsDiffer raw raw' l d ∨ FlowsDiffer raw' raw'' l d := by
  obtain ⟨partition,t,differ⟩ := differ
  by_cases same : FlowsAt raw l d partition t ↔ FlowsAt raw' l d partition t
  · exact .inr ⟨partition,t,fun later => differ (same.trans later)⟩
  · exact .inl ⟨partition,t,same⟩

theorem update_other {t : Table} {tables : List Table} {source : String} (unread : t ∉ tables) :
    SameSource tables raw (Function.update raw t after) source := by
  intro u member k _
  rw [Function.update_of_ne]
  rintro rfl
  exact unread member

/-- A table that is replaced for one source leaves the rows of the others. -/
theorem replaced_other {t : Table} {tables : List Table} {source other : String}
    (others : ∀ k : Key, k.sourceId ≠ source → after.get k = (raw t).get k) (apart : other ≠ source) :
    SameSource tables raw (Function.update raw t after) other := by
  intro u _ k own
  by_cases same : u = t
  · subst same
    rw [Function.update_self,others k (own ▸ apart)]
  · rw [Function.update_of_ne same]

/-- A live transaction of the loan that changes is logged under it, from its date on. -/
theorem transaction_flows (logs : Logs mLoanTransactionContract today (raw .mLoanTransaction) after log)
    (kept : KeepsLoan mLoanTransactionContract (raw .mLoanTransaction) after)
    (differ : FlowsDiffer raw (Function.update raw .mLoanTransaction after) l d) : NamedBy log l d := by
  obtain ⟨partition,t,differ⟩ := differ
  have differs : (staged (raw .mLoanTransaction) RepaymentTransaction.read).get t.1 ≠
      (staged after RepaymentTransaction.read).get t.1 := by
    intro same
    exact differ (and_congr Iff.rfl (and_congr_left (fun _ => same ▸ Iff.rfl)))
  have seen : Counted raw l d t ∨ Counted (Function.update raw .mLoanTransaction after) l d t := by
    by_contra neither
    rw [not_or] at neither
    exact differ (iff_of_false (fun flows => neither.1 flows.2) (fun flows => neither.2 flows.2))
  rcases seen with ⟨found,own,_,dated⟩ | ⟨found,own,_,dated⟩
  · exact row_logged (v := postedTable) logs kept differs (.inl found) own dated
  · exact row_logged (v := postedTable) logs kept differs (.inr found) own dated

/-- The flows of a loan change with its own row. -/
theorem loan_differs (differ : FlowsDiffer raw (Function.update raw .mLoan after) l d) :
    (stgMLoan raw).get l ≠ (stgMLoan (Function.update raw .mLoan after)).get l := by
  intro same
  obtain ⟨partition,t,differ⟩ := differ
  have partitions : loanPartition raw l = loanPartition (Function.update raw .mLoan after) l := by
    simp only [loanPartition,same]
    rfl
  exact differ (by rw [FlowsAt,FlowsAt,partitions]; rfl)

/-- The loan is live and has no disbursement date. -/
def Undisbursed (raw : RawTables) (l : Key) : Prop := ∃ loan, (stgMLoan raw).get l = some loan ∧ loan.disbursedonDate = none

/-- A changed loan is logged from its disbursement on, before or after the change, and from the beginning without one. -/
theorem loan_logged (logs : Logs mLoanContract today (raw .mLoan) after log) (begun : beginningOfTime ≤ d)
    (differs : (stgMLoan raw).get l ≠ (stgMLoan (Function.update raw .mLoan after)).get l)
    (dated : DisbursedBy raw l d ∨ DisbursedBy (Function.update raw .mLoan after) l d ∨
      Undisbursed (Function.update raw .mLoan after) l) : NamedBy log l d := by
  have from_disbursement : ∀ loan disbursed, ((stgMLoan raw).get l = some loan ∨ (staged after Loan.read).get l = some loan) →
      loan.disbursedonDate = some disbursed → disbursed ≤ d → NamedBy log l d := by
    intro loan disbursed seen dated le
    obtain ⟨c,member,named,before⟩ := row_logged (v := loanTable) logs keepsLoan_loan differs seen ⟨rfl,rfl,rfl⟩ dated
    exact ⟨c,member,named,before.trans le⟩
  rcases dated with ⟨loan,disbursed,found,dated,le⟩ | ⟨loan,disbursed,found,dated,le⟩ | ⟨loan,found,undated⟩
  · exact from_disbursement loan disbursed (.inl (loans_eq_some.mp found).1) dated le
  · exact from_disbursement loan disbursed (.inr (loans_eq_some.mp found).1) dated le
  · obtain ⟨a,key,old,new,_,entry⟩ := logs l (fun same => differs (staged_congr same))
    subst key
    have changes : changed mLoanContract a = true := changed_of_staged loanTable.history old new differs
    obtain ⟨row,stored,_,rfl⟩ := staged_eq_some.mp found
    rw [Function.update_self] at stored
    obtain rfl : a.new = row := Option.some.inj (new.symm.trans stored)
    obtain ⟨c,member,of_loan,same,le⟩ := entry (a.key.sourceId,a.key.tenantId,a.key.id)
      (by simp [changeKeyOf,mLoanContract,columnOf,asInt])
    obtain ⟨source,tenant,id⟩ : c.sourceId = a.key.sourceId ∧ c.tenantId = a.key.tenantId ∧ c.entityId = a.key.id := by
      simpa using same
    have from_beginning : affectedFrom mLoanContract today a ≤ beginningOfTime := by
      have undated' : changeDateOf mLoanContract a.key a.new = none :=
        (loanTable.date_read a.key a.new.cols).symm.trans undated
      rw [affectedFrom,if_pos changes,undated']
      exact (min_le_left _ _).trans (min_le_left _ _)
    exact ⟨c,member,⟨of_loan,source,tenant,id⟩,le.trans (from_beginning.trans begun)⟩

/-- A client that moves is logged, and reaches the loan when it is disbursed. -/
theorem client_flows (logs : Logs mClientContract today (raw .mClient) after log)
    (differ : FlowsDiffer raw (Function.update raw .mClient after) l d) (loaned : ((loans raw).get l).isSome) :
    Reported (Function.update raw .mClient after) log l d := by
  obtain ⟨partition,t,differ⟩ := differ
  obtain ⟨loan,found⟩ := Option.isSome_iff_exists.mp loaned
  have at_l := (loans_eq_some.mp found).1
  have at_l' : (stgMLoan (Function.update raw .mClient after)).get l = some loan := at_l
  have moved : ∃ id, loan.clientId = some id ∧
      (stgMClient raw).get (refer l id) ≠ (staged after Client.read).get (refer l id) := by
    by_contra same
    push Not at same
    have partitions : loanPartition raw l = loanPartition (Function.update raw .mClient after) l := by
      simp only [loanPartition,at_l,at_l',Option.bind_eq_bind,Option.bind_some]
      cases owner : loan.clientId with
      | none => rfl
      | some id =>
        simp only [Option.bind_some,same id owner]
        rfl
    exact differ (by rw [FlowsAt,FlowsAt,partitions]; rfl)
  obtain ⟨id,owner,differs⟩ := moved
  obtain ⟨c,member,reaches⟩ := client_logged logs differs owner
  exact .inr ⟨loan,found,c,member,.inl reaches⟩

end Flows

section Calls
variable {raw : RawTables} {after : RawTable} {log : List LogEntry} {today d : Date} {l : Key} {table : Table}

/-- A batch of any table keeps a disbursed loan within reach. -/
theorem batch_reach (table : Table) (logs : Logs (contract table) today (raw table) after log) (loan : Loan) (disbursed : Date)
    (found : (loans raw).get l = some loan) (dated : loan.disbursedonDate = some disbursed) :
    StaysInReach (Function.update raw table after) log l loan disbursed := by
  by_cases of_loans : table = .mLoan
  · subst of_loans
    have reporting : Reporting (fun row => row) raw (Function.update raw .mLoan after) log := loan_reporting logs
    exact reporting.reach l loan disbursed found dated
  · refine .inr ⟨loan,disbursed,?_,dated,le_rfl,.inl rfl⟩
    rwa [loans,stgMLoan,Function.update_of_ne (Ne.symm of_loans)]

/-- A batch moves no transaction to another loan; a loan whose row changes, with flows that differ from those of
    `base`, is disbursed by their dates before or after, or has no disbursement date after; and a loan whose flows
    change with its client is disbursed. -/
structure KeepsFlows (start : Date) (table : Table) (base raw raw' : RawTables) : Prop where
  transactions : table = .mLoanTransaction → KeepsLoan (contract table) (raw table) (raw' table)
  loans : table = .mLoan → ∀ l d, start ≤ d → (stgMLoan raw).get l ≠ (stgMLoan raw').get l → FlowsDiffer base raw' l d →
    DisbursedBy raw l d ∨ DisbursedBy raw' l d ∨ Undisbursed raw' l
  clients : table = .mClient → ∀ l d, start ≤ d → FlowsDiffer raw raw' l d → ((FactBuild.loans raw).get l).isSome

variable {base : RawTables} {start : Date}

/-- A batch reports the flows that it changes. -/
theorem batch_flows (table : Table) (logs : Logs (contract table) today (raw table) after log)
    (keeps : KeepsFlows start table base raw (Function.update raw table after)) (begun : start ≤ d) (first : beginningOfTime ≤ d)
    (since : FlowsDiffer base (Function.update raw table after) l d)
    (differ : FlowsDiffer raw (Function.update raw table after) l d) :
    Reported (Function.update raw table after) log l d := by
  by_cases of_transactions : table = .mLoanTransaction
  · subst of_transactions
    have kept := keeps.transactions rfl
    rw [Function.update_self] at kept
    exact .inl (transaction_flows logs kept differ)
  · by_cases of_loans : table = .mLoan
    · subst of_loans
      have differs := loan_differs differ
      exact .inl (loan_logged logs first differs (keeps.loans rfl l d begun differs since))
    · by_cases of_clients : table = .mClient
      · subst of_clients
        exact client_flows logs differ (keeps.clients rfl l d begun differ)
      · refine absurd differ (not_differ (update_other ?_))
        simp [flowTables,of_transactions,of_loans,of_clients]

/-- A batch leaves the reports of the flows that differ. -/
theorem batch_keeps {earlier : List LogEntry} (table : Table) (logs : Logs (contract table) today (raw table) after log)
    (keeps : KeepsFlows start table base raw (Function.update raw table after)) (begun : start ≤ d) (first : beginningOfTime ≤ d)
    (since : FlowsDiffer base (Function.update raw table after) l d) (reported : Reported raw earlier l d) :
    Reported (Function.update raw table after) (earlier ++ log) l d := by
  by_cases same : (stgMLoan raw).get l = (stgMLoan (Function.update raw table after)).get l
  · refine Reported.stays reported ?_
    rw [FactBuild.loans,FactBuild.loans,Relation.filterMap_get,Relation.filterMap_get,same]
  · by_cases of_loans : table = .mLoan
    · subst of_loans
      have named := loan_logged logs first same (keeps.loans rfl l d begun same since)
      exact .inl (named.mono (List.subset_append_right _ _))
    · rw [stgMLoan,stgMLoan,Function.update_of_ne (Ne.symm of_loans)] at same
      exact absurd rfl same

/-- A changed office is logged for its source. -/
theorem batch_offices {k : Key} (table : Table) (logs : Logs (contract table) today (raw table) after log)
    (differs : (dimOffice raw).get k ≠ (dimOffice (Function.update raw table after)).get k) : WholeSource log k.sourceId := by
  by_cases of_offices : table = .mOffice
  · subst of_offices
    rw [dimOffice,dimOffice,Function.update_self] at differs
    obtain ⟨a,key,_,_,_,entry⟩ := logs k (fun same => differs (staged_congr same))
    obtain ⟨c,member,whole,source⟩ := entry
    exact ⟨c,member,.inl whole,by rw [source,key]⟩
  · rw [dimOffice,dimOffice,Function.update_of_ne (Ne.symm of_offices)] at differs
    exact absurd rfl differs

end Calls

end FineractBi.MartTracking
