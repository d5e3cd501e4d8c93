import FineractBi.MartTracking
import FineractBi.RepaymentRefresh

/-!
What the change log says about a committed call for `mart_repayment_behavior`: an
entry that the mart counts before or after the call, and not both, is reported by
its date when the call keeps to what the log can follow.
-/
namespace FineractBi.RepaymentTracking
open Calendar FineractBi.Contract FineractBi.ApplyBatch FineractBi.Staging FineractBi.LoanSnapshot
open FineractBi.FactBuild FineractBi.ChangeTracking FineractBi.FactIncremental FineractBi.MartTracking
open FineractBi.RepaymentMart FineractBi.RepaymentRefresh

/-- The installment without the two amounts that are not history columns. -/
def withoutPaid (s : DueInstallment) : DueInstallment := { s with totalPaidInAdvanceDerived := 0, totalPaidLateDerived := 0 }

/-- `m_loan_repayment_schedule` as the mart reads it, without these amounts. -/
def dueTable : LoanTable DueInstallment where
  t := mLoanRepaymentScheduleContract
  read := fun cols => withoutPaid (DueInstallment.read cols)
  loanOf := fun _ s => s.loanId
  dateOf := (·.duedate)
  date := "duedate"
  entity := scheduleTable.entity
  dated := scheduleTable.dated
  history := by
    intro k cols cols' same
    simp [mLoanRepaymentScheduleContract,columnOf] at same
    simp [withoutPaid,DueInstallment.read,Installment.read,same]
  loan_read := scheduleTable.loan_read
  date_read := scheduleTable.date_read

/-- The mart counts the entry of one of the tables and not of the other. -/
def Differs (h : Hashes) (raw raw' : RawTables) (e : Entry) : Prop := ¬(Counts h raw e ↔ Counts h raw' e)

/-- The tables that the entries are made of. -/
def entryTables : List Table := [.mLoan,.mClient,.mLoanTransaction,.mLoanRepaymentSchedule]

section Entries
variable {h : Hashes} {raw raw' raw'' : RawTables} {e : Entry} {l : Key} {d : Date}

theorem counts_partition (counts : Counts h raw e) :
    loanPartition raw e.dimension.loan = some (e.dimension.officeId,e.dimension.productId,e.dimension.currencyCode) := by
  rw [← dimension_partition (h := h),counts.2]
  rfl

private theorem dimension_congr (loan_eq : (stgMLoan raw).get l = (stgMLoan raw').get l)
    (client_eq : ∀ id, (stgMClient raw).get (refer l id) = (stgMClient raw').get (refer l id)) :
    dimension h raw l = dimension h raw' l := by
  simp only [dimension,loan_eq,client_eq]

/-- The entries of a loan are made of the rows of its source. -/
theorem counts_sameSource (same : SameSource entryTables raw raw' e.dimension.loan.sourceId) :
    Counts h raw e ↔ Counts h raw' e := by
  have dims : dimension h raw e.dimension.loan = dimension h raw' e.dimension.loan :=
    dimension_congr (same.staged (by decide) rfl) (fun _ => same.staged (by decide) rfl)
  rw [Counts,Counts,dims]
  refine and_congr_left (fun _ => ?_)
  cases e with
  | posted r =>
    refine and_congr_left (fun rest => ?_)
    rw [stagedTransactions,stagedTransactions,same.staged (by decide) rest.1.1]
  | due r =>
    refine and_congr_left (fun own => ?_)
    rw [stagedInstallments,stagedInstallments,same.staged (by decide) own.1]

/-- An entry that differs after a step differed before it, or the step changed it. -/
theorem Differs.before (differs : Differs h raw raw'' e) : Differs h raw raw' e ∨ Differs h raw' raw'' e := by
  by_cases same : Counts h raw e ↔ Counts h raw' e
  · exact .inr (fun later => differs (same.trans later))
  · exact .inl same

end Entries

/-- The loan is stored before with a disbursement date not after `d`, or after with no later one, or the call is made
    not after `d`. -/
def LoanBegun (today : Date) (raw raw' : RawTables) (l : Key) (d : Date) : Prop :=
  (∃ row x, (raw .mLoan).get l = some row ∧ asDate (row.cols "disbursedon_date") = some x ∧ x ≤ d) ∨
  (∃ row, (raw' .mLoan).get l = some row ∧ ∀ x, asDate (row.cols "disbursedon_date") = some x → x ≤ d) ∨ today ≤ d

/-- What the log can follow of a batch, for an entry of the date. The batch moves neither the transaction nor the
    installment to another loan; an installment of which it changes only the paid amounts is not due before the batch;
    a loan that it changes has begun; and the loan is disbursed when the batch moves its client. -/
def KeepsEntry (h : Hashes) (today : Date) (table : Table) (raw raw' : RawTables) (e : Entry) (d : Date) : Prop :=
  match table with
  | .mLoanTransaction => Counts h raw e → ∀ r t, e = .posted r → (stagedTransactions raw').get r.1.1 = some t →
      t.loanId = r.1.2.loanId
  | .mLoanRepaymentSchedule => Differs h raw raw' e → ∀ r s', e = .due r → (stagedInstallments raw').get r.1.1 = some s' →
      (Counts h raw e → s'.loanId = r.1.2.loanId) ∧
      ∀ s, (stagedInstallments raw).get r.1.1 = some s → s ≠ s' → withoutPaid s = withoutPaid s' → today ≤ d
  | .mLoan => (stgMLoan raw).get e.dimension.loan ≠ (stgMLoan raw').get e.dimension.loan →
      LoanBegun today raw raw' e.dimension.loan d
  | .mClient => Differs h raw raw' e → ((loans raw).get e.dimension.loan).isSome
  | _ => True

section Calls
variable {h : Hashes} {raw : RawTables} {after : RawTable} {log : List LogEntry} {today d : Date} {l : Key} {e : Entry}

/-- A transaction that the mart counts before or after a batch, and not both, is logged under its loan. -/
theorem transaction_entry (logs : Logs mLoanTransactionContract today (raw .mLoanTransaction) after log)
    (keeps : KeepsEntry h today .mLoanTransaction raw (Function.update raw .mLoanTransaction after) e d)
    (dated : e.key.reportingDate = some d) (differs : Differs h raw (Function.update raw .mLoanTransaction after) e) :
    NamedBy log e.dimension.loan d := by
  have dims : dimension h raw e.dimension.loan = dimension h (Function.update raw .mLoanTransaction after) e.dimension.loan :=
    dimension_congr rfl (fun _ => rfl)
  cases e with
  | due r => exact absurd (and_congr Iff.rfl (by rw [dims])) differs
  | posted r =>
    have changed : (staged (raw .mLoanTransaction) RepaymentTransaction.read).get r.1.1 ≠
        (staged after RepaymentTransaction.read).get r.1.1 := by
      intro same
      exact differs (and_congr (and_congr_left (fun _ => same ▸ Iff.rfl)) (by rw [dims]))
    by_cases counts : Counts h raw (.posted r)
    · refine row_logged_before (v := postedTable) logs ?_ changed counts.1.1 counts.1.2.1 dated
      intro _ new _ stored _ live _
      have after_row : (staged after RepaymentTransaction.read).get r.1.1 = some (RepaymentTransaction.read new.cols) :=
        staged_eq_some.mpr ⟨new,stored,live,rfl⟩
      exact (postedTable.loan_read r.1.1 new.cols).symm.trans ((keeps counts r _ rfl after_row).trans counts.1.2.1.2.2)
    · have counts' : Counts h (Function.update raw .mLoanTransaction after) (.posted r) := by
        by_contra neither
        exact differs (iff_of_false counts neither)
      exact row_logged_after (v := postedTable) logs changed counts'.1.1 counts'.1.2.1 dated

private theorem staged_withoutPaid (raw : RawTable) (k : Key) :
    (staged raw dueTable.read).get k = ((staged raw DueInstallment.read).get k).map withoutPaid := by
  simp only [staged,Relation.filterMap_get]
  cases raw.get k with
  | none => rfl
  | some row =>
    simp only [Option.bind_some]
    split <;> rfl

/-- An installment that the mart counts before or after a batch, and not both, is logged under its loan. -/
theorem installment_entry (logs : Logs mLoanRepaymentScheduleContract today (raw .mLoanRepaymentSchedule) after log)
    (keeps : KeepsEntry h today .mLoanRepaymentSchedule raw (Function.update raw .mLoanRepaymentSchedule after) e d)
    (dated : e.key.reportingDate = some d) (differs : Differs h raw (Function.update raw .mLoanRepaymentSchedule after) e) :
    NamedBy log e.dimension.loan d := by
  have dims : dimension h raw e.dimension.loan =
      dimension h (Function.update raw .mLoanRepaymentSchedule after) e.dimension.loan := dimension_congr rfl (fun _ => rfl)
  cases e with
  | posted r => exact absurd (and_congr Iff.rfl (by rw [dims])) differs
  | due r =>
    have changed : (staged (raw .mLoanRepaymentSchedule) DueInstallment.read).get r.1.1 ≠
        (staged after DueInstallment.read).get r.1.1 := by
      intro same
      exact differs (and_congr (and_congr_left (fun _ => same ▸ Iff.rfl)) (by rw [dims]))
    by_cases unpaid : (staged (raw .mLoanRepaymentSchedule) dueTable.read).get r.1.1 = (staged after dueTable.read).get r.1.1
    · -- only the paid amounts change, so that the loan is logged from the day of the batch on
      rw [staged_withoutPaid,staged_withoutPaid] at unpaid
      obtain ⟨s,before⟩ : ∃ s, (staged (raw .mLoanRepaymentSchedule) DueInstallment.read).get r.1.1 = some s := by
        refine Option.ne_none_iff_exists'.mp (fun absent => changed ?_)
        rw [absent] at unpaid
        rw [absent,Option.map_eq_none_iff.mp unpaid.symm]
      obtain ⟨s',after_row,same⟩ := Option.map_eq_some_iff.mp ((unpaid.symm.trans (congrArg (Option.map withoutPaid) before)))
      rw [before,after_row] at changed
      have own : OfLoan r.2.loan r.1.1 s'.loanId := by
        have loan_same : (withoutPaid s').loanId = (withoutPaid s).loanId := by rw [same]
        by_cases counts : Counts h raw (.due r)
        · obtain rfl := Option.some.inj (counts.1.1.symm.trans before)
          exact ⟨counts.1.2.1,counts.1.2.2.1,loan_same.trans counts.1.2.2.2⟩
        · have counts' : Counts h (Function.update raw .mLoanRepaymentSchedule after) (.due r) := by
            by_contra neither
            exact differs (iff_of_false counts neither)
          obtain rfl := Option.some.inj (counts'.1.1.symm.trans after_row)
          exact counts'.1.2
      have before_due : today ≤ d := (keeps differs r s' rfl after_row).2 s before (fun equal => changed (congrArg some equal)) same.symm
      have unpaid_row : (staged after dueTable.read).get r.1.1 = some (withoutPaid s') := by
        rw [staged_withoutPaid,after_row]
        rfl
      have written : after.get r.1.1 ≠ (raw .mLoanRepaymentSchedule).get r.1.1 :=
        fun untouched => changed (before.symm.trans ((staged_congr untouched).trans after_row))
      obtain ⟨c,member,named,le⟩ := row_logged_today (v := dueTable) logs written unpaid_row own
      exact ⟨c,member,named,le.trans before_due⟩
    · by_cases counts : Counts h raw (.due r)
      · have before : (staged (raw .mLoanRepaymentSchedule) dueTable.read).get r.1.1 = some (withoutPaid r.1.2) := by
          rw [staged_withoutPaid]
          exact congrArg (Option.map withoutPaid) counts.1.1
        refine row_logged_before (v := dueTable) logs ?_ unpaid before counts.1.2 dated
        intro _ new _ stored _ live _
        have after_row : (staged after DueInstallment.read).get r.1.1 = some (DueInstallment.read new.cols) :=
          staged_eq_some.mpr ⟨new,stored,live,rfl⟩
        exact (dueTable.loan_read r.1.1 new.cols).symm.trans (((keeps differs r _ rfl after_row).1 counts).trans counts.1.2.2.2)
      · have counts' : Counts h (Function.update raw .mLoanRepaymentSchedule after) (.due r) := by
          by_contra neither
          exact differs (iff_of_false counts neither)
        have after_row : (staged after dueTable.read).get r.1.1 = some (withoutPaid r.1.2) := by
          rw [staged_withoutPaid]
          exact congrArg (Option.map withoutPaid) counts'.1.1
        exact row_logged_after (v := dueTable) logs unpaid after_row counts'.1.2 dated

/-- A changed loan that has begun is logged from the date on. -/
theorem loan_named (logs : Logs mLoanContract today (raw .mLoan) after log) (first : beginningOfTime ≤ d)
    (differs : (stgMLoan raw).get l ≠ (stgMLoan (Function.update raw .mLoan after)).get l)
    (begun : LoanBegun today raw (Function.update raw .mLoan after) l d) : NamedBy log l d := by
  obtain ⟨a,rfl,old,new,_,entry⟩ := logs l (fun same => differs (staged_congr same))
  have changes : changed mLoanContract a = true := changed_of_staged loanTable.history old new differs
  have named : asInt (columnOf mLoanContract a.key a.new.cols mLoanContract.changeKey) = some a.key.id := by
    simp [mLoanContract,columnOf,asInt]
  have date_of (row : RawRow) : changeDateOf mLoanContract a.key row = asDate (row.cols "disbursedon_date") := by
    simp [changeDateOf,mLoanContract,columnOf]
  obtain ⟨c,member,names,le⟩ := entry_of_loan (v := loanTable) entry rfl rfl named
  refine ⟨c,member,names,le.trans ?_⟩
  show affectedFrom mLoanContract today a ≤ d
  rw [affectedFrom,if_pos changes,date_of]
  rcases begun with ⟨row,x,stored,dated,early⟩ | ⟨row,stored,early⟩ | now
  · refine (min_le_left _ _).trans ((min_le_right _ _).trans ?_)
    rw [old,stored,Option.bind_some,date_of,dated]
    exact early
  · rw [Function.update_self] at stored
    obtain rfl : a.new = row := Option.some.inj (new.symm.trans stored)
    refine (min_le_left _ _).trans ((min_le_left _ _).trans ?_)
    cases dated : asDate (a.new.cols "disbursedon_date") with
    | none => exact first
    | some x => exact early x dated
  · exact (min_le_right _ _).trans now

/-- A batch of clients reports the entries that it changes, of disbursed loans. -/
theorem client_entry (logs : Logs mClientContract today (raw .mClient) after log)
    (differs : Differs h raw (Function.update raw .mClient after) e) (loaned : ((loans raw).get e.dimension.loan).isSome) :
    Reported (Function.update raw .mClient after) log e.dimension.loan d := by
  obtain ⟨loan,found⟩ := Option.isSome_iff_exists.mp loaned
  have at_l := (loans_eq_some.mp found).1
  have moved : ∃ id, loan.clientId = some id ∧
      (stgMClient raw).get (refer e.dimension.loan id) ≠ (staged after Client.read).get (refer e.dimension.loan id) := by
    by_contra same
    push Not at same
    have at_l' : (stgMLoan (Function.update raw .mClient after)).get e.dimension.loan = some loan := at_l
    have dims : dimension h raw e.dimension.loan = dimension h (Function.update raw .mClient after) e.dimension.loan := by
      simp only [dimension,at_l,at_l',Option.bind_eq_bind,Option.bind_some]
      cases owner : loan.clientId with
      | none => rfl
      | some id =>
        simp only [Option.bind_some,same id owner]
        rfl
    refine differs (and_congr ?_ (by rw [dims]))
    cases e <;> exact Iff.rfl
  obtain ⟨id,owner,changed⟩ := moved
  obtain ⟨c,member,reaches⟩ := client_logged logs changed owner
  exact .inr ⟨loan,found,c,member,.inl reaches⟩

/-- An entry changes with a batch of loans only if its loan does. -/
theorem loan_changed (differs : Differs h raw (Function.update raw .mLoan after) e) :
    (stgMLoan raw).get e.dimension.loan ≠ (stgMLoan (Function.update raw .mLoan after)).get e.dimension.loan := by
  intro same
  refine differs (and_congr ?_ (by rw [dimension_congr same (fun _ => rfl)]))
  cases e <;> exact Iff.rfl

/-- A batch reports the entries that it changes. -/
theorem batch_entry (table : Table) (logs : Logs (contract table) today (raw table) after log)
    (keeps : KeepsEntry h today table raw (Function.update raw table after) e d) (dated : e.key.reportingDate = some d)
    (first : beginningOfTime ≤ d) (differs : Differs h raw (Function.update raw table after) e) :
    Reported (Function.update raw table after) log e.dimension.loan d := by
  by_cases of_transactions : table = .mLoanTransaction
  · subst of_transactions
    exact .inl (transaction_entry logs keeps dated differs)
  · by_cases of_installments : table = .mLoanRepaymentSchedule
    · subst of_installments
      exact .inl (installment_entry logs keeps dated differs)
    · by_cases of_loans : table = .mLoan
      · subst of_loans
        exact .inl (loan_named logs first (loan_changed differs) (keeps (loan_changed differs)))
      · by_cases of_clients : table = .mClient
        · subst of_clients
          exact client_entry logs differs (keeps differs)
        · refine absurd (counts_sameSource (update_other ?_)) differs
          simp [entryTables,of_transactions,of_installments,of_loans,of_clients]

/-- A batch leaves the reports of entries. -/
theorem batch_stays {earlier : List LogEntry} (table : Table) (logs : Logs (contract table) today (raw table) after log)
    (keeps : KeepsEntry h today table raw (Function.update raw table after) e d) (first : beginningOfTime ≤ d)
    (reported : Reported raw earlier e.dimension.loan d) :
    Reported (Function.update raw table after) (earlier ++ log) e.dimension.loan d := by
  by_cases same : (stgMLoan raw).get e.dimension.loan = (stgMLoan (Function.update raw table after)).get e.dimension.loan
  · refine Reported.stays reported ?_
    rw [loans,loans,Relation.filterMap_get,Relation.filterMap_get,same]
  · by_cases of_loans : table = .mLoan
    · subst of_loans
      exact .inl ((loan_named logs first same (keeps same)).mono (List.subset_append_right _ _))
    · rw [stgMLoan,stgMLoan,Function.update_of_ne (Ne.symm of_loans)] at same
      exact absurd rfl same

/-- A promotion reports the entries of its source that it changes, and leaves the reports of the others. -/
theorem promotion_entry {earlier : List LogEntry} {table : Table} {source : String}
    (others : ∀ k : Key, k.sourceId ≠ source → after.get k = (raw table).get k) (whole : WholeSource log source)
    (loaned : e.dimension.loan.sourceId = source →
      Differs h raw (Function.update raw table after) e ∨
        (stgMLoan raw).get e.dimension.loan ≠ (stgMLoan (Function.update raw table after)).get e.dimension.loan →
      ((loans (Function.update raw table after)).get e.dimension.loan).isSome)
    (reported : ¬Differs h raw (Function.update raw table after) e → Reported raw earlier e.dimension.loan d) :
    Reported (Function.update raw table after) (earlier ++ log) e.dimension.loan d := by
  by_cases touched : Differs h raw (Function.update raw table after) e ∨
    (stgMLoan raw).get e.dimension.loan ≠ (stgMLoan (Function.update raw table after)).get e.dimension.loan
  · by_cases own : e.dimension.loan.sourceId = source
    · subst own
      exact reported_mono (List.subset_append_right _ _) (whole.reports (loaned rfl touched))
    · have same : SameSource entryTables raw (Function.update raw table after) e.dimension.loan.sourceId :=
        replaced_other others own
      rcases touched with differs | changed
      · exact absurd (counts_sameSource same) differs
      · exact absurd (same.staged (by decide) rfl) changed
  · rw [not_or,not_not] at touched
    refine Reported.stays (reported touched.1) ?_
    rw [loans,loans,Relation.filterMap_get,Relation.filterMap_get,touched.2]

end Calls

end FineractBi.RepaymentTracking
