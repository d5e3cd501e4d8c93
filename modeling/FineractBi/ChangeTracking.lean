import FineractBi.FactBuild

/-!
What the change log says about a committed call: every loan snapshot that the
call changes is reported, either by an entry of the loan that is dated no later,
or by an entry that reaches the loan through its client or its source.
-/
namespace FineractBi.ChangeTracking
open Calendar FineractBi.Contract FineractBi.ApplyBatch FineractBi.Staging FineractBi.LoanSnapshot FineractBi.FactBuild
open FineractBi.StateMachine (Engine)
open FineractBi.Routing (ControlState)

/-- The log entry that an applied row asks for. -/
def LoggedFor (t : TableContract) (today : Date) (log : List LogEntry) (a : AppliedRow) : Prop :=
  match t.changeEntity with
  | some .loan => ∀ g, changeKeyOf t a = some g →
      ∃ c ∈ log, c.entity = .loan ∧ (c.sourceId,c.tenantId,c.entityId) = g ∧ c.minAffectedDate ≤ affectedFrom t today a
  | some .client => changed t a → ∀ g, changeKeyOf t a = some g →
      ∃ c ∈ log, c.entity = .client ∧ (c.sourceId,c.tenantId,c.entityId) = g
  | some .global => ∃ c ∈ log, c.entity = .global ∧ c.sourceId = a.key.sourceId
  | none => True

theorem logged_for {t : TableContract} {today : Date} {applied : List AppliedRow} {a : AppliedRow}
    (member : a ∈ applied) : LoggedFor t today (logged t today applied) a := by
  cases entity : t.changeEntity with
  | none =>
    simp only [LoggedFor,entity]
  | some tracked =>
    cases tracked with
    | loan =>
      simp only [LoggedFor,logged,entity]
      intro g keyed
      let dates := (applied.filter (fun a => changeKeyOf t a = some g)).map (affectedFrom t today)
      have among : affectedFrom t today a ∈ dates :=
        List.mem_map.mpr ⟨a,List.mem_filter.mpr ⟨member,by simpa using keyed⟩,rfl⟩
      obtain ⟨least,found⟩ := List.isSome_min?_of_mem among |> Option.isSome_iff_exists.mp
      refine ⟨⟨g.1,g.2.1,.loan,g.2.2,least⟩,List.mem_filterMap.mpr ⟨g,?_,?_⟩,rfl,rfl,?_⟩
      · exact List.mem_dedup.mpr (List.mem_filterMap.mpr ⟨a,member,keyed⟩)
      · exact Option.map_eq_some_iff.mpr ⟨least,found,rfl⟩
      · exact (List.min?_eq_some_iff.mp found).2 _ among
    | client =>
      simp only [LoggedFor,logged,entity]
      intro differs g keyed
      refine ⟨⟨g.1,g.2.1,.client,g.2.2,beginningOfTime⟩,List.mem_filterMap.mpr ⟨a,?_,?_⟩,rfl,rfl⟩
      · exact List.mem_filter.mpr ⟨member,differs⟩
      · simp [keyed]
    | global =>
      simp only [LoggedFor,logged,entity]
      refine ⟨⟨a.key.sourceId,a.key.tenantId,.global,0,beginningOfTime⟩,List.mem_map.mpr ⟨(a.key.sourceId,a.key.tenantId),?_,rfl⟩,
        rfl,rfl⟩
      exact List.mem_dedup.mpr (List.mem_map.mpr ⟨a,member,rfl⟩)

theorem LoggedFor.mono {t : TableContract} {today : Date} {log log' : List LogEntry} {a : AppliedRow}
    (sub : log ⊆ log') (logged : LoggedFor t today log a) : LoggedFor t today log' a := by
  unfold LoggedFor at logged ⊢
  split
  · next entity =>
    simp only [entity] at logged
    intro g keyed
    obtain ⟨c,member,rest⟩ := logged g keyed
    exact ⟨c,sub member,rest⟩
  · next entity =>
    simp only [entity] at logged
    intro differs g keyed
    obtain ⟨c,member,rest⟩ := logged differs g keyed
    exact ⟨c,sub member,rest⟩
  · next entity =>
    simp only [entity] at logged
    obtain ⟨c,member,rest⟩ := logged
    exact ⟨c,sub member,rest⟩
  · trivial

/-- A call rewrote a raw table and its log has the entry of every row that differs. -/
def Logs (t : TableContract) (today : Date) (raw raw' : RawTable) (log : List LogEntry) : Prop :=
  ∀ k, raw'.get k ≠ raw.get k → ∃ a : AppliedRow, a.key = k ∧ a.old = raw.get k ∧ raw'.get k = some a.new ∧
    (a.new.isDeleted → ∀ old, a.old = some old → a.new.cols = old.cols) ∧ LoggedFor t today log a

section Batch
variable {t : TableContract} {engine : Engine} {now : Int} {today : Date} {stage : List StagedRow} {raw : RawTable}
  {k : Key} {d : DedupRow}

theorem statement_mem {selects : DedupRow → Bool} {set : DedupRow → RawRow → RawRow} {target : String} {a : AppliedRow}
    (found : appliedAt t engine now stage target selects set raw k = some a) :
    a ∈ statement t engine now stage target selects set raw := by
  rw [← statement_find] at found
  exact List.mem_of_find?_eq_some found

/-- What one statement makes of a selected key that changes. -/
theorem appliedAt_selected {selects : DedupRow → Bool} {set : DedupRow → RawRow → RawRow} {target : String}
    (found : dedup t stage target k = some d) (selected : selects d = true)
    (same : ∀ old, set d old = setAvailable engine now d old)
    (differs : some (upsert engine now d (raw.get k)) ≠ raw.get k) :
    appliedAt t engine now stage target selects set raw k =
      some ⟨k,upsert engine now d (raw.get k),raw.get k⟩ := by
  simp only [appliedAt,found,selected,if_true]
  cases stored : raw.get k with
  | none => rfl
  | some old =>
    by_cases passes : guard engine d old
    · simp [upsert,passes,same]
    · simp [stored,upsert,passes] at differs

private theorem upsert_deleted {old : RawRow} (differs : some (upsert engine now d (some old)) ≠ some old)
    (deleted : (upsert engine now d (some old)).isDeleted) : (upsert engine now d (some old)).cols = old.cols := by
  by_cases passes : guard engine d old
  · simp only [upsert,passes,if_true,setAvailable,insertRow,decide_eq_true_eq] at deleted ⊢
    simp [deleted]
  · simp [upsert,passes] at differs

/-- A production batch logs every row it changes. -/
theorem batchLog_logs : Logs t today raw (writeBatch t engine now stage "prod" raw)
    (batchLog t engine now today stage raw) := by
  intro k differs
  rw [writeBatch_get] at differs ⊢
  cases found : dedup t stage "prod" k with
  | none => simp [found] at differs
  | some d =>
    simp only [found] at differs ⊢
    refine ⟨⟨k,upsert engine now d (raw.get k),raw.get k⟩,rfl,rfl,rfl,?_,?_⟩
    · intro deleted old stored
      simp only at stored deleted ⊢
      rw [stored] at differs deleted ⊢
      exact upsert_deleted differs deleted
    · by_cases full : d.unavailable = []
      · have member : (⟨k,upsert engine now d (raw.get k),raw.get k⟩ : AppliedRow) ∈
            applyFull t engine now stage "prod" raw :=
          statement_mem (appliedAt_selected found (by simp [full]) (fun old => setAll_eq d old full) differs)
        exact (logged_for member).mono (List.subset_append_left _ _)
      · have carried : hasUnavailable stage = true := by
          by_contra carried
          exact full (dedup_unavailable (by simpa using carried) found)
        have skipped : (store raw (applyFull t engine now stage "prod" raw)).get k = raw.get k :=
          store_statement_skipped found (by simpa using full)
        have member : (⟨k,upsert engine now d (raw.get k),raw.get k⟩ : AppliedRow) ∈
            applyPartial t engine now stage "prod" (store raw (applyFull t engine now stage "prod" raw)) := by
          rw [applyPartial,if_pos carried]
          rw [← skipped] at differs ⊢
          exact statement_mem (appliedAt_selected found (by simpa [List.length_pos_iff] using full) (fun _ => rfl) differs)
        exact (logged_for member).mono (List.subset_append_right _ _)

end Batch

theorem staged_eq_some {Row : Type} {raw : RawTable} {read : (Column → Option Value) → Row} {k : Key} {r : Row} :
    (staged raw read).get k = some r ↔ ∃ row, raw.get k = some row ∧ row.isDeleted = false ∧ read row.cols = r := by
  simp only [staged,Relation.filterMap_get,Option.bind_eq_some_iff]
  refine exists_congr (fun row => and_congr_right (fun _ => ?_))
  cases row.isDeleted <;> simp

theorem staged_congr {Row : Type} {raw raw' : RawTable} {read : (Column → Option Value) → Row} {k : Key}
    (same : raw'.get k = raw.get k) : (staged raw read).get k = (staged raw' read).get k := by
  simp only [staged,Relation.filterMap_get,same]

/-- An applied row that counts as unchanged has the deletion mark and the history columns of the old row. -/
theorem not_changed {t : TableContract} {a : AppliedRow} (unchanged : changed t a = false) :
    ∃ old, a.old = some old ∧ a.new.isDeleted = old.isDeleted ∧
      ∀ c ∈ t.changeHistoryColumns, columnOf t a.key a.new.cols c = columnOf t a.key old.cols c := by
  unfold changed at unchanged
  split at unchanged
  · cases unchanged
  · next old stored =>
    simp only [ne_eq,Bool.or_eq_false_iff,decide_eq_false_iff_not,not_not,List.any_eq_false,decide_eq_true_eq]
      at unchanged
    exact ⟨old,stored,unchanged.1.1,unchanged.2⟩

/-- A staging view whose row is a function of the history columns changes only with a changed row. -/
theorem changed_of_staged {Row : Type} {t : TableContract} {read : (Column → Option Value) → Row} {raw raw' : RawTable}
    {a : AppliedRow} (history : ∀ k cols cols', (∀ c ∈ t.changeHistoryColumns, columnOf t k cols c = columnOf t k cols' c) →
      read cols = read cols') (old : a.old = raw.get a.key) (new : raw'.get a.key = some a.new)
    (differs : (staged raw read).get a.key ≠ (staged raw' read).get a.key) : changed t a = true := by
  by_contra unchanged
  obtain ⟨row,stored,deleted,columns⟩ := not_changed (by simpa using unchanged)
  refine differs ?_
  simp only [staged,Relation.filterMap_get,← old,stored,new,Option.bind_some,deleted,history a.key _ _ columns]

/-- A table that is logged under the loan of its rows, and what its staging view reads. -/
structure LoanTable (Row : Type) where
  t : TableContract
  read : (Column → Option Value) → Row
  loanOf : Key → Row → Option Int
  dateOf : Row → Option Date
  date : Column
  entity : t.changeEntity = some .loan
  dated : t.changeDate = some date
  history : ∀ k cols cols', (∀ c ∈ t.changeHistoryColumns, columnOf t k cols c = columnOf t k cols' c) → read cols = read cols'
  loan_read : ∀ k cols, loanOf k (read cols) = asInt (columnOf t k cols t.changeKey)
  date_read : ∀ k cols, dateOf (read cols) = asDate (columnOf t k cols date)

def loanTable : LoanTable Loan where
  t := mLoanContract
  read := Loan.read
  loanOf := fun k _ => some k.id
  dateOf := (·.disbursedonDate)
  date := "disbursedon_date"
  entity := rfl
  dated := rfl
  history := by
    intro k cols cols' same
    simp [mLoanContract,columnOf] at same
    simp [Loan.read,same]
  loan_read := by simp [mLoanContract,columnOf,asInt]
  date_read := by simp [mLoanContract,columnOf,Loan.read]

def transactionTable : LoanTable Transaction where
  t := mLoanTransactionContract
  read := Transaction.read
  loanOf := fun _ t => t.loanId
  dateOf := (·.transactionDate)
  date := "transaction_date"
  entity := rfl
  dated := rfl
  history := by
    intro k cols cols' same
    simp [mLoanTransactionContract,columnOf] at same
    simp [Transaction.read,same]
  loan_read := by simp [mLoanTransactionContract,columnOf,Transaction.read]
  date_read := by simp [mLoanTransactionContract,columnOf,Transaction.read]

def scheduleTable : LoanTable Installment where
  t := mLoanRepaymentScheduleContract
  read := Installment.read
  loanOf := fun _ i => i.loanId
  dateOf := (·.duedate)
  date := "duedate"
  entity := rfl
  dated := rfl
  history := by
    intro k cols cols' same
    simp [mLoanRepaymentScheduleContract,columnOf] at same
    simp [Installment.read,same]
  loan_read := by simp [mLoanRepaymentScheduleContract,columnOf,Installment.read]
  date_read := by simp [mLoanRepaymentScheduleContract,columnOf,Installment.read]

def tagTable : LoanTable Tag where
  t := mLoanDelinquencyTagHistoryContract
  read := Tag.read
  loanOf := fun _ tag => tag.loanId
  dateOf := (·.addedonDate)
  date := "addedon_date"
  entity := rfl
  dated := rfl
  history := by
    intro k cols cols' same
    simp [mLoanDelinquencyTagHistoryContract,columnOf] at same
    simp [Tag.read,same]
  loan_read := by simp [mLoanDelinquencyTagHistoryContract,columnOf,Tag.read]
  date_read := by simp [mLoanDelinquencyTagHistoryContract,columnOf,Tag.read]

/-- No live row leaves its loan and stays live. -/
def KeepsLoan (t : TableContract) (raw raw' : RawTable) : Prop :=
  ∀ k old new, raw.get k = some old → raw'.get k = some new → old.isDeleted = false → new.isDeleted = false →
    ∀ id, asInt (columnOf t k old.cols t.changeKey) = some id → asInt (columnOf t k new.cols t.changeKey) = some id

section LoanRows
variable {Row : Type} {v : LoanTable Row} {today d x : Date} {raw raw' : RawTable} {log : List LogEntry} {k l : Key} {r : Row}

/-- The entry of an applied row, under the loan of its new row. -/
theorem entry_of_loan {a : AppliedRow} (logged : LoggedFor v.t today log a) (source : a.key.sourceId = l.sourceId)
    (tenant : a.key.tenantId = l.tenantId) (named : asInt (columnOf v.t a.key a.new.cols v.t.changeKey) = some l.id) :
    ∃ c ∈ log, NamesLoan l c ∧ c.minAffectedDate ≤ affectedFrom v.t today a := by
  simp only [LoggedFor,v.entity] at logged
  obtain ⟨c,member,loan,key,le⟩ := logged (a.key.sourceId,a.key.tenantId,l.id) (by simp [changeKeyOf,named])
  obtain ⟨source',tenant',id⟩ : c.sourceId = a.key.sourceId ∧ c.tenantId = a.key.tenantId ∧ c.entityId = l.id := by
    simpa using key
  exact ⟨c,member,⟨loan,source'.trans source,tenant'.trans tenant,id⟩,le⟩

/-- A row of a loan that appears or changes is logged under the loan, from its new date on. -/
theorem row_logged_after (logs : Logs v.t today raw raw' log) (differs : (staged raw v.read).get k ≠ (staged raw' v.read).get k)
    (after : (staged raw' v.read).get k = some r) (own : OfLoan l k (v.loanOf k r)) (dated : v.dateOf r = some x) :
    ∃ c ∈ log, NamesLoan l c ∧ c.minAffectedDate ≤ x := by
  obtain ⟨a,rfl,old,new,_,entry⟩ := logs k (fun same => differs (staged_congr same))
  have changes : changed v.t a = true := changed_of_staged v.history old new differs
  obtain ⟨row,stored,_,rfl⟩ := staged_eq_some.mp after
  obtain rfl : a.new = row := Option.some.inj (new.symm.trans stored)
  rw [v.loan_read a.key] at own
  rw [v.date_read a.key] at dated
  obtain ⟨c,member,named,le⟩ := entry_of_loan entry own.1 own.2.1 own.2.2
  refine ⟨c,member,named,le.trans ?_⟩
  simp [affectedFrom,changes,changeDateOf,v.dated,dated]

theorem affectedFrom_le_today {t : TableContract} {a : AppliedRow} : affectedFrom t today a ≤ today := by
  unfold affectedFrom
  split
  · exact min_le_right _ _
  · exact le_rfl

/-- Every row that a call writes is logged under its loan from the day of the call on, or earlier. -/
theorem row_logged_today (logs : Logs v.t today raw raw' log) (differs : raw'.get k ≠ raw.get k)
    (after : (staged raw' v.read).get k = some r) (own : OfLoan l k (v.loanOf k r)) :
    ∃ c ∈ log, NamesLoan l c ∧ c.minAffectedDate ≤ today := by
  obtain ⟨a,rfl,_,new,_,entry⟩ := logs k differs
  obtain ⟨row,stored,_,rfl⟩ := staged_eq_some.mp after
  obtain rfl : a.new = row := Option.some.inj (new.symm.trans stored)
  rw [v.loan_read a.key] at own
  obtain ⟨c,member,named,le⟩ := entry_of_loan entry own.1 own.2.1 own.2.2
  exact ⟨c,member,named,le.trans affectedFrom_le_today⟩

/-- A row of a loan that disappears or changes, and does not stay live in another loan, is logged under the loan from
    its old date on. -/
theorem row_logged_before (logs : Logs v.t today raw raw' log)
    (kept : ∀ old new, raw.get k = some old → raw'.get k = some new → old.isDeleted = false → new.isDeleted = false →
      asInt (columnOf v.t k old.cols v.t.changeKey) = some l.id → asInt (columnOf v.t k new.cols v.t.changeKey) = some l.id)
    (differs : (staged raw v.read).get k ≠ (staged raw' v.read).get k) (before : (staged raw v.read).get k = some r)
    (own : OfLoan l k (v.loanOf k r)) (dated : v.dateOf r = some x) : ∃ c ∈ log, NamesLoan l c ∧ c.minAffectedDate ≤ x := by
  obtain ⟨a,rfl,old,new,deleted,entry⟩ := logs k (fun same => differs (staged_congr same))
  have changes : changed v.t a = true := changed_of_staged v.history old new differs
  obtain ⟨row,stored,live,rfl⟩ := staged_eq_some.mp before
  rw [v.loan_read a.key] at own
  rw [v.date_read a.key] at dated
  rw [stored] at old
  have of_new : asInt (columnOf v.t a.key a.new.cols v.t.changeKey) = some l.id := by
    cases gone : a.new.isDeleted with
    | true => rw [deleted gone row old]; exact own.2.2
    | false => exact kept row a.new stored new live gone own.2.2
  obtain ⟨c,member,named,le⟩ := entry_of_loan entry own.1 own.2.1 of_new
  refine ⟨c,member,named,le.trans ?_⟩
  simp [affectedFrom,changes,old,changeDateOf,v.dated,dated]

/-- A row of a loan that appears, disappears or changes is logged under the loan, from its date on. -/
theorem row_logged (logs : Logs v.t today raw raw' log) (kept : KeepsLoan v.t raw raw')
    (differs : (staged raw v.read).get k ≠ (staged raw' v.read).get k)
    (seen : (staged raw v.read).get k = some r ∨ (staged raw' v.read).get k = some r)
    (own : OfLoan l k (v.loanOf k r)) (dated : v.dateOf r = some x) :
    ∃ c ∈ log, NamesLoan l c ∧ c.minAffectedDate ≤ x := by
  rcases seen with before | after
  · exact row_logged_before logs (fun old new stored stored' live live' => kept k old new stored stored' live live' l.id)
      differs before own dated
  · exact row_logged_after logs differs after own dated

/-- The rows of a loan dated before everything that is logged for it stay as they are. -/
theorem row_kept (logs : Logs v.t today raw raw' log) (kept : KeepsLoan v.t raw raw')
    (unnamed : ∀ c ∈ log, NamesLoan l c → d < c.minAffectedDate) (own : OfLoan l k (v.loanOf k r))
    (dated : v.dateOf r = some x) (before : x ≤ d) :
    (staged raw v.read).get k = some r ↔ (staged raw' v.read).get k = some r := by
  by_cases same : (staged raw v.read).get k = (staged raw' v.read).get k
  · rw [same]
  · have unseen : ¬((staged raw v.read).get k = some r ∨ (staged raw' v.read).get k = some r) := by
      intro seen
      obtain ⟨c,member,named,le⟩ := row_logged logs kept same seen own dated
      exact absurd (le.trans before) (not_le.mpr (unnamed c member named))
    exact ⟨fun found => absurd (.inl found) unseen,fun found => absurd (.inr found) unseen⟩

end LoanRows

/-! ### Reported snapshots -/

/-- The log reports a change of the snapshot of a loan and a date, given the raw tables at the time of the report. -/
def Reported (raw : RawTables) (log : List LogEntry) (l : Key) (d : Date) : Prop :=
  (∃ c ∈ log, NamesLoan l c ∧ c.minAffectedDate ≤ d) ∨
  ∃ loan, (loans raw).get l = some loan ∧ ∃ c ∈ log, ReachesLoan l loan c

/-- A disbursed loan stays within reach of its client and source, or is reported from its disbursement on. -/
def StaysInReach (raw' : RawTables) (log : List LogEntry) (l : Key) (loan : Loan) (disbursed : Date) : Prop :=
  (∃ c ∈ log, NamesLoan l c ∧ c.minAffectedDate ≤ disbursed) ∨
  ∃ loan' disbursed', (loans raw').get l = some loan' ∧ loan'.disbursedonDate = some disbursed' ∧
    disbursed' ≤ disbursed ∧ (loan'.clientId = loan.clientId ∨ ∃ c ∈ log, ReachesLoan l loan' c)

/-- A call that led from `raw` to `raw'` reported in `log` all it did to a view of the loan snapshots. -/
structure Reporting {View : Type} (view : FactRow → View) (raw raw' : RawTables) (log : List LogEntry) : Prop where
  snapshots : ∀ h l d, (factAt h raw l d).map view ≠ (factAt h raw' l d).map view → Reported raw' log l d
  reach : ∀ l loan disbursed, (loans raw).get l = some loan → loan.disbursedonDate = some disbursed →
    StaysInReach raw' log l loan disbursed

section Views
variable {h : Hashes} {raw raw' : RawTables} {l : Key} {d : Date}

theorem loanBase_eq_some {base : LoanBase} : loanBase raw l = some base ↔
    (stgMLoan raw).get l = some base.loan ∧ base.loan.disbursedonDate = some base.disbursedonDate ∧
    base.loan.clientId = some base.clientId ∧ (stgMClient raw).get (refer l base.clientId) = some base.client := by
  simp only [loanBase,Option.bind_eq_bind,Option.bind_eq_some_iff]
  constructor
  · rintro ⟨loan,at_l,disbursed,dated,client,owner,row,at_client,same⟩
    obtain rfl := Option.some.inj same
    exact ⟨at_l,dated,owner,at_client⟩
  · rintro ⟨at_l,dated,owner,at_client⟩
    exact ⟨_,at_l,_,dated,_,owner,_,at_client,rfl⟩

theorem loans_eq_some {loan : Loan} : (loans raw).get l = some loan ↔
    (stgMLoan raw).get l = some loan ∧ loan.disbursedonDate.isSome := by
  simp only [loans,Relation.filterMap_get,Option.bind_eq_some_iff]
  constructor
  · rintro ⟨row,at_l,kept⟩
    split at kept
    · next dated => obtain rfl := Option.some.inj kept; exact ⟨at_l,dated⟩
    · cases kept
  · rintro ⟨at_l,dated⟩
    exact ⟨loan,at_l,by simp [dated]⟩

theorem snapshotAt_eq_some {row : StatusRow} (found : snapshotAt h raw l d = some row) :
    ∃ base, loanBase raw l = some base ∧ base.disbursedonDate ≤ d ∧ ∀ matured ∈ base.loan.maturedonDate, d ≤ matured := by
  obtain ⟨base,at_l,kept⟩ := Option.bind_eq_some_iff.mp found
  split at kept
  · next inside => exact ⟨base,at_l,inside⟩
  · cases kept

theorem loans_of_base {base : LoanBase} (found : loanBase raw l = some base) : (loans raw).get l = some base.loan := by
  obtain ⟨at_l,dated,_,_⟩ := loanBase_eq_some.mp found
  exact loans_eq_some.mpr ⟨at_l,by simp [dated]⟩

theorem snapshotAt_unloaned (absent : (loans raw).get l = none) : snapshotAt h raw l d = none := by
  by_contra present
  obtain ⟨row,present⟩ := Option.ne_none_iff_exists'.mp present
  obtain ⟨base,found,_,_⟩ := snapshotAt_eq_some present
  rw [loans_of_base found] at absent
  cases absent

theorem snapshotAt_undisbursed {loan : Loan} {disbursed : Date} (found : (loans raw).get l = some loan)
    (dated : loan.disbursedonDate = some disbursed) (before : ¬disbursed ≤ d) : snapshotAt h raw l d = none := by
  by_contra present
  obtain ⟨row,present⟩ := Option.ne_none_iff_exists'.mp present
  obtain ⟨base,at_l,by_then,_⟩ := snapshotAt_eq_some present
  obtain rfl := Option.some.inj ((loans_of_base at_l).symm.trans found)
  obtain rfl := Option.some.inj ((loanBase_eq_some.mp at_l).2.1.symm.trans dated)
  exact before by_then

/-- The tables that `stg_m_delinquency` joins to a tag. -/
def joinedTables : List Table := [.mDelinquencyRange,.mDelinquencyBucketMappings,.mDelinquencyBucket]

/-- The tables that a loan snapshot reads. -/
def readTables : List Table :=
  [.mLoan,.mClient,.mLoanTransaction,.mLoanRepaymentSchedule,.mLoanDelinquencyTagHistory] ++ joinedTables

/-- The tables hold the same rows of a source. -/
def SameSource (tables : List Table) (raw raw' : RawTables) (source : String) : Prop :=
  ∀ t ∈ tables, ∀ k : Key, k.sourceId = source → (raw t).get k = (raw' t).get k

theorem SameSource.staged {Row : Type} {tables : List Table} {t : Table} {read : (Column → Option Value) → Row}
    {source : String} (same : SameSource tables raw raw' source) (member : t ∈ tables) {k : Key}
    (own : k.sourceId = source) : (staged (raw t) read).get k = (Staging.staged (raw' t) read).get k :=
  staged_congr (same t member k own).symm

private theorem mappingOf_congr {range : Key} (same : SameSource joinedTables raw raw' range.sourceId) :
    mappingOf raw range = mappingOf raw' range := by
  have rows : mappingsOf raw range = mappingsOf raw' range := by
    ext m
    simp only [mappingsOf,Finset.mem_filter,Relation.mem_rowSet,and_congr_left_iff]
    rintro ⟨source,_,_⟩
    rw [mappings,mappings,same.staged (by decide) source]
  simp only [mappingOf,rows]
  split
  · rfl
  · exact same.staged (by decide) rfl

private theorem classification_congr {k : Key} (same : SameSource joinedTables raw raw' k.sourceId) (tag : Tag) :
    classification raw k tag = classification raw' k tag := by
  have range_eq : ∀ id, (ranges raw).get (refer k id) = (ranges raw').get (refer k id) :=
    fun _ => same.staged (by decide) rfl
  have bucket_eq : ∀ id, (buckets raw).get (refer k id) = (buckets raw').get (refer k id) :=
    fun _ => same.staged (by decide) rfl
  have mapping_eq : ∀ id, mappingOf raw (refer k id) = mappingOf raw' (refer k id) := fun _ => mappingOf_congr same
  cases named : tag.delinquencyRangeId with
  | none => simp only [classification,named,Option.bind_none]
  | some id =>
    simp only [classification,named,Option.bind_some,range_eq]
    cases (ranges raw').get (refer k id) with
    | none => rfl
    | some r => simp only [Option.map_some,mapping_eq,bucket_eq]

private theorem stgMDelinquency_eq_some {k : Key} {e : DelinquencyEvent} : (stgMDelinquency raw).get k = some e ↔
    ∃ tag, (tagHistory raw).get k = some tag ∧
      ⟨tag.loanId,tag.addedonDate,tag.liftedonDate,classification raw k tag⟩ = e := by
  simp only [stgMDelinquency,Relation.filterMap_get,Option.bind_eq_some_iff,Option.some.injEq]

/-- The matches of a loan, from the tags of the loan that are in force. -/
theorem delinquencyMatches_congr (same : SameSource joinedTables raw raw' l.sourceId)
    (tags : ∀ k tag x, OfLoan l k tag.loanId → tag.addedonDate = some x → x ≤ d →
      ((tagHistory raw).get k = some tag ↔ (tagHistory raw').get k = some tag)) :
    delinquencyMatches raw l d = delinquencyMatches raw' l d := by
  ext ⟨k,e⟩
  simp only [delinquencyMatches,Finset.mem_filter,Relation.mem_rowSet,and_congr_left_iff,stgMDelinquency_eq_some]
  rintro ⟨own,force⟩
  refine exists_congr (fun tag => ?_)
  rw [classification_congr (own.1 ▸ same)]
  refine and_congr_left ?_
  rintro rfl
  cases added : tag.addedonDate with
  | none => simp [inForce,added] at force
  | some x =>
    refine tags k tag x own added ?_
    simp only [inForce,added,Bool.and_eq_true,decide_eq_true_eq] at force
    exact force.1

/-- The snapshots of a loan are made of the rows of its source. -/
theorem snapshotAt_sameSource (same : SameSource readTables raw raw' l.sourceId) :
    snapshotAt h raw l d = snapshotAt h raw' l d := by
  have base : loanBase raw l = loanBase raw' l := by
    have loan_eq : (stgMLoan raw).get l = (stgMLoan raw').get l := same.staged (by decide) rfl
    have client_eq : ∀ id, (stgMClient raw).get (refer l id) = (stgMClient raw').get (refer l id) :=
      fun _ => same.staged (by decide) rfl
    simp only [loanBase,loan_eq,client_eq]
  have transactions : scopedTransactions raw l = scopedTransactions raw' l := by
    ext t
    simp only [scopedTransactions,Finset.mem_filter,Relation.mem_rowSet,and_congr_left_iff]
    rintro ⟨⟨source,_,_⟩,_⟩
    rw [stgMLoanTransaction,stgMLoanTransaction,same.staged (by decide) source]
  have installments : installmentStatus raw l = installmentStatus raw' l := by
    ext i
    simp only [installmentStatus,Finset.mem_filter,Relation.mem_rowSet,and_congr_left_iff]
    rintro ⟨source,_,_⟩
    rw [stgMLoanRepaymentSchedule,stgMLoanRepaymentSchedule,same.staged (by decide) source]
  refine snapshotAt_congr base ⟨by simp [transactions],by simp [installments],by simp [installments]⟩
    (delinquencyMatches_congr (fun t member => same t (List.mem_append_right _ member)) ?_)
  intro k tag x own _ _
  rw [tagHistory,tagHistory,same.staged (by decide) own.1]

end Views

section Tables
variable {View : Type} {view : FactRow → View} {raw raw' : RawTables} {after : RawTable} {log : List LogEntry} {today : Date}

theorem factAt_congr {h : Hashes} {l : Key} {d : Date} (same : snapshotAt h raw l d = snapshotAt h raw' l d) :
    (factAt h raw l d).map view = (factAt h raw' l d).map view := by
  rw [factAt,factAt,same]

/-- A call that leaves `m_loan` alone has only snapshots to report. -/
theorem reporting_of_same_loans (same : raw' .mLoan = raw .mLoan)
    (quiet : ∀ h l d, (∀ c ∈ log, NamesLoan l c → d < c.minAffectedDate) →
      (∀ loan, (loans raw').get l = some loan → ∀ c ∈ log, ¬ReachesLoan l loan c) →
      (factAt h raw l d).map view = (factAt h raw' l d).map view) : Reporting view raw raw' log where
  snapshots h l d differs := by
    by_contra unreported
    simp only [Reported,not_or,not_exists,not_and] at unreported
    exact differs (quiet h l d (fun c member named => not_le.mp (unreported.1 c member named)) unreported.2)
  reach l loan disbursed found dated := by
    refine .inr ⟨loan,disbursed,?_,dated,le_rfl,.inl rfl⟩
    rwa [loans,stgMLoan,same]

theorem keepsLoan_loan : KeepsLoan mLoanContract (raw .mLoan) after := by
  intro k old new _ _ _ _ id
  simp [columnOf,mLoanContract]

theorem loan_reporting (logs : Logs mLoanContract today (raw .mLoan) after log) :
    Reporting view raw (Function.update raw .mLoan after) log where
  snapshots h l d differs := by
    have changes : (stgMLoan raw).get l ≠ (staged after Loan.read).get l := by
      intro same
      have base : loanBase raw l = loanBase (Function.update raw .mLoan after) l := by
        simp only [loanBase,same]
        rfl
      exact differs (factAt_congr (snapshotAt_congr base ⟨fun _ _ _ _ => .rfl,fun _ _ => .rfl,fun _ _ => rfl⟩ rfl))
    have seen : ∃ loan disbursed, ((stgMLoan raw).get l = some loan ∨ (staged after Loan.read).get l = some loan) ∧
        loan.disbursedonDate = some disbursed ∧ disbursed ≤ d := by
      cases before : snapshotAt h raw l d with
      | some row =>
        obtain ⟨base,found,le,_⟩ := snapshotAt_eq_some before
        obtain ⟨at_l,dated,_,_⟩ := loanBase_eq_some.mp found
        exact ⟨base.loan,base.disbursedonDate,.inl at_l,dated,le⟩
      | none =>
        have now : snapshotAt h (Function.update raw .mLoan after) l d ≠ none := by
          intro now
          exact differs (factAt_congr (before.trans now.symm))
        obtain ⟨row,now⟩ := Option.ne_none_iff_exists'.mp now
        obtain ⟨base,found,le,_⟩ := snapshotAt_eq_some now
        obtain ⟨at_l,dated,_,_⟩ := loanBase_eq_some.mp found
        exact ⟨base.loan,base.disbursedonDate,.inr at_l,dated,le⟩
    obtain ⟨loan,disbursed,found,dated,le⟩ := seen
    obtain ⟨c,member,named,before⟩ := row_logged (v := loanTable) logs keepsLoan_loan changes found ⟨rfl,rfl,rfl⟩ dated
    exact .inl ⟨c,member,named,before.trans le⟩
  reach l loan disbursed found dated := by
    obtain ⟨at_l,live⟩ := loans_eq_some.mp found
    by_cases same : (stgMLoan raw).get l = (staged after Loan.read).get l
    · refine .inr ⟨loan,disbursed,loans_eq_some.mpr ⟨?_,live⟩,dated,le_rfl,.inl rfl⟩
      exact same.symm.trans at_l
    · exact .inl (row_logged (v := loanTable) logs keepsLoan_loan same (.inl at_l) ⟨rfl,rfl,rfl⟩ dated)

/-- A changed office of a client is logged, and reaches the loans of the client. -/
theorem client_logged {l : Key} {loan : Loan} {id : Int} (logs : Logs mClientContract today (raw .mClient) after log)
    (differs : (stgMClient raw).get (refer l id) ≠ (staged after Client.read).get (refer l id)) (owner : loan.clientId = some id) :
    ∃ c ∈ log, c.entity = .client ∧ c.sourceId = l.sourceId ∧ c.tenantId = l.tenantId ∧ loan.clientId = some c.entityId := by
  obtain ⟨a,key,old,new,_,entry⟩ := logs (refer l id) (fun same => differs (staged_congr same))
  rw [← key] at differs old new
  have changes : changed mClientContract a = true := by
    refine changed_of_staged ?_ old new differs
    intro k cols cols' same
    simp [mClientContract,columnOf] at same
    simp [Client.read,same]
  obtain ⟨c,member,client,same⟩ := entry changes (a.key.sourceId,a.key.tenantId,a.key.id) (by
    simp [changeKeyOf,mClientContract,columnOf,asInt])
  simp only [key,refer,Prod.mk.injEq] at same
  exact ⟨c,member,client,same.1,same.2.1,by rw [owner,same.2.2]⟩

private theorem client_reporting (logs : Logs mClientContract today (raw .mClient) after log) :
    Reporting view raw (Function.update raw .mClient after) log := by
  refine reporting_of_same_loans rfl (fun h l d _ unreached => ?_)
  refine factAt_congr (snapshotAt_congr ?_ ⟨fun _ _ _ _ => .rfl,fun _ _ => .rfl,fun _ _ => rfl⟩ rfl)
  have client_eq : ∀ loan id, (loans raw).get l = some loan → loan.clientId = some id →
      (stgMClient raw).get (refer l id) = (staged after Client.read).get (refer l id) := by
    intro loan id found owner
    by_contra differs
    obtain ⟨c,member,reaches⟩ := client_logged logs differs owner
    exact unreached loan found c member (.inl reaches)
  cases at_l : (stgMLoan raw).get l with
  | none =>
    have at_l' : (stgMLoan (Function.update raw .mClient after)).get l = none := at_l
    simp [loanBase,at_l,at_l']
  | some loan =>
    have at_l' : (stgMLoan (Function.update raw .mClient after)).get l = some loan := at_l
    simp only [loanBase,at_l,at_l',Option.bind_eq_bind,Option.bind_some]
    cases dated : loan.disbursedonDate with
    | none => rfl
    | some disbursed =>
      cases owner : loan.clientId with
      | none => rfl
      | some id =>
        have found : (loans raw).get l = some loan := loans_eq_some.mpr ⟨at_l,by simp [dated]⟩
        simp only [Option.bind_some,client_eq loan id found owner]
        rfl

private theorem transaction_reporting (logs : Logs mLoanTransactionContract today (raw .mLoanTransaction) after log)
    (kept : KeepsLoan mLoanTransactionContract (raw .mLoanTransaction) after) :
    Reporting view raw (Function.update raw .mLoanTransaction after) log := by
  refine reporting_of_same_loans rfl (fun h l d unnamed _ => ?_)
  refine factAt_congr (snapshotAt_congr rfl ⟨?_,fun _ _ => .rfl,fun _ _ => rfl⟩ rfl)
  intro t x dated le
  simp only [scopedTransactions,Finset.mem_filter,Relation.mem_rowSet,and_congr_left_iff]
  rintro ⟨own,_⟩
  exact row_kept (v := transactionTable) logs kept unnamed own dated le

/-- The event dates of a loan before everything that is logged for it stay as they are. -/
def KeepsEarlierEvents (raw raw' : RawTables) (log : List LogEntry) : Prop :=
  ∀ l e, (∀ c ∈ log, NamesLoan l c → e < c.minAffectedDate) →
    (some e ∈ installmentEvents (installmentStatus raw l) ↔ some e ∈ installmentEvents (installmentStatus raw' l))

private theorem schedule_reporting (logs : Logs mLoanRepaymentScheduleContract today (raw .mLoanRepaymentSchedule) after log)
    (kept : KeepsLoan mLoanRepaymentScheduleContract (raw .mLoanRepaymentSchedule) after)
    (events : KeepsEarlierEvents raw (Function.update raw .mLoanRepaymentSchedule after) log) :
    Reporting view raw (Function.update raw .mLoanRepaymentSchedule after) log := by
  refine reporting_of_same_loans rfl (fun h l d unnamed _ => ?_)
  refine factAt_congr (snapshotAt_congr rfl ⟨fun _ _ _ _ => .rfl,?_,?_⟩ rfl)
  · intro e le
    exact events l e (fun c member named => lt_of_le_of_lt le (unnamed c member named))
  · intro e le
    have unpaid : (installmentStatus raw l).filter (fun i => unpaidAsOf (some e) i.2) =
        (installmentStatus (Function.update raw .mLoanRepaymentSchedule after) l).filter
          (fun i => unpaidAsOf (some e) i.2) := by
      ext i
      simp only [installmentStatus,Finset.mem_filter,Relation.mem_rowSet,and_congr_left_iff]
      intro open_ own
      cases due : i.2.duedate with
      | none => simp [unpaidAsOf,due] at open_
      | some x =>
        simp only [unpaidAsOf,due,Bool.and_eq_true,decide_eq_true_eq] at open_
        exact row_kept (v := scheduleTable) logs kept unnamed own due (open_.1.le.trans le)
    rw [oldestUnpaidAsOfEvent,oldestUnpaidAsOfEvent,unpaid]

private theorem tag_reporting (logs : Logs mLoanDelinquencyTagHistoryContract today (raw .mLoanDelinquencyTagHistory) after log)
    (kept : KeepsLoan mLoanDelinquencyTagHistoryContract (raw .mLoanDelinquencyTagHistory) after) :
    Reporting view raw (Function.update raw .mLoanDelinquencyTagHistory after) log := by
  refine reporting_of_same_loans rfl (fun h l d unnamed _ => ?_)
  refine factAt_congr (snapshotAt_congr rfl ⟨fun _ _ _ _ => .rfl,fun _ _ => .rfl,fun _ _ => rfl⟩
    (delinquencyMatches_congr ?_ ?_))
  · intro t member k _
    rw [Function.update_of_ne]
    rintro rfl
    simp [joinedTables] at member
  · intro k tag x own added le
    exact row_kept (v := tagTable) logs kept unnamed own added le

/-- A table that is logged for the whole source. -/
theorem global_reporting {t : Table} (notLoan : t ≠ .mLoan) (entity : (contract t).changeEntity = some .global)
    (logs : Logs (contract t) today (raw t) after log) : Reporting view raw (Function.update raw t after) log := by
  refine reporting_of_same_loans (Function.update_of_ne notLoan.symm _ _) (fun h l d _ unreached => ?_)
  cases reached : (loans raw).get l with
  | none =>
    have reached' : (loans (Function.update raw t after)).get l = none := by
      rwa [loans,stgMLoan,Function.update_of_ne notLoan.symm]
    exact factAt_congr (by rw [snapshotAt_unloaned reached,snapshotAt_unloaned reached'])
  | some loan =>
    have reached' : (loans (Function.update raw t after)).get l = some loan := by
      rwa [loans,stgMLoan,Function.update_of_ne notLoan.symm]
    refine factAt_congr (snapshotAt_sameSource (fun u _ k own => ?_))
    by_cases same : u = t
    · subst same
      rw [Function.update_self]
      by_contra differs
      obtain ⟨a,key,_,_,_,entry⟩ := logs k (fun same => differs same.symm)
      simp only [LoggedFor,entity] at entry
      obtain ⟨c,member,global,source⟩ := entry
      exact unreached loan reached' c member (.inr ⟨.inl global,by rw [source,key,own]⟩)
    · rw [Function.update_of_ne same]

/-- A table that no snapshot reads. -/
theorem unread_reporting {t : Table} (unread : t ∉ readTables) : Reporting view raw (Function.update raw t after) log := by
  have same : ∀ u ∈ readTables, Function.update raw t after u = raw u := by
    intro u member
    rw [Function.update_of_ne]
    rintro rfl
    exact unread member
  refine reporting_of_same_loans (same _ (by decide)) (fun h l d _ _ => factAt_congr (snapshotAt_sameSource ?_))
  intro u member k _
  rw [same u member]

/-- The tables with a loan of their own in every row. -/
def childTables : List Table := [.mLoanTransaction,.mLoanRepaymentSchedule,.mLoanDelinquencyTagHistory]

/-- A logged batch of any table reports all it does, when no row leaves its loan
    and no early event of a schedule changes unlogged. -/
theorem batch_reporting (table : Table) (logs : Logs (contract table) today (raw table) after log)
    (kept : table ∈ childTables → KeepsLoan (contract table) (raw table) after)
    (events : table = .mLoanRepaymentSchedule → KeepsEarlierEvents raw (Function.update raw table after) log) :
    Reporting view raw (Function.update raw table after) log := by
  cases table with
  | mLoan => exact loan_reporting logs
  | mClient => exact client_reporting logs
  | mLoanTransaction => exact transaction_reporting logs (kept (by decide))
  | mLoanRepaymentSchedule => exact schedule_reporting logs (kept (by decide)) (events rfl)
  | mLoanDelinquencyTagHistory => exact tag_reporting logs (kept (by decide))
  | mDelinquencyRange | mDelinquencyBucket | mDelinquencyBucketMappings => exact global_reporting (by decide) rfl logs
  | mOffice | mCurrency | mProductLoan | batchJobExecution | batchJobInstance => exact unread_reporting (by decide)

/-- Every disbursed loan stays disbursed, and not later. -/
def KeepsDisbursed (raw raw' : RawTables) : Prop :=
  ∀ l loan disbursed, (loans raw).get l = some loan → loan.disbursedonDate = some disbursed →
    ∃ loan' disbursed', (loans raw').get l = some loan' ∧ loan'.disbursedonDate = some disbursed' ∧ disbursed' ≤ disbursed

/-- A source entry reports the replacement of the rows of its source. -/
theorem promotion_reporting {table : Table} {source : String}
    (others : ∀ k : Key, k.sourceId ≠ source → after.get k = (raw table).get k)
    (entry : ∃ c ∈ log, c.entity = .source ∧ c.sourceId = source)
    (kept : KeepsDisbursed raw (Function.update raw table after)) :
    Reporting view raw (Function.update raw table after) log := by
  obtain ⟨c,member,whole,of_source⟩ := entry
  have same_others : ∀ l : Key, l.sourceId ≠ source →
      SameSource readTables raw (Function.update raw table after) l.sourceId := by
    intro l other t _ k own
    by_cases same : t = table
    · subst same
      rw [Function.update_self,others k (own ▸ other)]
    · rw [Function.update_of_ne same]
  constructor
  · intro h l d differs
    have own : l.sourceId = source := by
      by_contra other
      exact differs (factAt_congr (snapshotAt_sameSource (same_others l other)))
    have live : ∃ loan, (loans (Function.update raw table after)).get l = some loan := by
      cases now : snapshotAt h (Function.update raw table after) l d with
      | some row =>
        obtain ⟨base,found,_,_⟩ := snapshotAt_eq_some now
        exact ⟨base.loan,loans_of_base found⟩
      | none =>
        have before : snapshotAt h raw l d ≠ none := by
          intro before
          exact differs (factAt_congr (before.trans now.symm))
        obtain ⟨row,before⟩ := Option.ne_none_iff_exists'.mp before
        obtain ⟨base,found,_,_⟩ := snapshotAt_eq_some before
        obtain ⟨loan,_,at_l,_,_⟩ := kept l _ _ (loans_of_base found) (loanBase_eq_some.mp found).2.1
        exact ⟨loan,at_l⟩
    obtain ⟨loan,at_l⟩ := live
    exact .inr ⟨loan,at_l,c,member,.inr ⟨.inr whole,of_source.trans own.symm⟩⟩
  · intro l loan disbursed found dated
    obtain ⟨loan',disbursed',found',dated',le⟩ := kept l loan disbursed found dated
    refine .inr ⟨loan',disbursed',found',dated',le,?_⟩
    by_cases own : l.sourceId = source
    · exact .inr ⟨c,member,.inr ⟨.inr whole,of_source.trans own.symm⟩⟩
    · have same : (stgMLoan raw).get l = (stgMLoan (Function.update raw table after)).get l :=
        (same_others l own).staged (by decide) rfl
      rw [loans_eq_some] at found found'
      rw [same,found'.1] at found
      exact .inl (by rw [Option.some.inj found.1])

end Tables

end FineractBi.ChangeTracking
