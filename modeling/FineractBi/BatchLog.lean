import FineractBi.ChangeTracking

/-!
What one production batch of a table tracked by loan writes into the change log,
against what it changes: every loan that a written row belongs to is logged in
time, and a loan is missed only when a live row leaves it for another one.
-/
namespace FineractBi.BatchLog
open Calendar FineractBi.Contract FineractBi.ApplyBatch FineractBi.Staging FineractBi.LoanSnapshot FineractBi.FactBuild
open FineractBi.ChangeTracking
open FineractBi.StateMachine (Engine)

section Shares
variable (t : TableContract)

/-- A row belongs to a loan. -/
def Belongs (l k : Key) (row : RawRow) : Prop := OfLoan l k (asInt (columnOf t k row.cols t.changeKey))

instance (l k : Key) (row : RawRow) : Decidable (Belongs t l k row) := inferInstanceAs (Decidable (OfLoan _ _ _))

/-- The history columns of a row, when it is a live row of the loan. -/
def shareOf (raw : RawTable) (l k : Key) : Option (List (Option Value)) :=
  (raw.get k).bind (fun row => if row.isDeleted = false ∧ Belongs t l k row
    then some (t.changeHistoryColumns.map (columnOf t k row.cols)) else none)

/-- A row by which the loan differs before and after. -/
def Affected (raw raw' : RawTable) (l k : Key) : Prop := shareOf t raw l k ≠ shareOf t raw' l k

/-- A date is not after the change dates of a row, before and after. -/
structure Covers (raw raw' : RawTable) (k : Key) (d : Date) : Prop where
  before : ∀ old, raw.get k = some old → ∀ x, changeDateOf t k old = some x → d ≤ x
  after : ∀ new, raw'.get k = some new → d ≤ (changeDateOf t k new).getD beginningOfTime

/-- Every loan that differs has an entry, dated no later than the current date and the dates of its
    affected rows. -/
def LogComplete (today : Date) (raw raw' : RawTable) (log : List LogEntry) : Prop :=
  ∀ l, (∃ k, Affected t raw raw' l k) → ∃ c ∈ log, NamesLoan l c ∧ c.minAffectedDate ≤ today ∧
    ∀ k, Affected t raw raw' l k → Covers t raw raw' k c.minAffectedDate

/-- A live row of the loan is live afterwards, in another loan or in none. -/
def Leaves (raw raw' : RawTable) (l k : Key) : Prop :=
  (shareOf t raw l k).isSome ∧ ∃ new, raw'.get k = some new ∧ new.isDeleted = false ∧ ¬Belongs t l k new

/-- A batch writes a row: it stages the key and the guard lets it. -/
def Written (engine : Engine) (stage : List StagedRow) (raw : RawTable) (k : Key) : Prop :=
  ∃ d, dedup t stage "prod" k = some d ∧ ∀ old, raw.get k = some old → ApplyBatch.guard engine d old = true

/-- The batch also writes a row of the loan, whose own dates are no later than those of the row that leaves. -/
def Accompanied (engine : Engine) (today : Date) (stage : List StagedRow) (raw raw' : RawTable) (l k : Key) : Prop :=
  ∃ k' new, Written t engine stage raw k' ∧ raw'.get k' = some new ∧ Belongs t l k' new ∧
    Covers t raw raw' k (affectedFrom t today ⟨k',new,raw.get k'⟩)

end Shares

section Applied
variable {t : TableContract} {engine : Engine} {now : Int} {today : Date} {stage : List StagedRow} {target : String}
  {selects : DedupRow → Bool} {set : DedupRow → RawRow → RawRow} {raw : RawTable} {k : Key} {a : AppliedRow}

private theorem mem_statement : a ∈ statement t engine now stage target selects set raw ↔
    appliedAt t engine now stage target selects set raw a.key = some a := by
  constructor
  · intro member
    obtain ⟨k,_,applied⟩ := List.mem_filterMap.mp member
    obtain rfl := appliedAt_key applied
    exact applied
  · exact statement_mem

/-- What a statement returns: the upserts of the dedup rows that it selects and the guard lets. -/
theorem appliedAt_eq_some (same : ∀ d old, dedup t stage target k = some d → selects d = true →
      set d old = setAvailable engine now d old) :
    appliedAt t engine now stage target selects set raw k = some a ↔ ∃ d, dedup t stage target k = some d ∧
      selects d = true ∧ (∀ old, raw.get k = some old → ApplyBatch.guard engine d old = true) ∧
      ⟨k,upsert engine now d (raw.get k),raw.get k⟩ = a := by
  unfold appliedAt
  cases found : dedup t stage target k with
  | none => simp
  | some d =>
    by_cases selected : selects d = true
    · cases stored : raw.get k with
      | none => simp [selected,upsert]
      | some old =>
        by_cases passes : ApplyBatch.guard engine d old
        · simp [selected,passes,upsert,same d old found selected]
        · simp [selected,passes]
    · simp [selected]

/-- The rows that a batch applies, in one statement or the other. -/
theorem mem_appliedRows : a ∈ appliedRows t engine now stage target raw ↔ ∃ d, dedup t stage target a.key = some d ∧
    (∀ old, raw.get a.key = some old → ApplyBatch.guard engine d old = true) ∧
    ⟨a.key,upsert engine now d (raw.get a.key),raw.get a.key⟩ = a := by
  rw [appliedRows,List.mem_append,applyFull,mem_statement,appliedAt_eq_some
    (fun d old _ full => setAll_eq d old (by simpa using full))]
  constructor
  · rintro (⟨d,found,_,rest⟩ | partly)
    · exact ⟨d,found,rest⟩
    · rw [applyPartial] at partly
      split at partly
      · rw [mem_statement,appliedAt_eq_some (fun _ _ _ _ => rfl)] at partly
        obtain ⟨d,found,selected,rest⟩ := partly
        have untouched : (store raw (applyFull t engine now stage target raw)).get a.key = raw.get a.key :=
          store_statement_skipped found (by simpa [List.length_pos_iff] using selected)
        rw [applyFull] at untouched
        rw [untouched] at rest
        exact ⟨d,found,rest⟩
      · cases partly
  · rintro ⟨d,found,rest⟩
    by_cases full : d.unavailable = []
    · exact .inl ⟨d,found,by simp [full],rest⟩
    · have carried : hasUnavailable stage = true := by
        by_contra carried
        exact full (dedup_unavailable (by simpa using carried) found)
      have untouched : (store raw (applyFull t engine now stage target raw)).get a.key = raw.get a.key :=
        store_statement_skipped found (by simpa using full)
      rw [applyPartial,if_pos carried,mem_statement,appliedAt_eq_some (fun _ _ _ _ => rfl)]
      rw [applyFull] at untouched
      exact .inr ⟨d,found,by simpa [List.length_pos_iff] using full,by rw [untouched]; exact rest⟩

/-- The batch logs what each statement applied. -/
theorem logged_of_applied (applied : a ∈ appliedRows t engine now stage "prod" raw) :
    LoggedFor t today (batchLog t engine now today stage raw) a := by
  rcases List.mem_append.mp applied with full | partly
  · exact (logged_for full).mono (List.subset_append_left _ _)
  · exact (logged_for partly).mono (List.subset_append_right _ _)

/-- An entry of a table tracked by loan is dated by one of the rows of its loan. -/
theorem applied_of_logged (tracked : t.changeEntity = some .loan) {c : LogEntry} {l : Key} (names : NamesLoan l c)
    (member : c ∈ batchLog t engine now today stage raw) : ∃ a ∈ appliedRows t engine now stage "prod" raw,
      changeKeyOf t a = some (l.sourceId,l.tenantId,l.id) ∧ c.minAffectedDate = affectedFrom t today a := by
  have of_statement : ∀ applied, c ∈ logged t today applied → ∃ a ∈ applied,
      changeKeyOf t a = some (l.sourceId,l.tenantId,l.id) ∧ c.minAffectedDate = affectedFrom t today a := by
    intro applied inside
    simp only [logged,tracked] at inside
    obtain ⟨g,_,entry⟩ := List.mem_filterMap.mp inside
    obtain ⟨least,found,rfl⟩ := Option.map_eq_some_iff.mp entry
    obtain ⟨_,source,tenant,id⟩ := names
    obtain ⟨dated,_⟩ := List.min?_eq_some_iff.mp found
    obtain ⟨a,of_loan,same⟩ := List.mem_map.mp dated
    obtain ⟨among,key⟩ := List.mem_filter.mp of_loan
    refine ⟨a,among,?_,same.symm⟩
    rw [of_decide_eq_true key]
    simp only at source tenant id
    rw [← source,← tenant,← id]
  rcases List.mem_append.mp member with full | partly
  · obtain ⟨a,among,rest⟩ := of_statement _ full
    exact ⟨a,List.mem_append_left _ among,rest⟩
  · obtain ⟨a,among,rest⟩ := of_statement _ partly
    exact ⟨a,List.mem_append_right _ among,rest⟩

end Applied

/-- The loan of a row is one of its history columns, or its key. -/
theorem loan_tracked {table : Table} (tracked : (contract table).changeEntity = some .loan) :
    (contract table).changeKey = (contract table).primaryKey ∨
      (contract table).changeKey ∈ (contract table).changeHistoryColumns := by
  cases table <;> simp [contract,mOfficeContract,mCurrencyContract,mClientContract,mProductLoanContract,mLoanContract,
    mLoanTransactionContract,mLoanRepaymentScheduleContract,mDelinquencyRangeContract,mDelinquencyBucketContract,
    mDelinquencyBucketMappingsContract,mLoanDelinquencyTagHistoryContract,batchJobExecutionContract,
    batchJobInstanceContract] at tracked ⊢

section Complete
variable {t : TableContract} {engine : Engine} {now : Int} {today d d' : Date} {stage : List StagedRow}
  {raw raw' : RawTable} {l k : Key} {old new : RawRow}

private theorem belongs_congr (loan : t.changeKey = t.primaryKey ∨ t.changeKey ∈ t.changeHistoryColumns)
    (same : ∀ c ∈ t.changeHistoryColumns, columnOf t k new.cols c = columnOf t k old.cols c) :
    Belongs t l k new ↔ Belongs t l k old := by
  have key : columnOf t k new.cols t.changeKey = columnOf t k old.cols t.changeKey := by
    rcases loan with primary | history
    · simp [columnOf,primary]
    · exact same _ history
  rw [Belongs,Belongs,key]

private theorem shareOf_isSome : (shareOf t raw l k).isSome ↔
    ∃ row, raw.get k = some row ∧ row.isDeleted = false ∧ Belongs t l k row := by
  unfold shareOf
  cases raw.get k with
  | none => simp
  | some row =>
    by_cases own : row.isDeleted = false ∧ Belongs t l k row
    · simp [own]
    · simp [own]

theorem Covers.mono (covers : Covers t raw raw' k d) (le : d' ≤ d) : Covers t raw raw' k d' :=
  ⟨fun old stored x dated => le.trans (covers.before old stored x dated),fun new stored => le.trans (covers.after new stored)⟩

/-- A row that counts as unchanged is the same part of its loan. -/
theorem affected_changed (loan : t.changeKey = t.primaryKey ∨ t.changeKey ∈ t.changeHistoryColumns)
    (affected : Affected t raw raw' l k) (stored : raw'.get k = some new) : changed t ⟨k,new,raw.get k⟩ = true := by
  by_contra unchanged
  obtain ⟨old,before,deleted,columns⟩ := not_changed (by simpa using unchanged)
  refine affected ?_
  have columns' : t.changeHistoryColumns.map (columnOf t k new.cols) = t.changeHistoryColumns.map (columnOf t k old.cols) :=
    List.map_congr_left columns
  have before' : raw.get k = some old := before
  have deleted' : new.isDeleted = old.isDeleted := deleted
  simp only [shareOf,before',stored,Option.bind_some,deleted',belongs_congr loan columns,columns']

/-- The logged date of a changed row is no later than its dates. -/
theorem covers_affectedFrom (stored : raw'.get k = some new) (changes : changed t ⟨k,new,raw.get k⟩ = true) :
    Covers t raw raw' k (affectedFrom t today ⟨k,new,raw.get k⟩) := by
  rw [affectedFrom,if_pos changes]
  constructor
  · intro old before x dated
    refine (min_le_left _ _).trans ((min_le_right _ _).trans ?_)
    simp [before,dated]
  · intro new' stored'
    obtain rfl := Option.some.inj (stored.symm.trans stored')
    exact (min_le_left _ _).trans (min_le_left _ _)

/-- A written row is applied, and an applied row is written. -/
theorem applied_iff : ⟨k,new,raw.get k⟩ ∈ appliedRows t engine now stage "prod" raw ↔
    Written t engine stage raw k ∧ (writeBatch t engine now stage "prod" raw).get k = some new := by
  rw [mem_appliedRows]
  constructor
  · rintro ⟨d,found,passes,same⟩
    refine ⟨⟨d,found,passes⟩,?_⟩
    rw [writeBatch_get,found]
    exact congrArg (fun a => some a.new) same
  · rintro ⟨⟨d,found,passes⟩,stored⟩
    rw [writeBatch_get,found] at stored
    exact ⟨d,found,passes,by rw [Option.some.inj stored]⟩

private theorem written_of_differs (differs : (writeBatch t engine now stage "prod" raw).get k ≠ raw.get k) :
    Written t engine stage raw k ∧ ∃ new, (writeBatch t engine now stage "prod" raw).get k = some new := by
  rw [writeBatch_get] at differs ⊢
  cases found : dedup t stage "prod" k with
  | none => simp [found] at differs
  | some d =>
    simp only [found] at differs ⊢
    refine ⟨⟨d,found,fun old stored => ?_⟩,_,rfl⟩
    by_contra blocked
    simp [stored,upsert,blocked] at differs

/-- An applied row of a loan has the loan logged, no later than the date of the row. -/
theorem entry_of_applied (today : Date) (tracked : t.changeEntity = some .loan) {a : AppliedRow}
    (applied : a ∈ appliedRows t engine now stage "prod" raw) (own : Belongs t l a.key a.new) :
    ∃ c ∈ batchLog t engine now today stage raw, NamesLoan l c ∧ c.minAffectedDate ≤ affectedFrom t today a := by
  have entry : LoggedFor t today (batchLog t engine now today stage raw) a := logged_of_applied applied
  simp only [LoggedFor,tracked] at entry
  obtain ⟨source,tenant,id⟩ := own
  obtain ⟨c,member,loan,key,le⟩ := entry (l.sourceId,l.tenantId,l.id) (by simp [changeKeyOf,id,source,tenant])
  obtain ⟨same_source,same_tenant,same_id⟩ : c.sourceId = l.sourceId ∧ c.tenantId = l.tenantId ∧ c.entityId = l.id := by
    simpa using key
  exact ⟨c,member,⟨loan,same_source,same_tenant,same_id⟩,le⟩

/-- An affected row has its loan logged in time, unless it leaves the loan. -/
theorem entry_of_affected (tracked : t.changeEntity = some .loan)
    (loan : t.changeKey = t.primaryKey ∨ t.changeKey ∈ t.changeHistoryColumns)
    (affected : Affected t raw (writeBatch t engine now stage "prod" raw) l k)
    (stays : ¬Leaves t raw (writeBatch t engine now stage "prod" raw) l k) :
    ∃ c ∈ batchLog t engine now today stage raw, NamesLoan l c ∧ c.minAffectedDate ≤ today ∧
      Covers t raw (writeBatch t engine now stage "prod" raw) k c.minAffectedDate := by
  have differs : (writeBatch t engine now stage "prod" raw).get k ≠ raw.get k := by
    intro same
    exact affected (by rw [shareOf,shareOf,same])
  obtain ⟨written,new,stored⟩ := written_of_differs differs
  have own : Belongs t l k new := by
    by_cases after : (shareOf t (writeBatch t engine now stage "prod" raw) l k).isSome
    · obtain ⟨row,found,_,own⟩ := shareOf_isSome.mp after
      rwa [Option.some.inj (stored.symm.trans found)]
    · have before : (shareOf t raw l k).isSome := by
        by_contra before
        refine affected ?_
        rw [Option.not_isSome_iff_eq_none.mp before,Option.not_isSome_iff_eq_none.mp after]
      by_contra foreign
      cases gone : new.isDeleted with
      | false => exact stays ⟨before,new,stored,gone,foreign⟩
      | true =>
        obtain ⟨old,found,_,own⟩ := shareOf_isSome.mp before
        have logs : Logs t today raw (writeBatch t engine now stage "prod" raw) (batchLog t engine now today stage raw) :=
          batchLog_logs
        obtain ⟨a,key,was,is_now,kept,_⟩ := logs k differs
        obtain rfl := Option.some.inj (stored.symm.trans is_now)
        rw [Belongs,kept gone old (was.trans found)] at foreign
        exact foreign own
  obtain ⟨c,member,named,le⟩ := entry_of_applied today tracked (applied_iff.mpr ⟨written,stored⟩) own
  exact ⟨c,member,named,le.trans affectedFrom_le_today,
    (covers_affectedFrom stored (affected_changed loan affected stored)).mono le⟩

end Complete

/-- A batch of a table tracked by loan logs every loan that differs in time, exactly when every live row
    that leaves a loan is accompanied by another row of the loan. -/
theorem log_complete_iff (table : Table) (engine : Engine) (now : Int) (today : Date) (stage : List StagedRow)
    (raw : RawTable) (tracked : (contract table).changeEntity = some .loan) :
    LogComplete (contract table) today raw (writeBatch (contract table) engine now stage "prod" raw)
        (batchLog (contract table) engine now today stage raw) ↔
      ∀ l k, Leaves (contract table) raw (writeBatch (contract table) engine now stage "prod" raw) l k →
        Accompanied (contract table) engine today stage raw (writeBatch (contract table) engine now stage "prod" raw) l k := by
  constructor
  · intro complete l k leaves
    have affected : Affected (contract table) raw (writeBatch (contract table) engine now stage "prod" raw) l k := by
      obtain ⟨before,new,stored,_,foreign⟩ := leaves
      intro same
      rw [same] at before
      obtain ⟨row,found,_,own⟩ := shareOf_isSome.mp before
      rw [Option.some.inj (stored.symm.trans found)] at foreign
      exact foreign own
    obtain ⟨c,member,named,_,covers⟩ := complete l ⟨k,affected⟩
    obtain ⟨a,applied,key,dated⟩ := applied_of_logged tracked named member
    obtain ⟨_,_,_,same⟩ := mem_appliedRows.mp applied
    have applied' : ⟨a.key,a.new,raw.get a.key⟩ ∈ appliedRows (contract table) engine now stage "prod" raw := by
      have whole : a = ⟨a.key,a.new,raw.get a.key⟩ := by rw [← same]
      rwa [← whole]
    obtain ⟨written,stored⟩ := applied_iff.mp applied'
    refine ⟨a.key,a.new,written,stored,?_,?_⟩
    · obtain ⟨id,loan,same_key⟩ := Option.map_eq_some_iff.mp key
      obtain ⟨source,tenant,rfl⟩ : a.key.sourceId = l.sourceId ∧ a.key.tenantId = l.tenantId ∧ id = l.id := by
        simpa using same_key
      exact ⟨source,tenant,loan⟩
    · have whole : a = ⟨a.key,a.new,raw.get a.key⟩ := by rw [← same]
      rw [← whole,← dated]
      exact covers k affected
  · intro accompanied l differs
    -- of the entries that name the loan the one of the least date serves all its rows
    have entry : ∀ k, Affected (contract table) raw (writeBatch (contract table) engine now stage "prod" raw) l k →
        ∃ c ∈ batchLog (contract table) engine now today stage raw, NamesLoan l c ∧ c.minAffectedDate ≤ today ∧
          Covers (contract table) raw (writeBatch (contract table) engine now stage "prod" raw) k c.minAffectedDate := by
      intro k affected
      by_cases leaves : Leaves (contract table) raw (writeBatch (contract table) engine now stage "prod" raw) l k
      · obtain ⟨k',new,written,stored,own,covers⟩ := accompanied l k leaves
        obtain ⟨c,member,named,le⟩ := entry_of_applied today tracked (applied_iff.mpr ⟨written,stored⟩) own
        exact ⟨c,member,named,le.trans affectedFrom_le_today,covers.mono le⟩
      · exact entry_of_affected tracked (loan_tracked tracked) affected leaves
    obtain ⟨k,affected⟩ := differs
    obtain ⟨c,member,named,le,_⟩ := entry k affected
    let entries := (batchLog (contract table) engine now today stage raw).filter (fun c => NamesLoan l c)
    have listed : c ∈ entries := List.mem_filter.mpr ⟨member,decide_eq_true named⟩
    obtain ⟨least,inside,first⟩ := entries.toFinset.exists_min_image (·.minAffectedDate) ⟨c,List.mem_toFinset.mpr listed⟩
    obtain ⟨among,named_least⟩ := List.mem_filter.mp (List.mem_toFinset.mp inside)
    refine ⟨least,among,of_decide_eq_true named_least,(first c (List.mem_toFinset.mpr listed)).trans le,?_⟩
    intro k' affected'
    obtain ⟨c',member',named',_,covers⟩ := entry k' affected'
    exact covers.mono (first c' (List.mem_toFinset.mpr (List.mem_filter.mpr ⟨member',decide_eq_true named'⟩)))

def stagedRepayment (id loan : Int) (on : Date) : StagedRow where
  key := branchKey id
  cols := fun c => [("loan_id",Value.int loan),("transaction_date",.date on),
    ("amount",.numeric 40),("is_reversed",.boolean false)].lookup c
  sourceGeneration := 1
  sourceLsn := some 2
  sourceTs := none
  op := .u
  unavailable := none
  ownerEpoch := 2
  target := "prod"

/-- Two repayments of loan 1. -/
def twoRepayments : RawTable := .tabulate {branchKey 1,branchKey 2}
  (fun _ => some (liveRow [("loan_id",.int 1),("transaction_date",.date (ofCivil 2025 1 10))]))

/-- The first is moved to loan 2, the second to an earlier day. -/
def movedAndMoved : List StagedRow := [stagedRepayment 1 2 (ofCivil 2025 1 10),stagedRepayment 2 1 (ofCivil 2025 1 5)]

def afterMoves : RawTable := writeBatch (contract .mLoanTransaction) .KAFKA 0 movedAndMoved "prod" twoRepayments

/-- The second repayment is logged for loan 1 from its new day, which serves the first one too. -/
theorem moves_accompanied {l k : Key} (leaves : Leaves (contract .mLoanTransaction) twoRepayments afterMoves l k) :
    Accompanied (contract .mLoanTransaction) .KAFKA (ofCivil 2025 2 1) movedAndMoved twoRepayments afterMoves l k := by
  obtain ⟨before,new,stored,_,foreign⟩ := leaves
  obtain ⟨row,found,_,own⟩ := shareOf_isSome.mp before
  obtain ⟨inside,rfl⟩ : (k = branchKey 1 ∨ k = branchKey 2) ∧
      row = liveRow [("loan_id",.int 1),("transaction_date",.date (ofCivil 2025 1 10))] := by
    simp only [twoRepayments,Relation.tabulate_get] at found
    split at found
    · next inside =>
      obtain rfl := Option.some.inj found
      exact ⟨by simpa using inside,rfl⟩
    · cases found
  -- both belong to loan 1 before
  obtain rfl : l = branchKey 1 := by
    obtain ⟨source,tenant,id⟩ := own
    obtain ⟨sourceId,tenantId,loanId⟩ := l
    rcases inside with rfl | rfl
    · obtain rfl := source
      obtain rfl := tenant
      obtain rfl : (1 : Int) = loanId := Option.some.inj id
      rfl
    · obtain rfl := source
      obtain rfl := tenant
      obtain rfl : (1 : Int) = loanId := Option.some.inj id
      rfl
  have second_loan : (afterMoves.get (branchKey 2)).map
      (fun new => decide (Belongs (contract .mLoanTransaction) (branchKey 1) (branchKey 2) new)) = some true := by
    decide +kernel
  rcases inside with rfl | rfl
  · obtain ⟨other,there,belongs⟩ := Option.map_eq_some_iff.mp second_loan
    have dated : (afterMoves.get (branchKey 2)).map (fun new => affectedFrom (contract .mLoanTransaction) (ofCivil 2025 2 1)
        ⟨branchKey 2,new,twoRepayments.get (branchKey 2)⟩) = some (ofCivil 2025 1 5) := by decide +kernel
    have first_date : (afterMoves.get (branchKey 1)).map (changeDateOf (contract .mLoanTransaction) (branchKey 1)) =
        some (some (ofCivil 2025 1 10)) := by decide +kernel
    rw [there,Option.map_some,Option.some.injEq] at dated
    rw [stored,Option.map_some,Option.some.injEq] at first_date
    have differs : afterMoves.get (branchKey 2) ≠ twoRepayments.get (branchKey 2) := by
      intro same
      have days := congrArg (Option.map (changeDateOf (contract .mLoanTransaction) (branchKey 2))) same
      exact absurd days (by decide +kernel)
    have written : Written (contract .mLoanTransaction) .KAFKA movedAndMoved twoRepayments (branchKey 2) :=
      (written_of_differs differs).1
    refine ⟨branchKey 2,other,written,there,of_decide_eq_true belongs,?_⟩
    rw [dated]
    constructor
    · intro old before x day
      obtain rfl := Option.some.inj (before.symm.trans found)
      obtain rfl : ofCivil 2025 1 10 = x := Option.some.inj day
      decide
    · intro new' stored'
      obtain rfl := Option.some.inj (stored.symm.trans stored')
      rw [first_date]
      decide
  · rw [stored,Option.map_some,Option.some.injEq] at second_loan
    exact absurd (of_decide_eq_true second_loan) foreign

/-- A repayment that leaves loan 1 beside another one of the loan that changes. -/
theorem log_complete_accompanied :
    Leaves (contract .mLoanTransaction) twoRepayments afterMoves (branchKey 1) (branchKey 1) ∧
    LogComplete (contract .mLoanTransaction) (ofCivil 2025 2 1) twoRepayments afterMoves
      (batchLog (contract .mLoanTransaction) .KAFKA 0 (ofCivil 2025 2 1) movedAndMoved twoRepayments) := by
  constructor
  · have moved : (afterMoves.get (branchKey 1)).map (fun new =>
        !new.isDeleted && !decide (Belongs (contract .mLoanTransaction) (branchKey 1) (branchKey 1) new)) = some true := by
      decide +kernel
    obtain ⟨new,stored,apart⟩ := Option.map_eq_some_iff.mp moved
    exact ⟨by decide +kernel,new,stored,by simpa using apart⟩
  · exact (log_complete_iff .mLoanTransaction .KAFKA 0 (ofCivil 2025 2 1) movedAndMoved twoRepayments rfl).mpr
      (fun _ _ leaves => moves_accompanied leaves)

/-- Production after the repayment has been booked on loan 1. -/
def bookedRepayment : RawTable :=
  writeBatch (contract .mLoanTransaction) .KAFKA 0 [stagedRepayment 1 1 (ofCivil 2025 1 10)] "prod" .empty

/-- The batch that moves the repayment to loan 2 logs loan 2 alone. -/
theorem moved_repayment_unlogged : ¬LogComplete (contract .mLoanTransaction) (ofCivil 2025 2 1) bookedRepayment
    (writeBatch (contract .mLoanTransaction) .KAFKA 0 [stagedRepayment 1 2 (ofCivil 2025 1 10)] "prod" bookedRepayment)
    (batchLog (contract .mLoanTransaction) .KAFKA 0 (ofCivil 2025 2 1) [stagedRepayment 1 2 (ofCivil 2025 1 10)] bookedRepayment) := by
  intro complete
  have affected : Affected (contract .mLoanTransaction) bookedRepayment
      (writeBatch (contract .mLoanTransaction) .KAFKA 0 [stagedRepayment 1 2 (ofCivil 2025 1 10)] "prod" bookedRepayment)
      (branchKey 1) (branchKey 1) := by
    unfold Affected
    decide +kernel
  have unnamed : ∀ c ∈ batchLog (contract .mLoanTransaction) .KAFKA 0 (ofCivil 2025 2 1) [stagedRepayment 1 2 (ofCivil 2025 1 10)] bookedRepayment,
      ¬NamesLoan (branchKey 1) c := by
    decide +kernel
  obtain ⟨c,member,named,_⟩ := complete (branchKey 1) ⟨branchKey 1,affected⟩
  exact unnamed c member named

end FineractBi.BatchLog
