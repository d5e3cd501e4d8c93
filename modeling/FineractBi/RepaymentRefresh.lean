import FineractBi.MartRefresh

/-!
The incremental build of `mart_repayment_behavior`: the recompute window by
`changed_from`, the delete and the insert. Both touch the groups that a dirty row
reaches, and what a build inserts for a group depends on the repayments, the
recoveries, the installments and the names of that group alone.
-/
namespace FineractBi.RepaymentRefresh
open Calendar Query Refresh FineractBi.Contract FineractBi.ApplyBatch FineractBi.Staging FineractBi.LoanSnapshot
open FineractBi.RepaymentMart
open FineractBi.ParMart (DirtyRow MartRun martRecomputeWindow)

section
variable (h : Hashes) (run : Option MartRun) (raw : RawTables)

/-- `recompute`. -/
def recompute : Multiset RecomputeRow :=
  match run with
  | none => RepaymentMart.recompute h raw
  | some run => martRecomputeWindow (·.changedFrom) run

/-- Rows of loans, joined with `loan_dimensions` and `recompute`. -/
def inRecompute {Row : Type} (loanId : Row → Option Int) (date : Row → Option Date) (rows : Multiset (Key × Row)) :
    Multiset ((Key × Row) × LoanDimension) :=
  (join (onRecompute date) (join (onLoan loanId) rows (loanDimensions h raw)) (recompute h run raw)).map Prod.fst

def transactions : Multiset PostedRow :=
  (inRecompute h run raw (·.loanId) (·.transactionDate) (stagedTransactions raw).rows).filter
    (fun r => r.1.2.isReversed = some false)

/-- The rows that `due_amounts` aggregates. -/
def installments : Multiset DueRow := inRecompute h run raw (·.loanId) (·.duedate) (stagedInstallments raw).rows

end

def repaymentGroups (repaid : Multiset PostedRow) : Multiset (MartKey × RepaymentAggregate) :=
  (groupBy transactionKey repaid).map (fun g => (g.1,aggregateRepayments g.2))

def recoveryGroups (recovered : Multiset PostedRow) : Multiset (MartKey × RecoveryAggregate) :=
  (groupBy transactionKey recovered).map (fun g => (g.1,aggregateRecoveries g.2))

def dueGroups (due : Multiset DueRow) : Multiset (MartKey × DueAggregate) :=
  (groupBy dueKey due).map (fun g => (g.1,aggregateDue g.2))

def combined (repaid : Multiset PostedRow) (due : Multiset DueRow) : Multiset CombinedRow :=
  (fullJoin onKeys (repaymentGroups repaid) (dueGroups due)).filterMap selectCombined

def namedRows (raw : RawTables) (repaid : Multiset PostedRow) (due : Multiset DueRow) : Multiset NamedRow :=
  join onProduct (join onOffice (combined repaid due) (dimOffice raw).rows) (dimProduct raw).rows

/-- What the mart makes of repayments, recoveries and installments. -/
def select (raw : RawTables) (repaid recovered : Multiset PostedRow) (due : Multiset DueRow) : Multiset MartRow :=
  (leftJoin onRecovery (namedRows raw repaid due) (recoveryGroups recovered)).map selectMart

/-- The rows that a build inserts. -/
def martRepaymentBehavior (h : Hashes) (run : Option MartRun) (raw : RawTables) : Multiset MartRow :=
  select raw (ofType repayment (transactions h run raw)) (ofType recovery (transactions h run raw)) (installments h run raw)

/-- The join condition of `mart_delete_recompute_window`. -/
def covers (w : RecomputeRow) (k : MartKey) : Bool :=
  k.sourceId = w.sourceId && k.officeId = w.officeId && k.productId = w.productId && k.reportingDate.any (w.recomputeFrom ≤ ·)

/-- `mart_delete_recompute_window`, by `changed_from`. -/
def martDeleteRecomputeWindow (run : MartRun) (rows : Multiset MartRow) : Multiset MartRow :=
  rows.filter (fun r => ∀ w ∈ martRecomputeWindow (·.changedFrom) run, covers w r.key = false)

/-- The mart after a build, `rows` being its rows before it. -/
def build (h : Hashes) (fullRefresh : Bool) (run : MartRun) (raw : RawTables) (rows : Option (Multiset MartRow)) :
    Multiset MartRow :=
  match fullRefresh,rows with
  | false,some rows => martDeleteRecomputeWindow run rows + martRepaymentBehavior h (some run) raw
  | _,_ => martRepaymentBehavior h none raw

/-- A build that is not incremental. -/
theorem full_eq (h : Hashes) (raw : RawTables) : martRepaymentBehavior h none raw =
    RepaymentMart.martRepaymentBehavior h raw := rfl

section Window
variable {run : MartRun} {k : MartKey} {h : Hashes} {raw : RawTables} {rows : Multiset MartRow}

/-- A dirty row reaches a group by its `changed_from`. -/
def reaches (d : DirtyRow) (k : MartKey) : Bool :=
  d.sourceId = k.sourceId && d.officeId = k.officeId && d.productId = k.productId &&
    k.reportingDate.any (fun date => d.changedFrom.any (· ≤ date))

/-- A run reads a dirty row that reaches the group. -/
def inWindow (run : MartRun) (k : MartKey) : Bool :=
  decide (∃ d ∈ run.dirty, run.lastRunId < d.runId ∧ d.runId ≤ run.upperRunId ∧ reaches d k = true)

/-- A group is covered by the window when one of its dirty rows reaches it. -/
theorem covered_iff : (∃ w ∈ martRecomputeWindow (·.changedFrom) run, covers w k = true) ↔ inWindow run k = true := by
  simp only [covers,reaches,inWindow,Bool.and_eq_true,decide_eq_true_eq,and_assoc]
  cases k.reportingDate with
  | none => simp
  | some date =>
    simp only [Option.any_some,decide_eq_true_eq,Option.any_eq_true]
    exact MartRefresh.window_iff

/-- The delete and the insert are a refresh of the groups in the window. -/
theorem build_eq_refresh : build h false run raw (some rows) =
    refresh MartRow.key (inWindow run) rows (martRepaymentBehavior h (some run) raw) := by
  refine congrArg (· + martRepaymentBehavior h (some run) raw) (Multiset.filter_congr (fun r _ => ?_))
  rw [← Bool.not_eq_true,← covered_iff]
  simp

/-- The rows of a group are all in the window, or none of them. -/
theorem inRecompute_window {Row : Type} {loanId : Row → Option Int} {date : Row → Option Date} {posted : Multiset (Key × Row)} :
    (inRecompute h (some run) raw loanId date posted).filter (fun r => martKey r.1.1 (date r.1.2) r.2 = k) =
      if inWindow run k then (join (onLoan loanId) posted (loanDimensions h raw)).filter (fun r => martKey r.1.1 (date r.1.2) r.2 = k)
      else 0 := by
  have joined (r : (Key × Row) × LoanDimension) (keyed : martKey r.1.1 (date r.1.2) r.2 = k) :
      0 < (matching (onRecompute date) (martRecomputeWindow (·.changedFrom) run) r).card ↔ inWindow run k = true := by
    rw [← covered_iff,Multiset.card_pos_iff_exists_mem]
    subst keyed
    simp only [mem_matching]
    rfl
  rw [inRecompute,recompute,join_map_fst (fun r _ => MartRefresh.few_recompute r),Multiset.filter_filter]
  split
  · next within =>
    exact Multiset.filter_congr (fun r _ => and_iff_left_of_imp (fun keyed => (joined r keyed).mpr within))
  · next without =>
    exact Multiset.filter_eq_nil.mpr (fun r _ both => without ((joined r both.1).mp both.2))

end Window

/-- The rows of a group, in whatever window. -/
def rowsAt {Row : Type} (h : Hashes) (raw : RawTables) (loanId : Row → Option Int) (date : Row → Option Date)
    (rows : Multiset (Key × Row)) (k : MartKey) : Multiset ((Key × Row) × LoanDimension) :=
  (join (onLoan loanId) rows (loanDimensions h raw)).filter (fun r => martKey r.1.1 (date r.1.2) r.2 = k)

/-- The window of a build has the group. -/
def Shows (run : Option MartRun) (k : MartKey) : Prop :=
  match run with
  | none => Dated k.reportingDate
  | some run => inWindow run k = true

instance (run : Option MartRun) (k : MartKey) : Decidable (Shows run k) := by
  cases run
  · exact inferInstanceAs (Decidable (Dated k.reportingDate))
  · exact inferInstanceAs (Decidable (_ = true))

def postedAt (type : Int) (h : Hashes) (raw : RawTables) (k : MartKey) : Multiset PostedRow :=
  ofType type ((rowsAt h raw (·.loanId) (·.transactionDate) (stagedTransactions raw).rows k).filter
    (fun r => r.1.2.isReversed = some false))

def installmentsAt (h : Hashes) (raw : RawTables) (k : MartKey) : Multiset DueRow :=
  rowsAt h raw (·.loanId) (·.duedate) (stagedInstallments raw).rows k

/-- What the mart makes of the rows of a group. -/
def groupOf (h : Hashes) (raw : RawTables) (k : MartKey) : Multiset MartRow :=
  select raw (postedAt repayment h raw k) (postedAt recovery h raw k) (installmentsAt h raw k)

section Group
variable {h : Hashes} {run : Option MartRun} {raw raw' : RawTables} {k : MartKey} {Row : Type} {loanId : Row → Option Int}
  {date : Row → Option Date} {repaid recovered : Multiset PostedRow} {due : Multiset DueRow}

private theorem inRecompute_full {posted : Multiset (Key × Row)} :
    (inRecompute h none raw loanId date posted).filter (fun r => martKey r.1.1 (date r.1.2) r.2 = k) =
      if Dated k.reportingDate then rowsAt h raw loanId date posted k else 0 := by
  have joined : join (onLoan loanId) posted (loanDimensions h raw) = _ :=
    join_eq_filterMap (fun t _ => matching_dimensions t)
  have windowed : inRecompute h none raw loanId date posted = _ := RepaymentMart.inWindow_eq posted
  have keyed (r : (Key × Row) × LoanDimension) (own : martKey r.1.1 (date r.1.2) r.2 = k) : date r.1.2 = k.reportingDate := by
    rw [← own]
    rfl
  rw [windowed,rowsAt,joined,Multiset.filter_filterMap,Multiset.filter_filterMap]
  split
  · next dated =>
    refine filterMap_congr (fun t _ => ?_)
    cases dimensionOf h raw t.1 (loanId t.2) with
    | none => simp
    | some d =>
      by_cases own : martKey t.1 (date t.2) d = k
      · rw [← keyed (t,d) own] at dated
        simp [dated]
      · by_cases dated' : Dated (date t.2)
        · simp [dated']
        · simp [dated',Option.filter,own]
  · next undated =>
    refine Multiset.eq_zero_of_forall_notMem (fun r inside => ?_)
    obtain ⟨t,_,found⟩ := (Multiset.mem_filterMap _ _).mp inside
    obtain ⟨selected,own⟩ := Option.filter_eq_some_iff.mp found
    split at selected
    · next dated =>
      obtain ⟨d,_,rfl⟩ := Option.map_eq_some_iff.mp selected
      exact undated (keyed (t,d) (by simpa using own) ▸ dated)
    · cases selected

/-- The rows of a group are all in the window of a build, or none of them. -/
theorem inRecompute_at {posted : Multiset (Key × Row)} :
    (inRecompute h run raw loanId date posted).filter (fun r => martKey r.1.1 (date r.1.2) r.2 = k) =
      if Shows run k then rowsAt h raw loanId date posted k else 0 := by
  cases run with
  | none => exact inRecompute_full
  | some run => exact inRecompute_window

private theorem repaymentGroups_filter : (repaymentGroups repaid).filter (fun g => g.1 = k) =
    repaymentGroups (repaid.filter (fun r => transactionKey r = k)) := by
  rw [repaymentGroups,Multiset.filter_map]
  exact congrArg (Multiset.map _) (groupBy_filter transactionKey repaid (fun key => key = k))

private theorem recoveryGroups_filter : (recoveryGroups recovered).filter (fun g => g.1 = k) =
    recoveryGroups (recovered.filter (fun r => transactionKey r = k)) := by
  rw [recoveryGroups,Multiset.filter_map]
  exact congrArg (Multiset.map _) (groupBy_filter transactionKey recovered (fun key => key = k))

private theorem dueGroups_filter : (dueGroups due).filter (fun g => g.1 = k) =
    dueGroups (due.filter (fun r => dueKey r = k)) := by
  rw [dueGroups,Multiset.filter_map]
  exact congrArg (Multiset.map _) (groupBy_filter dueKey due (fun key => key = k))

private theorem combined_filter : (combined repaid due).filter (fun c => c.key = k) =
    combined (repaid.filter (fun r => transactionKey r = k)) (due.filter (fun r => dueKey r = k)) := by
  rw [combined,combined,← repaymentGroups_filter,← dueGroups_filter,← fullJoin_filter_key (fun x y => onKeys_iff x y),
    Multiset.filter_filterMap,Multiset.filterMap_filter]
  refine filterMap_congr (fun r inside => ?_)
  rw [← coalesceKey_eq inside]
  cases keyed : coalesceKey (r.1.map Prod.fst) (r.2.map Prod.fst) with
  | none => simp [selectCombined,keyed]
  | some key =>
    by_cases own : key = k
    · simp [selectCombined,keyed,own]
    · simp [selectCombined,keyed,own]

theorem namedRows_eq : namedRows raw repaid due =
    (combined repaid due).filterMap (fun c => (namesOf raw c.key).map (fun n => ((c,n.1),n.2))) := by
  rw [← names_join raw (fun c : CombinedRow => c.key)]
  rfl

private theorem namedRows_filter : (namedRows raw repaid due).filter (fun r => r.1.1.key = k) =
    namedRows raw (repaid.filter (fun r => transactionKey r = k)) (due.filter (fun r => dueKey r = k)) := by
  rw [namedRows_eq,namedRows_eq,← combined_filter,Multiset.filter_filterMap,Multiset.filterMap_filter]
  refine filterMap_congr (fun c _ => ?_)
  by_cases own : c.key = k
  · cases found : namesOf raw k <;> simp [own,found]
  · cases found : namesOf raw c.key <;> simp [own]

/-- The mart's rows of a group are made of the rows of the group. -/
theorem select_at : atKey MartRow.key k (select raw repaid recovered due) = select raw
    (repaid.filter (fun r => transactionKey r = k)) (recovered.filter (fun r => transactionKey r = k))
    (due.filter (fun r => dueKey r = k)) := by
  have joined : (leftJoin onRecovery (namedRows raw repaid due) (recoveryGroups recovered)).filter (fun r => r.1.1.1.key = k) =
      leftJoin onRecovery (namedRows raw (repaid.filter (fun r => transactionKey r = k)) (due.filter (fun r => dueKey r = k)))
        (recoveryGroups (recovered.filter (fun r => transactionKey r = k))) := by
    rw [leftJoin_filter (fun x : NamedRow => x.1.1.key = k),namedRows_filter,← recoveryGroups_filter]
    refine leftJoin_congr (fun x inside => ?_)
    rw [← namedRows_filter] at inside
    exact matching_filter_key (fun x y => onKeys_iff x y) (x := (x.1.1.key,())) (Multiset.mem_filter.mp inside).2
  rw [atKey,select,Multiset.filter_map]
  exact congrArg (Multiset.map selectMart) joined

private theorem ofType_filter (type : Int) (rows : Multiset PostedRow) :
    (ofType type rows).filter (fun r => transactionKey r = k) =
    ofType type (rows.filter (fun r => transactionKey r = k)) :=
  Multiset.filter_comm ..

/-- A build shows the groups of its window, and these in full. -/
theorem mart_at : atKey MartRow.key k (martRepaymentBehavior h run raw) = if Shows run k then groupOf h raw k else 0 := by
  have posted : (transactions h run raw).filter (fun r => transactionKey r = k) = if Shows run k
      then (rowsAt h raw (·.loanId) (·.transactionDate) (stagedTransactions raw).rows k).filter
        (fun r => r.1.2.isReversed = some false) else 0 := by
    have among : (inRecompute h run raw (·.loanId) (·.transactionDate) (stagedTransactions raw).rows).filter
        (fun r => martKey r.1.1 r.1.2.transactionDate r.2 = k) = if Shows run k
      then rowsAt h raw (·.loanId) (·.transactionDate) (stagedTransactions raw).rows k else 0 := inRecompute_at
    rw [transactions,Multiset.filter_comm]
    refine (congrArg (Multiset.filter _) among).trans ?_
    split <;> rfl
  have fall_due : (installments h run raw).filter (fun r => dueKey r = k) = if Shows run k then installmentsAt h raw k else 0 :=
    inRecompute_at
  rw [martRepaymentBehavior,select_at,ofType_filter,ofType_filter,posted,fall_due]
  split <;> rfl

end Group

/-- A transaction or an installment with the dimensions of its loan. -/
inductive Entry
  | posted (r : PostedRow)
  | due (r : DueRow)

def Entry.dimension : Entry → LoanDimension
  | .posted r => r.2
  | .due r => r.2

/-- The group of an entry. -/
def Entry.key : Entry → MartKey
  | .posted r => transactionKey r
  | .due r => dueKey r

/-- The staging tables have the entry as a repayment, a recovery or an installment of its loan. -/
def Entry.Staged (raw : RawTables) : Entry → Prop
  | .posted r => (stagedTransactions raw).get r.1.1 = some r.1.2 ∧ OfLoan r.2.loan r.1.1 r.1.2.loanId ∧
      r.1.2.isReversed = some false ∧ (r.1.2.transactionTypeEnum = some repayment ∨ r.1.2.transactionTypeEnum = some recovery)
  | .due r => (stagedInstallments raw).get r.1.1 = some r.1.2 ∧ OfLoan r.2.loan r.1.1 r.1.2.loanId

/-- The mart counts the entry. -/
def Counts (h : Hashes) (raw : RawTables) (e : Entry) : Prop :=
  e.Staged raw ∧ dimension h raw e.dimension.loan = some e.dimension

section Depends
variable {h : Hashes} {run : Option MartRun} {raw raw' : RawTables} {k : MartKey} {Row : Type} {loanId : Row → Option Int}
  {date : Row → Option Date} {repaid recovered : Multiset PostedRow} {due : Multiset DueRow}

theorem Entry.Staged.key_source {e : Entry} (staged : e.Staged raw) : e.key.sourceId = e.dimension.loan.sourceId := by
  cases e with
  | posted r => exact staged.2.1.1
  | due r => exact staged.2.1

theorem Entry.Staged.key_tenant {e : Entry} (staged : e.Staged raw) : e.key.tenantId = e.dimension.loan.tenantId := by
  cases e with
  | posted r => exact staged.2.1.2.1
  | due r => exact staged.2.2.1

/-- The office and product of an entry's group are those of its dimensions. -/
theorem Entry.key_partition (e : Entry) : e.key.officeId = e.dimension.officeId ∧ e.key.productId = e.dimension.productId := by
  cases e <;> exact ⟨rfl,rfl⟩

private theorem mem_rowsAt {rows : Relation Key Row} {r : (Key × Row) × LoanDimension} :
    r ∈ rowsAt h raw loanId date rows.rows k ↔
    rows.get r.1.1 = some r.1.2 ∧ OfLoan r.2.loan r.1.1 (loanId r.1.2) ∧ dimension h raw r.2.loan = some r.2 ∧
      martKey r.1.1 (date r.1.2) r.2 = k := by
  rw [rowsAt,Multiset.mem_filter,mem_join,Relation.mem_rows,mem_loanDimensions,and_assoc,and_assoc]
  refine and_congr_right (fun _ => ?_)
  rw [and_left_comm]
  refine and_congr_left (fun _ => ?_)
  simp only [onLoan,Delinquency.names,OfLoan,Bool.and_eq_true,decide_eq_true_eq,and_assoc]
  rw [eq_comm,and_congr_right_iff]
  intro _
  rw [eq_comm]

private theorem rowsAt_nodup (h : Hashes) (raw : RawTables) (loanId : Row → Option Int) (date : Row → Option Date)
    (rows : Relation Key Row) (k : MartKey) : (rowsAt h raw loanId date rows.rows k).Nodup := by
  have distinct : (loanDimensions h raw).Nodup := by
    rw [loanDimensions_eq]
    refine Multiset.Nodup.map_on ?_ (dimensions h raw).rows_nodup
    rintro ⟨l,d⟩ inside ⟨l',d'⟩ inside' same
    rw [Relation.mem_rows,dimensions_get] at inside inside'
    obtain rfl : d = d' := same
    rw [← dimension_loan inside,← dimension_loan inside']
  exact (join_nodup rows.rows_nodup distinct).filter _

private theorem mem_postedAt {type : Int} {r : PostedRow} (counted : type = repayment ∨ type = recovery) :
    r ∈ postedAt type h raw k ↔
    Counts h raw (.posted r) ∧ transactionKey r = k ∧ r.1.2.transactionTypeEnum = some type := by
  rw [postedAt,ofType,Multiset.mem_filter,Multiset.mem_filter,mem_rowsAt]
  simp only [Counts,Entry.Staged,Entry.dimension]
  constructor
  · rintro ⟨⟨⟨found,own,at_loan,keyed⟩,unreversed⟩,typed⟩
    refine ⟨⟨⟨found,own,unreversed,?_⟩,at_loan⟩,keyed,typed⟩
    rw [typed,Option.some.injEq,Option.some.injEq]
    exact counted
  · rintro ⟨⟨⟨found,own,unreversed,_⟩,at_loan⟩,keyed,typed⟩
    exact ⟨⟨⟨found,own,at_loan,keyed⟩,unreversed⟩,typed⟩

private theorem mem_installmentsAt {r : DueRow} : r ∈ installmentsAt h raw k ↔ Counts h raw (.due r) ∧ dueKey r = k := by
  rw [installmentsAt,mem_rowsAt]
  simp only [Counts,Entry.Staged,Entry.dimension,and_assoc]
  rfl

private theorem combined_key (repaid_key : ∀ r ∈ repaid, transactionKey r = k) (due_key : ∀ r ∈ due, dueKey r = k)
    {c : CombinedRow}
    (inside : c ∈ combined repaid due) : c.key = k := by
  have own : (combined repaid due).filter (fun c => c.key = k) = combined repaid due := by
    rw [combined_filter,Multiset.filter_eq_self.mpr repaid_key,Multiset.filter_eq_self.mpr due_key]
  rw [← own] at inside
  exact (Multiset.mem_filter.mp inside).2

/-- A group without repayments and installments is not in the mart. -/
theorem select_empty : select raw 0 recovered 0 = 0 := by
  have no_rows : namedRows raw 0 0 = 0 := by
    rw [namedRows_eq]
    rfl
  rw [select,no_rows]
  rfl

/-- A group without entries is not in the mart. -/
theorem groupOf_empty (none_counts : ∀ e, e.key = k → ¬Counts h raw e) : groupOf h raw k = 0 := by
  have no_repayments : postedAt repayment h raw k = 0 := by
    refine Multiset.eq_zero_of_forall_notMem (fun r inside => ?_)
    obtain ⟨counts,own,_⟩ := (mem_postedAt (.inl rfl)).mp inside
    exact none_counts (.posted r) own counts
  have no_installments : installmentsAt h raw k = 0 := by
    refine Multiset.eq_zero_of_forall_notMem (fun r inside => ?_)
    obtain ⟨counts,own⟩ := mem_installmentsAt.mp inside
    exact none_counts (.due r) own counts
  rw [groupOf,no_repayments,no_installments]
  exact select_empty

/-- An incremental build inserts the groups in the window as a full build has them, when these are not before 1900. -/
theorem select_window {run : MartRun} (begun : ∀ e, Counts h raw e → inWindow run e.key = true → Dated e.key.reportingDate)
    (k : MartKey) : atKey MartRow.key k (martRepaymentBehavior h (some run) raw) =
      if inWindow run k then atKey MartRow.key k (martRepaymentBehavior h none raw) else 0 := by
  rw [mart_at,mart_at]
  show (if inWindow run k = true then groupOf h raw k else 0) =
    if inWindow run k = true then (if Dated k.reportingDate then groupOf h raw k else 0) else 0
  split
  · next within =>
    split
    · rfl
    · next undated =>
      refine groupOf_empty (fun e own counts => undated ?_)
      subst own
      exact begun e counts within
  · rfl

/-- The mart shows of a group what the entries that it counts and the names of the group make. -/
theorem groupOf_congr (same : ∀ e, e.key = k → (Counts h raw e ↔ Counts h raw' e))
    (names : ∀ e, e.key = k → Counts h raw' e → namesOf raw k = namesOf raw' k) : groupOf h raw k = groupOf h raw' k := by
  have posted_same (type : Int) (counted : type = repayment ∨ type = recovery) : postedAt type h raw k = postedAt type h raw' k := by
    have distinct (raw : RawTables) : (postedAt type h raw k).Nodup := ((rowsAt_nodup ..).filter _).filter _
    refine ((distinct raw).ext (distinct raw')).mpr (fun r => ?_)
    rw [mem_postedAt counted,mem_postedAt counted]
    exact and_congr_left (fun own => same (.posted r) own.1)
  have due_same : installmentsAt h raw k = installmentsAt h raw' k := by
    refine ((rowsAt_nodup ..).ext (rowsAt_nodup ..)).mpr (fun r => ?_)
    exact mem_installmentsAt.trans ((and_congr_left (fun own => same (.due r) own)).trans mem_installmentsAt.symm)
  have keyed (c : CombinedRow) (inside : c ∈ combined (postedAt repayment h raw' k) (installmentsAt h raw' k)) : c.key = k :=
    combined_key (fun r member => ((mem_postedAt (.inl rfl)).mp member).2.1) (fun r member => (mem_installmentsAt.mp member).2)
      inside
  by_cases some_entry : ∃ e : Entry, e.key = k ∧ Counts h raw' e
  · obtain ⟨e,own,counts⟩ := some_entry
    have named : namedRows raw (postedAt repayment h raw' k) (installmentsAt h raw' k) =
        namedRows raw' (postedAt repayment h raw' k) (installmentsAt h raw' k) := by
      rw [namedRows_eq,namedRows_eq]
      exact filterMap_congr (fun c inside => by rw [keyed c inside,names e own counts])
    rw [groupOf,groupOf,posted_same _ (.inl rfl),posted_same _ (.inr rfl),due_same,select,select,named]
  · push Not at some_entry
    rw [groupOf_empty some_entry,groupOf_empty (fun e own counts => some_entry e own ((same e own).mp counts))]

end Depends

end FineractBi.RepaymentRefresh
