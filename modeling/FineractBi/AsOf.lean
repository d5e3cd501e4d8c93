import Mathlib.Data.Finset.Option
import FineractBi.LoanSnapshot

/-!
The values that `int_loan_delinquency_status` carries along the timeline of a
loan, against their definitions: days past due from the schedule, the balance
of the last transaction and the obligations satisfied up to a date.
-/
namespace FineractBi.AsOf
open Calendar Window FineractBi.Contract FineractBi.ApplyBatch FineractBi.Staging FineractBi.LoanSnapshot

/-- An installment is due before a date and not met by then. -/
def overdue (d : Date) (i : Installment) : Bool :=
  match i.duedate with
  | none => false
  | some due => due < d && (match i.obligationsMetOnDate with
    | none => true
    | some met => d < met)

/-- The smallest due date of an overdue installment. -/
def oldestOverdue (installments : Finset (Key × Installment)) (d : Date) : WithTop Date :=
  (installments.filter (fun i => overdue d i.2)).inf (fun i => nullsLast i.2.duedate)

/-- Days past due as the schedule has them. -/
def scheduleDaysPastDue (installments : Finset (Key × Installment)) (d : Date) : Int :=
  match oldestOverdue installments d with
  | ⊤ => 0
  | (due : Date) => d - due

/-- The column `days_past_due` of `as_of`, for a loan and one of its snapshot dates. -/
def computedDaysPastDue (raw : RawTables) (scope : Relation Key Scope) (today : Date) (l : Key) (d : Date) : Int :=
  match loanBase raw l with
  | none => 0
  | some base => (asOf (timeline raw l (loanSnapshots scope today l base)) d).daysPastDue

/-- Days past due and the flags of a row follow the schedule. -/
structure FollowsSchedule (installments : Finset (Key × Installment)) (d : Date) (daysPastDue : Int) (row : StatusRow) :
    Prop where
  daysPastDue : daysPastDue = scheduleDaysPastDue installments d
  isWatchList : row.isWatchList = true ↔ 1 ≤ scheduleDaysPastDue installments d ∧ scheduleDaysPastDue installments d ≤ 29
  isPar30 : row.isPar30 = true ↔ 30 ≤ scheduleDaysPastDue installments d
  isPar60 : row.isPar60 = true ↔ 60 ≤ scheduleDaysPastDue installments d
  isPar90 : row.isPar90 = true ↔ 90 ≤ scheduleDaysPastDue installments d

/-- When an installment is overdue, a due date or payment date of the loan lies after the due date of
    an overdue installment and not after the date. -/
def Refreshed (installments : Finset (Key × Installment)) (d : Date) : Prop :=
  ∀ i ∈ installments, overdue d i.2 → ∃ j ∈ installments, overdue d j.2 ∧
    ∃ due, j.2.duedate = some due ∧ ∃ e, some e ∈ installmentEvents installments ∧ due < e ∧ e ≤ d

section Places
variable {p : TimelinePoint} {x d : Date}

/-- The transactions and events of a date come before its snapshot. -/
theorem pointPlace_upto (kind : p.kind = 0) (dated : p.pointDate = some x) :
    pointPlace p ≤ pointPlace (snapshotPoint d) ↔ x ≤ d := by
  constructor
  · intro before
    obtain ⟨y,dated',le⟩ := pointPlace_le before
    rw [dated] at dated'
    rwa [Option.some.inj dated']
  · intro le
    rcases le.lt_or_eq with less | rfl
    · refine (Prod.Lex.toLex_lt_toLex.mpr (.inl ?_)).le
      rw [dated]
      exact WithTop.coe_lt_coe.mpr less
    · refine (Prod.Lex.toLex_lt_toLex.mpr (.inr ⟨?_,Prod.Lex.toLex_lt_toLex.mpr (.inl ?_)⟩)).le
      · rw [dated]; rfl
      · rw [kind]; exact Int.zero_lt_one

end Places

section Overdue
variable {raw : RawTables} {l : Key} {dates : Finset Date} {installments : Finset (Key × Installment)} {d e : Date}
  {i : Key × Installment}

private theorem overdue_iff : overdue d i.2 = true ↔
    ∃ due, i.2.duedate = some due ∧ due < d ∧ ∀ met ∈ i.2.obligationsMetOnDate, d < met := by
  unfold overdue
  cases i.2.duedate with
  | none => simp
  | some due =>
    cases i.2.obligationsMetOnDate with
    | none => simp
    | some met => simp

private theorem unpaidAsOf_iff : unpaidAsOf (some e) i.2 = true ↔
    ∃ due, i.2.duedate = some due ∧ due < e ∧ e < resolvedDate i.2 := by
  unfold unpaidAsOf
  cases i.2.duedate with
  | none => simp
  | some due => simp

/-- Only the schedule events bring an oldest unpaid due date. -/
theorem event_of_oldest {p : TimelinePoint} (member : p ∈ timeline raw l dates) (bearing : p.oldestUnpaid.isSome) :
    ∃ e ∈ installmentEvents (installmentStatus raw l), eventPoint (installmentStatus raw l) e = p := by
  rcases (mem_timeline (.inr (.inr bearing))).mp member with ⟨t,_,rfl⟩ | found
  · simp [transactionPoint] at bearing
  · exact found

private theorem event_mem (event : some e ∈ installmentEvents (installmentStatus raw l)) :
    eventPoint (installmentStatus raw l) (some e) ∈ timeline raw l dates :=
  (mem_timeline (.inr (.inr rfl))).mpr (.inr ⟨some e,event,rfl⟩)

/-- What is carried to a date is the answer at the last event up to it. -/
theorem oldestUnpaid_carried (event : some e ∈ installmentEvents (installmentStatus raw l)) (upto : e ≤ d)
    (last : ∀ x ≤ d, some x ∈ installmentEvents (installmentStatus raw l) → x ≤ e) :
    carried (timeline raw l dates) pointPlace (·.oldestUnpaid) (snapshotPoint d) =
      some (oldestUnpaidAsOfEvent (installmentStatus raw l) (some e)) := by
  refine carried_last (event_mem event) rfl ((pointPlace_upto rfl rfl).mpr upto) ?_
  intro r inside bearing earlier other
  obtain ⟨x,event',rfl⟩ := event_of_oldest inside bearing
  obtain ⟨y,dated,le⟩ := pointPlace_le earlier
  obtain rfl : x = some y := dated
  have differs : y ≠ e := by
    rintro rfl
    exact other rfl
  exact Prod.Lex.toLex_lt_toLex.mpr (.inl (WithTop.coe_lt_coe.mpr (lt_of_le_of_ne (last y le event') differs)))

private theorem oldestUnpaid_uncarried (uneventful : ∀ x ≤ d, some x ∉ installmentEvents (installmentStatus raw l)) :
    carried (timeline raw l dates) pointPlace (·.oldestUnpaid) (snapshotPoint d) = none := by
  refine carried_none ?_
  intro r inside bearing earlier
  obtain ⟨x,event,rfl⟩ := event_of_oldest inside bearing
  obtain ⟨y,dated,le⟩ := pointPlace_le earlier
  obtain rfl : x = some y := dated
  exact uneventful y le event

private theorem due_event {due : Date} (member : i ∈ installments) (dated : i.2.duedate = some due) :
    some due ∈ installmentEvents installments :=
  Finset.mem_union_left _ (Finset.mem_image.mpr ⟨i,member,dated⟩)

private theorem met_event {met : Date} (member : i ∈ installments) (dated : i.2.obligationsMetOnDate = some met)
    (before : met < endOfTime) : some met ∈ installmentEvents installments := by
  have resolved : resolvedDate i.2 = met := by rw [resolvedDate,dated]; rfl
  refine Finset.mem_union_right _ (Finset.mem_image.mpr ⟨i,Finset.mem_filter.mpr ⟨member,?_⟩,by rw [resolved]⟩)
  rwa [resolved]

/-- Between two events nothing is paid: what is unpaid at the last event is overdue on the date. -/
theorem unpaid_iff_overdue (present : d < endOfTime) (upto : e ≤ d)
    (last : ∀ x ≤ d, some x ∈ installmentEvents installments → x ≤ e) (member : i ∈ installments) :
    unpaidAsOf (some e) i.2 = true ↔ overdue d i.2 = true ∧ ∃ due, i.2.duedate = some due ∧ due < e := by
  rw [unpaidAsOf_iff,overdue_iff]
  constructor
  · rintro ⟨due,dated,before,unresolved⟩
    refine ⟨⟨due,dated,lt_of_lt_of_le before upto,?_⟩,due,dated,before⟩
    intro met paid
    by_contra past
    have le := not_lt.mp past
    have resolved : resolvedDate i.2 = met := by rw [resolvedDate,Option.mem_def.mp paid]; rfl
    rw [resolved] at unresolved
    exact absurd (last met le (met_event member paid (lt_of_le_of_lt le present))) (not_le.mpr unresolved)
  · rintro ⟨⟨due,dated,_,unmet⟩,due',dated',before⟩
    refine ⟨due',dated',before,?_⟩
    unfold resolvedDate
    cases paid : i.2.obligationsMetOnDate with
    | none => exact lt_of_le_of_lt upto present
    | some met => exact lt_of_le_of_lt upto (unmet met paid)

/-- The oldest of the overdue installments. -/
theorem oldest_overdue (member : i ∈ installments) (late : overdue d i.2 = true) :
    ∃ j ∈ installments, overdue d j.2 = true ∧ ∃ due, j.2.duedate = some due ∧ due < d ∧
      oldestOverdue installments d = (due : Date) ∧
      ∀ k ∈ installments, overdue d k.2 = true → ∀ x, k.2.duedate = some x → due ≤ x := by
  obtain ⟨j,inside,least⟩ := (installments.filter (fun i => overdue d i.2)).exists_min_image
    (fun i => nullsLast i.2.duedate) ⟨i,Finset.mem_filter.mpr ⟨member,late⟩⟩
  obtain ⟨among,late_j⟩ := Finset.mem_filter.mp inside
  obtain ⟨due,dated,before,_⟩ := overdue_iff.mp late_j
  refine ⟨j,among,late_j,due,dated,before,?_,?_⟩
  · refine le_antisymm ?_ (Finset.le_inf (fun k late_k => ?_))
    · exact (Finset.inf_le inside).trans (by rw [dated]; rfl)
    · have le := least k late_k
      rwa [dated] at le
  · intro k among_k late_k x dated_k
    have le := least k (Finset.mem_filter.mpr ⟨among_k,late_k⟩)
    rw [dated,dated_k] at le
    exact WithTop.coe_le_coe.mp le

private theorem not_overdue (none_late : ∀ i ∈ installments, overdue d i.2 = false) :
    scheduleDaysPastDue installments d = 0 := by
  have empty : installments.filter (fun i => overdue d i.2) = ∅ :=
    Finset.filter_eq_empty_iff.mpr (fun i member => by simp [none_late i member])
  simp [scheduleDaysPastDue,oldestOverdue,empty]

private theorem last_event {x : Date} (event : some x ∈ installmentEvents installments) (upto : x ≤ d) :
    ∃ e ≤ d, some e ∈ installmentEvents installments ∧ ∀ y ≤ d, some y ∈ installmentEvents installments → y ≤ e := by
  obtain ⟨e,member,greatest⟩ := ((Finset.eraseNone (installmentEvents installments)).filter (· ≤ d)).exists_max_image id
    ⟨x,Finset.mem_filter.mpr ⟨Finset.mem_eraseNone.mpr event,upto⟩⟩
  obtain ⟨inside,le⟩ := Finset.mem_filter.mp member
  refine ⟨e,le,Finset.mem_eraseNone.mp inside,fun y before event_y => ?_⟩
  exact greatest y (Finset.mem_filter.mpr ⟨Finset.mem_eraseNone.mpr event_y,before⟩)

/-- What the last event says, when an installment that is overdue now was overdue then. -/
theorem oldestUnpaid_refreshed (present : d < endOfTime) (upto : e ≤ d)
    (last : ∀ x ≤ d, some x ∈ installmentEvents installments → x ≤ e) {j : Key × Installment} (among : j ∈ installments)
    (late : overdue d j.2 = true) {due : Date} (dated : j.2.duedate = some due) (before : due < e) :
    ∃ oldest : Date, oldestOverdue installments d = oldest ∧ oldest < d ∧
      oldestUnpaidAsOfEvent installments (some e) = oldest := by
  obtain ⟨k,among_k,late_k,oldest,dated_k,past,at_oldest,least⟩ := oldest_overdue among late
  have earlier : oldest < e := lt_of_le_of_lt (least j among late due dated) before
  refine ⟨oldest,at_oldest,past,?_⟩
  have inf_eq : (installments.filter (fun i => unpaidAsOf (some e) i.2)).inf (fun i => nullsLast i.2.duedate) =
      (oldest : WithTop Date) := by
    refine le_antisymm ?_ (Finset.le_inf (fun m unpaid => ?_))
    · have inside : k ∈ installments.filter (fun i => unpaidAsOf (some e) i.2) :=
        Finset.mem_filter.mpr ⟨among_k,(unpaid_iff_overdue present upto last among_k).mpr ⟨late_k,oldest,dated_k,earlier⟩⟩
      exact (Finset.inf_le inside).trans (by rw [dated_k]; rfl)
    · obtain ⟨among_m,unpaid⟩ := Finset.mem_filter.mp unpaid
      obtain ⟨late_m,x,dated_m,_⟩ := (unpaid_iff_overdue present upto last among_m).mp unpaid
      rw [dated_m]
      exact WithTop.coe_le_coe.mpr (least m among_m late_m x dated_m)
  rw [oldestUnpaidAsOfEvent,inf_eq,WithTop.untopD_coe]

/-- Carried days past due are right exactly on the dates that an event has refreshed. -/
theorem daysPastDue_eq_iff (present : d < endOfTime) : (asOf (timeline raw l dates) d).daysPastDue =
    scheduleDaysPastDue (installmentStatus raw l) d ↔ Refreshed (installmentStatus raw l) d := by
  simp only [asOf]
  by_cases late : ∃ i ∈ installmentStatus raw l, overdue d i.2 = true
  · obtain ⟨i,member,late⟩ := late
    obtain ⟨_,_,_,oldest,_,past,at_oldest,_⟩ := oldest_overdue member late
    obtain ⟨due_i,dated_i,before_i,_⟩ := overdue_iff.mp late
    obtain ⟨e,upto,event,last⟩ := last_event (due_event member dated_i) before_i.le
    rw [oldestUnpaid_carried event upto last]
    simp only [scheduleDaysPastDue,at_oldest,LoanSnapshot.daysPastDue]
    constructor
    · intro same
      -- nothing unpaid at the last event would mean no days past due
      by_contra stale
      have unpaid : (installmentStatus raw l).filter (fun i => unpaidAsOf (some e) i.2) = ∅ := by
        refine Finset.filter_eq_empty_iff.mpr (fun j among unpaid => stale ?_)
        obtain ⟨late_j,due,dated,before⟩ := (unpaid_iff_overdue present upto last among).mp unpaid
        exact fun _ _ _ => ⟨j,among,late_j,due,dated,e,event,before,upto⟩
      have zero : d - oldest = 0 := by simpa [oldestUnpaidAsOfEvent,unpaid] using same.symm
      exact absurd (sub_eq_zero.mp zero) past.ne'
    · intro refreshed
      obtain ⟨j,among,late_j,due,dated,x,event_x,before,upto_x⟩ := refreshed i member late
      obtain ⟨oldest',at_oldest',past',answer⟩ := oldestUnpaid_refreshed present upto last among late_j dated
        (lt_of_lt_of_le before (last x upto_x event_x))
      obtain rfl : oldest = oldest' := WithTop.coe_injective (at_oldest.symm.trans at_oldest')
      rw [answer,if_neg (not_le.mpr (past.trans present))]
  · have none_late : ∀ i ∈ installmentStatus raw l, overdue d i.2 = false := by
      intro i member
      by_contra overdue_i
      exact late ⟨i,member,by simpa using overdue_i⟩
    have refreshed : Refreshed (installmentStatus raw l) d := fun i member late_i => absurd ⟨i,member,late_i⟩ late
    refine iff_of_true ?_ refreshed
    rw [not_overdue none_late]
    by_cases eventful : ∃ x ≤ d, some x ∈ installmentEvents (installmentStatus raw l)
    · obtain ⟨x,upto_x,event_x⟩ := eventful
      obtain ⟨e,upto,event,last⟩ := last_event event_x upto_x
      have unpaid : (installmentStatus raw l).filter (fun i => unpaidAsOf (some e) i.2) = ∅ := by
        refine Finset.filter_eq_empty_iff.mpr (fun j among unpaid => late ⟨j,among,?_⟩)
        exact ((unpaid_iff_overdue present upto last among).mp unpaid).1
      rw [oldestUnpaid_carried event upto last]
      simp [LoanSnapshot.daysPastDue,oldestUnpaidAsOfEvent,unpaid]
    · rw [oldestUnpaid_uncarried (fun x upto event => eventful ⟨x,upto,event⟩)]
      rfl

end Overdue

/-- The rows of the model: the select list of a loan on its snapshot dates. -/
theorem status_eq_some {h : Hashes} {raw : RawTables} {scope : Relation Key Scope} {l : Key} {d today : Date}
    {row : StatusRow} : (intLoanDelinquencyStatus h raw scope today).get (l,d) = some row ↔
    ∃ base, loanBase raw l = some base ∧ d ∈ loanSnapshots scope today l base ∧
      statusRow h raw l base (loanSnapshots scope today l base) d = row := by
  simp only [intLoanDelinquencyStatus,Relation.tabulate_get,Finset.mem_product]
  constructor
  · intro found
    split at found
    · obtain ⟨base,at_l,kept⟩ := Option.bind_eq_some_iff.mp found
      split at kept
      · next dated => exact ⟨base,at_l,dated,Option.some.inj kept⟩
      · cases kept
    · cases found
  · rintro ⟨base,at_l,dated,rfl⟩
    have key : l ∈ (stgMLoan raw).keys := (Relation.mem_keys _ l).mpr (by simp [loanBase_loan at_l])
    have on_spine : d ∈ dateSpine scope today := by
      unfold loanSnapshots at dated
      split at dated
      · simp at dated
      · exact (Finset.mem_filter.mp dated).1
    simp [key,on_spine,at_l,dated]

private theorem snapshot_upto {scope : Relation Key Scope} {l : Key} {base : LoanBase} {d today : Date}
    (dated : d ∈ loanSnapshots scope today l base) : d ≤ today := by
  unfold loanSnapshots at dated
  split at dated
  · simp at dated
  · exact (mem_generateSeries.mp (Finset.mem_filter.mp dated).1).2

/-- The rows of the model follow the schedule of their loan exactly when it has been refreshed. -/
theorem follows_schedule_iff (h : Hashes) (raw : RawTables) (scope : Relation Key Scope) (l : Key) (d today : Date)
    {row : StatusRow} (calendar : today < endOfTime)
    (found : (intLoanDelinquencyStatus h raw scope today).get (l,d) = some row) :
    FollowsSchedule (installmentStatus raw l) d (computedDaysPastDue raw scope today l d) row ↔
      Refreshed (installmentStatus raw l) d := by
  obtain ⟨base,at_l,dated,rfl⟩ := status_eq_some.mp found
  have computed : computedDaysPastDue raw scope today l d =
      (asOf (timeline raw l (loanSnapshots scope today l base)) d).daysPastDue := by
    rw [computedDaysPastDue,at_l]
  have right_iff : (asOf (timeline raw l (loanSnapshots scope today l base)) d).daysPastDue =
      scheduleDaysPastDue (installmentStatus raw l) d ↔ Refreshed (installmentStatus raw l) d :=
    daysPastDue_eq_iff (lt_of_le_of_lt (snapshot_upto dated) calendar)
  rw [← right_iff,computed]
  constructor
  · intro follows
    exact follows.daysPastDue
  · intro same
    refine ⟨same,?_,?_,?_,?_⟩
    · simp only [statusRow,same,Bool.and_eq_true,decide_eq_true_eq]
      omega
    · simp only [statusRow,same,decide_eq_true_eq]
    · simp only [statusRow,same,decide_eq_true_eq]
    · simp only [statusRow,same,decide_eq_true_eq]

/-- A loan with one installment due on 1 February and, if wanted, one due on 1 March, both unpaid. -/
def unpaidLoan (second : Bool) : RawTables := rawOf
  ([(.mClient,1,[("office_id",.int 1)]),
    (.mLoan,1,[("client_id",.int 1),("disbursedon_date",.date (ofCivil 2025 1 1)),("principal_disbursed_derived",.numeric 100)]),
    (.mLoanRepaymentSchedule,1,[("loan_id",.int 1),("duedate",.date (ofCivil 2025 2 1))])] ++
    if second then [(.mLoanRepaymentSchedule,2,[("loan_id",.int 1),("duedate",.date (ofCivil 2025 3 1))])] else [])

def wholeScope : Relation Key Scope :=
  Relation.tabulate {branchKey 1} (fun _ => some ⟨ofCivil 2025 3 15,some (ofCivil 2025 3 15)⟩)

def plainHashes : Hashes := ⟨fun _ _ _ => none,fun text => text⟩

/-- What the model says of the loan on 15 March: the row, and the days past due behind it. -/
def inMarch (second : Bool) : Option StatusRow × Int :=
  ((intLoanDelinquencyStatus plainHashes (unpaidLoan second) wholeScope (ofCivil 2025 3 15)).get
    (branchKey 1,ofCivil 2025 3 15),
   computedDaysPastDue (unpaidLoan second) wholeScope (ofCivil 2025 3 15) (branchKey 1) (ofCivil 2025 3 15))

/-- With the second due date passed, the loan is 42 days past due in the model as in the schedule. -/
theorem second_due_date_refreshes : ∃ row, (inMarch true).1 = some row ∧
    FollowsSchedule (installmentStatus (unpaidLoan true) (branchKey 1)) (ofCivil 2025 3 15) (inMarch true).2 row := by
  have present : (inMarch true).1.isSome := by decide +kernel
  obtain ⟨row,found⟩ := Option.isSome_iff_exists.mp present
  refine ⟨row,found,(follows_schedule_iff plainHashes (unpaidLoan true) wholeScope (branchKey 1) (ofCivil 2025 3 15)
    (ofCivil 2025 3 15) (by decide) found).mpr ?_⟩
  intro i member late
  refine ⟨(branchKey 1,⟨some 1,some (ofCivil 2025 2 1),none⟩),?_,by decide,ofCivil 2025 2 1,rfl,ofCivil 2025 3 1,?_,
    by decide,by decide⟩
  · decide +kernel
  · decide +kernel

/-- With one installment alone the model never sees it fall due: on 15 March it is 42 days late by the
    schedule, and 0 days past due and performing in the model. -/
theorem single_installment_never_late : ∃ row, (inMarch false).1 = some row ∧ (inMarch false).2 = 0 ∧
    row.standardParBand = "Performing" ∧
    scheduleDaysPastDue (installmentStatus (unpaidLoan false) (branchKey 1)) (ofCivil 2025 3 15) = 42 ∧
    ¬FollowsSchedule (installmentStatus (unpaidLoan false) (branchKey 1)) (ofCivil 2025 3 15) (inMarch false).2 row := by
  have values : (inMarch false).1.map (·.standardParBand) = some "Performing" ∧ (inMarch false).2 = 0 ∧
      scheduleDaysPastDue (installmentStatus (unpaidLoan false) (branchKey 1)) (ofCivil 2025 3 15) = 42 := by
    decide +kernel
  obtain ⟨band,computed,scheduled⟩ := values
  obtain ⟨row,found,performing⟩ := Option.map_eq_some_iff.mp band
  refine ⟨row,found,computed,performing,scheduled,?_⟩
  intro follows
  have same := follows.daysPastDue
  rw [computed,scheduled] at same
  exact absurd same (by decide)

/-- A transaction is dated up to a date. -/
def seenBy (d : Date) (t : Transaction) : Bool :=
  match t.transactionDate with
  | none => false
  | some x => x ≤ d

/-- The transactions of a loan that are not reversed, up to a date. -/
def seen (raw : RawTables) (l : Key) (d : Date) : Finset (Key × Transaction) :=
  (scopedTransactions raw l).filter (fun t => seenBy d t.2)

/-- The transaction is the last up to the date, by date and id, of those with a balance. -/
def ShowsBalance (raw : RawTables) (l : Key) (d : Date) (t : Key × Transaction) : Prop :=
  t ∈ seen raw l d ∧ t.2.outstandingLoanBalanceDerived.isSome ∧
    ∀ u ∈ seen raw l d, u.2.outstandingLoanBalanceDerived.isSome → transactionPlace u ≤ transactionPlace t

/-- The sum of the portions of the transactions up to a date. -/
def satisfied (raw : RawTables) (l : Key) (d : Date) : Rat := (seen raw l d).sum (fun t => Transaction.portions t.2)

/-- `greatest(x, 0)`, which leaves NULL out. -/
def greatestZero : Option Rat → Rat
  | none => 0
  | some x => max x 0

/-- The amounts of a row are those of the loan as of the date. -/
structure AsDefined (raw : RawTables) (l : Key) (d : Date) (base : LoanBase) (row : StatusRow) : Prop where
  principalOutstanding :
    (∃ t, ShowsBalance raw l d t ∧ row.principalOutstanding = t.2.outstandingLoanBalanceDerived) ∨
    ((∀ t ∈ seen raw l d, t.2.outstandingLoanBalanceDerived = none) ∧
      row.principalOutstanding = base.loan.principalDisbursedDerived)
  totalOutstanding : row.totalOutstanding =
    greatestZero (base.loan.totalExpectedRepaymentDerived.map (· - satisfied raw l d))

section Balances
variable {raw : RawTables} {l : Key} {dates : Finset Date} {d : Date} {t u : Key × Transaction}

private theorem seenBy_iff : seenBy d t.2 = true ↔ ∃ x, t.2.transactionDate = some x ∧ x ≤ d := by
  unfold seenBy
  cases t.2.transactionDate with
  | none => simp
  | some x => simp

/-- The transactions of one loan are told apart by their ids. -/
theorem transaction_id (member : t ∈ scopedTransactions raw l) (other : u ∈ scopedTransactions raw l)
    (same : t.1.id = u.1.id) : t = u := by
  obtain ⟨found,⟨source,tenant,_⟩,_⟩ := Finset.mem_filter.mp member
  obtain ⟨found',⟨source',tenant',_⟩,_⟩ := Finset.mem_filter.mp other
  have key : t.1 = u.1 := by
    obtain ⟨⟨_,_,_⟩,_⟩ := t
    obtain ⟨⟨_,_,_⟩,_⟩ := u
    simp_all
  exact Relation.rows_key_injective t found u found' key

/-- Transactions have the order of their ids within a date on the timeline too. -/
theorem transactionPoint_lt {ts : Finset (Key × Transaction)} (le : transactionPlace u ≤ transactionPlace t)
    (other : t.1.id ≠ u.1.id) : pointPlace (transactionPoint ts u) < pointPlace (transactionPoint ts t) := by
  rcases Prod.Lex.toLex_le_toLex.mp le with earlier | ⟨same,ids⟩
  · exact Prod.Lex.toLex_lt_toLex.mpr (.inl earlier)
  · refine Prod.Lex.toLex_lt_toLex.mpr (.inr ⟨same,Prod.Lex.toLex_lt_toLex.mpr (.inr ⟨rfl,?_⟩)⟩)
    exact WithBot.coe_lt_coe.mpr (lt_of_le_of_ne ids other.symm)

/-- A point with a balance or an obligation is a transaction. -/
theorem transaction_of_point {p : TimelinePoint} (member : p ∈ timeline raw l dates)
    (bearing : p.balance.isSome ∨ p.cumulativeObligation.isSome) :
    ∃ t ∈ scopedTransactions raw l, transactionPoint (scopedTransactions raw l) t = p := by
  rcases (mem_timeline (bearing.imp_right Or.inl)).mp member with found | ⟨e,_,rfl⟩
  · exact found
  · simp [eventPoint] at bearing

private theorem transaction_point (member : t ∈ scopedTransactions raw l) :
    transactionPoint (scopedTransactions raw l) t ∈ timeline raw l dates :=
  (mem_timeline (.inr (.inl rfl))).mpr (.inl ⟨t,member,rfl⟩)

private theorem seen_upto (member : t ∈ scopedTransactions raw l) :
    pointPlace (transactionPoint (scopedTransactions raw l) t) ≤ pointPlace (snapshotPoint d) ↔ t ∈ seen raw l d := by
  rw [seen,Finset.mem_filter,seenBy_iff]
  constructor
  · intro before
    obtain ⟨x,dated,le⟩ := pointPlace_le before
    exact ⟨member,x,dated,le⟩
  · rintro ⟨_,x,dated,le⟩
    exact (pointPlace_upto rfl dated).mpr le

/-- A column that only transactions bring is carried from the last transaction up to the date that brings it. -/
theorem transaction_carried {value : TimelinePoint → Option Rat} {v : Rat}
    (only : ∀ p ∈ timeline raw l dates, (value p).isSome → p.balance.isSome ∨ p.cumulativeObligation.isSome)
    (member : t ∈ seen raw l d) (brings : value (transactionPoint (scopedTransactions raw l) t) = some v)
    (last : ∀ u ∈ seen raw l d, (value (transactionPoint (scopedTransactions raw l) u)).isSome →
      transactionPlace u ≤ transactionPlace t) :
    carried (timeline raw l dates) pointPlace value (snapshotPoint d) = some v := by
  have inside := (Finset.mem_filter.mp member).1
  refine carried_last (transaction_point inside) brings ((seen_upto inside).mpr member) ?_
  intro r among bearing before other
  obtain ⟨u,inside',rfl⟩ := transaction_of_point among (only r among bearing)
  refine transactionPoint_lt (last u ((seen_upto inside').mp before) bearing) (fun same => other ?_)
  rw [transaction_id inside inside' same]

private theorem transaction_uncarried {value : TimelinePoint → Option Rat}
    (only : ∀ p ∈ timeline raw l dates, (value p).isSome → p.balance.isSome ∨ p.cumulativeObligation.isSome)
    (none_seen : ∀ u ∈ seen raw l d, value (transactionPoint (scopedTransactions raw l) u) = none) :
    carried (timeline raw l dates) pointPlace value (snapshotPoint d) = none := by
  refine carried_none ?_
  intro r among bearing before
  obtain ⟨u,inside,rfl⟩ := transaction_of_point among (only r among bearing)
  rw [none_seen u ((seen_upto inside).mp before)] at bearing
  cases bearing

/-- The running sum at the last transaction up to a date is the sum up to the date. -/
theorem cumulative_last (member : t ∈ seen raw l d)
    (last : ∀ u ∈ seen raw l d, transactionPlace u ≤ transactionPlace t) :
    cumulativeObligationSatisfied (scopedTransactions raw l) t = satisfied raw l d := by
  have sums : (scopedTransactions raw l).filter (fun u => transactionPlace u ≤ transactionPlace t) = seen raw l d := by
    ext u
    rw [Finset.mem_filter]
    constructor
    · rintro ⟨inside,le⟩
      obtain ⟨x,dated,upto⟩ := seenBy_iff.mp (Finset.mem_filter.mp member).2
      have before : nullsLast u.2.transactionDate ≤ nullsLast t.2.transactionDate := Prod.Lex.monotone_fst _ _ le
      refine Finset.mem_filter.mpr ⟨inside,seenBy_iff.mpr ?_⟩
      cases dated_u : u.2.transactionDate with
      | none => rw [dated,dated_u] at before; exact absurd before (not_le.mpr (WithTop.coe_lt_top x))
      | some y =>
        rw [dated,dated_u] at before
        exact ⟨y,rfl,(WithTop.coe_le_coe.mp before).trans upto⟩
    · intro inside
      exact ⟨(Finset.mem_filter.mp inside).1,last u inside⟩
  rw [cumulativeObligationSatisfied,sums,satisfied]

private theorem obligation_carried : ((carried (timeline raw l dates) pointPlace (·.cumulativeObligation) (snapshotPoint d)).getD 0) =
    satisfied raw l d := by
  rcases (seen raw l d).eq_empty_or_nonempty with empty | inhabited
  · rw [transaction_uncarried (fun _ _ => .inr) (by simp [empty]),satisfied,empty]
    rfl
  · obtain ⟨t,member,last⟩ := (seen raw l d).exists_max_image transactionPlace inhabited
    rw [transaction_carried (fun _ _ => .inr) member rfl (fun u inside _ => last u inside),Option.getD_some,
      cumulative_last member last]

private theorem balance_carried {shown : Key × Transaction} (shows : ShowsBalance raw l d shown) :
    carried (timeline raw l dates) pointPlace (·.balance) (snapshotPoint d) = shown.2.outstandingLoanBalanceDerived := by
  obtain ⟨member,bears,last⟩ := shows
  obtain ⟨v,at_v⟩ := Option.isSome_iff_exists.mp bears
  rw [transaction_carried (fun _ _ => .inl) member at_v last,at_v]

/-- The amounts of the select list are those as of the date. -/
theorem statusRow_asDefined {h : Hashes} {base : LoanBase} :
    AsDefined raw l d base (statusRow h raw l base dates d) := by
  constructor
  · rcases ((seen raw l d).filter (fun t => t.2.outstandingLoanBalanceDerived.isSome)).eq_empty_or_nonempty with
      empty | inhabited
    · have none_seen : ∀ t ∈ seen raw l d, t.2.outstandingLoanBalanceDerived = none := by
        intro t member
        simpa using Finset.filter_eq_empty_iff.mp empty member
      refine .inr ⟨none_seen,?_⟩
      simp only [statusRow,asOf]
      rw [transaction_uncarried (fun _ _ => .inl) none_seen,Option.none_or]
    · obtain ⟨t,member,last⟩ := Finset.exists_max_image _ transactionPlace inhabited
      obtain ⟨inside,bears⟩ := Finset.mem_filter.mp member
      have shows : ShowsBalance raw l d t :=
        ⟨inside,bears,fun u other has => last u (Finset.mem_filter.mpr ⟨other,has⟩)⟩
      refine .inl ⟨t,shows,?_⟩
      simp only [statusRow,asOf]
      rw [balance_carried shows,Option.or_of_isSome bears]
  · simp only [statusRow,asOf,obligation_carried]
    cases base.loan.totalExpectedRepaymentDerived <;> rfl

end Balances

end FineractBi.AsOf
