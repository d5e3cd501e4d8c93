import FineractBi.AsOf
import FineractBi.Delinquency

/-!
`int_loan_delinquency_status` as the query computes it: loans joined with their
scope and client, one row for each of their snapshot dates, left joined with the
delinquency tags in force, of which `row_number()` keeps one. The rows are those
of `intLoanDelinquencyStatus` (`statusRows_eq`).
-/
namespace FineractBi.StatusQuery
open Calendar Query Window FineractBi.Contract FineractBi.ApplyBatch FineractBi.Staging FineractBi.LoanSnapshot
open FineractBi.Delinquency

/-- A row of `loan_base`. -/
structure LoanBaseRow where
  loan : Key
  base : LoanBase
  fromDate : Date

def onScope (l : Key × Loan) (s : Key × Scope) : Bool := s.1 = l.1

def onClient (l : (Key × Loan) × (Key × Scope)) (c : Key × Client) : Bool := names l.1.1 l.1.2.clientId c.1

/-- The select list of `loan_base`, `where disbursedon_date is not null`. -/
def selectBase (row : ((Key × Loan) × (Key × Scope)) × (Key × Client)) : Option LoanBaseRow :=
  row.1.1.2.disbursedonDate.map (fun disbursed =>
    ⟨row.1.1.1,⟨row.1.1.2,disbursed,row.2.1.id,row.2.2⟩,row.1.2.2.fromDate⟩)

def loanBaseRows (raw : RawTables) (scope : Relation Key Scope) : Multiset LoanBaseRow :=
  (join onClient (join onScope (stgMLoan raw).rows scope.rows) (stgMClient raw).rows).filterMap selectBase

/-- A row of `loan_snapshots`. -/
abbrev SnapshotRow := LoanBaseRow × Date

def onSpine (today : Date) (b : LoanBaseRow) (d : Date) : Bool :=
  max b.base.disbursedonDate b.fromDate ≤ d && d ≤ effectiveMaturityDate today b.base.loan

def snapshotRows (raw : RawTables) (scope : Relation Key Scope) (today : Date) : Multiset SnapshotRow :=
  join (onSpine today) (loanBaseRows raw scope) (dateSpine scope today).val

/-- The snapshot dates of a loan in the timeline. -/
def datesOf (snapshots : Multiset SnapshotRow) (l : Key) : Finset Date :=
  ((snapshots.filter (fun s => s.1.loan = l)).map Prod.snd).toFinset

/-- The join condition of `delinquency_matches`. -/
def onTag (s : SnapshotRow) (e : StagedEvent) : Bool :=
  OfLoan s.1.loan e.delinquencyEventId e.event.loanId && inForce s.2 e.event

/-- `order by d.addedon_date desc, d.delinquency_event_id desc`. -/
def tagPlace (e : StagedEvent) : WithBot Date ×ₗ Int := toLex (nullsFirst e.event.addedonDate,e.delinquencyEventId.id)

/-- The select list, from a snapshot, its row of `as_of` and its first match. -/
def selectStatus (h : Hashes) (l : Key) (base : LoanBase) (a : AsOf) (found : Option DelinquencyEvent) : StatusRow :=
  let joined := (found.map (·.joined)).getD ⟨none,none,none,none,none⟩
  { clientId := base.clientId
    clientHash := h.clientHash l.sourceId l.tenantId base.clientId
    officeId := base.client.officeId
    productId := base.loan.productId
    currencyCode := base.loan.currencyCode
    bucketKey := joined.bucketId.getD 0
    bucketName := joined.bucketName.getD "Current"
    delinquencyRangeClassification := joined.delinquencyRangeClassification.getD "Current"
    daysPastDueLowerBound := joined.minAgeDays.getD 0
    daysPastDueUpperBound := joined.maxAgeDays.getD 0
    principalDisbursedDerived := base.loan.principalDisbursedDerived
    principalOutstanding := a.balanceAsOf.or base.loan.principalDisbursedDerived
    totalOutstanding := match base.loan.totalExpectedRepaymentDerived with
      | none => 0
      | some expected => max (expected - a.obligationSatisfiedToDate) 0
    isNpa := base.loan.isNpa
    standardParBand := standardParBand a.daysPastDue
    isPar30 := 30 ≤ a.daysPastDue
    isPar60 := 60 ≤ a.daysPastDue
    isPar90 := 90 ≤ a.daysPastDue
    isWatchList := 0 < a.daysPastDue && a.daysPastDue < 30 }

/-- The rows of `int_loan_delinquency_status`, with their loan and date. -/
def statusRows (h : Hashes) (raw : RawTables) (scope : Relation Key Scope) (today : Date) :
    Multiset ((Key × Date) × StatusRow) :=
  let snapshots := snapshotRows raw scope today
  (leftJoinFirst onTag tagPlace snapshots (stgMDelinquencyRows raw)).map (fun dm =>
    ((dm.1.1.loan,dm.1.2),selectStatus h dm.1.1.loan dm.1.1.base
      (asOf (timeline raw dm.1.1.loan (datesOf snapshots dm.1.1.loan)) dm.1.2) (dm.2.map (·.event))))

section
variable {h : Hashes} {raw : RawTables} {scope : Relation Key Scope} {today d : Date} {l : Key} {base : LoanBase}

/-- The row of `loan_base` of a loan. -/
def baseRow (raw : RawTables) (scope : Relation Key Scope) (l : Key) : Option LoanBaseRow :=
  (scope.get l).bind (fun s => (loanBase raw l).map (fun base => ⟨l,base,s.fromDate⟩))

/-- One row for every loan in scope that has a client and is disbursed. -/
theorem loanBaseRows_eq : loanBaseRows raw scope = (stgMLoan raw).rows.filterMap (fun l => baseRow raw scope l.1) := by
  have in_scope : join onScope (stgMLoan raw).rows scope.rows =
      (stgMLoan raw).rows.filterMap (fun l => ((scope.get l.1).map (fun s => (l.1,s))).map (fun s => (l,s))) := by
    refine join_eq_filterMap (fun l _ => ?_)
    rw [matching,scope.rows_filter_key _ (k := l.1) (fun s => by simp [onScope])]
    cases scope.get l.1 <;> rfl
  have owned : join onClient (join onScope (stgMLoan raw).rows scope.rows) (stgMClient raw).rows = _ :=
    join_eq_filterMap (fun l _ => matching_named l.1.1 l.1.2.clientId (fun _ => rfl))
  rw [loanBaseRows,owned,in_scope,Multiset.filterMap_filterMap,Multiset.filterMap_filterMap]
  refine Query.filterMap_congr ?_
  rintro ⟨l,loan⟩ found
  rw [Relation.mem_rows] at found
  cases at_scope : scope.get l with
  | none => simp [baseRow,at_scope]
  | some s =>
    simp only [baseRow,at_scope,loanBase,found,Option.bind_eq_bind,Option.map_some,Option.bind_some]
    cases loan.clientId with
    | none => cases loan.disbursedonDate <;> rfl
    | some id =>
      simp only [Option.bind_some]
      cases (stgMClient raw).get (refer l id) with
      | none => cases loan.disbursedonDate <;> rfl
      | some c =>
        simp only [Option.map_some,Option.bind_some,selectBase]
        cases loan.disbursedonDate <;> rfl

theorem baseRow_eq_some {b : LoanBaseRow} : baseRow raw scope l = some b ↔
    b.loan = l ∧ loanBase raw l = some b.base ∧ ∃ s, scope.get l = some s ∧ s.fromDate = b.fromDate := by
  simp only [baseRow,Option.bind_eq_some_iff,Option.map_eq_some_iff]
  constructor
  · rintro ⟨s,at_scope,base,found,rfl⟩
    exact ⟨rfl,found,s,at_scope,rfl⟩
  · rintro ⟨rfl,found,s,at_scope,same⟩
    exact ⟨s,at_scope,b.base,found,by rw [same]⟩

private theorem mem_loanBaseRows {b : LoanBaseRow} : b ∈ loanBaseRows raw scope ↔ baseRow raw scope b.loan = some b := by
  rw [loanBaseRows_eq,Multiset.mem_filterMap]
  constructor
  · rintro ⟨⟨l,loan⟩,_,at_l⟩
    obtain ⟨rfl,_,_⟩ := baseRow_eq_some.mp at_l
    exact at_l
  · intro at_l
    obtain ⟨_,found,_⟩ := baseRow_eq_some.mp at_l
    exact ⟨(b.loan,b.base.loan),Relation.mem_rows.mpr (loanBase_loan found),at_l⟩

private theorem loanBaseRows_nodup : (loanBaseRows raw scope).Nodup := by
  have by_key : loanBaseRows raw scope = (stgMLoan raw).keys.val.filterMap (baseRow raw scope) := by
    rw [loanBaseRows_eq,← Relation.rows_keys,Multiset.filterMap_map]
    rfl
  rw [by_key]
  refine Multiset.Nodup.filterMap _ ?_ (stgMLoan raw).keys.nodup
  intro l l' b at_l at_l'
  exact (baseRow_eq_some.mp at_l).1.symm.trans (baseRow_eq_some.mp at_l').1

theorem mem_snapshotRows {b : LoanBaseRow} : (b,d) ∈ snapshotRows raw scope today ↔
    baseRow raw scope b.loan = some b ∧ d ∈ loanSnapshots scope today b.loan b.base := by
  rw [snapshotRows,mem_join,mem_loanBaseRows]
  refine and_congr_right (fun at_l => ?_)
  obtain ⟨_,_,s,at_scope,same⟩ := baseRow_eq_some.mp at_l
  simp only [loanSnapshots,at_scope,Finset.mem_filter,Finset.mem_val,onSpine,same,Bool.and_eq_true,decide_eq_true_eq]

/-- A loan has one row on a date. -/
theorem snapshotRows_once : ((snapshotRows raw scope today).map (fun s => (s.1.loan,s.2))).Nodup := by
  refine (join_nodup loanBaseRows_nodup (Finset.nodup _)).map_on ?_
  rintro ⟨b,d⟩ inside ⟨b',d'⟩ inside' same
  obtain ⟨own,rfl⟩ : b.loan = b'.loan ∧ d = d' := by simpa using same
  have at_l := (mem_snapshotRows.mp inside).1
  have at_l' := (mem_snapshotRows.mp inside').1
  rw [own] at at_l
  rw [Option.some.inj (at_l.symm.trans at_l')]

/-- The timeline of a loan has all its snapshot dates. -/
theorem datesOf_eq {b : LoanBaseRow} (at_l : baseRow raw scope b.loan = some b) :
    datesOf (snapshotRows raw scope today) b.loan = loanSnapshots scope today b.loan b.base := by
  ext d
  simp only [datesOf,Multiset.mem_toFinset,Multiset.mem_map,Multiset.mem_filter]
  constructor
  · rintro ⟨⟨b',d'⟩,⟨inside,own⟩,rfl⟩
    obtain ⟨at_l',dated⟩ := mem_snapshotRows.mp inside
    have same : b' = b := Option.some.inj (at_l'.symm.trans (by rw [show b'.loan = b.loan from own,at_l]))
    subst same
    exact dated
  · intro dated
    exact ⟨(b,d),⟨mem_snapshotRows.mpr ⟨at_l,dated⟩,rfl⟩,rfl⟩

/-- The pairs of tag and event that a snapshot matches. -/
theorem matching_tags (single : SingleMapping raw) (s : SnapshotRow) :
    (matching onTag (stgMDelinquencyRows raw) s).map (fun e => (e.delinquencyEventId,e.event)) =
      (delinquencyMatches raw s.1.loan s.2).val := by
  have events : (stgMDelinquency raw).rows = (tagHistory raw).rows.map (fun d => (d.1,eventOf raw d)) :=
    Relation.rows_filterMap_some _ _
  have rows : (delinquencyMatches raw s.1.loan s.2).val = (stgMDelinquency raw).rows.filter (fun e =>
      OfLoan s.1.loan e.1 e.2.loanId ∧ inForce s.2 e.2) := rfl
  rw [rows,events,matching,stgMDelinquencyRows_eq single,Multiset.filter_map,Multiset.map_map,Multiset.filter_map]
  refine Multiset.map_congr (Multiset.filter_congr (fun d _ => ?_)) (fun _ _ => rfl)
  simp [onTag]

private theorem refer_ofLoan {k : Key} {id : Option Int} (own : OfLoan l k id) : refer l k.id = k := by
  obtain ⟨source,tenant,_⟩ := own
  cases l
  cases k
  simp_all [refer]

/-- The first match of a snapshot is the newest tag in force. -/
theorem first_match (single : SingleMapping raw) (s : SnapshotRow) : ∃ first : Option StagedEvent,
    (matching onTag (stgMDelinquencyRows raw) s).filter
      (fun e => ∀ f ∈ matching onTag (stgMDelinquencyRows raw) s, tagPlace f ≤ tagPlace e) = first.elim 0 ({·}) ∧
    first.map (·.event) = delinquencyMatch raw s.1.loan s.2 := by
  have pairs := matching_tags single s
  rcases (delinquencyMatches raw s.1.loan s.2).eq_empty_or_nonempty with empty | inhabited
  · rw [empty,Finset.empty_val,Multiset.map_eq_zero] at pairs
    refine ⟨none,by rw [pairs]; rfl,?_⟩
    simp [delinquencyMatch,empty]
  · obtain ⟨top,member,newest⟩ := (delinquencyMatches raw s.1.loan s.2).exists_max_image matchPlace inhabited
    obtain ⟨e,inside,rfl⟩ : ∃ e ∈ matching onTag (stgMDelinquencyRows raw) s, (e.delinquencyEventId,e.event) = top := by
      rw [← Finset.mem_val,← pairs] at member
      exact Multiset.mem_map.mp member
    have below : ∀ f ∈ matching onTag (stgMDelinquencyRows raw) s, tagPlace f ≤ tagPlace e := by
      intro f other
      have le := newest (f.delinquencyEventId,f.event)
        (by rw [← Finset.mem_val,← pairs]; exact Multiset.mem_map_of_mem _ other)
      exact WithBot.coe_le_coe.mp le
    have key_of : ∀ f ∈ matching onTag (stgMDelinquencyRows raw) s, ∃ d ∈ (tagHistory raw).rows,
        f = ⟨d.1,d.2.delinquencyRangeId,eventOf raw d⟩ := by
      intro f other
      rw [mem_matching,stgMDelinquencyRows_eq single,Multiset.mem_map] at other
      obtain ⟨⟨d,found,same⟩,_⟩ := other
      exact ⟨d,found,same.symm⟩
    have one_loan : ∀ f ∈ matching onTag (stgMDelinquencyRows raw) s, refer s.1.loan f.delinquencyEventId.id =
        f.delinquencyEventId := by
      intro f other
      have own : OfLoan s.1.loan f.delinquencyEventId f.event.loanId ∧ inForce s.2 f.event = true := by
        simpa [onTag] using (mem_matching.mp other).2
      exact refer_ofLoan own.1
    have alone : ∀ f ∈ matching onTag (stgMDelinquencyRows raw) s, tagPlace e ≤ tagPlace f → f = e := by
      intro f other le
      have same_place : tagPlace f = tagPlace e := le_antisymm (below f other) le
      have same_id : f.delinquencyEventId = e.delinquencyEventId := by
        rw [← one_loan f other,← one_loan e inside]
        exact congrArg (refer s.1.loan) (congrArg (fun p => (ofLex p).2) same_place)
      obtain ⟨d,found,rfl⟩ := key_of f other
      obtain ⟨d',found',rfl⟩ := key_of e inside
      rw [Relation.rows_key_injective d found d' found' same_id]
    have distinct : (matching onTag (stgMDelinquencyRows raw) s).Nodup :=
      Multiset.Nodup.of_map _ (by rw [pairs]; exact Finset.nodup _)
    refine ⟨some e,((distinct.filter _).ext (Multiset.nodup_singleton e)).mpr (fun f => ?_),?_⟩
    · rw [Multiset.mem_filter,Multiset.mem_singleton]
      constructor
      · rintro ⟨other,highest⟩
        exact alone f other (highest e inside)
      · rintro rfl
        exact ⟨inside,below⟩
    · exact (delinquencyMatch_eq member newest).symm

/-- The query returns the rows of the model, one for each loan and snapshot date. -/
theorem statusRows_eq (single : SingleMapping raw) :
    statusRows h raw scope today = (intLoanDelinquencyStatus h raw scope today).rows := by
  choose first matched event using fun s : SnapshotRow => first_match single s
  have rows : statusRows h raw scope today = (snapshotRows raw scope today).map (fun s =>
      ((s.1.loan,s.2),statusRow h raw s.1.loan s.1.base (loanSnapshots scope today s.1.loan s.1.base) s.2)) := by
    rw [statusRows,leftJoinFirst_eq_map (fun s _ => matched s),Multiset.map_map]
    refine Multiset.map_congr rfl ?_
    rintro ⟨b,d⟩ inside
    simp only [Function.comp_def,datesOf_eq (mem_snapshotRows.mp inside).1,event]
    rfl
  rw [rows]
  refine (Multiset.Nodup.ext (.of_map Prod.fst ?_) (Relation.rows_nodup _)).mpr ?_
  · rw [Multiset.map_map]
    exact snapshotRows_once
  · rintro ⟨⟨l,d⟩,row⟩
    rw [Relation.mem_rows,Multiset.mem_map]
    constructor
    · rintro ⟨⟨b,d'⟩,inside,same⟩
      obtain ⟨⟨rfl,rfl⟩,rfl⟩ : (b.loan = l ∧ d' = d) ∧ _ = row := by simpa using same
      obtain ⟨at_l,dated⟩ := mem_snapshotRows.mp inside
      obtain ⟨_,found,_⟩ := baseRow_eq_some.mp at_l
      exact AsOf.status_eq_some.mpr ⟨b.base,found,dated,rfl⟩
    · intro found
      obtain ⟨base,at_l,dated,rfl⟩ := AsOf.status_eq_some.mp found
      cases at_scope : scope.get l with
      | none => simp [loanSnapshots,at_scope] at dated
      | some s =>
        have at_row : baseRow raw scope l = some ⟨l,base,s.fromDate⟩ := by simp [baseRow,at_scope,at_l]
        exact ⟨(⟨l,base,s.fromDate⟩,d),mem_snapshotRows.mpr ⟨at_row,dated⟩,rfl⟩

/-- The dates of a loan in scope run from its disbursement or scope date to its maturity or the current date. -/
theorem snapshot_dates {s : Scope} (in_scope : scope.get l = some s) (base : LoanBase) :
    d ∈ loanSnapshots scope today l base ↔
      max base.disbursedonDate s.fromDate ≤ d ∧ d ≤ min (base.loan.maturedonDate.getD today) today := by
  rw [loanSnapshots_mem in_scope,max_le_iff,le_min_iff]
  cases base.loan.maturedonDate with
  | none => simp; tauto
  | some matured => simp; tauto

/-- The rows that the query returns for a loan and a date. -/
theorem statusRows_at (single : SingleMapping raw) : (statusRows h raw scope today).filter (fun r => r.1 = (l,d)) =
    ((intLoanDelinquencyStatus h raw scope today).get (l,d)).elim 0 (fun row => {((l,d),row)}) := by
  rw [statusRows_eq single]
  exact Relation.rows_filter_key _ _ (fun _ => Iff.rfl)

end

/-- Every scoped loan with a client and a disbursement date has exactly one row on each of its dates,
    with the amounts as of the date, and no other row is returned. -/
theorem one_row_as_of_each_date (h : Hashes) (raw : RawTables) (scope : Relation Key Scope) (today : Date)
    (single : SingleMapping raw) :
    (∀ l s base, scope.get l = some s → loanBase raw l = some base → ∀ d,
      if max base.disbursedonDate s.fromDate ≤ d ∧ d ≤ min (base.loan.maturedonDate.getD today) today
      then ∃ row, (statusRows h raw scope today).filter (fun r => r.1 = (l,d)) = {((l,d),row)} ∧
        AsOf.AsDefined raw l d base row
      else (statusRows h raw scope today).filter (fun r => r.1 = (l,d)) = 0) ∧
    ∀ r ∈ statusRows h raw scope today, (scope.get r.1.1).isSome ∧ (loanBase raw r.1.1).isSome := by
  constructor
  · intro l s base in_scope at_l d
    rw [statusRows_at single]
    split
    · next inside =>
      have found : (intLoanDelinquencyStatus h raw scope today).get (l,d) = _ :=
        AsOf.status_eq_some.mpr ⟨base,at_l,(snapshot_dates in_scope base).mpr inside,rfl⟩
      exact ⟨_,by rw [found]; rfl,AsOf.statusRow_asDefined⟩
    · next outside =>
      cases found : (intLoanDelinquencyStatus h raw scope today).get (l,d) with
      | none => rfl
      | some row =>
        obtain ⟨base',at_l',dated,_⟩ := AsOf.status_eq_some.mp found
        obtain rfl := Option.some.inj (at_l.symm.trans at_l')
        exact absurd ((snapshot_dates in_scope base).mp dated) outside
  · rintro ⟨⟨l,d⟩,row⟩ member
    rw [statusRows_eq single,Relation.mem_rows] at member
    obtain ⟨base,at_l,dated,_⟩ := AsOf.status_eq_some.mp member
    refine ⟨?_,by simp [at_l]⟩
    cases at_scope : scope.get l with
    | none => simp [loanSnapshots,at_scope] at dated
    | some s => rfl

/-- A loan of 100 with an expected repayment of 110. On 10 January 40 is repaid, first without and then with
    the balance; a reversed transaction follows. -/
def repaidLoan : RawTables := rawOf
  [(.mClient,1,[("office_id",.int 1)]),
   (.mLoan,1,[("client_id",.int 1),("disbursedon_date",.date (ofCivil 2025 1 1)),("principal_disbursed_derived",.numeric 100),
     ("total_expected_repayment_derived",.numeric 110)]),
   (.mLoanTransaction,1,[("loan_id",.int 1),("transaction_date",.date (ofCivil 2025 1 10)),
     ("principal_portion_derived",.numeric 15),("is_reversed",.boolean false)]),
   (.mLoanTransaction,2,[("loan_id",.int 1),("transaction_date",.date (ofCivil 2025 1 10)),
     ("principal_portion_derived",.numeric 25),("outstanding_loan_balance_derived",.numeric 60),("is_reversed",.boolean false)]),
   (.mLoanTransaction,3,[("loan_id",.int 1),("transaction_date",.date (ofCivil 2025 1 20)),
     ("outstanding_loan_balance_derived",.numeric 0),("is_reversed",.boolean true)])]

/-- On 15 March the loan has one row, with the amounts as of that day. -/
theorem one_row_of_repaid_loan : ∃ base row, loanBase repaidLoan (branchKey 1) = some base ∧
    (statusRows AsOf.plainHashes repaidLoan AsOf.wholeScope (ofCivil 2025 3 15)).filter
      (fun r => r.1 = (branchKey 1,ofCivil 2025 3 15)) = {((branchKey 1,ofCivil 2025 3 15),row)} ∧
    AsOf.AsDefined repaidLoan (branchKey 1) (ofCivil 2025 3 15) base row := by
  have single : SingleMapping repaidLoan := by decide +kernel
  have at_l : loanBase repaidLoan (branchKey 1) = some ⟨Loan.read (fun c =>
    [("client_id",.int 1),("disbursedon_date",.date (ofCivil 2025 1 1)),("principal_disbursed_derived",.numeric 100),
     ("total_expected_repayment_derived",.numeric 110)].lookup c),ofCivil 2025 1 1,1,⟨some 1⟩⟩ := by rfl
  have rows := (one_row_as_of_each_date AsOf.plainHashes repaidLoan AsOf.wholeScope (ofCivil 2025 3 15) single).1
    (branchKey 1) ⟨ofCivil 2025 3 15,some (ofCivil 2025 3 15)⟩ _ rfl at_l (ofCivil 2025 3 15)
  rw [if_pos (by decide)] at rows
  obtain ⟨row,alone,defined⟩ := rows
  exact ⟨_,row,at_l,alone,defined⟩

end FineractBi.StatusQuery
