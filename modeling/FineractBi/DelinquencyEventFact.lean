import FineractBi.Lib.Runs
import FineractBi.Lib.Window
import FineractBi.Delinquency
import FineractBi.LoanSnapshot

/-!
`fact_delinquency_event` over changes of the raw tables and dbt runs. A run
computes the rows of all live tags anew and merges them by the hash of the tag's
key: rows of tags that are no longer live stay, and a tag whose range has several
mappings has several rows.
-/
namespace FineractBi.DelinquencyEventFact
open Calendar Query Runs Window FineractBi.Contract FineractBi.ApplyBatch FineractBi.Staging FineractBi.LoanSnapshot
open FineractBi.Delinquency

/-- A row of `fact_delinquency_event`. -/
structure EventRow where
  delinquencyEventKey : String
  delinquencyEventId : Key
  loanId : Option Int
  delinquencyRangeId : Option Int
  bucketKey : Int
  bucketName : String
  delinquencyRangeClassification : Option String
  previousBucketKey : Int
  minAgeDays : Int
  maxAgeDays : Int
  standardParBand : String
  previousStandardParBand : String
  eventStartDate : Option Date
  eventEndDate : Option Date
  eventDurationDays : Option Int
  isActiveEvent : Bool
  deriving DecidableEq

/-- `partition by source_id, tenant_id, loan_id`. -/
def eventPartition (e : StagedEvent) : String × String × Option Int :=
  (e.delinquencyEventId.sourceId,e.delinquencyEventId.tenantId,e.event.loanId)

/-- `order by addedon_date, delinquency_event_id`. -/
def eventPlace (e : StagedEvent) : WithTop Date ×ₗ Int := toLex (nullsLast e.event.addedonDate,e.delinquencyEventId.id)

/-- The hash of a tag's key. -/
def eventKey (h : Hashes) (k : Key) : String := h.md5 (k.sourceId ++ "::" ++ k.tenantId ++ "::" ++ toString k.id)

def daysBetween (first last : Option Date) : Option Int := first.bind (fun f => last.map (fun l => l - f))

/-- The select list, from an event and the one before it. -/
def selectEventRow (h : Hashes) (today : Date) (r : StagedEvent × Option StagedEvent) : EventRow :=
  let e := r.1.event
  { delinquencyEventKey := eventKey h r.1.delinquencyEventId
    delinquencyEventId := r.1.delinquencyEventId
    loanId := e.loanId
    delinquencyRangeId := r.1.delinquencyRangeId
    bucketKey := e.joined.bucketId.getD 0
    bucketName := e.joined.bucketName.getD "Current"
    delinquencyRangeClassification := e.joined.delinquencyRangeClassification
    previousBucketKey := (r.2.bind (·.event.joined.bucketId)).getD 0
    minAgeDays := e.joined.minAgeDays.getD 0
    maxAgeDays := e.joined.maxAgeDays.getD 0
    standardParBand := standardParBand (e.joined.minAgeDays.getD 0)
    previousStandardParBand := standardParBand ((r.2.bind (·.event.joined.minAgeDays)).getD 0)
    eventStartDate := e.addedonDate
    eventEndDate := e.liftedonDate
    eventDurationDays := (daysBetween e.addedonDate e.liftedonDate).or (daysBetween e.addedonDate (some today))
    isActiveEvent := e.liftedonDate.isNone }

/-- An order in which the window functions may see the rows of the staging view; it is theirs to
    choose where the ORDER BY leaves ties. -/
structure Ordered (raw : RawTables) (events : List StagedEvent) : Prop where
  rows : (events : Multiset StagedEvent) = stgMDelinquencyRows raw
  sorted : events.Pairwise (fun e e' => eventPlace e ≤ eventPlace e')

/-- The rows that the query returns. -/
def eventRows (h : Hashes) (today : Date) (events : List StagedEvent) : Multiset EventRow :=
  (lag eventPartition events).map (selectEventRow h today)

/-- A full refresh builds the table from nothing. -/
def FullRefresh (h : Hashes) (raw : RawTables) (today : Date) (rows : Multiset EventRow) : Prop :=
  ∃ events, Ordered raw events ∧ rows = eventRows h today events

/-- What the adapter makes of a table and the rows of a run of an incremental model with a unique key:
    the rows with a key of the run are deleted, and those of the run inserted. -/
def DeletesAndInserts (merge : Multiset EventRow → Multiset EventRow → Multiset EventRow) : Prop :=
  ∀ table batch, merge table batch =
    table.filter (fun r => ∀ new ∈ batch, new.delinquencyEventKey ≠ r.delinquencyEventKey) + batch

structure State where
  raw : RawTables
  fact : Multiset EventRow

inductive Op
  | change (raw : RawTables)
  | run (today : Date)

section
variable (h : Hashes) (merge : Multiset EventRow → Multiset EventRow → Multiset EventRow)

/-- Any change of the raw tables, or a dbt run. -/
inductive Step : State → Op → State → Prop
  | change {s : State} {raw : RawTables} : Step s (.change raw) { s with raw := raw }
  | run {s : State} {today : Date} {events : List StagedEvent} (ordered : Ordered s.raw events) :
      Step s (.run today) { s with fact := merge s.fact (eventRows h today events) }

/-- The loan of a tag. -/
def loanOf (d : Key × Tag) : String × String × Option Int := (d.1.sourceId,d.1.tenantId,d.2.loanId)

def tagPlace (d : Key × Tag) : WithTop Date ×ₗ Int := toLex (nullsLast d.2.addedonDate,d.1.id)

/-- The row shows the bucket and the band of the live tag right before its own. -/
def ShowsPrevious (raw : RawTables) (r : EventRow) : Prop :=
  ∃ d ∈ (tagHistory raw).rows, d.1 = r.delinquencyEventId ∧
    ∃ previous, Before loanOf tagPlace (· ∈ (tagHistory raw).rows) d previous ∧
      r.previousBucketKey = (previous.bind (fun p => (classification raw p.1 p.2).bucketId)).getD 0 ∧
      r.previousStandardParBand = standardParBand ((previous.bind (fun p => (classification raw p.1 p.2).minAgeDays)).getD 0)

/-- One row for every live tag, with what came before, as after a full refresh. -/
structure Correct (raw : RawTables) (today : Date) (fact : Multiset EventRow) : Prop where
  oneRow : fact.map (·.delinquencyEventId) = (tagHistory raw).keys.val
  previous : ∀ r ∈ fact, ShowsPrevious raw r
  full : ∀ rows, FullRefresh h raw today rows → fact = rows

/-- At a run the tags of all rows in the table are live, and the ranges of the live tags are mapped at most once. -/
def Kept (s : State) : Op → Prop
  | .change _ => True
  | .run _ => (∀ r ∈ s.fact, ((tagHistory s.raw).get r.delinquencyEventId).isSome) ∧ MappedOnce s.raw

end

section
variable {h : Hashes} {raw : RawTables} {today : Date} {events : List StagedEvent}

/-- The staged row of a tag. -/
def stagedEvent (raw : RawTables) (d : Key × Tag) : StagedEvent := ⟨d.1,d.2.delinquencyRangeId,eventOf raw d⟩

theorem eventRows_ids (h : Hashes) (today : Date) (events : List StagedEvent) :
    (eventRows h today events).map (·.delinquencyEventId) = (events.map (·.delinquencyEventId) : Multiset Key) := by
  rw [eventRows,Multiset.map_coe,List.map_map]
  conv_rhs => rw [← lag_fst eventPartition events,List.map_map]
  rfl

private theorem mem_ordered (ordered : Ordered raw events) (once : MappedOnce raw) {e : StagedEvent} :
    e ∈ events ↔ ∃ d ∈ (tagHistory raw).rows, stagedEvent raw d = e := by
  rw [← Multiset.mem_coe,ordered.rows,stgMDelinquencyRows_mapped once,Multiset.mem_map]
  rfl

theorem ordered_ids (ordered : Ordered raw events) (once : MappedOnce raw) :
    (events.map (·.delinquencyEventId) : Multiset Key) = (tagHistory raw).keys.val := by
  rw [← Multiset.map_coe,ordered.rows,stgMDelinquencyRows_mapped once,Multiset.map_map,← Relation.rows_keys]
  rfl

private theorem ordered_nodup (ordered : Ordered raw events) (once : MappedOnce raw) : events.Nodup := by
  have ids := (tagHistory raw).keys.nodup
  rw [← ordered_ids ordered once,Multiset.coe_nodup] at ids
  exact ids.of_map

/-- Two tags of one loan have different places. -/
theorem tags_untied : Untied loanOf tagPlace (· ∈ (tagHistory raw).rows) := by
  intro d d' inside inside' kin tie
  refine Relation.rows_key_injective d inside d' inside' ?_
  obtain ⟨⟨s,t,i⟩,tag⟩ := d
  obtain ⟨⟨s',t',i'⟩,tag'⟩ := d'
  obtain ⟨rfl,others⟩ := Prod.mk.inj kin
  obtain ⟨rfl,_⟩ := Prod.mk.inj others
  have ids : i = i' := (Prod.mk.inj tie).2
  rw [ids]

private theorem ordered_untied (ordered : Ordered raw events) (once : MappedOnce raw) :
    Untied eventPartition eventPlace (· ∈ events) := by
  intro e e' inside inside' kin tie
  obtain ⟨d,there,rfl⟩ := (mem_ordered ordered once).mp inside
  obtain ⟨d',there',rfl⟩ := (mem_ordered ordered once).mp inside'
  rw [tags_untied d d' there there' kin tie]

/-- The row that `lag` finds is that of the live tag right before. -/
theorem before_tag (ordered : Ordered raw events) (once : MappedOnce raw) {d : Key × Tag} {e : Option StagedEvent}
    (before : Before eventPartition eventPlace (· ∈ events) (stagedEvent raw d) e) :
    ∃ previous, e = previous.map (stagedEvent raw) ∧
      Before loanOf tagPlace (· ∈ (tagHistory raw).rows) d previous := by
  have staged (d' : Key × Tag) (inside : d' ∈ (tagHistory raw).rows) : stagedEvent raw d' ∈ events :=
    (mem_ordered ordered once).mpr ⟨d',inside,rfl⟩
  cases e with
  | none => exact ⟨none,rfl,fun d' inside kin => before (stagedEvent raw d') (staged d' inside) kin⟩
  | some e =>
    obtain ⟨inside,kin,less,latest⟩ := before
    obtain ⟨p,there,rfl⟩ := (mem_ordered ordered once).mp inside
    exact ⟨some p,rfl,there,kin,less,fun d' inside' => latest (stagedEvent raw d') (staged d' inside')⟩

/-- Every row of a run shows the live tag right before its own. -/
theorem eventRows_previous (ordered : Ordered raw events) (once : MappedOnce raw) :
    ∀ r ∈ eventRows h today events, ShowsPrevious raw r := by
  intro r inside
  obtain ⟨⟨e,before⟩,member,rfl⟩ := List.mem_map.mp (Multiset.mem_coe.mp inside)
  obtain ⟨listed,right_before⟩ := (mem_lag_iff ordered.sorted (ordered_nodup ordered once)
    (ordered_untied ordered once)).mp member
  obtain ⟨d,there,rfl⟩ := (mem_ordered ordered once).mp listed
  obtain ⟨previous,rfl,tag_before⟩ := before_tag ordered once right_before
  refine ⟨d,there,rfl,previous,tag_before,?_,?_⟩
  · cases previous <;> rfl
  · cases previous <;> rfl

/-- All orders that the window functions may see give the same rows. -/
theorem eventRows_unique {events' : List StagedEvent} (once : MappedOnce raw) (ordered : Ordered raw events)
    (ordered' : Ordered raw events') : eventRows h today events = eventRows h today events' := by
  have perm : events.Perm events' := Multiset.coe_eq_coe.mp (ordered.rows.trans ordered'.rows.symm)
  have lagged := lag_perm ordered.sorted ordered'.sorted (ordered_nodup ordered once) perm (ordered_untied ordered once)
  exact Multiset.coe_eq_coe.mpr (lagged.map _)

end

section
variable {h : Hashes} {merge : Multiset EventRow → Multiset EventRow → Multiset EventRow} {s t : State}

/-- Every row of the table has the hash of its tag. -/
def Keyed (h : Hashes) (fact : Multiset EventRow) : Prop :=
  ∀ r ∈ fact, r.delinquencyEventKey = eventKey h r.delinquencyEventId

private theorem eventRows_keyed (today : Date) (events : List StagedEvent) : Keyed h (eventRows h today events) := by
  intro r inside
  obtain ⟨_,_,rfl⟩ := List.mem_map.mp (Multiset.mem_coe.mp inside)
  rfl

private theorem keyed_step (merges : DeletesAndInserts merge) (keyed : Keyed h s.fact) {op : Op} (step : Step h merge s op t) :
    Keyed h t.fact := by
  cases step with
  | change => exact keyed
  | run ordered =>
    intro r inside
    rw [merges,Multiset.mem_add] at inside
    rcases inside with old | new
    · exact keyed r (Multiset.mem_filter.mp old).1
    · exact eventRows_keyed _ _ r new

/-- When the tags of all rows in the table are live, a run replaces them all. -/
theorem merge_replaces (merges : DeletesAndInserts merge) (keyed : Keyed h s.fact) {today : Date}
    {events : List StagedEvent} (ordered : Ordered s.raw events) (kept : Kept s (.run today)) :
    merge s.fact (eventRows h today events) = eventRows h today events := by
  have none_stays : s.fact.filter (fun r => ∀ new ∈ eventRows h today events,
      new.delinquencyEventKey ≠ r.delinquencyEventKey) = 0 := by
    refine Multiset.filter_eq_nil.mpr (fun r inside differs => ?_)
    have live : r.delinquencyEventId ∈ (eventRows h today events).map (·.delinquencyEventId) := by
      rw [eventRows_ids,ordered_ids ordered kept.2,Finset.mem_val,Relation.mem_keys]
      exact kept.1 r inside
    obtain ⟨new,there,same⟩ := Multiset.mem_map.mp live
    refine differs new there ?_
    rw [eventRows_keyed today events new there,keyed r inside,same]
  rw [merges,none_stays,zero_add]

/-- One run that keeps the conditions. -/
theorem correct_step (merges : DeletesAndInserts merge) (keyed : Keyed h s.fact) {today : Date}
    (step : Step h merge s (.run today) t) (kept : Kept s (.run today)) : Correct h t.raw today t.fact := by
  cases step with
  | run ordered =>
    rw [merge_replaces merges keyed ordered kept]
    refine ⟨?_,eventRows_previous ordered kept.2,?_⟩
    · rw [eventRows_ids,ordered_ids ordered kept.2]
    · rintro rows ⟨events',ordered',rfl⟩
      exact eventRows_unique kept.2 ordered ordered'

/-- A history of changes and runs. -/
abbrev History (h : Hashes) (merge : Multiset EventRow → Multiset EventRow → Multiset EventRow) := Run (Step h merge)

private theorem history_keyed (merges : DeletesAndInserts merge) {raw : RawTables} {ops : List Op}
    (history : History h merge ⟨raw,0⟩ ops s) : Keyed h s.fact :=
  history.stateInvariant (fun r none_there => absurd none_there (Multiset.notMem_zero r))
    (fun _ _ _ keyed taken => keyed_step merges keyed taken)

end

/-- After every run that keeps the conditions, whatever happened before, the table is correct. -/
theorem runs_correct (h : Hashes) (merge : Multiset EventRow → Multiset EventRow → Multiset EventRow)
    (merges : DeletesAndInserts merge) (raw : RawTables) (ops : List Op) (s t : State) (today : Date)
    (history : History h merge ⟨raw,0⟩ ops s) (kept : Kept s (.run today)) (step : Step h merge s (.run today) t) :
    Correct h t.raw today t.fact :=
  correct_step merges (history_keyed merges history) step kept

def deleteAndInsert (table batch : Multiset EventRow) : Multiset EventRow :=
  table.filter (fun r => ∀ new ∈ batch, new.delinquencyEventKey ≠ r.delinquencyEventKey) + batch

def someHashes : Hashes := ⟨fun _ _ _ => some "hash",id⟩

/-- A loan with one tag. -/
def taggedLoan : RawTables := rawOf [(.mLoanDelinquencyTagHistory,1,[("loan_id",.int 1),("addedon_date",.date 0)])]

/-- The same with a tombstone for every row. -/
def untaggedLoan : RawTables := fun t => (taggedLoan t).filterMap (fun _ row => some { row with isDeleted := true })

def theTag : StagedEvent := ⟨branchKey 1,none,some 1,some 0,none,none,none,none,none,none⟩

private theorem taggedLoan_ordered : Ordered taggedLoan [theTag] := ⟨by decide +kernel,List.pairwise_singleton _ _⟩

private theorem untaggedLoan_ordered : Ordered untaggedLoan [] := ⟨by decide +kernel,List.Pairwise.nil⟩

/-- The row of a tag that is deleted after a run stays in the table at the next one. -/
theorem deleted_tag_stays : ∃ s t, History someHashes deleteAndInsert ⟨taggedLoan,0⟩ [.run 5,.change untaggedLoan] s ∧
    Step someHashes deleteAndInsert s (.run 6) t ∧ ¬Correct someHashes t.raw 6 t.fact := by
  refine ⟨_,_,(Run.start.extend (.run taggedLoan_ordered)).extend .change,.run untaggedLoan_ordered,fun correct => ?_⟩
  have stays : (deleteAndInsert (deleteAndInsert 0 (eventRows someHashes 5 [theTag])) (eventRows someHashes 6 [])).map
      (·.delinquencyEventId) ≠ (tagHistory untaggedLoan).keys.val := by
    decide +kernel
  exact stays correct.oneRow

/-- Two ranges, each mapped to a bucket. -/
def twoRanges : List (Table × Int × List (Column × Value)) :=
  [(.mDelinquencyRange,1,[("classification",.text "Watch"),("min_age_days",.int 1),("max_age_days",.int 30)]),
    (.mDelinquencyRange,2,[("classification",.text "Late"),("min_age_days",.int 31),("max_age_days",.int 60)]),
    (.mDelinquencyBucketMappings,1,[("delinquency_range_id",.int 1),("delinquency_bucket_id",.int 1)]),
    (.mDelinquencyBucketMappings,2,[("delinquency_range_id",.int 2),("delinquency_bucket_id",.int 2)]),
    (.mDelinquencyBucket,1,[("name",.text "Standard")]),(.mDelinquencyBucket,2,[("name",.text "Strict")])]

def watchedLoan : RawTables := rawOf (twoRanges ++
  [(.mLoanDelinquencyTagHistory,1,[("loan_id",.int 1),("delinquency_range_id",.int 1),("addedon_date",.date 0)])])

/-- The tag is lifted and another is added. -/
def lateLoan : RawTables := rawOf (twoRanges ++
  [(.mLoanDelinquencyTagHistory,1,[("loan_id",.int 1),("delinquency_range_id",.int 1),("addedon_date",.date 0),
      ("liftedon_date",.date 30)]),
    (.mLoanDelinquencyTagHistory,2,[("loan_id",.int 1),("delinquency_range_id",.int 2),("addedon_date",.date 30)])])

def watched (lifted : Option Date) : StagedEvent :=
  ⟨branchKey 1,some 1,some 1,some 0,lifted,some "Watch",some 1,some 30,some 1,some "Standard"⟩

def late : StagedEvent := ⟨branchKey 2,some 2,some 1,some 30,none,some "Late",some 31,some 60,some 2,some "Strict"⟩

private theorem watchedLoan_ordered : Ordered watchedLoan [watched none] := ⟨by decide +kernel,List.pairwise_singleton _ _⟩

private theorem lateLoan_ordered : Ordered lateLoan [watched (some 30),late] := ⟨by decide +kernel,by simp [List.pairwise_cons]; decide⟩

/-- The table after the first run, and after the second, which rewrites the first row and adds one. -/
def watchedFact : Multiset EventRow := deleteAndInsert 0 (eventRows someHashes 5 [watched none])

def lateFact : Multiset EventRow := deleteAndInsert watchedFact (eventRows someHashes 40 [watched (some 30),late])

theorem second_run_correct : Correct someHashes lateLoan 40 lateFact ∧
    lateFact.map (fun r => (r.delinquencyEventId.id,r.previousBucketKey,r.bucketKey)) = {(1,0,1),(2,1,2)} := by
  have once : MappedOnce lateLoan := SingleMapping.mappedOnce (by decide +kernel)
  have live : ∀ r ∈ watchedFact, ((tagHistory lateLoan).get r.delinquencyEventId).isSome := by decide +kernel
  have first : Step someHashes deleteAndInsert ⟨watchedLoan,0⟩ (.run 5) ⟨watchedLoan,watchedFact⟩ := .run watchedLoan_ordered
  have change : Step someHashes deleteAndInsert ⟨watchedLoan,watchedFact⟩ (.change lateLoan) ⟨lateLoan,watchedFact⟩ := .change
  have second : Step someHashes deleteAndInsert ⟨lateLoan,watchedFact⟩ (.run 40) ⟨lateLoan,lateFact⟩ := .run lateLoan_ordered
  exact ⟨runs_correct someHashes deleteAndInsert (fun _ _ => rfl) watchedLoan _ _ _ 40
    ((Run.start.extend first).extend change) ⟨live,once⟩ second,by decide +kernel⟩

end FineractBi.DelinquencyEventFact
