import FineractBi.FactBuild
import FineractBi.StatusQuery

/-!
What `fact_loan_snapshot` may hold, whatever the raw tables and scopes of its
builds were: rows of `int_loan_delinquency_status`, in which `row_number()` may
number any of several newest tags first. A loan occurs once on a date, and the
flags of a row are nested.
-/
namespace FineractBi.FactContent
open Calendar Query FineractBi.Contract FineractBi.ApplyBatch FineractBi.Staging FineractBi.LoanSnapshot
open FineractBi.Delinquency FineractBi.StatusQuery FineractBi.FactBuild

/-- A row of the table with its loan and date. -/
abbrev FactEntry := (Key × Date) × FactRow

section
variable (h : Hashes) (raw : RawTables) (scope : Relation Key Scope) (today : Date)

/-- For every snapshot, a row of `delinquency_matches` that may have `rn = 1`. -/
def NumbersFirst (pick : SnapshotRow → Option StagedEvent) : Prop :=
  ∀ s ∈ snapshotRows raw scope today, pick s ∈ orNull ((matching onTag (stgMDelinquencyRows raw) s).filter
    (fun e => ∀ f ∈ matching onTag (stgMDelinquencyRows raw) s, tagPlace f ≤ tagPlace e))

/-- The row of a snapshot and the tag that was numbered first. -/
def selectEntry (pick : SnapshotRow → Option StagedEvent) (s : SnapshotRow) : FactEntry :=
  let dates := datesOf (snapshotRows raw scope today) s.1.loan
  ((s.1.loan,s.2),factRow h (s.1.loan,s.2)
    (selectStatus h s.1.loan s.1.base (asOf (timeline raw s.1.loan dates) s.2) ((pick s).map (·.event))))

/-- The rows that a build selects. -/
def selected (pick : SnapshotRow → Option StagedEvent) : Multiset FactEntry :=
  (snapshotRows raw scope today).map (selectEntry h raw scope today pick)

/-- A row is before the scope date of its loan, and not before its disbursement. -/
def outlives (k : Key × Date) : Bool :=
  match scope.get k.1 with
  | none => true
  | some s => k.2 < s.fromDate && (match ((stgMLoan raw).get k.1).bind (·.disbursedonDate) with
    | none => true
    | some disbursed => disbursed ≤ k.2)

/-- What the two deletes leave. -/
def deleted (table : Multiset FactEntry) : Multiset FactEntry := table.filter (fun r => outlives raw scope r.1)

/-- The contents that builds leave: a full one, or an incremental one over an earlier content. -/
inductive Built : Multiset FactEntry → Prop
  | full {raw : RawTables} {scope : Relation Key Scope} {today : Date} {pick : SnapshotRow → Option StagedEvent}
      (first : NumbersFirst raw scope today pick) : Built (selected h raw scope today pick)
  | incremental {raw : RawTables} {scope : Relation Key Scope} {today : Date} {pick : SnapshotRow → Option StagedEvent}
      {table : Multiset FactEntry} (earlier : Built table) (first : NumbersFirst raw scope today pick) :
      Built (deleted raw scope table + selected h raw scope today pick)

/-- The contents that builds leave while their raw tables meet a condition. -/
inductive BuiltWhile (meets : RawTables → Prop) : Multiset FactEntry → Prop
  | full {raw : RawTables} {scope : Relation Key Scope} {today : Date} {pick : SnapshotRow → Option StagedEvent}
      (met : meets raw) (first : NumbersFirst raw scope today pick) : BuiltWhile meets (selected h raw scope today pick)
  | incremental {raw : RawTables} {scope : Relation Key Scope} {today : Date} {pick : SnapshotRow → Option StagedEvent}
      {table : Multiset FactEntry} (earlier : BuiltWhile meets table) (met : meets raw)
      (first : NumbersFirst raw scope today pick) :
      BuiltWhile meets (deleted raw scope table + selected h raw scope today pick)

/-- A source that keeps its NOT NULL on `principal_disbursed_derived`. -/
def KeepsPrincipal (source : String) (raw : RawTables) : Prop :=
  ∀ l loan, (stgMLoan raw).get l = some loan → l.sourceId = source → loan.principalDisbursedDerived.isSome

end

/-- The flags of a row come from one number of days past due. -/
structure Nested (row : FactRow) : Prop where
  par60 : row.isPar90 → row.isPar60
  par30 : row.isPar60 → row.isPar30
  watchList : row.isWatchList → row.isPar30 = false
  band : row.standardParBand ≠ "All Portfolio"

/-- A loan occurs once on a date, with nested flags. -/
structure Sound (table : Multiset FactEntry) : Prop where
  once : (table.map Prod.fst).Nodup
  nested : ∀ r ∈ table, Nested r.2

section
variable {h : Hashes} {raw : RawTables} {scope : Relation Key Scope} {today : Date}
  {pick : SnapshotRow → Option StagedEvent} {table : Multiset FactEntry}

theorem standardParBand_ne (days : Int) : standardParBand days ≠ "All Portfolio" := by
  unfold standardParBand
  split_ifs <;> decide

private theorem selectEntry_nested (s : SnapshotRow) : Nested (selectEntry h raw scope today pick s).2 := by
  simp only [selectEntry,factRow,selectStatus]
  refine ⟨?_,?_,?_,standardParBand_ne _⟩
  · simp only [decide_eq_true_eq]
    omega
  · simp only [decide_eq_true_eq]
    omega
  · simp only [Bool.and_eq_true,decide_eq_true_eq,decide_eq_false_iff_not]
    omega

private theorem selected_keys (h : Hashes) (pick : SnapshotRow → Option StagedEvent) :
    (selected h raw scope today pick).map Prod.fst = (snapshotRows raw scope today).map (fun s => (s.1.loan,s.2)) := by
  rw [selected,Multiset.map_map]
  rfl

private theorem selected_sound (h : Hashes) (pick : SnapshotRow → Option StagedEvent) :
    Sound (selected h raw scope today pick) := by
  refine ⟨?_,?_⟩
  · rw [selected_keys]
    exact snapshotRows_once
  · intro r inside
    obtain ⟨s,_,rfl⟩ := Multiset.mem_map.mp inside
    exact selectEntry_nested s

/-- The deletes make room for every selected row. -/
theorem selected_not_outlives {k : Key × Date} (inside : k ∈ (selected h raw scope today pick).map Prod.fst) :
    outlives raw scope k = false := by
  rw [selected_keys] at inside
  obtain ⟨⟨b,d⟩,member,rfl⟩ := Multiset.mem_map.mp inside
  obtain ⟨at_l,dated⟩ := mem_snapshotRows.mp member
  obtain ⟨_,_,s,at_scope,_⟩ := baseRow_eq_some.mp at_l
  have begun : s.fromDate ≤ d := ((loanSnapshots_mem at_scope b.base).mp dated).1.1
  simp [outlives,at_scope,not_lt.mpr begun]

theorem Sound.incremental (sound : Sound table) :
    Sound (deleted raw scope table + selected h raw scope today pick) := by
  have added : Sound (selected h raw scope today pick) := selected_sound h pick
  refine ⟨?_,?_⟩
  · rw [Multiset.map_add,Multiset.nodup_add]
    refine ⟨Multiset.nodup_of_le (Multiset.map_le_map (Multiset.filter_le _ _)) sound.once,added.once,?_⟩
    refine Multiset.disjoint_left.mpr (fun kept inside => ?_)
    obtain ⟨r,member,rfl⟩ := Multiset.mem_map.mp kept
    have stays := (Multiset.mem_filter.mp member).2
    rw [selected_not_outlives inside] at stays
    cases stays
  · intro r inside
    rcases Multiset.mem_add.mp inside with old | new
    · exact sound.nested r (Multiset.mem_filter.mp old).1
    · exact added.nested r new

theorem Built.sound (built : Built h table) : Sound table := by
  induction built with
  | full => exact selected_sound h _
  | incremental _ _ ih => exact ih.incremental

theorem BuiltWhile.built {meets : RawTables → Prop} (built : BuiltWhile h meets table) : Built h table := by
  induction built with
  | full _ first => exact .full first
  | incremental _ _ first ih => exact .incremental ih first

private theorem selected_principal {source : String} (keeps : KeepsPrincipal source raw) {r : FactEntry}
    (inside : r ∈ selected h raw scope today pick) (own : r.1.1.sourceId = source) : r.2.principalOutstanding.isSome := by
  obtain ⟨⟨b,d⟩,member,rfl⟩ := Multiset.mem_map.mp inside
  obtain ⟨_,based,_⟩ := baseRow_eq_some.mp (mem_snapshotRows.mp member).1
  have disbursed := keeps b.loan b.base.loan (loanBase_loan based) own
  simp only [selectEntry,factRow,selectStatus,Option.isSome_or,disbursed,Bool.or_true]

/-- The rows of a source that keeps the column have a principal outstanding. -/
theorem BuiltWhile.principal {source : String} (built : BuiltWhile h (KeepsPrincipal source) table) {r : FactEntry}
    (inside : r ∈ table) (own : r.1.1.sourceId = source) : r.2.principalOutstanding.isSome := by
  induction built with
  | full keeps _ => exact selected_principal keeps inside own
  | incremental _ keeps _ ih =>
    rcases Multiset.mem_add.mp inside with old | new
    · exact ih (Multiset.mem_filter.mp old).1
    · exact selected_principal keeps new own

end

end FineractBi.FactContent
