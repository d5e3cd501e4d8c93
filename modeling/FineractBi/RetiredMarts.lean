import FineractBi.DelinquencyEventFact
import FineractBi.RepaymentIncremental

/-!
The warehouse of a source that is retired. `retire_source` deletes the rows of the
source from the raw tables, the change log and the derived tables, while the cursors
and the dirty partitions stay. What was accounted for before it is accounted for
after it, so that an incremental run still leaves what a full build makes.
-/
namespace FineractBi.RetiredMarts
open Calendar Query Refresh Runs FineractBi.Contract FineractBi.ApplyBatch FineractBi.Staging FineractBi.LoanSnapshot
open FineractBi.FactBuild FineractBi.ChangeTracking FineractBi.ParMart FineractBi.MartRefresh FineractBi.MartRuns
open FineractBi.MartTracking FineractBi.RepaymentRefresh FineractBi.RepaymentTracking
open FineractBi.FactIncremental (IsFull Pending pending newYear sampleProject upserted emptyWarehouse)
open FineractBi.RepaymentIncremental (AllMarts)
open FineractBi.RepaymentMart (MartRow MartKey Dated stagedTransactions stagedInstallments dimOffice dimProduct named namesOf)

section Deletes
variable (source : String)

def purgeRaw (raw : RawTables) : RawTables := fun t => (raw t).restrict (fun k => k.sourceId ≠ source)

/-- The deletes in the raw tables, the change log and `fact_loan_snapshot`. -/
def purgeWarehouse (txid : Nat) (s : Warehouse) : Warehouse where
  stores t := ⟨(s.stores t).raw.restrict (fun k => k.sourceId ≠ source),
    (s.stores t).rawShadow.restrict (fun k => k.sourceId ≠ source)⟩
  changeLog := s.changeLog.filter (fun c => c.entry.sourceId ≠ source)
  nextTxid := max s.nextTxid (txid + 1)
  openFrom := s.openFrom
  factLoanSnapshot := s.factLoanSnapshot.map (fun fact => fact.restrict (fun k => k.1.sourceId ≠ source))
  changeCursor := s.changeCursor
  dbtRunSeq := s.dbtRunSeq
  ranOn := s.ranOn

/-- The deletes in the two marts on `fact_loan_snapshot`; `lastRead` is what the last run read of the sources that are left. -/
def purgeMarts (txid : Nat) (s : Marts) : Marts where
  warehouse := purgeWarehouse source txid s.warehouse
  dirty := s.dirty
  cursors := s.cursors
  contents m := (s.contents m).map (fun rows => rows.filter (fun r => (m.key r).sourceId ≠ source))
  lastRead := purgeRaw source s.lastRead

/-- The deletes of `retire_source` in the warehouse and its marts. -/
def purge (txid : Nat) (s : AllMarts) : AllMarts where
  toMarts := purgeMarts source txid s.toMarts
  repaymentBehavior := s.repaymentBehavior.map (fun rows => rows.filter (fun r => r.key.sourceId ≠ source))

end Deletes

/-- A step of the pipeline, or the transaction of a retirement. -/
inductive Act (A : Type)
  | pipeline (a : A)
  | retireSource (source : String) (txid : Nat)

section Retirements
variable {State A : Type}

/-- The steps of the pipeline with retirements between them. -/
inductive Step (step : State → A → State → Prop) (openFrom : State → Nat) (purge : String → Nat → State → State) :
    State → Act A → State → Prop
  | pipeline {s t : State} {a : A} (taken : step s a t) : Step step openFrom purge s (.pipeline a) t
  | retireSource {s : State} {source : String} {txid : Nat} (fresh : openFrom s ≤ txid) :
      Step step openFrom purge s (.retireSource source txid) (purge source txid s)

/-- What the steps and the deletes keep holds in every run. -/
theorem kept_run {step : State → A → State → Prop} {openFrom : State → Nat} {purge : String → Nat → State → State}
    {I : State → Prop} {s t : State} {trace : List (Act A)} (initial : I s)
    (steps : ∀ {s a t}, I s → step s a t → I t) (purges : ∀ {s} source txid, I s → I (purge source txid s))
    (run : Run (Step step openFrom purge) s trace t) : I t := by
  refine run.stateInvariant initial (fun _ _ _ kept step => ?_)
  cases step with
  | pipeline taken => exact steps kept taken
  | retireSource fresh => exact purges _ _ kept

end Retirements

section Left
variable {source : String} {txid : Nat} {raw : RawTables} {l : Key} {d : Date}

@[simp] theorem purgeRaw_get {t : Table} {k : Key} :
    (purgeRaw source raw t).get k = if k.sourceId = source then none else (raw t).get k := by
  by_cases own : k.sourceId = source <;> simp [purgeRaw,own]

@[simp] theorem purgeWarehouse_raw {s : Warehouse} : (purgeWarehouse source txid s).raw = purgeRaw source s.raw := rfl

@[simp] theorem purgeMarts_raw {s : Marts} : (purgeMarts source txid s).raw = purgeRaw source s.raw := rfl

/-- The rows of the other sources stay. -/
theorem others_stay (raw : RawTables) (tables : List Table) {other : String} (apart : other ≠ source) :
    SameSource tables (purgeRaw source raw) raw other := by
  rintro t _ k rfl
  simp [apart]

/-- Nothing of the source is left, whatever it had. -/
theorem both_empty (raw raw' : RawTables) (tables : List Table) :
    SameSource tables (purgeRaw source raw) (purgeRaw source raw') source := by
  rintro t _ k own
  simp [own]

private theorem staged_purged {Row : Type} {t : Table} {read : (Column → Option Value) → Row} {k : Key} :
    (staged (purgeRaw source raw t) read).get k = if k.sourceId = source then none else (staged (raw t) read).get k := by
  by_cases own : k.sourceId = source
  · simp [staged,own]
  · rw [if_neg own]
    exact (others_stay raw [t] own).staged List.mem_cons_self rfl

private theorem loans_purged : (loans (purgeRaw source raw)).get l = if l.sourceId =
    source then none else (loans raw).get l := by
  have at_l : (stgMLoan (purgeRaw source raw)).get l = _ := staged_purged
  rw [loans,loans,Relation.filterMap_get,Relation.filterMap_get,at_l]
  split <;> rfl

private theorem pending_left {s : Warehouse} {c : LogEntry} (member : c ∈ pending s) (other : c.sourceId ≠ source) :
    c ∈ pending (purgeWarehouse source txid s) := by
  have unbuilt : (purgeWarehouse source txid s).factLoanSnapshot.isNone = s.factLoanSnapshot.isNone := by
    simp [purgeWarehouse]
  simp only [pending,changes,Warehouse.changeWindow,Bool.false_or,unbuilt] at member ⊢
  split at member
  · cases member
  · next built =>
    rw [if_neg built]
    obtain ⟨change,kept,rfl⟩ := List.mem_map.mp member
    obtain ⟨logged,window⟩ := List.mem_filter.mp kept
    refine List.mem_map.mpr ⟨change,List.mem_filter.mpr ⟨List.mem_filter.mpr ⟨logged,by simpa using other⟩,?_⟩,rfl⟩
    simp only [decide_eq_true_eq] at window ⊢
    exact ⟨window.1,lt_of_lt_of_le window.2 (le_max_left _ _)⟩

private theorem namedBy_left {s : Warehouse} (other : l.sourceId ≠ source) (named : NamedBy (pending s) l d) :
    NamedBy (pending (purgeWarehouse source txid s)) l d := by
  obtain ⟨c,member,names,le⟩ := named
  exact ⟨c,pending_left member (names.2.1.trans_ne other),names,le⟩

private theorem wholeSource_left {s : Warehouse} {other : String} (apart : other ≠ source)
    (whole : WholeSource (pending s) other) :
    WholeSource (pending (purgeWarehouse source txid s)) other := by
  obtain ⟨c,member,entity,rfl⟩ := whole
  exact ⟨c,pending_left member apart,entity,rfl⟩

private theorem disbursedBy_left (other : l.sourceId ≠ source) (disbursed : DisbursedBy raw l d) :
    DisbursedBy (purgeRaw source raw) l d := by
  rwa [DisbursedBy,loans_purged,if_neg other]

private theorem reported_left {s : Warehouse} (other : l.sourceId ≠ source) (reported : Reported s.raw (pending s) l d) :
    Reported (purgeRaw source s.raw) (pending (purgeWarehouse source txid s)) l d := by
  rcases reported with named | ⟨loan,found,c,member,reaches⟩
  · exact .inl (namedBy_left other named)
  · have own : c.sourceId = l.sourceId := by
      rcases reaches with ⟨_,own,_⟩ | ⟨_,own⟩
      · exact own
      · exact own
    refine .inr ⟨loan,?_,c,pending_left member (own.trans_ne other),reaches⟩
    rwa [loans_purged,if_neg other]

/-- A fact row that is left is one of another source. -/
theorem fact_left {table : FactTable} {row : FactRow}
    (found : (table.restrict (fun k => k.1.sourceId ≠ source)).get (l,d) = some row) :
    l.sourceId ≠ source ∧ table.get (l,d) = some row := by
  by_cases own : l.sourceId = source
  · simp [own] at found
  · exact ⟨own,by simpa [own] using found⟩

end Left

section Fact
variable {View : Type} {view : FactRow → View} {p : Project} {source : String} {txid : Nat} {s : Warehouse} {today : Date}

private theorem factAt_purged {h : Hashes} {raw : RawTables} {l : Key} {d : Date} :
    (factAt h (purgeRaw source raw) l d).map view =
    if l.sourceId = source then none else (factAt h raw l d).map view := by
  by_cases own : l.sourceId = source
  · have gone : snapshotAt h (purgeRaw source raw) l d = none := snapshotAt_unloaned (by rw [loans_purged,if_pos own])
    simp [factAt,gone,own]
  · rw [if_neg own]
    exact factAt_congr (snapshotAt_sameSource (others_stay _ _ own))

/-- A table that was accounted for is so after the deletes. -/
theorem pending_purge {table : FactTable} {base : RawTables} {ran : Date} (account : Pending view p s table base ran) :
    Pending view p (purgeWarehouse source txid s) (table.restrict (fun k => k.1.sourceId ≠ source)) (purgeRaw source base) ran := by
  refine ⟨?_,account.ranOn,account.cursor,?_,?_⟩
  · intro l d
    rw [factAt_purged]
    by_cases own : l.sourceId = source
    · simp [own]
    · simpa [own] using account.full l d
  · intro l d differs
    rw [purgeWarehouse_raw,factAt_purged,factAt_purged] at differs
    by_cases own : l.sourceId = source
    · simp [own] at differs
    · rw [if_neg own,if_neg own] at differs
      exact reported_left own (account.covers l d differs)
  · intro l d present
    by_cases own : l.sourceId = source
    · rw [snapshotAt_unloaned (by rw [loans_purged,if_pos own])] at present
      cases present
    · rw [snapshotAt_sameSource (others_stay _ _ own)] at present
      exact (account.anchored l d present).imp (namedBy_left own) (disbursedBy_left own)

private theorem accounted_purge (account : FactIncremental.Accounted view p s) :
    FactIncremental.Accounted view p (purgeWarehouse source txid s) := by
  intro table built
  obtain ⟨before,at_fact,rfl⟩ := Option.map_eq_some_iff.mp built
  obtain ⟨base,ran,account⟩ := account before at_fact
  exact ⟨purgeRaw source base,ran,pending_purge account⟩

private theorem accounted_unbuilt (unbuilt : s.factLoanSnapshot = none) : FactIncremental.Accounted view p s := by
  intro table built
  rw [unbuilt] at built
  cases built

/-- The steps before the first build need no condition. -/
theorem factTraceable_unbuilt {t : Warehouse} {a : FactBuild.Act} (unbuilt : s.factLoanSnapshot = none) :
    FactIncremental.Traceable s a t := by
  intro built
  rw [unbuilt] at built
  cases built

/-- In every run of calls, dbt runs and retirements, a dbt run leaves the table that the same run with a full rebuild
    gives. -/
theorem fact_survives_retirement {s₀ : Warehouse} {trace : List (Act FactBuild.Act)}
    (start : beginningOfTime ≤ p.historicalStartDate) (unbuilt : s₀.factLoanSnapshot = none)
    (run : Run (Step (FactIncremental.TraceableStep p) (·.openFrom) purgeWarehouse) s₀ trace s)
    (later : ∀ ran ∈ s.ranOn, ran ≤ today) :
    (dbtRun p false today s).map (·.factLoanSnapshot) = (dbtRun p true today s).map (·.factLoanSnapshot) := by
  have account : FactIncremental.Accounted id p s :=
    kept_run (accounted_unbuilt unbuilt) (fun account step => account.step start step) (fun _ _ account => accounted_purge account) run
  obtain ⟨fact,full,result⟩ := FactIncremental.run_isFull start account later
  obtain ⟨fact',full',result'⟩ := FactIncremental.full_run_isFull id s today start
  have same : fact = fact' := by
    refine Relation.ext_get (fun k => ?_)
    simpa using (full k.1 k.2).trans (full' k.1 k.2).symm
  rw [result,result',same]

/-- KAFKA owns the tables of two sources. -/
def twoSources : Routing.ControlState where
  registry := [⟨"branch-001","default",1⟩,⟨"branch-002","default",1⟩]
  ownership := ["m_office","m_product_loan","m_client","m_loan","m_loan_transaction"].flatMap (fun table =>
    ["branch-001","branch-002"].map (fun source =>
      { sourceId := source, tableName := table, engine := .KAFKA, shadowEngine := none, cutoverState := .STEADY, epoch := 2 }))
  registryKey := by decide
  ownershipKey := by decide
  registryText := by decide
  ownershipText := by decide

/-- The same upsert of the other source. -/
def ofOther (row : StagedRow) : StagedRow := { row with key := { row.key with sourceId := "branch-002" } }

/-- The same rows of both sources. -/
def ofBoth (txid : Nat) (table : Table) (row : StagedRow) : FactBuild.Act :=
  .applyStagedBatch txid table .KAFKA 0 newYear twoSources [row,ofOther row]

/-- A repayment of the second source arrives after the first build, and the first source is retired. -/
theorem fact_survives_retirement_other : ∃ s, Run (Step (FactIncremental.TraceableStep sampleProject) (·.openFrom) purgeWarehouse)
      emptyWarehouse [.pipeline (ofBoth 1 .mClient (upserted 1 1 [("office_id",.int 1)])),
        .pipeline (ofBoth 2 .mLoan (FactIncremental.sampleLoan 1)),.pipeline (.dbtRun newYear),
        .pipeline (.applyStagedBatch 9 .mLoanTransaction .KAFKA 0 newYear twoSources [ofOther (FactIncremental.repayment 1 1)]),
        .retireSource "branch-001" 11] s ∧ s.factLoanSnapshot.isSome ∧
    (dbtRun sampleProject false newYear s).map (·.factLoanSnapshot) =
      (dbtRun sampleProject true newYear s).map (·.factLoanSnapshot) := by
  have start : beginningOfTime ≤ sampleProject.historicalStartDate := by decide
  obtain ⟨after₁,log₁,step₁⟩ : ∃ after log, FactBuild.next sampleProject emptyWarehouse
      (ofBoth 1 .mClient (upserted 1 1 [("office_id",.int 1)])) = some (emptyWarehouse.commit 1 .mClient after log) :=
    FactIncremental.next_batch (by decide) rfl
  let s₁ := emptyWarehouse.commit 1 .mClient after₁ log₁
  obtain ⟨after₂,log₂,step₂⟩ : ∃ after log, FactBuild.next sampleProject s₁ (ofBoth 2 .mLoan (FactIncremental.sampleLoan 1)) =
      some (s₁.commit 2 .mLoan after log) := FactIncremental.next_batch (show 1 ≤ 2 by decide) rfl
  let s₂ := s₁.commit 2 .mLoan after₂ log₂
  have unran : ∀ ran ∈ s₂.ranOn, ran ≤ newYear := by simp [s₂,s₁,Warehouse.commit,emptyWarehouse]
  obtain ⟨fact,_,built⟩ : ∃ fact, IsFull id sampleProject s₂.raw newYear fact ∧
      (dbtRun sampleProject false newYear s₂).map (·.factLoanSnapshot) = some (some fact) :=
    FactIncremental.run_isFull start (accounted_unbuilt rfl) unran
  obtain ⟨s₃,ran,at_fact⟩ := Option.map_eq_some_iff.mp built
  have step₃ : FactBuild.next sampleProject s₂ (.dbtRun newYear) = some s₃ := by
    have single : SingleMapping s₂.raw := by
      intro m member
      cases Relation.mem_rowSet.mp member
    rw [FactBuild.next,if_pos ⟨single,unran⟩,ran]
  obtain ⟨_,_,same⟩ := Option.map_eq_some_iff.mp ran
  have fresh : s₃.openFrom ≤ 9 := by rw [← same]; exact (show 3 ≤ 9 by decide)
  have stored : s₃.raw .mLoanTransaction = .empty := by rw [← same]; rfl
  obtain ⟨after₄,log₄,step₄⟩ : ∃ after log, FactBuild.next sampleProject s₃
      (.applyStagedBatch 9 .mLoanTransaction .KAFKA 0 newYear twoSources [ofOther (FactIncremental.repayment 1 1)]) =
      some (s₃.commit 9 .mLoanTransaction after log) := FactIncremental.next_batch fresh rfl
  let s₄ := s₃.commit 9 .mLoanTransaction after₄ log₄
  have traceable : FactIncremental.Traceable s₃
      (.applyStagedBatch 9 .mLoanTransaction .KAFKA 0 newYear twoSources [ofOther (FactIncremental.repayment 1 1)]) s₄ := by
    refine fun _ => ⟨fun _ k old new found => ?_,fun other => by cases other⟩
    rw [stored] at found
    cases found
  have run : Run (Step (FactIncremental.TraceableStep sampleProject) (·.openFrom) purgeWarehouse) emptyWarehouse _
      (purgeWarehouse "branch-001" 11 s₄) :=
    ((((Run.start.extend (.pipeline ⟨step₁,factTraceable_unbuilt rfl⟩)).extend (.pipeline ⟨step₂,factTraceable_unbuilt rfl⟩)).extend
      (.pipeline ⟨step₃,factTraceable_unbuilt rfl⟩)).extend (.pipeline ⟨step₄,traceable⟩)).extend
      (.retireSource (show s₃.openFrom ≤ 11 from fresh.trans (by decide)))
  refine ⟨_,run,?_,fact_survives_retirement start rfl run ?_⟩
  · simp [purgeWarehouse,s₄,Warehouse.commit,at_fact]
  · intro day found
    have today : s₃.ranOn = some newYear := by rw [← same]
    rw [Option.some.inj (found.symm.trans today)]

end Fact

section Marts
variable {p : Project} {m : Mart} {source : String} {txid : Nat} {s : Marts} {raw raw' : RawTables}

/-- The names of a group are made of the rows of its source. -/
theorem namesOf_sameSource {k : MartKey} (same : SameSource [.mOffice,.mProductLoan] raw raw' k.sourceId) :
    namesOf raw k = namesOf raw' k := by
  have office (id : Int) : (dimOffice raw).get ⟨k.sourceId,k.tenantId,id⟩ = (dimOffice raw').get ⟨k.sourceId,k.tenantId,id⟩ :=
    same.staged (by decide) rfl
  have product (id : Int) :
      (dimProduct raw).get ⟨k.sourceId,k.tenantId,id⟩ = (dimProduct raw').get ⟨k.sourceId,k.tenantId,id⟩ :=
    same.staged (by decide) rfl
  simp only [namesOf,named,office,product]

private theorem dimOffice_purged {k : Key} :
    (dimOffice (purgeRaw source raw)).get k = if k.sourceId = source then none else (dimOffice raw).get k := staged_purged

/-- Flows that differ after the deletes are of another source, and differed before. -/
theorem flowsDiffer_left {l : Key} {d : Date} (differ : FlowsDiffer (purgeRaw source raw) (purgeRaw source raw') l d) :
    l.sourceId ≠ source ∧ FlowsDiffer raw raw' l d := by
  have other : l.sourceId ≠ source := by
    rintro rfl
    exact not_differ (both_empty raw raw' _) differ
  refine ⟨other,?_⟩
  rcases differ.before with gone | later
  · exact absurd gone (not_differ (others_stay raw _ other))
  · rcases later.before with old | gone
    · exact old
    · exact absurd gone (not_differ (fun t member k own => (others_stay raw' _ other t member k own).symm))

private theorem tracked_purge {table : FactTable} (tracked : MartIncremental.Tracked p m s table) :
    MartIncremental.Tracked p m (purgeMarts source txid s) (table.restrict (fun k => k.1.sourceId ≠ source)) where
  cursor := tracked.cursor
  begun l d present := by
    obtain ⟨row,found⟩ := Option.isSome_iff_exists.mp present
    exact tracked.begun l d (by simp [(fact_left found).2])
  anchored l d present := by
    obtain ⟨row,found⟩ := Option.isSome_iff_exists.mp present
    obtain ⟨other,before⟩ := fact_left found
    exact (tracked.anchored l d (by simp [before])).imp (namedBy_left other) (disbursedBy_left other)
  offices k differs := by
    rw [purgeMarts_raw,show (purgeMarts source txid s).lastRead = purgeRaw source s.lastRead from rfl,dimOffice_purged,
      dimOffice_purged] at differs
    by_cases own : k.sourceId = source
    · simp [own] at differs
    · rw [if_neg own,if_neg own] at differs
      exact wholeSource_left own (tracked.offices k differs)
  flows health l d begun differ := by
    obtain ⟨other,differ⟩ := flowsDiffer_left differ
    exact reported_left other (tracked.flows health l d begun differ)

/-- The marts have no group of the source after the deletes, and those of the other sources as before. -/
theorem select_purged {h : Hashes} {table : FactTable} {k : ParKey} : atKey m.key k (m.select h none
      (table.restrict (fun k => k.1.sourceId ≠ source)).rows (purgeRaw source raw)) =
    if k.sourceId = source then 0 else atKey m.key k (m.select h none table.rows raw) := by
  split
  · next own =>
    refine select_empty m (Multiset.eq_zero_of_forall_notMem ?_)
    rintro ⟨⟨l,d⟩,row⟩ inside
    obtain ⟨found,keyed⟩ := MartIncremental.mem_groupRows.mp inside
    have source_eq : l.sourceId = k.sourceId := congrArg ParKey.sourceId keyed
    exact (fact_left found).1 (source_eq.trans own)
  · next other =>
    refine select_congr m (MartIncremental.groupRows_congr (fun l row _ keyed => ?_)) (fun _ => ⟨?_,fun _ => ?_⟩)
    · have source_eq : l.sourceId = k.sourceId := congrArg ParKey.sourceId keyed
      simp [source_eq,other]
    · exact namesOf_sameSource (others_stay _ _ other)
    · refine MartIncremental.groupFlows_congr (fun l source_eq _ t => ?_)
      have same : SameSource flowTables (purgeRaw source raw) raw l.sourceId := others_stay _ _ (source_eq.trans_ne other)
      rw [FlowsAt,FlowsAt,loanPartition_sameSource same,counted_sameSource same]

private theorem kept_purge (kept : MartIncremental.Kept p m s) : MartIncremental.Kept p m (purgeMarts source txid s) where
  tracked table built := by
    obtain ⟨before,at_fact,rfl⟩ := Option.map_eq_some_iff.mp built
    exact tracked_purge (kept.tracked before at_fact)
  cursor := kept.cursor
  accounted rows content := by
    obtain ⟨before,shown,rfl⟩ := Option.map_eq_some_iff.mp content
    obtain ⟨table,at_fact,accounted⟩ := kept.accounted before shown
    refine ⟨_,Option.map_eq_some_iff.mpr ⟨table,at_fact,rfl⟩,accounted.deleted (fun k => k.sourceId ≠ source) ?_ ?_⟩
    · intro k other
      exact (select_purged.trans (if_neg other)).symm
    · intro k own
      exact select_purged.trans (if_pos (not_not.mp own))

end Marts

section Repayment
variable {p : Project} {source : String} {txid : Nat} {s : AllMarts} {raw raw' : RawTables} {h : Hashes} {e : Entry}

/-- The entries of the source are gone, and those of the other sources are counted as before. -/
theorem counts_purged : Counts h (purgeRaw source raw) e ↔ e.dimension.loan.sourceId ≠ source ∧ Counts h raw e := by
  by_cases own : e.dimension.loan.sourceId = source
  · refine iff_of_false (fun counts => ?_) (fun both => both.1 own)
    have at_l : (stgMLoan (purgeRaw source raw)).get e.dimension.loan = none := staged_purged.trans (if_pos own)
    have there := counts_partition counts
    simp [loanPartition,at_l] at there
  · rw [and_iff_right own]
    exact counts_sameSource (others_stay raw _ own)

private theorem repayment_purged {k : MartKey} : atKey MartRow.key k (martRepaymentBehavior h none (purgeRaw source raw)) =
    if k.sourceId = source then 0 else atKey MartRow.key k (martRepaymentBehavior h none raw) := by
  rw [mart_at,mart_at]
  by_cases own : k.sourceId = source
  · have empty : groupOf h (purgeRaw source raw) k = 0 := by
      refine groupOf_empty (fun e keyed counts => (counts_purged.mp counts).1 ?_)
      rw [← counts.1.key_source,keyed,own]
    simp [own,empty]
  · have same : groupOf h (purgeRaw source raw) k = groupOf h raw k := by
      refine groupOf_congr (fun e keyed => ?_) (fun _ _ _ => namesOf_sameSource (others_stay _ _ own))
      rw [counts_purged,and_iff_right_iff_imp]
      intro counts
      rwa [← counts.1.key_source,keyed]
    rw [if_neg own,same]

private theorem repaymentTracked_purge (tracked : RepaymentIncremental.Tracked h s.toMarts) :
    RepaymentIncremental.Tracked h (purgeMarts source txid s.toMarts) where
  cursor := tracked.cursor
  offices k differs := by
    rw [purgeMarts_raw,show (purgeMarts source txid s.toMarts).lastRead = purgeRaw source s.lastRead from rfl,dimOffice_purged,
      dimOffice_purged] at differs
    by_cases own : k.sourceId = source
    · simp [own] at differs
    · rw [if_neg own,if_neg own] at differs
      exact wholeSource_left own (tracked.offices k differs)
  entries e d dated first differs := by
    rw [Differs,purgeMarts_raw,show (purgeMarts source txid s.toMarts).lastRead = purgeRaw source s.lastRead from rfl,
      counts_purged,counts_purged] at differs
    have other : e.dimension.loan.sourceId ≠ source := by
      intro own
      simp [own] at differs
    rw [and_iff_right other,and_iff_right other] at differs
    exact reported_left other (tracked.entries e d dated first differs)

private theorem repaymentKept_purge (kept : RepaymentIncremental.Kept p s) :
    RepaymentIncremental.Kept p (purge source txid s) where
  cursor := kept.cursor
  fact built := by
    have before : s.repaymentBehavior.isSome := by simpa [purge] using built
    simpa [purge,purgeMarts,purgeWarehouse] using kept.fact before
  tracked built := by
    have before : s.repaymentBehavior.isSome := by simpa [purge] using built
    exact repaymentTracked_purge (kept.tracked before)
  accounted rows found := by
    obtain ⟨before,shown,rfl⟩ := Option.map_eq_some_iff.mp found
    refine (kept.accounted before shown).deleted (fun k => k.sourceId ≠ source) ?_ ?_
    · intro k other
      exact (repayment_purged.trans (if_neg other)).symm
    · intro k own
      exact repayment_purged.trans (if_pos (not_not.mp own))

end Repayment

section Runs
variable {p : Project} {s t : AllMarts} {fullRefresh : Bool} {today : Date} {built : Finset Consumer}

/-- A step that meets the conditions of all three marts. -/
def TraceableStep (p : Project) (s : AllMarts) (a : MartRuns.Act) (t : AllMarts) : Prop :=
  RepaymentIncremental.TraceableStep p s a t ∧ ∀ m, MartIncremental.Traceable p m s.toMarts a t.toMarts

/-- All three marts are accounted for. -/
structure AllKept (p : Project) (s : AllMarts) : Prop where
  marts : ∀ m, MartIncremental.Kept p m s.toMarts
  repayment : RepaymentIncremental.Kept p s

/-- No model has been built. -/
structure Unbuilt (s : AllMarts) : Prop where
  marts : MartIncremental.Unbuilt s.toMarts
  repayment : s.repaymentBehavior = none

theorem Unbuilt.kept (unbuilt : Unbuilt s) : AllKept p s :=
  ⟨fun _ => unbuilt.marts.kept,RepaymentIncremental.Unbuilt.kept ⟨unbuilt.marts.cursors _,unbuilt.repayment⟩⟩

theorem next_marts {a : MartRuns.Act} (taken : RepaymentIncremental.next p s a = some t) :
    MartRuns.next p s.toMarts a = some t.toMarts := by
  obtain ⟨after,stepped,rfl⟩ := Option.map_eq_some_iff.mp taken
  exact stepped

theorem AllKept.step (start : beginningOfTime ≤ p.historicalStartDate) {a : MartRuns.Act} (kept : AllKept p s)
    (step : TraceableStep p s a t) : AllKept p t :=
  ⟨fun m => (kept.marts m).step start ⟨next_marts step.1.1,step.2 m⟩,kept.repayment.step step.1⟩

theorem AllKept.purge (source : String) (txid : Nat) (kept : AllKept p s) : AllKept p (purge source txid s) :=
  ⟨fun m => kept_purge (kept.marts m),repaymentKept_purge kept.repayment⟩

/-- In every run of calls, dbt runs and retirements, a dbt run leaves each mart that it builds as a build that is not
    incremental makes it of the same tables. -/
theorem marts_survive_retirement {s₀ : AllMarts} {trace : List (Act MartRuns.Act)}
    (start : beginningOfTime ≤ p.historicalStartDate) (unbuilt : Unbuilt s₀)
    (run : Run (Step (TraceableStep p) (·.warehouse.openFrom) RetiredMarts.purge) s₀ trace s)
    (step : TraceableStep p s (.dbtRun fullRefresh today built) t) :
    (∀ m, consumerOf m ∈ built →
      t.contents m = some (m.select p.hashes none (factRows t.warehouse.factLoanSnapshot) t.raw)) ∧
    (.martRepaymentBehavior ∈ built → t.repaymentBehavior = some (RepaymentMart.martRepaymentBehavior p.hashes t.raw)) := by
  have kept : AllKept p s := kept_run unbuilt.kept (fun kept step => kept.step start step)
    (fun source txid kept => kept.purge source txid) run
  refine ⟨fun m member => ?_,fun member => ?_⟩
  · have taken := next_marts step.1.1
    simp only [MartRuns.next] at taken
    split at taken
    · exact ((kept.marts m).run start taken (step.2 m)).2 member
    · cases taken
  · have after := RepaymentIncremental.built_of_next step.1.1
    obtain ⟨fact,ran⟩ := after.ran
    rw [after.in_full kept.repayment step.1.2 member,full_eq,ran.raw]

end Runs

/-- Build all three marts. -/
def allRun : MartRuns.Act := .dbtRun false newYear {.martDelinquencyPar,.martPortfolioHealth,.martRepaymentBehavior}

theorem next_allRun {p : Project} {s : AllMarts} (mapped : SingleMapping s.raw)
    (ran : ∀ day ∈ s.warehouse.ranOn, day ≤ newYear) : ∃ t, RepaymentIncremental.next p s allRun = some t := by
  obtain ⟨after,taken⟩ : ∃ after, MartRuns.next p s.toMarts allRun = some after := MartIncremental.next_dbtRun mapped ran
  exact ⟨_,Option.map_eq_some_iff.mpr ⟨after,taken,rfl⟩⟩

/-- Without transactions and installments nothing is counted. -/
theorem none_counted {h : Hashes} {raw : RawTables} (no_transactions : raw .mLoanTransaction = .empty)
    (no_installments : raw .mLoanRepaymentSchedule = .empty) (e : Entry) : ¬Counts h raw e := by
  intro counts
  cases e with
  | posted r =>
    have found := counts.1.1
    rw [stagedTransactions,no_transactions] at found
    cases found
  | due r =>
    have found := counts.1.1
    rw [stagedInstallments,no_installments] at found
    cases found

/-- A source without transactions and installments, since the last run as well. -/
structure Quiet (s : AllMarts) : Prop where
  transactions : s.raw .mLoanTransaction = .empty
  installments : s.raw .mLoanRepaymentSchedule = .empty
  transactionsRead : s.lastRead .mLoanTransaction = .empty
  installmentsRead : s.lastRead .mLoanRepaymentSchedule = .empty

/-- Nothing has to be found by a run over the same products. -/
theorem traceable_run {p : Project} {s t : AllMarts} (quiet : Quiet s)
    (products : s.lastRead .mProductLoan = s.raw .mProductLoan)
    (taken : RepaymentIncremental.next p s allRun = some t) : TraceableStep p s allRun t := by
  have uncounted (e : Entry) : ¬Counts p.hashes s.raw e := none_counted quiet.transactions quiet.installments e
  have uncounted_read (e : Entry) : ¬Counts p.hashes s.lastRead e := none_counted quiet.transactionsRead quiet.installmentsRead e
  have same : dimProduct s.lastRead = dimProduct s.raw := by rw [dimProduct,products,dimProduct]
  refine ⟨⟨taken,fun _ table _ _ => ⟨⟨?_,?_,?_⟩,fun _ e counts => absurd counts (uncounted e)⟩⟩,fun m table _ => ⟨?_,fun _ => ?_⟩⟩
  · exact fun e d id _ _ counts => absurd counts (uncounted e)
  · exact fun e d id _ _ counts => absurd counts (uncounted e)
  · exact fun e d _ _ counts => absurd counts (uncounted_read e)
  · exact fun l d row id _ _ changed => absurd (by rw [same]) changed
  · intro l d office product currency t _ flows
    have found := flows.2.1
    rw [stagedTransactions,quiet.transactionsRead] at found
    cases found

/-- The offices do not enter what has to be traceable. -/
theorem traceable_offices {p : Project} {s : AllMarts} {txid : Nat} {db : Routing.ControlState} {stage : List StagedRow}
    {after : Stores} {log : List LogEntry} (quiet : Quiet s)
    (taken : RepaymentIncremental.next p s (.applyStagedBatch txid .mOffice .KAFKA 0 newYear db stage) =
      some ⟨MartIncremental.committed s.toMarts txid .mOffice after log,s.repaymentBehavior⟩) :
    TraceableStep p s (.applyStagedBatch txid .mOffice .KAFKA 0 newYear db stage)
      ⟨MartIncremental.committed s.toMarts txid .mOffice after log,s.repaymentBehavior⟩ := by
  refine ⟨⟨taken,fun rows table _ _ e d _ _ differs => ?_⟩,fun m table _ _ => ⟨fun other => ?_,fun other => ?_,fun other => ?_⟩⟩
  · refine absurd (iff_of_false (none_counted quiet.transactionsRead quiet.installmentsRead e) (none_counted ?_ ?_ e)) differs
    · exact (congrFun MartIncremental.committed_raw _).trans quiet.transactions
    · exact (congrFun MartIncremental.committed_raw _).trans quiet.installments
  · cases other
  · cases other
  · cases other

theorem traceable_unbuilt {p : Project} {s t : AllMarts} {a : MartRuns.Act} (fact : s.warehouse.factLoanSnapshot = none)
    (repayment : s.repaymentBehavior = none) (taken : RepaymentIncremental.next p s a = some t) : TraceableStep p s a t :=
  ⟨RepaymentIncremental.traceable_unbuilt repayment taken,
    fun _ => (MartIncremental.traceable_unbuilt fact (next_marts taken)).2⟩

/-- The same rows of both sources, for the marts. -/
def callBoth (txid : Nat) (table : Table) (row : StagedRow) : MartRuns.Act :=
  .applyStagedBatch txid table .KAFKA 0 newYear twoSources [row,ofOther row]

def personalLoan : StagedRow := upserted 1 1
  [("client_id",.int 1),("product_id",.int 1),("currency_code",.text "USD"),("disbursedon_date",.date newYear)]

/-- The office of the second source is renamed. -/
def renameOther : MartRuns.Act :=
  .applyStagedBatch 9 .mOffice .KAFKA 0 newYear twoSources [ofOther (upserted 1 2 [("name",.text "Main office")])]

/-- After the marts are built an office of the second source is renamed and the first source is retired; then the marts
    are built again. -/
theorem marts_survive_retirement_other : ∃ s t, Run (Step (TraceableStep sampleProject) (·.warehouse.openFrom) RetiredMarts.purge)
      RepaymentIncremental.emptyMarts [
        .pipeline (callBoth 1 .mOffice (upserted 1 1 [("name",.text "Head office")])),
        .pipeline (callBoth 2 .mProductLoan (upserted 1 1 [("name",.text "Personal loan")])),
        .pipeline (callBoth 3 .mClient (upserted 1 1 [("office_id",.int 1)])),.pipeline (callBoth 4 .mLoan personalLoan),
        .pipeline allRun,.pipeline renameOther,.retireSource "branch-001" 11] s ∧
    RepaymentIncremental.next sampleProject s allRun = some t ∧ t.contents .portfolioHealth =
      some (Mart.select sampleProject.hashes none (factRows t.warehouse.factLoanSnapshot) t.raw .portfolioHealth) ∧
    t.repaymentBehavior = some (RepaymentMart.martRepaymentBehavior sampleProject.hashes t.raw) := by
  have start : beginningOfTime ≤ sampleProject.historicalStartDate := by decide
  have unbuilt : Unbuilt RepaymentIncremental.emptyMarts := ⟨⟨rfl,fun _ => rfl,fun _ => rfl⟩,rfl⟩
  have mapped : SingleMapping RepaymentIncremental.emptyMarts.raw := by
    intro m member
    cases Relation.mem_rowSet.mp member
  obtain ⟨after₁,log₁,step₁⟩ : ∃ after log, RepaymentIncremental.next sampleProject RepaymentIncremental.emptyMarts
      (callBoth 1 .mOffice (upserted 1 1 [("name",.text "Head office")])) =
        some ⟨MartIncremental.committed RepaymentIncremental.emptyMarts.toMarts 1 .mOffice after log,none⟩ :=
    RepaymentIncremental.next_call (by decide) rfl
  let s₁ : AllMarts := ⟨MartIncremental.committed RepaymentIncremental.emptyMarts.toMarts 1 .mOffice after₁ log₁,none⟩
  obtain ⟨after₂,log₂,step₂⟩ : ∃ after log, RepaymentIncremental.next sampleProject s₁
      (callBoth 2 .mProductLoan (upserted 1 1 [("name",.text "Personal loan")])) =
        some ⟨MartIncremental.committed s₁.toMarts 2 .mProductLoan after log,none⟩ :=
    RepaymentIncremental.next_call (show 1 ≤ 2 by decide) rfl
  let s₂ : AllMarts := ⟨MartIncremental.committed s₁.toMarts 2 .mProductLoan after₂ log₂,none⟩
  obtain ⟨after₃,log₃,step₃⟩ : ∃ after log, RepaymentIncremental.next sampleProject s₂
      (callBoth 3 .mClient (upserted 1 1 [("office_id",.int 1)])) =
        some ⟨MartIncremental.committed s₂.toMarts 3 .mClient after log,none⟩ :=
    RepaymentIncremental.next_call (show 1 ≤ 3 by decide) rfl
  let s₃ : AllMarts := ⟨MartIncremental.committed s₂.toMarts 3 .mClient after₃ log₃,none⟩
  obtain ⟨after₄,log₄,step₄⟩ : ∃ after log, RepaymentIncremental.next sampleProject s₃ (callBoth 4 .mLoan personalLoan) =
        some ⟨MartIncremental.committed s₃.toMarts 4 .mLoan after log,none⟩ :=
    RepaymentIncremental.next_call (show 1 ≤ 4 by decide) rfl
  let s₄ : AllMarts := ⟨MartIncremental.committed s₃.toMarts 4 .mLoan after₄ log₄,none⟩
  have unran : ∀ day ∈ s₄.warehouse.ranOn, day ≤ newYear := by simp [s₄,s₃,s₂,s₁,MartIncremental.committed,Warehouse.commit,
    RepaymentIncremental.emptyMarts,MartIncremental.emptyMarts,emptyWarehouse]
  obtain ⟨s₅,step₅⟩ : ∃ s₅, RepaymentIncremental.next sampleProject s₄ allRun = some s₅ := next_allRun mapped unran
  obtain ⟨fact₅,ran₅⟩ := (RepaymentIncremental.built_of_next step₅).ran
  have fresh : s₅.warehouse.openFrom ≤ 9 := ran₅.openFrom.trans_le (show 5 ≤ 9 by decide)
  have quiet₅ : Quiet s₅ := by
    refine ⟨?_,?_,?_,?_⟩
    · rw [ran₅.raw]; rfl
    · rw [ran₅.raw]; rfl
    · rw [ran₅.lastRead]; rfl
    · rw [ran₅.lastRead]; rfl
  obtain ⟨after₆,log₆,step₆⟩ : ∃ after log, RepaymentIncremental.next sampleProject s₅ renameOther =
        some ⟨MartIncremental.committed s₅.toMarts 9 .mOffice after log,s₅.repaymentBehavior⟩ :=
    RepaymentIncremental.next_call fresh rfl
  let s₆ : AllMarts := ⟨MartIncremental.committed s₅.toMarts 9 .mOffice after₆ log₆,s₅.repaymentBehavior⟩
  let s₇ := RetiredMarts.purge "branch-001" 11 s₆
  have others (table : Table) (other : table ≠ .mOffice) : s₆.raw table = s₅.raw table :=
    (congrFun MartIncremental.committed_raw _).trans (Function.update_of_ne other ..)
  have purged (table : Table) : s₇.raw table = (s₆.raw table).restrict (fun k => k.sourceId ≠ "branch-001") := rfl
  have purged_read (table : Table) : s₇.lastRead table = (s₅.lastRead table).restrict (fun k => k.sourceId ≠ "branch-001") := rfl
  have empty : (Relation.empty : RawTable).restrict (fun k => k.sourceId ≠ "branch-001") = .empty := by
    refine Relation.ext_get (fun k => ?_)
    simp
  have quiet₇ : Quiet s₇ := by
    refine ⟨?_,?_,?_,?_⟩
    · rw [purged,others _ (by decide),quiet₅.transactions,empty]
    · rw [purged,others _ (by decide),quiet₅.installments,empty]
    · rw [purged_read,quiet₅.transactionsRead,empty]
    · rw [purged_read,quiet₅.installmentsRead,empty]
  have products : s₇.lastRead .mProductLoan = s₇.raw .mProductLoan := by
    rw [purged,purged_read,others _ (by decide),ran₅.lastRead,ran₅.raw]
  have mapped₇ : SingleMapping s₇.raw := by
    intro m member
    have unmapped : s₇.raw .mDelinquencyBucketMappings = .empty := by
      rw [purged,others _ (by decide),ran₅.raw]
      exact empty
    rw [mappings,unmapped] at member
    cases Relation.mem_rowSet.mp member
  have ran₇ : ∀ day ∈ s₇.warehouse.ranOn, day ≤ newYear := by
    intro day found
    exact (Option.some.inj ((Option.mem_def.mp found).symm.trans ran₅.ranOn)).le
  obtain ⟨t,taken⟩ : ∃ t, RepaymentIncremental.next sampleProject s₇ allRun = some t := next_allRun mapped₇ ran₇
  have run : Run (Step (TraceableStep sampleProject) (·.warehouse.openFrom) RetiredMarts.purge) RepaymentIncremental.emptyMarts _ s₇ :=
    ((((((Run.start.extend (.pipeline (traceable_unbuilt rfl rfl step₁))).extend (.pipeline (traceable_unbuilt rfl rfl step₂))).extend
      (.pipeline (traceable_unbuilt rfl rfl step₃))).extend (.pipeline (traceable_unbuilt rfl rfl step₄))).extend
      (.pipeline (traceable_unbuilt rfl rfl step₅))).extend (.pipeline (traceable_offices quiet₅ step₆))).extend
      (.retireSource (show s₅.warehouse.openFrom ≤ 11 from fresh.trans (by decide)))
  have survives := marts_survive_retirement start unbuilt run (traceable_run quiet₇ products taken)
  exact ⟨s₇,t,run,taken,survives.1 .portfolioHealth (by decide),survives.2 (by decide)⟩

end FineractBi.RetiredMarts
