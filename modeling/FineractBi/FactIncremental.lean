import FineractBi.ChangeTracking
import FineractBi.Convergence
import FineractBi.Lib.Runs

/-!
`fact_loan_snapshot` built incrementally against a full rebuild. Between two
runs the pending part of the change log reports every snapshot that differs from
the table (`Pending`); a run then recomputes all of them, so that the table is
again what a full rebuild gives.
-/
namespace FineractBi.FactIncremental
open Calendar Runs FineractBi.Contract FineractBi.ApplyBatch FineractBi.Staging FineractBi.LoanSnapshot
open FineractBi.FactBuild FineractBi.ChangeTracking
open FineractBi.Routing (ControlState)

/-- In a view of its rows, the table holds the snapshots of the raw tables from the historical start to a date. -/
def IsFull {View : Type} (view : FactRow → View) (p : Project) (raw : RawTables) (ran : Date) (fact : FactTable) : Prop :=
  ∀ l d, (fact.get (l,d)).map view = if p.historicalStartDate ≤ d ∧ d ≤ ran
    then (factAt p.hashes raw l d).map view else none

section Scope
variable {p : Project} {w : ChangeWindow} {log : List LoggedChange} {raw : RawTables} {fact : Option FactTable}
  {today d : Date} {l : Key}

theorem scope_get : (intSnapshotScope p w log raw fact today).get l =
    scopeOf p.historicalStartDate (scopeRows w log raw fact today l) := by
  rw [intSnapshotScope,Relation.tabulate_get]
  split
  · rfl
  · next outside =>
    simp only [Finset.mem_union,not_or] at outside
    have no_loan : (loans raw).get l = none := by
      have absent : (stgMLoan raw).get l = none := by
        by_contra present
        exact outside.1 ((Relation.mem_keys _ l).mpr (Option.isSome_iff_ne_none.mpr present))
      simp [loans,absent]
    have unnamed : (changes w log).filter (fun c => NamesLoan l c) = [] := by
      rw [List.filter_eq_nil_iff]
      intro c member named
      obtain ⟨loan,source,tenant,id⟩ := of_decide_eq_true named
      refine outside.2 (List.mem_toFinset.mpr (List.mem_map.mpr ⟨c,List.mem_filter.mpr ⟨member,by simp [loan]⟩,?_⟩))
      simp [source,tenant,id]
    simp [scopeRows,no_loan,unnamed,scopeOf]

/-- A date before the scope of a loan is before all its scope rows. -/
theorem before_rows (outside : ∀ sc, (intSnapshotScope p w log raw fact today).get l = some sc → d < sc.fromDate)
    (start : p.historicalStartDate ≤ d) : ∀ r ∈ scopeRows w log raw fact today l, d < r.fromDate := by
  intro r member
  have dated : r.fromDate ∈ (scopeRows w log raw fact today l).map (·.fromDate) := List.mem_map.mpr ⟨r,member,rfl⟩
  obtain ⟨least,found⟩ := Option.isSome_iff_exists.mp (List.isSome_min?_of_mem dated)
  have before := outside _ (by rw [scope_get,scopeOf,found]; rfl)
  rcases lt_max_iff.mp before with before | before
  · exact lt_of_lt_of_le before ((List.min?_eq_some_iff.mp found).2 _ dated)
  · exact absurd start (not_le.mpr before)

/-- An entry that reports a date gives a row of the scope that is not after it. -/
theorem reported_row (start : beginningOfTime ≤ d) (reported : Reported raw (changes w log) l d) :
    ∃ r ∈ scopeRows w log raw fact today l, r.isRollForward = false ∧ r.fromDate ≤ d := by
  rcases reported with ⟨c,member,named,le⟩ | ⟨loan,found,c,member,reaches⟩
  · refine ⟨⟨c.minAffectedDate,false⟩,List.mem_append_left _ ?_,rfl,le⟩
    exact List.mem_map.mpr ⟨c,List.mem_filter.mpr ⟨member,decide_eq_true named⟩,rfl⟩
  · refine ⟨⟨beginningOfTime,false⟩,List.mem_append_right _ ?_,rfl,start⟩
    simp only [found]
    refine List.mem_append_left _ (List.mem_append_right _ ?_)
    exact List.mem_map.mpr ⟨c,List.mem_filter.mpr ⟨member,decide_eq_true reaches⟩,rfl⟩

/-- No entry of the window reports a date before the scope of a loan. -/
theorem not_reported (early : ∀ r ∈ scopeRows w log raw fact today l, d < r.fromDate) (start : beginningOfTime ≤ d) :
    ¬Reported raw (changes w log) l d := by
  intro reported
  obtain ⟨r,member,_,le⟩ := reported_row start reported
  exact absurd le (not_le.mpr (early r member))

/-- A loan that is reported by a date has changed from then on, or earlier. -/
theorem changedFrom_le (start : beginningOfTime ≤ d) (reported : Reported raw (changes w log) l d) :
    ∃ sc x, (intSnapshotScope p w log raw fact today).get l = some sc ∧ sc.changedFrom = some x ∧ x ≤ d := by
  obtain ⟨r,member,unrolled,le⟩ := @reported_row w log raw fact today d l start reported
  have dated : r.fromDate ∈ (scopeRows w log raw fact today l).map (·.fromDate) := List.mem_map.mpr ⟨r,member,rfl⟩
  have changed : r.fromDate ∈ ((scopeRows w log raw fact today l).filter (fun r => !r.isRollForward)).map (·.fromDate) :=
    List.mem_map.mpr ⟨r,List.mem_filter.mpr ⟨member,by simp [unrolled]⟩,rfl⟩
  obtain ⟨least,found⟩ := Option.isSome_iff_exists.mp (List.isSome_min?_of_mem dated)
  obtain ⟨x,at_x⟩ := Option.isSome_iff_exists.mp (List.isSome_min?_of_mem changed)
  refine ⟨⟨max least p.historicalStartDate,_⟩,x,?_,at_x,((List.min?_eq_some_iff.mp at_x).2 _ changed).trans le⟩
  rw [scope_get,scopeOf,found]
  rfl

/-- The roll-forward covers the dates after the last run. -/
theorem no_snapshot_after {h : Hashes} {table : FactTable} {ran : Date} (incremental : w.fullRebuild = false)
    (early : ∀ r ∈ scopeRows w log raw (some table) today l, d < r.fromDate) (start : beginningOfTime ≤ d)
    (past : ∀ k ∈ table.keys, k.2 ≤ ran) (later : ran < d) (le : d ≤ today) : snapshotAt h raw l d = none := by
  by_contra present
  obtain ⟨row,found⟩ := Option.ne_none_iff_exists'.mp present
  obtain ⟨base,at_l,_,open_⟩ := snapshotAt_eq_some found
  have rolled : ∀ r ∈ rollForward w (factMax (some table) l.sourceId) today base.loan, d < r.fromDate := by
    intro r member
    refine early r (List.mem_append_right _ ?_)
    simp only [loans_of_base at_l]
    exact List.mem_append_right _ member
  cases newest : factMax (some table) l.sourceId with
  | none =>
    simp only [rollForward,incremental,newest,Bool.false_eq_true,if_false,List.mem_singleton,forall_eq] at rolled
    exact absurd start (not_le.mpr rolled)
  | some maxDate =>
    have max_le : maxDate ≤ ran := by
      have bound : (table.keys.filter (fun k => k.1.sourceId = l.sourceId)).sup (fun k => (k.2 : WithBot Date)) ≤
          (ran : WithBot Date) := by
        refine Finset.sup_le (fun k member => WithBot.coe_le_coe.mpr (past k (Finset.mem_filter.mp member).1))
      have attained : (table.keys.filter (fun k => k.1.sourceId = l.sourceId)).sup (fun k => (k.2 : WithBot Date)) =
          (maxDate : WithBot Date) := newest
      rw [attained] at bound
      exact WithBot.coe_le_coe.mp bound
    have mature : d ≤ effectiveMaturityDate today base.loan := by
      unfold effectiveMaturityDate
      cases ended : base.loan.maturedonDate with
      | none => exact le
      | some matured => exact open_ matured ended
    have before : maxDate < d := lt_of_le_of_lt max_le later
    have rolls : maxDate < effectiveMaturityDate today base.loan ∧ maxDate < today :=
      ⟨lt_of_lt_of_le before mature,lt_of_lt_of_le before le⟩
    simp only [rollForward,incremental,newest,Bool.false_eq_true,if_false,rolls,and_self,if_true,List.mem_singleton,
      forall_eq] at rolled
    exact absurd before (not_lt.mpr (Int.lt_add_one_iff.mp rolled))

private theorem full_scope_get (rebuild : w.fullRebuild = true) (start : beginningOfTime ≤ p.historicalStartDate) :
    (intSnapshotScope p w log raw fact today).get l =
      ((loans raw).get l).map (fun _ => ⟨p.historicalStartDate,some beginningOfTime⟩) := by
  rw [scope_get]
  cases found : (loans raw).get l with
  | none => simp [scopeRows,changes,rebuild,found,scopeOf]
  | some loan => simp [scopeRows,changes,rebuild,found,scopeOf,rollForward,start]

end Scope

section Build
variable {View : Type} {view : FactRow → View} {p : Project} {w : ChangeWindow} {log : List LoggedChange} {raw base : RawTables} {today d ran : Date} {l : Key}
  {scope : Relation Key Scope} {table : FactTable} {h : Hashes}

theorem selectFact_get {sc : Scope} (in_scope : scope.get l = some sc) : (selectFact h raw scope today).get (l,d) =
    if sc.fromDate ≤ d ∧ d ≤ today then factAt h raw l d else none := by
  simp only [selectFact,Relation.filterMap_get,status_get in_scope,factAt]
  split
  · cases snapshotAt h raw l d <;> rfl
  · rfl

theorem selectFact_get_none (unscoped : scope.get l = none) : (selectFact h raw scope today).get (l,d) = none := by
  simp [selectFact,status_get_none unscoped]

/-- A full rebuild gives all snapshots from the historical start on. -/
theorem selectFact_full {fact : Option FactTable} (rebuild : w.fullRebuild = true)
    (start : beginningOfTime ≤ p.historicalStartDate) :
    IsFull view p raw today (selectFact p.hashes raw (intSnapshotScope p w log raw fact today) today) := by
  intro l d
  cases found : (loans raw).get l with
  | none =>
    rw [selectFact_get_none (by rw [full_scope_get rebuild start,found,Option.map_none]),factAt,snapshotAt_unloaned found]
    simp
  | some loan =>
    rw [selectFact_get (by rw [full_scope_get rebuild start,found,Option.map_some])]
    split <;> rfl

/-- What the two deletes leave of a row. -/
theorem deletes_get : (deleteBeforeDisbursement raw scope (deleteScope scope table)).get (l,d) =
    match scope.get l with
    | none => table.get (l,d)
    | some sc => if d < sc.fromDate ∧ ∀ disbursed ∈ ((stgMLoan raw).get l).bind (·.disbursedonDate), disbursed ≤ d
        then table.get (l,d) else none := by
  simp only [deleteBeforeDisbursement,deleteScope,Relation.restrict_get]
  cases scope.get l with
  | none => simp
  | some sc =>
    cases ((stgMLoan raw).get l).bind (·.disbursedonDate) with
    | none => simp
    | some disbursed =>
      by_cases early : disbursed ≤ d
      · simp [early]
      · simp [early]

/-- The deletes make room for every selected row. -/
theorem append_deletes : append (deleteBeforeDisbursement raw scope (deleteScope scope table)) (selectFact h raw scope today) =
    some ((deleteBeforeDisbursement raw scope (deleteScope scope table)).union (selectFact h raw scope today)) := by
  refine if_pos (Finset.disjoint_left.mpr ?_)
  rintro ⟨l,d⟩ kept selected
  rw [Relation.mem_keys] at kept selected
  cases in_scope : scope.get l with
  | none => simp [selectFact_get_none in_scope] at selected
  | some sc =>
    rw [deletes_get,in_scope] at kept
    rw [selectFact_get in_scope] at selected
    by_cases inside : sc.fromDate ≤ d
    · simp [not_lt.mpr inside] at kept
    · simp [inside] at selected

/-- An incremental build over a table that was full for `base` gives a full table,
    when the window reports every snapshot that has changed since. -/
theorem build_isFull (incremental : w.fullRebuild = false) (start : beginningOfTime ≤ p.historicalStartDate)
    (full : IsFull view p base ran table) (later : ran ≤ today)
    (covers : ∀ l d, (factAt p.hashes base l d).map view ≠ (factAt p.hashes raw l d).map view →
      Reported raw (changes w log) l d)
    (in_scope : scope = intSnapshotScope p w log raw (some table) today) :
    IsFull view p raw today ((deleteBeforeDisbursement raw scope (deleteScope scope table)).union
      (selectFact p.hashes raw scope today)) := by
  intro l d
  rw [Relation.union_get,deletes_get]
  -- a row outside the scope was already right, or there is none in the new table either
  have outside : (∀ sc, scope.get l = some sc → d < sc.fromDate) → (table.get (l,d)).map view =
      if p.historicalStartDate ≤ d ∧ d ≤ today then (factAt p.hashes raw l d).map view else none := by
    intro before
    rw [full l d]
    by_cases begun : p.historicalStartDate ≤ d
    · have early := before_rows (in_scope ▸ before) begun
      have same : (factAt p.hashes base l d).map view = (factAt p.hashes raw l d).map view := by
        by_contra differs
        exact not_reported early (start.trans begun) (covers l d differs)
      by_cases past : d ≤ ran
      · simp [begun,past,past.trans later,same]
      · by_cases now : d ≤ today
        · have gone : snapshotAt p.hashes raw l d = none := by
            refine no_snapshot_after incremental early (start.trans begun) ?_ (not_le.mp past) now
            rintro ⟨m,e⟩ member
            rw [Relation.mem_keys] at member
            have present : ((table.get (m,e)).map view).isSome := by rwa [Option.isSome_map]
            by_contra after
            rw [full m e] at present
            simp [after] at present
          simp [past,factAt,gone]
        · simp [past,now]
    · simp [begun]
  cases found : scope.get l with
  | none =>
    simp only [selectFact_get_none found,Option.or_none]
    exact outside (by simp [found])
  | some sc =>
    have from_start : p.historicalStartDate ≤ sc.fromDate := by
      rw [in_scope,scope_get] at found
      obtain ⟨least,_,rfl⟩ := Option.map_eq_some_iff.mp found
      exact le_max_right _ _
    simp only [selectFact_get found]
    by_cases inside : sc.fromDate ≤ d
    · by_cases past : d ≤ today
      · simp [not_lt.mpr inside,inside,from_start.trans inside,past]
      · simp [not_lt.mpr inside,past]
    · simp only [inside,false_and,if_false,Option.or_none,not_le.mp inside,true_and]
      have kept := outside (fun sc' same => by rw [found] at same; cases same; exact not_le.mp inside)
      split
      · exact kept
      · next undisbursed =>
        have gone : snapshotAt p.hashes raw l d = none := by
          by_contra present
          obtain ⟨row,present⟩ := Option.ne_none_iff_exists'.mp present
          obtain ⟨base,at_l,le,_⟩ := snapshotAt_eq_some present
          obtain ⟨loan,dated,_,_⟩ := loanBase_eq_some.mp at_l
          refine undisbursed ?_
          simpa [loan,dated] using le
        simp [factAt,gone]

end Build

/-- The entries that the next run will read. -/
def pending (s : Warehouse) : List LogEntry := changes (s.changeWindow false) s.changeLog

/-- The table is full for the raw tables `base` of the last run, on `ran`, and the
    pending entries report what has changed since. -/
structure Pending {View : Type} (view : FactRow → View) (p : Project) (s : Warehouse) (table : FactTable)
    (base : RawTables) (ran : Date) : Prop where
  full : IsFull view p base ran table
  ranOn : s.ranOn = some ran
  cursor : ∃ c, s.changeCursor = some c ∧ c.lastTxid ≤ s.openFrom
  covers : ∀ l d, (factAt p.hashes base l d).map view ≠ (factAt p.hashes s.raw l d).map view →
    Reported s.raw (pending s) l d
  /-- A snapshot of the table has a loan disbursed by then, or its loan is named. -/
  anchored : ∀ l d, (snapshotAt p.hashes base l d).isSome →
    (∃ c ∈ pending s, NamesLoan l c ∧ c.minAffectedDate ≤ d) ∨
    ∃ loan disbursed, (loans s.raw).get l = some loan ∧ loan.disbursedonDate = some disbursed ∧ disbursed ≤ d

/-- The invariant: a table that was built is accounted for. -/
def Accounted {View : Type} (view : FactRow → View) (p : Project) (s : Warehouse) : Prop :=
  ∀ table, s.factLoanSnapshot = some table → ∃ base ran, Pending view p s table base ran

section Commit
variable {View : Type} {view : FactRow → View} {p : Project} {s : Warehouse} {txid : Nat} {table : Table} {after : Stores} {log : List LogEntry}

theorem commit_raw : (s.commit txid table after log).raw = Function.update s.raw table after.raw := by
  funext t
  by_cases same : t = table
  · subst same; simp [Warehouse.raw,Warehouse.commit]
  · simp [Warehouse.raw,Warehouse.commit,Function.update_of_ne same]

/-- The committed entries are pending, together with those that were. -/
theorem mem_pending_commit {fact : FactTable} {c : LogEntry} (built : s.factLoanSnapshot = some fact)
    (cursor : ∃ c, s.changeCursor = some c ∧ c.lastTxid ≤ s.openFrom) (fresh : s.openFrom ≤ txid)
    (member : c ∈ pending s ∨ c ∈ log) : c ∈ pending (s.commit txid table after log) := by
  obtain ⟨cursor,at_cursor,le⟩ := cursor
  simp only [pending,changes,Warehouse.changeWindow,Warehouse.commit,built,at_cursor,Option.isNone_some,Bool.or_self,
    Bool.false_eq_true,if_false,Option.map_some,Option.getD_some,List.filter_append,List.map_append,List.mem_append]
    at member ⊢
  rcases member with earlier | new
  · left
    obtain ⟨change,kept,rfl⟩ := List.mem_map.mp earlier
    refine List.mem_map.mpr ⟨change,List.mem_filter.mpr ⟨List.mem_of_mem_filter kept,?_⟩,rfl⟩
    have inside := List.of_mem_filter kept
    simp only [decide_eq_true_eq] at inside ⊢
    exact ⟨inside.1,lt_of_lt_of_le inside.2 (le_max_left _ _)⟩
  · right
    refine List.mem_map.mpr ⟨⟨txid,c⟩,List.mem_filter.mpr ⟨List.mem_map.mpr ⟨c,new,rfl⟩,?_⟩,rfl⟩
    simp only [decide_eq_true_eq]
    exact ⟨le.trans fresh,lt_of_lt_of_le (Nat.lt_succ_self txid) (le_max_right _ _)⟩

theorem reported_mono {raw : RawTables} {log log' : List LogEntry} {l : Key} {d : Date} (sub : ∀ c ∈ log, c ∈ log')
    (reported : Reported raw log l d) : Reported raw log' l d := by
  rcases reported with ⟨c,member,rest⟩ | ⟨loan,found,c,member,reaches⟩
  · exact .inl ⟨c,sub c member,rest⟩
  · exact .inr ⟨loan,found,c,sub c member,reaches⟩

/-- A call that reports what it does keeps the account. -/
theorem Pending.commit {fact : FactTable} {base : RawTables} {ran : Date} (built : s.factLoanSnapshot = some fact)
    (account : Pending view p s fact base ran) (fresh : s.openFrom ≤ txid)
    (reporting : Reporting view s.raw (Function.update s.raw table after.raw) log) :
    Pending view p (s.commit txid table after log) fact base ran := by
  have earlier : ∀ c ∈ pending s, c ∈ pending (s.commit txid table after log) :=
    fun c member => mem_pending_commit built account.cursor fresh (.inl member)
  have new : ∀ c ∈ log, c ∈ pending (s.commit txid table after log) :=
    fun c member => mem_pending_commit built account.cursor fresh (.inr member)
  refine ⟨account.full,account.ranOn,account.cursor,?_,?_⟩
  · intro l d differs
    rw [commit_raw] at differs ⊢
    by_cases same : (factAt p.hashes s.raw l d).map view = (factAt p.hashes (Function.update s.raw table after.raw) l d).map view
    · rw [← same] at differs
      rcases account.covers l d differs with ⟨c,member,rest⟩ | ⟨loan,found,c,member,reaches⟩
      · exact .inl ⟨c,earlier c member,rest⟩
      · obtain ⟨disbursed,dated⟩ := Option.isSome_iff_exists.mp (loans_eq_some.mp found).2
        rcases reporting.reach l loan disbursed found dated with
          ⟨c',member',named,le⟩ | ⟨loan',disbursed',found',_,_,same_client | ⟨c',member',reaches'⟩⟩
        · by_cases begun : disbursed ≤ d
          · exact .inl ⟨c',new c' member',named,le.trans begun⟩
          -- before its disbursement the loan has no snapshot now, so the table has one to take back
          · have present : (snapshotAt p.hashes base l d).isSome := by
              by_contra absent
              rw [Bool.not_eq_true,Option.isSome_eq_false_iff,Option.isNone_iff_eq_none] at absent
              exact differs (factAt_congr (absent.trans (snapshotAt_undisbursed found dated begun).symm))
            rcases account.anchored l d present with
              ⟨c,member,rest⟩ | ⟨loan',disbursed',found',dated',le'⟩
            · exact .inl ⟨c,earlier c member,rest⟩
            · obtain rfl := Option.some.inj (found'.symm.trans found)
              obtain rfl := Option.some.inj (dated'.symm.trans dated)
              exact absurd le' begun
        · refine .inr ⟨loan',found',c,earlier c member,?_⟩
          rwa [ReachesLoan,same_client]
        · exact .inr ⟨loan',found',c',new c' member',reaches'⟩
    · exact reported_mono new (reporting.snapshots p.hashes l d same)
  · intro l d present
    rw [commit_raw]
    rcases account.anchored l d present with ⟨c,member,rest⟩ | ⟨loan,disbursed,found,dated,le⟩
    · exact .inl ⟨c,earlier c member,rest⟩
    · rcases reporting.reach l loan disbursed found dated with ⟨c,member,named,before⟩ | ⟨loan',disbursed',found',dated',before,_⟩
      · exact .inl ⟨c,new c member,named,before.trans le⟩
      · exact .inr ⟨loan',disbursed',found',dated',before.trans le⟩

end Commit

/-- The condition on a step. Once the table is built, a batch moves no live
    transaction, installment or delinquency tag to another loan, a batch of the
    schedule leaves the event dates before the logged date alone, and a promotion
    is one of a registered source that keeps its loans disbursed, and not later. -/
def Traceable (s : Warehouse) (a : Act) (t : Warehouse) : Prop :=
  s.factLoanSnapshot.isSome →
    match a with
    | .applyStagedBatch _ table engine now today _ stage =>
      (table ∈ childTables → KeepsLoan (contract table) (s.raw table) (t.raw table)) ∧
      (table = .mLoanRepaymentSchedule →
        KeepsEarlierEvents s.raw t.raw (batchLog (contract table) engine now today stage (s.raw table)))
    | .promoteShadow _ _ source db => (db.source source).isSome ∧ KeepsDisbursed s.raw t.raw
    | .dbtRun _ => True

/-- A step of the warehouse that meets the condition. -/
def TraceableStep (p : Project) (s : Warehouse) (a : Act) (t : Warehouse) : Prop :=
  next p s a = some t ∧ Traceable s a t

section Steps
variable {View : Type} {view : FactRow → View} {p : Project} {s t : Warehouse} {today : Date}

theorem full_run_isFull (view : FactRow → View) (s : Warehouse) (today : Date)
    (start : beginningOfTime ≤ p.historicalStartDate) :
    ∃ fact, IsFull view p s.raw today fact ∧ (dbtRun p true today s).map (·.factLoanSnapshot) = some (some fact) := by
  refine ⟨selectFact p.hashes s.raw (s.snapshotScope p true today) today,
    selectFact_full (by simp [Warehouse.changeWindow]) start,?_⟩
  simp [FactBuild.dbtRun,buildFact]

/-- A run of an accounted warehouse succeeds with the full table. -/
theorem run_isFull (start : beginningOfTime ≤ p.historicalStartDate) (account : Accounted view p s)
    (later : ∀ ran ∈ s.ranOn, ran ≤ today) :
    ∃ fact, IsFull view p s.raw today fact ∧ (dbtRun p false today s).map (·.factLoanSnapshot) = some (some fact) := by
  cases built : s.factLoanSnapshot with
  | none =>
    refine ⟨selectFact p.hashes s.raw (s.snapshotScope p false today) today,
      selectFact_full (by simp [Warehouse.changeWindow,built]) start,?_⟩
    simp [FactBuild.dbtRun,buildFact,built]
  | some table =>
    obtain ⟨base,ran,account⟩ := account table built
    have in_scope : s.snapshotScope p false today =
        intSnapshotScope p (s.changeWindow false) s.changeLog s.raw (some table) today := by
      rw [Warehouse.snapshotScope,built]
    refine ⟨_,build_isFull (by simp [Warehouse.changeWindow,built]) start account.full (later ran account.ranOn)
      account.covers in_scope,?_⟩
    simp [FactBuild.dbtRun,buildFact,built,append_deletes]

theorem Accounted.commit {txid : Nat} {table : Table} {after : Stores} {log : List LogEntry} (account : Accounted view p s)
    (fresh : s.openFrom ≤ txid)
    (reporting : s.factLoanSnapshot.isSome → Reporting view s.raw (Function.update s.raw table after.raw) log) :
    Accounted view p (s.commit txid table after log) := by
  intro fact built
  have built' : s.factLoanSnapshot = some fact := built
  obtain ⟨base,ran,account⟩ := account fact built'
  exact ⟨base,ran,account.commit built' fresh (reporting (by simp [built']))⟩

theorem Accounted.run (start : beginningOfTime ≤ p.historicalStartDate) (account : Accounted view p s)
    (later : ∀ ran ∈ s.ranOn, ran ≤ today) (ran : dbtRun p false today s = some t) : Accounted view p t := by
  obtain ⟨fact,full,result⟩ := run_isFull start account later
  rw [ran] at result
  obtain ⟨_,_,rfl⟩ := Option.map_eq_some_iff.mp ran
  intro table built
  obtain rfl : fact = table := by simpa using result.symm.trans (congrArg some built)
  refine ⟨s.raw,today,full,rfl,⟨_,rfl,le_rfl⟩,fun l d differs => absurd rfl differs,?_⟩
  intro l d present
  obtain ⟨row,present⟩ := Option.isSome_iff_exists.mp present
  obtain ⟨base,at_l,by_then,_⟩ := snapshotAt_eq_some present
  exact .inr ⟨base.loan,base.disbursedonDate,loans_of_base at_l,(loanBase_eq_some.mp at_l).2.1,by_then⟩

/-- Every step that meets the condition keeps the account. -/
theorem Accounted.step (start : beginningOfTime ≤ p.historicalStartDate) {a : Act} (account : Accounted view p s)
    (step : TraceableStep p s a t) : Accounted view p t := by
  obtain ⟨taken,traceable⟩ := step
  cases a with
  | applyStagedBatch txid table engine now today db stage =>
    simp only [next] at taken
    split at taken
    · next fresh =>
      cases applied : ApplyBatch.applyStagedBatch (contract table) engine now today db stage (s.stores table) with
      | error e => simp [applied] at taken
      | ok result =>
        obtain ⟨after,log,results⟩ := result
        obtain ⟨_,_,rfl,rfl,_⟩ := applyStagedBatch_ok.mp applied
        simp only [applied,Option.some.injEq] at taken
        subst taken
        refine account.commit fresh (fun built => ?_)
        obtain ⟨kept,events⟩ := traceable built
        rw [commit_raw] at kept events
        simp only [Function.update_self] at kept
        exact batch_reporting table batchLog_logs kept events
    · cases taken
  | promoteShadow txid table source db =>
    simp only [next] at taken
    split at taken
    · next fresh =>
      obtain rfl := Option.some.inj taken
      refine account.commit fresh (fun built => ?_)
      obtain ⟨registered,kept⟩ := traceable built
      rw [commit_raw] at kept
      obtain ⟨row,found⟩ := Option.isSome_iff_exists.mp registered
      have entry : ∃ c ∈ (ApplyBatch.promoteShadow db source (s.stores table)).2, c.entity = .source ∧ c.sourceId = source :=
        ⟨_,List.mem_map.mpr ⟨row,by simp [found],rfl⟩,rfl,((Routing.ControlState.source_iff db source row).mp found).2⟩
      refine promotion_reporting ?_ entry kept
      intro k other
      simp [ApplyBatch.promoteShadow,other,Warehouse.raw]
    · cases taken
  | dbtRun today =>
    simp only [next] at taken
    split at taken
    · next ready => exact account.run start ready.2 taken
    · cases taken

/-- In every run of calls and dbt runs that meet the condition, a dbt run leaves
    the table that the same run with a full rebuild gives. -/
theorem incremental_eq_full {s₀ : Warehouse} {trace : List Act} (start : beginningOfTime ≤ p.historicalStartDate)
    (unbuilt : s₀.factLoanSnapshot = none) (run : Run (TraceableStep p) s₀ trace s)
    (later : ∀ ran ∈ s.ranOn, ran ≤ today) :
    (dbtRun p false today s).map (·.factLoanSnapshot) = (dbtRun p true today s).map (·.factLoanSnapshot) := by
  have account : Accounted id p s := by
    refine run.stateInvariant ?_ (fun _ _ _ account step => account.step start step)
    intro table built
    rw [unbuilt] at built
    cases built
  obtain ⟨fact,full,result⟩ := run_isFull start account later
  obtain ⟨fact',full',result'⟩ := full_run_isFull id s today start
  have same : fact = fact' := by
    refine Relation.ext_get (fun k => ?_)
    simpa using (full k.1 k.2).trans (full' k.1 k.2).symm
  rw [result,result',same]

end Steps

/-- KAFKA owns the loans of a source. -/
def loansOwned : ControlState where
  registry := [⟨"branch-001","default",1⟩]
  ownership := ["m_client","m_loan","m_loan_transaction"].map (fun table =>
    { sourceId := "branch-001", tableName := table, engine := .KAFKA, shadowEngine := none, cutoverState := .STEADY,
      epoch := 2 })
  registryKey := Convergence.kafkaOwned.registryKey
  ownershipKey := by decide
  registryText := Convergence.kafkaOwned.registryText
  ownershipText := by decide

/-- An upsert of the source. -/
def upserted (id lsn : Int) (cols : List (Column × Value)) : StagedRow where
  key := ⟨"branch-001","default",id⟩
  cols := fun c => cols.lookup c
  sourceGeneration := 1
  sourceLsn := some lsn
  sourceTs := none
  op := .u
  unavailable := none
  ownerEpoch := 2
  target := "prod"

def sampleProject : Project := ⟨⟨fun _ _ _ => none,fun text => text⟩,ofCivil 2025 1 1⟩
def newYear : Date := ofCivil 2025 1 1
def emptyWarehouse : Warehouse := ⟨fun _ => ⟨.empty,.empty⟩,[],1,1,none,none,0,none⟩

def sampleLoan (id : Int) : StagedRow := upserted id 1
  [("client_id",.int 1),("disbursedon_date",.date newYear),("principal_disbursed_derived",.numeric 100)]
def repayment (lsn loan : Int) : StagedRow := upserted 1 lsn
  [("loan_id",.int loan),("transaction_date",.date newYear),("outstanding_loan_balance_derived",.numeric 40),
    ("is_reversed",.boolean false)]
def batch (txid : Nat) (table : Table) (stage : List StagedRow) : Act :=
  .applyStagedBatch txid table .KAFKA 0 newYear loansOwned stage

/-- A batch that the fence lets pass is committed. -/
theorem next_batch {p : Project} {s : Warehouse} {txid : Nat} {table : Table} {db : Routing.ControlState}
    {stage : List StagedRow} (fresh : s.openFrom ≤ txid)
    (owned : Routing.fencingCheck db (contract table).tableName .KAFKA
      (stage.map (fun row => ⟨row.key.sourceId,row.target,row.ownerEpoch⟩)).dedup = .ok ()) :
    ∃ after log, next p s (.applyStagedBatch txid table .KAFKA 0 newYear db stage) = some (s.commit txid table after log) := by
  cases applied : ApplyBatch.applyStagedBatch (contract table) .KAFKA 0 newYear db stage (s.stores table) with
  | error e => simp [ApplyBatch.applyStagedBatch,owned,bind,Except.bind,pure,Except.pure] at applied
  | ok result => exact ⟨result.1,result.2.1,by simp only [next,fresh,if_true,applied]⟩

/-- A repayment that arrives after the first build is carried into the table. -/
theorem incremental_eq_full_repaid : ∃ s, Run (TraceableStep sampleProject) emptyWarehouse
    [batch 1 .mClient [upserted 1 1 [("office_id",.int 1)]],batch 2 .mLoan [sampleLoan 1,sampleLoan 2],.dbtRun newYear,
      batch 9 .mLoanTransaction [repayment 1 1]] s ∧ s.factLoanSnapshot.isSome ∧
    (dbtRun sampleProject false newYear s).map (·.factLoanSnapshot) =
      (dbtRun sampleProject true newYear s).map (·.factLoanSnapshot) := by
  have start : beginningOfTime ≤ sampleProject.historicalStartDate := by decide
  obtain ⟨after₁,log₁,step₁⟩ : ∃ after log, next sampleProject emptyWarehouse
      (batch 1 .mClient [upserted 1 1 [("office_id",.int 1)]]) = some (emptyWarehouse.commit 1 .mClient after log) :=
    next_batch (by decide) rfl
  let s₁ := emptyWarehouse.commit 1 .mClient after₁ log₁
  obtain ⟨after₂,log₂,step₂⟩ : ∃ after log, next sampleProject s₁ (batch 2 .mLoan [sampleLoan 1,sampleLoan 2]) =
      some (s₁.commit 2 .mLoan after log) := next_batch (show 1 ≤ 2 by decide) rfl
  let s₂ := s₁.commit 2 .mLoan after₂ log₂
  obtain ⟨fact,_,built⟩ : ∃ fact, IsFull id sampleProject s₂.raw newYear fact ∧
      (dbtRun sampleProject false newYear s₂).map (·.factLoanSnapshot) = some (some fact) :=
    run_isFull start (fun _ => nofun) (fun _ => nofun)
  obtain ⟨s₃,ran,at_fact⟩ := Option.map_eq_some_iff.mp built
  have step₃ : next sampleProject s₂ (.dbtRun newYear) = some s₃ := by
    have single : SingleMapping s₂.raw := by
      intro m member
      cases Relation.mem_rowSet.mp member
    have ready : SingleMapping s₂.raw ∧ ∀ ran ∈ s₂.ranOn, ran ≤ newYear := ⟨single,fun _ => nofun⟩
    rw [next,if_pos ready,ran]
  obtain ⟨_,_,same⟩ := Option.map_eq_some_iff.mp ran
  have fresh : s₃.openFrom ≤ 9 := by rw [← same]; exact (show 3 ≤ 9 by decide)
  have stored : s₃.raw .mLoanTransaction = .empty := by rw [← same]; rfl
  obtain ⟨after₄,log₄,step₄⟩ : ∃ after log, next sampleProject s₃ (batch 9 .mLoanTransaction [repayment 1 1]) =
      some (s₃.commit 9 .mLoanTransaction after log) := next_batch fresh rfl
  have traceable : Traceable s₃ (batch 9 .mLoanTransaction [repayment 1 1])
      (s₃.commit 9 .mLoanTransaction after₄ log₄) := by
    refine fun _ => ⟨?_,nofun⟩
    intro _ k old new found
    rw [stored] at found
    cases found
  have run : Run (TraceableStep sampleProject) emptyWarehouse _ (s₃.commit 9 .mLoanTransaction after₄ log₄) :=
    (((Run.start.extend ⟨step₁,nofun⟩).extend ⟨step₂,nofun⟩).extend ⟨step₃,nofun⟩).extend ⟨step₄,traceable⟩
  refine ⟨_,run,?_,incremental_eq_full start rfl run ?_⟩
  · simp [Warehouse.commit,at_fact]
  · intro day found
    have today : s₃.ranOn = some newYear := by rw [← same]
    rw [Option.some.inj (found.symm.trans today)]

/-- The repayment of loan 1 is built into the table and then moved to loan 2. -/
def movedRepayment : List Act :=
  [batch 1 .mClient [upserted 1 1 [("office_id",.int 1)]],batch 2 .mLoan [sampleLoan 1,sampleLoan 2],
    batch 3 .mLoanTransaction [repayment 1 1],.dbtRun newYear,batch 9 .mLoanTransaction [repayment 2 2]]

/-- The outstanding principal of loan 1 after a run. -/
def outstanding (fullRefresh : Bool) (s : Warehouse) : Option (Option Rat) :=
  ((dbtRun sampleProject fullRefresh newYear s).map (·.factLoanSnapshot)).bind (fun fact =>
    fact.bind (fun table => (table.get (⟨"branch-001","default",1⟩,newYear)).map (·.principalOutstanding)))

/-- Only loan 2 is logged for the move: the run leaves loan 1 at 40, a full rebuild gives 100. -/
theorem moved_repayment_stale : ∃ s, Run (fun s a t => next sampleProject s a = some t) emptyWarehouse movedRepayment s ∧
    outstanding false s = some (some 40) ∧ outstanding true s = some (some 100) ∧
    (dbtRun sampleProject false newYear s).map (·.factLoanSnapshot) ≠
      (dbtRun sampleProject true newYear s).map (·.factLoanSnapshot) := by
  have stale : (exec (next sampleProject) emptyWarehouse movedRepayment).map (fun s => (outstanding false s,outstanding true s)) =
      some (some (some 40),some (some 100)) := by decide +kernel
  obtain ⟨s,executed,values⟩ := Option.map_eq_some_iff.mp stale
  obtain ⟨incremental,full⟩ := Prod.mk.inj values
  refine ⟨s,exec_run (fun _ _ _ taken => taken) executed,incremental,full,?_⟩
  intro same
  have equal : outstanding false s = outstanding true s := by rw [outstanding,outstanding,same]
  rw [incremental,full] at equal
  exact absurd equal (by decide)

end FineractBi.FactIncremental
