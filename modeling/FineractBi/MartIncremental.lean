import FineractBi.MartTracking

/-!
`mart_delinquency_par` and `mart_portfolio_health` built incrementally against a
full build from the same tables. A group of a mart is stale only where a dirty
partition after the mart's cursor reaches it; a run records every partition whose
fact rows, names or flows it changes, so that a mart catches up when it is built,
however many runs it was skipped in.
-/
namespace FineractBi.MartIncremental
open Calendar Query Refresh Runs FineractBi.Contract FineractBi.ApplyBatch FineractBi.Staging FineractBi.LoanSnapshot
open FineractBi.FactBuild FineractBi.FactContent FineractBi.ChangeTracking FineractBi.FactIncremental
open FineractBi.ParMart FineractBi.PortfolioHealth FineractBi.MartRefresh FineractBi.MartRuns FineractBi.MartTracking
open FineractBi.Routing (ControlState)
open FineractBi.RepaymentMart (RepaymentTransaction PostedRow stagedTransactions loanDimensions dimension dimensionOf onLoan
  dimOffice dimProduct named namesOf)

/-- A loan that pending entries report by the date has a fact row of the partition, or is in it now. -/
def PartitionReported (s : Marts) (table : FactTable) (source : String) (office product : Option Int) (d : Date) : Prop :=
  ∃ l : Key, l.sourceId = source ∧ Reported s.raw (pending s.warehouse) l d ∧
    ((∃ e row, table.get (l,e) = some row ∧ row.officeId = office ∧ row.productId = product) ∨
      ∃ currency, loanPartition s.raw l = some (office,product,currency))

/-- The partition of a fact row whose product has changed is reported. -/
def ProductsReported (s : Marts) (table : FactTable) : Prop :=
  ∀ l d row id, table.get (l,d) = some row → row.productId = some id →
    (dimProduct s.lastRead).get (refer l id) ≠ (dimProduct s.raw).get (refer l id) →
    PartitionReported s table l.sourceId row.officeId row.productId d

/-- A partition that a loan has left with flows of it is reported. -/
def LeavesReported (p : Project) (s : Marts) (table : FactTable) : Prop :=
  ∀ l d office product currency t, p.historicalStartDate ≤ d → FlowsAt s.lastRead l d (office,product,currency) t →
    (∀ currency', loanPartition s.raw l ≠ some (office,product,currency')) →
    PartitionReported s table l.sourceId office product d

/-- The condition on a step, for a mart. Once the fact table is built, a promotion is one of a registered source
    that keeps the loans of fact rows disbursed; a run finds the partition reported when the product of a fact row
    has changed, and a full refresh builds the mart if it was built before. For the flows of `mart_portfolio_health`
    the loans that a call moves are disbursed by the dates of their flows, and the partitions they left are reported. -/
def Traceable (p : Project) (m : Mart) (s : Marts) (a : MartRuns.Act) (t : Marts) : Prop :=
  ∀ table, s.warehouse.factLoanSnapshot = some table →
    match a with
    | .applyStagedBatch _ name _ _ _ _ _ =>
      m = .portfolioHealth → KeepsFlows p.historicalStartDate name s.lastRead s.raw t.raw
    | .promoteShadow _ _ source db => (db.source source).isSome ∧
      (∀ l d, (table.get (l,d)).isSome → DisbursedBy s.raw l d → DisbursedBy t.raw l d) ∧
      (m = .portfolioHealth → ∀ l d, p.historicalStartDate ≤ d → l.sourceId = source → FlowsDiffer s.lastRead t.raw l d →
        ((loans t.raw).get l).isSome)
    | .dbtRun false _ _ => ProductsReported s table ∧ (m = .portfolioHealth → LeavesReported p s table)
    | .dbtRun true _ built => (s.contents m).isSome → consumerOf m ∈ built

/-- A step of the warehouse that meets the condition. -/
def TraceableStep (p : Project) (m : Mart) (s : Marts) (a : MartRuns.Act) (t : Marts) : Prop :=
  MartRuns.next p s a = some t ∧ Traceable p m s a t

/-- What the pending entries say about a fact table, the names and the flows since the last run. -/
structure Tracked (p : Project) (m : Mart) (s : Marts) (table : FactTable) : Prop where
  cursor : ∃ c, s.warehouse.changeCursor = some c ∧ c.lastTxid ≤ s.warehouse.openFrom
  begun : ∀ l d, (table.get (l,d)).isSome → p.historicalStartDate ≤ d
  anchored : ∀ l d, (table.get (l,d)).isSome → NamedBy (pending s.warehouse) l d ∨ DisbursedBy s.raw l d
  offices : ∀ k, (dimOffice s.lastRead).get k ≠ (dimOffice s.raw).get k → WholeSource (pending s.warehouse) k.sourceId
  flows : m = .portfolioHealth → ∀ l d, p.historicalStartDate ≤ d → FlowsDiffer s.lastRead s.raw l d →
    Reported s.raw (pending s.warehouse) l d

/-- A dirty partition after the mart's cursor reaches the group. -/
def Stale (s : Marts) (m : Mart) (k : ParKey) : Prop :=
  inWindow ⟨(s.cursors (consumerOf m)).getD 0,s.warehouse.dbtRunSeq,s.dirty⟩ k = true

/-- The invariant: the fact table is tracked, and the mart differs only in stale groups from what the last run read. -/
structure Kept (p : Project) (m : Mart) (s : Marts) : Prop where
  tracked : ∀ table, s.warehouse.factLoanSnapshot = some table → Tracked p m s table
  cursor : (s.cursors (consumerOf m)).getD 0 ≤ s.warehouse.dbtRunSeq
  accounted : ∀ rows, s.contents m = some rows → ∃ table, s.warehouse.factLoanSnapshot = some table ∧
    Accounted m.key (Stale s m) rows (m.select p.hashes none table.rows s.lastRead)

section Commit
variable {p : Project} {m : Mart} {s : Marts} {txid : Nat} {name : Table} {after : Stores} {log : List LogEntry}

/-- The marts after a committed call. -/
def committed (s : Marts) (txid : Nat) (name : Table) (after : Stores) (log : List LogEntry) : Marts :=
  { s with warehouse := s.warehouse.commit txid name after log }

theorem committed_raw : (committed s txid name after log).raw = Function.update s.raw name after.raw := commit_raw

/-- What a call has to report. -/
structure Reports (p : Project) (m : Mart) (s : Marts) (table : FactTable) (raw' : RawTables) (log : List LogEntry) : Prop where
  anchored : ∀ l d, (table.get (l,d)).isSome → DisbursedBy s.raw l d → NamedBy log l d ∨ DisbursedBy raw' l d
  offices : ∀ k, (dimOffice s.raw).get k ≠ (dimOffice raw').get k → WholeSource log k.sourceId
  changed : m = .portfolioHealth → ∀ l d, p.historicalStartDate ≤ d → FlowsDiffer s.lastRead raw' l d →
    FlowsDiffer s.raw raw' l d → Reported raw' log l d
  kept : m = .portfolioHealth → ∀ l d, p.historicalStartDate ≤ d → FlowsDiffer s.lastRead raw' l d →
    Reported s.raw (pending s.warehouse) l d → Reported raw' (pending s.warehouse ++ log) l d

theorem Tracked.commit {table : FactTable} (tracked : Tracked p m s table) (built : s.warehouse.factLoanSnapshot = some table)
    (fresh : s.warehouse.openFrom ≤ txid) (reports : Reports p m s table (Function.update s.raw name after.raw) log) :
    Tracked p m (committed s txid name after log) table := by
  have earlier : pending s.warehouse ⊆ pending (s.warehouse.commit txid name after log) :=
    fun c member => mem_pending_commit built tracked.cursor fresh (.inl member)
  have new : log ⊆ pending (s.warehouse.commit txid name after log) :=
    fun c member => mem_pending_commit built tracked.cursor fresh (.inr member)
  refine ⟨tracked.cursor,tracked.begun,?_,?_,?_⟩
  · intro l d present
    rw [committed_raw]
    rcases tracked.anchored l d present with named | disbursed
    · exact .inl (named.mono earlier)
    · exact (reports.anchored l d present disbursed).imp (·.mono new) id
  · intro k differs
    rw [committed_raw] at differs
    by_cases same : (dimOffice s.lastRead).get k = (dimOffice s.raw).get k
    · exact (reports.offices k (fun same' => differs (same.trans same'))).mono new
    · exact (tracked.offices k same).mono earlier
  · intro health l d begun differ
    rw [committed_raw] at differ ⊢
    rcases differ.before with old | changed
    · exact reported_mono (List.append_subset.mpr ⟨earlier,new⟩)
        (reports.kept health l d begun differ (tracked.flows health l d begun old))
    · exact reported_mono new (reports.changed health l d begun differ changed)

theorem Kept.commit (kept : Kept p m s) (fresh : s.warehouse.openFrom ≤ txid)
    (reports : ∀ table, s.warehouse.factLoanSnapshot = some table →
      Reports p m s table (Function.update s.raw name after.raw) log) : Kept p m (committed s txid name after log) :=
  ⟨fun table built => (kept.tracked table built).commit built fresh (reports table built),kept.cursor,kept.accounted⟩

/-- A batch reports what it does. -/
theorem batch_reports {table : FactTable} {today : Date} (start : beginningOfTime ≤ p.historicalStartDate)
    (logs : Logs (contract name) today (s.raw name) after.raw log) (keeps : m = .portfolioHealth →
      KeepsFlows p.historicalStartDate name s.lastRead s.raw (Function.update s.raw name after.raw)) :
    Reports p m s table (Function.update s.raw name after.raw) log where
  anchored _ _ _ disbursed := disbursed.stays (fun loan disbursed => batch_reach name logs loan disbursed)
  offices _ differs := batch_offices name logs differs
  changed health _ _ begun since differ := batch_flows name logs (keeps health) begun (start.trans begun) since differ
  kept health _ _ begun since reported := batch_keeps name logs (keeps health) begun (start.trans begun) since reported

/-- A promotion of a registered source is logged for it. -/
theorem promotion_whole {db : ControlState} {source : String} {stores : Stores} (registered : (db.source source).isSome) :
    WholeSource (ApplyBatch.promoteShadow db source stores).2 source := by
  obtain ⟨row,found⟩ := Option.isSome_iff_exists.mp registered
  refine ⟨⟨row.sourceId,row.tenantId,.source,0,beginningOfTime⟩,?_,.inr rfl,((ControlState.source_iff db source row).mp found).2⟩
  exact List.mem_map.mpr ⟨row,by simp [found],rfl⟩

/-- The rows of other sources stay. -/
theorem promotion_others {source : String} (db : ControlState) (stores : Stores) {k : Key} (other : k.sourceId ≠ source) :
    (ApplyBatch.promoteShadow db source stores).1.raw.get k = stores.raw.get k := by
  simp [ApplyBatch.promoteShadow,other]

/-- A promotion reports its source. -/
theorem promotion_reports {table : FactTable} {source : String}
    (others : ∀ k : Key, k.sourceId ≠ source → after.raw.get k = (s.raw name).get k) (whole : WholeSource log source)
    (disbursed : ∀ l d, (table.get (l,d)).isSome → DisbursedBy s.raw l d →
      DisbursedBy (Function.update s.raw name after.raw) l d)
    (flows : m = .portfolioHealth → ∀ l d, p.historicalStartDate ≤ d → l.sourceId = source →
      FlowsDiffer s.lastRead (Function.update s.raw name after.raw) l d →
      ((loans (Function.update s.raw name after.raw)).get l).isSome) :
    Reports p m s table (Function.update s.raw name after.raw) log := by
  have same_others (tables : List Table) (other : String) (apart : other ≠ source) :
      SameSource tables s.raw (Function.update s.raw name after.raw) other := replaced_other others apart
  refine ⟨fun l d present before => .inr (disbursed l d present before),?_,?_,?_⟩
  · intro k differs
    by_cases own : k.sourceId = source
    · rwa [own]
    · exact absurd ((same_others [.mOffice] _ own).staged (by decide) rfl) differs
  · intro health l d begun differ changed
    have own : l.sourceId = source := by
      by_contra other
      exact not_differ (same_others flowTables _ other) changed
    subst own
    exact whole.reports (flows health l d begun rfl differ)
  · intro health l d begun differ reported
    by_cases own : l.sourceId = source
    · subst own
      exact reported_mono (List.subset_append_right _ _) (whole.reports (flows health l d begun rfl differ))
    · have same : (stgMLoan s.raw).get l = (stgMLoan (Function.update s.raw name after.raw)).get l :=
        (same_others [.mLoan] _ own).staged (by decide) rfl
      refine Reported.stays reported ?_
      rw [loans,loans,Relation.filterMap_get,Relation.filterMap_get,same]

end Commit

section Groups
variable {h : Hashes} {raw raw' : RawTables} {table table' : FactTable} {k : ParKey} {l : Key} {d : Date}

theorem mem_groupRows {f : FactEntry} : f ∈ groupRows none table.rows k ↔ table.get f.1 = some f.2 ∧ parKey f = k := by
  obtain ⟨key,row⟩ := f
  rw [groupRows,Multiset.mem_filter]
  exact and_congr_left (fun _ => Relation.mem_rows)

/-- The rows of a group are the same when those of its loans and date are. -/
theorem groupRows_congr (same : ∀ l row, table.get (l,k.snapshotDate) = some row ∨ table'.get (l,k.snapshotDate) = some row →
    parKey ((l,k.snapshotDate),row) = k → table.get (l,k.snapshotDate) = table'.get (l,k.snapshotDate)) :
    groupRows none table.rows k = groupRows none table'.rows k := by
  have distinct (table : FactTable) : (groupRows none table.rows k).Nodup := table.rows_nodup.filter _
  refine ((distinct table).ext (distinct table')).mpr ?_
  rintro ⟨⟨l,d⟩,row⟩
  rw [mem_groupRows,mem_groupRows]
  refine and_congr_left ?_
  rintro rfl
  constructor
  · intro found
    exact (same l row (.inl found) rfl).symm.trans found
  · intro found
    exact (same l row (.inr found) rfl).trans found

/-- The transactions of a group are the flows of the loans in its partition. -/
theorem mem_groupFlows {t : Posted} : t ∈ groupFlows h none raw k ↔ ∃ l : Key, l.sourceId = k.sourceId ∧
    l.tenantId = k.tenantId ∧ FlowsAt raw l k.snapshotDate (k.officeId,k.productId,k.currencyCode) t := by
  rw [groupFlows,Multiset.mem_map]
  constructor
  · rintro ⟨⟨t,dim⟩,inside,rfl⟩
    obtain ⟨flow,keyed⟩ := Multiset.mem_filter.mp inside
    obtain ⟨joined,unreversed⟩ := Multiset.mem_filter.mp flow
    obtain ⟨posted,at_dim,on⟩ := mem_join.mp joined
    simp only [onLoan,Delinquency.names,Bool.and_eq_true,decide_eq_true_eq] at on
    obtain ⟨⟨source,tenant⟩,id⟩ := on
    simp only [flowKey,toFlow,FlowKey.mk.injEq] at keyed
    obtain ⟨date,rfl_source,rfl_tenant,office,product,currency⟩ := keyed
    refine ⟨dim.loan,source.trans rfl_source,tenant.trans rfl_tenant,?_,Relation.mem_rows.mp posted,
      ⟨source.symm,tenant.symm,id⟩,unreversed,date⟩
    rw [← dimension_partition,RepaymentMart.mem_loanDimensions.mp at_dim,Option.map_some,office,product,currency]
  · rintro ⟨l,source,tenant,at_partition,posted,own,unreversed,date⟩
    rw [← dimension_partition (h := h),Option.map_eq_some_iff] at at_partition
    obtain ⟨dim,found,same⟩ := at_partition
    obtain ⟨office,product,currency⟩ : dim.officeId = k.officeId ∧ dim.productId = k.productId ∧
        dim.currencyCode = k.currencyCode := by simpa using same
    have own_loan := RepaymentMart.dimension_loan found
    have joined : (t,dim) ∈ join (onLoan (fun t : RepaymentTransaction => t.loanId)) (stagedTransactions raw).rows
        (loanDimensions h raw) := by
      refine mem_join.mpr ⟨Relation.mem_rows.mpr posted,RepaymentMart.mem_loanDimensions.mpr (by rwa [own_loan]),?_⟩
      simp [onLoan,Delinquency.names,own_loan,own.1,own.2.1,own.2.2]
    refine ⟨(t,dim),Multiset.mem_filter.mpr ⟨Multiset.mem_filter.mpr ⟨joined,unreversed⟩,?_⟩,rfl⟩
    simp [flowKey,toFlow,date,office,product,currency,own.1,own.2.1,source,tenant]

private theorem groupFlows_nodup (h : Hashes) (raw : RawTables) (k : ParKey) : (groupFlows h none raw k).Nodup := by
  have few (t : Posted) : (matching (onLoan (fun t : RepaymentTransaction => t.loanId)) (loanDimensions h raw) t).card ≤ 1 := by
    rw [RepaymentMart.matching_dimensions]
    cases dimensionOf h raw t.1 t.2.loanId with
    | none => exact Nat.zero_le _
    | some dim => exact le_rfl
  have among : groupFlows h none raw k ≤ (join (onLoan (fun t : RepaymentTransaction => t.loanId))
      (stagedTransactions raw).rows (loanDimensions h raw)).map Prod.fst :=
    Multiset.map_le_map ((Multiset.filter_le _ _).trans (Multiset.filter_le _ _))
  refine Multiset.nodup_of_le among ?_
  rw [join_map_fst (fun t _ => few t)]
  exact (stagedTransactions raw).rows_nodup.filter _

/-- The flows of a group are the same when those of its loans are, in its partition. -/
theorem groupFlows_congr (same : ∀ l : Key, l.sourceId = k.sourceId → l.tenantId = k.tenantId → ∀ t,
    FlowsAt raw l k.snapshotDate (k.officeId,k.productId,k.currencyCode) t ↔
      FlowsAt raw' l k.snapshotDate (k.officeId,k.productId,k.currencyCode) t) :
    groupFlows h none raw k = groupFlows h none raw' k := by
  refine ((groupFlows_nodup h raw k).ext (groupFlows_nodup h raw' k)).mpr (fun t => ?_)
  rw [mem_groupFlows,mem_groupFlows]
  exact exists_congr (fun l => and_congr_right (fun source => and_congr_right (fun tenant => same l source tenant t)))

end Groups

section Build
variable {p : Project} {m : Mart} {s : Marts} {today d : Date} {table : FactTable} {l : Key} {row : FactRow} {sc : Scope}

/-- The scope of an incremental run. -/
def scopeOfRun (p : Project) (s : Marts) (today : Date) : Relation Key Scope := s.warehouse.snapshotScope p false today

/-- The fact table that an incremental run leaves. -/
def rebuilt (p : Project) (s : Marts) (today : Date) (table : FactTable) : FactTable :=
  (deleteBeforeDisbursement s.raw (scopeOfRun p s today) (deleteScope (scopeOfRun p s today) table)).union
    (selectFact p.hashes s.raw (scopeOfRun p s today) today)

/-- A loan that is reported from a date on is in scope from then on. -/
theorem in_scope (today : Date) (start : beginningOfTime ≤ p.historicalStartDate) (begun : p.historicalStartDate ≤ d)
    (reported : Reported s.raw (pending s.warehouse) l d) :
    ∃ sc, (scopeOfRun p s today).get l = some sc ∧ sc.fromDate ≤ d := by
  by_contra outside
  push Not at outside
  exact not_reported (before_rows outside begun) (start.trans begun) reported

/-- A scope does not begin before the historical start. -/
theorem scope_begins {fullRefresh : Bool} (found : (s.warehouse.snapshotScope p fullRefresh today).get l = some sc) :
    p.historicalStartDate ≤ sc.fromDate := by
  rw [Warehouse.snapshotScope,scope_get] at found
  obtain ⟨_,_,rfl⟩ := Option.map_eq_some_iff.mp found
  exact le_max_right _ _

/-- A row that a build selects is that of its loan, which is disbursed by then. -/
theorem selectFact_some {h : Hashes} {raw : RawTables} {scope : Relation Key Scope}
    (found : (selectFact h raw scope today).get (l,d) = some row) : ∃ sc base, scope.get l = some sc ∧ sc.fromDate ≤ d ∧
      loanBase raw l = some base ∧ base.disbursedonDate ≤ d ∧ row.officeId = base.client.officeId ∧
      row.productId = base.loan.productId := by
  cases at_l : scope.get l with
  | none =>
    rw [selectFact_get_none at_l] at found
    cases found
  | some sc =>
    rw [selectFact_get at_l] at found
    split at found
    · next inside =>
      obtain ⟨status,snapshot,rfl⟩ := Option.map_eq_some_iff.mp found
      obtain ⟨base,at_base,kept⟩ := Option.bind_eq_some_iff.mp snapshot
      split at kept
      · next disbursed =>
        obtain rfl := Option.some.inj kept
        exact ⟨sc,base,rfl,inside.1,at_base,disbursed.1,rfl,rfl⟩
      · cases kept
    · cases found

private theorem disbursedBy_of_base {raw : RawTables} {base : LoanBase} (found : loanBase raw l = some base)
    (le : base.disbursedonDate ≤ d) : DisbursedBy raw l d :=
  ⟨base.loan,base.disbursedonDate,loans_of_base found,(loanBase_eq_some.mp found).2.1,le⟩

/-- In scope the row is the selected one. -/
theorem rebuilt_scoped (found : (scopeOfRun p s today).get l = some sc) (inside : sc.fromDate ≤ d) :
    (rebuilt p s today table).get (l,d) = (selectFact p.hashes s.raw (scopeOfRun p s today) today).get (l,d) := by
  rw [rebuilt,Relation.union_get,deletes_get,found]
  simp [not_lt.mpr inside]

/-- Out of scope the row stays: the second delete finds nothing, since a row before the disbursement of its loan is named. -/
theorem rebuilt_unscoped (start : beginningOfTime ≤ p.historicalStartDate) (tracked : Tracked p m s table)
    (outside : ∀ sc, (scopeOfRun p s today).get l = some sc → d < sc.fromDate) :
    (rebuilt p s today table).get (l,d) = table.get (l,d) := by
  rw [rebuilt,Relation.union_get,deletes_get]
  cases found : (scopeOfRun p s today).get l with
  | none => simp [selectFact_get_none found]
  | some sc =>
    have before : d < sc.fromDate := outside sc found
    rw [selectFact_get found,if_neg (fun inside => not_le.mpr before inside.1),Option.or_none]
    dsimp only
    split
    · rfl
    · next undisbursed =>
      by_contra present
      have present : (table.get (l,d)).isSome := Option.isSome_iff_ne_none.mpr (Ne.symm present)
      rcases tracked.anchored l d present with named | ⟨loan,disbursed,at_l,dated,le⟩
      · obtain ⟨sc',found',le⟩ := in_scope today start (tracked.begun l d present) (.inl named)
        exact absurd le (not_le.mpr (outside sc' found'))
      · refine undisbursed ⟨before,?_⟩
        simp [(loans_eq_some.mp at_l).1,dated,le]

/-- A row that changes is in scope. -/
theorem rebuilt_differs (start : beginningOfTime ≤ p.historicalStartDate) (tracked : Tracked p m s table)
    (differs : table.get (l,d) ≠ (rebuilt p s today table).get (l,d)) :
    ∃ sc, (scopeOfRun p s today).get l = some sc ∧ sc.fromDate ≤ d := by
  by_contra outside
  push Not at outside
  exact differs (rebuilt_unscoped start tracked outside).symm

/-- Every row of the new table is not before the historical start, and its loan is disbursed by then. -/
theorem rebuilt_anchored (start : beginningOfTime ≤ p.historicalStartDate) (tracked : Tracked p m s table)
    (present : ((rebuilt p s today table).get (l,d)).isSome) : p.historicalStartDate ≤ d ∧ DisbursedBy s.raw l d := by
  by_cases at_scope : ∃ sc, (scopeOfRun p s today).get l = some sc ∧ sc.fromDate ≤ d
  · obtain ⟨sc,found,inside⟩ := at_scope
    rw [rebuilt_scoped found inside] at present
    obtain ⟨row,selected⟩ := Option.isSome_iff_exists.mp present
    obtain ⟨_,base,_,_,at_base,disbursed,_,_⟩ := selectFact_some selected
    exact ⟨(scope_begins found).trans inside,disbursedBy_of_base at_base disbursed⟩
  · have outside := at_scope
    push Not at outside
    rw [rebuilt_unscoped start tracked outside] at present
    have begun := tracked.begun l d present
    refine ⟨begun,(tracked.anchored l d present).resolve_left (fun named => at_scope ?_)⟩
    exact in_scope today start begun (.inl named)

end Build

/-! ### What a run records -/

section Records
variable {p : Project} {m : Mart} {s : Marts} {today : Date} {table : FactTable} {k : ParKey} {l : Key} {sc : Scope}

/-- A dirty row of the run reaches the group. -/
def Marked (p : Project) (s : Marts) (today : Date) (k : ParKey) : Prop :=
  Recorded (s.warehouse.dbtRunSeq + 1) (s.recorded p false today) k

/-- A fact row in scope marks its partition. -/
theorem scoped_before (p : Project) (today : Date) (built : s.warehouse.factLoanSnapshot = some table) {e : Date}
    {row : FactRow}
    (found : table.get (l,e) = some row) (at_scope : (scopeOfRun p s today).get l = some sc) :
    MarkedBy (s.warehouse.dbtRunSeq + 1) (s.recorded p false today) (l.sourceId,row.officeId,row.productId) sc := by
  have inside : ((l,e),row) ∈ factRows s.warehouse.factLoanSnapshot := by
    rw [built]
    exact Relation.mem_rows.mpr found
  have marked : MarkedBy (s.warehouse.dbtRunSeq + 1) (recordBefore (s.warehouse.dbtRunSeq + 1) (scopeOfRun p s today)
    (factRows s.warehouse.factLoanSnapshot)) (l.sourceId,row.officeId,row.productId) sc := before_marks inside at_scope
  refine marked.mono (fun d recorded => Multiset.mem_add.mpr (.inl ?_))
  rw [if_neg (by simp [Warehouse.changeWindow,built])]
  exact recorded

/-- A loan in scope marks the partition it is in. -/
theorem scoped_after (p : Project) (today : Date) {office product : Option Int} (currency : Option String)
    (at_l : loanPartition s.raw l = some (office,product,currency)) (at_scope : (scopeOfRun p s today).get l = some sc) :
    MarkedBy (s.warehouse.dbtRunSeq + 1) (s.recorded p false today) (l.sourceId,office,product) sc := by
  simp only [loanPartition,Option.bind_eq_bind,Option.bind_eq_some_iff,Option.pure_def,Option.some.injEq,Prod.mk.injEq] at at_l
  obtain ⟨loan,at_loan,clientId,owner,client,at_client,rfl,rfl,_⟩ := at_l
  have marked : MarkedBy (s.warehouse.dbtRunSeq + 1) (recordAfter (s.warehouse.dbtRunSeq + 1) (scopeOfRun p s today) s.raw)
    (l.sourceId,client.officeId,loan.productId) sc := after_marks at_scope at_loan owner at_client
  exact marked.mono (fun d recorded => Multiset.mem_add.mpr (.inr recorded))

/-- A fact row in scope marks its group and the later ones of its partition. -/
theorem marked_before (built : s.warehouse.factLoanSnapshot = some table) {e : Date} {row : FactRow}
    (found : table.get (l,e) = some row) (at_scope : (scopeOfRun p s today).get l = some sc) (source : l.sourceId = k.sourceId)
    (office : row.officeId = k.officeId) (product : row.productId = k.productId) (begun : sc.fromDate ≤ k.snapshotDate) :
    Marked p s today k := by
  have marked := scoped_before p today built found at_scope
  rw [source,office,product] at marked
  exact marked.reaches begun

/-- A loan in scope marks its group and the later ones of its partition. -/
theorem marked_after (p : Project) (today : Date) (currency : Option String)
    (at_l : loanPartition s.raw l = some (k.officeId,k.productId,currency)) (at_scope : (scopeOfRun p s today).get l = some sc)
    (source : l.sourceId = k.sourceId) (begun : sc.fromDate ≤ k.snapshotDate) : Marked p s today k := by
  have marked := scoped_after p today currency at_l at_scope
  rw [source] at marked
  exact marked.reaches begun

/-- A reported partition is marked. -/
theorem marked_reported (start : beginningOfTime ≤ p.historicalStartDate) (built : s.warehouse.factLoanSnapshot = some table)
    (begun : p.historicalStartDate ≤ k.snapshotDate)
    (reported : PartitionReported s table k.sourceId k.officeId k.productId k.snapshotDate) : Marked p s today k := by
  obtain ⟨l,source,reported,⟨e,row,found,office,product⟩ | ⟨currency,there⟩⟩ := reported
  · obtain ⟨sc,at_scope,inside⟩ := in_scope today start begun reported
    exact marked_before built found at_scope source office product inside
  · obtain ⟨sc,at_scope,inside⟩ := in_scope today start begun reported
    exact marked_after p today currency there at_scope source inside

variable (start : beginningOfTime ≤ p.historicalStartDate) (built : s.warehouse.factLoanSnapshot = some table)
  (tracked : Tracked p m s table) (unmarked : ¬Marked p s today k)
include start built tracked unmarked

/-- The rows of a group that is not marked stay. -/
theorem rows_unmarked : groupRows none table.rows k = groupRows none (rebuilt p s today table).rows k := by
  refine groupRows_congr (fun l row found keyed => ?_)
  by_contra differs
  obtain ⟨sc,at_scope,inside⟩ := rebuilt_differs start tracked differs
  obtain ⟨source,office,product⟩ : l.sourceId = k.sourceId ∧ row.officeId = k.officeId ∧ row.productId = k.productId := by
    rw [← keyed]
    exact ⟨rfl,rfl,rfl⟩
  rcases found with old | new
  · exact unmarked (marked_before built old at_scope source office product inside)
  · rw [rebuilt_scoped at_scope inside] at new
    obtain ⟨_,base,_,_,at_base,_,office',product'⟩ := selectFact_some new
    obtain ⟨at_loan,_,owner,at_client⟩ := loanBase_eq_some.mp at_base
    refine unmarked (marked_after p today base.loan.currencyCode ?_ at_scope source inside)
    simp [loanPartition,at_loan,owner,at_client,← office,← product,office',product']

/-- A fact row of a group that is not marked is not reported. -/
theorem row_unreported {row : FactRow} (found : table.get (l,k.snapshotDate) = some row)
    (keyed : parKey ((l,k.snapshotDate),row) = k) : ¬Reported s.raw (pending s.warehouse) l k.snapshotDate := by
  intro reported
  obtain ⟨sc,at_scope,inside⟩ := in_scope today start (tracked.begun l _ (by simp [found])) reported
  obtain ⟨source,office,product⟩ : l.sourceId = k.sourceId ∧ row.officeId = k.officeId ∧ row.productId = k.productId := by
    rw [← keyed]
    exact ⟨rfl,rfl,rfl⟩
  exact unmarked (marked_before built found at_scope source office product inside)

/-- No entry for a whole source is pending when a fact row of the source is not marked. -/
theorem row_unwhole {row : FactRow} (found : table.get (l,k.snapshotDate) = some row)
    (keyed : parKey ((l,k.snapshotDate),row) = k) : ¬WholeSource (pending s.warehouse) l.sourceId := by
  intro whole
  refine row_unreported start built tracked unmarked found keyed ?_
  rcases tracked.anchored l _ (Option.isSome_iff_exists.mpr ⟨row,found⟩) with named | disbursed
  · exact .inl named
  · exact whole.reports disbursed.loaned

/-- The names of a group with a fact row stay. -/
theorem names_unmarked (products : ProductsReported s table) {row : FactRow} (found : table.get (l,k.snapshotDate) = some row)
    (keyed : parKey ((l,k.snapshotDate),row) = k) : namesOf s.lastRead k.toMart = namesOf s.raw k.toMart := by
  have unwhole := row_unwhole start built tracked unmarked found keyed
  have source : l.sourceId = k.sourceId := congrArg ParKey.sourceId keyed
  have tenant : l.tenantId = k.tenantId := congrArg ParKey.tenantId keyed
  have office : row.officeId = k.officeId := congrArg ParKey.officeId keyed
  have product : row.productId = k.productId := congrArg ParKey.productId keyed
  have offices (id : Int) : (dimOffice s.lastRead).get ⟨k.sourceId,k.tenantId,id⟩ =
      (dimOffice s.raw).get ⟨k.sourceId,k.tenantId,id⟩ := by
    by_contra differs
    exact unwhole (source ▸ tracked.offices _ differs)
  have products (id : Int) (of_product : k.productId = some id) : (dimProduct s.lastRead).get ⟨k.sourceId,k.tenantId,id⟩ =
      (dimProduct s.raw).get ⟨k.sourceId,k.tenantId,id⟩ := by
    by_contra differs
    have changed : (dimProduct s.lastRead).get (refer l id) ≠ (dimProduct s.raw).get (refer l id) := by
      rwa [refer,source,tenant]
    have reported := products l _ row id found (product.trans of_product) changed
    rw [source,office,product] at reported
    exact unmarked (marked_reported start built (tracked.begun l _ (by simp [found])) reported)
  have office_name : named (dimOffice s.lastRead) k.toMart k.toMart.officeId =
      named (dimOffice s.raw) k.toMart k.toMart.officeId := by
    unfold named
    exact congrArg _ (funext (fun id => congrArg (Option.map _) (offices id)))
  have product_name : named (dimProduct s.lastRead) k.toMart k.toMart.productId =
      named (dimProduct s.raw) k.toMart k.toMart.productId := by
    unfold named
    cases of_product : k.toMart.productId with
    | none => rfl
    | some id => exact congrArg (Option.map _) (products id of_product)
  rw [namesOf,namesOf,office_name,product_name]

/-- The flows of a group from the historical start on that is not marked stay. -/
theorem flows_unmarked (health : m = .portfolioHealth) (leaves : LeavesReported p s table)
    (begun : p.historicalStartDate ≤ k.snapshotDate) :
    groupFlows p.hashes none s.lastRead k = groupFlows p.hashes none s.raw k := by
  refine groupFlows_congr (fun l source _ t => ?_)
  by_contra differ
  obtain ⟨sc,at_scope,inside⟩ := in_scope today start begun
    (tracked.flows health l k.snapshotDate begun ⟨_,t,differ⟩)
  have elsewhere : ∀ currency, loanPartition s.raw l ≠ some (k.officeId,k.productId,currency) :=
    fun currency there => unmarked (marked_after p today currency there at_scope source inside)
  by_cases flowed : FlowsAt s.lastRead l k.snapshotDate (k.officeId,k.productId,k.currencyCode) t
  · have reported := leaves l _ _ _ _ t begun flowed elsewhere
    rw [source] at reported
    exact unmarked (marked_reported start built begun reported)
  · exact differ (iff_of_false flowed (fun flows => elsewhere _ flows.1))

/-- A group that is not marked has the same rows in the mart. -/
theorem group_unmarked (products : ProductsReported s table) (leaves : m = .portfolioHealth → LeavesReported p s table) :
    atKey m.key k (m.select p.hashes none table.rows s.lastRead) =
      atKey m.key k (m.select p.hashes none (rebuilt p s today table).rows s.raw) := by
  refine select_congr m (rows_unmarked start built tracked unmarked) (fun some_rows => ?_)
  obtain ⟨⟨⟨l,d⟩,row⟩,inside⟩ := Multiset.exists_mem_of_ne_zero some_rows
  obtain ⟨found,keyed⟩ := mem_groupRows.mp inside
  obtain rfl : d = k.snapshotDate := congrArg ParKey.snapshotDate keyed
  refine ⟨names_unmarked start built tracked unmarked products found keyed,fun health => ?_⟩
  exact flows_unmarked start built tracked unmarked health (leaves health) (tracked.begun l _ (by simp [found]))

end Records

/-- What a run leaves, `fact` being the fact table after it. -/
structure Ran (p : Project) (fullRefresh : Bool) (today : Date) (built : Finset Consumer) (s t : Marts) (fact : FactTable) :
    Prop where
  stored : t.warehouse.factLoanSnapshot = some fact
  raw : t.raw = s.raw
  lastRead : t.lastRead = s.raw
  runId : t.warehouse.dbtRunSeq = s.warehouse.dbtRunSeq + 1
  changeCursor : ∃ c, t.warehouse.changeCursor = some c ∧ c.lastTxid ≤ t.warehouse.openFrom
  openFrom : t.warehouse.openFrom = s.warehouse.nextTxid
  ranOn : t.warehouse.ranOn = some today
  cursors : ∀ c, t.cursors c = if c ∈ built then some (s.warehouse.dbtRunSeq + 1) else s.cursors c
  dirty : t.dirty = finishRun t.cursors (s.dirty + s.recorded p fullRefresh today)
  contents : ∀ m, t.contents m = if consumerOf m ∈ built
    then some (m.build p.hashes fullRefresh ⟨(s.cursors (consumerOf m)).getD 0,s.warehouse.dbtRunSeq + 1,
      s.dirty + s.recorded p fullRefresh today⟩ fact.rows s.raw (s.contents m))
    else s.contents m

section Runs
variable {p : Project} {m : Mart} {s t : Marts} {fullRefresh : Bool} {today : Date} {built : Finset Consumer}
  {fact table : FactTable}

theorem ran_of_run (taken : MartRuns.run p fullRefresh today built s = some t) :
    ∃ fact, Ran p fullRefresh today built s t fact ∧
    buildFact p.hashes s.raw (s.warehouse.snapshotScope p fullRefresh today) today fullRefresh s.warehouse.factLoanSnapshot =
      some fact := by
  obtain ⟨after,built_fact,rfl⟩ := Option.map_eq_some_iff.mp taken
  obtain ⟨fact,selected,rfl⟩ := Option.map_eq_some_iff.mp built_fact
  exact ⟨fact,⟨rfl,rfl,rfl,rfl,⟨_,rfl,le_rfl⟩,rfl,rfl,fun _ => rfl,rfl,fun _ => rfl⟩,selected⟩

/-- The append of a run finds no row in its way. -/
theorem run_succeeds (p : Project) (fullRefresh : Bool) (today : Date) (built : Finset Consumer) (s : Marts) :
    ∃ t, MartRuns.run p fullRefresh today built s = some t := by
  have selected : ∃ fact, buildFact p.hashes s.raw (s.warehouse.snapshotScope p fullRefresh today) today fullRefresh
      s.warehouse.factLoanSnapshot = some fact := by
    cases fullRefresh with
    | true => exact ⟨_,rfl⟩
    | false =>
      cases s.warehouse.factLoanSnapshot with
      | none => exact ⟨_,rfl⟩
      | some table => exact ⟨_,append_deletes⟩
  obtain ⟨fact,selected⟩ := selected
  exact ⟨_,Option.map_eq_some_iff.mpr ⟨_,Option.map_eq_some_iff.mpr ⟨fact,selected,rfl⟩,rfl⟩⟩

/-- After a run nothing is pending. -/
theorem Ran.tracked (ran : Ran p fullRefresh today built s t fact)
    (anchored : ∀ l d, (fact.get (l,d)).isSome → p.historicalStartDate ≤ d ∧ DisbursedBy s.raw l d) : Tracked p m t fact := by
  refine ⟨ran.changeCursor,fun l d present => (anchored l d present).1,?_,?_,?_⟩
  · intro l d present
    rw [ran.raw]
    exact .inr (anchored l d present).2
  · intro k differs
    rw [ran.raw,ran.lastRead] at differs
    exact absurd rfl differs
  · intro _ l d _ differ
    rw [ran.raw,ran.lastRead] at differ
    exact absurd differ (not_differ (fun _ _ _ _ => rfl))

/-- The mart is kept when its content is accounted for, or none. -/
theorem Ran.kept (ran : Ran p fullRefresh today built s t fact)
    (cursor : (s.cursors (consumerOf m)).getD 0 ≤ s.warehouse.dbtRunSeq)
    (anchored : ∀ l d, (fact.get (l,d)).isSome → p.historicalStartDate ≤ d ∧ DisbursedBy s.raw l d)
    (accounted : ∀ rows, t.contents m = some rows →
      Accounted m.key (Stale t m) rows (m.select p.hashes none fact.rows s.raw)) : Kept p m t := by
  refine ⟨?_,?_,?_⟩
  · intro table at_fact
    obtain rfl := Option.some.inj (ran.stored.symm.trans at_fact)
    exact ran.tracked anchored
  · rw [ran.cursors,ran.runId]
    split
    · exact le_rfl
    · exact cursor.trans (Nat.le_succ _)
  · intro rows found
    rw [ran.lastRead]
    exact ⟨fact,ran.stored,accounted rows found⟩

/-- A run that builds the fact table and the mart in full. -/
theorem Ran.full (ran : Ran p fullRefresh today built s t (selectFact p.hashes s.raw
      (s.warehouse.snapshotScope p fullRefresh today) today))
    (cursor : (s.cursors (consumerOf m)).getD 0 ≤ s.warehouse.dbtRunSeq) (fresh : fullRefresh = true ∨ s.contents m = none)
    (absent : consumerOf m ∉ built → s.contents m = none) : Kept p m t ∧
    (consumerOf m ∈ built → t.contents m = some (m.select p.hashes none (factRows t.warehouse.factLoanSnapshot) t.raw)) := by
  have in_full (member : consumerOf m ∈ built) : t.contents m = some (m.select p.hashes none (selectFact p.hashes s.raw
      (s.warehouse.snapshotScope p fullRefresh today) today).rows s.raw) := by
    rw [ran.contents,if_pos member]
    rcases fresh with refreshed | unbuilt
    · rw [refreshed]
      rfl
    · rw [unbuilt]
      cases fullRefresh <;> rfl
  refine ⟨ran.kept cursor ?_ ?_,?_⟩
  · intro l d present
    obtain ⟨row,selected⟩ := Option.isSome_iff_exists.mp present
    obtain ⟨sc,base,at_scope,inside,at_base,disbursed,_,_⟩ := selectFact_some selected
    exact ⟨(scope_begins at_scope).trans inside,disbursedBy_of_base at_base disbursed⟩
  · intro rows found
    by_cases member : consumerOf m ∈ built
    · rw [in_full member] at found
      obtain rfl := Option.some.inj found
      exact fun _ _ => rfl
    · rw [ran.contents,if_neg member,absent member] at found
      cases found
  · intro member
    rw [in_full member,ran.stored,ran.raw]
    rfl

/-- A model that is not built keeps its cursor, and the dirty rows after it. -/
theorem Ran.keeps (ran : Ran p fullRefresh today built s t fact) {c : Consumer} (skipped : c ∉ built) {d : DirtyRow}
    (dirty : d ∈ s.dirty + s.recorded p fullRefresh today) (after : (s.cursors c).getD 0 < d.runId) :
    d ∈ t.dirty ∧ (t.cursors c).getD 0 < d.runId := by
  have same : t.cursors c = s.cursors c := by rw [ran.cursors,if_neg skipped]
  refine ⟨?_,by rwa [same]⟩
  rw [ran.dirty]
  exact finishRun_keeps c dirty (by rwa [same])

/-- The groups that an incremental run marks are in the window of a mart that it builds, and dirty for one that it does not. -/
theorem Ran.marked (ran : Ran p false today built s t fact) (cursor : (s.cursors (consumerOf m)).getD 0 ≤ s.warehouse.dbtRunSeq)
    {k : ParKey} (marked : Marked p s today k) :
    inWindow ⟨(s.cursors (consumerOf m)).getD 0,s.warehouse.dbtRunSeq + 1,s.dirty + s.recorded p false today⟩ k = true ∧
    (consumerOf m ∉ built → Stale t m k) := by
  obtain ⟨d,recorded,own,reaches⟩ := marked
  have dirty : d ∈ s.dirty + s.recorded p false today := Multiset.mem_add.mpr (.inr recorded)
  have after : (s.cursors (consumerOf m)).getD 0 < d.runId := by rw [own]; exact Nat.lt_succ_of_le cursor
  refine ⟨decide_eq_true ⟨d,dirty,after,own.le,reaches⟩,fun skipped => ?_⟩
  obtain ⟨kept,unread⟩ := ran.keeps skipped dirty after
  exact decide_eq_true ⟨d,kept,unread,by rw [ran.runId]; exact own.le,reaches⟩

/-- The stale groups are in the window of a mart that the run builds, and stay dirty for one that it does not. -/
theorem Ran.stale (ran : Ran p false today built s t fact) {k : ParKey} (stale : Stale s m k) :
    inWindow ⟨(s.cursors (consumerOf m)).getD 0,s.warehouse.dbtRunSeq + 1,s.dirty + s.recorded p false today⟩ k = true ∧
    (consumerOf m ∉ built → Stale t m k) := by
  obtain ⟨d,inside,after,upto,reaches⟩ := of_decide_eq_true stale
  have dirty : d ∈ s.dirty + s.recorded p false today := Multiset.mem_add.mpr (.inl inside)
  have upto' := upto.trans (Nat.le_succ _)
  refine ⟨decide_eq_true ⟨d,dirty,after,upto',reaches⟩,fun skipped => ?_⟩
  obtain ⟨kept,unread⟩ := ran.keeps skipped dirty after
  exact decide_eq_true ⟨d,kept,unread,by rw [ran.runId]; exact upto',reaches⟩

/-- An incremental run over a fact table. -/
theorem Ran.incremental (start : beginningOfTime ≤ p.historicalStartDate) (kept : Kept p m s)
    (at_fact : s.warehouse.factLoanSnapshot = some table) (ran : Ran p false today built s t (rebuilt p s today table))
    (products : ProductsReported s table) (leaves : m = .portfolioHealth → LeavesReported p s table) : Kept p m t ∧
    (consumerOf m ∈ built → t.contents m = some (m.select p.hashes none (factRows t.warehouse.factLoanSnapshot) t.raw)) := by
  have tracked := kept.tracked table at_fact
  have unmarked (k : ParKey) (unmarked : ¬Marked p s today k) : atKey m.key k (m.select p.hashes none table.rows s.lastRead) =
      atKey m.key k (m.select p.hashes none (rebuilt p s today table).rows s.raw) :=
    group_unmarked start at_fact tracked unmarked products leaves
  have accounted (rows : Multiset m.Row) (found : s.contents m = some rows) :
      Accounted m.key (Stale s m) rows (m.select p.hashes none table.rows s.lastRead) := by
    obtain ⟨table',at_fact',accounted⟩ := kept.accounted rows found
    obtain rfl := Option.some.inj (at_fact.symm.trans at_fact')
    exact accounted
  have in_full (member : consumerOf m ∈ built) :
      t.contents m = some (m.select p.hashes none (rebuilt p s today table).rows s.raw) := by
    rw [ran.contents,if_pos member]
    cases found : s.contents m with
    | none => rfl
    | some rows =>
      rw [build_eq_refresh]
      refine congrArg some ((accounted rows found).refreshed (fun k stale => (ran.stale stale).1) ?_ (select_window m))
      intro k outside
      refine unmarked k (fun marked => ?_)
      rw [(ran.marked kept.cursor marked).1] at outside
      cases outside
  refine ⟨ran.kept kept.cursor (fun l d present => rebuilt_anchored start tracked present) ?_,?_⟩
  · intro rows found
    by_cases member : consumerOf m ∈ built
    · rw [in_full member] at found
      obtain rfl := Option.some.inj found
      exact fun _ _ => rfl
    · rw [ran.contents,if_neg member] at found
      exact (accounted rows found).skipped (fun k stale => (ran.stale stale).2 member)
        (fun k fresh => unmarked k (fun marked => fresh ((ran.marked kept.cursor marked).2 member)))
  · intro member
    rw [in_full member,ran.stored,ran.raw]
    rfl

/-- Every run that meets the condition keeps the mart, and builds it in full. -/
theorem Kept.run (start : beginningOfTime ≤ p.historicalStartDate) (kept : Kept p m s)
    (taken : MartRuns.run p fullRefresh today built s = some t)
    (traceable : Traceable p m s (.dbtRun fullRefresh today built) t) : Kept p m t ∧
    (consumerOf m ∈ built → t.contents m = some (m.select p.hashes none (factRows t.warehouse.factLoanSnapshot) t.raw)) := by
  obtain ⟨fact,ran,selected⟩ := ran_of_run taken
  cases at_fact : s.warehouse.factLoanSnapshot with
  | none =>
    have unbuilt : s.contents m = none := by
      by_contra content
      obtain ⟨rows,found⟩ := Option.ne_none_iff_exists'.mp content
      obtain ⟨table,at_fact',_⟩ := kept.accounted rows found
      rw [at_fact] at at_fact'
      cases at_fact'
    have in_full : buildFact p.hashes s.raw (s.warehouse.snapshotScope p fullRefresh today) today fullRefresh none =
        some (selectFact p.hashes s.raw (s.warehouse.snapshotScope p fullRefresh today) today) := by cases fullRefresh <;> rfl
    rw [at_fact,in_full] at selected
    obtain rfl := Option.some.inj selected
    exact ran.full kept.cursor (.inr unbuilt) (fun _ => unbuilt)
  | some table =>
    have condition := traceable table at_fact
    cases fullRefresh with
    | true =>
      obtain rfl := Option.some.inj selected
      refine ran.full kept.cursor (.inl rfl) (fun skipped => ?_)
      by_contra content
      exact skipped (condition (Option.isSome_iff_ne_none.mpr content))
    | false =>
      rw [at_fact,buildFact,append_deletes] at selected
      obtain rfl := Option.some.inj selected
      exact ran.incremental start kept at_fact condition.1 condition.2

end Runs

/-! ### Whole runs -/

/-- No model has been built. -/
structure Unbuilt (s : Marts) : Prop where
  fact : s.warehouse.factLoanSnapshot = none
  cursors : ∀ c, s.cursors c = none
  contents : ∀ m, s.contents m = none

section Steps
variable {p : Project} {m : Mart} {s t : Marts} {fullRefresh : Bool} {today : Date} {built : Finset Consumer}

theorem Unbuilt.kept (unbuilt : Unbuilt s) : Kept p m s := by
  refine ⟨?_,?_,?_⟩
  · intro table at_fact
    rw [unbuilt.fact] at at_fact
    cases at_fact
  · simp [unbuilt.cursors]
  · intro rows found
    rw [unbuilt.contents] at found
    cases found

/-- Every step that meets the condition keeps the mart. -/
theorem Kept.step (start : beginningOfTime ≤ p.historicalStartDate) {a : MartRuns.Act} (kept : Kept p m s)
    (step : TraceableStep p m s a t) : Kept p m t := by
  obtain ⟨taken,traceable⟩ := step
  cases a with
  | applyStagedBatch txid name engine now today db stage =>
    obtain ⟨after,called,rfl⟩ := Option.map_eq_some_iff.mp taken
    simp only [FactBuild.next] at called
    split at called
    · next fresh =>
      cases applied : ApplyBatch.applyStagedBatch (contract name) engine now today db stage (s.warehouse.stores name) with
      | error e => simp [applied] at called
      | ok result =>
        obtain ⟨stores,log,results⟩ := result
        obtain ⟨_,_,stored,logged,_⟩ := applyStagedBatch_ok.mp applied
        simp only [applied,Option.some.injEq] at called
        subst called
        have logs : Logs (contract name) today (s.raw name) stores.raw log := by
          rw [stored,logged]
          exact batchLog_logs
        refine kept.commit fresh (fun table at_fact => batch_reports start logs ?_)
        have flows : m = .portfolioHealth →
            KeepsFlows p.historicalStartDate name s.lastRead s.raw (committed s txid name stores log).raw := traceable table at_fact
        rwa [committed_raw] at flows
    · cases called
  | promoteShadow txid name source db =>
    obtain ⟨after,called,rfl⟩ := Option.map_eq_some_iff.mp taken
    simp only [FactBuild.next] at called
    split at called
    · next fresh =>
      cases promoted : ApplyBatch.promoteShadow db source (s.warehouse.stores name) with
      | mk stores log =>
        simp only [promoted,Option.some.injEq] at called
        subst called
        refine kept.commit fresh (fun table at_fact => ?_)
        obtain ⟨registered,disbursed,flows⟩ := traceable table at_fact
        have whole : WholeSource (ApplyBatch.promoteShadow db source (s.warehouse.stores name)).2 source :=
          promotion_whole registered
        rw [promoted] at whole
        refine promotion_reports ?_ whole ?_ ?_
        · intro k other
          have others := promotion_others db (s.warehouse.stores name) other
          rwa [promoted] at others
        · intro l d present before
          exact committed_raw ▸ disbursed l d present before
        · intro health l d begun own differ
          exact committed_raw ▸ flows health l d begun own (committed_raw ▸ differ)
    · cases called
  | dbtRun fullRefresh today built =>
    simp only [MartRuns.next] at taken
    split at taken
    · exact (kept.run start taken traceable).1
    · cases taken

/-- In every run of calls and dbt runs that meet the condition, a dbt run that builds the mart leaves what a build that
    is not incremental makes of the same tables, and the dirty partitions that some mart has not read stay. -/
theorem marts_incremental_eq_full (m : Mart) {s₀ : Marts} {trace : List MartRuns.Act}
    (start : beginningOfTime ≤ p.historicalStartDate) (unbuilt : Unbuilt s₀) (run : Run (TraceableStep p m) s₀ trace s)
    (step : TraceableStep p m s (.dbtRun fullRefresh today built) t) :
    (consumerOf m ∈ built →
      t.contents m = some (m.select p.hashes none (factRows t.warehouse.factLoanSnapshot) t.raw)) ∧
    ∀ d ∈ s.dirty + s.recorded p fullRefresh today, (∃ c, (t.cursors c).getD 0 < d.runId) → d ∈ t.dirty := by
  have kept : Kept p m s := run.stateInvariant unbuilt.kept (fun _ _ _ kept step => kept.step start step)
  obtain ⟨taken,traceable⟩ := step
  simp only [MartRuns.next] at taken
  split at taken
  · refine ⟨(kept.run start taken traceable).2,?_⟩
    rintro d recorded ⟨c,unread⟩
    obtain ⟨fact,ran,_⟩ := ran_of_run taken
    rw [ran.dirty]
    exact finishRun_keeps c recorded unread
  · cases taken

end Steps

/-- KAFKA owns the tables of a source. -/
def tablesOwned : ControlState where
  registry := [⟨"branch-001","default",1⟩]
  ownership := ["m_office","m_product_loan","m_client","m_loan"].map (fun table =>
    { sourceId := "branch-001", tableName := table, engine := .KAFKA, shadowEngine := none, cutoverState := .STEADY,
      epoch := 2 })
  registryKey := Convergence.kafkaOwned.registryKey
  ownershipKey := by decide
  registryText := Convergence.kafkaOwned.registryText
  ownershipText := by decide

def call (txid : Nat) (table : Table) (stage : List StagedRow) : MartRuns.Act :=
  .applyStagedBatch txid table .KAFKA 0 newYear tablesOwned stage

def emptyMarts : Marts := ⟨emptyWarehouse,0,fun _ => none,fun _ => none,fun _ => .empty⟩

/-- A loan of a product and an office, with both marts built. -/
def firstRun : List MartRuns.Act := [
  call 1 .mOffice [upserted 1 1 [("name",.text "Head office")]],
  call 2 .mProductLoan [upserted 1 1 [("name",.text "Personal loan")]],
  call 3 .mClient [upserted 1 1 [("office_id",.int 1)]],
  call 4 .mLoan [upserted 1 1 [("client_id",.int 1),("product_id",.int 1),("currency_code",.text "USD"),
    ("disbursedon_date",.date newYear)]],
  .dbtRun false newYear {.martDelinquencyPar,.martPortfolioHealth}]

theorem next_call {p : Project} {s : Marts} {txid : Nat} {table : Table} {db : Routing.ControlState}
    {stage : List StagedRow} (fresh : s.warehouse.openFrom ≤ txid)
    (owned : Routing.fencingCheck db (contract table).tableName .KAFKA
      (stage.map (fun row => ⟨row.key.sourceId,row.target,row.ownerEpoch⟩)).dedup = .ok ()) :
    ∃ after log, MartRuns.next p s (.applyStagedBatch txid table .KAFKA 0 newYear db stage) =
      some (committed s txid table after log) := by
  obtain ⟨after,log,taken⟩ := FactIncremental.next_batch (p := p) fresh owned
  exact ⟨after,log,Option.map_eq_some_iff.mpr ⟨_,taken,rfl⟩⟩

/-- Build `mart_portfolio_health` alone. -/
def healthRun : MartRuns.Act := .dbtRun false newYear {.martPortfolioHealth}

def renamedOffice : StagedRow := upserted 1 2 [("name",.text "Main office")]

/-- The first calls need no condition: the fact table is not built. -/
theorem traceable_unbuilt {p : Project} {m : Mart} {s t : Marts} {a : MartRuns.Act} (fact : s.warehouse.factLoanSnapshot = none)
    (taken : MartRuns.next p s a = some t) : TraceableStep p m s a t := by
  refine ⟨taken,fun table found => ?_⟩
  rw [fact] at found
  cases found

theorem next_dbtRun {p : Project} {s : Marts} {built : Finset Consumer} (mapped : SingleMapping s.raw)
    (ran : ∀ day ∈ s.warehouse.ranOn, day ≤ newYear) : ∃ t, MartRuns.next p s (.dbtRun false newYear built) = some t := by
  obtain ⟨t,taken⟩ := run_succeeds p false newYear built s
  exact ⟨t,(if_pos ⟨mapped,ran⟩).trans taken⟩

theorem ran_of_next {p : Project} {s t : Marts} {fullRefresh : Bool} {today : Date} {built : Finset Consumer}
    (taken : MartRuns.next p s (.dbtRun fullRefresh today built) = some t) :
    ∃ fact, Ran p fullRefresh today built s t fact := by
  simp only [MartRuns.next] at taken
  split at taken
  · obtain ⟨fact,ran,_⟩ := ran_of_run taken
    exact ⟨fact,ran⟩
  · cases taken

/-- A renamed office is logged for its source: the marts show the new name when they are built. -/
theorem renamed_office_shown : ∃ s t, Run (TraceableStep sampleProject .portfolioHealth) emptyMarts
      (firstRun ++ [call 9 .mOffice [renamedOffice]]) s ∧
    MartRuns.next sampleProject s healthRun = some t ∧ t.contents .portfolioHealth =
      some (Mart.select sampleProject.hashes none (factRows t.warehouse.factLoanSnapshot) t.raw .portfolioHealth) := by
  have start : beginningOfTime ≤ sampleProject.historicalStartDate := by decide
  have unbuilt : Unbuilt emptyMarts := ⟨rfl,fun _ => rfl,fun _ => rfl⟩
  have mapped : SingleMapping emptyMarts.raw := by
    intro m member
    cases Relation.mem_rowSet.mp member
  obtain ⟨after₁,log₁,step₁⟩ : ∃ after log, MartRuns.next sampleProject emptyMarts (call 1 .mOffice
      [upserted 1 1 [("name",.text "Head office")]]) = some (committed emptyMarts 1 .mOffice after log) :=
    next_call (by decide) rfl
  let s₁ := committed emptyMarts 1 .mOffice after₁ log₁
  obtain ⟨after₂,log₂,step₂⟩ : ∃ after log, MartRuns.next sampleProject s₁ (call 2 .mProductLoan
      [upserted 1 1 [("name",.text "Personal loan")]]) = some (committed s₁ 2 .mProductLoan after log) :=
    next_call (show 1 ≤ 2 by decide) rfl
  let s₂ := committed s₁ 2 .mProductLoan after₂ log₂
  obtain ⟨after₃,log₃,step₃⟩ : ∃ after log, MartRuns.next sampleProject s₂ (call 3 .mClient
      [upserted 1 1 [("office_id",.int 1)]]) = some (committed s₂ 3 .mClient after log) :=
    next_call (show 1 ≤ 3 by decide) rfl
  let s₃ := committed s₂ 3 .mClient after₃ log₃
  obtain ⟨after₄,log₄,step₄⟩ : ∃ after log, MartRuns.next sampleProject s₃ (call 4 .mLoan
      [upserted 1 1 [("client_id",.int 1),("product_id",.int 1),("currency_code",.text "USD"),
        ("disbursedon_date",.date newYear)]]) = some (committed s₃ 4 .mLoan after log) :=
    next_call (show 1 ≤ 4 by decide) rfl
  let s₄ := committed s₃ 4 .mLoan after₄ log₄
  obtain ⟨s₅,step₅⟩ : ∃ s₅, MartRuns.next sampleProject s₄ (.dbtRun false newYear {.martDelinquencyPar,.martPortfolioHealth}) =
      some s₅ := next_dbtRun mapped (by intro _ found; cases found)
  obtain ⟨fact₅,ran₅⟩ := ran_of_next step₅
  obtain ⟨after₆,log₆,step₆⟩ : ∃ after log, MartRuns.next sampleProject s₅ (call 9 .mOffice [renamedOffice]) =
      some (committed s₅ 9 .mOffice after log) := next_call (ran₅.openFrom.trans_le (show 5 ≤ 9 by decide)) rfl
  let s₆ := committed s₅ 9 .mOffice after₆ log₆
  have only_offices (table : Table) (other : table ≠ .mOffice) : s₆.raw table = s₆.lastRead table := by
    calc s₆.raw table = s₅.raw table := by rw [committed_raw,Function.update_of_ne other]
      _ = s₅.lastRead table := by rw [ran₅.raw,ran₅.lastRead]
  have mapped₆ : SingleMapping s₆.raw := by
    rw [SingleMapping,mappings,only_offices _ (by decide)]
    exact ran₅.lastRead ▸ mapped
  have ran₆ : ∀ day ∈ s₆.warehouse.ranOn, day ≤ newYear := by
    intro day found
    exact (Option.some.inj ((Option.mem_def.mp found).symm.trans ran₅.ranOn)).le
  obtain ⟨t,taken⟩ : ∃ t, MartRuns.next sampleProject s₆ healthRun = some t := next_dbtRun mapped₆ ran₆
  have run : Run (TraceableStep sampleProject .portfolioHealth) emptyMarts (firstRun ++ [call 9 .mOffice [renamedOffice]]) s₆ := by
    refine (((((Run.start.extend (traceable_unbuilt rfl step₁)).extend (traceable_unbuilt rfl step₂)).extend
      (traceable_unbuilt rfl step₃)).extend (traceable_unbuilt rfl step₄)).extend (traceable_unbuilt rfl step₅)).extend ⟨step₆,?_⟩
    intro _ _ _
    constructor <;> intro other <;> cases other
  have traceable : Traceable sampleProject .portfolioHealth s₆ healthRun t := by
    intro table _
    refine ⟨?_,fun _ => ?_⟩
    · intro l _ _ _ _ _ changed
      have same : dimProduct s₆.raw = dimProduct s₆.lastRead := by rw [dimProduct,dimProduct,only_offices _ (by decide)]
      exact absurd (by rw [same]) changed
    · intro l _ _ _ _ _ _ flows left
      have same : SameSource flowTables s₆.lastRead s₆.raw l.sourceId := fun name member _ _ => by
        rw [only_offices name (by rintro rfl; exact absurd member (by decide))]
      exact absurd ((loanPartition_sameSource same).symm.trans flows.1) (left _)
  exact ⟨s₆,t,run,taken,(marts_incremental_eq_full .portfolioHealth start unbuilt run ⟨taken,traceable⟩).1 (by decide)⟩

/-- Build `mart_delinquency_par` alone. -/
def parRun : MartRuns.Act := .dbtRun false newYear {.martDelinquencyPar}

/-- The product names that `mart_delinquency_par` shows, and those of a full build. -/
def productNames (t : Marts) : Option (Multiset (Option String)) × Multiset (Option String) :=
  ((t.contents .delinquencyPar).map (fun rows => rows.map (fun r : ParRow => r.productName)),
    (martDelinquencyPar none (factRows t.warehouse.factLoanSnapshot) t.raw).map (·.productName))

/-- Nothing is logged for a renamed product: the mart keeps the old name. -/
theorem renamed_product_stale : ∃ s t, Run (fun s a t => MartRuns.next sampleProject s a = some t) emptyMarts
      (firstRun ++ [call 9 .mProductLoan [upserted 1 2 [("name",.text "Micro loan")]]]) s ∧
    MartRuns.next sampleProject s parRun = some t ∧ t.contents .delinquencyPar ≠
      some (Mart.select sampleProject.hashes none (factRows t.warehouse.factLoanSnapshot) t.raw .delinquencyPar) := by
  have stale : ((exec (MartRuns.next sampleProject) emptyMarts
      (firstRun ++ [call 9 .mProductLoan [upserted 1 2 [("name",.text "Micro loan")]]])).bind (fun s =>
        (MartRuns.next sampleProject s parRun).map productNames)) =
      some (some {some "Personal loan",some "Personal loan"},{some "Micro loan",some "Micro loan"}) := by decide +kernel
  obtain ⟨s,executed,last⟩ := Option.bind_eq_some_iff.mp stale
  obtain ⟨t,taken,shown⟩ := Option.map_eq_some_iff.mp last
  refine ⟨s,t,exec_run (fun _ _ _ taken => taken) executed,taken,?_⟩
  intro same
  have names : (productNames t).1 = some (productNames t).2 := by
    rw [productNames,same]
    rfl
  rw [shown] at names
  exact absurd names (by decide)

end FineractBi.MartIncremental
