import FineractBi.MartIncremental
import FineractBi.RepaymentTracking

/-!
`mart_repayment_behavior` built incrementally against a build that is not. The mart
reads transactions and installments, while its dirty partitions come from the fact
rows and the present partitions of the loans in scope; an entry that the mart counts
otherwise than at the last run is in a partition that the run marks, so that a group
is stale only where a dirty row after the mart's cursor reaches it.
-/
namespace FineractBi.RepaymentIncremental
open Calendar Refresh Runs FineractBi.Contract FineractBi.ApplyBatch FineractBi.Staging FineractBi.LoanSnapshot
open FineractBi.FactBuild FineractBi.ChangeTracking FineractBi.FactIncremental FineractBi.ParMart
open FineractBi.MartRuns FineractBi.MartTracking FineractBi.RepaymentRefresh FineractBi.RepaymentTracking
open FineractBi.RepaymentMart (MartRow MartKey Dated dimOffice dimProduct named namesOf)
open FineractBi.Routing (ControlState)
open FineractBi.MartIncremental (Ran PartitionReported committed committed_raw scopeOfRun)

/-- The warehouse with its three marts. -/
structure AllMarts extends Marts where
  repaymentBehavior : Option (Multiset MartRow)

/-- What a run that builds the mart reads: its cursor, the upper run id and the dirty rows. -/
def martRun (p : Project) (fullRefresh : Bool) (today : Date) (s : Marts) (after : Warehouse) : MartRun where
  lastRunId := (s.cursors .martRepaymentBehavior).getD 0
  upperRunId := martUpperRunId after
  dirty := s.dirty + s.recorded p fullRefresh today

/-- The mart after a step that leaves `after`. -/
def repaymentBehaviorAfter (p : Project) (s : AllMarts) (after : Marts) : MartRuns.Act → Option (Multiset MartRow)
  | .dbtRun fullRefresh today built => if .martRepaymentBehavior ∈ built
      then some (build p.hashes fullRefresh (martRun p fullRefresh today s.toMarts after.warehouse) s.raw s.repaymentBehavior)
      else s.repaymentBehavior
  | _ => s.repaymentBehavior

/-- The committed calls and the successful runs. -/
def next (p : Project) (s : AllMarts) (a : MartRuns.Act) : Option AllMarts :=
  (MartRuns.next p s.toMarts a).map (fun after => ⟨after,repaymentBehaviorAfter p s after a⟩)

/-- The loan has a fact row of the partition. -/
def HasFactRow (table : FactTable) (l : Key) (office product : Option Int) : Prop :=
  ∃ d row, table.get (l,d) = some row ∧ row.officeId = office ∧ row.productId = product

/-- A disbursed loan has a fact row of the partition, or is in it. -/
def DisbursedThere (s : Marts) (table : FactTable) (source : String) (office product : Option Int) : Prop :=
  ∃ l : Key, l.sourceId = source ∧ ((loans s.raw).get l).isSome ∧
    (HasFactRow table l office product ∨ ∃ currency, loanPartition s.raw l = some (office,product,currency))

/-- What an incremental run has to find. The office of a counted entry has changed only where a disbursed loan is, its
    product only in a reported partition; and a partition that a loan has left with entries of it has a fact row of the
    loan, or is reported. -/
structure FindsGroups (p : Project) (s : Marts) (table : FactTable) : Prop where
  offices : ∀ e d id, e.key.reportingDate = some d → beginningOfTime ≤ d → Counts p.hashes s.raw e →
    e.dimension.officeId = some id →
    (dimOffice s.lastRead).get (refer e.dimension.loan id) ≠ (dimOffice s.raw).get (refer e.dimension.loan id) →
    DisbursedThere s table e.dimension.loan.sourceId e.dimension.officeId e.dimension.productId
  products : ∀ e d id, e.key.reportingDate = some d → beginningOfTime ≤ d → Counts p.hashes s.raw e →
    e.dimension.productId = some id →
    (dimProduct s.lastRead).get (refer e.dimension.loan id) ≠ (dimProduct s.raw).get (refer e.dimension.loan id) →
    PartitionReported s table e.dimension.loan.sourceId e.dimension.officeId e.dimension.productId d
  leaves : ∀ e d, e.key.reportingDate = some d → beginningOfTime ≤ d → Counts p.hashes s.lastRead e →
    (∀ currency, loanPartition s.raw e.dimension.loan ≠ some (e.dimension.officeId,e.dimension.productId,currency)) →
    HasFactRow table e.dimension.loan e.dimension.officeId e.dimension.productId ∨
      PartitionReported s table e.dimension.loan.sourceId e.dimension.officeId e.dimension.productId d

/-- The condition on a step, once the mart is built. A batch keeps to what the log can follow of the entries that the
    mart would count otherwise and that are not logged; a promotion is one of a registered source that leaves the loans
    of those entries disbursed; an incremental run finds the groups, and builds the mart from entries that are not
    before 1900; and a full refresh builds the mart. -/
def Traceable (p : Project) (s : AllMarts) (a : MartRuns.Act) (t : AllMarts) : Prop :=
  ∀ rows table, s.repaymentBehavior = some rows → s.warehouse.factLoanSnapshot = some table →
    match a with
    | .applyStagedBatch _ name _ _ today _ _ => ∀ e d, e.key.reportingDate = some d → beginningOfTime ≤ d →
        Differs p.hashes s.lastRead t.raw e → ¬NamedBy (pending s.warehouse) e.dimension.loan d →
        KeepsEntry p.hashes today name s.raw t.raw e d
    | .promoteShadow _ _ source db => (db.source source).isSome ∧ ∀ e d, e.key.reportingDate = some d → beginningOfTime ≤ d →
        Differs p.hashes s.lastRead t.raw e → ¬NamedBy (pending s.warehouse) e.dimension.loan d →
        e.dimension.loan.sourceId = source →
        Differs p.hashes s.raw t.raw e ∨ (stgMLoan s.raw).get e.dimension.loan ≠ (stgMLoan t.raw).get e.dimension.loan →
        ((loans t.raw).get e.dimension.loan).isSome
    | .dbtRun false today built => FindsGroups p s.toMarts table ∧ (.martRepaymentBehavior ∈ built →
        ∀ e, Counts p.hashes s.raw e → inWindow (martRun p false today s.toMarts t.warehouse) e.key = true →
          Dated e.key.reportingDate)
    | .dbtRun true _ built => .martRepaymentBehavior ∈ built

/-- A step that meets the condition. -/
def TraceableStep (p : Project) (s : AllMarts) (a : MartRuns.Act) (t : AllMarts) : Prop :=
  next p s a = some t ∧ Traceable p s a t

/-- What the pending entries say about the names and the counted entries since the last run. -/
structure Tracked (h : Hashes) (s : Marts) : Prop where
  cursor : ∃ c, s.warehouse.changeCursor = some c ∧ c.lastTxid ≤ s.warehouse.openFrom
  offices : ∀ k, (dimOffice s.lastRead).get k ≠ (dimOffice s.raw).get k → WholeSource (pending s.warehouse) k.sourceId
  entries : ∀ e d, e.key.reportingDate = some d → beginningOfTime ≤ d → Differs h s.lastRead s.raw e →
    Reported s.raw (pending s.warehouse) e.dimension.loan d

/-- A dirty row after the mart's cursor reaches the group. -/
def Stale (s : Marts) (k : MartKey) : Prop :=
  inWindow ⟨(s.cursors .martRepaymentBehavior).getD 0,s.warehouse.dbtRunSeq,s.dirty⟩ k = true

/-- The invariant: a mart that was built differs only in stale groups from what the last run read, and what has changed
    since is tracked. -/
structure Kept (p : Project) (s : AllMarts) : Prop where
  cursor : (s.cursors .martRepaymentBehavior).getD 0 ≤ s.warehouse.dbtRunSeq
  fact : s.repaymentBehavior.isSome → s.warehouse.factLoanSnapshot.isSome
  tracked : s.repaymentBehavior.isSome → Tracked p.hashes s.toMarts
  accounted : ∀ rows, s.repaymentBehavior = some rows →
    Accounted MartRow.key (Stale s.toMarts) rows (martRepaymentBehavior p.hashes none s.lastRead)

section Commit
variable {p : Project} {h : Hashes} {s : Marts} {txid : Nat} {name : Table} {after : Stores} {log : List LogEntry} {table : FactTable}

theorem Tracked.commit (tracked : Tracked h s) (built : s.warehouse.factLoanSnapshot = some table)
    (fresh : s.warehouse.openFrom ≤ txid)
    (offices : ∀ k, (dimOffice s.raw).get k ≠ (dimOffice (Function.update s.raw name after.raw)).get k →
      WholeSource log k.sourceId)
    (entries : ∀ e d, e.key.reportingDate = some d → beginningOfTime ≤ d →
      Differs h s.lastRead (Function.update s.raw name after.raw) e → ¬NamedBy (pending s.warehouse) e.dimension.loan d →
      Reported (Function.update s.raw name after.raw) (pending s.warehouse ++ log) e.dimension.loan d) :
    Tracked h (committed s txid name after log) := by
  have earlier : pending s.warehouse ⊆ pending (s.warehouse.commit txid name after log) :=
    fun c member => mem_pending_commit built tracked.cursor fresh (.inl member)
  have new : log ⊆ pending (s.warehouse.commit txid name after log) :=
    fun c member => mem_pending_commit built tracked.cursor fresh (.inr member)
  refine ⟨tracked.cursor,?_,?_⟩
  · intro k differs
    rw [committed_raw] at differs
    by_cases same : (dimOffice s.lastRead).get k = (dimOffice s.raw).get k
    · exact (offices k (fun same' => differs (same.trans same'))).mono new
    · exact (tracked.offices k same).mono earlier
  · intro e d dated first differs
    rw [committed_raw] at differs ⊢
    by_cases named : NamedBy (pending s.warehouse) e.dimension.loan d
    · exact .inl (named.mono earlier)
    · exact reported_mono (List.append_subset.mpr ⟨earlier,new⟩) (entries e d dated first differs named)

/-- A batch that keeps to what the log can follow keeps the track. -/
theorem Tracked.batch {today : Date} (tracked : Tracked h s) (built : s.warehouse.factLoanSnapshot = some table)
    (fresh : s.warehouse.openFrom ≤ txid) (logs : Logs (contract name) today (s.raw name) after.raw log)
    (keeps : ∀ e d, e.key.reportingDate = some d → beginningOfTime ≤ d →
      Differs h s.lastRead (Function.update s.raw name after.raw) e → ¬NamedBy (pending s.warehouse) e.dimension.loan d →
      KeepsEntry h today name s.raw (Function.update s.raw name after.raw) e d) :
    Tracked h (committed s txid name after log) := by
  refine tracked.commit built fresh (fun k differs => batch_offices name logs differs) ?_
  intro e d dated first differs unnamed
  have kept := keeps e d dated first differs unnamed
  rcases differs.before with old | changed
  · exact batch_stays name logs kept first (tracked.entries e d dated first old)
  · exact reported_mono (List.subset_append_right _ _) (batch_entry name logs kept dated first changed)

/-- A promotion of a registered source keeps the track when it leaves the loans disbursed. -/
theorem Tracked.promotion {source : String} (tracked : Tracked h s) (built : s.warehouse.factLoanSnapshot = some table)
    (fresh : s.warehouse.openFrom ≤ txid) (others : ∀ k : Key, k.sourceId ≠ source → after.raw.get k = (s.raw name).get k)
    (whole : WholeSource log source)
    (loaned : ∀ e d, e.key.reportingDate = some d → beginningOfTime ≤ d →
      Differs h s.lastRead (Function.update s.raw name after.raw) e → ¬NamedBy (pending s.warehouse) e.dimension.loan d →
      e.dimension.loan.sourceId = source → Differs h s.raw (Function.update s.raw name after.raw) e ∨
        (stgMLoan s.raw).get e.dimension.loan ≠ (stgMLoan (Function.update s.raw name after.raw)).get e.dimension.loan →
      ((loans (Function.update s.raw name after.raw)).get e.dimension.loan).isSome) :
    Tracked h (committed s txid name after log) := by
  refine tracked.commit built fresh (fun k differs => ?_) ?_
  · by_cases own : k.sourceId = source
    · rwa [own]
    · have same : SameSource [.mOffice] s.raw (Function.update s.raw name after.raw) k.sourceId := replaced_other others own
      exact absurd (same.staged (by decide) rfl) differs
  · intro e d dated first differs unnamed
    refine promotion_entry others whole (loaned e d dated first differs unnamed) (fun unchanged => ?_)
    exact tracked.entries e d dated first (differs.before.resolve_right unchanged)

end Commit

section Records
variable {p : Project} {s : Marts} {today d : Date} {table : FactTable} {k : MartKey} {l : Key} {office product : Option Int}

/-- A dirty row of the run reaches the group. -/
def Marked (p : Project) (s : Marts) (today : Date) (k : MartKey) : Prop :=
  ∃ d ∈ s.recorded p false today, d.runId = s.warehouse.dbtRunSeq + 1 ∧ reaches d k = true

/-- The run marks the partition from the date on, or earlier. -/
def PartitionMarked (p : Project) (s : Marts) (today : Date) (source : String) (office product : Option Int) (d : Date) : Prop :=
  ∃ sc x, MarkedBy (s.warehouse.dbtRunSeq + 1) (s.recorded p false today) (source,office,product) sc ∧
    sc.changedFrom = some x ∧ x ≤ d

theorem PartitionMarked.group (marked : PartitionMarked p s today k.sourceId k.officeId k.productId d)
    (dated : k.reportingDate = some d) : Marked p s today k := by
  obtain ⟨sc,x,⟨row,inside,own,keyed,_,changed⟩,at_x,le⟩ := marked
  obtain ⟨y,at_y,le'⟩ := changed x at_x
  obtain ⟨source,office,product⟩ : row.sourceId = k.sourceId ∧ row.officeId = k.officeId ∧ row.productId = k.productId := by
    simpa [MartRefresh.partitionOf] using keyed
  refine ⟨row,inside,own,?_⟩
  simp [reaches,source,office,product,dated,at_y,le'.trans le]

/-- A fact row of a reported loan marks its partition. -/
theorem fact_marks (today : Date) (built : s.warehouse.factLoanSnapshot = some table) (first : beginningOfTime ≤ d)
    (reported : Reported s.raw (pending s.warehouse) l d) (found : HasFactRow table l office product) :
    PartitionMarked p s today l.sourceId office product d := by
  obtain ⟨e,row,at_row,rfl,rfl⟩ := found
  obtain ⟨sc,x,in_scope,at_x,le⟩ : ∃ sc x, (scopeOfRun p s today).get l = some sc ∧ sc.changedFrom = some x ∧ x ≤ d :=
    changedFrom_le first reported
  exact ⟨sc,x,MartIncremental.scoped_before p today built at_row in_scope,at_x,le⟩

/-- A reported loan marks the partition it is in. -/
theorem loan_marks (today : Date) {currency : Option String} (first : beginningOfTime ≤ d)
    (reported : Reported s.raw (pending s.warehouse) l d) (there : loanPartition s.raw l = some (office,product,currency)) :
    PartitionMarked p s today l.sourceId office product d := by
  obtain ⟨sc,x,in_scope,at_x,le⟩ : ∃ sc x, (scopeOfRun p s today).get l = some sc ∧ sc.changedFrom = some x ∧ x ≤ d :=
    changedFrom_le first reported
  exact ⟨sc,x,MartIncremental.scoped_after p today currency there in_scope,at_x,le⟩

private theorem partition_marks (today : Date) {source : String} (built : s.warehouse.factLoanSnapshot = some table)
    (first : beginningOfTime ≤ d) (reported : PartitionReported s table source office product d) :
    PartitionMarked p s today source office product d := by
  obtain ⟨l,rfl,reported,found | ⟨currency,there⟩⟩ := reported
  · exact fact_marks today built first reported found
  · exact loan_marks today first reported there

variable (built : s.warehouse.factLoanSnapshot = some table) (tracked : Tracked p.hashes s) (finds : FindsGroups p s table)
  (unmarked : ¬Marked p s today k) (dated : k.reportingDate = some d) (first : beginningOfTime ≤ d)
include built tracked finds unmarked dated first

/-- The mart counts the same entries in a group that is not marked. -/
theorem entries_unmarked {e : Entry} (own : e.key = k) : Counts p.hashes s.lastRead e ↔ Counts p.hashes s.raw e := by
  by_contra differs
  subst own
  obtain ⟨office,product⟩ := e.key_partition
  have reported := tracked.entries e d dated first differs
  have source : e.key.sourceId = e.dimension.loan.sourceId := by
    by_cases counts : Counts p.hashes s.raw e
    · exact counts.1.key_source
    · have counts' : Counts p.hashes s.lastRead e := by
        by_contra neither
        exact differs (iff_of_false neither counts)
      exact counts'.1.key_source
  have unmarked' : ¬PartitionMarked p s today e.dimension.loan.sourceId e.dimension.officeId e.dimension.productId d := by
    rw [← source,← office,← product]
    exact fun marked => unmarked (marked.group dated)
  have elsewhere (currency : Option String) :
      loanPartition s.raw e.dimension.loan ≠ some (e.dimension.officeId,e.dimension.productId,currency) :=
    fun there => unmarked' (loan_marks today first reported there)
  by_cases counts : Counts p.hashes s.lastRead e
  · rcases finds.leaves e d dated first counts elsewhere with found | left
    · exact unmarked' (fact_marks today built first reported found)
    · exact unmarked' (partition_marks today built first left)
  · exact differs (iff_of_false counts (fun counts' => elsewhere _ (counts_partition counts')))

/-- The names of a counted group that is not marked stay. -/
theorem names_unmarked {e : Entry} (own : e.key = k) (counts : Counts p.hashes s.raw e) :
    namesOf s.lastRead k = namesOf s.raw k := by
  subst own
  obtain ⟨office,product⟩ := e.key_partition
  have source := counts.1.key_source
  have tenant := counts.1.key_tenant
  have unmarked' : ¬PartitionMarked p s today e.dimension.loan.sourceId e.dimension.officeId e.dimension.productId d := by
    rw [← source,← office,← product]
    exact fun marked => unmarked (marked.group dated)
  have offices (id : Int) (of_office : e.key.officeId = some id) :
      (dimOffice s.lastRead).get ⟨e.key.sourceId,e.key.tenantId,id⟩ = (dimOffice s.raw).get ⟨e.key.sourceId,e.key.tenantId,id⟩ := by
    rw [source,tenant]
    by_contra differs
    obtain ⟨l,own,loaned,there⟩ := finds.offices e d id dated first counts (office.symm.trans of_office) differs
    have whole : WholeSource (pending s.warehouse) e.dimension.loan.sourceId :=
      tracked.offices (refer e.dimension.loan id) differs
    rw [← own] at whole
    exact unmarked' (partition_marks today built first ⟨l,own,whole.reports loaned,there⟩)
  have products (id : Int) (of_product : e.key.productId = some id) :
      (dimProduct s.lastRead).get ⟨e.key.sourceId,e.key.tenantId,id⟩ = (dimProduct s.raw).get ⟨e.key.sourceId,e.key.tenantId,id⟩ := by
    rw [source,tenant]
    by_contra differs
    exact unmarked' (partition_marks today built first
      (finds.products e d id dated first counts (product.symm.trans of_product) differs))
  have office_name : named (dimOffice s.lastRead) e.key e.key.officeId = named (dimOffice s.raw) e.key e.key.officeId := by
    unfold named
    cases of_office : e.key.officeId with
    | none => rfl
    | some id => exact congrArg (Option.map _) (offices id of_office)
  have product_name : named (dimProduct s.lastRead) e.key e.key.productId = named (dimProduct s.raw) e.key e.key.productId := by
    unfold named
    cases of_product : e.key.productId with
    | none => rfl
    | some id => exact congrArg (Option.map _) (products id of_product)
  rw [namesOf,namesOf,office_name,product_name]

end Records

/-- A group that is not marked has the same rows in the mart. -/
theorem group_unmarked {p : Project} {s : Marts} {today : Date} {table : FactTable} {k : MartKey}
    (built : s.warehouse.factLoanSnapshot = some table) (tracked : Tracked p.hashes s) (finds : FindsGroups p s table)
    (unmarked : ¬Marked p s today k) : atKey MartRow.key k (martRepaymentBehavior p.hashes none s.lastRead) =
      atKey MartRow.key k (martRepaymentBehavior p.hashes none s.raw) := by
  rw [mart_at,mart_at]
  split
  · next shown =>
    obtain ⟨d,dated,first⟩ := shown
    exact groupOf_congr (fun e own => entries_unmarked built tracked finds unmarked dated first own)
      (fun e own counts => names_unmarked built tracked finds unmarked dated first own counts)
  · rfl

section Runs
variable {p : Project} {s t : AllMarts} {fullRefresh : Bool} {today : Date} {built : Finset Consumer} {fact table : FactTable}
  {k : MartKey}

private theorem martUpperRunId_of_next {s t : Marts} (taken : MartRuns.next p s (.dbtRun fullRefresh today built) = some t) :
    martUpperRunId t.warehouse = s.warehouse.dbtRunSeq + 1 := by
  simp only [MartRuns.next] at taken
  split at taken
  · obtain ⟨after,ran,rfl⟩ := Option.map_eq_some_iff.mp taken
    obtain ⟨_,_,rfl⟩ := Option.map_eq_some_iff.mp ran
    rfl
  · cases taken

/-- What a run leaves of the mart. -/
structure Built (p : Project) (fullRefresh : Bool) (today : Date) (built : Finset Consumer) (s t : AllMarts) : Prop where
  ran : ∃ fact, Ran p fullRefresh today built s.toMarts t.toMarts fact
  upto : (martRun p fullRefresh today s.toMarts t.warehouse).upperRunId = s.warehouse.dbtRunSeq + 1
  rows : t.repaymentBehavior = if .martRepaymentBehavior ∈ built
    then some (build p.hashes fullRefresh (martRun p fullRefresh today s.toMarts t.warehouse) s.raw s.repaymentBehavior)
    else s.repaymentBehavior

theorem built_of_next (taken : next p s (.dbtRun fullRefresh today built) = some t) : Built p fullRefresh today built s t := by
  obtain ⟨after,ran,rfl⟩ := Option.map_eq_some_iff.mp taken
  exact ⟨MartIncremental.ran_of_next ran,martUpperRunId_of_next ran,rfl⟩

/-- A dirty row that reaches a group is read by a run that builds the mart, and stays unread in one that does not. -/
theorem Built.reads (after : Built p false today built s t) {d : DirtyRow} (dirty : d ∈ s.dirty + s.recorded p false today)
    (unread : (s.cursors .martRepaymentBehavior).getD 0 < d.runId) (upto : d.runId ≤ s.warehouse.dbtRunSeq + 1)
    (reach : reaches d k = true) : inWindow (martRun p false today s.toMarts t.warehouse) k = true ∧
    (.martRepaymentBehavior ∉ built → Stale t.toMarts k) := by
  refine ⟨decide_eq_true ⟨d,dirty,unread,by rwa [after.upto],reach⟩,fun skipped => ?_⟩
  obtain ⟨fact,ran⟩ := after.ran
  obtain ⟨kept,unread'⟩ := ran.keeps skipped dirty unread
  exact decide_eq_true ⟨d,kept,unread',by rw [ran.runId]; exact upto,reach⟩

/-- The groups that the run marks are read or stay stale. -/
theorem Built.marked (after : Built p false today built s t)
    (cursor : (s.cursors .martRepaymentBehavior).getD 0 ≤ s.warehouse.dbtRunSeq) (marked : Marked p s.toMarts today k) :
    inWindow (martRun p false today s.toMarts t.warehouse) k = true ∧ (.martRepaymentBehavior ∉ built → Stale t.toMarts k) := by
  obtain ⟨d,recorded,own,reach⟩ := marked
  exact after.reads (Multiset.mem_add.mpr (.inr recorded)) (own ▸ Nat.lt_succ_of_le cursor) own.le reach

/-- The stale groups are read or stay stale. -/
theorem Built.stale (after : Built p false today built s t) (stale : Stale s.toMarts k) :
    inWindow (martRun p false today s.toMarts t.warehouse) k = true ∧ (.martRepaymentBehavior ∉ built → Stale t.toMarts k) := by
  obtain ⟨d,dirty,unread,upto,reach⟩ := of_decide_eq_true stale
  exact after.reads (Multiset.mem_add.mpr (.inl dirty)) unread (upto.trans (Nat.le_succ _)) reach

/-- After a run nothing is pending. -/
theorem Built.tracked (after : Built p fullRefresh today built s t) : Tracked p.hashes t.toMarts := by
  obtain ⟨fact,ran⟩ := after.ran
  refine ⟨ran.changeCursor,?_,?_⟩
  · intro k differs
    rw [ran.raw,ran.lastRead] at differs
    exact absurd rfl differs
  · intro e d _ _ differs
    rw [ran.raw,ran.lastRead] at differs
    exact absurd Iff.rfl differs

/-- A run that builds the mart leaves what a build that is not incremental makes. -/
theorem Built.in_full (after : Built p fullRefresh today built s t) (kept : Kept p s)
    (traceable : Traceable p s (.dbtRun fullRefresh today built) t) (member : .martRepaymentBehavior ∈ built) :
    t.repaymentBehavior = some (martRepaymentBehavior p.hashes none s.raw) := by
  rw [after.rows,if_pos member]
  cases fullRefresh with
  | true => rfl
  | false =>
    cases found : s.repaymentBehavior with
    | none => rfl
    | some rows =>
      obtain ⟨table,at_fact⟩ := Option.isSome_iff_exists.mp (kept.fact (by simp [found]))
      have tracked := kept.tracked (by simp [found])
      obtain ⟨finds,begun⟩ := traceable rows table found at_fact
      rw [build_eq_refresh]
      refine congrArg some ((kept.accounted rows found).refreshed (fun k stale => (after.stale stale).1) ?_
        (select_window (begun member)))
      intro k outside
      have unmarked : ¬Marked p s.toMarts today k := by
        intro marked
        rw [(after.marked kept.cursor marked).1] at outside
        cases outside
      exact group_unmarked at_fact tracked finds unmarked

/-- A run that does not build the mart leaves it stale in the groups that it marks. -/
theorem Built.skipped (after : Built p fullRefresh today built s t) (kept : Kept p s)
    (traceable : Traceable p s (.dbtRun fullRefresh today built) t) (member : .martRepaymentBehavior ∉ built)
    {rows : Multiset MartRow} (found : s.repaymentBehavior = some rows) :
    Accounted MartRow.key (Stale t.toMarts) rows (martRepaymentBehavior p.hashes none s.raw) := by
  obtain ⟨table,at_fact⟩ := Option.isSome_iff_exists.mp (kept.fact (by simp [found]))
  cases fullRefresh with
  | true => exact absurd (traceable rows table found at_fact) member
  | false =>
    have tracked := kept.tracked (by simp [found])
    obtain ⟨finds,_⟩ := traceable rows table found at_fact
    exact (kept.accounted rows found).skipped (fun k stale => (after.stale stale).2 member)
      (fun k fresh => group_unmarked at_fact tracked finds (fun marked => fresh ((after.marked kept.cursor marked).2 member)))

/-- Every run that meets the condition keeps the mart. -/
theorem Built.kept (after : Built p fullRefresh today built s t) (kept : Kept p s)
    (traceable : Traceable p s (.dbtRun fullRefresh today built) t) : Kept p t := by
  obtain ⟨fact,ran⟩ := after.ran
  refine ⟨?_,fun _ => by simp [ran.stored],fun _ => after.tracked,fun rows found => ?_⟩
  · rw [ran.cursors,ran.runId]
    split
    · exact le_rfl
    · exact kept.cursor.trans (Nat.le_succ _)
  · rw [ran.lastRead]
    by_cases member : .martRepaymentBehavior ∈ built
    · rw [after.in_full kept traceable member] at found
      obtain rfl := Option.some.inj found
      exact fun _ _ => rfl
    · rw [after.rows,if_neg member] at found
      exact after.skipped kept traceable member found

end Runs

/-- The mart has not been built. -/
structure Unbuilt (s : AllMarts) : Prop where
  cursor : s.cursors .martRepaymentBehavior = none
  rows : s.repaymentBehavior = none

section Steps
variable {p : Project} {s t : AllMarts} {fullRefresh : Bool} {today : Date} {built : Finset Consumer}

theorem Unbuilt.kept (unbuilt : Unbuilt s) : Kept p s := by
  obtain ⟨cursor,rows⟩ := unbuilt
  exact ⟨by simp [cursor],by simp [rows],by simp [rows],by simp [rows]⟩

/-- A committed call keeps the mart when it keeps the track. -/
theorem Kept.commit {txid : Nat} {name : Table} {after : Stores} {log : List LogEntry} (kept : Kept p s)
    (tracked : ∀ rows table, s.repaymentBehavior = some rows → s.warehouse.factLoanSnapshot = some table →
      Tracked p.hashes s.toMarts → Tracked p.hashes (committed s.toMarts txid name after log)) :
    Kept p ⟨committed s.toMarts txid name after log,s.repaymentBehavior⟩ := by
  refine ⟨kept.cursor,kept.fact,fun built => ?_,kept.accounted⟩
  obtain ⟨rows,found⟩ := Option.isSome_iff_exists.mp built
  obtain ⟨table,at_fact⟩ := Option.isSome_iff_exists.mp (kept.fact built)
  exact tracked rows table found at_fact (kept.tracked built)

/-- Every step that meets the condition keeps the mart. -/
theorem Kept.step {a : MartRuns.Act} (kept : Kept p s) (step : TraceableStep p s a t) : Kept p t := by
  obtain ⟨taken,traceable⟩ := step
  cases a with
  | applyStagedBatch txid name engine now today db stage =>
    obtain ⟨marts,stepped,rfl⟩ := Option.map_eq_some_iff.mp taken
    simp only [MartRuns.next] at stepped
    obtain ⟨after,called,rfl⟩ := Option.map_eq_some_iff.mp stepped
    simp only [FactBuild.next] at called
    split at called
    · next fresh =>
      cases applied : ApplyBatch.applyStagedBatch (contract name) engine now today db stage (s.warehouse.stores name) with
      | error e => simp [applied] at called
      | ok result =>
        obtain ⟨stores,log,results⟩ := result
        obtain ⟨_,_,stored,logged,_⟩ := applyStagedBatch_ok.mp applied
        simp only [applied,Option.some.injEq] at called
        subst called
        have logs : Logs (contract name) today (s.raw name) stores.raw log := by
          rw [stored,logged]
          exact batchLog_logs
        refine kept.commit (fun rows table found at_fact tracked => tracked.batch at_fact fresh logs ?_)
        intro e d dated first differs unnamed
        have raw_eq : (committed s.toMarts txid name stores log).raw = Function.update s.raw name stores.raw := committed_raw
        have keeps := traceable rows table found at_fact e d dated first (raw_eq.symm ▸ differs) unnamed
        exact raw_eq ▸ keeps
    · cases called
  | promoteShadow txid name source db =>
    obtain ⟨marts,stepped,rfl⟩ := Option.map_eq_some_iff.mp taken
    simp only [MartRuns.next] at stepped
    obtain ⟨after,called,rfl⟩ := Option.map_eq_some_iff.mp stepped
    simp only [FactBuild.next] at called
    split at called
    · next fresh =>
      cases promoted : ApplyBatch.promoteShadow db source (s.warehouse.stores name) with
      | mk stores log =>
        simp only [promoted,Option.some.injEq] at called
        subst called
        refine kept.commit (fun rows table found at_fact tracked => ?_)
        obtain ⟨registered,loaned⟩ := traceable rows table found at_fact
        have raw_eq : (committed s.toMarts txid name stores log).raw = Function.update s.raw name stores.raw := committed_raw
        have whole : WholeSource (ApplyBatch.promoteShadow db source (s.warehouse.stores name)).2 source :=
          MartIncremental.promotion_whole registered
        rw [promoted] at whole
        refine tracked.promotion at_fact fresh ?_ whole ?_
        · intro k other
          have others := MartIncremental.promotion_others db (s.warehouse.stores name) other
          rwa [promoted] at others
        · intro e d dated first differs unnamed own touched
          have kept_loan := loaned e d dated first (raw_eq.symm ▸ differs) unnamed own (raw_eq.symm ▸ touched)
          exact raw_eq ▸ kept_loan
    · cases called
  | dbtRun fullRefresh today built => exact (built_of_next taken).kept kept traceable

/-- In every run of calls and dbt runs that meet the condition, a dbt run that builds the mart leaves what a build that is
    not incremental makes of the same staging tables and dimensions. -/
theorem repayment_incremental_eq_full {s₀ : AllMarts} {trace : List MartRuns.Act} (unbuilt : Unbuilt s₀)
    (run : Run (TraceableStep p) s₀ trace s) (step : TraceableStep p s (.dbtRun fullRefresh today built) t)
    (member : .martRepaymentBehavior ∈ built) :
    t.repaymentBehavior = some (RepaymentMart.martRepaymentBehavior p.hashes t.raw) := by
  have kept : Kept p s := run.stateInvariant unbuilt.kept (fun _ _ _ kept step => kept.step step)
  have after := built_of_next step.1
  obtain ⟨fact,ran⟩ := after.ran
  rw [after.in_full kept step.2 member,full_eq,ran.raw]

end Steps

/-- KAFKA owns the tables that the mart reads. -/
def tablesOwned : ControlState where
  registry := [⟨"branch-001","default",1⟩]
  ownership := ["m_office","m_product_loan","m_client","m_loan","m_loan_repayment_schedule","m_loan_transaction"].map (fun table =>
    { sourceId := "branch-001", tableName := table, engine := .KAFKA, shadowEngine := none, cutoverState := .STEADY,
      epoch := 2 })
  registryKey := Convergence.kafkaOwned.registryKey
  ownershipKey := by decide
  registryText := Convergence.kafkaOwned.registryText
  ownershipText := by decide

def call (txid : Nat) (table : Table) (stage : List StagedRow) : MartRuns.Act :=
  .applyStagedBatch txid table .KAFKA 0 newYear tablesOwned stage

def emptyMarts : AllMarts := ⟨MartIncremental.emptyMarts,none⟩

/-- An installment that was due a month ago. -/
def installment (lsn : Int) (paidLate : Rat) : StagedRow := upserted 1 lsn
  [("loan_id",.int 1),("duedate",.date (newYear - 31)),("principal_amount",.numeric 100),
    ("total_paid_late_derived",.numeric paidLate)]

def repaid : StagedRow := upserted 1 1 [("loan_id",.int 1),("transaction_type_enum",.int 2),("transaction_date",.date newYear),
  ("amount",.numeric 40),("is_reversed",.boolean false)]

def behaviorRun : MartRuns.Act := .dbtRun false newYear {.martRepaymentBehavior}

/-- A loan with an installment, and the mart built. -/
def firstRun : List MartRuns.Act := [
  call 1 .mOffice [upserted 1 1 [("name",.text "Head office")]],
  call 2 .mProductLoan [upserted 1 1 [("name",.text "Personal loan")]],
  call 3 .mClient [upserted 1 1 [("office_id",.int 1)]],
  call 4 .mLoan [upserted 1 1 [("client_id",.int 1),("product_id",.int 1),("currency_code",.text "USD"),
    ("disbursedon_date",.date (newYear - 62))]],
  call 5 .mLoanRepaymentSchedule [installment 1 0],
  behaviorRun]

theorem next_call {p : Project} {s : AllMarts} {txid : Nat} {table : Table} {db : Routing.ControlState}
    {stage : List StagedRow} (fresh : s.warehouse.openFrom ≤ txid)
    (owned : Routing.fencingCheck db (contract table).tableName .KAFKA
      (stage.map (fun row => ⟨row.key.sourceId,row.target,row.ownerEpoch⟩)).dedup = .ok ()) :
    ∃ after log, next p s (.applyStagedBatch txid table .KAFKA 0 newYear db stage) =
      some ⟨committed s.toMarts txid table after log,s.repaymentBehavior⟩ := by
  obtain ⟨after,log,taken⟩ := MartIncremental.next_call (p := p) fresh owned
  exact ⟨after,log,Option.map_eq_some_iff.mpr ⟨_,taken,rfl⟩⟩

private theorem next_behaviorRun {p : Project} {s : AllMarts} (mapped : SingleMapping s.raw)
    (ran : ∀ day ∈ s.warehouse.ranOn, day ≤ newYear) : ∃ t, next p s behaviorRun = some t := by
  obtain ⟨after,taken⟩ : ∃ after, MartRuns.next p s.toMarts behaviorRun = some after := MartIncremental.next_dbtRun mapped ran
  exact ⟨_,Option.map_eq_some_iff.mpr ⟨after,taken,rfl⟩⟩

/-- The steps before the first build of the mart need no condition. -/
theorem traceable_unbuilt {p : Project} {s t : AllMarts} {a : MartRuns.Act} (unbuilt : s.repaymentBehavior = none)
    (taken : next p s a = some t) : TraceableStep p s a t := by
  refine ⟨taken,fun rows _ found => ?_⟩
  rw [unbuilt] at found
  cases found

/-- The entries that the mart reads are not before 1900. -/
def EntriesDated (raw : RawTables) : Prop :=
  (∀ t ∈ (RepaymentMart.stagedTransactions raw).rows, Dated t.2.transactionDate) ∧
    ∀ i ∈ (RepaymentMart.stagedInstallments raw).rows, Dated i.2.duedate

instance (raw : RawTables) : Decidable (EntriesDated raw) := inferInstanceAs (Decidable (_ ∧ _))

theorem EntriesDated.counted {h : Hashes} {raw : RawTables} {e : Entry} (dated : EntriesDated raw) (counts : Counts h raw e) :
    Dated e.key.reportingDate := by
  cases e with
  | posted r => exact dated.1 r.1 (Relation.mem_rows.mpr counts.1.1)
  | due r => exact dated.2 r.1 (Relation.mem_rows.mpr counts.1.1)

/-- A repayment after the first build is in the mart when it is built again. -/
theorem repayment_shown : ∃ s t, Run (TraceableStep sampleProject) emptyMarts
      (firstRun ++ [call 9 .mLoanTransaction [repaid]]) s ∧ next sampleProject s behaviorRun = some t ∧
    t.repaymentBehavior = some (RepaymentMart.martRepaymentBehavior sampleProject.hashes t.raw) := by
  have unbuilt : Unbuilt emptyMarts := ⟨rfl,rfl⟩
  have mapped : SingleMapping emptyMarts.raw := by
    intro m member
    cases Relation.mem_rowSet.mp member
  obtain ⟨after₁,log₁,step₁⟩ : ∃ after log, next sampleProject emptyMarts
      (call 1 .mOffice [upserted 1 1 [("name",.text "Head office")]]) =
        some ⟨committed emptyMarts.toMarts 1 .mOffice after log,none⟩ := next_call (by decide) rfl
  let s₁ : AllMarts := ⟨committed emptyMarts.toMarts 1 .mOffice after₁ log₁,none⟩
  obtain ⟨after₂,log₂,step₂⟩ : ∃ after log, next sampleProject s₁
      (call 2 .mProductLoan [upserted 1 1 [("name",.text "Personal loan")]]) =
        some ⟨committed s₁.toMarts 2 .mProductLoan after log,none⟩ := next_call (show 1 ≤ 2 by decide) rfl
  let s₂ : AllMarts := ⟨committed s₁.toMarts 2 .mProductLoan after₂ log₂,none⟩
  obtain ⟨after₃,log₃,step₃⟩ : ∃ after log, next sampleProject s₂ (call 3 .mClient [upserted 1 1 [("office_id",.int 1)]]) =
        some ⟨committed s₂.toMarts 3 .mClient after log,none⟩ := next_call (show 1 ≤ 3 by decide) rfl
  let s₃ : AllMarts := ⟨committed s₂.toMarts 3 .mClient after₃ log₃,none⟩
  obtain ⟨after₄,log₄,step₄⟩ : ∃ after log, next sampleProject s₃
      (call 4 .mLoan [upserted 1 1 [("client_id",.int 1),("product_id",.int 1),("currency_code",.text "USD"),
        ("disbursedon_date",.date (newYear - 62))]]) = some ⟨committed s₃.toMarts 4 .mLoan after log,none⟩ :=
    next_call (show 1 ≤ 4 by decide) rfl
  let s₄ : AllMarts := ⟨committed s₃.toMarts 4 .mLoan after₄ log₄,none⟩
  obtain ⟨after₅,log₅,step₅⟩ : ∃ after log, next sampleProject s₄ (call 5 .mLoanRepaymentSchedule [installment 1 0]) =
      some ⟨committed s₄.toMarts 5 .mLoanRepaymentSchedule after log,none⟩ := next_call (show 1 ≤ 5 by decide) rfl
  let s₅ : AllMarts := ⟨committed s₄.toMarts 5 .mLoanRepaymentSchedule after₅ log₅,none⟩
  obtain ⟨s₆,step₆⟩ : ∃ s₆, next sampleProject s₅ behaviorRun = some s₆ := next_behaviorRun mapped nofun
  obtain ⟨fact₆,ran₆⟩ := (built_of_next step₆).ran
  obtain ⟨after₇,log₇,step₇⟩ : ∃ after log, next sampleProject s₆ (call 9 .mLoanTransaction [repaid]) =
      some ⟨committed s₆.toMarts 9 .mLoanTransaction after log,s₆.repaymentBehavior⟩ :=
    next_call (ran₆.openFrom.trans_le (show 6 ≤ 9 by decide)) rfl
  let s₇ : AllMarts := ⟨committed s₆.toMarts 9 .mLoanTransaction after₇ log₇,s₆.repaymentBehavior⟩
  have only_transactions (table : Table) (other : table ≠ .mLoanTransaction) : s₇.raw table = s₇.lastRead table := by
    calc s₇.raw table = s₆.raw table := by rw [committed_raw,Function.update_of_ne other]
      _ = s₆.lastRead table := by rw [ran₆.raw,ran₆.lastRead]
  have no_transactions : s₆.raw .mLoanTransaction = .empty := by
    rw [ran₆.raw]
    rfl
  have traceable₇ : Traceable sampleProject s₆ (call 9 .mLoanTransaction [repaid]) s₇ := by
    rintro _ _ _ _ e d _ _ _ _ counts r _ rfl _
    have found := counts.1.1
    rw [RepaymentMart.stagedTransactions,no_transactions] at found
    cases found
  have run : Run (TraceableStep sampleProject) emptyMarts (firstRun ++ [call 9 .mLoanTransaction [repaid]]) s₇ :=
    ((((((Run.start.extend (traceable_unbuilt rfl step₁)).extend (traceable_unbuilt rfl step₂)).extend
      (traceable_unbuilt rfl step₃)).extend (traceable_unbuilt rfl step₄)).extend (traceable_unbuilt rfl step₅)).extend
      (traceable_unbuilt rfl step₆)).extend ⟨step₇,traceable₇⟩
  have mapped₇ : SingleMapping s₇.raw := by
    rw [SingleMapping,mappings,only_transactions _ (by decide)]
    exact ran₆.lastRead ▸ mapped
  have ran₇ : ∀ day ∈ s₇.warehouse.ranOn, day ≤ newYear := by
    intro day found
    exact (Option.some.inj ((Option.mem_def.mp found).symm.trans ran₆.ranOn)).le
  have dated : EntriesDated s₇.raw := by
    have computed : (exec (next sampleProject) emptyMarts (firstRun ++ [call 9 .mLoanTransaction [repaid]])).map
        (fun s => decide (EntriesDated s.raw)) = some true := by decide +kernel
    rw [(run.imp (fun _ _ _ step => step.1)).executed,Option.map_some,Option.some.injEq] at computed
    exact of_decide_eq_true computed
  obtain ⟨t,taken⟩ : ∃ t, next sampleProject s₇ behaviorRun = some t := next_behaviorRun mapped₇ ran₇
  have traceable : Traceable sampleProject s₇ behaviorRun t := by
    intro _ table _ _
    refine ⟨⟨?_,?_,?_⟩,fun _ e counts _ => dated.counted counts⟩
    · intro e d id _ _ _ _ changed
      exact absurd (by rw [dimOffice,dimOffice,only_transactions _ (by decide)]) changed
    · intro e d id _ _ _ _ changed
      exact absurd (by rw [dimProduct,dimProduct,only_transactions _ (by decide)]) changed
    · intro e d _ _ counts left
      have same : loanPartition s₇.raw e.dimension.loan = loanPartition s₇.lastRead e.dimension.loan := by
        simp only [loanPartition,stgMLoan,stgMClient,only_transactions .mLoan (by decide),only_transactions .mClient (by decide)]
      exact absurd (same.trans (counts_partition counts)) (left _)
  exact ⟨s₇,t,run,taken,repayment_incremental_eq_full unbuilt run ⟨taken,traceable⟩ (by decide)⟩

/-- The late payments that the mart shows, and those of a full build. -/
def paidLate (t : AllMarts) : Option (Multiset Rat) × Multiset Rat :=
  (t.repaymentBehavior.map (fun rows => rows.map (fun r => r.due.paidLateAmount)),
    (RepaymentMart.martRepaymentBehavior sampleProject.hashes t.raw).map (fun r => r.due.paidLateAmount))

/-- The loan is logged from the day of the batch on alone: the mart keeps the amount of the month before. -/
theorem late_payment_stale : ∃ s t, Run (fun s a t => next sampleProject s a = some t) emptyMarts
      (firstRun ++ [call 9 .mLoanRepaymentSchedule [installment 2 30]]) s ∧ next sampleProject s behaviorRun = some t ∧
    t.repaymentBehavior ≠ some (RepaymentMart.martRepaymentBehavior sampleProject.hashes t.raw) := by
  have stale : ((exec (next sampleProject) emptyMarts
      (firstRun ++ [call 9 .mLoanRepaymentSchedule [installment 2 30]])).bind (fun s =>
        (next sampleProject s behaviorRun).map paidLate)) = some (some {0},{30}) := by decide +kernel
  obtain ⟨s,executed,last⟩ := Option.bind_eq_some_iff.mp stale
  obtain ⟨t,taken,shown⟩ := Option.map_eq_some_iff.mp last
  refine ⟨s,t,exec_run (fun _ _ _ taken => taken) executed,taken,?_⟩
  intro same
  have amounts : (paidLate t).1 = some (paidLate t).2 := by
    rw [paidLate,same]
    rfl
  rw [shown] at amounts
  exact absurd amounts (by decide)

end FineractBi.RepaymentIncremental
