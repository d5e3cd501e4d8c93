import FineractBi.FactIncremental
import FineractBi.MartRefresh

/-!
The dbt runs with their marts: the dirty partitions recorded before and after the
build of the fact table, the cursor of each mart, the marts that a run builds and
the pruning at its end. The dimensions are built in every run, so that a run shows
the raw tables it read in them.
-/
namespace FineractBi.MartRuns
open Calendar Query FineractBi.Contract FineractBi.ApplyBatch FineractBi.Staging FineractBi.LoanSnapshot
open FineractBi.FactBuild FineractBi.FactContent FineractBi.ParMart FineractBi.MartRefresh
open FineractBi.StateMachine (Engine)
open FineractBi.Routing (ControlState)

/-- `min` of a nullable date column. -/
def leastOrNull (dates : Multiset Date) : Option Date := if dates.card = 0 then none else some (least dates)

/-- The `group by` and the two minima of `record_dirty_partitions`. -/
def dirtyRows {A : Type} (runId : Nat) (partition : A → String × Option Int × Option Int) (scope : A → Scope)
    (rows : Multiset A) : Multiset DirtyRow :=
  (groupBy partition rows).map (fun g => ⟨runId,g.1.1,g.1.2.1,g.1.2.2,least (g.2.map (fun r => (scope r).fromDate)),
    leastOrNull (g.2.filterMap (fun r => (scope r).changedFrom))⟩)

/-- The three equalities on the loan. -/
def onScope (f : FactEntry) (s : Key × Scope) : Bool := f.1.1 = s.1

def onScopedLoan (s : Key × Scope) (l : Key × Loan) : Bool := s.1 = l.1

def onScopedClient (s : (Key × Scope) × (Key × Loan)) (c : Key × Client) : Bool := RepaymentMart.onClient s.2 c

/-- `record_dirty_partitions('before')`. -/
def recordBefore (runId : Nat) (scope : Relation Key Scope) (fact : Multiset FactEntry) : Multiset DirtyRow :=
  dirtyRows runId (fun r => (r.1.1.1.sourceId,r.1.2.officeId,r.1.2.productId)) (·.2.2) (join onScope fact scope.rows)

/-- `record_dirty_partitions('after')`. -/
def recordAfter (runId : Nat) (scope : Relation Key Scope) (raw : RawTables) : Multiset DirtyRow :=
  dirtyRows runId (fun r => (r.1.2.1.sourceId,r.2.2.officeId,r.1.2.2.productId)) (·.1.1.2)
    (join onScopedClient (join onScopedLoan scope.rows (stgMLoan raw).rows) (stgMClient raw).rows)

/-- The models that have a row in `meta.dbt_mart_cursor`. -/
inductive Consumer
  | martDelinquencyPar | martPortfolioHealth | martRepaymentBehavior
  deriving DecidableEq, Repr

def consumerOf : Mart → Consumer
  | .delinquencyPar => .martDelinquencyPar
  | .portfolioHealth => .martPortfolioHealth

/-- The run id up to which `finish_run` deletes. -/
def prunedUpto (cursors : Consumer → Option Nat) : Nat :=
  match cursors .martDelinquencyPar,cursors .martPortfolioHealth,cursors .martRepaymentBehavior with
  | some par,some health,some repayment => min par (min health repayment)
  | _,_,_ => 0

/-- `finish_run`. -/
def finishRun (cursors : Consumer → Option Nat) (dirty : Multiset DirtyRow) : Multiset DirtyRow :=
  dirty.filter (fun d => ¬d.runId ≤ prunedUpto cursors)

/-- The warehouse with its marts. `lastRead` are the raw tables that the last run read. -/
structure Marts where
  warehouse : Warehouse
  dirty : Multiset DirtyRow
  cursors : Consumer → Option Nat
  contents : (m : Mart) → Option (Multiset m.Row)
  lastRead : RawTables

/-- The production raw tables. -/
def Marts.raw (s : Marts) : RawTables := s.warehouse.raw

/-- The rows of `fact_loan_snapshot`. -/
def factRows (fact : Option FactTable) : Multiset FactEntry := (fact.map (·.rows)).getD 0

/-- What a run records in `meta.dbt_mart_dirty`; before the build only when it is incremental. -/
def Marts.recorded (p : Project) (fullRefresh : Bool) (today : Date) (s : Marts) : Multiset DirtyRow :=
  let w := s.warehouse.changeWindow fullRefresh
  let scope := s.warehouse.snapshotScope p fullRefresh today
  (if w.fullRebuild then 0 else recordBefore w.runId scope (factRows s.warehouse.factLoanSnapshot)) +
    recordAfter w.runId scope s.raw

/-- `mart_upper_run_id`. -/
def martUpperRunId (w : Warehouse) : Nat := (w.changeCursor.map (·.lastRunId)).getD 0

/-- What a mart that is built reads: its cursor, the upper run id and the dirty rows. -/
def Marts.martRun (p : Project) (fullRefresh : Bool) (today : Date) (s : Marts) (after : Warehouse) (m : Mart) : MartRun where
  lastRunId := (s.cursors (consumerOf m)).getD 0
  upperRunId := martUpperRunId after
  dirty := s.dirty + s.recorded p fullRefresh today

/-- A dbt run that builds the fact table and then some of the marts. -/
def run (p : Project) (fullRefresh : Bool) (today : Date) (built : Finset Consumer) (s : Marts) : Option Marts :=
  (dbtRun p fullRefresh today s.warehouse).map (fun after =>
    let cursors := fun c => if c ∈ built then some (martUpperRunId after) else s.cursors c
    { warehouse := after
      dirty := finishRun cursors (s.dirty + s.recorded p fullRefresh today)
      cursors
      contents := fun m => if consumerOf m ∈ built
        then some (m.build p.hashes fullRefresh (s.martRun p fullRefresh today after m) (factRows after.factLoanSnapshot)
          s.raw (s.contents m))
        else s.contents m
      lastRead := s.raw })

/-- What happens to the warehouse and its marts. -/
inductive Act
  | applyStagedBatch (txid : Nat) (table : Table) (engine : Engine) (now : Int) (today : Date) (db : ControlState)
      (stage : List StagedRow)
  | promoteShadow (txid : Nat) (table : Table) (source : String) (db : ControlState)
  | dbtRun (fullRefresh : Bool) (today : Date) (built : Finset Consumer)

/-- The committed calls and the successful runs, the runs on non-decreasing dates. -/
def next (p : Project) (s : Marts) : Act → Option Marts
  | .applyStagedBatch txid table engine now today db stage =>
    (FactBuild.next p s.warehouse (.applyStagedBatch txid table engine now today db stage)).map
      (fun w => { s with warehouse := w })
  | .promoteShadow txid table source db =>
    (FactBuild.next p s.warehouse (.promoteShadow txid table source db)).map (fun w => { s with warehouse := w })
  | .dbtRun fullRefresh today built =>
    if SingleMapping s.raw ∧ ∀ ran ∈ s.warehouse.ranOn, ran ≤ today then run p fullRefresh today built s else none

section Recorded
variable {runId : Nat} {scope : Relation Key Scope} {fact : Multiset FactEntry} {raw : RawTables} {k : ParKey} {l : Key}
  {sc : Scope}

/-- A dirty row of the run reaches the group. -/
def Recorded (runId : Nat) (dirty : Multiset DirtyRow) (k : ParKey) : Prop := ∃ d ∈ dirty, d.runId = runId ∧ Reaches d k

/-- A dirty row of the run for the partition, from the dates of a scope or before. -/
def MarkedBy (runId : Nat) (dirty : Multiset DirtyRow) (partition : String × Option Int × Option Int) (sc : Scope) : Prop :=
  ∃ d ∈ dirty, d.runId = runId ∧ partitionOf d = partition ∧ d.fromDate ≤ sc.fromDate ∧
    ∀ x, sc.changedFrom = some x → ∃ y, d.changedFrom = some y ∧ y ≤ x

theorem MarkedBy.mono {dirty dirty' : Multiset DirtyRow} {partition : String × Option Int × Option Int} (sub : dirty ⊆ dirty')
    (marked : MarkedBy runId dirty partition sc) : MarkedBy runId dirty' partition sc := by
  obtain ⟨d,inside,rest⟩ := marked
  exact ⟨d,sub inside,rest⟩

theorem MarkedBy.reaches {dirty : Multiset DirtyRow} (marked : MarkedBy runId dirty (k.sourceId,k.officeId,k.productId) sc)
    (begun : sc.fromDate ≤ k.snapshotDate) : Recorded runId dirty k := by
  obtain ⟨d,inside,own,keyed,from_date,_⟩ := marked
  obtain ⟨source,office,product⟩ : d.sourceId = k.sourceId ∧ d.officeId = k.officeId ∧ d.productId = k.productId := by
    simpa [partitionOf] using keyed
  exact ⟨d,inside,own,source,office,product,from_date.trans begun⟩

/-- A row that is grouped marks its partition from the dates of its scope. -/
theorem dirtyRows_marks {A : Type} {partition : A → String × Option Int × Option Int} {scope : A → Scope}
    {rows : Multiset A} {r : A} (inside : r ∈ rows) : MarkedBy runId (dirtyRows runId partition scope rows) (partition r) (scope r) := by
  have own : r ∈ rows.filter (fun x => partition x = partition r) := Multiset.mem_filter.mpr ⟨inside,rfl⟩
  have grouped : (partition r,rows.filter (fun x => partition x = partition r)) ∈ groupBy partition rows :=
    mem_groupBy.mpr ⟨⟨r,inside,rfl⟩,rfl⟩
  refine ⟨_,Multiset.mem_map_of_mem _ grouped,rfl,rfl,?_,?_⟩
  · exact least_le (Multiset.mem_map_of_mem _ own)
  · intro x at_x
    have among : x ∈ (rows.filter (fun x => partition x = partition r)).filterMap (fun r => (scope r).changedFrom) :=
      (Multiset.mem_filterMap _ _).mpr ⟨r,own,at_x⟩
    refine ⟨_,if_neg ?_,least_le among⟩
    exact (Multiset.card_pos_iff_exists_mem.mpr ⟨x,among⟩).ne'

/-- A fact row whose loan is in scope marks its partition. -/
theorem before_marks {e : Date} {f : FactRow} (inside : ((l,e),f) ∈ fact) (in_scope : scope.get l = some sc) :
    MarkedBy runId (recordBefore runId scope fact) (l.sourceId,f.officeId,f.productId) sc := by
  have joined : (((l,e),f),(l,sc)) ∈ join onScope fact scope.rows :=
    mem_join.mpr ⟨inside,Relation.mem_rows.mpr in_scope,by simp [onScope]⟩
  exact dirtyRows_marks joined

/-- A live loan in scope marks the partition it is in. -/
theorem after_marks {loan : Loan} {clientId : Int} {client : Client} (in_scope : scope.get l = some sc)
    (at_l : (stgMLoan raw).get l = some loan) (owner : loan.clientId = some clientId)
    (at_client : (stgMClient raw).get (refer l clientId) = some client) :
    MarkedBy runId (recordAfter runId scope raw) (l.sourceId,client.officeId,loan.productId) sc := by
  have joined : (((l,sc),(l,loan)),(refer l clientId,client)) ∈
      join onScopedClient (join onScopedLoan scope.rows (stgMLoan raw).rows) (stgMClient raw).rows := by
    refine mem_join.mpr ⟨mem_join.mpr ⟨Relation.mem_rows.mpr in_scope,Relation.mem_rows.mpr at_l,?_⟩,
      Relation.mem_rows.mpr at_client,?_⟩
    · simp [onScopedLoan]
    · simp [onScopedClient,RepaymentMart.onClient,Delinquency.names,owner,refer]
  exact dirtyRows_marks joined

end Recorded

section Pruned
variable {cursors : Consumer → Option Nat} {dirty : Multiset DirtyRow} {d : DirtyRow}

private theorem prunedUpto_le (c : Consumer) : prunedUpto cursors ≤ (cursors c).getD 0 := by
  unfold prunedUpto
  split
  · next par health repayment =>
    cases c
    · simp [par]
    · simp [health]
    · simp [repayment]
  · exact Nat.zero_le _

/-- `finish_run` keeps a dirty row that some mart has not read. -/
theorem finishRun_keeps (c : Consumer) (inside : d ∈ dirty) (unread : (cursors c).getD 0 < d.runId) :
    d ∈ finishRun cursors dirty :=
  Multiset.mem_filter.mpr ⟨inside,not_le.mpr (lt_of_le_of_lt (prunedUpto_le c) unread)⟩

end Pruned

end FineractBi.MartRuns
