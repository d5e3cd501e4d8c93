import Mathlib.Data.Finset.Prod
import FineractBi.LoanSnapshot

/-!
The build of `fact_loan_snapshot`: the change window of a run, the scope of
loans and dates it recomputes, the deletes before the append and the cursor
after it, together with the committed raw changes between the runs. A run is
one step, since no other transaction is open while it executes.
-/
namespace FineractBi.FactBuild
open Calendar FineractBi.Contract FineractBi.ApplyBatch FineractBi.Staging FineractBi.LoanSnapshot
open FineractBi.StateMachine (Engine)
open FineractBi.Routing (ControlState)

/-- The variables of the dbt project and the functions its models call. -/
structure Project where
  hashes : Hashes
  historicalStartDate : Date

/-- A row of `fact_loan_snapshot` without `dbt_loaded_at`, keyed by loan and snapshot date. -/
structure FactRow extends StatusRow where
  snapshotKey : String
  dateKey : Int
  deriving DecidableEq

abbrev FactTable := Relation (Key × Date) FactRow

def padded (width : Nat) (n : Int) : String :=
  let digits := toString n
  String.ofList (List.replicate (width - digits.length) '0') ++ digits

/-- `snapshot_date::text`. -/
def dateText (d : Date) : String :=
  let (year,month,day) := toCivil d
  padded 4 year ++ "-" ++ padded 2 month ++ "-" ++ padded 2 day

/-- `to_char(snapshot_date, 'YYYYMMDD')::bigint`. -/
def dateKey (d : Date) : Int :=
  let (year,month,day) := toCivil d
  year * 10000 + month * 100 + day

def factRow (h : Hashes) (k : Key × Date) (row : StatusRow) : FactRow where
  toStatusRow := row
  snapshotKey := h.md5 (k.1.sourceId ++ "::" ++ k.1.tenantId ++ "::" ++ toString k.1.id ++ "::" ++ dateText k.2)
  dateKey := dateKey k.2

/-- The row of a loan and a date when the date is in the scope of the loan. -/
def factAt (h : Hashes) (raw : RawTables) (l : Key) (d : Date) : Option FactRow :=
  (snapshotAt h raw l d).map (factRow h (l,d))

/-- A row of `meta.entity_change_log`. -/
structure LoggedChange where
  txid : Nat
  entry : LogEntry

/-- The row of `meta.dbt_change_cursor` for `fact_loan_snapshot`. -/
structure ChangeCursor where
  lastTxid : Nat
  lastRunId : Nat

/-- The row of `int_change_window`. -/
structure ChangeWindow where
  lastTxid : Nat
  horizonTxid : Nat
  runId : Nat
  fullRebuild : Bool

/-- `changes`: the entries of the window, none in a full rebuild. -/
def changes (w : ChangeWindow) (log : List LoggedChange) : List LogEntry :=
  if w.fullRebuild then []
  else (log.filter (fun c => w.lastTxid ≤ c.txid ∧ c.txid < w.horizonTxid)).map (·.entry)

/-- `loans`: the live loans that are disbursed. -/
def loans (raw : RawTables) : Relation Key Loan :=
  (stgMLoan raw).filterMap (fun _ loan => if loan.disbursedonDate.isSome then some loan else none)

/-- `fact_max` of a source. -/
def factMax (fact : Option FactTable) (source : String) : Option Date :=
  match fact with
  | none => none
  | some table => ((table.keys.filter (fun k => k.1.sourceId = source)).sup (fun k => (k.2 : WithBot Date)) : WithBot Date)

/-- A row of `scope_rows` of one loan. -/
structure ScopeRow where
  fromDate : Date
  isRollForward : Bool

/-- The roll-forward row of a loan. -/
def rollForward (w : ChangeWindow) (maxDate : Option Date) (today : Date) (loan : Loan) : List ScopeRow :=
  if w.fullRebuild then []
  else match maxDate with
    | none => [⟨beginningOfTime,true⟩]
    | some maxDate =>
      if maxDate < effectiveMaturityDate today loan ∧ maxDate < today then [⟨maxDate + 1,true⟩] else []

/-- An entry names the loan itself. -/
def NamesLoan (l : Key) (c : LogEntry) : Prop :=
  c.entity = .loan ∧ c.sourceId = l.sourceId ∧ c.tenantId = l.tenantId ∧ c.entityId = l.id

/-- An entry reaches a disbursed loan through its client, its source or a table of the source. -/
def ReachesLoan (l : Key) (loan : Loan) (c : LogEntry) : Prop :=
  (c.entity = .client ∧ c.sourceId = l.sourceId ∧ c.tenantId = l.tenantId ∧ loan.clientId = some c.entityId) ∨
  ((c.entity = .global ∨ c.entity = .source) ∧ c.sourceId = l.sourceId)

instance (l : Key) (c : LogEntry) : Decidable (NamesLoan l c) := inferInstanceAs (Decidable (_ ∧ _ ∧ _ ∧ _))
instance (l : Key) (loan : Loan) (c : LogEntry) : Decidable (ReachesLoan l loan c) :=
  inferInstanceAs (Decidable ((_ ∧ _ ∧ _ ∧ _) ∨ (_ ∧ _)))

/-- The rows of `scope_rows` of a loan. -/
def scopeRows (w : ChangeWindow) (log : List LoggedChange) (raw : RawTables) (fact : Option FactTable) (today : Date)
    (l : Key) : List ScopeRow :=
  ((changes w log).filter (fun c => NamesLoan l c)).map (fun c => ⟨c.minAffectedDate,false⟩) ++
  match (loans raw).get l with
  | none => []
  | some loan =>
    (if w.fullRebuild then [⟨beginningOfTime,false⟩] else []) ++
    ((changes w log).filter (fun c => ReachesLoan l loan c)).map (fun _ => ⟨beginningOfTime,false⟩) ++
    rollForward w (factMax fact l.sourceId) today loan

/-- The group of a loan: the least date, not before the historical start. -/
def scopeOf (start : Date) (rows : List ScopeRow) : Option Scope :=
  (rows.map (·.fromDate)).min?.map (fun least =>
    ⟨max least start,((rows.filter (fun r => !r.isRollForward)).map (·.fromDate)).min?⟩)

/-- The loans that the entries of a list name. -/
def namedLoans (entries : List LogEntry) : Finset Key :=
  ((entries.filter (fun c => c.entity = .loan)).map (fun c => (⟨c.sourceId,c.tenantId,c.entityId⟩ : Key))).toFinset

def intSnapshotScope (p : Project) (w : ChangeWindow) (log : List LoggedChange) (raw : RawTables)
    (fact : Option FactTable) (today : Date) : Relation Key Scope :=
  Relation.tabulate ((stgMLoan raw).keys ∪ namedLoans (changes w log)) (fun l =>
    scopeOf p.historicalStartDate (scopeRows w log raw fact today l))

/-- The rows that the model selects. -/
def selectFact (h : Hashes) (raw : RawTables) (scope : Relation Key Scope) (today : Date) : FactTable :=
  (intLoanDelinquencyStatus h raw scope today).filterMap (fun k row => some (factRow h k row))

/-- The first delete: the rows of a loan in scope from its scope date on. -/
def deleteScope (scope : Relation Key Scope) (fact : FactTable) : FactTable :=
  fact.restrict (fun k => match scope.get k.1 with
    | none => true
    | some s => k.2 < s.fromDate)

/-- The second delete: the rows of a loan in scope before its disbursement. -/
def deleteBeforeDisbursement (raw : RawTables) (scope : Relation Key Scope) (fact : FactTable) : FactTable :=
  fact.restrict (fun k => match scope.get k.1,((stgMLoan raw).get k.1).bind (·.disbursedonDate) with
    | some _,some disbursed => disbursed ≤ k.2
    | _,_ => true)

/-- The append; the unique index on loan and snapshot date refuses a second row. -/
def append (fact rows : FactTable) : Option FactTable :=
  if Disjoint fact.keys rows.keys then some (fact.union rows) else none

/-- `fact_loan_snapshot` after a build, `fact` being the table before it. -/
def buildFact (h : Hashes) (raw : RawTables) (scope : Relation Key Scope) (today : Date) (fullRefresh : Bool)
    (fact : Option FactTable) : Option FactTable :=
  match fullRefresh,fact with
  | false,some table =>
    append (deleteBeforeDisbursement raw scope (deleteScope scope table)) (selectFact h raw scope today)
  | _,_ => some (selectFact h raw scope today)

/-- The warehouse between runs. `openFrom` is the least transaction id that a
    transaction committing later can have. -/
structure Warehouse where
  stores : Table → Stores
  changeLog : List LoggedChange
  nextTxid : Nat
  openFrom : Nat
  factLoanSnapshot : Option FactTable
  changeCursor : Option ChangeCursor
  dbtRunSeq : Nat
  ranOn : Option Date

/-- The production raw tables. -/
def Warehouse.raw (s : Warehouse) : RawTables := fun t => (s.stores t).raw

def Warehouse.changeWindow (s : Warehouse) (fullRefresh : Bool) : ChangeWindow where
  lastTxid := (s.changeCursor.map (·.lastTxid)).getD 0
  horizonTxid := s.nextTxid
  runId := s.dbtRunSeq + 1
  fullRebuild := fullRefresh || s.factLoanSnapshot.isNone

def Warehouse.snapshotScope (p : Project) (s : Warehouse) (fullRefresh : Bool) (today : Date) : Relation Key Scope :=
  intSnapshotScope p (s.changeWindow fullRefresh) s.changeLog s.raw s.factLoanSnapshot today

/-- A dbt run that builds `int_change_window`, `int_snapshot_scope` and `fact_loan_snapshot`. -/
def dbtRun (p : Project) (fullRefresh : Bool) (today : Date) (s : Warehouse) : Option Warehouse :=
  (buildFact p.hashes s.raw (s.snapshotScope p fullRefresh today) today fullRefresh s.factLoanSnapshot).map (fun fact =>
    { s with
      factLoanSnapshot := some fact
      changeCursor := some ⟨(s.changeWindow fullRefresh).horizonTxid,(s.changeWindow fullRefresh).runId⟩
      dbtRunSeq := (s.changeWindow fullRefresh).runId
      nextTxid := s.nextTxid + 1
      openFrom := s.nextTxid
      ranOn := some today })

/-- Commit a call that rewrote one contract table and logged the entries. -/
def Warehouse.commit (s : Warehouse) (txid : Nat) (table : Table) (after : Stores) (log : List LogEntry) : Warehouse :=
  { s with
    stores := Function.update s.stores table after
    changeLog := s.changeLog ++ log.map (fun entry => ⟨txid,entry⟩)
    nextTxid := max s.nextTxid (txid + 1) }

/-- What happens to the warehouse. -/
inductive Act
  | applyStagedBatch (txid : Nat) (table : Table) (engine : Engine) (now : Int) (today : Date) (db : ControlState)
      (stage : List StagedRow)
  | promoteShadow (txid : Nat) (table : Table) (source : String) (db : ControlState)
  | dbtRun (today : Date)

/-- The committed calls and the successful runs, the runs on non-decreasing dates. -/
def next (p : Project) (s : Warehouse) : Act → Option Warehouse
  | .applyStagedBatch txid table engine now today db stage =>
    if s.openFrom ≤ txid then
      match ApplyBatch.applyStagedBatch (contract table) engine now today db stage (s.stores table) with
      | .error _ => none
      | .ok (after,log,_) => some (s.commit txid table after log)
    else none
  | .promoteShadow txid table source db =>
    if s.openFrom ≤ txid then
      let (after,log) := ApplyBatch.promoteShadow db source (s.stores table)
      some (s.commit txid table after log)
    else none
  | .dbtRun today =>
    if SingleMapping s.raw ∧ ∀ ran ∈ s.ranOn, ran ≤ today then FactBuild.dbtRun p false today s else none

end FineractBi.FactBuild
