import FineractBi.Generations
import FineractBi.FenceSafety
import FineractBi.Convergence

/-!
The tenant of a source over registry edits and writes. A raw table is keyed by
source, tenant and id, and every writer stages the tenant that it last read from
the registry; so an entity of a source has one row only as long as the registry
names one tenant for the source.
-/
namespace FineractBi.TenantIdentity
open Runs FineractBi.StateMachine FineractBi.Discipline FineractBi.Routing FineractBi.Registry FineractBi.ApplyBatch
open FineractBi.Envelope (Json)
open FineractBi.WriteFence (PendingBatch commitBatch moveShadow commitMoved claims Holds commitBatch_holds
  commitMoved_holds)

/-- `EnvSourceBootstrap`. -/
structure EnvSourceBootstrap where
  sourceId : String
  tenantId : String
  host : String
  port : Int
  dbname : String
  user : String
  compatSchema : String
  sslMode : String
  cobJobName : String
  secretRef : String

/-- The record that `ensure_env_source` upserts, from the one that is registered. -/
def bootRecord (boot : EnvSourceBootstrap) (existing : Option SourceRecord) : SourceRecord where
  sourceId := boot.sourceId
  tenantId := boot.tenantId
  displayName := some (boot.dbname ++ "@" ++ boot.host)
  dbHost := some boot.host
  dbPort := boot.port
  dbName := some boot.dbname
  dbUser := some boot.user
  compatSchema := boot.compatSchema
  secretRef := some boot.secretRef
  lifecycleState := (existing.map (·.lifecycleState)).getD .ACTIVE
  captureGeneration := (existing.map (·.captureGeneration)).getD 0
  cobJobName := boot.cobJobName
  labels := ("sslmode",.string boot.sslMode) :: (((existing.map (·.labels)).getD []).filter (fun l => l.1 ≠ "sslmode"))

/-- The registry part of `ensure_env_source`. -/
def ensureEnvSource (checkReference : String → String → Except String Unit) (db : Tables) (boot : EnvSourceBootstrap) :
    Except RegistryError (Tables × Nat) :=
  upsert checkReference db [bootRecord boot (db.sources boot.sourceId)] true

/-- `snapshots` holds the tenants that each sink worker has cached, `extractors` the record that
    each extractor run works with. -/
structure State where
  registry : Tables
  owners : String → String → Option Ownership
  snapshots : Nat → String → Option String
  extractors : Nat → Option SourceRecord
  tables : String → Stores

inductive Op
  | upsert (records : List SourceRecord) (allowConnectionChange : Bool)
  | ensureEnvSource (boot : EnvSourceBootstrap)
  | transition (source table : String) (request : TransitionRequest)
  | refresh (worker : Nat)
  | fetch (extractor : Nat) (source : String)
  | sinkWrite (worker : Nat) (batches : List PendingBatch)
  | extractorWrite (extractor : Nat) (batch : PendingBatch)

/-- The fencing check of one batch. -/
def Unfenced (s : State) (engine : Engine) (batch : PendingBatch) : Prop :=
  ∀ claim ∈ claims batch.stage, fencedBy engine claim (s.owners claim.sourceId batch.contract.tableName) = false

/-- The tables after the side effects of a transition. -/
def moveAll (tables : String → Stores) (source table : String) (effects : List SideEffect) : String → Stores :=
  effects.foldl (fun tables effect => commitMoved tables (moveShadow tables source table effect)) tables

section
variable (checkReference : String → String → Except String Unit)

inductive Step : State → Op → State → Prop
  | upsert {s : State} {records : List SourceRecord} {allow : Bool} {db : Tables} {n : Nat}
      (upserted : upsert checkReference s.registry records allow = .ok (db,n)) :
      Step s (.upsert records allow) { s with registry := db }
  | ensureEnvSource {s : State} {boot : EnvSourceBootstrap} {db : Tables} {n : Nat}
      (upserted : ensureEnvSource checkReference s.registry boot = .ok (db,n)) :
      Step s (.ensureEnvSource boot) { s with registry := db }
  | transition {s : State} {source table : String} {request : TransitionRequest} {o o' : Ownership}
      {effects : List SideEffect} (found : s.owners source table = some o)
      (accepted : transition o request = .ok ⟨o,o',effects⟩) :
      Step s (.transition source table request) { s with
        owners := Function.update s.owners source (Function.update (s.owners source) table (some o'))
        tables := moveAll s.tables source table effects }
  | refresh {s : State} {worker : Nat} : Step s (.refresh worker) { s with
      snapshots := Function.update s.snapshots worker (fun source => (s.registry.sources source).map (·.tenantId)) }
  | fetch {s : State} {extractor : Nat} {source : String} {r : SourceRecord} (found : s.registry.sources source = some r) :
      Step s (.fetch extractor source) { s with extractors := Function.update s.extractors extractor (some r) }
  | sinkWrite {s : State} {worker : Nat} {batches : List PendingBatch}
      (tenants : ∀ batch ∈ batches, ∀ row ∈ batch.stage,
        s.snapshots worker row.key.sourceId = some row.key.tenantId)
      (unfenced : ∀ batch ∈ batches, Unfenced s .KAFKA batch) :
      Step s (.sinkWrite worker batches) { s with tables := batches.foldl (commitBatch .KAFKA) s.tables }
  | extractorWrite {s : State} {extractor : Nat} {batch : PendingBatch} {r : SourceRecord}
      (works : s.extractors extractor = some r)
      (tenants : ∀ row ∈ batch.stage, row.key.sourceId = r.sourceId ∧ row.key.tenantId = r.tenantId)
      (unfenced : Unfenced s .PYTHON batch) :
      Step s (.extractorWrite extractor batch) { s with tables := commitBatch .PYTHON s.tables batch }

end

/-- Some raw table holds a row of the key. -/
def Stored (tables : String → Stores) (k : Key) : Prop :=
  ∃ table, ((tables table).raw.get k).isSome ∨ ((tables table).rawShadow.get k).isSome

/-- A writer has read the tenant of the source, or a row of the source carries it. -/
def InUse (s : State) (source tenant : String) : Prop :=
  (∃ worker, s.snapshots worker source = some tenant) ∨
  (∃ extractor r, s.extractors extractor = some r ∧ r.sourceId = source ∧ r.tenantId = tenant) ∨
  ∃ k, k.sourceId = source ∧ k.tenantId = tenant ∧ Stored s.tables k

/-- The records that an operation upserts. -/
def upserts (s : State) : Op → List SourceRecord
  | .upsert records _ => records
  | .ensureEnvSource boot => [bootRecord boot (s.registry.sources boot.sourceId)]
  | _ => []

/-- A source is registered with no other tenant than one in use. -/
def KeepsTenants (s : State) (op : Op) : Prop :=
  ∀ r ∈ upserts s op, ∀ tenant, InUse s r.sourceId tenant → tenant = r.tenantId

/-- Every source has one tenant in use, and the registry names it. -/
structure Inv (s : State) : Prop where
  one : ∀ source tenant tenant', InUse s source tenant → InUse s source tenant' → tenant = tenant'
  named : ∀ source r tenant, s.registry.sources source = some r → InUse s source tenant → r.tenantId = tenant

private theorem stored_iff {tables : String → Stores} {k : Key} : Stored tables k ↔ ∃ table row, Holds tables table k row := by
  simp [Stored,Holds,Option.isSome_iff_exists,exists_or]

/-- A batch stores under its staged keys and under those that were stored. -/
theorem commitBatch_stored {engine : Engine} {tables : String → Stores} {batch : PendingBatch} {k : Key}
    (stored : Stored (commitBatch engine tables batch) k) :
    Stored tables k ∨ ∃ row ∈ batch.stage, row.key = k := by
  obtain ⟨table,row,holds⟩ := stored_iff.mp stored
  rcases commitBatch_holds holds with old | ⟨_,r,staged,same,_⟩
  · exact .inl (stored_iff.mpr ⟨table,row,old⟩)
  · exact .inr ⟨r,staged,same⟩

private theorem commitBatches_stored {engine : Engine} {batches : List PendingBatch} {tables : String → Stores} {k : Key}
    (stored : Stored (batches.foldl (commitBatch engine) tables) k) :
    Stored tables k ∨ ∃ batch ∈ batches, ∃ row ∈ batch.stage, row.key = k := by
  induction batches generalizing tables with
  | nil => exact .inl stored
  | cons batch rest ih =>
    rcases ih stored with old | ⟨b,member,staged⟩
    · rcases commitBatch_stored old with older | staged
      · exact .inl older
      · exact .inr ⟨batch,List.mem_cons_self,staged⟩
    · exact .inr ⟨b,List.mem_cons_of_mem _ member,staged⟩

/-- Side effects make no new row. -/
theorem moveAll_holds {effects : List SideEffect} {tables : String → Stores} {source table other : String} {k : Key}
    {row : RawRow} (holds : Holds (moveAll tables source table effects) other k row) : Holds tables other k row := by
  induction effects generalizing tables with
  | nil => exact holds
  | cons effect rest ih => exact commitMoved_holds (ih holds)

private theorem moveAll_stored {effects : List SideEffect} {tables : String → Stores} {source table : String} {k : Key}
    (stored : Stored (moveAll tables source table effects) k) : Stored tables k := by
  obtain ⟨other,row,holds⟩ := stored_iff.mp stored
  exact stored_iff.mpr ⟨other,row,moveAll_holds holds⟩

/-- After an upsert a source has the tenant it had or that of a record for it. -/
theorem upsertRows_tenant (records : List SourceRecord) (db : Tables) {source : String} {r : SourceRecord}
    (there : (records.foldl upsertRow db).sources source = some r) :
    (∃ old, db.sources source = some old ∧ old.tenantId = r.tenantId) ∨
      ∃ record ∈ records, record.sourceId = source ∧ record.tenantId = r.tenantId := by
  induction records generalizing db with
  | nil => exact .inl ⟨r,there,rfl⟩
  | cons record rest ih =>
    rcases ih (upsertRow db record) there with ⟨old,before,tenant⟩ | ⟨other,member,named⟩
    · by_cases here : source = record.sourceId
      · refine .inr ⟨record,List.mem_cons_self,here.symm,?_⟩
        rw [← tenant]
        unfold upsertRow at before
        split at before
        all_goals
          obtain rfl : _ = old := by simpa [Tables.put,here] using before
          rfl
      · refine .inl ⟨old,?_,tenant⟩
        unfold upsertRow at before
        split at before
        all_goals simpa [Tables.put,Function.update_of_ne here] using before
    · exact .inr ⟨other,List.mem_cons_of_mem _ member,named⟩

section
variable {checkReference : String → String → Except String Unit} {s s' : State} {op : Op}

/-- A step that leaves the registry and uses only tenants in use or registered. -/
theorem Inv.use (inv : Inv s) (registry : s'.registry = s.registry)
    (uses : ∀ source tenant, InUse s' source tenant →
      InUse s source tenant ∨ ∃ r, s.registry.sources source = some r ∧ r.tenantId = tenant) : Inv s' := by
  constructor
  · intro source tenant tenant' first second
    rcases uses source tenant first with used | ⟨r,there,rfl⟩
    · rcases uses source tenant' second with used' | ⟨r',there',rfl⟩
      · exact inv.one source tenant tenant' used used'
      · exact (inv.named source r' tenant there' used).symm
    · rcases uses source tenant' second with used' | ⟨r',there',rfl⟩
      · exact inv.named source r tenant' there used'
      · obtain rfl : r = r' := Option.some.inj (there.symm.trans there')
        rfl
  · intro source r tenant there used
    rw [registry] at there
    rcases uses source tenant used with used | ⟨r',there',rfl⟩
    · exact inv.named source r tenant there used
    · obtain rfl : r = r' := Option.some.inj (there.symm.trans there')
      rfl

theorem Inv.registered (inv : Inv s) {records : List SourceRecord} {db : Tables}
    (upserted : db = records.foldl upsertRow s.registry)
    (keeps : ∀ r ∈ records, ∀ tenant, InUse s r.sourceId tenant → tenant = r.tenantId) :
    Inv { s with registry := db } := by
  subst upserted
  refine ⟨inv.one,?_⟩
  intro source r tenant there used
  rcases upsertRows_tenant records s.registry there with ⟨old,before,same⟩ | ⟨record,member,rfl,same⟩
  · exact same.symm.trans (inv.named source old tenant before used)
  · exact same.symm.trans (keeps record member tenant used).symm

theorem inv_step (inv : Inv s) (keeps : KeepsTenants s op) (step : Step checkReference s op s') : Inv s' := by
  cases step with
  | upsert upserted => exact inv.registered (Generations.upsert_ok upserted) keeps
  | ensureEnvSource upserted => exact inv.registered (Generations.upsert_ok upserted) keeps
  | transition found accepted =>
    refine inv.use rfl ?_
    rintro source tenant (cached | held | ⟨k,of,named,stored⟩)
    · exact .inl (.inl cached)
    · exact .inl (.inr (.inl held))
    · exact .inl (.inr (.inr ⟨k,of,named,moveAll_stored stored⟩))
  | @refresh worker =>
    refine inv.use rfl ?_
    rintro source tenant (⟨other,cached⟩ | held | stored)
    · by_cases same : other = worker
      · subst same
        obtain ⟨r,there,named⟩ := Option.map_eq_some_iff.mp (by simpa using cached)
        exact .inr ⟨r,there,named⟩
      · exact .inl (.inl ⟨other,by simpa [Function.update_of_ne same] using cached⟩)
    · exact .inl (.inr (.inl held))
    · exact .inl (.inr (.inr stored))
  | @fetch extractor from_ r found =>
    refine inv.use rfl ?_
    rintro source tenant (cached | ⟨other,r',held,of,named⟩ | stored)
    · exact .inl (.inl cached)
    · by_cases same : other = extractor
      · subst same
        obtain rfl : r = r' := by simpa using held
        refine .inr ⟨r,?_,named⟩
        rw [← of,s.registry.keyed from_ r found]
        exact found
      · exact .inl (.inr (.inl ⟨other,r',by simpa [Function.update_of_ne same] using held,of,named⟩))
    · exact .inl (.inr (.inr stored))
  | sinkWrite tenants unfenced =>
    refine inv.use rfl ?_
    rintro source tenant (cached | held | ⟨k,rfl,rfl,stored⟩)
    · exact .inl (.inl cached)
    · exact .inl (.inr (.inl held))
    · rcases commitBatches_stored stored with old | ⟨batch,member,row,staged,rfl⟩
      · exact .inl (.inr (.inr ⟨k,rfl,rfl,old⟩))
      · exact .inl (.inl ⟨_,tenants batch member row staged⟩)
  | extractorWrite works tenants unfenced =>
    refine inv.use rfl ?_
    rintro source tenant (cached | held | ⟨k,rfl,rfl,stored⟩)
    · exact .inl (.inl cached)
    · exact .inl (.inr (.inl held))
    · rcases commitBatch_stored stored with old | ⟨row,staged,rfl⟩
      · exact .inl (.inr (.inr ⟨k,rfl,rfl,old⟩))
      · obtain ⟨of,named⟩ := tenants row staged
        exact .inl (.inr (.inl ⟨_,_,works,of.symm,named.symm⟩))

end

/-- No two live rows of a table have one source and one id. -/
def OneLive (raw : RawTable) : Prop :=
  ∀ k k' row row', raw.get k = some row → raw.get k' = some row' → row.isDeleted = false → row'.isDeleted = false →
    k.sourceId = k'.sourceId → k.id = k'.id → k = k'

/-- A platform with any registry and any owners, before the first read and write. -/
def fresh (registry : Tables) (owners : String → String → Option Ownership) : State where
  registry := registry
  owners := owners
  snapshots := fun _ _ => none
  extractors := fun _ => none
  tables := fun _ => ⟨Relation.empty,Relation.empty⟩

private theorem inv_fresh (registry : Tables) (owners : String → String → Option Ownership) : Inv (fresh registry owners) := by
  have unused : ∀ source tenant, ¬ InUse (fresh registry owners) source tenant := by
    rintro source tenant (⟨worker,⟨⟩⟩ | ⟨extractor,r,⟨⟩,-⟩ | ⟨k,-,-,table,stored | stored⟩)
    · cases stored
    · cases stored
  exact ⟨fun source tenant _ used => absurd used (unused source tenant),
    fun source _ tenant _ used => absurd used (unused source tenant)⟩

private theorem Inv.oneLive {s : State} (inv : Inv s) (raw : RawTable) (stored : ∀ k, (raw.get k).isSome → Stored s.tables k) :
    OneLive raw := by
  rintro ⟨source,tenant,id⟩ ⟨source',tenant',id'⟩ row row' first second - - same same'
  obtain rfl : source = source' := same
  obtain rfl : id = id' := same'
  have used : InUse s source tenant := .inr (.inr ⟨_,rfl,rfl,stored _ (by rw [first]; rfl)⟩)
  have used' : InUse s source tenant' := .inr (.inr ⟨_,rfl,rfl,stored _ (by rw [second]; rfl)⟩)
  obtain rfl := inv.one source tenant tenant' used used'
  rfl

/-- In every run in which no registry edit gives a source another tenant than one in use, an entity
    of a source has at most one live row in `raw` and in `raw_shadow`. -/
theorem one_live_row (checkReference : String → String → Except String Unit) (registry : Tables)
    (owners : String → String → Option Ownership) (trace : List Op) (s : State)
    (run : Run (fun s op s' => KeepsTenants s op ∧ Step checkReference s op s') (fresh registry owners) trace s)
    (table : String) : OneLive (s.tables table).raw ∧ OneLive (s.tables table).rawShadow := by
  have inv : Inv s := run.stateInvariant (inv_fresh registry owners) (fun _ _ _ inv step => inv_step inv step.1 step.2)
  exact ⟨inv.oneLive _ (fun _ there => ⟨table,.inl there⟩),inv.oneLive _ (fun _ there => ⟨table,.inr there⟩)⟩

def officeRecord (tenant : String) : SourceRecord :=
  { sourceId := "branch-001", tenantId := tenant, lifecycleState := .ACTIVE }

/-- A source whose offices PYTHON owns. -/
def pythonSource : State :=
  fresh (Generations.emptyTables.put (officeRecord "default")) (fun source table =>
    if source = "branch-001" ∧ table = "m_office" then
      some { Discipline.registered "branch-001" "m_office" with engine := .PYTHON, epoch := 2 } else none)

/-- The page of an extractor run with the head office. -/
def officePage (tenant : String) : PendingBatch :=
  ⟨Contract.mOfficeContract,0,[{ Convergence.officeEvent .u 5 with key := ⟨"branch-001",tenant,1⟩ }]⟩

def fetchedDefault : State := { pythonSource with
  extractors := Function.update pythonSource.extractors 1 (some (officeRecord "default")) }
def extractedDefault : State := { fetchedDefault with
  tables := commitBatch .PYTHON fetchedDefault.tables (officePage "default") }
def renamed : State := { extractedDefault with
  registry := [officeRecord "bank-a"].foldl upsertRow extractedDefault.registry }
def fetchedRenamed : State := { renamed with
  extractors := Function.update renamed.extractors 1 (some (officeRecord "bank-a")) }
def extractedRenamed : State := { fetchedRenamed with
  tables := commitBatch .PYTHON fetchedRenamed.tables (officePage "bank-a") }

private theorem fetch_step : Step Generations.allowAny pythonSource (.fetch 1 "branch-001") fetchedDefault := .fetch rfl

private theorem extract_step : Step Generations.allowAny fetchedDefault (.extractorWrite 1 (officePage "default"))
    extractedDefault := by
  have works : fetchedDefault.extractors 1 = some (officeRecord "default") := rfl
  exact .extractorWrite works (by decide) (by unfold Unfenced; decide +kernel)

/-- The head office is live under two tenants. -/
theorem renamed_tenant_two_rows :
    Run (Step Generations.allowAny) pythonSource
      [.fetch 1 "branch-001",.extractorWrite 1 (officePage "default"),.upsert [officeRecord "bank-a"] false,
        .fetch 1 "branch-001",.extractorWrite 1 (officePage "bank-a")] extractedRenamed ∧
    ¬ OneLive (extractedRenamed.tables "m_office").raw := by
  have upsert : Step Generations.allowAny extractedDefault (.upsert [officeRecord "bank-a"] false) renamed :=
    .upsert (n := 1) rfl
  have fetch : Step Generations.allowAny renamed (.fetch 1 "branch-001") fetchedRenamed := .fetch rfl
  have works : fetchedRenamed.extractors 1 = some (officeRecord "bank-a") := rfl
  have extract : Step Generations.allowAny fetchedRenamed (.extractorWrite 1 (officePage "bank-a")) extractedRenamed :=
    .extractorWrite works (by decide) (by unfold Unfenced; decide +kernel)
  refine ⟨((((Run.start.extend fetch_step).extend extract_step).extend upsert).extend fetch).extend extract,?_⟩
  have live : ∀ tenant ∈ ["default","bank-a"], ∃ row, (extractedRenamed.tables "m_office").raw.get
      ⟨"branch-001",tenant,1⟩ = some row ∧ row.isDeleted = false := by
    intro tenant member
    have present : ((extractedRenamed.tables "m_office").raw.get ⟨"branch-001",tenant,1⟩).any (!·.isDeleted) = true := by
      revert tenant
      decide +kernel
    obtain ⟨row,there,alive⟩ := (Option.any_eq_true ..).mp present
    exact ⟨row,there,by simpa using alive⟩
  intro one
  obtain ⟨row,there,alive⟩ := live "default" (by simp)
  obtain ⟨row',there',alive'⟩ := live "bank-a" (by simp)
  exact absurd (one _ _ row row' there there' alive alive' rfl rfl) (by decide)

/-- An edit that names the tenant that is registered keeps it. -/
theorem keepsTenants_of_registered {s : State} {op : Op} (inv : Inv s)
    (same : ∀ r ∈ upserts s op, ∃ old, s.registry.sources r.sourceId = some old ∧ old.tenantId = r.tenantId) :
    KeepsTenants s op := by
  intro r edited tenant used
  obtain ⟨old,registered,named⟩ := same r edited
  exact (inv.named r.sourceId old tenant registered used).symm.trans named

def secondRecord : SourceRecord := { sourceId := "branch-002", tenantId := "bank-b", lifecycleState := .ACTIVE }

/-- Two sources whose offices PYTHON owns and KAFKA shadows. -/
def shadowedSources : State :=
  fresh ((Generations.emptyTables.put (officeRecord "default")).put secondRecord) (fun source table =>
    if table = "m_office" then
      some { Discipline.registered source "m_office" with
        engine := .PYTHON, shadowEngine := some .KAFKA, cutoverState := .SHADOWING, epoch := 2 } else none)

/-- Two offices from the extractor, and three from the sink, one of them of the second source. -/
def extractorPage : PendingBatch :=
  ⟨Contract.mOfficeContract,0,[Convergence.officeEvent .u 5,
    { Convergence.officeEvent .u 5 with key := ⟨"branch-001","default",2⟩ }]⟩

def sinkBatch : PendingBatch :=
  ⟨Contract.mOfficeContract,0,[{ Convergence.officeEvent .u 7 with target := "shadow" },
    { Convergence.officeEvent .u 8 with key := ⟨"branch-001","default",3⟩, target := "shadow" },
    { Convergence.officeEvent .u 9 with key := ⟨"branch-002","bank-b",1⟩, target := "shadow" }]⟩

def displayedRecord : SourceRecord := { officeRecord "default" with displayName := some "Branch 1" }

def branchBoot : EnvSourceBootstrap :=
  ⟨"branch-001","default","db.local",5432,"fineract","reader","bi_connector_source","prefer","LOAN_COB","env:BRANCH_PASSWORD"⟩

def fetchedBoth : State := { shadowedSources with
  extractors := Function.update shadowedSources.extractors 1 (some (officeRecord "default")) }
def extractedOnce : State := { fetchedBoth with tables := commitBatch .PYTHON fetchedBoth.tables extractorPage }
def edited : State := { extractedOnce with registry := [displayedRecord].foldl upsertRow extractedOnce.registry }
def refreshedSink : State := { edited with
  snapshots := Function.update edited.snapshots 0 (fun source => (edited.registry.sources source).map (·.tenantId)) }
def shadowWritten : State := { refreshedSink with tables := [sinkBatch].foldl (commitBatch .KAFKA) refreshedSink.tables }
def booted : State := { shadowWritten with
  registry := [bootRecord branchBoot (shadowWritten.registry.sources "branch-001")].foldl upsertRow shadowWritten.registry }
def extractedTwice : State := { booted with tables := commitBatch .PYTHON booted.tables extractorPage }

/-- A step that edits the registry with the tenants in use only. -/
def KeepingStep (s : State) (op : Op) (s' : State) : Prop := KeepsTenants s op ∧ Step Generations.allowAny s op s'

private theorem keeping_of_unedited {s s' : State} {op : Op} (unedited : upserts s op = [])
    (step : Step Generations.allowAny s op s') :
    KeepingStep s op s' := ⟨by simp [KeepsTenants,unedited],step⟩

/-- The display name of the source changes between two pages, and the sink writes in between. -/
theorem shadowWritten_run : Run KeepingStep shadowedSources [.fetch 1 "branch-001",.extractorWrite 1 extractorPage,
    .upsert [displayedRecord] false,.refresh 0,.sinkWrite 0 [sinkBatch]] shadowWritten := by
  have fetch : KeepingStep shadowedSources (.fetch 1 "branch-001") fetchedBoth := keeping_of_unedited rfl (.fetch rfl)
  have extract : KeepingStep fetchedBoth (.extractorWrite 1 extractorPage) extractedOnce := keeping_of_unedited rfl
    (.extractorWrite (r := officeRecord "default") rfl (by decide) (by unfold Unfenced; decide +kernel))
  have inv : Inv extractedOnce :=
    inv_step (inv_step (inv_fresh _ _) fetch.1 fetch.2) extract.1 extract.2
  have upsert : KeepingStep extractedOnce (.upsert [displayedRecord] false) edited := by
    refine ⟨keepsTenants_of_registered inv (fun r edit => ?_),.upsert (n := 1) rfl⟩
    obtain rfl := List.mem_singleton.mp edit
    exact ⟨officeRecord "default",rfl,rfl⟩
  have refresh : KeepingStep edited (.refresh 0) refreshedSink := keeping_of_unedited rfl .refresh
  have write : KeepingStep refreshedSink (.sinkWrite 0 [sinkBatch]) shadowWritten :=
    keeping_of_unedited rfl (.sinkWrite (by decide) (by unfold Unfenced; decide +kernel))
  exact ((((Run.start.extend fetch).extend extract).extend upsert).extend refresh).extend write

/-- The environment bootstrap upserts the source before the second page. -/
theorem one_live_row_edited : OneLive (extractedTwice.tables "m_office").raw ∧
    OneLive (extractedTwice.tables "m_office").rawShadow ∧
    ((extractedTwice.tables "m_office").raw.get ⟨"branch-001","default",2⟩).isSome ∧
    ((extractedTwice.tables "m_office").rawShadow.get ⟨"branch-001","default",1⟩).isSome ∧
    ((extractedTwice.tables "m_office").rawShadow.get ⟨"branch-002","bank-b",1⟩).isSome := by
  have inv : Inv shadowWritten := shadowWritten_run.stateInvariant (inv_fresh _ _)
    (fun _ _ _ inv step => inv_step inv step.1 step.2)
  have boot : KeepingStep shadowWritten (.ensureEnvSource branchBoot) booted := by
    refine ⟨keepsTenants_of_registered inv (fun r edit => ?_),.ensureEnvSource (n := 1) rfl⟩
    obtain rfl := List.mem_singleton.mp edit
    exact ⟨displayedRecord,rfl,rfl⟩
  have again : KeepingStep booted (.extractorWrite 1 extractorPage) extractedTwice := keeping_of_unedited rfl
    (.extractorWrite (r := officeRecord "default") rfl (by decide) (by unfold Unfenced; decide +kernel))
  obtain ⟨prod,shadow⟩ := one_live_row Generations.allowAny _ _ _ extractedTwice
    ((shadowWritten_run.extend boot).extend again) "m_office"
  exact ⟨prod,shadow,by decide +kernel,by decide +kernel,by decide +kernel⟩

end FineractBi.TenantIdentity
