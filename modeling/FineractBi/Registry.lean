import Mathlib.Logic.Function.Basic
import Mathlib.Order.Basic
import FineractBi.Envelope

/-!
The source registry of the control plane (registry.py): the record of a source,
the names of its connector and its replication slot, and the operations on
`meta.source_registry`. An insert through `upsert` respects the generation floor
that retiring a source leaves behind; an insert through `create` does not.
-/
namespace FineractBi.Registry
open FineractBi.Envelope (Json)

inductive Lifecycle
  | REQUESTED | VALIDATING | PROVISIONING | ACTIVE | PAUSED | DEGRADED | RETIRING | RETIRED
  deriving DecidableEq, Repr

/-- `LIFECYCLE_TRANSITIONS`. -/
def lifecycleTransitions : Lifecycle → List Lifecycle
  | .REQUESTED => [.VALIDATING,.RETIRED]
  | .VALIDATING => [.PROVISIONING,.REQUESTED,.RETIRED]
  | .PROVISIONING => [.ACTIVE,.DEGRADED,.RETIRING]
  | .ACTIVE => [.PAUSED,.DEGRADED,.RETIRING]
  | .PAUSED => [.ACTIVE,.RETIRING]
  | .DEGRADED => [.ACTIVE,.PAUSED,.RETIRING]
  | .RETIRING => [.RETIRED]
  | .RETIRED => []

structure SourceRecord where
  sourceId : String
  tenantId : String
  displayName : Option String := none
  region : String := "default"
  tier : String := "standard"
  dbHost : Option String := none
  dbPort : Int := 5432
  dbName : Option String := none
  dbSchema : String := "public"
  compatSchema : String := "bi_connector_source"
  dbUser : Option String := none
  secretRef : Option String := none
  connectCluster : String := "default"
  lifecycleState : Lifecycle := .REQUESTED
  captureGeneration : Int := 0
  cobJobName : String := "LOAN_COB"
  labels : List (String × Json) := []

inductive RegistryError
  | invalidSourceId (source : String)
  | secretRejected (reason : String)
  | alreadyRegistered (source : String)
  | connectionChanged (source : String) (changed : List String)
  | unknownSource (source : String)
  | lifecycleNotAllowed (source : String) (current new : Lifecycle)

/-- A character of a source id, at its start or later. -/
def idStart (c : Char) : Bool := ('a' ≤ c ∧ c ≤ 'z') ∨ ('0' ≤ c ∧ c ≤ '9')
def idPart (c : Char) : Bool := idStart c ∨ c = '_' ∨ c = '-'

/-- `SOURCE_ID_PATTERN.match`. The `$` of the pattern also matches before a last line feed. -/
def sourceIdPattern (source : String) : Bool :=
  let accepted : List Char → Bool
    | [] => false
    | c :: rest => idStart c && rest.all idPart && rest.length ≤ 62
  accepted source.toList || (source.toList.getLast? = some '\n' && accepted source.toList.dropLast)

def SourceRecord.slotName (r : SourceRecord) : String :=
  "fbi_" ++ r.sourceId.map (fun c => if c = '-' then '_' else c) ++ "_g" ++ toString r.captureGeneration

def connectorName (source : String) (generation : Int) : String :=
  "fbi-src-" ++ source ++ "-g" ++ toString generation

def SourceRecord.connectorName (r : SourceRecord) : String := Registry.connectorName r.sourceId r.captureGeneration

/-- `meta.source_registry` and `meta.source_generation_floor`, by source. -/
structure Tables where
  sources : String → Option SourceRecord
  floors : String → Option Int
  keyed : ∀ source r, sources source = some r → r.sourceId = source

def Tables.put (db : Tables) (r : SourceRecord) : Tables where
  sources := Function.update db.sources r.sourceId (some r)
  floors := db.floors
  keyed := by
    intro source r' found
    by_cases same : source = r.sourceId
    · subst same
      obtain rfl : r = r' := by simpa using found
      rfl
    · exact db.keyed source r' (by simpa [Function.update_of_ne same] using found)

/-- DELETE FROM meta.source_registry. -/
def Tables.delete (db : Tables) (source : String) : Tables where
  sources := Function.update db.sources source none
  floors := db.floors
  keyed := by
    intro source' r found
    by_cases same : source' = source
    · simp [same] at found
    · exact db.keyed source' r (by simpa [Function.update_of_ne same] using found)

/-- UPDATE meta.source_registry for one source. -/
def Tables.modify (db : Tables) (source : String) (f : SourceRecord → SourceRecord) : Tables :=
  match db.sources source with
  | none => db
  | some r => db.put { f r with sourceId := r.sourceId }

/-- The floor that `retire_source` raises. -/
def Tables.raiseFloor (db : Tables) (source : String) (generation : Int) : Tables where
  sources := db.sources
  floors := Function.update db.floors source
    (some (match db.floors source with | none => generation | some floor => max floor generation))
  keyed := db.keyed

section
-- `secrets.check_reference`, which reads the environment
variable (checkReference : String → String → Except String Unit)

def SourceRecord.validate (r : SourceRecord) : Except RegistryError Unit := do
  if ! sourceIdPattern r.sourceId then throw (.invalidSourceId r.sourceId)
  match r.secretRef with
  | none => pure ()
  | some ref =>
    if ref ≠ "" then
      match checkReference ref r.sourceId with
      | .ok () => pure ()
      | .error reason => throw (.secretRejected reason)

/-- `SourceRegistry.create`. -/
def create (db : Tables) (r : SourceRecord) : Except RegistryError Tables := do
  r.validate checkReference
  match db.sources r.sourceId with
  | none => pure (db.put r)
  | some _ => throw (.alreadyRegistered r.sourceId)

/-- The CONNECTION_FIELDS in which two records differ. -/
def changedConnection (before after : SourceRecord) : List String :=
  (if before.dbHost ≠ after.dbHost then ["db_host"] else []) ++
  (if before.dbPort ≠ after.dbPort then ["db_port"] else []) ++
  (if before.dbName ≠ after.dbName then ["db_name"] else []) ++
  (if before.dbUser ≠ after.dbUser then ["db_user"] else []) ++
  (if before.secretRef ≠ after.secretRef then ["secret_ref"] else [])

def refuseConnectionChanges (db : Tables) (records : List SourceRecord) : Except RegistryError Unit :=
  records.forM (fun r =>
    match db.sources r.sourceId with
    | none => pure ()
    | some old =>
      if changedConnection old r = [] then pure () else throw (.connectionChanged r.sourceId (changedConnection old r)))

/-- One INSERT ... ON CONFLICT of `upsert`: a new row starts at the floor or above it, an old
    one keeps its lifecycle and its generation. -/
def upsertRow (db : Tables) (r : SourceRecord) : Tables :=
  match db.sources r.sourceId with
  | none => db.put { r with captureGeneration := max r.captureGeneration ((db.floors r.sourceId).getD 0) }
  | some old => db.put { r with lifecycleState := old.lifecycleState, captureGeneration := old.captureGeneration }

/-- `SourceRegistry.upsert`. -/
def upsert (db : Tables) (records : List SourceRecord) (allowConnectionChange : Bool) :
    Except RegistryError (Tables × Nat) := do
  if ! records.isEmpty && ! allowConnectionChange then refuseConnectionChanges db records
  records.forM (SourceRecord.validate checkReference)
  pure (records.foldl upsertRow db,records.length)

/-- `SourceRegistry.set_lifecycle`. -/
def setLifecycle (db : Tables) (source : String) (new : Lifecycle) : Except RegistryError Tables :=
  match db.sources source with
  | none => throw (.unknownSource source)
  | some r =>
    if new = r.lifecycleState then pure db
    else if new ∈ lifecycleTransitions r.lifecycleState then pure (db.modify source ({ · with lifecycleState := new }))
    else throw (.lifecycleNotAllowed source r.lifecycleState new)

/-- `SourceRegistry.bump_capture_generation`. -/
def bumpCaptureGeneration (db : Tables) (source : String) : Except RegistryError (Tables × Int) :=
  match db.sources source with
  | none => throw (.unknownSource source)
  | some r => pure (db.modify source (fun r => { r with captureGeneration := r.captureGeneration + 1 }),
      r.captureGeneration + 1)

end

end FineractBi.Registry
