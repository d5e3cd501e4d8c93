import Mathlib.Data.List.Induction
import FineractBi.Lib.Keyed
import FineractBi.Lib.Separator
import FineractBi.StateMachine

/-!
How the sink decides where an event goes and how the warehouse checks that
decision: `OwnershipCache.load` and `OwnershipSnapshot.route` on one side,
`WarehouseWriter.verifySkips` and the fencing check at the start of
`meta.apply_staged_batch` on the other.
-/
namespace FineractBi.Routing
open Separator FineractBi.StateMachine

/-- The columns of `meta.source_registry` that routing reads. -/
structure SourceRow where
  sourceId : String
  tenantId : String
  captureGeneration : Int
  deriving DecidableEq, Repr

/-- PostgreSQL text holds no zero character. -/
def PgText (text : String) : Prop := '\x00' ∉ text.toList

instance (text : String) : Decidable (PgText text) := inferInstanceAs (Decidable ('\x00' ∉ text.toList))

/-- The control tables `meta.source_registry` and `meta.ingestion_ownership`,
    with their primary keys. -/
structure ControlState where
  registry : List SourceRow
  ownership : List Ownership
  registryKey : (registry.map (·.sourceId)).Nodup
  ownershipKey : (ownership.map (fun o => (o.sourceId,o.tableName))).Nodup
  registryText : ∀ row ∈ registry, PgText row.sourceId
  ownershipText : ∀ o ∈ ownership, PgText o.sourceId

/-- The row of a primary key. -/
def ControlState.source (db : ControlState) (source : String) : Option SourceRow :=
  db.registry.find? (fun row => row.sourceId = source)
def ControlState.owner (db : ControlState) (source table : String) : Option Ownership :=
  db.ownership.find? (fun o => (o.sourceId,o.tableName) = (source,table))

theorem ControlState.source_iff (db : ControlState) (source : String) (row : SourceRow) :
    db.source source = some row ↔ row ∈ db.registry ∧ row.sourceId = source :=
  Keyed.find_iff db.registryKey

theorem ControlState.owner_iff (db : ControlState) (source table : String) (o : Ownership) :
    db.owner source table = some o ↔ o ∈ db.ownership ∧ o.sourceId = source ∧ o.tableName = table := by
  rw [ControlState.owner,Keyed.find_iff db.ownershipKey,Prod.mk.injEq]

structure Entry where
  engine : Engine
  shadowEngine : Option Engine
  state : CutoverState
  epoch : Int
  deriving DecidableEq, Repr

structure SourceMeta where
  tenantId : String
  generation : Int
  deriving DecidableEq, Repr

/-- A Java map filled by `put`: the latest binding of a key stands first. -/
abbrev JavaMap (α : Type) := List (String × α)

def JavaMap.put {α : Type} (map : JavaMap α) (key : String) (value : α) : JavaMap α := (key,value) :: map
def JavaMap.get {α : Type} (map : JavaMap α) (key : String) : Option α := List.lookup key map

structure OwnershipSnapshot where
  entries : JavaMap Entry
  sources : JavaMap SourceMeta
  loadedAtMillis : Int

/-- `OwnershipSnapshot.key`. -/
def key (source table : String) : String := source ++ "\x00" ++ table

/-- `OwnershipCache.load`: all sources, and the ownership rows that name KAFKA. -/
def load (db : ControlState) (now : Int) : OwnershipSnapshot where
  sources := db.registry.foldl
    (fun map row => map.put row.sourceId ⟨row.tenantId,row.captureGeneration⟩) []
  entries := (db.ownership.filter (fun o => o.engine = .KAFKA ∨ o.shadowEngine = some .KAFKA)).foldl
    (fun map o => map.put (key o.sourceId o.tableName) ⟨o.engine,o.shadowEngine,o.cutoverState,o.epoch⟩) []
  loadedAtMillis := now

inductive RouteTarget
  | PROD | SHADOW | SKIP | HOLD | UNKNOWN_SOURCE
  deriving DecidableEq, Repr

structure Route where
  target : RouteTarget
  epoch : Int
  tenantId : Option String
  generation : Int
  reason : Option String
  deriving DecidableEq, Repr

/-- `Route.stageTarget`; the code throws for the targets that stage nothing. -/
def RouteTarget.stageTarget : RouteTarget → Option String
  | .PROD => some "prod"
  | .SHADOW => some "shadow"
  | _ => none

/-- `OwnershipSnapshot.route`. -/
def OwnershipSnapshot.route (snapshot : OwnershipSnapshot) (source table : String) : Route :=
  match snapshot.sources.get source with
  | none => ⟨.UNKNOWN_SOURCE,0,none,0,some "source not registered"⟩
  | some m =>
    match snapshot.entries.get (key source table) with
    | none => ⟨.SKIP,0,some m.tenantId,m.generation,some "not owned by KAFKA"⟩
    | some e =>
      if e.state = .PAUSED then ⟨.HOLD,e.epoch,some m.tenantId,m.generation,some "ownership paused"⟩
      else if e.engine = .KAFKA then ⟨.PROD,e.epoch,some m.tenantId,m.generation,none⟩
      else if e.shadowEngine = some .KAFKA then ⟨.SHADOW,e.epoch,some m.tenantId,m.generation,none⟩
      else ⟨.SKIP,e.epoch,some m.tenantId,m.generation,some "not owned by KAFKA"⟩

structure SkipCheck where
  sourceId : String
  table : String
  epoch : Int
  deriving DecidableEq, Repr

/-- `SkipCheck.MUST_BE_UNREGISTERED`. -/
def mustBeUnregistered : Int := -1

/-- Whether one row of the verification query is stale. -/
def staleSkip (db : ControlState) (check : SkipCheck) : Bool :=
  if check.epoch = mustBeUnregistered then (db.source check.sourceId).isSome
  else ((db.owner check.sourceId check.table).map (·.epoch)).getD 0 ≠ check.epoch

/-- The checks by their key, the latest of equal keys. -/
def distinctSkips (skips : List SkipCheck) : JavaMap SkipCheck :=
  skips.foldl (fun map check =>
    (key check.sourceId check.table,check) :: map.filter (fun entry => entry.1 ≠ key check.sourceId check.table)) []

/-- `WarehouseWriter.verifySkips`: SQLSTATE FBI01 at the first stale decision. -/
def verifySkips (db : ControlState) (skips : List SkipCheck) : Except String Unit :=
  match (distinctSkips skips).find? (fun entry => staleSkip db entry.2) with
  | none => .ok ()
  | some (_,check) => .error ("Skip decision for " ++ check.sourceId ++ "/" ++ check.table ++
      " is stale (ownership changed since the snapshot)")

/-- What a staged row says about its right to be written. -/
structure StagedClaim where
  sourceId : String
  target : String
  ownerEpoch : Int
  deriving DecidableEq, Repr

/-- The WHERE clause of the fencing query, on the ownership row joined to a claim. -/
def fencedBy (engine : Engine) (claim : StagedClaim) : Option Ownership → Bool
  | none => true
  | some o => o.epoch ≠ claim.ownerEpoch || o.cutoverState = .PAUSED ||
      (claim.target ≠ "prod" && claim.target ≠ "shadow") ||
      (claim.target = "prod" && o.engine ≠ engine) ||
      (claim.target = "shadow" && o.shadowEngine ≠ some engine)

/-- How RAISE renders a value that may be NULL. -/
def raised (text : Option String) : String := text.getD "<NULL>"

/-- The fencing check of `meta.apply_staged_batch`: SQLSTATE FBI01 when some
    claim does not match the ownership row of its source. -/
def fencingCheck (db : ControlState) (table : String) (engine : Engine) (claims : List StagedClaim) :
    Except String Unit :=
  match claims.find? (fun claim => fencedBy engine claim (db.owner claim.sourceId table)) with
  | none => .ok ()
  | some claim =>
    let o := db.owner claim.sourceId table
    .error ("Writer " ++ engine.value ++ " fenced for source " ++ claim.sourceId ++ ", table " ++ table ++
      ", target " ++ claim.target ++ ": expected epoch " ++ toString claim.ownerEpoch ++
      ", owner engine " ++ raised (o.map (·.engine.value)) ++
      ", shadow " ++ raised (o.bind (fun o => o.shadowEngine.map Engine.value)) ++
      ", epoch " ++ raised (o.map (fun o => toString o.epoch)) ++
      ", state " ++ raised (o.map (·.cutoverState.value)))

theorem fencingCheck_ok (db : ControlState) (table : String) (engine : Engine) (claims : List StagedClaim) :
    fencingCheck db table engine claims = .ok () ↔
      ∀ claim ∈ claims, fencedBy engine claim (db.owner claim.sourceId table) = false := by
  unfold fencingCheck
  cases found : claims.find? (fun claim => fencedBy engine claim (db.owner claim.sourceId table)) with
  | none => simpa using List.find?_eq_none.mp found
  | some claim =>
    have bad := List.find?_some found
    have member := List.mem_of_find?_eq_some found
    simp only [reduceCtorEq,false_iff]
    intro good
    simp [good claim member] at bad

private theorem key_chars {source source' table table' : String} (same : key source table = key source' table') :
    source.toList ++ '\x00' :: table.toList = source'.toList ++ '\x00' :: table'.toList := by
  simpa [key] using congrArg String.toList same

/-- A zero character ends the source part of a cache key. -/
theorem key_injective {source source' table table' : String} (clean : PgText source) (clean' : PgText source')
    (same : key source table = key source' table') : source = source' ∧ table = table' :=
  (append_first clean clean' (key_chars same)).imp (String.toList_injective ·) (String.toList_injective ·)

/-- So does the last zero character, when tables hold none. -/
theorem key_injective_table {source source' table table' : String} (clean : PgText table) (clean' : PgText table')
    (same : key source table = key source' table') : source = source' ∧ table = table' := by
  have none_after : '\x00' ∉ [] ++ table.toList := clean
  have none_after' : '\x00' ∉ [] ++ table'.toList := clean'
  have parts := append_separator '\x00' [] none_after none_after' (by simpa using key_chars same)
  exact parts.imp (String.toList_injective ·) (String.toList_injective ·)

theorem load_source (db : ControlState) (now : Int) (source : String) :
    (load db now).sources.get source = (db.source source).map (fun row => ⟨row.tenantId,row.captureGeneration⟩) := by
  have filled := Keyed.foldl_lookup (fun row : SourceRow => SourceMeta.mk row.tenantId row.captureGeneration)
    db.registryKey [] source
  simpa [load,JavaMap.get,JavaMap.put,ControlState.source] using filled

/-- Of a registered source the cache holds exactly the rows that name KAFKA. -/
theorem load_entry (db : ControlState) (now : Int) (source table : String) (clean : PgText source) :
    (load db now).entries.get (key source table) =
      ((db.owner source table).filter (fun o => o.engine = .KAFKA ∨ o.shadowEngine = some .KAFKA)).map
        (fun o => ⟨o.engine,o.shadowEngine,o.cutoverState,o.epoch⟩) := by
  have keyed : ∀ o ∈ db.ownership, (key o.sourceId o.tableName = key source table ↔
      (o.sourceId,o.tableName) = (source,table)) := by
    intro o member
    constructor
    · intro same
      obtain ⟨sources,tables⟩ := key_injective (db.ownershipText o member) clean same
      rw [sources,tables]
    · intro same
      obtain ⟨rfl,rfl⟩ := Prod.mk.inj same
      rfl
  have distinct : (db.ownership.map (fun o => key o.sourceId o.tableName)).Nodup := by
    refine List.Nodup.map_on ?_ db.ownershipKey.of_map
    intro a memberA b memberB same
    obtain ⟨sources,tables⟩ := key_injective (db.ownershipText a memberA) (db.ownershipText b memberB) same
    exact List.inj_on_of_nodup_map db.ownershipKey memberA memberB (by rw [sources,tables])
  let names : Ownership → Bool := fun o => o.engine = .KAFKA ∨ o.shadowEngine = some .KAFKA
  have filled := Keyed.foldl_lookup (fun o : Ownership => Entry.mk o.engine o.shadowEngine o.cutoverState o.epoch)
    (distinct.sublist ((List.filter_sublist (p := names)).map _)) [] (key source table)
  have found : db.ownership.find? (fun o => key o.sourceId o.tableName = key source table) =
      db.owner source table := by
    ext o
    rw [Keyed.find_iff distinct,ControlState.owner,Keyed.find_iff db.ownershipKey]
    exact and_congr_right (keyed o)
  rw [Keyed.find_filter distinct,found] at filled
  simpa [load,JavaMap.get,JavaMap.put,names] using filled

/-- The checks of the write transaction let a decision for (source, table) pass. -/
def Accepted (db : ControlState) (source table : String) (route : Route) : Prop :=
  match route.target.stageTarget with
  | some target => fencingCheck db table .KAFKA [⟨source,target,route.epoch⟩] = .ok ()
  | none => route.target = .SKIP → verifySkips db [⟨source,table,route.epoch⟩] = .ok ()

/-- The row that the cache does not load and the skip check still compares. -/
def Unloaded (db : ControlState) (source table : String) : Prop :=
  (∃ row ∈ db.registry, row.sourceId = source) ∧
    ∃ o ∈ db.ownership, o.sourceId = source ∧ o.tableName = table ∧
      o.engine ≠ .KAFKA ∧ o.shadowEngine ≠ some .KAFKA ∧ o.epoch ≠ 0

private theorem verifySkips_single (db : ControlState) (check : SkipCheck) :
    verifySkips db [check] = .ok () ↔ staleSkip db check = false := by
  cases stale : staleSkip db check with
  | false => simp [verifySkips,distinctSkips,stale]
  | true => simp [verifySkips,distinctSkips,stale]

private theorem distinctSkips_snoc (skips : List SkipCheck) (check : SkipCheck) :
    distinctSkips (skips ++ [check]) = (key check.sourceId check.table,check) ::
      (distinctSkips skips).filter (fun entry => entry.1 ≠ key check.sourceId check.table) := by
  simp [distinctSkips]

/-- Where checks of one key are equal, none of them is dropped. -/
theorem distinctSkips_mem {skips : List SkipCheck}
    (agree : ∀ a ∈ skips, ∀ b ∈ skips, key a.sourceId a.table = key b.sourceId b.table → a = b)
    {check : SkipCheck} (member : check ∈ skips) : (key check.sourceId check.table,check) ∈ distinctSkips skips := by
  induction skips using List.reverseRecOn with
  | nil => cases member
  | append_singleton earlier last ih =>
    rw [distinctSkips_snoc]
    by_cases same : key check.sourceId check.table = key last.sourceId last.table
    · rw [agree check member last (by simp) same]
      exact List.mem_cons_self
    · rcases List.mem_append.mp member with old | new
      · refine List.mem_cons_of_mem _ (List.mem_filter.mpr ⟨ih ?_ old,by simpa using same⟩)
        exact fun a left b right => agree a (List.mem_append_left _ left) b (List.mem_append_left _ right)
      · exact absurd (by rw [List.mem_singleton.mp new]) same

/-- The skip decisions that agree with each other are each verified. -/
theorem verifySkips_each {db : ControlState} {skips : List SkipCheck}
    (agree : ∀ a ∈ skips, ∀ b ∈ skips, key a.sourceId a.table = key b.sourceId b.table → a = b)
    (verified : verifySkips db skips = .ok ()) : ∀ check ∈ skips, staleSkip db check = false := by
  intro check member
  unfold verifySkips at verified
  split at verified
  · next found =>
    simpa using List.find?_eq_none.mp found _ (distinctSkips_mem agree member)
  · cases verified

/-- The decision taken from a freshly loaded cache passes the checks exactly
    unless the ownership row of a registered pair exists, names KAFKA neither as
    engine nor as shadow, and has an epoch other than the default 0. -/
theorem fresh_route_accepted_iff (db : ControlState) (now : Int) (source table : String) :
    Accepted db source table ((load db now).route source table) ↔ ¬ Unloaded db source table := by
  unfold OwnershipSnapshot.route
  rw [load_source]
  cases registered : db.source source with
  | none =>
    have unloaded : ¬ Unloaded db source table := by
      rintro ⟨⟨row,member,same⟩,_⟩
      rw [(db.source_iff source row).mpr ⟨member,same⟩] at registered
      cases registered
    simp [Accepted,RouteTarget.stageTarget,unloaded]
  | some row =>
    obtain ⟨member,named⟩ := (db.source_iff source row).mp registered
    simp only [Option.map_some]
    rw [load_entry db now source table (named ▸ db.registryText row member)]
    have unloaded_iff : Unloaded db source table ↔ ∃ o, db.owner source table = some o ∧
        o.engine ≠ .KAFKA ∧ o.shadowEngine ≠ some .KAFKA ∧ o.epoch ≠ 0 := by
      constructor
      · rintro ⟨_,o,memberO,sources,tables,rest⟩
        exact ⟨o,(db.owner_iff source table o).mpr ⟨memberO,sources,tables⟩,rest⟩
      · rintro ⟨o,owned,rest⟩
        obtain ⟨memberO,sources,tables⟩ := (db.owner_iff source table o).mp owned
        exact ⟨⟨row,member,named⟩,o,memberO,sources,tables,rest⟩
    rw [unloaded_iff]
    cases owned : db.owner source table with
    | none => simp [Accepted,RouteTarget.stageTarget,verifySkips_single,staleSkip,owned,mustBeUnregistered]
    | some o =>
      by_cases names : o.engine = .KAFKA ∨ o.shadowEngine = some .KAFKA
      · have loaded : ¬ ∃ o', some o = some o' ∧ o'.engine ≠ .KAFKA ∧ o'.shadowEngine ≠ some .KAFKA ∧ o'.epoch ≠ 0 := by
          rintro ⟨_,same,engine,shadow,_⟩
          cases same
          exact names.elim engine shadow
        simp only [Option.filter,names,decide_true,if_true,Option.map_some,iff_true_right loaded]
        by_cases paused : o.cutoverState = .PAUSED
        · simp [paused,Accepted,RouteTarget.stageTarget]
        · by_cases engine : o.engine = .KAFKA
          · simp [paused,engine,Accepted,RouteTarget.stageTarget,fencingCheck_ok,owned,fencedBy]
          · have shadow := names.resolve_left engine
            simp [paused,engine,shadow,Accepted,RouteTarget.stageTarget,fencingCheck_ok,owned,fencedBy]
      · obtain ⟨engine,shadow⟩ := not_or.mp names
        simp [Option.filter,engine,shadow,Accepted,RouteTarget.stageTarget,verifySkips_single,staleSkip,owned,
          mustBeUnregistered]

/-- A source whose loans the Python engine owns. -/
def pythonOwned : ControlState where
  registry := [⟨"branch-001","default",0⟩]
  ownership := [{ sourceId := "branch-001", tableName := "m_loan", engine := .PYTHON, shadowEngine := none,
                  cutoverState := .STEADY, epoch := 2 }]
  registryKey := by decide
  ownershipKey := by decide
  registryText := by decide
  ownershipText := by decide

/-- An event of a table that Python owns is routed to SKIP with epoch 0, and the
    skip check, which finds epoch 2, calls the decision stale. -/
theorem fresh_route_fenced :
    (load pythonOwned 0).route "branch-001" "m_loan" =
      ⟨.SKIP,0,some "default",0,some "not owned by KAFKA"⟩ ∧
    ¬ Accepted pythonOwned "branch-001" "m_loan" ((load pythonOwned 0).route "branch-001" "m_loan") := by
  have skipped : (load pythonOwned 0).route "branch-001" "m_loan" =
      ⟨.SKIP,0,some "default",0,some "not owned by KAFKA"⟩ := by decide
  refine ⟨skipped,?_⟩
  rw [skipped]
  intro accepted
  have stale : staleSkip pythonOwned ⟨"branch-001","m_loan",0⟩ = true := by decide
  have fresh := (verifySkips_single _ _).mp (accepted rfl)
  simp [stale] at fresh

end FineractBi.Routing
