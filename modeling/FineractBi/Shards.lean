import Mathlib.Algebra.Order.Floor.Ring
import Mathlib.Data.Rat.Floor
import FineractBi.Lib.Binary64
import FineractBi.Reconciler
import FineractBi.SourceNames

/-!
The shards of the control plane: `shard_plan` counts them, `SourceRegistry.list` selects
the sources of one by a hash, and `observe_cluster` claims its connectors.
-/
namespace FineractBi.Shards
open FineractBi.Registry FineractBi.SourceNames FineractBi.Reconciler

structure Shard where
  index : Nat
  count : Nat
  deriving DecidableEq, Repr

/-- The integers of FBI_SHARD_SIZE and FBI_MAX_SHARDS, where they are read; `none` is a `ValueError`. -/
structure ShardEnvironment where
  shardSize : Option Int
  maxShards : Option Int

/-- `shard_plan`, over the number of registered sources. -/
def shardPlan (env : ShardEnvironment) (shardSize maxShards : Option Int) (total : Nat) : Option (List Shard) := do
  let shardSize ← (shardSize.filter (· ≠ 0)).or env.shardSize
  let maxShards ← (maxShards.filter (· ≠ 0)).or env.maxShards
  let count := (max 1 (min maxShards ⌈Binary64.rounded ((total : Rat) / (max 1 shardSize : Int))⌉)).toNat
  return (List.range count).map (fun i => ⟨i,count⟩)

/-- `meta.source_registry`, in the order of the ids. -/
structure SourceTable where
  rows : List SourceRecord
  keyed : (rows.map (·.sourceId)).Nodup

def SourceTable.ids (registry : SourceTable) : List String := registry.rows.map (·.sourceId)

/-- `abs` of an integer, whose result is an integer again. -/
def absInt4 (n : Int32) : Except String Nat :=
  if n = Int32.minValue then throw "integer out of range" else pure n.toInt.natAbs

variable (hashtext : String → Int32)

/-- The rows that satisfy the clause `abs(hashtext(source_id)) % count = index`. -/
def inShard (index count : Nat) : List SourceRecord → Except String (List SourceRecord)
  | [] => pure []
  | r :: rest => do
    let hash ← absInt4 (hashtext r.sourceId)
    let others ← inShard index count rest
    pure (if hash % count = index then r :: others else others)

/-- `SourceRegistry.list`. -/
def list (registry : SourceTable) (states : List Lifecycle) (region : String) (shardIndex shardCount : Option Nat) :
    Except String (List SourceRecord) :=
  let shown := registry.rows.filter (fun r =>
    (states.isEmpty || r.lifecycleState ∈ states) && (region = "" || r.region = region))
  match shardCount.filter (· ≠ 0) with
  | none => pure shown
  | some count => inShard hashtext (shardIndex.getD 0) count shown

/-- The test of `observe_cluster`. -/
def mine (shardSourceIds allRegistered : List String) (shardIndex : Option Nat) (name : String) : Bool :=
  (sourceIdFromConnector name).any (· ∈ shardSourceIds) ||
    (shardIndex.getD 0 = 0 && !(sourceIdFromConnector name).any (· ∈ allRegistered))

/-- `observe_cluster` over the names that a cluster lists. -/
def observeCluster (describe : String → ObservedConnector) (names shardSourceIds allRegistered : List String)
    (shardIndex : Option Nat) : List (String × ObservedConnector) :=
  (names.filter (fun name => MANAGED_PREFIX.toList.isPrefixOf name.toList &&
    mine shardSourceIds allRegistered shardIndex name)).map (fun name => (name,describe name))

/-- What `reconcile` observes of a cluster for a shard. -/
def observeShard (registry : SourceTable) (describe : String → ObservedConnector) (names : List String) (shard : Shard) :
    Except String (List (String × ObservedConnector)) := do
  let sources ← list hashtext registry [] "" (some shard.index) (some shard.count)
  pure (observeCluster describe names (sources.map (·.sourceId)) registry.ids (some shard.index))

section
variable {hashtext : String → Int32} {registry : SourceTable} {index count : Nat} {rows : List SourceRecord}

/-- The shard of a source among `count`. -/
def shardIndexOf (hashtext : String → Int32) (count : Nat) (source : String) : Nat := (hashtext source).toInt.natAbs % count

/-- Every hash has an absolute value. -/
def Hashed (hashtext : String → Int32) (rows : List SourceRecord) : Prop :=
  ∀ r ∈ rows, hashtext r.sourceId ≠ Int32.minValue

private theorem inShard_ok (hashed : Hashed hashtext rows) :
    inShard hashtext index count rows = .ok (rows.filter (fun r => shardIndexOf hashtext count r.sourceId = index)) := by
  induction rows with
  | nil => rfl
  | cons r rest ih =>
    have own : absInt4 (hashtext r.sourceId) = .ok (hashtext r.sourceId).toInt.natAbs :=
      if_neg (hashed r List.mem_cons_self)
    have others := ih (fun r inside => hashed r (List.mem_cons_of_mem _ inside))
    rw [inShard,own,others,List.filter_cons]
    by_cases here : shardIndexOf hashtext count r.sourceId = index
    · simp [bind,Except.bind,pure,Except.pure,here,show (hashtext r.sourceId).toInt.natAbs % count = index from here]
    · simp [bind,Except.bind,pure,Except.pure,here,show ¬(hashtext r.sourceId).toInt.natAbs % count = index from here]

/-- A query that reads the least hash fails. -/
theorem inShard_hashed (selected : List SourceRecord) (listed : inShard hashtext index count rows = .ok selected) :
    Hashed hashtext rows := by
  induction rows generalizing selected with
  | nil => exact fun _ inside => absurd inside List.not_mem_nil
  | cons r rest ih =>
    rw [inShard] at listed
    obtain ⟨hash,own,listed⟩ := StateMachine.except_bind listed
    obtain ⟨others,rest_listed,_⟩ := StateMachine.except_bind listed
    intro r' inside
    rcases List.mem_cons.mp inside with rfl | later
    · intro least
      rw [absInt4,if_pos least] at own
      cases own
    · exact ih others rest_listed r' later

private theorem list_whole (positive : 0 < count) : list hashtext registry [] "" (some index) (some count) =
    inShard hashtext index count registry.rows := by
  have some_count : (some count).filter (· ≠ 0) = some count := by simp [positive.ne']
  rw [list,some_count]
  simp

/-- The shard lists the source. -/
def Lists (hashtext : String → Int32) (registry : SourceTable) (shard : Shard) (r : SourceRecord) : Prop :=
  ∃ rows, list hashtext registry [] "" (some shard.index) (some shard.count) = .ok rows ∧ r ∈ rows

/-- The shard claims the connector. -/
def Claims (hashtext : String → Int32) (registry : SourceTable) (describe : String → ObservedConnector) (names : List String)
    (shard : Shard) (name : String) : Prop :=
  ∃ observed, observeShard hashtext registry describe names shard = .ok observed ∧ name ∈ observed.map (·.1)

private theorem lists_iff {shard : Shard} (positive : 0 < shard.count) (hashed : Hashed hashtext registry.rows)
    {r : SourceRecord} :
    Lists hashtext registry shard r ↔ r ∈ registry.rows ∧ shardIndexOf hashtext shard.count r.sourceId = shard.index := by
  rw [Lists,list_whole positive,inShard_ok hashed]
  simp

private theorem claims_iff {shard : Shard} (positive : 0 < shard.count) (hashed : Hashed hashtext registry.rows)
    {describe : String → ObservedConnector} {names : List String} {name : String} :
    Claims hashtext registry describe names shard name ↔ name ∈ names ∧
      MANAGED_PREFIX.toList.isPrefixOf name.toList = true ∧
      ((∃ source, sourceIdFromConnector name = some source ∧ source ∈ registry.ids ∧ shardIndexOf hashtext shard.count source = shard.index) ∨
        shard.index = 0 ∧ ∀ source, sourceIdFromConnector name = some source → source ∉ registry.ids) := by
  have listed : observeShard hashtext registry describe names shard = .ok (observeCluster describe names
      ((registry.rows.filter (fun r => shardIndexOf hashtext shard.count r.sourceId = shard.index)).map (·.sourceId)) registry.ids
      (some shard.index)) := by
    rw [observeShard,list_whole positive,inShard_ok hashed]
    rfl
  rw [Claims,listed]
  have ids (source : String) : source ∈ (registry.rows.filter (fun r =>
      shardIndexOf hashtext shard.count r.sourceId = shard.index)).map (·.sourceId) ↔
      source ∈ registry.ids ∧ shardIndexOf hashtext shard.count source = shard.index := by
    rw [SourceTable.ids,List.mem_map,List.mem_map]
    constructor
    · rintro ⟨r,inside,rfl⟩
      exact ⟨⟨r,List.mem_of_mem_filter inside,rfl⟩,by simpa using (List.mem_filter.mp inside).2⟩
    · rintro ⟨⟨r,inside,rfl⟩,own⟩
      exact ⟨r,List.mem_filter.mpr ⟨inside,by simpa using own⟩,rfl⟩
  have observed : name ∈ (observeCluster describe names ((registry.rows.filter (fun r =>
      shardIndexOf hashtext shard.count r.sourceId = shard.index)).map (·.sourceId)) registry.ids (some shard.index)).map (·.1) ↔
      name ∈ names ∧ MANAGED_PREFIX.toList.isPrefixOf name.toList = true ∧ mine ((registry.rows.filter (fun r =>
        shardIndexOf hashtext shard.count r.sourceId = shard.index)).map (·.sourceId)) registry.ids (some shard.index) name = true := by
    simp [observeCluster]
  simp only [Except.ok.injEq,exists_eq_left',observed,mine]
  refine and_congr_right (fun _ => and_congr_right (fun _ => ?_))
  cases sourceIdFromConnector name with
  | none => simp
  | some source => simp [ids source]

/-- The plan counts one shard or more, by their indices. -/
theorem planned_shards {env : ShardEnvironment} {shardSize maxShards : Option Int} {total : Nat} {shards : List Shard}
    (planned : shardPlan env shardSize maxShards total = some shards) :
    ∃ count, 0 < count ∧ shards = (List.range count).map (fun i => ⟨i,count⟩) := by
  simp only [shardPlan,Option.bind_eq_bind,Option.bind_eq_some_iff,Option.pure_def,Option.some.injEq] at planned
  obtain ⟨size,_,most,_,rfl⟩ := planned
  exact ⟨_,by omega,rfl⟩

end

/-- With the shards of a plan no query fails, every source is listed by one shard and every managed connector claimed by
    one, the one that lists its source or the first, exactly when no source hashes to the least integer. -/
theorem shards_partition_iff (hashtext : String → Int32) (registry : SourceTable) (env : ShardEnvironment)
    (shardSize maxShards : Option Int) (shards : List Shard)
    (planned : shardPlan env shardSize maxShards registry.rows.length = some shards) :
    ((∀ shard ∈ shards, ∀ states region, ∃ rows,
        list hashtext registry states region (some shard.index) (some shard.count) = .ok rows) ∧
      (∀ r ∈ registry.rows, ∃ home ∈ shards, ∀ shard ∈ shards, Lists hashtext registry shard r ↔ shard = home) ∧
      ∀ describe names name, name ∈ names → MANAGED_PREFIX.toList.isPrefixOf name.toList = true → ∃ home ∈ shards,
        (∀ shard ∈ shards, Claims hashtext registry describe names shard name ↔ shard = home) ∧
        (∀ r ∈ registry.rows, sourceIdFromConnector name = some r.sourceId → Lists hashtext registry home r) ∧
        ((∀ r ∈ registry.rows, sourceIdFromConnector name ≠ some r.sourceId) → home.index = 0)) ↔
    Hashed hashtext registry.rows := by
  obtain ⟨count,positive,rfl⟩ := planned_shards planned
  have member (shard : Shard) : shard ∈ (List.range count).map (fun i => (⟨i,count⟩ : Shard)) ↔
      shard.index < count ∧ shard.count = count := by
    obtain ⟨index,count'⟩ := shard
    simp [and_comm,eq_comm]
  constructor
  · rintro ⟨queried,_⟩
    obtain ⟨rows,listed⟩ := queried ⟨0,count⟩ ((member _).mpr ⟨positive,rfl⟩) [] ""
    rw [list_whole positive] at listed
    exact inShard_hashed rows listed
  · intro hashed
    have home (source : String) : (⟨shardIndexOf hashtext count source,count⟩ : Shard) ∈ (List.range count).map (fun i => ⟨i,count⟩) :=
      (member _).mpr ⟨Nat.mod_lt _ positive,rfl⟩
    refine ⟨?_,?_,?_⟩
    · intro shard at_shard states region
      have some_count : (some shard.count).filter (· ≠ 0) = some shard.count := by
        simp [((member _).mp at_shard).2,positive.ne']
      rw [list,some_count]
      exact ⟨_,inShard_ok (fun r inside => hashed r (List.mem_of_mem_filter inside))⟩
    · intro r inside
      refine ⟨_,home r.sourceId,?_⟩
      rintro ⟨index,count'⟩ at_shard
      obtain ⟨_,rfl⟩ := (member _).mp at_shard
      rw [lists_iff positive hashed]
      simp [inside,eq_comm]
    · intro describe names name named managed
      by_cases registered : ∃ r ∈ registry.rows, sourceIdFromConnector name = some r.sourceId
      · obtain ⟨r,inside,decoded⟩ := registered
        have known : r.sourceId ∈ registry.ids := List.mem_map_of_mem inside
        refine ⟨_,home r.sourceId,?_,?_,fun unknown => absurd decoded (unknown r inside)⟩
        · rintro ⟨index,count'⟩ at_shard
          obtain ⟨_,rfl⟩ := (member _).mp at_shard
          rw [claims_iff positive hashed]
          simp [named,managed,decoded,known,eq_comm]
        · intro r' inside' decoded'
          rw [lists_iff positive hashed]
          exact ⟨inside',by rw [Option.some.inj (decoded'.symm.trans decoded)]⟩
      · have unknown : ∀ source, sourceIdFromConnector name = some source → source ∉ registry.ids := by
          rintro source decoded known
          obtain ⟨r,inside,rfl⟩ := List.mem_map.mp known
          exact registered ⟨r,inside,decoded⟩
        refine ⟨⟨0,count⟩,(member _).mpr ⟨positive,rfl⟩,?_,?_,fun _ => rfl⟩
        · rintro ⟨index,count'⟩ at_shard
          obtain ⟨_,rfl⟩ := (member _).mp at_shard
          rw [claims_iff positive hashed]
          constructor
          · rintro ⟨_,_,⟨source,decoded,known,_⟩ | ⟨rfl,_⟩⟩
            · exact absurd known (unknown source decoded)
            · rfl
          · rintro same
            exact ⟨named,managed,.inr ⟨congrArg Shard.index same,unknown⟩⟩
        · intro r inside decoded
          exact absurd ⟨r,inside,decoded⟩ registered

def threeSources : SourceTable :=
  ⟨[{ sourceId := "branch-001", tenantId := "default" },{ sourceId := "branch-002", tenantId := "default" },
    { sourceId := "branch-003", tenantId := "default" }],by decide⟩

/-- The defaults of the environment. -/
def defaults : ShardEnvironment := ⟨some 200,some 32⟩

/-- A hash that is negative for one of them. -/
def sampleHash (source : String) : Int32 :=
  if source = "branch-001" then 7 else if source = "branch-002" then -8 else 9

/-- Every source is listed by one of the two, and a connector of the second source is claimed by the one that lists it. -/
theorem shards_partition_iff_three :
    (∀ r ∈ threeSources.rows, ∃ home ∈ [(⟨0,2⟩ : Shard),⟨1,2⟩], ∀ shard ∈ [(⟨0,2⟩ : Shard),⟨1,2⟩],
      Lists sampleHash threeSources shard r ↔ shard = home) ∧
    ∀ describe, ∃ home ∈ [(⟨0,2⟩ : Shard),⟨1,2⟩], (∀ shard ∈ [(⟨0,2⟩ : Shard),⟨1,2⟩],
      Claims sampleHash threeSources describe ["fbi-src-branch-002-g1"] shard "fbi-src-branch-002-g1" ↔ shard = home) ∧
      ∀ r ∈ threeSources.rows, sourceIdFromConnector "fbi-src-branch-002-g1" = some r.sourceId →
        Lists sampleHash threeSources home r := by
  have planned : shardPlan defaults (some 2) none threeSources.rows.length = some [⟨0,2⟩,⟨1,2⟩] := by decide +kernel
  have hashed : Hashed sampleHash threeSources.rows := by
    intro r inside
    have each : ∀ r ∈ threeSources.rows, sampleHash r.sourceId ≠ Int32.minValue := by decide
    exact each r inside
  obtain ⟨_,sources,connectors⟩ := (shards_partition_iff sampleHash threeSources defaults (some 2) none _ planned).mpr hashed
  refine ⟨sources,fun describe => ?_⟩
  obtain ⟨home,member,claimed,listed,_⟩ := connectors describe ["fbi-src-branch-002-g1"] "fbi-src-branch-002-g1"
    (List.mem_singleton_self _) (by decide)
  exact ⟨home,member,claimed,listed⟩

def oneSource : SourceTable := ⟨[{ sourceId := "branch-001", tenantId := "default" }],by decide⟩

/-- The hash of a source is the least integer: its shard's query fails, and so does that of every other source. -/
theorem least_hash_fails : shardPlan defaults none none oneSource.rows.length = some [⟨0,1⟩] ∧
    list (fun _ => Int32.minValue) oneSource [] "" (some 0) (some 1) = .error "integer out of range" :=
  ⟨by decide +kernel,rfl⟩

end FineractBi.Shards
