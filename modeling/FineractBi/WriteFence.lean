import FineractBi.ApplyBatch
import FineractBi.Discipline

/-!
Writers and the control plane at work at the same time. A writer takes shared
ownership locks, is checked against the ownership rows and commits; the control
plane takes exclusive ones, changes the rows and moves the shadow; `retire_source`
also deletes rows, without a lock. Every statement is a step of its own.
-/
namespace FineractBi.WriteFence
open Calendar Runs FineractBi.Contract FineractBi.StateMachine FineractBi.Routing FineractBi.ApplyBatch

/-- Every ownership row rewritten, under its own key. -/
def mapOwners (db : ControlState) (f : Ownership → Ownership)
    (keyed : ∀ o, (f o).sourceId = o.sourceId ∧ (f o).tableName = o.tableName) : ControlState :=
  { db with
    ownership := db.ownership.map f
    ownershipKey := by
      rw [List.map_map]
      refine (List.map_congr_left ?_) ▸ db.ownershipKey
      intro o _
      simp [keyed o]
    ownershipText := by
      intro o member
      obtain ⟨o',inside,rfl⟩ := List.mem_map.mp member
      exact (keyed o').1 ▸ db.ownershipText o' inside }

/-- The UPDATE of `meta.transition_ownership`. -/
def updateOwner (db : ControlState) (new : Ownership) : ControlState :=
  mapOwners db (fun o => if o.sourceId = new.sourceId ∧ o.tableName = new.tableName then new else o) (by
    intro o
    split
    · next same => exact ⟨same.1.symm,same.2.symm⟩
    · exact ⟨rfl,rfl⟩)

/-- The UPDATE of `retire_source`. -/
def retireOwners (db : ControlState) (source : String) : ControlState :=
  mapOwners db (fun o => if o.sourceId = source
    then { bump o with engine := .NONE, shadowEngine := none, cutoverState := .STEADY } else o) (by
    intro o
    split
    · exact ⟨rfl,rfl⟩
    · exact ⟨rfl,rfl⟩)

/-- DELETE FROM meta.source_registry, with the cascade to the ownership rows. -/
def forgetSource (db : ControlState) (source : String) : ControlState where
  registry := db.registry.filter (fun row => row.sourceId ≠ source)
  ownership := db.ownership.filter (fun o => o.sourceId ≠ source)
  registryKey := db.registryKey.sublist (List.filter_sublist.map _)
  ownershipKey := db.ownershipKey.sublist (List.filter_sublist.map _)
  registryText := fun row member => db.registryText row (List.mem_of_mem_filter member)
  ownershipText := fun o member => db.ownershipText o (List.mem_of_mem_filter member)

/-- `bump_capture_generation` for a KAFKA shadow, on the columns of the registry that the routing reads. -/
def raiseGeneration (db : ControlState) (source : String) : ControlState :=
  { db with
    registry := db.registry.map (fun row =>
      if row.sourceId = source then { row with captureGeneration := row.captureGeneration + 1 } else row)
    registryKey := by
      rw [List.map_map]
      refine (List.map_congr_left ?_) ▸ db.registryKey
      intro row _
      simp only [Function.comp_apply]
      split <;> rfl
    registryText := by
      intro row member
      obtain ⟨row',inside,rfl⟩ := List.mem_map.mp member
      have text := db.registryText row' inside
      split <;> exact text }

/-- `meta.ensure_ownership_rows` for one table of a registered source. -/
def ensureOwner (db : ControlState) (source table : String) : Option ControlState :=
  match registered : db.source source, owned : db.owner source table with
  | some row, none => some
    { db with
      ownership := db.ownership ++ [Discipline.registered source table]
      ownershipKey := by
        rw [List.map_append,List.nodup_append']
        refine ⟨db.ownershipKey,by simp,?_⟩
        intro key inOld inNew
        obtain ⟨o,member,rfl⟩ := List.mem_map.mp inOld
        simp only [List.map_cons,List.map_nil,List.mem_singleton,Discipline.registered,Prod.mk.injEq] at inNew
        rw [(db.owner_iff source table o).mpr ⟨member,inNew.1,inNew.2⟩] at owned
        cases owned
      ownershipText := by
        intro o member
        rcases List.mem_append.mp member with old | new
        · exact db.ownershipText o old
        · obtain rfl := List.mem_singleton.mp new
          obtain ⟨inside,named⟩ := (db.source_iff source row).mp registered
          exact named ▸ db.registryText row inside }
  | _, _ => none

theorem mapOwners_owner (db : ControlState) (f : Ownership → Ownership)
    (keyed : ∀ o, (f o).sourceId = o.sourceId ∧ (f o).tableName = o.tableName) (source table : String) :
    (mapOwners db f keyed).owner source table = (db.owner source table).map f := by
  simp only [ControlState.owner,mapOwners,List.find?_map]
  congr 2
  funext o
  simp [keyed o]

theorem forgetSource_owner (db : ControlState) (source other table : String) :
    (forgetSource db source).owner other table = if other = source then none else db.owner other table := by
  ext o
  rw [(forgetSource db source).owner_iff]
  by_cases same : other = source
  · subst same
    simp only [forgetSource,List.mem_filter,decide_eq_true_eq,if_true,reduceCtorEq,iff_false]
    rintro ⟨⟨_,differs⟩,named,_⟩
    exact differs named
  · simp only [forgetSource,List.mem_filter,decide_eq_true_eq,if_neg same,db.owner_iff]
    constructor
    · rintro ⟨⟨member,_⟩,named⟩
      exact ⟨member,named⟩
    · rintro ⟨member,named⟩
      exact ⟨⟨member,named.1 ▸ same⟩,named⟩

theorem ensureOwner_owner {db db' : ControlState} {source table other table' : String} {o : Ownership}
    (ensured : ensureOwner db source table = some db') (owned : db.owner other table' = some o) :
    db'.owner other table' = some o := by
  unfold ensureOwner at ensured
  split at ensured
  · obtain rfl := Option.some.inj ensured
    obtain ⟨member,named⟩ := (db.owner_iff other table' o).mp owned
    exact (ControlState.owner_iff _ other table' o).mpr ⟨List.mem_append_left _ member,named⟩
  · cases ensured

/-- (source, table), what an ownership lock stands for. -/
abbrev Pair := String × String

/-- One call of `meta.apply_staged_batch`, which takes effect when its transaction commits. -/
structure PendingBatch where
  contract : TableContract
  now : Int
  stage : List StagedRow

/-- The pair that a staged row is locked and checked under. -/
def PendingBatch.pair (batch : PendingBatch) (row : StagedRow) : Pair := (row.key.sourceId,batch.contract.tableName)

structure Writer where
  engine : Engine
  locks : List Pair
  pending : List PendingBatch

/-- What `meta.promote_shadow` or `meta.clear_shadow` found and moved: the keys
    deleted from `raw`, the rows inserted there, the keys deleted from `raw_shadow`. -/
structure Moved where
  table : String
  deletedRaw : Finset Key
  inserted : RawTable
  deletedShadow : Finset Key

/-- A transaction of `OwnershipRepository.apply`. `todo` are the tables left, `current`
    the row read for the first of them. -/
structure Apply where
  source : String
  request : TransitionRequest
  todo : List String
  locks : List Pair
  current : Option Ownership
  updates : List Ownership
  moved : List Moved

/-- A control-plane transaction: an apply, the first or the second transaction of
    `retire_source`. -/
inductive Control
  | apply (a : Apply)
  | retire (source : String) (locks : List Pair)
  | forget (source : String)

def Control.locks : Control → List Pair
  | .apply a => a.locks
  | .retire _ locks => locks
  | .forget _ => []

structure State where
  db : ControlState
  tables : String → Stores
  writers : Nat → Option Writer
  controls : Nat → Option Control

/-- The tables of the contract. -/
def contractTables : List String :=
  ([.mOffice,.mCurrency,.mClient,.mProductLoan,.mLoan,.mLoanTransaction,.mLoanRepaymentSchedule,.mDelinquencyRange,
    .mDelinquencyBucket,.mDelinquencyBucketMappings,.mLoanDelinquencyTagHistory,.batchJobExecution,
    .batchJobInstance] : List Table).map (fun t => (contract t).tableName)

def setTable (tables : String → Stores) (table : String) (stores : Stores) : String → Stores :=
  fun t => if t = table then stores else tables t

/-- A batch at its commit. -/
def commitBatch (engine : Engine) (tables : String → Stores) (batch : PendingBatch) : String → Stores :=
  let stores := tables batch.contract.tableName
  setTable tables batch.contract.tableName
    ⟨writeBatch batch.contract engine batch.now batch.stage "prod" stores.raw,
      writeBatch batch.contract engine batch.now batch.stage "shadow" stores.rawShadow⟩

def ofSource (source : String) (k : Key) : Bool := k.sourceId = source

/-- What a side effect finds in the tables. -/
def moveShadow (tables : String → Stores) (source table : String) : SideEffect → Moved
  | .PROMOTE_SHADOW =>
    ⟨table,((tables table).raw.restrict (ofSource source)).keys,(tables table).rawShadow.restrict (ofSource source),
      ((tables table).rawShadow.restrict (ofSource source)).keys⟩
  | .CLEAR_SHADOW => ⟨table,∅,Relation.empty,((tables table).rawShadow.restrict (ofSource source)).keys⟩

/-- A side effect at its commit. -/
def commitMoved (tables : String → Stores) (m : Moved) : String → Stores :=
  let stores := tables m.table
  setTable tables m.table
    ⟨stores.raw.alter (m.deletedRaw ∪ m.inserted.keys) (fun k _ => m.inserted.get k),
      stores.rawShadow.alter m.deletedShadow (fun _ _ => none)⟩

/-- The DELETEs of `retire_source` on the raw tables. -/
def purgeSource (tables : String → Stores) (source : String) : String → Stores :=
  fun t => if t ∈ contractTables then
    ⟨(tables t).raw.restrict (fun k => !ofSource source k),(tables t).rawShadow.restrict (fun k => !ofSource source k)⟩
    else tables t

inductive Event
  | beginWriter (id : Nat) (engine : Engine)
  | lockShared (id : Nat) (pair : Pair)
  | applyBatch (id : Nat) (batch : PendingBatch)
  | commitWriter (id : Nat)
  | rollbackWriter (id : Nat)
  | beginApply (id : Nat) (source : String) (tables : List String) (request : TransitionRequest)
  | lockExclusive (id : Nat)
  | readOwnership (id : Nat)
  | transition (id : Nat) (request : TransitionRequest)
  | commitApply (id : Nat)
  | beginRetire (id : Nat) (source : String)
  | retireLock (id : Nat) (table : String)
  | commitRetire (id : Nat)
  | forgetGuard (id : Nat) (source : String)
  | commitForget (id : Nat)
  | rollbackControl (id : Nat)
  | ensureRow (source table : String)
  | registry

def setWriter (s : State) (id : Nat) (w : Option Writer) : State :=
  { s with writers := fun i => if i = id then w else s.writers i }

def setControl (s : State) (id : Nat) (c : Option Control) : State :=
  { s with controls := fun i => if i = id then c else s.controls i }

/-- A writer in progress holds the pair. -/
def HeldShared (s : State) (pair : Pair) : Prop := ∃ id w, s.writers id = some w ∧ pair ∈ w.locks

/-- A control-plane transaction other than `id` holds the pair. -/
def HeldExclusive (s : State) (id : Option Nat) (pair : Pair) : Prop :=
  ∃ i c, some i ≠ id ∧ s.controls i = some c ∧ pair ∈ c.locks

/-- Some ownership row of the source is updated and not yet committed: the row is locked. -/
def RowLocked (s : State) (source : String) : Prop :=
  ∃ i a, s.controls i = some (.apply a) ∧ ∃ o ∈ a.updates, o.sourceId = source

/-- The row names no engine. -/
def Unowned (o : Ownership) : Prop := o.engine = .NONE ∧ o.shadowEngine = none

/-- The claims that `meta.apply_staged_batch` checks. -/
def claims (stage : List StagedRow) : List StagedClaim :=
  (stage.map (fun row => ⟨row.key.sourceId,row.target,row.ownerEpoch⟩)).dedup

/-- The steps. Transactions roll back at any point; a lock is granted when no
    conflicting one is held; a statement sees what is committed. -/
inductive Step : State → Event → State → Prop
  | beginWriter {s : State} {id : Nat} {engine : Engine} (free : s.writers id = none) :
      Step s (.beginWriter id engine) (setWriter s id (some ⟨engine,[],[]⟩))
  | lockShared {s : State} {id : Nat} {w : Writer} {pair : Pair} (running : s.writers id = some w)
      (granted : ¬ HeldExclusive s none pair) :
      Step s (.lockShared id pair) (setWriter s id (some { w with locks := pair :: w.locks }))
  | applyBatch {s : State} {id : Nat} {w : Writer} {batch : PendingBatch} (running : s.writers id = some w)
      (locked : ∀ row ∈ batch.stage, batch.pair row ∈ w.locks) (named : w.engine ≠ .NONE)
      (passed : fencingCheck s.db batch.contract.tableName w.engine (claims batch.stage) = .ok ()) :
      Step s (.applyBatch id batch) (setWriter s id (some { w with pending := w.pending ++ [batch] }))
  | commitWriter {s : State} {id : Nat} {w : Writer} (running : s.writers id = some w) :
      Step s (.commitWriter id)
        (setWriter { s with tables := w.pending.foldl (commitBatch w.engine) s.tables } id none)
  | rollbackWriter {s : State} {id : Nat} : Step s (.rollbackWriter id) (setWriter s id none)
  | beginApply {s : State} {id : Nat} {source : String} {tables : List String} {request : TransitionRequest}
      (free : s.controls id = none) (distinct : tables.Nodup) :
      Step s (.beginApply id source tables request)
        (setControl s id (some (.apply ⟨source,request,tables,[],none,[],[]⟩)))
  | lockExclusive {s : State} {id : Nat} {a : Apply} {table : String} {rest : List String}
      (running : s.controls id = some (.apply a)) (next : a.todo = table :: rest)
      (unshared : ¬ HeldShared s (a.source,table)) (granted : ¬ HeldExclusive s (some id) (a.source,table)) :
      Step s (.lockExclusive id)
        (setControl s id (some (.apply { a with locks := (a.source,table) :: a.locks })))
  | readOwnership {s : State} {id : Nat} {a : Apply} {table : String} {rest : List String} {o : Ownership}
      (running : s.controls id = some (.apply a)) (next : a.todo = table :: rest)
      (locked : (a.source,table) ∈ a.locks) (found : s.db.owner a.source table = some o) :
      Step s (.readOwnership id) (setControl s id (some (.apply { a with current := some o })))
  | transition {s : State} {id : Nat} {a : Apply} {table : String} {rest : List String} {request : TransitionRequest}
      {previous row : Ownership} {result : TransitionResult}
      (running : s.controls id = some (.apply a)) (next : a.todo = table :: rest)
      (locked : (a.source,table) ∈ a.locks) (read : a.current = some previous)
      (action : request.action = a.request.action)
      (accepted : StateMachine.transition previous request = .ok result)
      (stored : s.db.owner a.source table = some row) (unmoved : row.epoch = result.previous.epoch) :
      Step s (.transition id request) (setControl s id (some (.apply { a with
        todo := rest
        current := none
        updates := a.updates ++ [result.current]
        moved := a.moved ++ result.sideEffects.map (moveShadow s.tables a.source table) })))
  | commitApply {s : State} {id : Nat} {a : Apply} (running : s.controls id = some (.apply a))
      (done : a.todo = [] ∨ a.request.action = .CUTOVER ∧ a.current = none) :
      Step s (.commitApply id) (setControl { s with
        db := (if a.todo = [] ∧ a.request.action = .START_SHADOW ∧ a.request.engine = some .KAFKA
          then raiseGeneration (a.updates.foldl updateOwner s.db) a.source else a.updates.foldl updateOwner s.db)
        tables := a.moved.foldl commitMoved s.tables }
        id (if a.todo = [] then none else some (.apply { a with locks := [], updates := [], moved := [] })))
  | beginRetire {s : State} {id : Nat} {source : String} (free : s.controls id = none) :
      Step s (.beginRetire id source) (setControl s id (some (.retire source [])))
  | retireLock {s : State} {id : Nat} {source table : String} {locks : List Pair}
      (running : s.controls id = some (.retire source locks))
      (unshared : ¬ HeldShared s (source,table)) (granted : ¬ HeldExclusive s (some id) (source,table)) :
      Step s (.retireLock id table) (setControl s id (some (.retire source ((source,table) :: locks))))
  | commitRetire {s : State} {id : Nat} {source : String} {locks : List Pair}
      (running : s.controls id = some (.retire source locks)) (locked : ∀ t ∈ contractTables, (source,t) ∈ locks) :
      Step s (.commitRetire id)
        (setControl { s with db := retireOwners s.db source, tables := purgeSource s.tables source } id none)
  | forgetGuard {s : State} {id : Nat} {source : String} (free : s.controls id = none)
      (guarded : ∀ o ∈ s.db.ownership, o.sourceId = source → Unowned o) :
      Step s (.forgetGuard id source) (setControl s id (some (.forget source)))
  | commitForget {s : State} {id : Nat} {source : String} (running : s.controls id = some (.forget source))
      (unlocked : ¬ RowLocked s source) :
      Step s (.commitForget id) (setControl { s with db := forgetSource s.db source } id none)
  | rollbackControl {s : State} {id : Nat} : Step s (.rollbackControl id) (setControl s id none)
  | ensureRow {s : State} {source table : String} {db : ControlState} (known : table ∈ contractTables)
      (ensured : ensureOwner s.db source table = some db) : Step s (.ensureRow source table) { s with db := db }
  -- a source registered or edited
  | registry {s : State} {db : ControlState} (kept : db.ownership = s.db.ownership) : Step s .registry { s with db := db }

/-- The rows of a pair in both schemas. -/
def slice (tables : String → Stores) (pair : Pair) : RawTable × RawTable :=
  ((tables pair.2).raw.restrict (ofSource pair.1),(tables pair.2).rawShadow.restrict (ofSource pair.1))

theorem restrict_congr {source : String} {a b : RawTable} (same : ∀ k, k.sourceId = source → a.get k = b.get k) :
    a.restrict (ofSource source) = b.restrict (ofSource source) := by
  refine Relation.ext_get ?_
  intro k
  simp only [Relation.restrict_get]
  by_cases inside : k.sourceId = source
  · simp [same k inside]
  · simp [ofSource,inside]

private theorem writeBatch_other {t : TableContract} {engine : Engine} {now : Int} {stage : List StagedRow} {target : String}
    {raw : RawTable} {k : Key} (absent : ∀ row ∈ stage, row.key.sourceId ≠ k.sourceId) :
    (writeBatch t engine now stage target raw).get k = raw.get k := by
  have none_staged : stagedFor stage target k = [] := by
    rw [stagedFor,List.filter_eq_nil_iff]
    intro row member staged
    simp only [decide_eq_true_eq] at staged
    exact absent row member (by rw [staged.2])
  rw [writeBatch_get,dedup_eq_none.mpr none_staged]

private theorem setTable_slice {tables : String → Stores} {table : String} {stores : Stores} {pair : Pair}
    (same : pair.2 = table → slice (fun _ => stores) pair = slice (fun _ => tables table) pair) :
    slice (setTable tables table stores) pair = slice tables pair := by
  by_cases at_table : pair.2 = table
  · have found := same at_table
    simpa [slice,setTable,at_table] using found
  · simp [slice,setTable,at_table]

private theorem commitBatch_slice {engine : Engine} {tables : String → Stores} {batch : PendingBatch} {pair : Pair}
    (absent : ∀ row ∈ batch.stage, batch.pair row ≠ pair) :
    slice (commitBatch engine tables batch) pair = slice tables pair := by
  refine setTable_slice ?_
  intro at_table
  have others : ∀ k : Key, k.sourceId = pair.1 → ∀ row ∈ batch.stage, row.key.sourceId ≠ k.sourceId := by
    intro k inside row member same
    exact absent row member (Prod.ext (same.trans inside) at_table.symm)
  simp only [slice]
  rw [restrict_congr (fun k inside => writeBatch_other (others k inside)),
    restrict_congr (fun k inside => writeBatch_other (others k inside))]

theorem commitBatches_slice {engine : Engine} {batches : List PendingBatch} {tables : String → Stores} {pair : Pair}
    (absent : ∀ batch ∈ batches, ∀ row ∈ batch.stage, batch.pair row ≠ pair) :
    slice (batches.foldl (commitBatch engine) tables) pair = slice tables pair := by
  induction batches generalizing tables with
  | nil => rfl
  | cons batch rest ih =>
    simp only [List.forall_mem_cons] at absent
    rw [List.foldl_cons,ih absent.2,commitBatch_slice absent.1]

/-- A side effect moves rows of its own pair only. -/
theorem moveShadow_keys {tables : String → Stores} {source table : String} {effect : SideEffect} {k : Key}
    (touched : k ∈ (moveShadow tables source table effect).deletedRaw ∪
        (moveShadow tables source table effect).inserted.keys ∨
      k ∈ (moveShadow tables source table effect).deletedShadow) : k.sourceId = source := by
  have restricted : ∀ raw : RawTable, k ∈ (raw.restrict (ofSource source)).keys → k.sourceId = source := by
    intro raw member
    have present := (Relation.mem_keys _ k).mp member
    simp only [Relation.restrict_get] at present
    split at present
    · next inside => simpa [ofSource] using inside
    · cases present
  cases effect with
  | PROMOTE_SHADOW =>
    simp only [moveShadow,Finset.mem_union] at touched
    rcases touched with (h | h) | h
    all_goals exact restricted _ h
  | CLEAR_SHADOW =>
    simp only [moveShadow,Finset.mem_union,Relation.empty] at touched
    rcases touched with (h | h) | h
    · simp at h
    · simp at h
    · exact restricted _ h

theorem commitMoved_slice {tables found : String → Stores} {source table : String} {effect : SideEffect} {pair : Pair}
    (other : (source,table) ≠ pair) :
    slice (commitMoved tables (moveShadow found source table effect)) pair = slice tables pair := by
  have at_table : (moveShadow found source table effect).table = table := by cases effect <;> rfl
  refine setTable_slice ?_
  intro same
  rw [at_table] at same
  have outside : ∀ k : Key, k.sourceId = pair.1 → k.sourceId ≠ source := by
    intro k inside equal
    exact other (Prod.ext (equal.symm.trans inside) same.symm)
  refine Prod.ext (restrict_congr ?_) (restrict_congr ?_)
  · intro k inside
    rw [Relation.alter_get,if_neg (fun touched => outside k inside (moveShadow_keys (.inl touched)))]
  · intro k inside
    rw [Relation.alter_get,if_neg (fun touched => outside k inside (moveShadow_keys (.inr touched)))]

theorem commitAllMoved_slice {moved : List Moved} {tables : String → Stores} (found : String → Stores) (source : String)
    {pair : Pair}
    (computed : ∀ m ∈ moved, (∃ effect, m = moveShadow found source m.table effect) ∧ (source,m.table) ≠ pair) :
    slice (moved.foldl commitMoved tables) pair = slice tables pair := by
  induction moved generalizing tables with
  | nil => rfl
  | cons m rest ih =>
    simp only [List.forall_mem_cons] at computed
    obtain ⟨⟨⟨effect,made⟩,other⟩,others⟩ := computed
    rw [List.foldl_cons,ih others,made]
    exact commitMoved_slice other

theorem purgeSource_slice {tables : String → Stores} {source : String} {pair : Pair}
    (other : pair.1 ≠ source ∨ pair.2 ∉ contractTables) :
    slice (purgeSource tables source) pair = slice tables pair := by
  by_cases known : pair.2 ∈ contractTables
  · have differs : pair.1 ≠ source := other.resolve_right (not_not_intro known)
    have kept : ∀ (raw : RawTable) (k : Key), k.sourceId = pair.1 →
        (raw.restrict (fun k => !ofSource source k)).get k = raw.get k := by
      intro raw k inside
      simp [ofSource,inside,differs]
    simp only [slice,purgeSource,known,if_true]
    rw [restrict_congr (kept _),restrict_congr (kept _)]
  · simp [slice,purgeSource,known]

theorem moveShadow_congr {tables tables' : String → Stores} {source table : String} (effect : SideEffect)
    (same : slice tables' (source,table) = slice tables (source,table)) :
    moveShadow tables' source table effect = moveShadow tables source table effect := by
  simp only [slice,Prod.mk.injEq] at same
  cases effect with
  | PROMOTE_SHADOW => simp only [moveShadow,same.1,same.2]
  | CLEAR_SHADOW => simp only [moveShadow,same.2]

/-- A promotion that sees the present rows leaves the shadow rows in production. -/
theorem promote_raw {tables : String → Stores} {source table : String} {k : Key} (inside : k.sourceId = source) :
    (commitMoved tables (moveShadow tables source table .PROMOTE_SHADOW) table).raw.get k =
      (tables table).rawShadow.get k := by
  have ours : ofSource source k = true := by simpa [ofSource] using inside
  have inserted : ∀ raw : RawTable, (raw.restrict (ofSource source)).get k = raw.get k := by
    intro raw
    simp [ours]
  simp only [commitMoved,moveShadow,setTable,if_true,Relation.alter_get,inserted]
  split
  · rfl
  · next untouched =>
    simp only [Finset.mem_union,Relation.mem_keys,inserted,not_or,Bool.not_eq_true,Option.isSome_eq_false_iff,
      Option.isNone_iff_eq_none] at untouched
    rw [untouched.1,untouched.2]

/-- The row stands in `raw` or in `raw_shadow`. -/
def Holds (tables : String → Stores) (table : String) (k : Key) (row : RawRow) : Prop :=
  (tables table).raw.get k = some row ∨ (tables table).rawShadow.get k = some row

/-- A row after a batch was there before, or carries the version of a row that was staged. -/
theorem commitBatch_holds {engine : Engine} {tables : String → Stores} {batch : PendingBatch} {table : String} {k : Key}
    {row : RawRow} (holds : Holds (commitBatch engine tables batch) table k row) :
    Holds tables table k row ∨ table = batch.contract.tableName ∧ ∃ r ∈ batch.stage, r.key = k ∧
      row.sourceGeneration = r.sourceGeneration ∧ row.sourceLsn = r.sourceLsn := by
  have written : ∀ (target : String) (raw : RawTable),
      (writeBatch batch.contract engine batch.now batch.stage target raw).get k = some row →
      raw.get k = some row ∨ ∃ r ∈ batch.stage, r.key = k ∧ row.sourceGeneration = r.sourceGeneration ∧
        row.sourceLsn = r.sourceLsn := by
    intro target raw there
    rw [writeBatch_get] at there
    cases found : dedup batch.contract batch.stage target k with
    | none =>
      rw [found] at there
      exact .inl there
    | some d =>
      rw [found] at there
      obtain ⟨r,inside,_,same,generation,lsn⟩ := dedup_staged found
      obtain rfl := Option.some.inj there
      rcases upsert_version engine batch.now d (raw.get k) with old | ⟨generation',lsn'⟩
      · exact .inl old
      · exact .inr ⟨r,inside,same,generation'.trans generation,lsn'.trans lsn⟩
  by_cases here : table = batch.contract.tableName
  · subst here
    simp only [Holds,commitBatch,setTable,if_true] at holds
    rcases holds with there | there
    · exact (written _ _ there).imp .inl (fun staged => ⟨rfl,staged⟩)
    · exact (written _ _ there).imp .inr (fun staged => ⟨rfl,staged⟩)
  · simp only [Holds,commitBatch,setTable,if_neg here] at holds
    exact .inl holds

/-- A promotion or a clearing makes no new row. -/
theorem commitMoved_holds {tables : String → Stores} {source table other : String} {effect : SideEffect} {k : Key}
    {row : RawRow} (holds : Holds (commitMoved tables (moveShadow tables source table effect)) other k row) :
    Holds tables other k row := by
  have named : (moveShadow tables source table effect).table = table := by cases effect <;> rfl
  by_cases here : other = table
  · subst here
    have inserted : (moveShadow tables source other effect).inserted.get k = some row → Holds tables other k row := by
      intro moved
      cases effect with
      | PROMOTE_SHADOW =>
        simp only [moveShadow,Relation.restrict_get] at moved
        split at moved
        · exact .inr moved
        · cases moved
      | CLEAR_SHADOW => cases moved
    simp only [Holds,commitMoved,setTable,named,if_true,Relation.alter_get] at holds
    rcases holds with there | there
    · split at there
      · exact inserted there
      · exact .inl there
    · split at there
      · cases there
      · exact .inr there
  · simp only [Holds,commitMoved,setTable,named,if_neg here] at holds
    exact holds

end FineractBi.WriteFence
