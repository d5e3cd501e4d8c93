import FineractBi.Convergence
import FineractBi.WriteFence

/-!
No committed write straddles an ownership change. While a writer holds its
shared locks, nobody but the unlocked cascade of `retire_source` can change the
ownership rows it was checked against; and what a cutover copied from the shadow
is still what the shadow holds when the cutover commits.
-/
namespace FineractBi.FenceSafety
open Calendar Runs FineractBi.Contract FineractBi.StateMachine FineractBi.Routing FineractBi.ApplyBatch
open FineractBi.WriteFence FineractBi.Convergence

/-- The references of the ownership rows to the contract. -/
def ForeignKeys (db : ControlState) : Prop := ∀ o ∈ db.ownership, o.tableName ∈ contractTables

/-- The ownership row of a staged row lets the engine write it. -/
def Fits (db : ControlState) (engine : Engine) (table : String) (row : StagedRow) : Prop :=
  engine ≠ .NONE ∧
    fencedBy engine ⟨row.key.sourceId,row.target,row.ownerEpoch⟩ (db.owner row.key.sourceId table) = false

/-- What an apply in progress has done, it has done under its locks, and what it
    copied is what it would copy now. -/
structure ApplySafe (s : State) (a : Apply) : Prop where
  tables : (a.moved.map (·.table) ++ a.todo).Nodup
  current : ∀ o, a.current = some o → ∀ table rest, a.todo = table :: rest → o.sourceId = a.source ∧ o.tableName = table
  updates : ∀ o ∈ a.updates, o.sourceId = a.source ∧ (a.source,o.tableName) ∈ a.locks
  moved : ∀ m ∈ a.moved, (a.source,m.table) ∈ a.locks ∧ ∃ effect, m = moveShadow s.tables a.source m.table effect
  cutover : a.request.action = .CUTOVER → ∀ o ∈ a.updates,
    moveShadow s.tables a.source o.tableName .PROMOTE_SHADOW ∈ a.moved

/-- What the locks alone keep, whatever the cascades delete: writers and control transactions exclude each other, rows
    are staged under the locks of their pairs, and an apply in progress is safe. -/
structure Isolated (s : State) : Prop where
  exclusive : ∀ i w j c pair, s.writers i = some w → s.controls j = some c → pair ∈ w.locks → pair ∉ c.locks
  alone : ∀ i j c d pair, s.controls i = some c → s.controls j = some d → pair ∈ c.locks → pair ∈ d.locks → i = j
  staged : ∀ i w, s.writers i = some w → ∀ batch ∈ w.pending, ∀ row ∈ batch.stage, batch.pair row ∈ w.locks
  applies : ∀ i a, s.controls i = some (.apply a) → ApplySafe s a

/-- Beside the locks: every staged row is still what its ownership row lets the engine write. -/
structure Inv (s : State) : Prop extends Isolated s where
  foreign : ForeignKeys s.db
  fenced : ∀ i w, s.writers i = some w → ∀ batch ∈ w.pending, ∀ row ∈ batch.stage,
    Fits s.db w.engine batch.contract.tableName row

theorem setWriter_writers {s : State} {id i : Nat} {new : Option Writer} {w : Writer}
    (found : (setWriter s id new).writers i = some w) : i = id ∧ new = some w ∨ s.writers i = some w := by
  simp only [setWriter] at found
  split at found
  · next same => exact .inl ⟨same,found⟩
  · exact .inr found

theorem setControl_controls {s : State} {id i : Nat} {new : Option Control} {c : Control}
    (found : (setControl s id new).controls i = some c) :
    i = id ∧ new = some c ∨ i ≠ id ∧ s.controls i = some c := by
  simp only [setControl] at found
  split at found
  · next same => exact .inl ⟨same,found⟩
  · next other => exact .inr ⟨other,found⟩

/-- The copies of an apply stay right while the rows of its pairs stay. -/
theorem ApplySafe.tables_congr {s t : State} {a : Apply} (safe : ApplySafe s a)
    (same : ∀ pair ∈ a.locks, slice t.tables pair = slice s.tables pair) : ApplySafe t a where
  tables := safe.tables
  current := safe.current
  updates := safe.updates
  moved := by
    intro m member
    obtain ⟨locked,effect,made⟩ := safe.moved m member
    exact ⟨locked,effect,made.trans (moveShadow_congr effect (same _ locked)).symm⟩
  cutover := by
    intro action o member
    rw [moveShadow_congr _ (same _ (safe.updates o member).2)]
    exact safe.cutover action o member

/-- A change of one writer that takes only granted locks. -/
theorem Isolated.setWriter {s : State} (isolated : Isolated s) {id : Nat} {new : Option Writer}
    (locks : ∀ w, new = some w → ∀ pair ∈ w.locks, (∃ old, s.writers id = some old ∧ pair ∈ old.locks) ∨
      ¬ HeldExclusive s none pair)
    (staged : ∀ w, new = some w → ∀ batch ∈ w.pending, ∀ row ∈ batch.stage, batch.pair row ∈ w.locks) :
    Isolated (setWriter s id new) where
  exclusive := by
    intro i w j c pair atWriter atControl held
    rcases setWriter_writers atWriter with ⟨rfl,changed⟩ | old
    · rcases locks w changed pair held with ⟨w',before,held'⟩ | unheld
      · exact isolated.exclusive i w' j c pair before atControl held'
      · exact fun locked => unheld ⟨j,c,by simp,atControl,locked⟩
    · exact isolated.exclusive i w j c pair old atControl held
  alone := isolated.alone
  staged := by
    intro i w atWriter
    rcases setWriter_writers atWriter with ⟨rfl,changed⟩ | old
    · exact staged w changed
    · exact isolated.staged i w old
  applies := fun i a atControl => (isolated.applies i a atControl).tables_congr (fun _ _ => rfl)

/-- A change of one control transaction that takes only granted locks. -/
theorem Isolated.setControl {s : State} (isolated : Isolated s) {id : Nat} {new : Option Control}
    (locks : ∀ c, new = some c → ∀ pair ∈ c.locks, (∃ old, s.controls id = some old ∧ pair ∈ old.locks) ∨
      ¬ HeldShared s pair ∧ ¬ HeldExclusive s (some id) pair)
    (safe : ∀ a, new = some (.apply a) → ApplySafe s a) : Isolated (setControl s id new) where
  exclusive := by
    intro i w j c pair atWriter atControl held locked
    rcases setControl_controls atControl with ⟨rfl,changed⟩ | ⟨_,old⟩
    · rcases locks c changed pair locked with ⟨c',before,locked'⟩ | ⟨unshared,_⟩
      · exact isolated.exclusive i w j c' pair atWriter before held locked'
      · exact unshared ⟨i,w,atWriter,held⟩
    · exact isolated.exclusive i w j c pair atWriter old held locked
  alone := by
    have against : ∀ c, new = some c → ∀ j d pair, j ≠ id → s.controls j = some d → pair ∈ c.locks → pair ∉ d.locks := by
      intro c changed j d pair other atOther mine theirs
      rcases locks c changed pair mine with ⟨c',before,mine'⟩ | ⟨_,granted⟩
      · exact other (isolated.alone j id d c' pair atOther before theirs mine')
      · exact granted ⟨j,d,fun same => other (Option.some.inj same),atOther,theirs⟩
    intro i j c d pair atI atJ inC inD
    rcases setControl_controls atI with ⟨rfl,changedI⟩ | ⟨otherI,oldI⟩
    · rcases setControl_controls atJ with ⟨rfl,_⟩ | ⟨otherJ,oldJ⟩
      · rfl
      · exact absurd inD (against c changedI j d pair otherJ oldJ inC)
    · rcases setControl_controls atJ with ⟨rfl,changedJ⟩ | ⟨_,oldJ⟩
      · exact absurd inC (against d changedJ i c pair otherI oldI inD)
      · exact isolated.alone i j c d pair oldI oldJ inC inD
  staged := isolated.staged
  applies := by
    intro i a atControl
    rcases setControl_controls atControl with ⟨_,changed⟩ | ⟨_,old⟩
    · exact (safe a changed).tables_congr (fun _ _ => rfl)
    · exact (isolated.applies i a old).tables_congr (fun _ _ => rfl)

/-- A change of the stores that leaves alone what is locked exclusively. -/
theorem Isolated.database {s : State} (isolated : Isolated s) (db : ControlState) {tables : String → Stores}
    (slices : ∀ i a, s.controls i = some (.apply a) → ∀ pair ∈ a.locks, slice tables pair = slice s.tables pair) :
    Isolated { s with db := db, tables := tables } where
  exclusive := isolated.exclusive
  alone := isolated.alone
  staged := isolated.staged
  applies := fun i a atControl => (isolated.applies i a atControl).tables_congr (slices i a atControl)

/-- The fence stays while the ownership rows of staged rows stay. -/
theorem Inv.fence {s t : State} (inv : Inv s) (isolated : Isolated t) (foreign : ForeignKeys t.db)
    (writers : ∀ i w, t.writers i = some w → s.writers i = some w)
    (owners : ∀ i w, s.writers i = some w → ∀ batch ∈ w.pending, ∀ row ∈ batch.stage,
      t.db.owner row.key.sourceId batch.contract.tableName = s.db.owner row.key.sourceId batch.contract.tableName) : Inv t where
  toIsolated := isolated
  foreign := foreign
  fenced := by
    intro i w atWriter batch member row staged
    have before := writers i w atWriter
    obtain ⟨named,fits⟩ := inv.fenced i w before batch member row staged
    refine ⟨named,?_⟩
    simp only [owners i w before batch member row staged]
    exact fits

/-- The row exists, is not paused, has the staged epoch and names the engine for the target. -/
def Names (engine : Engine) (row : StagedRow) (o : Ownership) : Prop :=
  o.cutoverState ≠ .PAUSED ∧ o.epoch = row.ownerEpoch ∧
    (row.target = "prod" ∧ o.engine = engine ∨ row.target = "shadow" ∧ o.shadowEngine = some engine)

theorem Fits.names {db : ControlState} {engine : Engine} {table : String} {row : StagedRow}
    (fits : Fits db engine table row) : ∃ o, db.owner row.key.sourceId table = some o ∧ Names engine row o := by
  obtain ⟨_,passes⟩ := fits
  cases owned : db.owner row.key.sourceId table with
  | none => simp [owned,fencedBy] at passes
  | some o =>
    refine ⟨o,rfl,?_⟩
    simp only [owned,fencedBy,Bool.or_eq_false_iff,decide_eq_false_iff_not,Bool.and_eq_false_iff,not_not] at passes
    obtain ⟨⟨⟨⟨epoch,running⟩,known⟩,prod⟩,shadow⟩ := passes
    refine ⟨running,epoch,?_⟩
    rcases known with isProd | isShadow
    · exact .inl ⟨isProd,prod.resolve_left (not_not_intro isProd)⟩
    · exact .inr ⟨isShadow,shadow.resolve_left (not_not_intro isShadow)⟩

private theorem updateOwners_owner {updates : List Ownership} {db : ControlState} {source table : String}
    (others : ∀ o ∈ updates, (o.sourceId,o.tableName) ≠ (source,table)) :
    (updates.foldl updateOwner db).owner source table = db.owner source table := by
  induction updates generalizing db with
  | nil => rfl
  | cons new rest ih =>
    simp only [List.forall_mem_cons] at others
    rw [List.foldl_cons,ih others.2,updateOwner,mapOwners_owner]
    cases owned : db.owner source table with
    | none => rfl
    | some o =>
      obtain ⟨_,named,tabled⟩ := (db.owner_iff source table o).mp owned
      have differs : ¬ (o.sourceId = new.sourceId ∧ o.tableName = new.tableName) := by
        rintro ⟨sources,tables⟩
        exact others.1 (by rw [← sources,← tables,named,tabled])
      simp [differs]

theorem ForeignKeys.mapOwners {db : ControlState} (foreign : ForeignKeys db) (f : Ownership → Ownership)
    (keyed : ∀ o, (f o).sourceId = o.sourceId ∧ (f o).tableName = o.tableName) :
    ForeignKeys (mapOwners db f keyed) := by
  intro o member
  obtain ⟨o',inside,rfl⟩ := List.mem_map.mp member
  rw [(keyed o').2]
  exact foreign o' inside

theorem ForeignKeys.updates {updates : List Ownership} {db : ControlState} (foreign : ForeignKeys db) :
    ForeignKeys (updates.foldl updateOwner db) := by
  induction updates generalizing db with
  | nil => exact foreign
  | cons new rest ih => exact ih (foreign.mapOwners _ _)

section Commits
variable {s : State} {id : Nat}

private theorem isolated_commitWriter (isolated : Isolated s) {w : Writer} (running : s.writers id = some w) :
    Isolated (setWriter { s with tables := w.pending.foldl (commitBatch w.engine) s.tables } id none) := by
  refine Isolated.setWriter (isolated.database s.db ?_) (by simp) (by simp)
  intro i a atControl pair locked
  refine commitBatches_slice ?_
  intro batch member row staged same
  exact isolated.exclusive id w i (.apply a) pair running atControl
    (same ▸ isolated.staged id w running batch member row staged) locked

private theorem isolated_commitApply (isolated : Isolated s) {a : Apply} (running : s.controls id = some (.apply a))
    {db : ControlState} : Isolated (setControl { s with db := db, tables := a.moved.foldl commitMoved s.tables } id
      (if a.todo = [] then none else some (.apply { a with locks := [], updates := [], moved := [] }))) := by
  have safe := isolated.applies id a running
  have ended : Isolated (setControl s id
      (if a.todo = [] then none else some (.apply { a with locks := [], updates := [], moved := [] }))) := by
    refine isolated.setControl ?_ ?_
    · intro c changed pair locked
      split at changed
      · cases changed
      · obtain rfl := Option.some.inj changed
        cases locked
    · intro b changed
      split at changed
      · cases changed
      · obtain rfl := Control.apply.inj (Option.some.inj changed)
        refine ⟨?_,safe.current,by simp,by simp,by simp⟩
        simpa using (List.nodup_append'.mp safe.tables).2.1
  refine ended.database db ?_
  intro i b atControl pair locked
  rcases setControl_controls atControl with ⟨_,changed⟩ | ⟨other,old⟩
  · split at changed
    · cases changed
    · obtain rfl := Control.apply.inj (Option.some.inj changed)
      cases locked
  · refine commitAllMoved_slice s.tables a.source ?_
    intro m member
    obtain ⟨mine,made⟩ := safe.moved m member
    refine ⟨made,?_⟩
    rintro rfl
    exact other (isolated.alone i id (.apply b) (.apply a) _ old running locked mine)

private theorem isolated_commitRetire (isolated : Isolated s) {source : String} {locks : List Pair} {db : ControlState}
    (running : s.controls id = some (.retire source locks)) (locked : ∀ t ∈ contractTables, (source,t) ∈ locks) :
    Isolated (setControl { s with db := db, tables := purgeSource s.tables source } id none) := by
  have ended : Isolated (setControl s id none) := isolated.setControl (by simp) (by simp)
  refine ended.database db ?_
  intro i b atControl pair mine
  rcases setControl_controls atControl with ⟨_,changed⟩ | ⟨other,old⟩
  · cases changed
  · refine purgeSource_slice ?_
    by_cases known : pair.2 ∈ contractTables
    · refine .inl ?_
      rintro rfl
      exact other (isolated.alone i id (.apply b) _ pair old running mine (locked pair.2 known))
    · exact .inr known

/-- An apply changes no ownership row that a staged row was checked against. -/
theorem updates_unstaged (inv : Inv s) {a : Apply} (running : s.controls id = some (.apply a)) {i : Nat} {w : Writer}
    (writing : s.writers i = some w) {batch : PendingBatch} (member : batch ∈ w.pending) {row : StagedRow}
    (staged : row ∈ batch.stage) : (a.updates.foldl updateOwner s.db).owner row.key.sourceId batch.contract.tableName =
      s.db.owner row.key.sourceId batch.contract.tableName := by
  refine updateOwners_owner ?_
  intro o updated same
  obtain ⟨ours,locked⟩ := (inv.applies id a running).updates o updated
  have pair : (a.source,o.tableName) = batch.pair row := by rw [← ours,same]; rfl
  exact inv.exclusive i w id (.apply a) _ writing running (inv.staged i w writing batch member row staged) (pair ▸ locked)

/-- A retirement changes no ownership row that a staged row was checked against. -/
theorem retire_unstaged (inv : Inv s) {source : String} {locks : List Pair}
    (running : s.controls id = some (.retire source locks))
    (locked : ∀ t ∈ contractTables, (source,t) ∈ locks) {i : Nat} {w : Writer} (writing : s.writers i = some w)
    {batch : PendingBatch} (member : batch ∈ w.pending) {row : StagedRow} (staged : row ∈ batch.stage) :
    (retireOwners s.db source).owner row.key.sourceId batch.contract.tableName =
      s.db.owner row.key.sourceId batch.contract.tableName := by
  have held := inv.staged i w writing batch member row staged
  obtain ⟨o,owned,_⟩ := (inv.fenced i w writing batch member row staged).names
  obtain ⟨inside,named,tabled⟩ := (s.db.owner_iff _ _ o).mp owned
  have other : row.key.sourceId ≠ source := by
    rintro rfl
    exact inv.exclusive i w id _ _ writing running held (locked _ (tabled ▸ inv.foreign o inside))
  rw [retireOwners,mapOwners_owner,owned]
  simp [named,other]

/-- The cascade leaves the writers alone when the rows it deletes name no engine. -/
theorem forget_unstaged (inv : Inv s) {source : String} (calm : ∀ o ∈ s.db.ownership, o.sourceId = source → Unowned o)
    {i : Nat} {w : Writer} (writing : s.writers i = some w) {batch : PendingBatch} (member : batch ∈ w.pending)
    {row : StagedRow} (staged : row ∈ batch.stage) : (forgetSource s.db source).owner row.key.sourceId batch.contract.tableName =
      s.db.owner row.key.sourceId batch.contract.tableName := by
  have fits := inv.fenced i w writing batch member row staged
  obtain ⟨o,owned,_,_,names⟩ := fits.names
  obtain ⟨inside,named,_⟩ := (s.db.owner_iff _ _ o).mp owned
  have other : row.key.sourceId ≠ source := by
    rintro rfl
    obtain ⟨unowned,unshadowed⟩ := calm o inside named
    rcases names with ⟨_,engine⟩ | ⟨_,shadow⟩
    · exact fits.1 (engine.symm.trans unowned)
    · rw [unshadowed] at shadow
      cases shadow
  rw [forgetSource_owner,if_neg other]

private theorem ensureOwner_foreign {db db' : ControlState} (foreign : ForeignKeys db) {source table : String}
    (known : table ∈ contractTables) (ensured : ensureOwner db source table = some db') : ForeignKeys db' := by
  unfold ensureOwner at ensured
  split at ensured
  · obtain rfl := Option.some.inj ensured
    intro o member
    rcases List.mem_append.mp member with old | new
    · exact foreign o old
    · rw [List.mem_singleton.mp new]
      exact known
  · cases ensured

end Commits

/-! ### Every step -/

/-- When the cascade of `retire_source` commits, the source's ownership rows name no engine. -/
def Calm (s : State) : Event → Prop
  | .commitForget id => ∀ source, s.controls id = some (.forget source) →
      ∀ o ∈ s.db.ownership, o.sourceId = source → Unowned o
  | _ => True

theorem moves_key {o o' : Ownership} {request : TransitionRequest} {effects : List SideEffect}
    (move : Moves o request o' effects) : o'.sourceId = o.sourceId ∧ o'.tableName = o.tableName := by
  cases move <;> exact ⟨rfl,rfl⟩

private theorem moves_effects {o o' : Ownership} {request : TransitionRequest} {effects : List SideEffect}
    (move : Moves o request o' effects) :
    effects.length ≤ 1 ∧ (request.action = .CUTOVER → SideEffect.PROMOTE_SHADOW ∈ effects) := by
  cases move with
  | cutover => simp
  | _ => simp_all

private theorem moveShadow_table (tables : String → Stores) (source table : String) (effect : SideEffect) :
    (moveShadow tables source table effect).table = table := by
  cases effect <;> rfl

/-- One table of an apply: the update and the copies are made under the lock. -/
theorem applySafe_transition {s : State} {a : Apply} (safe : ApplySafe s a) {table : String} {rest : List String}
    {request : TransitionRequest} {previous : Ownership} {result : TransitionResult} (next : a.todo = table :: rest)
    (locked : (a.source,table) ∈ a.locks) (read : a.current = some previous)
    (action : request.action = a.request.action)
    (accepted : StateMachine.transition previous request = .ok result) :
    ApplySafe s { a with
      todo := rest
      current := none
      updates := a.updates ++ [result.current]
      moved := a.moved ++ result.sideEffects.map (moveShadow s.tables a.source table) } := by
  obtain ⟨_,move⟩ := transition_moves accepted
  obtain ⟨source,named⟩ := safe.current previous read table rest next
  obtain ⟨sameSource,sameTable⟩ := moves_key move
  have key : result.current.sourceId = a.source ∧ result.current.tableName = table :=
    ⟨sameSource.trans source,sameTable.trans named⟩
  refine ⟨?_,by simp,?_,?_,?_⟩
  · have distinct := safe.tables
    rw [next] at distinct
    have few := (moves_effects move).1
    simp only [List.map_append,List.map_map,Function.comp_def,moveShadow_table]
    cases effects : result.sideEffects with
    | nil =>
      simp only [List.map_nil,List.append_nil]
      exact distinct.sublist (List.Sublist.append_left (List.sublist_cons_self table rest) _)
    | cons e more =>
      have only : more = [] := by simpa [effects] using few
      simpa [only] using distinct
  · intro o member
    rcases List.mem_append.mp member with old | new
    · exact safe.updates o old
    · rw [List.mem_singleton.mp new,key.1,key.2]
      exact ⟨rfl,locked⟩
  · intro m member
    rcases List.mem_append.mp member with old | new
    · exact safe.moved m old
    · obtain ⟨effect,_,rfl⟩ := List.mem_map.mp new
      rw [moveShadow_table]
      exact ⟨locked,effect,rfl⟩
  · intro isCutover o member
    rcases List.mem_append.mp member with old | new
    · exact List.mem_append_left _ (safe.cutover isCutover o old)
    · rw [List.mem_singleton.mp new,key.2]
      have promoted := (moves_effects move).2 (action.trans isCutover)
      exact List.mem_append_right _ (List.mem_map.mpr ⟨.PROMOTE_SHADOW,promoted,rfl⟩)

/-- The locks isolate the transactions in every step, those of the cascade included. -/
theorem step_isolated {s t : State} {e : Event} (isolated : Isolated s) (taken : Step s e t) : Isolated t := by
  cases taken with
  | beginWriter free => exact isolated.setWriter (by rintro _ ⟨⟩; simp) (by rintro _ ⟨⟩; simp)
  | @lockShared id w pair running granted =>
    refine isolated.setWriter ?_ ?_
    · rintro _ ⟨⟩ other held
      rcases List.mem_cons.mp held with rfl | old
      · exact .inr granted
      · exact .inl ⟨w,running,old⟩
    · rintro _ ⟨⟩ batch member row staged
      exact List.mem_cons_of_mem _ (isolated.staged id w running batch member row staged)
  | @applyBatch id w batch running locked named passed =>
    refine isolated.setWriter ?_ ?_
    · rintro _ ⟨⟩ pair held
      exact .inl ⟨w,running,held⟩
    · rintro _ ⟨⟩ other member row staged
      rcases List.mem_append.mp member with old | new
      · exact isolated.staged id w running other old row staged
      · obtain rfl := List.mem_singleton.mp new
        exact locked row staged
  | commitWriter running => exact isolated_commitWriter isolated running
  | rollbackWriter => exact isolated.setWriter (by simp) (by simp)
  | @beginApply id source tables request free distinct =>
    refine isolated.setControl (by rintro _ ⟨⟩; simp [Control.locks]) ?_
    rintro _ ⟨⟩
    exact ⟨by simpa using distinct,by simp,by simp,by simp,by simp⟩
  | @lockExclusive id a table rest running next unshared granted =>
    have safe := isolated.applies id a running
    refine isolated.setControl ?_ ?_
    · rintro _ ⟨⟩ pair held
      rcases List.mem_cons.mp held with rfl | old
      · exact .inr ⟨unshared,granted⟩
      · exact .inl ⟨.apply a,running,old⟩
    · rintro _ ⟨⟩
      refine ⟨safe.tables,safe.current,?_,?_,safe.cutover⟩
      · intro o member
        obtain ⟨ours,locked⟩ := safe.updates o member
        exact ⟨ours,List.mem_cons_of_mem _ locked⟩
      · intro m member
        obtain ⟨locked,made⟩ := safe.moved m member
        exact ⟨List.mem_cons_of_mem _ locked,made⟩
  | @readOwnership id a table rest o running next locked found =>
    have safe := isolated.applies id a running
    refine isolated.setControl ?_ ?_
    · rintro _ ⟨⟩ pair held
      exact .inl ⟨.apply a,running,held⟩
    · rintro _ ⟨⟩
      refine ⟨safe.tables,?_,safe.updates,safe.moved,safe.cutover⟩
      rintro _ ⟨⟩ table' rest' next'
      obtain ⟨_,sources,tables⟩ := (s.db.owner_iff _ _ o).mp found
      obtain ⟨rfl,_⟩ := List.cons.inj (next.symm.trans next')
      exact ⟨sources,tables⟩
  | @transition id a table rest request previous row result running next locked read action accepted stored unmoved =>
    refine isolated.setControl ?_ ?_
    · rintro _ ⟨⟩ pair held
      exact .inl ⟨.apply a,running,held⟩
    · rintro _ ⟨⟩
      exact applySafe_transition (isolated.applies id a running) next locked read action accepted
  | commitApply running done => exact isolated_commitApply isolated running
  | beginRetire free => exact isolated.setControl (by rintro _ ⟨⟩; simp [Control.locks]) (by simp)
  | @retireLock id source table locks running unshared granted =>
    refine isolated.setControl ?_ (by simp)
    rintro _ ⟨⟩ pair held
    rcases List.mem_cons.mp held with rfl | old
    · exact .inr ⟨unshared,granted⟩
    · exact .inl ⟨.retire source locks,running,old⟩
  | commitRetire running locked => exact isolated_commitRetire isolated running locked
  | forgetGuard free guarded => exact isolated.setControl (by rintro _ ⟨⟩; simp [Control.locks]) (by simp)
  | @commitForget id source running unlocked =>
    have ended : Isolated (setControl s id none) := isolated.setControl (by simp) (by simp)
    exact ended.database _ (fun _ _ _ _ _ => rfl)
  | rollbackControl => exact isolated.setControl (by simp) (by simp)
  | ensureRow known ensured => exact isolated.database _ (fun _ _ _ _ _ => rfl)
  | registry kept => exact isolated.database _ (fun _ _ _ _ _ => rfl)

/-- A batch passes the fence with rows that its ownership rows let the engine write. -/
theorem passed_fits {db : ControlState} {engine : Engine} {batch : PendingBatch} (named : engine ≠ .NONE)
    (passed : fencingCheck db batch.contract.tableName engine (claims batch.stage) = .ok ()) :
    ∀ row ∈ batch.stage,
    Fits db engine batch.contract.tableName row := by
  intro row staged
  refine ⟨named,(fencingCheck_ok _ _ _ _).mp passed ⟨row.key.sourceId,row.target,row.ownerEpoch⟩ ?_⟩
  exact List.mem_dedup.mpr (List.mem_map.mpr ⟨row,staged,rfl⟩)

theorem step_inv {s t : State} {e : Event} (inv : Inv s) (calm : Calm s e) (taken : Step s e t) : Inv t := by
  have isolated := step_isolated inv.toIsolated taken
  have same (i : Nat) (w : Writer) (found : s.writers i = some w) : s.writers i = some w := found
  cases taken with
  | @beginWriter id engine free =>
    refine ⟨isolated,inv.foreign,fun i w found => ?_⟩
    rcases setWriter_writers found with ⟨_,changed⟩ | old
    · obtain rfl := Option.some.inj changed
      simp
    · exact inv.fenced i w old
  | @lockShared id w pair running granted =>
    refine ⟨isolated,inv.foreign,fun i w' found => ?_⟩
    rcases setWriter_writers found with ⟨_,changed⟩ | old
    · obtain rfl := Option.some.inj changed
      exact inv.fenced id w running
    · exact inv.fenced i w' old
  | @applyBatch id w batch running locked named passed =>
    refine ⟨isolated,inv.foreign,fun i w' found => ?_⟩
    rcases setWriter_writers found with ⟨_,changed⟩ | old
    · obtain rfl := Option.some.inj changed
      intro other member row staged
      rcases List.mem_append.mp member with before | new
      · exact inv.fenced id w running other before row staged
      · obtain rfl := List.mem_singleton.mp new
        exact passed_fits named passed row staged
    · exact inv.fenced i w' old
  | commitWriter running =>
    refine inv.fence isolated inv.foreign (fun i w found => ?_) (fun _ _ _ _ _ _ _ => rfl)
    rcases setWriter_writers found with ⟨_,changed⟩ | old
    · cases changed
    · exact old
  | rollbackWriter =>
    refine inv.fence isolated inv.foreign (fun i w found => ?_) (fun _ _ _ _ _ _ _ => rfl)
    rcases setWriter_writers found with ⟨_,changed⟩ | old
    · cases changed
    · exact old
  | @commitApply id a running done =>
    have owners : (if a.todo = [] ∧ a.request.action = .START_SHADOW ∧ a.request.engine = some .KAFKA
        then raiseGeneration (a.updates.foldl updateOwner s.db) a.source else a.updates.foldl updateOwner s.db).ownership =
        (a.updates.foldl updateOwner s.db).ownership := by
      split <;> rfl
    refine inv.fence isolated (fun o member => inv.foreign.updates o (owners ▸ member)) same ?_
    intro i w writing batch member row staged
    refine Eq.trans ?_ (updates_unstaged inv running writing member staged)
    exact congrArg (fun ownership => List.find? _ ownership) owners
  | @commitRetire id source locks running locked =>
    have foreign : ForeignKeys (retireOwners s.db source) := inv.foreign.mapOwners _ _
    exact inv.fence isolated foreign same
      (fun _ _ writing _ member _ staged => retire_unstaged inv running locked writing member staged)
  | @commitForget id source running unlocked =>
    exact inv.fence isolated (fun o member => inv.foreign o (List.mem_of_mem_filter member)) same
      (fun _ _ writing _ member _ staged => forget_unstaged inv (calm source running) writing member staged)
  | ensureRow known ensured =>
    refine inv.fence isolated (ensureOwner_foreign inv.foreign known ensured) same ?_
    intro i w writing batch member row staged
    obtain ⟨o,owned,_⟩ := (inv.fenced i w writing batch member row staged).names
    exact (ensureOwner_owner ensured owned).trans owned.symm
  | registry kept =>
    refine inv.fence isolated (fun o member => inv.foreign o (kept ▸ member)) same ?_
    intro i w writing batch member row staged
    exact congrArg (fun ownership => List.find? _ ownership) kept
  | beginApply free distinct => exact inv.fence isolated inv.foreign same (fun _ _ _ _ _ _ _ => rfl)
  | lockExclusive running next unshared granted => exact inv.fence isolated inv.foreign same (fun _ _ _ _ _ _ _ => rfl)
  | readOwnership running next locked found => exact inv.fence isolated inv.foreign same (fun _ _ _ _ _ _ _ => rfl)
  | transition running next locked read action accepted stored unmoved =>
    exact inv.fence isolated inv.foreign same (fun _ _ _ _ _ _ _ => rfl)
  | beginRetire free => exact inv.fence isolated inv.foreign same (fun _ _ _ _ _ _ _ => rfl)
  | retireLock running unshared granted => exact inv.fence isolated inv.foreign same (fun _ _ _ _ _ _ _ => rfl)
  | forgetGuard free guarded => exact inv.fence isolated inv.foreign same (fun _ _ _ _ _ _ _ => rfl)
  | rollbackControl => exact inv.fence isolated inv.foreign same (fun _ _ _ _ _ _ _ => rfl)

/-- The database before any transaction. -/
def initial (db : ControlState) (tables : String → Stores) : State := ⟨db,tables,fun _ => none,fun _ => none⟩

theorem initial_isolated (db : ControlState) (tables : String → Stores) : Isolated (initial db tables) where
  exclusive := by simp [initial]
  alone := by simp [initial]
  staged := by simp [initial]
  applies := by simp [initial]

theorem initial_inv {db : ControlState} (foreign : ForeignKeys db) (tables : String → Stores) :
    Inv (initial db tables) := ⟨initial_isolated db tables,foreign,by simp [initial]⟩

private theorem slice_get {tables tables' : String → Stores} {source table : String} {k : Key}
    (same : slice tables' (source,table) = slice tables (source,table)) (inside : k.sourceId = source) :
    (tables' table).raw.get k = (tables table).raw.get k ∧
      (tables' table).rawShadow.get k = (tables table).rawShadow.get k := by
  have read : ∀ raw : RawTable, (raw.restrict (ofSource source)).get k = raw.get k := by
    intro raw
    simp [ofSource,inside]
  simp only [slice,Prod.mk.injEq] at same
  have raws := congrArg (Relation.get · k) same.1
  have shadows := congrArg (Relation.get · k) same.2
  simp only [read] at raws shadows
  exact ⟨raws,shadows⟩

/-- The commit of a promotion among the other copies of its transaction. -/
theorem promoted_raw {s : State} {a : Apply} (safe : ApplySafe s a) {table : String} {k : Key}
    (promoted : moveShadow s.tables a.source table .PROMOTE_SHADOW ∈ a.moved) (inside : k.sourceId = a.source) :
    (a.moved.foldl commitMoved s.tables table).raw.get k = (s.tables table).rawShadow.get k := by
  obtain ⟨before,after,split⟩ := List.append_of_mem promoted
  have distinct := (List.nodup_append'.mp safe.tables).1
  rw [split,List.map_append,List.map_cons,moveShadow_table,List.nodup_append',List.nodup_cons] at distinct
  obtain ⟨_,⟨notAfter,_⟩,across⟩ := distinct
  have made : ∀ m ∈ a.moved, ∃ effect, m = moveShadow s.tables a.source m.table effect :=
    fun m member => (safe.moved m member).2
  rw [split] at made ⊢
  simp only [List.forall_mem_append,List.forall_mem_cons] at made
  rw [List.foldl_append,List.foldl_cons]
  -- the other copies belong to other tables
  have earlier : slice (before.foldl commitMoved s.tables) (a.source,table) = slice s.tables (a.source,table) := by
    refine commitAllMoved_slice s.tables a.source ?_
    intro m member
    refine ⟨made.1 m member,fun same => ?_⟩
    exact across (List.mem_map_of_mem member) (by simp [(Prod.mk.inj same).2])
  have later : ∀ tables, slice (after.foldl commitMoved tables) (a.source,table) = slice tables (a.source,table) := by
    intro tables
    refine commitAllMoved_slice s.tables a.source ?_
    intro m member
    refine ⟨made.2.2 m member,fun same => ?_⟩
    exact notAfter ((Prod.mk.inj same).2 ▸ List.mem_map_of_mem member)
  rw [(slice_get (later _) inside).1,← moveShadow_congr _ earlier,promote_raw inside,(slice_get earlier inside).2]

/-- In every run whose cascades find unowned rows only: what a writer commits, it
    commits while the ownership row exists, is not paused, has the epoch the
    writer staged and names its engine for the target; and when a cutover
    commits, production holds the rows that the shadow held. -/
theorem no_straddling_write (db : ControlState) (tables : String → Stores) (foreign : ForeignKeys db)
    (trace : List Event) (s : State)
    (run : Run (fun s e t => Calm s e ∧ Step s e t) (initial db tables) trace s) :
    (∀ id w t, s.writers id = some w → Step s (.commitWriter id) t → ∀ batch ∈ w.pending, ∀ row ∈ batch.stage,
      ∃ o, t.db.owner row.key.sourceId batch.contract.tableName = some o ∧ Names w.engine row o) ∧
    (∀ id a t, s.controls id = some (.apply a) → Step s (.commitApply id) t → a.request.action = .CUTOVER →
      ∀ o ∈ a.updates, ∀ k : Key, k.sourceId = o.sourceId →
        (t.tables o.tableName).raw.get k = (s.tables o.tableName).rawShadow.get k) := by
  have inv : Inv s := run.stateInvariant (initial_inv foreign tables)
    (fun _ _ _ inv taken => step_inv inv taken.1 taken.2)
  refine ⟨?_,?_⟩
  · intro id w t running taken batch member row staged
    cases taken
    exact (inv.fenced id w running batch member row staged).names
  · intro id a t running taken action o updated k inside
    have safe := inv.applies id a running
    cases taken with
    | @commitApply _ b running' done =>
      obtain rfl := Control.apply.inj (Option.some.inj (running'.symm.trans running))
      exact promoted_raw safe (safe.cutover action o updated) (inside.trans (safe.updates o updated).1)

/-- No transaction in progress holds a lock. -/
structure Unlocked (s : State) : Prop where
  writers : ∀ id w, s.writers id = some w → w.locks = []
  controls : ∀ id c, s.controls id = some c → c.locks = []

section Alone
variable {s : State} {id : Nat}

theorem setControl_self (new : Option Control) : (setControl s id new).controls id = new := if_pos rfl

theorem setControl_other {i : Nat} (other : i ≠ id) (new : Option Control) : (setControl s id new).controls i = s.controls i :=
  if_neg other

private theorem setControl_setControl (new newer : Option Control) :
    setControl (setControl s id new) id newer = setControl s id newer := by
  simp only [setControl,State.mk.injEq,true_and]
  funext i
  split <;> rfl

private theorem setWriter_setWriter (new newer : Option Writer) :
    setWriter (setWriter s id new) id newer = setWriter s id newer := by
  simp only [setWriter,State.mk.injEq,true_and,and_true]
  funext i
  split <;> rfl

/-- An apply of one table, up to its commit. -/
theorem apply_alone (unlocked : Unlocked s) (free : s.controls id = none) {source table : String}
    {request : TransitionRequest} {previous : Ownership} {result : TransitionResult}
    (found : s.db.owner source table = some previous) (accepted : StateMachine.transition previous request = .ok result) :
    ∃ s₁ s₂ s₃, Step s (.beginApply id source [table] request) s₁ ∧ Step s₁ (.lockExclusive id) s₂ ∧
      Step s₂ (.readOwnership id) s₃ ∧
      s₃ = setControl s id (some (.apply ⟨source,request,[table],[(source,table)],some previous,[],[]⟩)) ∧
      Step s₃ (.transition id request) (setControl s id (some (.apply ⟨source,request,[],[(source,table)],none,
        [result.current],result.sideEffects.map (moveShadow s.tables source table)⟩))) := by
  let asking : Apply := ⟨source,request,[table],[],none,[],[]⟩
  let locking : Apply := { asking with locks := [(source,table)] }
  let reading : Apply := { locking with current := some previous }
  have unshared : ¬HeldShared (setControl s id (some (.apply asking))) (source,table) := by
    rintro ⟨i,w,writing,held⟩
    rw [unlocked.writers i w writing] at held
    cases held
  have granted : ¬HeldExclusive (setControl s id (some (.apply asking))) (some id) (source,table) := by
    rintro ⟨i,c,other,running,held⟩
    rcases setControl_controls running with ⟨same,_⟩ | ⟨_,old⟩
    · exact other (congrArg some same)
    · rw [unlocked.controls i c old] at held
      cases held
  have locked := Step.lockExclusive (a := asking) (setControl_self _) rfl unshared granted
  rw [setControl_setControl] at locked
  have read := Step.readOwnership (s := setControl s id (some (.apply locking))) (a := locking) (setControl_self _) rfl
    List.mem_cons_self found
  rw [setControl_setControl] at read
  have moved := Step.transition (s := setControl s id (some (.apply reading))) (a := reading) (setControl_self _) rfl List.mem_cons_self
    rfl rfl accepted found (congrArg Ownership.epoch (transition_moves accepted).1.symm)
  rw [setControl_setControl] at moved
  exact ⟨_,_,_,.beginApply free (List.nodup_singleton table),locked,read,rfl,moved⟩

/-- A batch of one pair, up to its commit. -/
theorem batch_alone (unlocked : Unlocked s) {engine : Engine} (running : s.writers id = some ⟨engine,[],[]⟩)
    (batch : PendingBatch) {pair : Pair} (rows : ∀ row ∈ batch.stage, batch.pair row = pair) (named : engine ≠ .NONE)
    (passed : fencingCheck s.db batch.contract.tableName engine (claims batch.stage) = .ok ()) :
    ∃ s₁, Step s (.lockShared id pair) s₁ ∧ Step s₁ (.applyBatch id batch) (setWriter s id (some ⟨engine,[pair],[batch]⟩)) := by
  have granted : ¬HeldExclusive s none pair := by
    rintro ⟨i,c,_,controlling,held⟩
    rw [unlocked.controls i c controlling] at held
    cases held
  have waiting : (setWriter s id (some ⟨engine,[pair],[]⟩)).writers id = some ⟨engine,[pair],[]⟩ := if_pos rfl
  have applied := Step.applyBatch waiting (fun row staged => by simp [rows row staged]) named passed
  rw [setWriter_setWriter] at applied
  exact ⟨_,.lockShared running granted,applied⟩

end Alone

/-- The office of a source. -/
def officePair : Pair := ("branch-001","m_office")
def officeKey : Key := ⟨"branch-001","default",1⟩
def emptyTables : String → Stores := fun _ => ⟨Relation.empty,Relation.empty⟩

/-- One event of the sink, staged with the epoch that the routing read. -/
def sinkBatch (epoch : Int) : PendingBatch := ⟨mOfficeContract,0,[{ officeEvent .u 5 with ownerEpoch := epoch }]⟩

private theorem sinkBatch_pair (epoch : Int) : ∀ row ∈ (sinkBatch epoch).stage, (sinkBatch epoch).pair row = officePair := by
  simp [sinkBatch,PendingBatch.pair,officeEvent,officePair,mOfficeContract]

/-- The office in a shadow that may be promoted. -/
def shadowed : Ownership where
  sourceId := "branch-001"
  tableName := "m_office"
  engine := .PYTHON
  shadowEngine := some .KAFKA
  cutoverState := .CUTOVER_READY
  epoch := 4
  lastReconciliationId := some 1
  shadowRequestedBy := some "operator"

def shadowedDb : ControlState where
  registry := pythonOwned.registry
  ownership := [shadowed]
  registryKey := pythonOwned.registryKey
  ownershipKey := by decide
  registryText := pythonOwned.registryText
  ownershipText := by decide

def shadowedOffice : String → Stores := fun table =>
  ⟨.empty,if table = "m_office" then .tabulate {officeKey} (fun _ => some ⟨fun _ => none,1,none,none,0,.KAFKA,false⟩) else .empty⟩

def cutover : TransitionRequest where
  action := .CUTOVER
  actor := "operator"
  reason := "migration"
  approvedBy := some "approver"
  reconciliationValid := some true

def promoted : Ownership := { shadowed with
  engine := .KAFKA, shadowEngine := none, cutoverState := .STEADY, epoch := 5, shadowRequestedBy := none }

/-- A worker of the sink is at work when the cutover of its table begins; it writes its batch when the cutover has
    committed. -/
theorem no_straddling_write_sink :
    ∃ s t u v, Run (fun s e t => Calm s e ∧ Step s e t) (initial shadowedDb shadowedOffice)
        [.beginWriter 1 .KAFKA,.beginApply 2 "branch-001" ["m_office"] cutover,.lockExclusive 2,.readOwnership 2,
          .transition 2 cutover] s ∧
      Step s (.commitApply 2) t ∧ (t.tables "m_office").raw.get officeKey = (s.tables "m_office").rawShadow.get officeKey ∧
      Run (fun s e t => Calm s e ∧ Step s e t) t [.lockShared 1 officePair,.applyBatch 1 (sinkBatch 5)] u ∧
      Step u (.commitWriter 1) v ∧
      ∃ o, v.db.owner "branch-001" "m_office" = some o ∧ Names .KAFKA { officeEvent .u 5 with ownerEpoch := 5 } o := by
  let s₁ := setWriter (initial shadowedDb shadowedOffice) 1 (some ⟨.KAFKA,[],[]⟩)
  have begun : Step (initial shadowedDb shadowedOffice) (.beginWriter 1 .KAFKA) s₁ := .beginWriter rfl
  have unlocked : Unlocked s₁ := by
    refine ⟨fun i w found => ?_,fun i c found => ?_⟩
    · rcases setWriter_writers found with ⟨_,changed⟩ | old
      · obtain rfl := Option.some.inj changed
        rfl
      · cases old
    · cases found
  have accepted : StateMachine.transition shadowed cutover = .ok ⟨shadowed,promoted,[.PROMOTE_SHADOW]⟩ := rfl
  have free : s₁.controls 2 = none := rfl
  have office : s₁.db.owner "branch-001" "m_office" = some shadowed := rfl
  obtain ⟨s₂,s₃,s₄,asked,locked,read,_,moved⟩ := apply_alone unlocked free office accepted
  have run : Run (fun s e t => Calm s e ∧ Step s e t) (initial shadowedDb shadowedOffice)
      [.beginWriter 1 .KAFKA,.beginApply 2 "branch-001" ["m_office"] cutover,.lockExclusive 2,.readOwnership 2,
        .transition 2 cutover] _ :=
    ((((Run.start.extend ⟨trivial,begun⟩).extend ⟨trivial,asked⟩).extend ⟨trivial,locked⟩).extend ⟨trivial,read⟩).extend
      ⟨trivial,moved⟩
  let ready : Apply := ⟨"branch-001",cutover,[],[officePair],none,[promoted],
    [moveShadow s₁.tables "branch-001" "m_office" .PROMOTE_SHADOW]⟩
  let t := setControl { setControl s₁ 2 (some (.apply ready)) with
    db := updateOwner shadowedDb promoted, tables := ready.moved.foldl commitMoved s₁.tables } 2 none
  have commits : Step (setControl s₁ 2 (some (.apply ready))) (.commitApply 2) t := .commitApply (a := ready) rfl (.inl rfl)
  have foreign : ForeignKeys shadowedDb := by
    intro o member
    rw [List.mem_singleton.mp member]
    decide
  have copied := (no_straddling_write shadowedDb shadowedOffice foreign _ _ run).2 2 ready t rfl commits rfl promoted
    List.mem_cons_self officeKey rfl
  have unlocked' : Unlocked t := by
    refine ⟨unlocked.writers,fun i c found => ?_⟩
    rcases setControl_controls found with ⟨_,changed⟩ | ⟨other,old⟩
    · cases changed
    · rcases setControl_controls old with ⟨same,_⟩ | ⟨_,none_there⟩
      · exact absurd same other
      · cases none_there
  have began : t.writers 1 = some ⟨.KAFKA,[],[]⟩ := rfl
  obtain ⟨s₅,shared,applied⟩ := batch_alone unlocked' began (sinkBatch 5) (sinkBatch_pair 5) (by decide) rfl
  have rest : Run (fun s e t => Calm s e ∧ Step s e t) t [.lockShared 1 officePair,.applyBatch 1 (sinkBatch 5)] _ :=
    (Run.start.extend ⟨trivial,shared⟩).extend ⟨trivial,applied⟩
  have committed : Run (fun s e t => Calm s e ∧ Step s e t) (initial shadowedDb shadowedOffice) _ t :=
    run.extend ⟨show Calm _ (.commitApply 2) from trivial,commits⟩
  have whole : Run (fun s e t => Calm s e ∧ Step s e t) (initial shadowedDb shadowedOffice) _ _ :=
    (committed.extend ⟨show Calm _ (.lockShared 1 officePair) from trivial,shared⟩).extend
      ⟨show Calm _ (.applyBatch 1 (sinkBatch 5)) from trivial,applied⟩
  have written : Step (setWriter t 1 (some ⟨.KAFKA,[officePair],[sinkBatch 5]⟩)) (.commitWriter 1) _ := .commitWriter rfl
  exact ⟨_,t,_,_,run,commits,copied,rest,written,(no_straddling_write shadowedDb shadowedOffice foreign _ _ whole).1 1 _ _
    rfl written (sinkBatch 5) List.mem_cons_self _ List.mem_cons_self⟩

/-- A source that never owned its offices, after the first transaction of `retire_source`. -/
def retired : ControlState where
  registry := [⟨"branch-001","default",0⟩]
  ownership := [bump (Discipline.registered "branch-001" "m_office")]
  registryKey := pythonOwned.registryKey
  ownershipKey := by decide
  registryText := pythonOwned.registryText
  ownershipText := by decide

def assignKafka : TransitionRequest where
  action := .ASSIGN
  actor := "operator"
  reason := "first owner"
  engine := some .KAFKA

/-- The source guard finds unowned rows; an ASSIGN commits; the sink writes under
    the new epoch; the source is deleted, with its ownership rows; the sink commits. -/
def forgottenMeanwhile : List Event :=
  [.forgetGuard 1 "branch-001",.beginApply 2 "branch-001" ["m_office"] assignKafka,.lockExclusive 2,.readOwnership 2,
    .transition 2 assignKafka,.commitApply 2,.beginWriter 1 .KAFKA,.lockShared 1 officePair,
    .applyBatch 1 (sinkBatch 3),.commitForget 1]

/-- The row is committed although its pair has no ownership row. -/
theorem committed_without_owner :
    ∃ s t, Run Step (initial retired emptyTables) forgottenMeanwhile s ∧ Step s (.commitWriter 1) t ∧
      ((t.tables "m_office").raw.get officeKey).isSome ∧ t.db.owner "branch-001" "m_office" = none := by
  let unowned : Ownership := bump (Discipline.registered "branch-001" "m_office")
  let owned : Ownership := { bump unowned with engine := .KAFKA }
  let s₁ := setControl (initial retired emptyTables) 1 (some (.forget "branch-001"))
  have guarded : Step (initial retired emptyTables) (.forgetGuard 1 "branch-001") s₁ :=
    .forgetGuard rfl (by
      intro o member _
      rw [List.mem_singleton.mp member]
      exact ⟨rfl,rfl⟩)
  -- only the deletion of the source is in progress, and it holds no lock
  have unlocked : Unlocked s₁ := by
    refine ⟨fun i w found => ?_,fun i c found => ?_⟩
    · cases found
    · rcases setControl_controls found with ⟨_,changed⟩ | ⟨_,old⟩
      · obtain rfl := Option.some.inj changed
        rfl
      · cases old
  have accepted : StateMachine.transition unowned assignKafka = .ok ⟨unowned,owned,[]⟩ := rfl
  have free : s₁.controls 2 = none := rfl
  have office : s₁.db.owner "branch-001" "m_office" = some unowned := rfl
  obtain ⟨s₂,s₃,s₄,asked,locked,read,_,moved⟩ := apply_alone unlocked free office accepted
  let updated : Apply := ⟨"branch-001",assignKafka,[],[officePair],none,[owned],[]⟩
  let s₆ := setControl { setControl s₁ 2 (some (.apply updated)) with db := updateOwner retired owned } 2 none
  have assigned : Step (setControl s₁ 2 (some (.apply updated))) (.commitApply 2) s₆ := .commitApply (a := updated) rfl (.inl rfl)
  let s₇ := setWriter s₆ 1 (some ⟨.KAFKA,[],[]⟩)
  have begun : Step s₆ (.beginWriter 1 .KAFKA) s₇ := .beginWriter rfl
  have deleting : ∀ i c, s₇.controls i = some c → c = .forget "branch-001" := by
    intro i c found
    rcases setControl_controls found with ⟨_,changed⟩ | ⟨other,old⟩
    · cases changed
    · rcases setControl_controls old with ⟨same,_⟩ | ⟨_,before⟩
      · exact absurd same other
      · rcases setControl_controls before with ⟨_,changed⟩ | ⟨_,none_there⟩
        · exact (Option.some.inj changed).symm
        · cases none_there
  have unlocked' : Unlocked s₇ := by
    refine ⟨fun i w found => ?_,fun i c found => ?_⟩
    · rcases setWriter_writers found with ⟨_,changed⟩ | old
      · obtain rfl := Option.some.inj changed
        rfl
      · cases old
    · rw [deleting i c found]
      rfl
  have began : s₇.writers 1 = some ⟨.KAFKA,[],[]⟩ := rfl
  obtain ⟨s₈,shared,applied⟩ := batch_alone unlocked' began (sinkBatch 3) (sinkBatch_pair 3) (by decide) rfl
  let s₉ := setWriter s₇ 1 (some ⟨.KAFKA,[officePair],[sinkBatch 3]⟩)
  have forgotten : Step s₉ (.commitForget 1) (setControl { s₉ with db := forgetSource s₉.db "branch-001" } 1 none) :=
    .commitForget rfl (by
      rintro ⟨i,a,found,_⟩
      cases deleting i (.apply a) found)
  have run : Run Step (initial retired emptyTables) forgottenMeanwhile _ :=
    (((((((((Run.start.extend guarded).extend asked).extend locked).extend read).extend moved).extend assigned).extend
      begun).extend shared).extend applied).extend forgotten
  exact ⟨_,_,run,.commitWriter (w := ⟨.KAFKA,[officePair],[sinkBatch 3]⟩) rfl,rfl,rfl⟩

end FineractBi.FenceSafety
