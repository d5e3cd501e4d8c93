import FineractBi.FenceSafety

/-!
What `retire_source` purges stays purged: no transaction that is in progress at
its commit, and none that begins later, brings a raw row of the source back
before an engine is assigned to the table again. The locks are enough for it,
whatever rows the cascade of a deleted source finds.
-/
namespace FineractBi.RetiredSource
open Runs FineractBi.Contract FineractBi.StateMachine FineractBi.Routing FineractBi.ApplyBatch
open FineractBi.WriteFence FineractBi.FenceSafety FineractBi.Convergence

/-- An accepted request that gives the pair an engine it does not have. -/
def Assigns (pair : Pair) (s : State) : Event → Prop
  | .transition id request =>
      (∃ a rest, s.controls id = some (.apply a) ∧ a.source = pair.1 ∧ a.todo = pair.2 :: rest) ∧
      (request.action = .ASSIGN ∨ request.action = .FORCE_ASSIGN) ∧ request.engine ≠ some .NONE
  | _ => False

/-- The row of the pair, if it is this one, names no engine. -/
def Leaves (pair : Pair) (o : Ownership) : Prop := o.sourceId = pair.1 → o.tableName = pair.2 → Unowned o

/-- No row of the pair is stored or staged, and neither its ownership row nor what an
    apply in progress has read or written of it names an engine. -/
structure Barren (pair : Pair) (s : State) : Prop where
  unowned : ∀ o, s.db.owner pair.1 pair.2 = some o → Unowned o
  unstaged : ∀ id w, s.writers id = some w → ∀ batch ∈ w.pending, ∀ row ∈ batch.stage, batch.pair row ≠ pair
  empty : ∀ k row, k.sourceId = pair.1 → ¬Holds s.tables pair.2 k row
  applies : ∀ id a, s.controls id = some (.apply a) →
    (∀ o, a.current = some o → Leaves pair o) ∧ ∀ o ∈ a.updates, Leaves pair o

/-- An apply holds the lock of the row that it has read. -/
def ReadLocked (s : State) : Prop :=
  ∀ id a, s.controls id = some (.apply a) → ∀ o, a.current = some o → (o.sourceId,o.tableName) ∈ a.locks

section
variable {s t : State} {e : Event} {pair : Pair}

private theorem readLocked_setControl {id : Nat} {new : Option Control} (held : ReadLocked s)
    (changed : ∀ a, new = some (.apply a) → ∀ o, a.current = some o → (o.sourceId,o.tableName) ∈ a.locks) :
    ReadLocked (setControl s id new) := by
  intro i a found
  rcases setControl_controls found with ⟨_,same⟩ | ⟨_,old⟩
  · exact changed a same
  · exact held i a old

private theorem readLocked_step (held : ReadLocked s) (taken : Step s e t) : ReadLocked t := by
  cases taken with
  | beginWriter free => exact held
  | lockShared running granted => exact held
  | applyBatch running locked named passed => exact held
  | commitWriter running => exact held
  | rollbackWriter => exact held
  | beginApply free distinct => exact readLocked_setControl held (by rintro _ ⟨⟩; simp)
  | @lockExclusive id a table rest running next unshared granted =>
    refine readLocked_setControl held ?_
    rintro _ ⟨⟩ o current
    exact List.mem_cons_of_mem _ (held id a running o current)
  | @readOwnership id a table rest o running next locked found =>
    refine readLocked_setControl held ?_
    rintro _ ⟨⟩ _ ⟨⟩
    obtain ⟨_,named,tabled⟩ := (s.db.owner_iff _ _ o).mp found
    rw [named,tabled]
    exact locked
  | transition running next locked read action accepted stored unmoved =>
    exact readLocked_setControl held (by rintro _ ⟨⟩; simp)
  | @commitApply id a running done =>
    have unlocked : ∀ b, (if a.todo = [] then none
        else some (Control.apply { a with locks := [], updates := [], moved := [] })) = some (.apply b) →
        ∀ o, b.current = some o → (o.sourceId,o.tableName) ∈ b.locks := by
      intro b changed o current
      split at changed
      · cases changed
      · next more =>
        obtain rfl := Control.apply.inj (Option.some.inj changed)
        have nothing := (done.resolve_left more).2
        rw [nothing] at current
        cases current
    exact readLocked_setControl (s := { s with db := _, tables := _ }) held unlocked
  | beginRetire free => exact readLocked_setControl held (by simp)
  | retireLock running unshared granted => exact readLocked_setControl held (by simp)
  | commitRetire running locked => exact readLocked_setControl (s := { s with db := _, tables := _ }) held (by simp)
  | forgetGuard free guarded => exact readLocked_setControl held (by simp)
  | commitForget running unlocked => exact readLocked_setControl (s := { s with db := _ }) held (by simp)
  | rollbackControl => exact readLocked_setControl held (by simp)
  | ensureRow known ensured => exact held
  | registry kept => exact held

private theorem commitMoved_none {tables : String → Stores} {m : Moved} {table : String} {k : Key}
    (inserts : m.table = table → m.inserted.get k = none) (empty : ∀ row, ¬Holds tables table k row) :
    ∀ row, ¬Holds (commitMoved tables m) table k row := by
  intro row holds
  by_cases here : table = m.table
  · subst here
    simp only [Holds,commitMoved,setTable,if_true,Relation.alter_get] at holds
    rcases holds with there | there
    · split at there
      · rw [inserts rfl] at there
        cases there
      · exact empty row (.inl there)
    · split at there
      · cases there
      · exact empty row (.inr there)
  · simp only [Holds,commitMoved,setTable,if_neg here] at holds
    exact empty row holds

/-- What a side effect inserts stood in the shadow. -/
theorem moveShadow_inserts {tables : String → Stores} {source table : String} {effect : SideEffect} {k : Key} {row : RawRow}
    (inserted : (moveShadow tables source table effect).inserted.get k = some row) : Holds tables table k row := by
  cases effect with
  | PROMOTE_SHADOW =>
    simp only [moveShadow,Relation.restrict_get] at inserted
    split at inserted
    · exact .inr inserted
    · cases inserted
  | CLEAR_SHADOW => cases inserted

private theorem commitAllMoved_none {moved : List Moved} {tables : String → Stores} {table : String} {k : Key}
    (inserts : ∀ m ∈ moved, m.table = table → m.inserted.get k = none) (empty : ∀ row, ¬Holds tables table k row) :
    ∀ row, ¬Holds (moved.foldl commitMoved tables) table k row := by
  induction moved generalizing tables with
  | nil => exact empty
  | cons m rest ih =>
    exact ih (fun m' inside => inserts m' (List.mem_cons_of_mem _ inside))
      (commitMoved_none (inserts m List.mem_cons_self) empty)

private theorem commitBatches_none {engine : Engine} {batches : List PendingBatch} {tables : String → Stores}
    {table : String} {k : Key}
    (stages : ∀ batch ∈ batches, ∀ r ∈ batch.stage, batch.contract.tableName = table → r.key ≠ k)
    (empty : ∀ row, ¬Holds tables table k row) : ∀ row, ¬Holds (batches.foldl (commitBatch engine) tables) table k row := by
  induction batches generalizing tables with
  | nil => exact empty
  | cons batch rest ih =>
    refine ih (fun b inside => stages b (List.mem_cons_of_mem _ inside)) ?_
    intro row holds
    rcases commitBatch_holds holds with old | ⟨named,r,staged,same,_⟩
    · exact empty row old
    · exact stages batch List.mem_cons_self r staged named.symm same

private theorem purgeSource_none {tables : String → Stores} {source table : String} {k : Key} {row : RawRow}
    (holds : Holds (purgeSource tables source) table k row) : Holds tables table k row := by
  simp only [Holds,purgeSource] at holds
  split at holds
  · simp only [Relation.restrict_get] at holds
    rcases holds with there | there
    · split at there
      · exact .inl there
      · cases there
    · split at there
      · exact .inr there
      · cases there
  · exact holds

/-- An unowned pair stays so under every request that assigns nothing. -/
theorem moves_unowned {o o' : Ownership} {request : TransitionRequest} {effects : List SideEffect}
    (move : Moves o request o' effects) (unowned : Unowned o)
    (unassigned : request.action = .ASSIGN ∨ request.action = .FORCE_ASSIGN → request.engine = some .NONE) : Unowned o' := by
  obtain ⟨none_owns,none_shadows⟩ := unowned
  cases move with
  | assign action asked named =>
    rw [unassigned (.inl action)] at asked
    exact absurd (Option.some.inj asked).symm named
  | startShadow action asked named steady owned => exact absurd none_owns owned
  | beginReconciliation => exact ⟨none_owns,none_shadows⟩
  | recordPassed => exact ⟨none_owns,none_shadows⟩
  | recordFailed => exact ⟨none_owns,none_shadows⟩
  | cutover action ready shadowed =>
    rw [none_shadows] at shadowed
    cases shadowed
  | abortShadow action shadowed =>
    rw [none_shadows] at shadowed
    cases shadowed
  | pause => exact ⟨none_owns,none_shadows⟩
  | resume => exact ⟨none_owns,none_shadows⟩
  | forceAssign action asked =>
    rw [unassigned (.inr action)] at asked
    exact ⟨(Option.some.inj asked).symm,none_shadows⟩

private theorem updateOwner_owner {db : ControlState} {new o : Ownership} {source table : String}
    (found : (updateOwner db new).owner source table = some o) :
    db.owner source table = some o ∨ o = new ∧ new.sourceId = source ∧ new.tableName = table := by
  rw [updateOwner,mapOwners_owner,Option.map_eq_some_iff] at found
  obtain ⟨old,there,changed⟩ := found
  obtain ⟨_,named,tabled⟩ := (db.owner_iff source table old).mp there
  split at changed
  · next same =>
    exact .inr ⟨changed.symm,same.1.symm.trans named,same.2.symm.trans tabled⟩
  · exact .inl (changed ▸ there)

private theorem updateOwners_unowned {updates : List Ownership} {db : ControlState}
    (leaves : ∀ o ∈ updates, Leaves pair o) (unowned : ∀ o, db.owner pair.1 pair.2 = some o → Unowned o) :
    ∀ o, (updates.foldl updateOwner db).owner pair.1 pair.2 = some o → Unowned o := by
  induction updates generalizing db with
  | nil => exact unowned
  | cons new rest ih =>
    refine ih (fun o inside => leaves o (List.mem_cons_of_mem _ inside)) ?_
    intro o found
    rcases updateOwner_owner found with old | ⟨rfl,named,tabled⟩
    · exact unowned o old
    · exact leaves o List.mem_cons_self named tabled

private theorem retireOwners_unowned {db : ControlState} {source other table : String} {o : Ownership}
    (found : (retireOwners db source).owner other table = some o) :
    (other = source ∧ Unowned o) ∨ db.owner other table = some o := by
  rw [retireOwners,mapOwners_owner,Option.map_eq_some_iff] at found
  obtain ⟨old,there,changed⟩ := found
  obtain ⟨_,named,_⟩ := (db.owner_iff other table old).mp there
  split at changed
  · next same => exact .inl ⟨named.symm.trans same,changed ▸ ⟨rfl,rfl⟩⟩
  · exact .inr (changed ▸ there)

/-- After a retirement the guard of the deletion finds unowned rows. -/
theorem retireOwners_guard {db : ControlState} {source : String} :
    ∀ o ∈ (retireOwners db source).ownership, o.sourceId = source → Unowned o := by
  intro o member named
  obtain ⟨old,_,rfl⟩ := List.mem_map.mp member
  by_cases ours : old.sourceId = source
  · rw [if_pos ours]
    exact ⟨rfl,rfl⟩
  · rw [if_neg ours] at named
    exact absurd named ours

private theorem ensureOwner_unowned {db db' : ControlState} {source table other table' : String} {o : Ownership}
    (ensured : ensureOwner db source table = some db') (found : db'.owner other table' = some o) :
    db.owner other table' = some o ∨ Unowned o := by
  unfold ensureOwner at ensured
  split at ensured
  · obtain rfl := Option.some.inj ensured
    obtain ⟨member,named⟩ := (ControlState.owner_iff _ other table' o).mp found
    rcases List.mem_append.mp member with old | new
    · exact .inl ((db.owner_iff other table' o).mpr ⟨old,named⟩)
    · obtain rfl := List.mem_singleton.mp new
      exact .inr ⟨rfl,rfl⟩
  · cases ensured

theorem Barren.setControl {id : Nat} {new : Option Control} (barren : Barren pair s)
    (changed : ∀ a, new = some (.apply a) →
      (∀ o, a.current = some o → Leaves pair o) ∧ ∀ o ∈ a.updates, Leaves pair o) : Barren pair (setControl s id new) where
  unowned := barren.unowned
  unstaged := barren.unstaged
  empty := barren.empty
  applies := by
    intro i a found
    rcases setControl_controls found with ⟨_,same⟩ | ⟨_,old⟩
    · exact changed a same
    · exact barren.applies i a old

/-- The pair stays barren when its ownership row stays unowned and no row of it is stored. -/
theorem Barren.database {db : ControlState} {tables : String → Stores} (barren : Barren pair s)
    (unowned : ∀ o, db.owner pair.1 pair.2 = some o → Unowned o)
    (empty : ∀ k row, k.sourceId = pair.1 → ¬Holds tables pair.2 k row) :
    Barren pair { s with db := db, tables := tables } := ⟨unowned,barren.unstaged,empty,barren.applies⟩

theorem Barren.setWriter {id : Nat} {new : Option Writer} (barren : Barren pair s)
    (unstaged : ∀ w, new = some w → ∀ batch ∈ w.pending, ∀ row ∈ batch.stage, batch.pair row ≠ pair) :
    Barren pair (setWriter s id new) where
  unowned := barren.unowned
  unstaged := by
    intro i w found
    rcases setWriter_writers found with ⟨_,changed⟩ | old
    · exact unstaged w changed
    · exact barren.unstaged i w old
  empty := barren.empty
  applies := barren.applies

/-- No batch that the fence lets pass has a row of the pair. -/
theorem Barren.fences {engine : Engine} {batch : PendingBatch} (barren : Barren pair s) (named : engine ≠ .NONE)
    (passed : fencingCheck s.db batch.contract.tableName engine (claims batch.stage) = .ok ()) :
    ∀ row ∈ batch.stage, batch.pair row ≠ pair := by
  rintro row staged rfl
  have fits := passed_fits named passed row staged
  obtain ⟨o,owned,_,_,names⟩ := fits.names
  obtain ⟨none_owns,none_shadows⟩ := barren.unowned o owned
  rcases names with ⟨_,owns⟩ | ⟨_,shadows⟩
  · exact named (owns.symm.trans none_owns)
  · rw [none_shadows] at shadows
    cases shadows

private theorem barren_step (isolated : Isolated s) (unassigned : ¬Assigns pair s e) (taken : Step s e t)
    (barren : Barren pair s) :
    Barren pair t := by
  cases taken with
  | beginWriter free => exact barren.setWriter (by rintro _ ⟨⟩; simp)
  | @lockShared id w pair running granted =>
    refine barren.setWriter ?_
    rintro _ ⟨⟩
    exact barren.unstaged id w running
  | @applyBatch id w batch running locked named passed =>
    refine barren.setWriter ?_
    rintro _ ⟨⟩ other member
    rcases List.mem_append.mp member with old | new
    · exact barren.unstaged id w running other old
    · rw [List.mem_singleton.mp new]
      exact barren.fences named passed
  | @commitWriter id w running =>
    refine Barren.setWriter (barren.database barren.unowned (fun k row inside => ?_)) (by simp)
    refine commitBatches_none ?_ (fun row => barren.empty k row inside) row
    rintro batch member r staged tabled rfl
    exact barren.unstaged id w running batch member r staged (Prod.ext inside tabled)
  | rollbackWriter => exact barren.setWriter (by simp)
  | beginApply free distinct => exact barren.setControl (by rintro _ ⟨⟩; simp)
  | @lockExclusive id a table rest running next unshared granted =>
    refine barren.setControl ?_
    rintro _ ⟨⟩
    exact barren.applies id a running
  | @readOwnership id a table rest o running next locked found =>
    refine barren.setControl ?_
    rintro _ ⟨⟩
    refine ⟨?_,(barren.applies id a running).2⟩
    rintro _ ⟨⟩ named tabled
    obtain ⟨_,named',tabled'⟩ := (s.db.owner_iff _ _ o).mp found
    refine barren.unowned o ?_
    rw [← named,← tabled,named',tabled']
    exact found
  | @transition id a table rest request previous row result running next locked read action accepted stored unmoved =>
    refine barren.setControl ?_
    rintro _ ⟨⟩
    refine ⟨by simp,fun o member => ?_⟩
    rcases List.mem_append.mp member with old | new
    · exact (barren.applies id a running).2 o old
    · obtain rfl := List.mem_singleton.mp new
      intro named tabled
      obtain ⟨rfl,move⟩ := transition_moves accepted
      have key := moves_key move
      obtain ⟨sourced,here⟩ := (isolated.applies id a running).current _ read table rest next
      refine moves_unowned move ((barren.applies id a running).1 _ read (key.1 ▸ named) (key.2 ▸ tabled)) (fun assigns => ?_)
      by_contra asked
      refine unassigned ⟨⟨a,rest,running,?_,?_⟩,assigns,asked⟩
      · rw [← sourced,← key.1,named]
      · rw [next,← here,← key.2,tabled]
  | @commitApply id a running done =>
    have safe := isolated.applies id a running
    have owners (source table : String) : (if a.todo = [] ∧ a.request.action = .START_SHADOW ∧ a.request.engine = some .KAFKA
        then raiseGeneration (a.updates.foldl updateOwner s.db) a.source else a.updates.foldl updateOwner s.db).owner source table =
        (a.updates.foldl updateOwner s.db).owner source table := by
      split <;> rfl
    have kept : Barren pair { s with
        db := (if a.todo = [] ∧ a.request.action = .START_SHADOW ∧ a.request.engine = some .KAFKA
          then raiseGeneration (a.updates.foldl updateOwner s.db) a.source else a.updates.foldl updateOwner s.db)
        tables := a.moved.foldl commitMoved s.tables } := by
      refine barren.database (fun o found => ?_) (fun k row inside => ?_)
      · rw [owners] at found
        exact updateOwners_unowned (barren.applies id a running).2 barren.unowned o found
      · refine commitAllMoved_none (fun m member here => ?_) (fun row => barren.empty k row inside) row
        obtain ⟨_,effect,made⟩ := safe.moved m member
        rw [here] at made
        cases inserted : m.inserted.get k with
        | none => rfl
        | some row =>
          rw [made] at inserted
          exact absurd (moveShadow_inserts inserted) (barren.empty k row inside)
    refine kept.setControl ?_
    intro b changed
    split at changed
    · cases changed
    · obtain rfl := Control.apply.inj (Option.some.inj changed)
      exact ⟨(barren.applies id a running).1,by simp⟩
  | beginRetire free => exact barren.setControl (by simp)
  | retireLock running unshared granted => exact barren.setControl (by simp)
  | @commitRetire id source locks running locked =>
    refine Barren.setControl (barren.database (fun o found => ?_) (fun k row inside holds => ?_)) (by simp)
    · rcases retireOwners_unowned found with ⟨_,unowned⟩ | old
      · exact unowned
      · exact barren.unowned o old
    · exact barren.empty k row inside (purgeSource_none holds)
  | forgetGuard free guarded => exact barren.setControl (by simp)
  | @commitForget id source running unlocked =>
    refine Barren.setControl (s := { s with db := forgetSource s.db source }) ⟨fun o found => ?_,barren.unstaged,barren.empty,barren.applies⟩
      (by simp)
    rw [forgetSource_owner] at found
    split at found
    · cases found
    · exact barren.unowned o found
  | rollbackControl => exact barren.setControl (by simp)
  | ensureRow known ensured =>
    refine ⟨fun o found => ?_,barren.unstaged,barren.empty,barren.applies⟩
    rcases ensureOwner_unowned ensured found with old | unowned
    · exact barren.unowned o old
    · exact unowned
  | @registry db kept =>
    refine barren.database (fun o found => barren.unowned o ?_) barren.empty
    rwa [ControlState.owner,kept] at found

/-- The commit of a retirement leaves every pair of the source barren. -/
theorem retired_barren (isolated : Isolated s) (held : ReadLocked s) {id : Nat} {source table : String} {locks : List Pair}
    (running : s.controls id = some (.retire source locks)) (known : table ∈ contractTables)
    (taken : Step s (.commitRetire id) t) : Barren (source,table) t := by
  cases taken with
  | @commitRetire _ source' locks' running' locked =>
    obtain ⟨rfl,rfl⟩ := Control.retire.inj (Option.some.inj (running.symm.trans running'))
    refine ⟨fun o found => ?_,?_,fun k row inside holds => ?_,fun i a found => ?_⟩
    · rw [show (setControl { s with db := retireOwners s.db source, tables := purgeSource s.tables source } id none).db =
        retireOwners s.db source from rfl,retireOwners,mapOwners_owner,Option.map_eq_some_iff] at found
      obtain ⟨old,there,changed⟩ := found
      obtain ⟨_,named,_⟩ := (s.db.owner_iff source table old).mp there
      rw [if_pos named] at changed
      exact changed ▸ ⟨rfl,rfl⟩
    · -- a writer with rows of the pair holds its lock, which the retirement excludes
      intro i w found batch member row staged same
      have shared := isolated.staged i w found batch member row staged
      rw [same] at shared
      exact isolated.exclusive i w id _ _ found running shared (locked table known)
    · rcases holds with there | there
      all_goals simp [setControl,purgeSource,known,ofSource,inside] at there
    · rcases setControl_controls found with ⟨_,changed⟩ | ⟨other,old⟩
      · cases changed
      · -- an apply that knows a row of the pair holds its lock, as the retirement does
        have alone : (source,table) ∉ a.locks :=
          fun mine => other (isolated.alone i id (.apply a) _ _ old running mine (locked table known))
        refine ⟨fun o current named tabled => ?_,fun o updated named tabled => ?_⟩
        · have mine := held i a old o current
          rw [named,tabled] at mine
          exact absurd mine alone
        · obtain ⟨ours,mine⟩ := (isolated.applies i a old).updates o updated
          rw [← ours,named,tabled] at mine
          exact absurd mine alone

end

/-- After the purge of a source commits, each table of the contract holds no row of the source and no engine owns it,
    until an engine is assigned to it again. -/
theorem purge_is_final (db : ControlState) (tables : String → Stores) (before : List Event) (s t : State)
    (run : Run Step (initial db tables) before s)
    (id : Nat) (source : String) (locks : List Pair) (retiring : s.controls id = some (.retire source locks))
    (retired : Step s (.commitRetire id) t) (table : String) (known : table ∈ contractTables) (after : List Event) (u : State)
    (rest : Run (fun s e t => ¬Assigns (source,table) s e ∧ Step s e t) t after u) :
    (∀ o, u.db.owner source table = some o → Unowned o) ∧
    ∀ k, k.sourceId = source → (u.tables table).raw.get k = none ∧ (u.tables table).rawShadow.get k = none := by
  have safe : Isolated s ∧ ReadLocked s := by
    have begun : Isolated (initial db tables) ∧ ReadLocked (initial db tables) :=
      ⟨initial_isolated db tables,by simp [ReadLocked,initial]⟩
    exact run.stateInvariant (I := fun s => Isolated s ∧ ReadLocked s) begun
      (fun _ _ _ safe taken => ⟨step_isolated safe.1 taken,readLocked_step safe.2 taken⟩)
  have purged : Isolated t ∧ Barren (source,table) t :=
    ⟨step_isolated safe.1 retired,retired_barren safe.1 safe.2 retiring known retired⟩
  obtain ⟨_,barren⟩ := rest.stateInvariant (I := fun s => Isolated s ∧ Barren (source,table) s) purged
    (fun _ _ _ safe taken => ⟨step_isolated safe.1 taken.2,barren_step safe.1 taken.1 taken.2 safe.2⟩)
  refine ⟨barren.unowned,fun k inside => ⟨?_,?_⟩⟩
  · exact Option.eq_none_iff_forall_ne_some.mpr (fun row there => barren.empty k row inside (.inl there))
  · exact Option.eq_none_iff_forall_ne_some.mpr (fun row there => barren.empty k row inside (.inr there))

/-- A retirement that is the only transaction. -/
structure Retiring (source : String) (locks : List Pair) (s : State) : Prop where
  writers : ∀ id, s.writers id = none
  others : ∀ id, id ≠ 1 → s.controls id = none
  running : s.controls 1 = some (.retire source locks)

private theorem locks_run {origin s : State} {earlier : List Event} {source : String} (retiring : Retiring source [] s)
    (begun : Run Step origin earlier s) (names : List String) : ∃ t locks,
      Run Step origin (earlier ++ names.map (Event.retireLock 1)) t ∧ t.db = s.db ∧
      t.tables = s.tables ∧ Retiring source locks t ∧ ∀ table ∈ names, (source,table) ∈ locks := by
  induction names using List.reverseRecOn with
  | nil => exact ⟨s,[],by simpa using begun,rfl,rfl,retiring,by simp⟩
  | append_singleton rest table ih =>
    obtain ⟨t,locks,run,same_db,same_tables,retiring,held⟩ := ih
    have unshared : ¬HeldShared t (source,table) := by
      rintro ⟨id,w,writing,_⟩
      rw [retiring.writers id] at writing
      cases writing
    have granted : ¬HeldExclusive t (some 1) (source,table) := by
      rintro ⟨id,c,other,controlling,_⟩
      rw [retiring.others id (fun same => other (congrArg some same))] at controlling
      cases controlling
    have locked := Step.retireLock retiring.running unshared granted
    refine ⟨setControl t 1 (some (.retire source ((source,table) :: locks))),(source,table) :: locks,?_,same_db,same_tables,?_,?_⟩
    · rw [List.map_append,← List.append_assoc]
      exact run.extend locked
    · refine ⟨retiring.writers,fun id other => ?_,by simp [setControl]⟩
      simp [setControl,other,retiring.others id other]
    · intro name member
      rcases List.mem_append.mp member with old | new
      · exact List.mem_cons_of_mem _ (held name old)
      · exact List.mem_cons.mpr (.inl (by rw [List.mem_singleton.mp new]))

/-- An office and a client of a source, both tables owned by KAFKA. -/
def officeAndClient : ControlState where
  registry := kafkaOwned.registry
  ownership := [⟨"branch-001","m_office",.KAFKA,none,.STEADY,2,none,none⟩,⟨"branch-001","m_client",.KAFKA,none,.STEADY,2,none,none⟩]
  registryKey := kafkaOwned.registryKey
  ownershipKey := by decide
  registryText := kafkaOwned.registryText
  ownershipText := by decide

def storedClient : String → Stores := fun table =>
  if table = "m_client" then ⟨.tabulate {officeKey} (fun _ => some ⟨fun _ => none,1,none,none,0,.KAFKA,false⟩),.empty⟩
  else ⟨.empty,.empty⟩

/-- The offices when the source is retired. -/
def retiredOffice : Ownership where
  sourceId := "branch-001"
  tableName := "m_office"
  engine := .NONE
  shadowEngine := none
  cutoverState := .STEADY
  epoch := 3

/-- The source is retired. While its row is deleted its offices are assigned again: the cascade finds an owned row, and
    the client stays gone. -/
theorem purge_is_final_client : ((storedClient "m_client").raw.get officeKey).isSome ∧
    ∃ s t u, Run Step (initial officeAndClient storedClient)
        ([.beginRetire 1 "branch-001"] ++ contractTables.map (Event.retireLock 1)) s ∧ Step s (.commitRetire 1) t ∧
      Run (fun s e t => ¬Assigns ("branch-001","m_client") s e ∧ Step s e t) t
        [.forgetGuard 1 "branch-001",.beginApply 2 "branch-001" ["m_office"] assignKafka,.lockExclusive 2,.readOwnership 2,
          .transition 2 assignKafka,.commitApply 2,.commitForget 1] u ∧ (u.tables "m_client").raw.get officeKey = none := by
  let s₁ := setControl (initial officeAndClient storedClient) 1 (some (.retire "branch-001" []))
  have begun : Step (initial officeAndClient storedClient) (.beginRetire 1 "branch-001") s₁ := .beginRetire rfl
  have retiring : Retiring "branch-001" [] s₁ := by
    refine ⟨fun _ => rfl,fun id other => ?_,rfl⟩
    simp [s₁,setControl,initial,other]
  have first : Run Step (initial officeAndClient storedClient) [.beginRetire 1 "branch-001"] s₁ := Run.start.extend begun
  obtain ⟨s,locks,run,same_db,same_tables,retiring,held⟩ := locks_run retiring first contractTables
  have retired : Step s (.commitRetire 1) _ := .commitRetire retiring.running held
  let t := setControl { s with db := retireOwners s.db "branch-001", tables := purgeSource s.tables "branch-001" } 1 none
  have owners : t.db = retireOwners officeAndClient "branch-001" := congrArg (retireOwners · "branch-001") same_db
  have idle (i : Nat) : t.controls i = none := by
    by_cases same : i = 1
    · simp [t,setControl,same]
    · simp [t,setControl,same,retiring.others i same]
  have guard : ∀ o ∈ t.db.ownership, o.sourceId = "branch-001" → Unowned o := by
    rw [owners]
    exact retireOwners_guard
  let u₁ := setControl t 1 (some (.forget "branch-001"))
  have guarded : Step t (.forgetGuard 1 "branch-001") u₁ := .forgetGuard (idle 1) guard
  have deleting : ∀ i c, i ≠ 2 → u₁.controls i = some c → c = .forget "branch-001" := by
    intro i c _ found
    rcases setControl_controls found with ⟨_,changed⟩ | ⟨_,old⟩
    · exact (Option.some.inj changed).symm
    · rw [idle i] at old
      cases old
  have idle_two : u₁.controls 2 = none := (setControl_other (by decide) _).trans (idle 2)
  have unlocked : Unlocked u₁ := by
    refine ⟨fun i w found => ?_,fun i c found => ?_⟩
    · exact absurd ((retiring.writers i).symm.trans found) (by simp)
    · by_cases two : i = 2
      · subst two
        rw [idle_two] at found
        cases found
      · rw [deleting i c two found]
        rfl
  have office : u₁.db.owner "branch-001" "m_office" = some retiredOffice := by
    show t.db.owner "branch-001" "m_office" = some retiredOffice
    rw [owners]
    rfl
  have accepted : StateMachine.transition retiredOffice assignKafka =
    .ok ⟨retiredOffice,{ bump retiredOffice with engine := .KAFKA },[]⟩ := rfl
  obtain ⟨u₂,u₃,u₄,asked,locked,read,reading,moved⟩ := apply_alone unlocked idle_two office accepted
  let updated : Apply := ⟨"branch-001",assignKafka,[],[officePair],none,[{ bump retiredOffice with engine := .KAFKA }],[]⟩
  let u₅ := setControl u₁ 2 (some (.apply updated))
  let u₆ := setControl { u₅ with db := updateOwner u₁.db { bump retiredOffice with engine := .KAFKA } } 2 none
  have assigned : Step u₅ (.commitApply 2) u₆ := .commitApply (a := updated) (setControl_self _) (.inl rfl)
  have forgotten : Step u₆ (.commitForget 1) (setControl { u₆ with db := forgetSource u₆.db "branch-001" } 1 none) := by
    refine .commitForget rfl ?_
    rintro ⟨i,a,found,_⟩
    rcases setControl_controls found with ⟨_,changed⟩ | ⟨other,old⟩
    · cases changed
    · rcases setControl_controls old with ⟨same,_⟩ | ⟨_,before⟩
      · exact other same
      · cases deleting i (.apply a) other before
  -- the request assigns another table
  have other : ¬Assigns ("branch-001","m_client") u₄ (.transition 2 assignKafka) := by
    rintro ⟨⟨a,rest,running,_,next⟩,_⟩
    rw [reading,setControl_self] at running
    obtain rfl := Control.apply.inj (Option.some.inj running)
    exact absurd (List.cons.inj next).1 (by decide)
  have rest : Run (fun s e t => ¬Assigns ("branch-001","m_client") s e ∧ Step s e t) t
      [.forgetGuard 1 "branch-001",.beginApply 2 "branch-001" ["m_office"] assignKafka,.lockExclusive 2,.readOwnership 2,
        .transition 2 assignKafka,.commitApply 2,.commitForget 1] _ :=
    ((((((Run.start.extend ⟨id,guarded⟩).extend ⟨id,asked⟩).extend ⟨id,locked⟩).extend ⟨id,read⟩).extend
      ⟨other,moved⟩).extend ⟨id,assigned⟩).extend ⟨id,forgotten⟩
  refine ⟨by simp [storedClient,officeKey],s,t,_,run,retired,rest,?_⟩
  exact ((purge_is_final officeAndClient storedClient _ s t run 1 "branch-001" locks retiring.running retired "m_client"
    (by decide) _ _ rest).2 officeKey rfl).1

end FineractBi.RetiredSource
