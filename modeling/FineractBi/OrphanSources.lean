import FineractBi.FenceSafety
import FineractBi.RetiredMarts

/-!
The test `assert_no_orphan_sources_in_marts` over the whole platform: the sources of
the derived tables are registered and not retired, after any calls, dbt runs,
assignments and retirements. The fence is what keeps a retired source out of the raw
tables, and the deletes of `retire_source` what takes it out of the derived ones.
-/
namespace FineractBi.OrphanSources
open Calendar Query Refresh Runs FineractBi.Contract FineractBi.ApplyBatch FineractBi.Staging FineractBi.LoanSnapshot
open FineractBi.FactBuild FineractBi.FactContent FineractBi.ChangeTracking FineractBi.ParMart FineractBi.MartRefresh FineractBi.MartRuns FineractBi.RepaymentRefresh
open FineractBi.Delinquency (StagedEvent)
open FineractBi.DelinquencyEventFact (EventRow Ordered eventRows DeletesAndInserts)
open FineractBi.FactIncremental (append_deletes deletes_get sampleProject newYear upserted)
open FineractBi.RepaymentIncremental (AllMarts)
open FineractBi.RepaymentMart (MartRow)
open FineractBi.StateMachine (Engine Ownership)
open FineractBi.Routing (ControlState)
open FineractBi.WriteFence (retireOwners mapOwners_owner)

/-- The warehouse with its marts and events, the control tables, and the sources of the registry that are not retired. -/
structure Platform where
  warehouse : AllMarts
  events : Multiset EventRow
  db : ControlState
  live : Finset String

/-- `derived_sources`: the distinct sources of the five tables. -/
def derivedSources (s : Platform) : Finset String :=
  ((factRows s.warehouse.warehouse.factLoanSnapshot).map (fun f => f.1.1.sourceId)).toFinset ∪
    (s.events.map (fun r => r.delinquencyEventId.sourceId)).toFinset ∪
    (((s.warehouse.contents .delinquencyPar).getD 0).map (fun r => (Mart.key .delinquencyPar r).sourceId)).toFinset ∪
    (((s.warehouse.contents .portfolioHealth).getD 0).map (fun r => (Mart.key .portfolioHealth r).sourceId)).toFinset ∪
    ((s.warehouse.repaymentBehavior.getD 0).map (fun r => r.key.sourceId)).toFinset

/-- What the test selects. -/
def assertNoOrphanSourcesInMarts (s : Platform) : Finset String := (derivedSources s).filter (· ∉ s.live)

/-- An engine owns or shadows tables of live sources only. -/
def OwnsLive (db : ControlState) (live : Finset String) : Prop :=
  ∀ o ∈ db.ownership, o.engine ≠ .NONE ∨ o.shadowEngine.isSome → o.sourceId ∈ live

instance (db : ControlState) (live : Finset String) : Decidable (OwnsLive db live) := inferInstanceAs (Decidable (∀ o ∈ _, _))

inductive Op
  | applyStagedBatch (txid : Nat) (table : Table) (engine : Engine) (now : Int) (today : Date) (stage : List StagedRow)
  | promoteShadow (txid : Nat) (table : Table) (source : String)
  | dbtRun (fullRefresh : Bool) (today : Date) (built : Finset Consumer) (events : Option (List StagedEvent))
  | assign (db : ControlState)
  | register (source : String)
  | retireSource (source : String) (txid : Nat)

section
variable (p : Project) (merge : Multiset EventRow → Multiset EventRow → Multiset EventRow)

/-- `fact_delinquency_event` after a run that builds it from events in some order. -/
def eventsAfter (fullRefresh : Bool) (today : Date) (rows : Multiset EventRow) : Option (List StagedEvent) → Multiset EventRow
  | none => rows
  | some events => if fullRefresh then eventRows p.hashes today events else merge rows (eventRows p.hashes today events)

/-- The steps of the platform. A shadow is promoted of a table that an engine shadows, and no engine is assigned to a source
    that is not live. -/
inductive Step : Platform → Op → Platform → Prop
  | applyStagedBatch {s : Platform} {txid : Nat} {table : Table} {engine : Engine} {now : Int} {today : Date}
      {stage : List StagedRow} {after : AllMarts}
      (taken : RepaymentIncremental.next p s.warehouse (.applyStagedBatch txid table engine now today s.db stage) = some after) :
      Step s (.applyStagedBatch txid table engine now today stage) { s with warehouse := after }
  | promoteShadow {s : Platform} {txid : Nat} {table : Table} {source : String} {after : AllMarts} {o : Ownership}
      (owner : s.db.owner source (contract table).tableName = some o) (shadowed : o.shadowEngine.isSome)
      (taken : RepaymentIncremental.next p s.warehouse (.promoteShadow txid table source s.db) = some after) :
      Step s (.promoteShadow txid table source) { s with warehouse := after }
  | dbtRun {s : Platform} {fullRefresh : Bool} {today : Date} {built : Finset Consumer} {events : Option (List StagedEvent)}
      {after : AllMarts} (ordered : ∀ es, events = some es → Ordered s.warehouse.raw es)
      (taken : RepaymentIncremental.next p s.warehouse (.dbtRun fullRefresh today built) = some after) :
      Step s (.dbtRun fullRefresh today built events)
        { s with warehouse := after, events := eventsAfter p merge fullRefresh today s.events events }
  | assign {s : Platform} {db : ControlState} (owns : OwnsLive db s.live) : Step s (.assign db) { s with db := db }
  | register {s : Platform} {source : String} : Step s (.register source) { s with live := insert source s.live }
  | retireSource {s : Platform} {source : String} {txid : Nat} (fresh : s.warehouse.warehouse.openFrom ≤ txid) :
      Step s (.retireSource source txid)
        { warehouse := RetiredMarts.purge source txid s.warehouse
          events := s.events.filter (fun r => r.delinquencyEventId.sourceId ≠ source)
          db := retireOwners s.db source
          live := s.live.erase source }

end

/-- The rows of a call are of live sources. -/
structure Stored (live : Finset String) (stores : Stores) : Prop where
  raw : ∀ k, (stores.raw.get k).isSome → k.sourceId ∈ live
  shadow : ∀ k, (stores.rawShadow.get k).isSome → k.sourceId ∈ live

/-- The sources of the raw tables. -/
def Raw (live : Finset String) (raw : RawTables) : Prop := ∀ t k, (raw t |>.get k).isSome → k.sourceId ∈ live

/-- Every table has rows of live sources only. -/
structure Covered (s : Platform) : Prop where
  owns : OwnsLive s.db s.live
  stores : ∀ t, Stored s.live (s.warehouse.warehouse.stores t)
  fact : ∀ f ∈ factRows s.warehouse.warehouse.factLoanSnapshot, f.1.1.sourceId ∈ s.live
  contents : ∀ m rows, s.warehouse.contents m = some rows → ∀ r ∈ rows, (m.key r).sourceId ∈ s.live
  repayment : ∀ rows, s.warehouse.repaymentBehavior = some rows → ∀ r ∈ rows, r.key.sourceId ∈ s.live
  events : ∀ r ∈ s.events, r.delinquencyEventId.sourceId ∈ s.live

section Sources
variable {h : Hashes} {live : Finset String} {raw : RawTables} {fact : Multiset FactEntry} {run : Option MartRun}

private theorem raw_of_staged {Row : Type} {t : Table} {read : (Column → Option Value) → Row} {k : Key} {row : Row}
    (covered : Raw live raw) (found : (staged (raw t) read).get k = some row) : k.sourceId ∈ live := by
  refine covered t k (Option.isSome_iff_ne_none.mpr (fun absent => ?_))
  simp [staged,absent] at found

/-- A row that a build of the fact table selects is one of a stored loan. -/
theorem selected_live {scope : Relation Key Scope} {today d : Date} {l : Key} {row : FactRow} (covered : Raw live raw)
    (found : (selectFact h raw scope today).get (l,d) = some row) : l.sourceId ∈ live := by
  obtain ⟨_,base,_,_,at_base,_⟩ := MartIncremental.selectFact_some found
  have stored : (stgMLoan raw).get l = some base.loan := (loanBase_eq_some.mp at_base).1
  exact raw_of_staged covered stored

/-- A row of the fact table after a build was there before, or is of a stored loan. -/
theorem built_live {scope : Relation Key Scope} {today : Date} {fullRefresh : Bool} {before : Option FactTable}
    {after : FactTable}
    (covered : Raw live raw) (old : ∀ f ∈ factRows before, f.1.1.sourceId ∈ live)
    (built : buildFact h raw scope today fullRefresh before = some after) :
    ∀ f ∈ factRows (some after), f.1.1.sourceId ∈ live := by
  rintro ⟨⟨l,d⟩,row⟩ inside
  have found : after.get (l,d) = some row := Relation.mem_rows.mp inside
  have selected (same : some (selectFact h raw scope today) = some after) : l.sourceId ∈ live := by
    obtain rfl := Option.some.inj same
    exact selected_live covered found
  cases fullRefresh with
  | true => exact selected built
  | false =>
    cases before with
    | none => exact selected built
    | some table =>
      rw [buildFact,append_deletes] at built
      obtain rfl := Option.some.inj built
      rw [Relation.union_get,Option.or_eq_some_iff] at found
      rcases found with kept | ⟨_,new⟩
      · have there : table.get (l,d) = some row := by
          rw [deletes_get] at kept
          split at kept
          · exact kept
          · split at kept
            · exact kept
            · cases kept
        exact old ((l,d),row) (Relation.mem_rows.mpr there)
      · exact selected_live covered new

/-- A row that a build of a mart inserts is of a group of the fact table. -/
theorem select_live {m : Mart} (covered : ∀ f ∈ fact, f.1.1.sourceId ∈ live) :
    ∀ r ∈ m.select h run fact raw, (m.key r).sourceId ∈ live := by
  intro r inside
  by_contra outside
  have empty : groupRows run fact (m.key r) = 0 := by
    refine Multiset.eq_zero_of_forall_notMem (fun f member => outside ?_)
    obtain ⟨among,keyed⟩ := Multiset.mem_filter.mp member
    have source : f.1.1.sourceId = (m.key r).sourceId := congrArg ParKey.sourceId keyed
    rw [← source]
    refine covered f ?_
    cases run with
    | none => exact among
    | some run => exact Multiset.mem_of_le (Multiset.filter_le _ _) (portfolioBase_eq ▸ among)
  have there : r ∈ atKey m.key (m.key r) (m.select h run fact raw) := Multiset.mem_filter.mpr ⟨inside,rfl⟩
  rw [select_empty m empty] at there
  exact Multiset.notMem_zero r there

/-- A build makes a table anew, or keeps a part of it and inserts into it. -/
theorem rebuilt_live {Row : Type} {inside : Row → Prop} {rows : Option (Multiset Row)} {full part after : Multiset Row}
    (shape : after = full ∨ ∃ before, rows = some before ∧ ∃ kept ≤ before, after = kept + part)
    (full_live : ∀ r ∈ full, inside r) (part_live : ∀ r ∈ part, inside r)
    (old : ∀ before, rows = some before → ∀ r ∈ before, inside r) : ∀ r ∈ after, inside r := by
  rcases shape with rfl | ⟨before,found,kept,fewer,rfl⟩
  · exact full_live
  · intro r member
    rcases Multiset.mem_add.mp member with there | new
    · exact old before found r (Multiset.mem_of_le fewer there)
    · exact part_live r new

private theorem mart_live {m : Mart} {fullRefresh : Bool} {window : MartRun} {rows : Option (Multiset m.Row)}
    (covered : ∀ f ∈ fact, f.1.1.sourceId ∈ live) (old : ∀ before, rows = some before → ∀ r ∈ before, (m.key r).sourceId ∈ live) :
    ∀ r ∈ m.build h fullRefresh window fact raw rows, (m.key r).sourceId ∈ live := by
  have new (run : Option MartRun) : ∀ r ∈ m.select h run fact raw, (m.key r).sourceId ∈ live := select_live covered
  refine rebuilt_live ?_ (new none) (new (some window)) old
  cases fullRefresh with
  | true => exact .inl rfl
  | false =>
    cases rows with
    | none => exact .inl rfl
    | some before => exact .inr ⟨before,rfl,_,Multiset.filter_le _ _,rfl⟩

/-- A row that a build of `mart_repayment_behavior` inserts is of a stored transaction or installment. -/
theorem repayment_live (covered : Raw live raw) : ∀ r ∈ martRepaymentBehavior h run raw, r.key.sourceId ∈ live := by
  intro r inside
  have there : r ∈ atKey MartRow.key r.key (martRepaymentBehavior h run raw) := Multiset.mem_filter.mpr ⟨inside,rfl⟩
  rw [mart_at] at there
  split at there
  · by_contra outside
    rw [groupOf_empty] at there
    · exact Multiset.notMem_zero r there
    · intro e keyed counts
      refine outside (keyed ▸ ?_)
      rw [counts.1.key_source]
      cases e with
      | posted posted => exact counts.1.2.1.1 ▸ raw_of_staged covered counts.1.1
      | due due => exact counts.1.2.1 ▸ raw_of_staged covered counts.1.1
  · exact absurd there (Multiset.notMem_zero r)

private theorem repaymentMart_live {fullRefresh : Bool} {window : MartRun} {rows : Option (Multiset MartRow)}
    (covered : Raw live raw)
    (old : ∀ before, rows = some before → ∀ r ∈ before, r.key.sourceId ∈ live) :
    ∀ r ∈ build h fullRefresh window raw rows, r.key.sourceId ∈ live := by
  have new (run : Option MartRun) : ∀ r ∈ martRepaymentBehavior h run raw, r.key.sourceId ∈ live := repayment_live covered
  refine rebuilt_live ?_ (new none) (new (some window)) old
  cases fullRefresh with
  | true => exact .inl rfl
  | false =>
    cases rows with
    | none => exact .inl rfl
    | some before => exact .inr ⟨before,rfl,_,Multiset.filter_le _ _,rfl⟩

/-- The events of a run are of stored tags. -/
theorem eventRows_live {today : Date} {events : List StagedEvent} (covered : Raw live raw) (single : SingleMapping raw)
    (ordered : Ordered raw events) : ∀ r ∈ eventRows h today events, r.delinquencyEventId.sourceId ∈ live := by
  intro r inside
  have id_listed : r.delinquencyEventId ∈ (eventRows h today events).map (·.delinquencyEventId) :=
    Multiset.mem_map.mpr ⟨r,inside,rfl⟩
  rw [DelinquencyEventFact.eventRows_ids,DelinquencyEventFact.ordered_ids ordered (Delinquency.SingleMapping.mappedOnce single)]
    at id_listed
  obtain ⟨tag,found⟩ := Option.isSome_iff_exists.mp ((Relation.mem_keys _ _).mp id_listed)
  exact raw_of_staged covered found

end Sources

section Steps
variable {p : Project} {merge : Multiset EventRow → Multiset EventRow → Multiset EventRow} {s t : Platform} {live : Finset String}

theorem Covered.raw (covered : Covered s) : Raw s.live s.warehouse.raw := fun t => (covered.stores t).raw

/-- An engine that owns or shadows a table does so for a live source. -/
theorem OwnsLive.owner {db : ControlState} {source table : String} {o : Ownership} (owns : OwnsLive db live)
    (owner : db.owner source table = some o) (named : o.engine ≠ .NONE ∨ o.shadowEngine.isSome) : source ∈ live := by
  obtain ⟨member,own,_⟩ := (db.owner_iff source table o).mp owner
  exact own ▸ owns o member named

/-- The fence lets through rows of live sources only. -/
theorem writeBatch_live {db : ControlState} {t : TableContract} {engine : Engine} {now : Int} {stage : List StagedRow}
    {target : String} {raw : RawTable} (owns : OwnsLive db live) (named : engine ≠ .NONE)
    (passed : Routing.fencingCheck db t.tableName engine
      (stage.map (fun row => ⟨row.key.sourceId,row.target,row.ownerEpoch⟩)).dedup = .ok ())
    (stored : ∀ k, (raw.get k).isSome → k.sourceId ∈ live) :
    ∀ k, ((writeBatch t engine now stage target raw).get k).isSome → k.sourceId ∈ live := by
  intro k present
  rw [writeBatch_get] at present
  cases found : dedup t stage target k with
  | none =>
    rw [found] at present
    exact stored k present
  | some d =>
    obtain ⟨row,staged,_,rfl,_⟩ := dedup_staged found
    have claimed : (⟨row.key.sourceId,row.target,row.ownerEpoch⟩ : Routing.StagedClaim) ∈
        (stage.map (fun row => (⟨row.key.sourceId,row.target,row.ownerEpoch⟩ : Routing.StagedClaim))).dedup :=
      List.mem_dedup.mpr (List.mem_map.mpr ⟨row,staged,rfl⟩)
    have fits : FenceSafety.Fits db engine t.tableName row := ⟨named,(Routing.fencingCheck_ok ..).mp passed _ claimed⟩
    obtain ⟨o,owner,_,_,names⟩ := fits.names
    refine owns.owner owner ?_
    rcases names with ⟨_,own⟩ | ⟨_,shadow⟩
    · exact .inl (own ▸ named)
    · exact .inr (by simp [shadow])

/-- A committed call changes one table and the log. -/
theorem Covered.commit (covered : Covered s) {txid : Nat} {name : Table} {after : Stores} {log : List LogEntry}
    (stored : Stored s.live after) : Covered { s with
      warehouse := ⟨MartIncremental.committed s.warehouse.toMarts txid name after log,s.warehouse.repaymentBehavior⟩ } where
  owns := covered.owns
  stores t := by
    by_cases same : t = name
    · subst same
      simpa [MartIncremental.committed,Warehouse.commit] using stored
    · simpa [MartIncremental.committed,Warehouse.commit,same] using covered.stores t
  fact := covered.fact
  contents := covered.contents
  repayment := covered.repayment
  events := covered.events

private theorem run_stores {s t : Marts} {fullRefresh : Bool} {today : Date} {built : Finset Consumer}
    (taken : MartRuns.run p fullRefresh today built s = some t) : t.warehouse.stores = s.warehouse.stores := by
  obtain ⟨after,built_fact,rfl⟩ := Option.map_eq_some_iff.mp taken
  obtain ⟨fact,_,rfl⟩ := Option.map_eq_some_iff.mp built_fact
  rfl

private theorem eventsAfter_live {fullRefresh : Bool} {today : Date} {events : Option (List StagedEvent)}
    (merges : DeletesAndInserts merge)
    (covered : Covered s) (single : SingleMapping s.warehouse.raw) (ordered : ∀ es, events = some es → Ordered s.warehouse.raw es) :
    ∀ r ∈ eventsAfter p merge fullRefresh today s.events events, r.delinquencyEventId.sourceId ∈ s.live := by
  cases events with
  | none => exact covered.events
  | some es =>
    have new : ∀ r ∈ eventRows p.hashes today es, r.delinquencyEventId.sourceId ∈ s.live :=
      eventRows_live covered.raw single (ordered es rfl)
    cases fullRefresh with
    | true => exact new
    | false =>
      intro r inside
      rw [eventsAfter,if_neg Bool.false_ne_true,merges] at inside
      rcases Multiset.mem_add.mp inside with kept | inserted
      · exact covered.events r (Multiset.mem_of_mem_filter kept)
      · exact new r inserted

theorem Covered.run (merges : DeletesAndInserts merge) (covered : Covered s) {fullRefresh : Bool} {today : Date}
    {built : Finset Consumer} {events : Option (List StagedEvent)} {after : AllMarts}
    (ordered : ∀ es, events = some es → Ordered s.warehouse.raw es)
    (taken : RepaymentIncremental.next p s.warehouse (.dbtRun fullRefresh today built) = some after) :
    Covered { s with warehouse := after, events := eventsAfter p merge fullRefresh today s.events events } := by
  have ran_marts := RetiredMarts.next_marts taken
  have rows := (RepaymentIncremental.built_of_next taken).rows
  simp only [MartRuns.next] at ran_marts
  split at ran_marts
  · next ready =>
    obtain ⟨fact,ran,built_fact⟩ := MartIncremental.ran_of_run ran_marts
    have fact_live : ∀ f ∈ factRows (some fact), f.1.1.sourceId ∈ s.live := built_live covered.raw covered.fact built_fact
    refine ⟨covered.owns,?_,?_,?_,?_,eventsAfter_live merges covered ready.1 ordered⟩
    · rw [run_stores ran_marts]
      exact covered.stores
    · rw [ran.stored]
      exact fact_live
    · intro m shown content
      rw [ran.contents] at content
      split at content
      · obtain rfl := Option.some.inj content
        exact mart_live fact_live (covered.contents m)
      · exact covered.contents m shown content
    · intro shown content
      rw [rows] at content
      split at content
      · obtain rfl := Option.some.inj content
        exact repaymentMart_live covered.raw covered.repayment
      · exact covered.repayment shown content
  · cases ran_marts

/-- The retirement of a source takes its rows out of every table. -/
theorem Covered.retire (covered : Covered s) (source : String) (txid : Nat) : Covered
    { warehouse := RetiredMarts.purge source txid s.warehouse
      events := s.events.filter (fun r => r.delinquencyEventId.sourceId ≠ source)
      db := retireOwners s.db source
      live := s.live.erase source } where
  owns := by
    intro o member named
    obtain ⟨old,there,rfl⟩ := List.mem_map.mp member
    by_cases own : old.sourceId = source
    · simp [own] at named
    · rw [if_neg own] at named ⊢
      exact Finset.mem_erase.mpr ⟨own,covered.owns old there named⟩
  stores t := by
    have left (rows : RawTable) (old : ∀ k, (rows.get k).isSome → k.sourceId ∈ s.live) :
        ∀ k, ((rows.restrict (fun k => k.sourceId ≠ source)).get k).isSome → k.sourceId ∈ s.live.erase source := by
      intro k present
      by_cases own : k.sourceId = source
      · simp [own] at present
      · exact Finset.mem_erase.mpr ⟨own,old k (by simpa [own] using present)⟩
    exact ⟨left _ (covered.stores t).raw,left _ (covered.stores t).shadow⟩
  fact := by
    rintro ⟨⟨l,d⟩,row⟩ inside
    cases built : s.warehouse.warehouse.factLoanSnapshot with
    | none => simp [RetiredMarts.purge,RetiredMarts.purgeMarts,RetiredMarts.purgeWarehouse,built,factRows] at inside
    | some table =>
      have found : (table.restrict (fun k => k.1.sourceId ≠ source)).get (l,d) = some row := by
        simpa [RetiredMarts.purge,RetiredMarts.purgeMarts,RetiredMarts.purgeWarehouse,built,factRows] using inside
      obtain ⟨other,before⟩ := RetiredMarts.fact_left found
      refine Finset.mem_erase.mpr ⟨other,covered.fact ((l,d),row) ?_⟩
      rw [built]
      exact Relation.mem_rows.mpr before
  contents m rows content := by
    obtain ⟨before,shown,rfl⟩ := Option.map_eq_some_iff.mp content
    intro r inside
    obtain ⟨member,other⟩ := Multiset.mem_filter.mp inside
    exact Finset.mem_erase.mpr ⟨other,covered.contents m before shown r member⟩
  repayment rows content := by
    obtain ⟨before,shown,rfl⟩ := Option.map_eq_some_iff.mp content
    intro r inside
    obtain ⟨member,other⟩ := Multiset.mem_filter.mp inside
    exact Finset.mem_erase.mpr ⟨other,covered.repayment before shown r member⟩
  events r inside := by
    obtain ⟨member,other⟩ := Multiset.mem_filter.mp inside
    exact Finset.mem_erase.mpr ⟨other,covered.events r member⟩

private theorem covered_step (merges : DeletesAndInserts merge) (covered : Covered s) {op : Op}
    (step : Step p merge s op t) : Covered t := by
  cases step with
  | @applyStagedBatch txid table engine now today stage after taken =>
    obtain ⟨marts,stepped,rfl⟩ := Option.map_eq_some_iff.mp taken
    simp only [MartRuns.next] at stepped
    obtain ⟨warehouse,called,rfl⟩ := Option.map_eq_some_iff.mp stepped
    simp only [FactBuild.next] at called
    split at called
    · cases applied : ApplyBatch.applyStagedBatch (contract table) engine now today s.db stage (s.warehouse.warehouse.stores table) with
      | error e => simp [applied] at called
      | ok result =>
        obtain ⟨stores,log,results⟩ := result
        obtain ⟨named,passed,stored,_,_⟩ := applyStagedBatch_ok.mp applied
        simp only [applied,Option.some.injEq] at called
        subst called stored
        have old := covered.stores table
        exact covered.commit ⟨writeBatch_live covered.owns named passed old.raw,writeBatch_live covered.owns named passed old.shadow⟩
    · cases called
  | @promoteShadow txid table source after o owner shadowed taken =>
    have live : source ∈ s.live := covered.owns.owner owner (.inr shadowed)
    obtain ⟨marts,stepped,rfl⟩ := Option.map_eq_some_iff.mp taken
    simp only [MartRuns.next] at stepped
    obtain ⟨warehouse,called,rfl⟩ := Option.map_eq_some_iff.mp stepped
    simp only [FactBuild.next] at called
    split at called
    · obtain rfl := Option.some.inj called
      have old := covered.stores table
      refine covered.commit ⟨fun k present => ?_,fun k present => ?_⟩
      · by_cases own : k.sourceId = source
        · exact own ▸ live
        · refine old.raw k ?_
          rwa [MartIncremental.promotion_others s.db _ own] at present
      · by_cases own : k.sourceId = source
        · exact own ▸ live
        · exact old.shadow k (by simpa [ApplyBatch.promoteShadow,own] using present)
    · cases called
  | dbtRun ordered taken => exact covered.run merges ordered taken
  | assign owns => exact ⟨owns,covered.stores,covered.fact,covered.contents,covered.repayment,covered.events⟩
  | @register source =>
    have grows {other : String} (live : other ∈ s.live) : other ∈ insert source s.live := Finset.mem_insert_of_mem live
    exact ⟨fun o member named => grows (covered.owns o member named),
      fun t => ⟨fun k present => grows ((covered.stores t).raw k present),fun k present => grows ((covered.stores t).shadow k present)⟩,
      fun f inside => grows (covered.fact f inside),fun m rows content r inside => grows (covered.contents m rows content r inside),
      fun rows content r inside => grows (covered.repayment rows content r inside),fun r inside => grows (covered.events r inside)⟩
  | @retireSource source txid fresh => exact covered.retire source txid

/-- Nothing is stored and nothing is built. -/
structure Empty (s : Platform) : Prop where
  stores : ∀ t, s.warehouse.warehouse.stores t = ⟨.empty,.empty⟩
  fact : s.warehouse.warehouse.factLoanSnapshot = none
  contents : ∀ m, s.warehouse.contents m = none
  repayment : s.warehouse.repaymentBehavior = none
  events : s.events = 0
  owns : OwnsLive s.db s.live

theorem Empty.covered (empty : Empty s) : Covered s where
  owns := empty.owns
  stores t := by
    rw [empty.stores]
    exact ⟨fun k present => absurd present (by simp),fun k present => absurd present (by simp)⟩
  fact f inside := by
    rw [empty.fact] at inside
    exact absurd inside (Multiset.notMem_zero f)
  contents m rows content := by
    rw [empty.contents] at content
    cases content
  repayment rows content := by
    rw [empty.repayment] at content
    cases content
  events r inside := by
    rw [empty.events] at inside
    exact absurd inside (Multiset.notMem_zero r)

/-- In every run of calls, dbt runs, assignments, registrations and retirements, the test selects no source. -/
theorem no_orphan_sources {s₀ : Platform} {trace : List Op} (merges : DeletesAndInserts merge) (empty : Empty s₀)
    (run : Run (Step p merge) s₀ trace s) : assertNoOrphanSourcesInMarts s = ∅ := by
  have covered : Covered s := run.stateInvariant empty.covered (fun _ _ _ covered step => covered_step merges covered step)
  refine Finset.filter_eq_empty_iff.mpr (fun source derived orphan => orphan ?_)
  have of_content {m : Mart} (inside : source ∈ (((s.warehouse.contents m).getD 0).map (fun r => (m.key r).sourceId)).toFinset) :
      source ∈ s.live := by
    obtain ⟨r,member,rfl⟩ := Multiset.mem_map.mp (Multiset.mem_toFinset.mp inside)
    cases content : s.warehouse.contents m with
    | none => simp [content] at member
    | some rows => exact covered.contents m rows content r (by simpa [content] using member)
  simp only [derivedSources,Finset.mem_union] at derived
  rcases derived with (((fact | event) | par) | health) | repayment
  · obtain ⟨f,member,rfl⟩ := Multiset.mem_map.mp (Multiset.mem_toFinset.mp fact)
    exact covered.fact f member
  · obtain ⟨r,member,rfl⟩ := Multiset.mem_map.mp (Multiset.mem_toFinset.mp event)
    exact covered.events r member
  · exact of_content par
  · exact of_content health
  · obtain ⟨r,member,rfl⟩ := Multiset.mem_map.mp (Multiset.mem_toFinset.mp repayment)
    cases content : s.warehouse.repaymentBehavior with
    | none => simp [content] at member
    | some rows => exact covered.repayment rows content r (by simpa [content] using member)

end Steps

/-- A client and its loan; the marts are built and the source is retired. -/
theorem no_orphan_sources_client : ∃ s, Run (Step sampleProject DelinquencyEventFact.deleteAndInsert)
      ⟨RepaymentIncremental.emptyMarts,0,RepaymentIncremental.tablesOwned,{"branch-001"}⟩ [
        .applyStagedBatch 1 .mClient .KAFKA 0 newYear [upserted 1 1 [("office_id",.int 1)]],
        .applyStagedBatch 2 .mLoan .KAFKA 0 newYear [upserted 1 1 [("client_id",.int 1),("disbursedon_date",.date newYear)]],
        .dbtRun false newYear {.martDelinquencyPar,.martPortfolioHealth,.martRepaymentBehavior} (some []),
        .retireSource "branch-001" 9] s ∧
    s.live = ∅ ∧ assertNoOrphanSourcesInMarts s = ∅ := by
  let s₀ : Platform := ⟨RepaymentIncremental.emptyMarts,0,RepaymentIncremental.tablesOwned,{"branch-001"}⟩
  have empty : Empty s₀ := ⟨fun _ => rfl,rfl,fun _ => rfl,rfl,rfl,by decide⟩
  obtain ⟨after₁,log₁,step₁⟩ : ∃ after log, RepaymentIncremental.next sampleProject RepaymentIncremental.emptyMarts
      (RepaymentIncremental.call 1 .mClient [upserted 1 1 [("office_id",.int 1)]]) =
        some ⟨MartIncremental.committed RepaymentIncremental.emptyMarts.toMarts 1 .mClient after log,none⟩ :=
    RepaymentIncremental.next_call (by decide) rfl
  let w₁ : AllMarts := ⟨MartIncremental.committed RepaymentIncremental.emptyMarts.toMarts 1 .mClient after₁ log₁,none⟩
  obtain ⟨after₂,log₂,step₂⟩ : ∃ after log, RepaymentIncremental.next sampleProject w₁
      (RepaymentIncremental.call 2 .mLoan [upserted 1 1 [("client_id",.int 1),("disbursedon_date",.date newYear)]]) =
        some ⟨MartIncremental.committed w₁.toMarts 2 .mLoan after log,none⟩ :=
    RepaymentIncremental.next_call (show 1 ≤ 2 by decide) rfl
  let w₂ : AllMarts := ⟨MartIncremental.committed w₁.toMarts 2 .mLoan after₂ log₂,none⟩
  have mapped : SingleMapping w₂.raw := by
    intro m member
    cases Relation.mem_rowSet.mp member
  have unran : ∀ day ∈ w₂.warehouse.ranOn, day ≤ newYear := by
    simp [w₂,w₁,MartIncremental.committed,Warehouse.commit,RepaymentIncremental.emptyMarts,MartIncremental.emptyMarts,
      FactIncremental.emptyWarehouse]
  obtain ⟨w₃,step₃⟩ : ∃ w₃, RepaymentIncremental.next sampleProject w₂ RetiredMarts.allRun = some w₃ :=
    RetiredMarts.next_allRun mapped unran
  obtain ⟨fact,ran⟩ := (RepaymentIncremental.built_of_next step₃).ran
  have no_tags : Ordered w₂.raw [] := by
    refine ⟨?_,List.Pairwise.nil⟩
    have none_stored : (tagHistory w₂.raw).rows = 0 := by
      refine Multiset.eq_zero_of_forall_notMem (fun d inside => ?_)
      cases Relation.mem_rows.mp inside
    rw [Delinquency.stgMDelinquencyRows_eq mapped,none_stored]
    rfl
  have fresh : w₃.warehouse.openFrom ≤ 9 := ran.openFrom.trans_le (show 3 ≤ 9 by decide)
  have run : Run (Step sampleProject DelinquencyEventFact.deleteAndInsert) s₀ [
      .applyStagedBatch 1 .mClient .KAFKA 0 newYear [upserted 1 1 [("office_id",.int 1)]],
      .applyStagedBatch 2 .mLoan .KAFKA 0 newYear [upserted 1 1 [("client_id",.int 1),("disbursedon_date",.date newYear)]],
      .dbtRun false newYear {.martDelinquencyPar,.martPortfolioHealth,.martRepaymentBehavior} (some []),
      .retireSource "branch-001" 9] _ :=
    (((Run.start.extend (.applyStagedBatch step₁)).extend (.applyStagedBatch step₂)).extend
      (.dbtRun (fun _ same => Option.some.inj same ▸ no_tags) step₃)).extend (.retireSource fresh)
  exact ⟨_,run,Finset.erase_singleton _,no_orphan_sources (fun _ _ => rfl) empty run⟩

end FineractBi.OrphanSources
