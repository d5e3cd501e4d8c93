import FineractBi.TenantIdentity

/-!
The capture generation of an event. The connector that captures it has a
generation in its name, but no field of the event carries it: the sink stamps
the generation that its ownership cache names when it writes. Both read the
registry, each at its own time.
-/
namespace FineractBi.CaptureStamp
open Runs FineractBi.StateMachine FineractBi.Routing FineractBi.Contract FineractBi.ApplyBatch FineractBi.WriteFence
open FineractBi.Envelope (ChangeEvent)
open FineractBi.TenantIdentity (moveAll moveAll_holds)

/-- A connector, and when its configuration was read from the registry. -/
structure Connector where
  sourceId : String
  generation : Int
  readAt : Nat
  deriving DecidableEq, Repr

/-- An event of the topic with the connector that captured it. -/
structure Captured where
  connector : Connector
  event : ChangeEvent
  deriving DecidableEq, Repr

section
variable (input : Column → String → Option Value)

/-- PostgreSQL reads every text of the line. -/
def Readable (t : TableContract) (e : ChangeEvent) : Prop :=
  ∀ field ∈ t.columns.zip e.values, ∀ text ∈ field.2, (input field.1 text).isSome

instance (t : TableContract) (e : ChangeEvent) : Decidable (Readable input t e) :=
  inferInstanceAs (Decidable (∀ field ∈ t.columns.zip e.values, ∀ text ∈ field.2, (input field.1 text).isSome))

/-- A line of `WarehouseWriter.encode` as COPY reads it. `input` is how PostgreSQL reads the text of
    a column; a line that it cannot store fails the batch. -/
def encode (t : TableContract) (e : ChangeEvent) (route : Route) : Option StagedRow := do
  let tenantId ← route.tenantId
  let target ← route.target.stageTarget
  guard (Readable input t e)
  let cols := fun c => ((t.columns.zip e.values).lookup c).join.bind (input c)
  let id ← asInt (cols t.primaryKey)
  return {
    key := ⟨e.sourceId,tenantId,id⟩
    cols := cols
    sourceGeneration := route.generation
    sourceLsn := e.lsn
    sourceTs := some e.sourceTsMicros
    op := if e.op = .DELETE then .d else .u
    unavailable := some e.unavailable
    ownerEpoch := route.epoch
    target := target }

/-- What a worker stages of the events of one table, each row with its event. -/
def stageAll (t : TableContract) (view : OwnershipSnapshot) (events : List Captured) :
    Option (List (Captured × StagedRow)) :=
  events.mapM (fun c => (encode input t c.event (view.route c.event.sourceId t.tableName)).map (fun row => (c,row)))

end

/-- The ownership cache of a worker, and when it was loaded. -/
structure View where
  snapshot : OwnershipSnapshot
  readAt : Nat

/-- An event that a transaction has stored, with the cache of its worker. -/
structure Delivery where
  table : String
  captured : Captured
  row : StagedRow
  viewedAt : Nat

/-- `clock` counts the steps; `bumped` holds the times at which the generation of a source rose. -/
structure State where
  control : ControlState
  connectors : Nat → Option Connector
  topic : List Captured
  views : Nat → View
  tables : String → Stores
  deliveries : List Delivery
  clock : Nat
  bumped : String → List Nat

def State.tick (s : State) : State := { s with clock := s.clock + 1 }

inductive Op
  | configure (id : Nat) (source : String)
  | capture (id : Nat) (event : ChangeEvent)
  | bump (source : String)
  | transition (source table : String) (request : TransitionRequest)
  | refresh (worker : Nat) (now : Int)
  | write (worker : Nat) (contract : TableContract) (now : Int) (events : List Captured)

section
variable (input : Column → String → Option Value)

/-- `configure` is the reconciler's read of a source; its connector appends to the topic until it
    is deleted, if it ever is. `bump` is `bump_capture_generation`, and with transitions before it
    a START_SHADOW of KAFKA. `write` is the part of a sink transaction for one table; what it
    stores is any part of what was captured. -/
inductive Step : State → Op → State → Prop
  | configure {s : State} {id : Nat} {source : String} {r : SourceRow} (found : s.control.source source = some r) :
      Step s (.configure id source) (State.tick { s with
        connectors := Function.update s.connectors id (some ⟨source,r.captureGeneration,s.clock⟩) })
  | capture {s : State} {id : Nat} {c : Connector} {event : ChangeEvent} (running : s.connectors id = some c)
      (own : event.sourceId = c.sourceId) :
      Step s (.capture id event) (State.tick { s with topic := s.topic ++ [⟨c,event⟩] })
  | bump {s : State} {source : String} : Step s (.bump source) (State.tick { s with
      control := raiseGeneration s.control source
      bumped := Function.update s.bumped source (s.bumped source ++ [s.clock]) })
  | transition {s : State} {source table : String} {request : TransitionRequest} {o o' : Ownership}
      {effects : List SideEffect} (found : s.control.owner source table = some o)
      (accepted : transition o request = .ok ⟨o,o',effects⟩) :
      Step s (.transition source table request) (State.tick { s with
        control := updateOwner s.control o'
        tables := moveAll s.tables source table effects })
  | refresh {s : State} {worker : Nat} {now : Int} : Step s (.refresh worker now) (State.tick { s with
      views := Function.update s.views worker ⟨load s.control now,s.clock⟩ })
  | write {s : State} {worker : Nat} {contract : TableContract} {now : Int} {events : List Captured}
      {staged : List (Captured × StagedRow)} (polled : ∀ c ∈ events, c ∈ s.topic)
      (encoded : stageAll input contract (s.views worker).snapshot events = some staged)
      (unfenced : fencingCheck s.control contract.tableName .KAFKA (claims (staged.map (·.2))) = .ok ()) :
      Step s (.write worker contract now events) (State.tick { s with
        tables := commitBatch .KAFKA s.tables ⟨contract,now,staged.map (·.2)⟩
        deliveries := s.deliveries ++ staged.map (fun e => ⟨contract.tableName,e.1,e.2,(s.views worker).readAt⟩) })

end

/-- No bump of the source lies between the two reads of the registry. -/
def SameBumps (bumped : List Nat) (readAt viewedAt : Nat) : Prop := ∀ time ∈ bumped, time < readAt ↔ time < viewedAt

instance (bumped : List Nat) (readAt viewedAt : Nat) : Decidable (SameBumps bumped readAt viewedAt) :=
  inferInstanceAs (Decidable (∀ time ∈ bumped, time < readAt ↔ time < viewedAt))

/-- What a worker writes was captured by connectors that were read, like its cache, between the
    same two bumps of their source. -/
def Settled (s : State) : Op → Prop
  | .write worker _ _ events => ∀ c ∈ events,
      SameBumps (s.bumped c.event.sourceId) c.connector.readAt (s.views worker).readAt
  | _ => True

/-- The bumps before a time. -/
def before (bumped : List Nat) (time : Nat) : Nat := (bumped.filter (· < time)).length

private theorem before_snoc (bumped : List Nat) (time clock : Nat) (past : time ≤ clock) :
    before (bumped ++ [clock]) time = before bumped time := by
  simp [before,List.filter_append,Nat.not_lt.mpr past]

private theorem before_all (bumped : List Nat) (clock : Nat) (past : ∀ time ∈ bumped, time < clock) :
    before bumped clock = bumped.length := by
  rw [before,List.filter_eq_self.mpr (by simpa using past)]

/-- As many bumps before two times are the same bumps. -/
theorem sameBumps_iff (bumped : List Nat) (a b : Nat) : SameBumps bumped a b ↔ before bumped a = before bumped b := by
  wlog ordered : a ≤ b generalizing a b
  · rw [eq_comm,← this b a (by omega)]
    exact ⟨fun same time member => (same time member).symm,fun same time member => (same time member).symm⟩
  · constructor
    · intro same
      have filtered : bumped.filter (· < a) = bumped.filter (· < b) := by
        refine List.filter_congr ?_
        simpa [decide_eq_decide,SameBumps] using same
      rw [before,before,filtered]
    · intro equal time member
      have sub : (bumped.filter (· < a)).Sublist (bumped.filter (· < b)) :=
        List.monotone_filter_right _ (by intro n; simpa using fun less => less.trans_le ordered)
      have same := sub.eq_of_length equal
      refine ⟨fun less => less.trans_le ordered,fun less => ?_⟩
      have inside : time ∈ bumped.filter (· < a) := by
        rw [same]
        simpa using ⟨member,less⟩
      simpa using (List.mem_filter.mp inside).2

private theorem encode_ok {input : Column → String → Option Value} {t : TableContract} {e : ChangeEvent} {route : Route}
    {row : StagedRow} (encoded : encode input t e route = some row) :
    row.key.sourceId = e.sourceId ∧ row.sourceGeneration = route.generation ∧ route.target.stageTarget.isSome := by
  unfold encode at encoded
  obtain ⟨tenantId,_,rest⟩ := Option.bind_eq_some_iff.mp encoded
  obtain ⟨target,staged,rest⟩ := Option.bind_eq_some_iff.mp rest
  obtain ⟨_,_,rest⟩ := Option.bind_eq_some_iff.mp rest
  obtain ⟨id,_,done⟩ := Option.bind_eq_some_iff.mp rest
  obtain rfl := Option.some.inj done
  exact ⟨rfl,rfl,by simp [staged]⟩

/-- What is routed to a table has the generation of its source in the cache. -/
theorem route_generation {view : OwnershipSnapshot} {source table : String}
    (staged : (view.route source table).target.stageTarget.isSome) :
    ∃ m, view.sources.get source = some m ∧ (view.route source table).generation = m.generation := by
  unfold OwnershipSnapshot.route at *
  cases known : view.sources.get source with
  | none => simp [known,RouteTarget.stageTarget] at staged
  | some m =>
    refine ⟨m,rfl,?_⟩
    simp only
    repeat' split
    all_goals rfl

/-- The staged rows of a batch, each with the event it is from. -/
theorem stageAll_ok {input : Column → String → Option Value} {t : TableContract} {view : OwnershipSnapshot}
    {events : List Captured} {staged : List (Captured × StagedRow)} (encoded : stageAll input t view events = some staged) :
    ∀ c row, (c,row) ∈ staged → c ∈ events ∧ row.key.sourceId = c.event.sourceId ∧
      ∃ m, view.sources.get c.event.sourceId = some m ∧ row.sourceGeneration = m.generation := by
  induction events generalizing staged with
  | nil =>
    obtain rfl := Option.some.inj encoded
    simp
  | cons c' rest ih =>
    rw [stageAll,List.mapM_cons] at encoded
    obtain ⟨first,atFirst,encoded⟩ := Option.bind_eq_some_iff.mp encoded
    obtain ⟨others,atOthers,done⟩ := Option.bind_eq_some_iff.mp encoded
    obtain rfl := Option.some.inj done
    intro c row member
    rcases List.mem_cons.mp member with rfl | later
    · obtain ⟨row',encodedRow,same⟩ := Option.map_eq_some_iff.mp atFirst
      obtain ⟨rfl,rfl⟩ := Prod.mk.inj same
      obtain ⟨of,stamp,routed⟩ := encode_ok encodedRow
      obtain ⟨m,known,generation⟩ := route_generation routed
      exact ⟨List.mem_cons_self,of,m,known,stamp.trans generation⟩
    · obtain ⟨inside,staged⟩ := ih atOthers c row later
      exact ⟨List.mem_cons_of_mem _ inside,staged⟩

private theorem raiseGeneration_source (db : ControlState) (source other : String) : (raiseGeneration db source).source other =
    (db.source other).map (fun r =>
      if r.sourceId = source then { r with captureGeneration := r.captureGeneration + 1 } else r) := by
  simp only [ControlState.source,raiseGeneration,List.find?_map]
  congr 2
  funext r
  simp only [Function.comp_apply]
  split <;> rfl

section
variable (start : String → Int)

/-- A generation that the registry names for the source at a time of the past, which the bumps
    before that time tell. -/
def ReadAt (s : State) (source : String) (generation : Int) (time : Nat) : Prop :=
  time ≤ s.clock ∧ generation = start source + before (s.bumped source) time

/-- A captured event has the source of its connector, and the connector a generation that was read. -/
def Known (s : State) (c : Captured) : Prop :=
  c.event.sourceId = c.connector.sourceId ∧ ReadAt start s c.connector.sourceId c.connector.generation c.connector.readAt

structure Inv (s : State) : Prop where
  past : ∀ source, ∀ time ∈ s.bumped source, time < s.clock
  registry : ∀ source r, s.control.source source = some r → ReadAt start s source r.captureGeneration s.clock
  connectors : ∀ id c, s.connectors id = some c → ReadAt start s c.sourceId c.generation c.readAt
  topic : ∀ c ∈ s.topic, Known start s c
  views : ∀ worker source m, (s.views worker).snapshot.sources.get source = some m →
    ReadAt start s source m.generation (s.views worker).readAt
  deliveries : ∀ d ∈ s.deliveries, Known start s d.captured ∧
    ReadAt start s d.captured.event.sourceId d.row.sourceGeneration d.viewedAt

variable {start} {input : Column → String → Option Value} {s s' : State} {op : Op}

/-- A step leaves what was read before it. -/
theorem ReadAt.step {source : String} {generation : Int} {time : Nat} (read : ReadAt start s source generation time)
    (step : Step input s op s') : ReadAt start s' source generation time := by
  obtain ⟨past,named⟩ := read
  cases step with
  | @bump other =>
    refine ⟨past.trans (Nat.le_succ _),named.trans ?_⟩
    by_cases same : source = other
    · subst same
      simp only [State.tick,Function.update_self,before_snoc _ _ _ past]
    · simp only [State.tick,Function.update_of_ne same]
  | _ => exact ⟨past.trans (Nat.le_succ _),named⟩

theorem Known.step {c : Captured} (known : Known start s c) (step : Step input s op s') : Known start s' c :=
  ⟨known.1,known.2.step step⟩

/-- The time of a step is past after it. -/
theorem Inv.past_step (inv : Inv start s) (step : Step input s op s') :
    ∀ source, ∀ time ∈ s'.bumped source, time < s'.clock := by
  intro source time member
  cases step with
  | @bump other =>
    by_cases same : source = other
    · subst same
      simp only [State.tick,Function.update_self,List.mem_append,List.mem_singleton] at member ⊢
      rcases member with old | rfl
      · exact (inv.past source time old).trans (Nat.lt_succ_self _)
      · exact Nat.lt_succ_self _
    · simp only [State.tick,Function.update_of_ne same] at member ⊢
      exact (inv.past source time member).trans (Nat.lt_succ_self _)
  | _ => exact (inv.past source time member).trans (Nat.lt_succ_self _)

/-- Between a step and the next the registry names what its bumps tell. -/
theorem Inv.registry_step (inv : Inv start s) (step : Step input s op s') :
    ∀ source r, s'.control.source source = some r → ReadAt start s' source r.captureGeneration s'.clock := by
  intro source r there
  refine ⟨le_rfl,?_⟩
  rw [before_all _ _ (inv.past_step step source)]
  have named : ∀ r, s.control.source source = some r → r.captureGeneration = start source + (s.bumped source).length := by
    intro r found
    rw [(inv.registry source r found).2,before_all _ _ (inv.past source)]
  cases step with
  | @bump other =>
    simp only [State.tick,raiseGeneration_source] at there ⊢
    obtain ⟨r',found,rfl⟩ := Option.map_eq_some_iff.mp there
    obtain ⟨_,of⟩ := (s.control.source_iff source r').mp found
    by_cases same : source = other
    · subst same
      simp only [of,if_true,named r' found,Function.update_self,List.length_append,List.length_singleton]
      rw [Int.natCast_add,Int.natCast_one,add_assoc]
    · simp only [of,if_neg same,named r' found,Function.update_of_ne same]
  | _ => exact named r there

theorem inv_step (inv : Inv start s) (step : Step input s op s') : Inv start s' := by
  have topic : ∀ c ∈ s.topic, Known start s' c := fun c member => (inv.topic c member).step step
  have deliveries : ∀ d ∈ s.deliveries, Known start s' d.captured ∧
      ReadAt start s' d.captured.event.sourceId d.row.sourceGeneration d.viewedAt :=
    fun d member => ⟨(inv.deliveries d member).1.step step,(inv.deliveries d member).2.step step⟩
  refine ⟨inv.past_step step,inv.registry_step step,?_,?_,?_,?_⟩
  · have kept : ∀ id c, s.connectors id = some c → ReadAt start s' c.sourceId c.generation c.readAt :=
      fun id c running => (inv.connectors id c running).step step
    cases step with
    | @configure id source r found =>
      intro other c running
      by_cases same : other = id
      · subst same
        obtain rfl : _ = c := by simpa [State.tick] using running
        exact ⟨Nat.le_succ _,(inv.registry source r found).2⟩
      · exact kept other c (by simpa [State.tick,Function.update_of_ne same] using running)
    | _ => exact kept
  · have read : ∀ id c, s.connectors id = some c → ReadAt start s' c.sourceId c.generation c.readAt :=
      fun id c running => (inv.connectors id c running).step step
    cases step with
    | @capture id c event running own =>
      intro c' member
      rcases List.mem_append.mp member with old | new
      · exact topic c' old
      · obtain rfl := List.mem_singleton.mp new
        exact ⟨own,read id c running⟩
    | _ => exact topic
  · have kept : ∀ worker source m, (s.views worker).snapshot.sources.get source = some m →
        ReadAt start s' source m.generation (s.views worker).readAt :=
      fun worker source m known => (inv.views worker source m known).step step
    cases step with
    | @refresh worker now =>
      intro other source m known
      by_cases same : other = worker
      · subst same
        simp only [State.tick,Function.update_self,load_source] at known ⊢
        obtain ⟨r,found,rfl⟩ := Option.map_eq_some_iff.mp known
        exact ⟨Nat.le_succ _,(inv.registry source r found).2⟩
      · simp only [State.tick,Function.update_of_ne same] at known ⊢
        exact kept other source m known
    | _ => exact kept
  · cases step with
    | @write worker contract now events staged polled encoded unfenced =>
      intro d member
      rcases List.mem_append.mp member with old | new
      · exact deliveries d old
      · obtain ⟨⟨c,row⟩,inside,rfl⟩ := List.mem_map.mp new
        obtain ⟨event,_,m,known,stamp⟩ := stageAll_ok encoded c row inside
        refine ⟨topic c (polled c event),?_⟩
        have read := inv.views worker c.event.sourceId m known
        exact ⟨read.1.trans (Nat.le_succ _),stamp.trans read.2⟩
    | _ => exact deliveries

/-- The rows stored under the generation of their connector are those whose worker and whose
    connector have read the registry between the same bumps. -/
theorem Inv.stamp_iff (inv : Inv start s) {d : Delivery} (member : d ∈ s.deliveries) :
    d.row.sourceGeneration = d.captured.connector.generation ↔
      SameBumps (s.bumped d.captured.event.sourceId) d.captured.connector.readAt d.viewedAt := by
  obtain ⟨⟨own,_,captured⟩,_,viewed⟩ := inv.deliveries d member
  rw [viewed,captured,← own,sameBumps_iff]
  omega

/-- Every event is stored with the generation of the connector that captured it. -/
def Stamped (s : State) : Prop := ∀ d ∈ s.deliveries, d.row.sourceGeneration = d.captured.connector.generation

/-- Every row is one of the start, or has the generation of the connector that captured one of its
    events. -/
def Descends (s₀ s : State) : Prop :=
  ∀ table k row, Holds s.tables table k row → Holds s₀.tables table k row ∨
    ∃ d ∈ s.deliveries, d.table = table ∧ d.row.key = k ∧ row.sourceGeneration = d.captured.connector.generation

/-- Where one of the events is of an older generation than a row of its source, the row stays. -/
def KeepsNewer (s s' : State) (table : String) (events : List Captured) : Prop :=
  ∀ target k row c, ((s.tables table).table target).get k = some row → c ∈ events → c.event.sourceId = k.sourceId →
    c.connector.generation < row.sourceGeneration → ((s'.tables table).table target).get k = some row

/-- The generation in the cache of a worker is that of the connectors, where no bump lies between. -/
theorem Inv.settled (inv : Inv start s) {worker : Nat} {c : Captured} {m : SourceMeta} (member : c ∈ s.topic)
    (settled : SameBumps (s.bumped c.event.sourceId) c.connector.readAt (s.views worker).readAt)
    (known : (s.views worker).snapshot.sources.get c.event.sourceId = some m) :
    m.generation = c.connector.generation := by
  obtain ⟨own,_,captured⟩ := inv.topic c member
  rw [(inv.views worker _ m known).2,captured,← own,(sameBumps_iff _ _ _).mp settled]

theorem Stamped.step (inv : Inv start s) (stamped : Stamped s) (settled : Settled s op) (step : Step input s op s') :
    Stamped s' := by
  cases step with
  | @write worker contract now events staged polled encoded unfenced =>
    intro d member
    rcases List.mem_append.mp member with old | new
    · exact stamped d old
    · obtain ⟨⟨c,row⟩,inside,rfl⟩ := List.mem_map.mp new
      obtain ⟨event,_,m,known,stamp⟩ := stageAll_ok encoded c row inside
      exact stamp.trans (inv.settled (polled c event) (settled c event) known)
  | _ => exact stamped

theorem Descends.step {s₀ : State} (descends : Descends s₀ s) (stamped : Stamped s') (step : Step input s op s') :
    Descends s₀ s' := by
  cases step with
  | @write worker contract now events staged polled encoded unfenced =>
    intro table k row holds
    rcases commitBatch_holds holds with old | ⟨rfl,r,inside,rfl,generation,_⟩
    · rcases descends table k row old with first | ⟨d,member,from_⟩
      · exact .inl first
      · exact .inr ⟨d,List.mem_append_left _ member,from_⟩
    · obtain ⟨⟨c,r'⟩,member,rfl⟩ := List.mem_map.mp inside
      have delivered := List.mem_append_right s.deliveries (List.mem_map_of_mem
        (f := fun e : Captured × StagedRow => Delivery.mk contract.tableName e.1 e.2 (s.views worker).readAt) member)
      exact .inr ⟨_,delivered,rfl,rfl,generation.trans (stamped _ delivered)⟩
  | transition found accepted =>
    intro table k row holds
    exact descends table k row (moveAll_holds holds)
  | _ => exact descends

/-- A write of one generation leaves the rows of a newer one to the version guard. -/
theorem keepsNewer {worker : Nat} {contract : TableContract} {now : Int} {events : List Captured} (inv : Inv start s)
    (settled : Settled s (.write worker contract now events)) (step : Step input s (.write worker contract now events) s') :
    KeepsNewer s s' contract.tableName events := by
  cases step with
  | @write _ _ _ _ staged polled encoded unfenced =>
    intro target k row c stored inside of older
    have kept (t : String) (raw : RawTable) (at_k : raw.get k = some row) :
        (writeBatch contract .KAFKA now (staged.map (·.2)) t raw).get k = some row := by
      rw [writeBatch_get]
      cases found : dedup contract (staged.map (·.2)) t k with
      | none => exact at_k
      | some d =>
        obtain ⟨r,member,_,rfl,generation,_⟩ := dedup_staged found
        obtain ⟨⟨c',r'⟩,both,rfl⟩ := List.mem_map.mp member
        obtain ⟨_,own,m,known,stamp⟩ := stageAll_ok encoded c' r' both
        have named : d.sourceGeneration = c.connector.generation := by
          rw [generation,stamp]
          refine inv.settled (polled c inside) (settled c inside) ?_
          rw [of,own]
          exact known
        have refused : ApplyBatch.guard .KAFKA d row = false := by
          rw [← named] at older
          simp [ApplyBatch.guard,Prod.Lex.toLex_le_toLex,not_lt.mpr older.le,older.ne']
        simp [upsert,at_k,refused]
    simp only [State.tick,commitBatch,setTable,if_true,Stores.table] at stored ⊢
    split at stored
    · next shadow =>
      rw [if_pos shadow]
      exact kept _ _ stored
    · next prod =>
      rw [if_neg prod]
      exact kept _ _ stored

end

/-- A warehouse before the first connector, with workers that have loaded no cache. -/
structure Start (s : State) : Prop where
  unconfigured : ∀ id, s.connectors id = none
  empty : s.topic = [] ∧ s.deliveries = []
  unloaded : ∀ worker, (s.views worker).snapshot = ⟨[],[],0⟩
  unbumped : ∀ source, s.bumped source = []

def named (s : State) (source : String) : Int := ((s.control.source source).map (·.captureGeneration)).getD 0

theorem Start.inv {s : State} (start : Start s) : Inv (named s) s where
  past := by simp [start.unbumped]
  registry := by
    intro source r there
    exact ⟨le_rfl,by simp [named,there,before,start.unbumped]⟩
  connectors := by simp [start.unconfigured]
  topic := by simp [start.empty]
  views := by simp [start.unloaded,JavaMap.get]
  deliveries := by simp [start.empty]

section
variable {input : Column → String → Option Value} {s₀ s : State} {trace : List Op}

/-- In every run exactly the events with no bump between the two reads are stored with the
    generation of their connector. -/
theorem stamp_run (start : Start s₀) (run : Run (Step input) s₀ trace s) : ∀ d ∈ s.deliveries,
    d.row.sourceGeneration = d.captured.connector.generation ↔
      SameBumps (s.bumped d.captured.event.sourceId) d.captured.connector.readAt d.viewedAt := by
  have inv := run.stateInvariant (I := Inv (named s₀)) start.inv (fun _ _ _ inv step => inv_step inv step)
  exact fun _ member => inv.stamp_iff member

/-- A run in which no bump of a source lies between the read that configured a connector and the
    read of the cache that its events are written with. -/
theorem captured_generation (start : Start s₀)
    (run : Run (fun s op s' => Settled s op ∧ Step input s op s') s₀ trace s) :
    Stamped s ∧ Descends s₀ s ∧ ∀ worker contract now events s', Settled s (.write worker contract now events) →
      Step input s (.write worker contract now events) s' → KeepsNewer s s' contract.tableName events := by
  obtain ⟨inv,stamped,descends⟩ : Inv (named s₀) s ∧ Stamped s ∧ Descends s₀ s := by
    refine run.stateInvariant (I := fun s => Inv (named s₀) s ∧ Stamped s ∧ Descends s₀ s) ?_ ?_
    · exact ⟨start.inv,by simp [Stamped,start.empty],fun _ _ _ holds => .inl holds⟩
    · rintro s op s' ⟨inv,stamped,descends⟩ ⟨settled,step⟩
      have stamped' := stamped.step inv settled step
      exact ⟨inv_step inv step,stamped',descends.step stamped' step⟩
  exact ⟨stamped,descends,fun _ _ _ _ _ settled step => keepsNewer inv settled step⟩

end

/-- How PostgreSQL reads the texts below. -/
def officeInput (c : Column) (text : String) : Option Value :=
  if c = "id" then if text = "1" then some (.int 1) else none else some (.text text)

def officeEvent (name : String) (lsn : Int) : ChangeEvent :=
  ⟨"branch-001","m_office",.UPSERT,[some "1",none,none,none,some name,none,none,none],[],some lsn,0,[]⟩

/-- A source of generation 1 with its offices owned by KAFKA. -/
def officeStart : State where
  control := Convergence.kafkaOwned
  connectors := fun _ => none
  topic := []
  views := fun _ => ⟨⟨[],[],0⟩,0⟩
  tables := FenceSafety.emptyTables
  deliveries := []
  clock := 0
  bumped := fun _ => []

private theorem officeStart_start : Start officeStart := ⟨fun _ => rfl,⟨rfl,rfl⟩,fun _ => rfl,fun _ => rfl⟩

/-- The connectors of the generations 1 and 2, and what they capture: the database behind the
    second has lower log positions. -/
def oldOffice (readAt : Nat) : Captured := ⟨⟨"branch-001",1,readAt⟩,officeEvent "Old Office" 100⟩
def newOffice (readAt : Nat) : Captured := ⟨⟨"branch-001",2,readAt⟩,officeEvent "New Office" 50⟩

/-- The old connector captures an event. -/
def configured : State := State.tick { officeStart with
  connectors := Function.update officeStart.connectors 0 (some ⟨"branch-001",1,0⟩) }
def captured : State := State.tick { configured with topic := configured.topic ++ [oldOffice 0] }

/-- The generation is bumped and the new connector takes its snapshot. -/
def bumped : State := State.tick { captured with
  control := raiseGeneration captured.control "branch-001"
  bumped := Function.update captured.bumped "branch-001" (captured.bumped "branch-001" ++ [captured.clock]) }
def reconfigured : State := State.tick { bumped with
  connectors := Function.update bumped.connectors 1 (some ⟨"branch-001",2,3⟩) }
def recaptured : State := State.tick { reconfigured with topic := reconfigured.topic ++ [newOffice 3] }
def refreshed : State := State.tick { recaptured with
  views := Function.update recaptured.views 0 ⟨load recaptured.control 0,recaptured.clock⟩ }

private theorem refreshed_run : Run (Step officeInput) officeStart [.configure 0 "branch-001",
    .capture 0 (officeEvent "Old Office" 100),.bump "branch-001",.configure 1 "branch-001",
    .capture 1 (officeEvent "New Office" 50),.refresh 0 0] refreshed := by
  have first : Step officeInput officeStart (.configure 0 "branch-001") configured :=
    .configure (r := ⟨"branch-001","default",1⟩) rfl
  have second : Step officeInput configured (.capture 0 (officeEvent "Old Office" 100)) captured := .capture rfl rfl
  have third : Step officeInput captured (.bump "branch-001") bumped := .bump
  have fourth : Step officeInput bumped (.configure 1 "branch-001") reconfigured :=
    .configure (r := ⟨"branch-001","default",2⟩) rfl
  have fifth : Step officeInput reconfigured (.capture 1 (officeEvent "New Office" 50)) recaptured := .capture rfl rfl
  have sixth : Step officeInput recaptured (.refresh 0 0) refreshed := .refresh
  exact (((((Run.start.extend first).extend second).extend third).extend fourth).extend fifth).extend sixth

/-- A worker writes an event. -/
def written (s : State) (worker : Nat) (c : Captured) : State :=
  let staged := (stageAll officeInput mOfficeContract (s.views worker).snapshot [c]).getD []
  State.tick { s with
    tables := commitBatch .KAFKA s.tables ⟨mOfficeContract,0,staged.map (·.2)⟩
    deliveries := s.deliveries ++ staged.map (fun e => ⟨mOfficeContract.tableName,e.1,e.2,(s.views worker).readAt⟩) }

private theorem written_step {s : State} {worker : Nat} {c : Captured} {staged : List (Captured × StagedRow)}
    (polled : c ∈ s.topic)
    (encoded : stageAll officeInput mOfficeContract (s.views worker).snapshot [c] = some staged)
    (unfenced : fencingCheck s.control "m_office" .KAFKA (claims (staged.map (·.2))) = .ok ()) :
    Step officeInput s (.write worker mOfficeContract 0 [c]) (written s worker c) := by
  have step : Step officeInput s (.write worker mOfficeContract 0 [c]) _ := .write (by simpa using polled) encoded unfenced
  simpa only [written,encoded,Option.getD_some] using step

/-- The event of generation 1 is stored with generation 2, and the row of the new snapshot, which
    is written after it, stays out. -/
theorem old_event_stamped_new : ∃ trace s, Run (Step officeInput) officeStart trace s ∧
    s.deliveries.map (fun d => (d.captured,d.row.sourceGeneration)) = [(oldOffice 0,2),(newOffice 3,2)] ∧
    ((s.tables "m_office").raw.get ⟨"branch-001","default",1⟩).map (fun row => (row.sourceGeneration,row.cols "name")) =
      some (2,some (.text "Old Office")) := by
  have old : Step officeInput refreshed _ (written refreshed 0 (oldOffice 0)) :=
    written_step (by decide +kernel) rfl (by decide +kernel)
  have new : Step officeInput _ _ (written (written refreshed 0 (oldOffice 0)) 0 (newOffice 3)) :=
    written_step (by decide +kernel) rfl (by decide +kernel)
  exact ⟨_,_,(refreshed_run.extend old).extend new,by decide +kernel,by decide +kernel⟩

/-- A second event of the old connector. -/
def lateOffice : Captured := ⟨⟨"branch-001",1,0⟩,officeEvent "Late Office" 120⟩

/-- A worker reads the registry. -/
def viewedBy (s : State) (worker : Nat) : State :=
  State.tick { s with views := Function.update s.views worker ⟨load s.control 0,s.clock⟩ }

def capturedBy (s : State) (c : Captured) : State := State.tick { s with topic := s.topic ++ [c] }

/-- Two workers view generation 1, its connector captures two events and the first is written. -/
def viewedOld : State := viewedBy (viewedBy configured 0) 1
def polledOld : State := capturedBy (capturedBy viewedOld (oldOffice 0)) lateOffice
def oldWritten : State := written polledOld 0 (oldOffice 0)

/-- The generation is bumped and the new connector captures. -/
def resnapshot : State := State.tick { oldWritten with
  control := raiseGeneration oldWritten.control "branch-001"
  bumped := Function.update oldWritten.bumped "branch-001" (oldWritten.bumped "branch-001" ++ [oldWritten.clock]) }
def resnapshotConfigured : State := State.tick { resnapshot with
  connectors := Function.update resnapshot.connectors 1 (some ⟨"branch-001",2,7⟩) }

/-- The first worker reads the registry again and writes the new event; the second has the old view still. -/
def polledNew : State := viewedBy (capturedBy resnapshotConfigured (newOffice 7)) 0
def newWritten : State := written polledNew 0 (newOffice 7)
def lateWritten : State := written newWritten 1 lateOffice

def SettledStep (s : State) (op : Op) (s' : State) : Prop := Settled s op ∧ Step officeInput s op s'

private theorem oldWritten_run : Run SettledStep officeStart
    [.configure 0 "branch-001",.refresh 0 0,.refresh 1 0,.capture 0 (officeEvent "Old Office" 100),
      .capture 0 (officeEvent "Late Office" 120),.write 0 mOfficeContract 0 [oldOffice 0]] oldWritten := by
  have configure : SettledStep officeStart (.configure 0 "branch-001") configured :=
    ⟨trivial,.configure (r := ⟨"branch-001","default",1⟩) rfl⟩
  have view : SettledStep configured (.refresh 0 0) (viewedBy configured 0) := ⟨trivial,.refresh⟩
  have view' : SettledStep (viewedBy configured 0) (.refresh 1 0) viewedOld := ⟨trivial,.refresh⟩
  have capture : SettledStep viewedOld (.capture 0 (officeEvent "Old Office" 100)) (capturedBy viewedOld (oldOffice 0)) :=
    ⟨trivial,.capture rfl rfl⟩
  have capture' : SettledStep (capturedBy viewedOld (oldOffice 0)) (.capture 0 (officeEvent "Late Office" 120)) polledOld :=
    ⟨trivial,.capture rfl rfl⟩
  have write : SettledStep polledOld (.write 0 mOfficeContract 0 [oldOffice 0]) oldWritten :=
    ⟨fun _ _ _ member => absurd member List.not_mem_nil,written_step (by decide +kernel) rfl (by decide +kernel)⟩
  exact (((((Run.start.extend configure).extend view).extend view').extend capture).extend capture').extend write

/-- The connector of generation 2 and the cache of the first worker were both read after the bump. -/
theorem newWritten_run : ∃ trace, Run SettledStep officeStart trace newWritten := by
  have bump : SettledStep oldWritten (.bump "branch-001") resnapshot := ⟨trivial,.bump⟩
  have configure : SettledStep resnapshot (.configure 1 "branch-001") resnapshotConfigured :=
    ⟨trivial,.configure (r := ⟨"branch-001","default",2⟩) rfl⟩
  have capture : SettledStep resnapshotConfigured (.capture 1 (officeEvent "New Office" 50))
      (capturedBy resnapshotConfigured (newOffice 7)) := ⟨trivial,.capture rfl rfl⟩
  have view : SettledStep (capturedBy resnapshotConfigured (newOffice 7)) (.refresh 0 0) polledNew := ⟨trivial,.refresh⟩
  have write : SettledStep polledNew (.write 0 mOfficeContract 0 [newOffice 7]) newWritten := by
    refine ⟨fun c member => ?_,written_step (by decide +kernel) rfl (by decide +kernel)⟩
    obtain rfl := List.mem_singleton.mp member
    decide +kernel
  exact ⟨_,((((oldWritten_run.extend bump).extend configure).extend capture).extend view).extend write⟩

/-- Both events are stored with the generations of their connectors, and a late event of the old connector, which the second
    worker writes with its old view, leaves the row of the new snapshot. -/
theorem captured_generation_office : ∃ trace, Run (Step officeInput) officeStart trace newWritten ∧
    newWritten.deliveries.map (fun d => (d.captured,d.row.sourceGeneration)) = [(oldOffice 0,1),(newOffice 7,2)] ∧
    Stamped newWritten ∧ Descends officeStart newWritten ∧
    Step officeInput newWritten (.write 1 mOfficeContract 0 [lateOffice]) lateWritten ∧
    KeepsNewer newWritten lateWritten "m_office" [lateOffice] ∧
    ((newWritten.tables "m_office").raw.get ⟨"branch-001","default",1⟩).map (fun row => (row.sourceGeneration,row.cols "name")) =
      some (2,some (.text "New Office")) := by
  obtain ⟨trace,run⟩ := newWritten_run
  obtain ⟨stamped,descends,keeps⟩ := captured_generation officeStart_start run
  have late : Step officeInput newWritten (.write 1 mOfficeContract 0 [lateOffice]) lateWritten :=
    written_step (by decide +kernel) rfl (by decide +kernel)
  have settled : Settled newWritten (.write 1 mOfficeContract 0 [lateOffice]) := by
    intro c member
    obtain rfl := List.mem_singleton.mp member
    decide +kernel
  exact ⟨trace,run.imp (fun _ _ _ taken => taken.2),by decide +kernel,stamped,descends,late,keeps _ _ _ _ _ settled late,
    by decide +kernel⟩

end FineractBi.CaptureStamp
