import FineractBi.Envelope
import FineractBi.Lib.Binary64
import FineractBi.Lib.Runs
import Mathlib.Logic.Function.Basic

/-!
The consumer loop of the sink: `SinkWorker.process` and the steps around it
(batches, retries, isolation, quarantine, rebalances, crashes), any number of
workers over one log, one DLT and the table `meta.consumer_offsets`.

The log of a partition only grows: retention and truncation are left out, and
`WarehouseWriter.write` is one atomic transaction.
-/
namespace FineractBi.SinkWorker
open Runs FineractBi.Routing FineractBi.Envelope

structure TopicPartition where
  topic : String
  partition : Int
  deriving DecidableEq, Repr

/-- What is read of a `ConsumerRecord`. -/
structure Record where
  topic : String
  partition : Int
  offset : Nat
  value : Option Bytes
  deriving DecidableEq, Repr

/-- `SinkWorker.partitionOf`. -/
def Record.tp (r : Record) : TopicPartition := ⟨r.topic,r.partition⟩

/-- The records of one partition. -/
def recordsOf (tp : TopicPartition) (rs : List Record) : List Record := rs.filter (fun r => r.tp = tp)

/-- The log of a partition: `finish` is the end that `endOffsets` reports. -/
structure Log (tp : TopicPartition) where
  beginning : Nat
  records : List Record
  finish : Nat
  ordered : records.Pairwise (fun a b => a.offset < b.offset)
  inside : ∀ r ∈ records, r.tp = tp ∧ beginning ≤ r.offset ∧ r.offset < finish
  bounds : beginning ≤ finish

/-- The log has got new records at its end. -/
def Log.Extends {tp : TopicPartition} (old new : Log tp) : Prop :=
  new.beginning = old.beginning ∧ old.finish ≤ new.finish ∧
    ∃ fresh, new.records = old.records ++ fresh ∧ ∀ r ∈ fresh, old.finish ≤ r.offset

/-- The records that a consumer at `position` is given next. -/
def Log.from {tp : TopicPartition} (log : Log tp) (position : Nat) : List Record :=
  log.records.filter (fun r => position ≤ r.offset)

/-- A map from partitions to offsets. -/
abbrev OffsetMap := TopicPartition → Option Nat

def OffsetMap.nowhere : OffsetMap := fun _ => none

def OffsetMap.put (map : OffsetMap) (tp : TopicPartition) (offset : Nat) : OffsetMap :=
  Function.update map tp (some offset)

/-- The larger offset of two, as `mergeCommit`, `next.merge(tp, offset, Math::max)`
    and GREATEST in the upsert of `meta.consumer_offsets` take it. -/
def OffsetMap.merge (into entries : OffsetMap) : OffsetMap := fun tp =>
  match into tp, entries tp with
  | some a, some b => some (max a b)
  | some a, none => some a
  | none, b => b

/-- The map with one entry. -/
def OffsetMap.single (tp : TopicPartition) (offset : Nat) : OffsetMap := OffsetMap.nowhere.put tp offset

/-- The settings of `SinkConfig` that decide what happens to a record. -/
structure Config where
  unknownSourcePolicy : String
  startFromEarliestWithoutDbOffset : Bool
  allowOffsetReset : Bool
  quarantineMaxRows : Int
  quarantineMaxRatio : Binary64.Double

/-- `"skip".equalsIgnoreCase(policy)`, with the characters that Java folds together. -/
def isSkip (policy : String) : Bool :=
  match policy.toList with
  | [a,b,c,d] => a ∈ ['s','S','ſ'] && b ∈ ['k','K','\u212a'] && c ∈ ['i','I','ı','İ'] && d ∈ ['p','P']
  | _ => false

/-- What the workers of one sink share. -/
structure Setting where
  config : Config
  contract : Contract
  platform : Platform

variable (setting : Setting)

structure RoutedEvent where
  record : Record
  event : ChangeEvent
  route : Route
  deriving DecidableEq, Repr

/-- `DeadLetterPublisher.DeadLetter`. -/
structure DeadLetter where
  record : Record
  reason : String
  message : String
  deriving DecidableEq, Repr

/-- What the loop of `process` has gathered. A skip check stands with the record it is for. -/
structure Plan where
  writes : List RoutedEvent
  letters : List DeadLetter
  skips : List (Record × SkipCheck)
  next : OffsetMap
  heldFrom : OffsetMap

def Plan.empty (alreadyHeld : OffsetMap) : Plan := ⟨[],[],[],OffsetMap.nowhere,alreadyHeld⟩

/-- `next.merge(tp, r.offset() + 1, Math::max)`. -/
def Plan.pass (plan : Plan) (r : Record) : Plan :=
  { plan with next := plan.next.merge (.single r.tp (r.offset + 1)) }

def Plan.deadLetter (plan : Plan) (r : Record) (reason message : String) : Plan :=
  { plan with letters := plan.letters ++ [⟨r,reason,message⟩] }

def Plan.skip (plan : Plan) (r : Record) (check : SkipCheck) : Plan :=
  { plan with skips := plan.skips ++ [(r,check)] }

/-- Where a parsed event goes. -/
def direct (route : Route) (event : ChangeEvent) (r : Record) (plan : Plan) : Plan :=
  match route.target with
  | .HOLD => { plan with heldFrom := plan.heldFrom.put r.tp r.offset }
  | .PROD => { plan.pass r with writes := plan.writes ++ [⟨r,event,route⟩] }
  | .SHADOW => { plan.pass r with writes := plan.writes ++ [⟨r,event,route⟩] }
  | .SKIP => (plan.pass r).skip r ⟨event.sourceId,event.table,route.epoch⟩
  | .UNKNOWN_SOURCE =>
    if isSkip setting.config.unknownSourcePolicy
    then (plan.pass r).skip r ⟨event.sourceId,event.table,mustBeUnregistered⟩
    else (plan.pass r).deadLetter r "UNKNOWN_SOURCE" ("Source " ++ event.sourceId ++ " is not registered")

/-- One record of the batch; an unchecked exception of the parser leaves `process`. -/
def handle (snap : OwnershipSnapshot) (plan : Plan) (r : Record) : Option Plan :=
  if (plan.heldFrom r.tp).isSome then some plan
  else
    match parse setting.platform setting.contract r.topic r.value with
    | .error (.poison reason message) => some ((plan.pass r).deadLetter r reason message)
    | .error (.unchecked _) => none
    | .ok none => some (plan.pass r)
    | .ok (some event) => some (direct setting (snap.route event.sourceId event.table) event r plan)

/-- `SinkWorker.process` up to the point where it publishes and writes. -/
def process (snap : OwnershipSnapshot) (alreadyHeld : OffsetMap) (batch : List Record) : Option Plan :=
  exec (handle setting snap) (.empty alreadyHeld) batch

/-- `offsets.isEmpty()`: nothing is written. -/
def Plan.quiet (plan : Plan) (batch : List Record) : Bool := batch.all (fun r => (plan.next r.tp).isNone)

inductive Kind
  | TRANSIENT | DATA | FATAL
  deriving DecidableEq, Repr

/-- `SqlFailures.classify`. -/
def classify (sqlState : Option String) : Kind :=
  match sqlState with
  | none => .TRANSIENT
  | some state =>
    let starts : String → Bool := fun code => code.toList.isPrefixOf state.toList
    if state = "FBI02" then .FATAL
    else if starts "22" || starts "23" then .DATA
    else if starts "08" || starts "40" || starts "53" || starts "57" || starts "55" || starts "25" then .TRANSIENT
    else if starts "42" || starts "0A" || starts "XX" || starts "FBI" then .FATAL
    else .TRANSIENT

/-- What `process` can throw: a `SQLException` (a `FencedWriteException` is the one
    with SQLSTATE FBI01), or the failure of a publish. -/
inductive Failure
  | sql (state : Option String)
  | undelivered
  deriving DecidableEq, Repr

def fenced : Failure := .sql (some "FBI01")

/-- An isolation in progress: the deque of parts and the local variables of `isolate`. -/
structure Isolation where
  work : List (List Record)
  snap : OwnershipSnapshot
  heldFrom : OffsetMap
  commit : OffsetMap
  limit : Int
  quarantined : Int
  fencedInARow : Nat

/-- A worker and its consumer: `position` holds the assigned partitions, `view` is
    the snapshot that the ownership cache holds, `commit` what is to be committed to Kafka. -/
structure Worker where
  buffer : List Record
  held : TopicPartition → Bool
  position : OffsetMap
  view : OwnershipSnapshot
  tripped : Bool
  commit : OffsetMap
  isolation : Option Isolation

def OwnershipSnapshot.empty : OwnershipSnapshot := ⟨[],[],0⟩

/-- A worker that has just started. -/
def idle : Worker := ⟨[],fun _ => false,.nowhere,OwnershipSnapshot.empty,false,.nowhere,none⟩

/-- Whether `removeProcessed` counts a record of the batch as processed. -/
def processed (heldFrom : OffsetMap) (r : Record) : Bool :=
  match heldFrom r.tp with
  | none => true
  | some from' => r.offset < from'

/-- `SinkWorker.removeProcessed`. -/
def removeProcessed (batch : List Record) (heldFrom : OffsetMap) (buffer : List Record) : List Record :=
  buffer.filter (fun r => !(r ∈ batch && processed heldFrom r))

/-- `SinkWorker.applyHolds`. -/
def Worker.applyHolds (w : Worker) (heldFrom : OffsetMap) : Worker :=
  { w with held := fun tp => (heldFrom tp).isSome && (w.position tp).isSome }

/-- `settle` and `mergeCommit` after a batch. -/
def Worker.settle (w : Worker) (plan : Plan) : Worker :=
  ({ w with
      buffer := removeProcessed w.buffer plan.heldFrom w.buffer
      commit := w.commit.merge plan.next
      tripped := false } : Worker).applyHolds plan.heldFrom

/-- `SinkWorker.quarantineLimit`. -/
def quarantineLimit (batchSize : Nat) : Int :=
  max 1 (min setting.config.quarantineMaxRows (setting.config.quarantineMaxRatio.timesInt batchSize).ceilInt)

/-- What `processWithRetry` does about a failed batch: a permanent error stops the
    worker, the first data error starts an isolation, anything else is retried. -/
def Worker.retry (w : Worker) (failure : Failure) : Worker :=
  match failure with
  | .undelivered => w
  | .sql state =>
    if failure = fenced then w
    else
      match classify state with
      | .FATAL => idle
      | .TRANSIENT => w
      | .DATA =>
        if w.tripped then w
        else { w with isolation := some ⟨[w.buffer],w.view,.nowhere,.nowhere,quarantineLimit setting w.buffer.length,0,0⟩ }

/-- `SinkWorker.keepAlive`: only records of assigned partitions stay in the deque. -/
def keepAlive (position : OffsetMap) (work : List (List Record)) : List (List Record) :=
  work.map (·.filter (fun r => (position r.tp).isSome))

/-- The end of `isolate` by an exception, whose commits are lost. -/
def Worker.abandon (w : Worker) (iso : Isolation) : Worker := { w.applyHolds iso.heldFrom with isolation := none }

/-- The end of `isolate` when the deque is empty. -/
def Worker.finish (w : Worker) (iso : Isolation) : Worker :=
  { w.applyHolds iso.heldFrom with isolation := none, commit := w.commit.merge iso.commit }

/-- A part is processed. -/
def Worker.settlePart (w : Worker) (iso : Isolation) (part : List Record) (rest : List (List Record)) (plan : Plan) :
    Worker :=
  { w with
    buffer := removeProcessed part plan.heldFrom w.buffer
    isolation := some { iso with
      work := rest, heldFrom := plan.heldFrom, commit := iso.commit.merge plan.next, fencedInARow := 0 } }

/-- What `isolate` does about a failed part, other than to quarantine a single record. -/
def Worker.retryPart (w : Worker) (iso : Isolation) (part : List Record) (rest : List (List Record))
    (failure : Failure) : Worker :=
  match failure with
  | .undelivered => w.abandon iso
  | .sql state =>
    if failure = fenced then
      if iso.fencedInARow + 1 ≥ 5 then w.abandon iso
      else { w with isolation := some { iso with
        work := part :: rest, snap := w.view, fencedInARow := iso.fencedInARow + 1 } }
    else
      match classify state with
      | .FATAL => idle
      | .TRANSIENT => w.abandon iso
      | .DATA =>
        if part.length > 1 then
          let mid := part.length / 2
          { w with isolation := some { iso with work := part.take mid :: part.drop mid :: rest } }
        else { w.abandon iso with tripped := true }

/-- A record is dead-lettered and its offset written. -/
def Worker.quarantine (w : Worker) (iso : Isolation) (r : Record) (rest : List (List Record)) : Worker :=
  { w with
    buffer := w.buffer.filter (· ≠ r)
    isolation := some { iso with
      work := rest, commit := iso.commit.merge (.single r.tp (r.offset + 1)), quarantined := iso.quarantined + 1 } }

/-- A committed transaction of `WarehouseWriter.write`, with the control tables it
    saw and the holds that its worker knew of. -/
structure Transaction where
  control : ControlState
  writes : List RoutedEvent
  skips : List (Record × SkipCheck)
  offsets : OffsetMap
  heldFrom : OffsetMap

/-- The claims that `meta.apply_staged_batch` finds in the stage of one table. -/
def claims (writes : List RoutedEvent) (table : String) : List StagedClaim :=
  ((writes.filter (fun w => w.event.table = table)).map
    (fun w => ⟨w.event.sourceId,w.route.target.stageTarget.getD "",w.route.epoch⟩)).dedup

/-- The checks of the write transaction pass. -/
def Accepted (tx : Transaction) : Prop :=
  verifySkips tx.control (tx.skips.map (·.2)) = .ok () ∧
    ∀ table ∈ tx.writes.map (·.event.table), fencingCheck tx.control table .KAFKA (claims tx.writes table) = .ok ()

structure State where
  log : (tp : TopicPartition) → Log tp
  control : ControlState
  stored : OffsetMap
  kafka : OffsetMap
  workers : Nat → Worker
  transactions : List Transaction
  acknowledged : List Record

def State.setWorker (s : State) (id : Nat) (w : Worker) : State := { s with workers := Function.update s.workers id w }

/-- The DLT has acknowledged the records. -/
def State.publish (s : State) (records : List Record) : State := { s with acknowledged := s.acknowledged ++ records }

/-- A transaction commits. -/
def State.commit (s : State) (tx : Transaction) : State :=
  { s with stored := s.stored.merge tx.offsets, transactions := s.transactions ++ [tx] }

/-- The transaction that writes a plan. -/
def State.write (s : State) (plan : Plan) : Transaction := ⟨s.control,plan.writes,plan.skips,plan.next,plan.heldFrom⟩

/-- `SinkWorker.quarantine`: the letter is acknowledged, then the offset is written. -/
def State.deadLetter (s : State) (r : Record) (heldFrom : OffsetMap) : State :=
  (s.publish [r]).commit ⟨s.control,[],[],.single r.tp (r.offset + 1),heldFrom⟩

/-- What publishing and writing a plan can lead to; `none` is a return without an exception. -/
inductive Attempt (s : State) (batch : List Record) (plan : Plan) : State → Option Failure → Prop
  | unpublished {acknowledged : List DeadLetter} (some' : plan.letters ≠ []) (sent : acknowledged.Sublist plan.letters) :
      Attempt s batch plan (s.publish (acknowledged.map (·.record))) (some .undelivered)
  | unwritten (state : Option String) (busy : plan.quiet batch = false) :
      Attempt s batch plan (s.publish (plan.letters.map (·.record))) (some (.sql state))
  | unanswered (state : Option String) (busy : plan.quiet batch = false) (accepted : Accepted (s.write plan)) :
      Attempt s batch plan ((s.publish (plan.letters.map (·.record))).commit (s.write plan)) (some (.sql state))
  | written (busy : plan.quiet batch = false) (accepted : Accepted (s.write plan)) :
      Attempt s batch plan ((s.publish (plan.letters.map (·.record))).commit (s.write plan)) none
  | nothing (quiet : plan.quiet batch = true) : Attempt s batch plan s none

/-- `commitAsync`, of which Kafka accepts what it likes. -/
def State.commitAsync (s : State) (commit : OffsetMap) (accepted : TopicPartition → Bool) : State :=
  { s with kafka := fun tp => if accepted tp && (commit tp).isSome then commit tp else s.kafka tp }

/-- The position that Kafka gives a partition that nothing was sought for
    (auto.offset.reset is earliest). -/
def State.fallback (s : State) (tp : TopicPartition) : Nat :=
  match s.kafka tp with
  | some k => if (s.log tp).beginning ≤ k ∧ k ≤ (s.log tp).finish then k else (s.log tp).beginning
  | none => (s.log tp).beginning

/-- `onPartitionsAssigned` for one partition; the error is a `SinkFatalException`. -/
def seekTo (s : State) (tp : TopicPartition) : Except String Nat :=
  match s.stored tp with
  | none => .ok (if setting.config.startFromEarliestWithoutDbOffset then (s.log tp).beginning else s.fallback tp)
  | some offset =>
    let low := (s.log tp).beginning
    let high := (s.log tp).finish
    if offset < low ∨ offset > high then
      let problem := if offset < low
        then "its stored offset " ++ toString offset ++ " is older than the log start " ++ toString low ++
          " (the topic's retention expired events that were never applied)"
        else "its stored offset " ++ toString offset ++ " is beyond the log end " ++ toString high ++
          " (the topic was recreated or truncated)"
      if setting.config.allowOffsetReset then .ok low
      else .error ("Partition " ++ tp.topic ++ "-" ++ toString tp.partition ++ ": " ++ problem ++
        ". Refusing to continue silently; reconcile the source, then set" ++
        " SINK_ALLOW_OFFSET_RESET=true or fix the stored offset.")
    else .ok offset

/-- The steps. The number is the worker that takes it. -/
inductive Step : State → Option Nat → State → Prop
  | produce {s : State} {tp : TopicPartition} {log : Log tp} (grown : (s.log tp).Extends log) :
      Step s none { s with log := Function.update s.log tp log }
  | govern {s : State} (control : ControlState) : Step s none { s with control := control }
  | refresh {s : State} {id : Nat} (view : OwnershipSnapshot) :
      Step s (some id) (s.setWorker id { s.workers id with view := view })
  | assign {s : State} {id : Nat} {tp : TopicPartition} {offset : Nat} (free : (s.workers id).position tp = none)
      (sought : seekTo setting s tp = .ok offset) :
      Step s (some id) (s.setWorker id { s.workers id with position := (s.workers id).position.put tp offset })
  | assignUnsought {s : State} {id : Nat} {tp : TopicPartition} (free : (s.workers id).position tp = none)
      (swallowed : (s.workers id).isolation.isSome) :
      Step s (some id) (s.setWorker id { s.workers id with position := (s.workers id).position.put tp (s.fallback tp) })
  | revoke {s : State} {id : Nat} (partitions : TopicPartition → Bool) :
      Step s (some id) (s.setWorker id { s.workers id with
        buffer := (s.workers id).buffer.filter (fun r => !partitions r.tp)
        held := fun tp => (s.workers id).held tp && !partitions tp
        position := fun tp => if partitions tp then none else (s.workers id).position tp })
  | crash {s : State} {id : Nat} : Step s (some id) (s.setWorker id idle)
  | poll {s : State} {id : Nat} {tp : TopicPartition} {offset upTo : Nat} (free : (s.workers id).isolation = none)
      (running : (s.workers id).held tp = false) (assigned : (s.workers id).position tp = some offset)
      (forward : offset ≤ upTo) (available : upTo ≤ (s.log tp).finish) :
      Step s (some id) (s.setWorker id { s.workers id with
        buffer := (s.workers id).buffer ++ ((s.log tp).from offset).filter (fun r => r.offset < upTo)
        position := (s.workers id).position.put tp upTo })
  | stray {s : State} {id : Nat} {tp : TopicPartition} {offset : Nat} {r : Record} {rest : List Record}
      (assigned : (s.workers id).position tp = some offset) (polled : (s.log tp).from offset = r :: rest) :
      Step s (some id) (s.setWorker id { s.workers id with position := (s.workers id).position.put tp r.offset })
  | batch {s t : State} {id : Nat} {plan : Plan} (free : (s.workers id).isolation = none)
      (full : (s.workers id).buffer ≠ [])
      (planned : process setting (s.workers id).view .nowhere (s.workers id).buffer = some plan)
      (attempted : Attempt s (s.workers id).buffer plan t none) :
      Step s (some id) (t.setWorker id ((s.workers id).settle plan))
  | batchFailed {s t : State} {id : Nat} {plan : Plan} {failure : Failure} (free : (s.workers id).isolation = none)
      (full : (s.workers id).buffer ≠ [])
      (planned : process setting (s.workers id).view .nowhere (s.workers id).buffer = some plan)
      (attempted : Attempt s (s.workers id).buffer plan t (some failure)) :
      Step s (some id) (t.setWorker id ((s.workers id).retry setting failure))
  | part {s t : State} {id : Nat} {iso : Isolation} {part : List Record} {rest : List (List Record)} {plan : Plan}
      (isolating : (s.workers id).isolation = some iso)
      (head : keepAlive (s.workers id).position iso.work = part :: rest)
      (planned : process setting iso.snap iso.heldFrom part = some plan) (attempted : Attempt s part plan t none) :
      Step s (some id) (t.setWorker id ((s.workers id).settlePart iso part rest plan))
  | partFailed {s t : State} {id : Nat} {iso : Isolation} {part : List Record} {rest : List (List Record)}
      {plan : Plan} {failure : Failure} (isolating : (s.workers id).isolation = some iso)
      (head : keepAlive (s.workers id).position iso.work = part :: rest)
      (planned : process setting iso.snap iso.heldFrom part = some plan)
      (attempted : Attempt s part plan t (some failure))
      (otherwise : ¬ (∃ state, failure = .sql state ∧ classify state = .DATA ∧ part.length = 1 ∧
        iso.quarantined < iso.limit)) :
      Step s (some id) (t.setWorker id ((s.workers id).retryPart iso part rest failure))
  | quarantine {s t : State} {id : Nat} {iso : Isolation} {r : Record} {rest : List (List Record)} {plan : Plan}
      {state : Option String} (isolating : (s.workers id).isolation = some iso)
      (head : keepAlive (s.workers id).position iso.work = [r] :: rest)
      (planned : process setting iso.snap iso.heldFrom [r] = some plan)
      (attempted : Attempt s [r] plan t (some (.sql state))) (rejected : classify state = .DATA)
      (below : iso.quarantined < iso.limit) :
      Step s (some id) ((t.deadLetter r iso.heldFrom).setWorker id
        ((s.workers id).quarantine iso r rest))
  | quarantineFailed {s t u : State} {id : Nat} {iso : Isolation} {r : Record} {rest : List (List Record)} {plan : Plan}
      {state : Option String} (isolating : (s.workers id).isolation = some iso)
      (head : keepAlive (s.workers id).position iso.work = [r] :: rest)
      (planned : process setting iso.snap iso.heldFrom [r] = some plan)
      (attempted : Attempt s [r] plan t (some (.sql state))) (rejected : classify state = .DATA)
      (below : iso.quarantined < iso.limit)
      (interrupted : u = t ∨ u = t.publish [r] ∨
        u = t.deadLetter r iso.heldFrom) :
      Step s (some id) (u.setWorker id ((s.workers id).abandon iso))
  | skipPart {s : State} {id : Nat} {iso : Isolation} {rest : List (List Record)}
      (isolating : (s.workers id).isolation = some iso)
      (head : keepAlive (s.workers id).position iso.work = [] :: rest) :
      Step s (some id) (s.setWorker id { s.workers id with isolation := some { iso with work := rest } })
  | abandon {s : State} {id : Nat} {iso : Isolation} (isolating : (s.workers id).isolation = some iso) :
      Step s (some id) (s.setWorker id ((s.workers id).abandon iso))
  | finish {s : State} {id : Nat} {iso : Isolation} (isolating : (s.workers id).isolation = some iso)
      (done : iso.work = []) : Step s (some id) (s.setWorker id ((s.workers id).finish iso))
  | commitAsync {s : State} {id : Nat} (accepted : TopicPartition → Bool) :
      Step s (some id) ((s.commitAsync (s.workers id).commit accepted).setWorker id
        { s.workers id with commit := .nowhere })

end FineractBi.SinkWorker
