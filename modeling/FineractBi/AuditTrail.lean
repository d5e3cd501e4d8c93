import Mathlib.Data.Finset.Card
import Mathlib.Tactic.Abel
import FineractBi.Lib.Separator
import FineractBi.Lib.SwapBuffer
import FineractBi.SinkSafety

/-!
The audit of the sink: what `process` and `quarantine` count for the records they
have handled, and how `ProgressReporter` brings the counts to
`meta.ingestion_audit` while the workers go on counting. A worker reads the
current map and then updates an entry of it; a flush that comes between the two
has already written that map, and the count is lost.
-/
namespace FineractBi.AuditTrail
open Runs SwapBuffer FineractBi.Routing FineractBi.Envelope FineractBi.SinkWorker FineractBi.SinkSafety
open Transaction (Commit)

/-- `ProgressReporter.Audit`, and the `long[4]` of `process`. -/
@[ext] structure Counts where
  consumed : Nat
  applied : Nat
  skipped : Nat
  deadLettered : Nat
  deriving DecidableEq, Repr

instance : Add Counts :=
  ⟨fun a b => ⟨a.consumed + b.consumed,a.applied + b.applied,a.skipped + b.skipped,a.deadLettered + b.deadLettered⟩⟩
instance : Zero Counts := ⟨⟨0,0,0,0⟩⟩

@[simp] theorem consumed_add (a b : Counts) : (a + b).consumed = a.consumed + b.consumed := rfl
@[simp] theorem applied_add (a b : Counts) : (a + b).applied = a.applied + b.applied := rfl
@[simp] theorem skipped_add (a b : Counts) : (a + b).skipped = a.skipped + b.skipped := rfl
@[simp] theorem deadLettered_add (a b : Counts) : (a + b).deadLettered = a.deadLettered + b.deadLettered := rfl
@[simp] theorem consumed_zero : (0 : Counts).consumed = 0 := rfl
@[simp] theorem applied_zero : (0 : Counts).applied = 0 := rfl
@[simp] theorem skipped_zero : (0 : Counts).skipped = 0 := rfl
@[simp] theorem deadLettered_zero : (0 : Counts).deadLettered = 0 := rfl

instance : AddCommMonoid Counts where
  add_assoc a b c := by ext <;> simp [Nat.add_assoc]
  zero_add a := by ext <;> simp
  add_zero a := by ext <;> simp
  add_comm a b := by ext <;> simp [Nat.add_comm]
  nsmul := nsmulRec

/-- Every record that is consumed is applied, skipped or dead-lettered. -/
def Balanced (c : Counts) : Prop := c.consumed = c.applied + c.skipped + c.deadLettered

/-- `topic.substring(topic.lastIndexOf('.') + 1)`. -/
def tableOf (topic : String) : String :=
  match Separator.rpartition ['.'] topic.toList with
  | none => topic
  | some (_,after) => String.ofList after

section
variable (setting : Setting)

/-- What `process` counts for a record. -/
def counted (snap : OwnershipSnapshot) (plan : Plan) (r : Record) : Counts :=
  if (plan.heldFrom r.tp).isSome then 0
  else
    match parse setting.platform setting.contract r.topic r.value with
    | .error (.poison _ _) => ⟨1,0,0,1⟩
    | .error (.unchecked _) => 0
    | .ok none => ⟨1,0,1,0⟩
    | .ok (some event) =>
      match (snap.route event.sourceId event.table).target with
      | .HOLD => 0
      | .PROD => ⟨1,1,0,0⟩
      | .SHADOW => ⟨1,1,0,0⟩
      | .SKIP => ⟨1,0,1,0⟩
      | .UNKNOWN_SOURCE => if isSkip setting.config.unknownSourcePolicy then ⟨1,0,1,0⟩ else ⟨1,0,0,1⟩

/-- One turn of the loop of `process`, with the map `perTable`. A held partition is passed over
    before its table gets an entry. -/
def tally (snap : OwnershipSnapshot) (acc : Plan × List (String × Counts)) (r : Record) :
    Option (Plan × List (String × Counts)) :=
  (handle setting snap acc.1 r).map (fun plan =>
    (plan,if (acc.1.heldFrom r.tp).isSome then acc.2 else upsert acc.2 (tableOf r.topic,counted setting snap acc.1 r)))

/-- `process` up to the point where it publishes and writes, with its counts. -/
def processCounted (snap : OwnershipSnapshot) (alreadyHeld : OffsetMap) (batch : List Record) :
    Option (Plan × List (String × Counts)) :=
  exec (tally setting snap) (.empty alreadyHeld,[]) batch

/-- The records of a batch that an advance of the offsets goes past. -/
def covered (offsets : OffsetMap) (batch : List Record) : List Record :=
  batch.filter (fun r => (offsets r.tp).any (r.offset < ·))

/-- What a turn of a worker leaves to the audit: the records whose offsets its transactions
    advanced, the counts that the worker reports when its calls have returned, and whether
    every write that took effect also returned. -/
structure Account where
  committed : List Record
  reports : List (Nat × String × Counts)
  answered : Bool

/-- The counts of a batch, as its worker reports them. -/
def reportsOf (id : Nat) (perTable : List (String × Counts)) : List (Nat × String × Counts) :=
  perTable.map (fun entry => (id,entry.1,entry.2))

/-- The steps of the sink with their accounts. -/
inductive Turn : State → Option Nat → State → Account → Prop
  | silent {s t : State} {id : Option Nat} (step : SinkWorker.Step setting s id t)
      (nothing : t.transactions = s.transactions) : Turn s id t ⟨[],[],true⟩
  | batch {s t : State} {id : Nat} {plan : Plan} {perTable : List (String × Counts)}
      (free : (s.workers id).isolation = none) (full : (s.workers id).buffer ≠ [])
      (planned : processCounted setting (s.workers id).view .nowhere (s.workers id).buffer = some (plan,perTable))
      (attempted : Attempt s (s.workers id).buffer plan t none) :
      Turn s (some id) (t.setWorker id ((s.workers id).settle plan))
        ⟨covered plan.next (s.workers id).buffer,reportsOf id perTable,true⟩
  | batchUnanswered {s : State} {id : Nat} {plan : Plan} {state : Option String}
      (free : (s.workers id).isolation = none) (full : (s.workers id).buffer ≠ [])
      (planned : process setting (s.workers id).view .nowhere (s.workers id).buffer = some plan)
      (busy : plan.quiet (s.workers id).buffer = false) (accepted : Accepted (s.write plan)) :
      Turn s (some id) (((s.publish (plan.letters.map (·.record))).commit (s.write plan)).setWorker id
        ((s.workers id).retry setting (.sql state))) ⟨covered plan.next (s.workers id).buffer,[],false⟩
  | part {s t : State} {id : Nat} {iso : Isolation} {part : List Record} {rest : List (List Record)} {plan : Plan}
      {perTable : List (String × Counts)} (isolating : (s.workers id).isolation = some iso)
      (head : keepAlive (s.workers id).position iso.work = part :: rest)
      (planned : processCounted setting iso.snap iso.heldFrom part = some (plan,perTable))
      (attempted : Attempt s part plan t none) :
      Turn s (some id) (t.setWorker id ((s.workers id).settlePart iso part rest plan))
        ⟨covered plan.next part,reportsOf id perTable,true⟩
  | partUnanswered {s : State} {id : Nat} {iso : Isolation} {part : List Record} {rest : List (List Record)}
      {plan : Plan} {state : Option String} (isolating : (s.workers id).isolation = some iso)
      (head : keepAlive (s.workers id).position iso.work = part :: rest)
      (planned : process setting iso.snap iso.heldFrom part = some plan) (busy : plan.quiet part = false)
      (accepted : Accepted (s.write plan))
      (otherwise : ¬ (∃ state', Failure.sql state = .sql state' ∧ classify state' = .DATA ∧ part.length = 1 ∧
        iso.quarantined < iso.limit)) :
      Turn s (some id) (((s.publish (plan.letters.map (·.record))).commit (s.write plan)).setWorker id
        ((s.workers id).retryPart iso part rest (.sql state))) ⟨covered plan.next part,[],false⟩
  | quarantine {s t : State} {id : Nat} {iso : Isolation} {r : Record} {rest : List (List Record)} {plan : Plan}
      {state : Option String} (isolating : (s.workers id).isolation = some iso)
      (head : keepAlive (s.workers id).position iso.work = [r] :: rest)
      (planned : process setting iso.snap iso.heldFrom [r] = some plan)
      (attempted : Attempt s [r] plan t (some (.sql state))) (rejected : classify state = .DATA)
      (below : iso.quarantined < iso.limit) :
      Turn s (some id) ((t.deadLetter r iso.heldFrom).setWorker id ((s.workers id).quarantine iso r rest))
        ⟨[r],[(id,tableOf r.topic,⟨1,0,0,1⟩)],t.transactions.length = s.transactions.length⟩
  | quarantineUnanswered {s t u : State} {id : Nat} {iso : Isolation} {r : Record} {rest : List (List Record)}
      {plan : Plan} {state : Option String} (isolating : (s.workers id).isolation = some iso)
      (head : keepAlive (s.workers id).position iso.work = [r] :: rest)
      (planned : process setting iso.snap iso.heldFrom [r] = some plan)
      (attempted : Attempt s [r] plan t (some (.sql state))) (rejected : classify state = .DATA)
      (below : iso.quarantined < iso.limit)
      (interrupted : u = t ∨ u = t.publish [r] ∨ u = t.deadLetter r iso.heldFrom)
      (effect : u.transactions ≠ s.transactions) :
      Turn s (some id) (u.setWorker id ((s.workers id).abandon iso)) ⟨[r],[],false⟩

/-- The sink with the memory of `ProgressReporter` (its map of audits, by table and minute), the
    counts that workers have still to report, the map that a worker has read, and all records
    whose handling is committed, in the order of the commits. -/
structure System where
  sink : State
  reporter : Buffer (String × String) Counts
  due : List (Nat × String × Counts)
  inHand : Nat → Option Nat
  handled : List Record

/-- A sink that has just started. -/
def System.start (sink : State) : System := ⟨sink,SwapBuffer.empty,[],fun _ => none,[]⟩

inductive Label
  | turn (id : Option Nat) (account : Account)
  | readMap (id : Nat)
  | update (id : Nat) (table minute : String)
  | swap
  | write (map : Nat) (outcome : Commit)
  | mergeBack (map : Nat)

/-- A worker reports its counts before it does anything else. Flushes may overlap: the timer has
    one, the end of the sink another. A flush that finds its maps empty writes nothing. -/
inductive Step : System → Label → System → Prop
  | turn {s : System} {id : Option Nat} {t : State} {account : Account} (taken : Turn setting s.sink id t account)
      (reported : ∀ entry ∈ s.due, some entry.1 ≠ id) :
      Step s (.turn id account)
        { s with sink := t, due := s.due ++ account.reports, handled := s.handled ++ account.committed }
  | readMap {s : System} {id : Nat} (waiting : ∃ entry ∈ s.due, entry.1 = id) (free : s.inHand id = none) :
      Step s (.readMap id) { s with inHand := Function.update s.inHand id (some s.reporter.current) }
  | update {s : System} {id m : Nat} {table minute : String} {counts : Counts} {before after : List (Nat × String × Counts)}
      (read : s.inHand id = some m) (next : s.due = before ++ (id,table,counts) :: after) :
      Step s (.update id table minute)
        { s with
          reporter := s.reporter.add m (table,minute) counts
          due := before ++ after
          inHand := Function.update s.inHand id none }
  | swap {s : System} : Step s .swap { s with reporter := s.reporter.swap }
  | write {s : System} {m : Nat} (outcome : Commit) (swapped : m ∈ s.reporter.swapped) :
      Step s (.write m outcome) { s with reporter := s.reporter.write m outcome }
  | mergeBack {s : System} {m : Nat} (failed : m ∈ s.reporter.failed) :
      Step s (.mergeBack m) { s with reporter := s.reporter.mergeBack m }

end

/-- The counts of a table: written, in the maps, and in the hands of the workers. -/
def System.counts (s : System) (table : String) : Counts :=
  s.reporter.sum (fun key => key.1 = table) + total (fun t => t = table) (s.due.map Prod.snd)

/-- The records of a table whose handling is committed, each of them once. -/
def System.handledOf (s : System) (table : String) : Finset Record :=
  (s.handled.filter (fun r => tableOf r.topic = table)).toFinset

/-- The audit accounts for every handled record of the table exactly once. -/
structure Accounted (s : System) (table : String) : Prop where
  balanced : Balanced (s.counts table)
  consumed : (s.counts table).consumed = (s.handledOf table).card

/-- A step that loses or repeats no count: no write of the warehouse takes effect while its call
    throws, no record is handled again, and what a worker adds to the map it has read is still to
    be written. -/
def Clean (s : System) : Label → Prop
  | .turn _ account => account.answered = true ∧ ∀ r ∈ account.committed, r ∉ s.handled
  | .update id table minute => ∀ m, s.inHand id = some m → s.reporter.Lands m (table,minute)
  | .write _ outcome => outcome ≠ .unanswered
  | _ => True

/-! ### Counting a batch -/

private theorem balanced_zero : Balanced 0 := rfl

private theorem balanced_add {a b : Counts} (left : Balanced a) (right : Balanced b) : Balanced (a + b) := by
  simp only [Balanced,consumed_add,applied_add,skipped_add,deadLettered_add] at left right ⊢
  omega

variable {setting : Setting} {snap : OwnershipSnapshot} {plan plan' : Plan} {r : Record}

/-- A record is counted once when its offset is passed, and not at all when it is held. -/
theorem counted_handle (handled : handle setting snap plan r = some plan') :
    Balanced (counted setting snap plan r) ∧
    ((counted setting snap plan r = 0 ∧ plan'.next = plan.next ∧ (plan'.heldFrom r.tp).isSome) ∨
      ((counted setting snap plan r).consumed = 1 ∧ plan.heldFrom r.tp = none ∧
        plan'.next = plan.next.merge (.single r.tp (r.offset + 1)))) := by
  unfold handle at handled
  unfold counted
  split at handled
  · next held =>
    obtain rfl := Option.some.inj handled
    rw [if_pos held]
    exact ⟨balanced_zero,.inl ⟨rfl,rfl,held⟩⟩
  · next unheld =>
    rw [if_neg unheld]
    have free : plan.heldFrom r.tp = none := Option.not_isSome_iff_eq_none.mp unheld
    cases parsed : parse setting.platform setting.contract r.topic r.value with
    | error thrown =>
      rw [parsed] at handled
      cases thrown with
      | poison reason message =>
        obtain rfl := Option.some.inj handled
        exact ⟨rfl,.inr ⟨rfl,free,rfl⟩⟩
      | unchecked => cases handled
    | ok read =>
      rw [parsed] at handled
      cases read with
      | none =>
        obtain rfl := Option.some.inj handled
        exact ⟨rfl,.inr ⟨rfl,free,rfl⟩⟩
      | some event =>
        obtain rfl := Option.some.inj handled
        simp only [direct]
        cases target : (snap.route event.sourceId event.table).target with
        | HOLD => exact ⟨balanced_zero,.inl ⟨rfl,rfl,by simp [OffsetMap.put]⟩⟩
        | PROD => exact ⟨rfl,.inr ⟨rfl,free,rfl⟩⟩
        | SHADOW => exact ⟨rfl,.inr ⟨rfl,free,rfl⟩⟩
        | SKIP => exact ⟨rfl,.inr ⟨rfl,free,rfl⟩⟩
        | UNKNOWN_SOURCE =>
          dsimp only
          split
          · exact ⟨rfl,.inr ⟨rfl,free,rfl⟩⟩
          · exact ⟨rfl,.inr ⟨rfl,free,rfl⟩⟩

/-- The counts of a table in a batch of which `passed` are the records that are not held. -/
structure Tallied (setting : Setting) (snap : OwnershipSnapshot) (already : OffsetMap) (batch : List Record)
    (acc : Plan × List (String × Counts)) (passed : List Record) : Prop where
  plan : PlanFor setting snap already batch acc.1
  inside : passed.Sublist batch
  balanced : ∀ table, Balanced (total (fun t => t = table) acc.2)
  consumed : ∀ table, (total (fun t => t = table) acc.2).consumed =
    (passed.filter (fun r => tableOf r.topic = table)).length
  past : ∀ r ∈ passed, ∃ n, acc.1.next r.tp = some n ∧ r.offset < n
  held : (∀ tp, already tp = none → (recordsOf tp batch).Pairwise (fun a b => a.offset < b.offset)) →
    (∀ r ∈ batch, ∀ h, already r.tp = some h → h ≤ r.offset) →
    ∀ r ∈ batch, r ∉ passed → ∃ h, acc.1.heldFrom r.tp = some h ∧ h ≤ r.offset

private theorem handle_heldFrom (handled : handle setting snap plan r = some plan') {tp : TopicPartition} {h : Nat}
    (held : plan.heldFrom tp = some h) : plan'.heldFrom tp = some h := by
  rcases handle_cases handled with ⟨-,rfl⟩ | ⟨unheld,rfl⟩ | ⟨-,passes⟩
  · exact held
  · have other : tp ≠ r.tp := by
      rintro rfl
      rw [unheld] at held
      cases held
    exact (Function.update_of_ne other _ _).trans held
  · rw [passes.heldFrom,held]

/-- A hold of the partition of the last record is not above it. -/
theorem heldFrom_le {already : OffsetMap} {batch : List Record} {h : Nat}
    (spec : PlanFor setting snap already (batch ++ [r]) plan) (held : plan.heldFrom r.tp = some h)
    (ordered : ∀ tp, already tp = none → (recordsOf tp (batch ++ [r])).Pairwise (fun a b => a.offset < b.offset))
    (behind : ∀ x ∈ batch ++ [r], ∀ h, already x.tp = some h → h ≤ x.offset) : h ≤ r.offset := by
  cases free : already r.tp with
  | some before =>
    rw [(spec.held r.tp before free).1] at held
    exact Option.some.inj held ▸ behind r (by simp) before free
  | none =>
    obtain ⟨passed,rest,splits⟩ := spec.free r.tp free
    rw [splits.heldFrom] at held
    obtain ⟨head,first,rfl⟩ := Option.map_eq_some_iff.mp held
    have inside : head ∈ recordsOf r.tp (batch ++ [r]) := by
      rw [splits.parts]
      exact List.mem_append_right _ (List.mem_of_head? first)
    have sorted := ordered r.tp free
    rw [recordsOf_snoc,if_pos rfl] at inside sorted
    rcases List.mem_append.mp inside with old | new
    · exact Nat.le_of_lt ((List.pairwise_append.mp sorted).2.2 head old r (by simp))
    · rw [List.mem_singleton.mp new]

/-- What a turn of the loop adds to the counts of a table. -/
theorem tally_total {acc acc' : Plan × List (String × Counts)} (taken : tally setting snap acc r = some acc')
    (table : String) : total (fun t => t = table) acc'.2 =
      total (fun t => t = table) acc.2 + (if tableOf r.topic = table then counted setting snap acc.1 r else 0) := by
  obtain ⟨plan',-,rfl⟩ := Option.map_eq_some_iff.mp taken
  dsimp only
  split
  · next held =>
    have nothing : counted setting snap acc.1 r = 0 := if_pos held
    simp [nothing]
  · simp [total_upsert]

private theorem Tallied.snoc {already : OffsetMap} {batch passed : List Record} {acc acc' : Plan × List (String × Counts)}
    (tallied : Tallied setting snap already batch acc passed) (taken : tally setting snap acc r = some acc') :
    ∃ passed', Tallied setting snap already (batch ++ [r]) acc' passed' := by
  have totals := tally_total taken
  obtain ⟨plan',handled,rfl⟩ := Option.map_eq_some_iff.mp taken
  have spec := tallied.plan.handle handled
  obtain ⟨balance,count⟩ := counted_handle handled
  have balanced : ∀ table, Balanced (total (fun t => t = table) acc.2 +
      (if tableOf r.topic = table then counted setting snap acc.1 r else 0)) := by
    intro table
    refine balanced_add (tallied.balanced table) ?_
    split
    · exact balance
    · exact balanced_zero
  -- the earlier records, which stay held
  have earlier : (∀ tp, already tp = none → (recordsOf tp (batch ++ [r])).Pairwise (fun a b => a.offset < b.offset)) →
      (∀ x ∈ batch ++ [r], ∀ h, already x.tp = some h → h ≤ x.offset) →
      ∀ x ∈ batch, x ∉ passed → ∃ h, plan'.heldFrom x.tp = some h ∧ h ≤ x.offset := by
    intro ordered behind x member absent
    have before : ∀ tp, already tp = none → (recordsOf tp batch).Pairwise (fun a b => a.offset < b.offset) := by
      intro tp free
      have sorted := ordered tp free
      rw [recordsOf_append] at sorted
      exact (List.pairwise_append.mp sorted).1
    obtain ⟨h,found,below⟩ := tallied.held before (fun x member => behind x (List.mem_append_left _ member)) x member absent
    exact ⟨h,handle_heldFrom handled found,below⟩
  rcases count with ⟨nothing,next,held⟩ | ⟨one,free,next⟩
  · refine ⟨passed,spec,tallied.inside.trans (List.sublist_append_left _ _),?_,?_,?_,?_⟩
    · intro table
      rw [totals]
      exact balanced table
    · intro table
      rw [totals,nothing,consumed_add,tallied.consumed]
      split <;> rfl
    · intro x member
      dsimp only
      rw [next]
      exact tallied.past x member
    · intro ordered behind x member absent
      rcases List.mem_append.mp member with old | new
      · exact earlier ordered behind x old absent
      · obtain rfl := List.mem_singleton.mp new
        obtain ⟨h,found⟩ := Option.isSome_iff_exists.mp held
        exact ⟨h,found,heldFrom_le spec found ordered behind⟩
  · refine ⟨passed ++ [r],spec,tallied.inside.append (List.Sublist.refl _),?_,?_,?_,?_⟩
    · intro table
      rw [totals]
      exact balanced table
    · intro table
      rw [totals,consumed_add,tallied.consumed,List.filter_append,List.length_append]
      split
      · next same => rw [one,List.filter_cons_of_pos (by simpa using same)]; rfl
      · next other => rw [List.filter_cons_of_neg (by simpa using other)]; rfl
    · intro x member
      dsimp only
      rw [next]
      rcases List.mem_append.mp member with old | new
      · obtain ⟨n,found,less⟩ := tallied.past x old
        obtain ⟨m,merged,larger⟩ := merge_left (b := .single r.tp (r.offset + 1)) found
        exact ⟨m,merged,Nat.lt_of_lt_of_le less larger⟩
      · obtain rfl := List.mem_singleton.mp new
        exact merge_right (a := acc.1.next) (single_self x.tp (x.offset + 1))
    · intro ordered behind x member absent
      rcases List.mem_append.mp member with old | new
      · exact earlier ordered behind x old (fun inside => absent (List.mem_append_left _ inside))
      · exact absurd (List.mem_append_right _ new) absent

private theorem processCounted_tallied {already : OffsetMap} {batch : List Record} {perTable : List (String × Counts)}
    (made : processCounted setting snap already batch = some (plan,perTable)) :
    ∃ passed, Tallied setting snap already batch (plan,perTable) passed := by
  have run : Run (fun acc r acc' => tally setting snap acc r = some acc') (.empty already,[]) batch (plan,perTable) :=
    exec_run (fun _ _ _ taken => taken) made
  refine run.invariant (I := fun batch acc => ∃ passed, Tallied setting snap already batch acc passed) ?_
    (fun _ _ _ _ ⟨_,tallied⟩ taken => tallied.snoc taken)
  refine ⟨[],process_spec rfl,.slnil,fun _ => balanced_zero,fun _ => rfl,by simp,by simp⟩

private theorem exec_tally (setting : Setting) (snap : OwnershipSnapshot) (acc : Plan × List (String × Counts))
    (batch : List Record) :
    (exec (tally setting snap) acc batch).map Prod.fst = exec (handle setting snap) acc.1 batch := by
  induction batch generalizing acc with
  | nil => rfl
  | cons r rest ih =>
    simp only [exec,tally]
    cases handle setting snap acc.1 r with
    | none => rfl
    | some plan => exact ih _

/-- The plan is the one of `process`. -/
theorem processCounted_process {already : OffsetMap} {batch : List Record} {perTable : List (String × Counts)}
    (made : processCounted setting snap already batch = some (plan,perTable)) :
    process setting snap already batch = some plan := by
  have same := exec_tally setting snap (.empty already,[]) batch
  rw [processCounted] at made
  rw [made] at same
  exact same.symm

private theorem process_processCounted {already : OffsetMap} {batch : List Record}
    (made : process setting snap already batch = some plan) :
    ∃ perTable, processCounted setting snap already batch = some (plan,perTable) := by
  have same := exec_tally setting snap (.empty already,[]) batch
  rw [process] at made
  rw [made] at same
  obtain ⟨⟨plan',perTable⟩,counted,rfl⟩ := Option.map_eq_some_iff.mp same
  exact ⟨perTable,counted⟩

private theorem nodup_of_recordsOf {rs : List Record} (each : ∀ tp, (recordsOf tp rs).Nodup) : rs.Nodup := by
  refine List.nodup_iff_count_le_one.mpr (fun r => ?_)
  have once := List.nodup_iff_count_le_one.mp (each r.tp) r
  rwa [recordsOf,List.count_filter (by simp)] at once

/-- Records of a batch whose offsets its plan passes occur once. -/
theorem nodup_of_next {already : OffsetMap} {batch rs : List Record} (spec : PlanFor setting snap already batch plan)
    (ordered : ∀ tp, already tp = none → (recordsOf tp batch).Pairwise (fun a b => a.offset < b.offset))
    (inside : rs.Sublist batch) (passes : ∀ r ∈ rs, plan.next r.tp ≠ none) : rs.Nodup := by
  refine nodup_of_recordsOf (fun tp => ?_)
  cases free : already tp with
  | none =>
    have sorted := (ordered tp free).sublist (inside.filter _)
    exact sorted.imp (fun less same => by rw [same] at less; omega)
  | some h =>
    have empty : recordsOf tp rs = [] := by
      refine List.filter_eq_nil_iff.mpr (fun r member same => passes r member ?_)
      rw [of_decide_eq_true same]
      exact (spec.held tp h free).2.1
    rw [empty]
    exact .nil

/-- The counts of a batch are those of the records that its offsets go past. -/
theorem processCounted_covered {already : OffsetMap} {batch : List Record} {perTable : List (String × Counts)}
    (made : processCounted setting snap already batch = some (plan,perTable))
    (ordered : ∀ tp, already tp = none → (recordsOf tp batch).Pairwise (fun a b => a.offset < b.offset))
    (behind : ∀ r ∈ batch, ∀ h, already r.tp = some h → h ≤ r.offset) :
    (covered plan.next batch).Nodup ∧ ∀ table, Balanced (total (fun t => t = table) perTable) ∧
      (total (fun t => t = table) perTable).consumed =
        ((covered plan.next batch).filter (fun r => tableOf r.topic = table)).length := by
  obtain ⟨passed,tallied⟩ := processCounted_tallied made
  have spec : PlanFor setting snap already batch plan := tallied.plan
  have once : passed.Nodup := by
    refine nodup_of_next spec ordered tallied.inside (fun r member gone => ?_)
    obtain ⟨n,found,-⟩ := tallied.past r member
    rw [gone] at found
    cases found
  have once' : (covered plan.next batch).Nodup := by
    refine nodup_of_next spec ordered List.filter_sublist (fun r member gone => ?_)
    have past := (List.mem_filter.mp member).2
    rw [gone] at past
    cases past
  have same : passed.Perm (covered plan.next batch) := by
    refine (List.perm_ext_iff_of_nodup once once').mpr (fun r => ?_)
    simp only [covered,List.mem_filter,Option.any_eq_true,decide_eq_true_eq]
    constructor
    · intro member
      obtain ⟨n,found,less⟩ := tallied.past r member
      exact ⟨tallied.inside.subset member,n,found,less⟩
    · rintro ⟨member,n,found,less⟩
      by_contra absent
      obtain ⟨h,held,below⟩ := tallied.held ordered behind r member absent
      have above := (spec.below ordered held).1 n found
      omega
  refine ⟨once',fun table => ⟨tallied.balanced table,?_⟩⟩
  rw [tallied.consumed,(same.filter _).length_eq]

/-! ### Turns -/

variable {first : TopicPartition → Nat} {s t : State} {id : Option Nat} {account : Account}

/-- A turn is a step of the sink, and every step of the sink is a turn. -/
theorem turn_step (turn : Turn setting s id t account) : SinkWorker.Step setting s id t := by
  cases turn with
  | silent step => exact step
  | batch free full planned attempted => exact .batch free full (processCounted_process planned) attempted
  | batchUnanswered free full planned busy accepted =>
    exact .batchFailed free full planned (.unanswered _ busy accepted)
  | part isolating head planned attempted => exact .part isolating head (processCounted_process planned) attempted
  | partUnanswered isolating head planned busy accepted otherwise =>
    exact .partFailed isolating head planned (.unanswered _ busy accepted) otherwise
  | quarantine isolating head planned attempted rejected below =>
    exact .quarantine isolating head planned attempted rejected below
  | quarantineUnanswered isolating head planned attempted rejected below interrupted =>
    exact .quarantineFailed isolating head planned attempted rejected below interrupted

theorem step_turn (step : SinkWorker.Step setting s id t) : ∃ account, Turn setting s id t account := by
  have taken := step
  cases step with
  | batch free full planned attempted =>
    obtain ⟨perTable,counted⟩ := process_processCounted planned
    exact ⟨_,.batch free full counted attempted⟩
  | batchFailed free full planned attempted =>
    cases attempted with
    | unpublished => exact ⟨_,.silent taken rfl⟩
    | unwritten => exact ⟨_,.silent taken rfl⟩
    | unanswered _ busy accepted => exact ⟨_,.batchUnanswered free full planned busy accepted⟩
  | part isolating head planned attempted =>
    obtain ⟨perTable,counted⟩ := process_processCounted planned
    exact ⟨_,.part isolating head counted attempted⟩
  | partFailed isolating head planned attempted otherwise =>
    cases attempted with
    | unpublished => exact ⟨_,.silent taken rfl⟩
    | unwritten => exact ⟨_,.silent taken rfl⟩
    | unanswered _ busy accepted => exact ⟨_,.partUnanswered isolating head planned busy accepted otherwise⟩
  | quarantine isolating head planned attempted rejected below =>
    exact ⟨_,.quarantine isolating head planned attempted rejected below⟩
  | @quarantineFailed _ u _ _ _ _ _ _ isolating head planned attempted rejected below interrupted =>
    by_cases same : u.transactions = s.transactions
    · exact ⟨_,.silent taken same⟩
    · exact ⟨_,.quarantineUnanswered isolating head planned attempted rejected below interrupted same⟩
  | _ => exact ⟨_,.silent taken rfl⟩

/-- The reports of a turn without a lost answer count its records. -/
theorem turn_accounts (inv : SinkSafety.Inv setting first s) (turn : Turn setting s id t account)
    (answered : account.answered = true) : account.committed.Nodup ∧
      ∀ table, Balanced (total (fun t => t = table) (account.reports.map Prod.snd)) ∧
        (total (fun t => t = table) (account.reports.map Prod.snd)).consumed =
          (account.committed.filter (fun r => tableOf r.topic = table)).length := by
  cases turn with
  | silent => exact ⟨.nil,fun _ => ⟨balanced_zero,rfl⟩⟩
  | @batch _ id plan perTable free full planned attempted =>
    have queue : Queue setting first s .nowhere ((s.workers id).buffer ++ []) := by
      simpa using (inv.workers id).queue
    have whole : (reportsOf id perTable).map Prod.snd = perTable := by simp [reportsOf]
    rw [whole]
    exact processCounted_covered planned queue.ordered (by simp [OffsetMap.nowhere])
  | @part _ id iso part rest plan perTable isolating head planned attempted =>
    have queue : Queue setting first s iso.heldFrom (part ++ rest.flatten) := (inv.parts isolating head).queue
    have whole : (reportsOf id perTable).map Prod.snd = perTable := by simp [reportsOf]
    rw [whole]
    exact processCounted_covered planned queue.ordered (fun r member => queue.behind r (List.mem_append_left _ member))
  | @quarantine _ id iso r =>
    refine ⟨List.nodup_singleton r,fun table => ?_⟩
    by_cases same : tableOf r.topic = table
    · simp [same,Balanced]
    · simp [same,Balanced]
  | batchUnanswered => cases answered
  | partUnanswered => cases answered
  | quarantineUnanswered => cases answered

/-- The counts are those of the handled records, and every cell is written once. -/
structure Inv (setting : Setting) (first : TopicPartition → Nat) (s : System) : Prop where
  sink : SinkSafety.Inv setting first s.sink
  reporter : s.reporter.Sound []
  once : s.handled.Nodup
  counts : ∀ table, Balanced (s.counts table) ∧
    (s.counts table).consumed = (s.handled.filter (fun r => tableOf r.topic = table)).length

/-- A step of the reporter. -/
theorem Inv.report {s t : System} (inv : Inv setting first s) (sink : t.sink = s.sink) (handled : t.handled = s.handled)
    (sound : t.reporter.Sound []) (counts : ∀ table, t.counts table = s.counts table) : Inv setting first t where
  sink := sink ▸ inv.sink
  reporter := sound
  once := handled ▸ inv.once
  counts := fun table => by rw [counts,handled]; exact inv.counts table

theorem inv_step {s t : System} {label : Label} (inv : Inv setting first s) (clean : Clean s label)
    (step : Step setting s label t) : Inv setting first t := by
  cases step with
  | @turn id t account taken reported =>
    obtain ⟨answered,fresh⟩ := clean
    obtain ⟨once,counted⟩ := turn_accounts inv.sink taken answered
    refine ⟨SinkSafety.inv_step inv.sink (turn_step taken),inv.reporter,?_,fun table => ?_⟩
    · exact List.nodup_append'.mpr ⟨inv.once,once,fun r old new => fresh r new old⟩
    · have grown : System.counts
          { s with sink := t, due := s.due ++ account.reports, handled := s.handled ++ account.committed } table =
          s.counts table + total (fun t => t = table) (account.reports.map Prod.snd) := by
        simp only [System.counts,List.map_append,total_append,add_assoc]
      rw [grown,consumed_add,List.filter_append,List.length_append,(inv.counts table).2,(counted table).2]
      exact ⟨balanced_add (inv.counts table).1 (counted table).1,rfl⟩
  | readMap waiting free => exact inv.report rfl rfl inv.reporter (fun _ => rfl)
  | @update id m table minute counts before after read next =>
    have lands := clean m read
    refine inv.report rfl rfl (add_sound inv.reporter lands) (fun other => ?_)
    -- the counts go from the worker to the map
    calc (s.reporter.add m (table,minute) counts).sum (fun key => key.1 = other) +
          total (fun t => t = other) ((before ++ after).map Prod.snd)
        = s.reporter.sum (fun key => key.1 = other) + (if decide (table = other) then counts else 0) +
          total (fun t => t = other) ((before ++ after).map Prod.snd) := by rw [add_sum inv.reporter lands]
      _ = s.counts other := by
        simp only [System.counts,next,List.map_append,List.map_cons,total_append,total_cons]
        abel
  | swap => exact inv.report rfl rfl (swap_sound inv.reporter) (fun table => by rw [System.counts,swap_sum inv.reporter]; rfl)
  | write outcome swapped =>
    refine inv.report rfl rfl (write_sound (p := fun _ => true) swapped clean inv.reporter).1 (fun table => ?_)
    rw [System.counts,(write_sound swapped clean inv.reporter).2]
    rfl
  | mergeBack failed =>
    refine inv.report rfl rfl (mergeBack_sound (p := fun _ => true) failed inv.reporter).1 (fun table => ?_)
    rw [System.counts,(mergeBack_sound failed inv.reporter).2]
    rfl

/-- In every run of clean steps the audit accounts for every handled record exactly once. -/
theorem audit_accounts (setting : Setting) (first : TopicPartition → Nat) (sink : State) (trace : List Label) (t : System)
    (initial : Initial setting first sink)
    (run : Run (fun s label t => Clean s label ∧ Step setting s label t) (.start sink) trace t) :
    ∀ table, Accounted t table := by
  have begins : Inv setting first (.start sink) :=
    ⟨initial.inv,empty_sound,.nil,fun _ => ⟨balanced_zero,rfl⟩⟩
  have inv := run.stateInvariant (I := Inv setting first) begins (fun _ _ _ inv step => inv_step inv step.1 step.2)
  intro table
  refine ⟨(inv.counts table).1,?_⟩
  rw [(inv.counts table).2,System.handledOf,List.toFinset_card_of_nodup (inv.once.filter _)]

def bankCounts : Counts := ⟨2,1,1,0⟩

private theorem bankWorker_counted : ∃ plan,
    processCounted bankSetting bankWorker.view .nowhere bankWorker.buffer =
      some (plan,[("m_office",bankCounts)]) ∧
    plan.quiet bankWorker.buffer = false ∧ Accepted (bankStart.write plan) ∧
    covered plan.next bankWorker.buffer = [officeRecord 0 none,officeRecord 1 (some [1])] := by
  refine ⟨_,rfl,by decide,⟨by decide,by decide⟩,by decide⟩

private theorem bank_initial : Initial bankSetting (fun tp => (bankStart.log tp).beginning) bankStart :=
  ⟨fun _ => rfl,rfl,fun _ => rfl,by simp [bankStart,OffsetMap.nowhere],by simp [bankStart,OffsetMap.nowhere]⟩

/-- The worker has written its batch and not reported it yet. -/
def bankWritten (sink : State) : System :=
  ⟨sink,SwapBuffer.empty,[(0,"m_office",bankCounts)],fun _ => none,[officeRecord 0 none,officeRecord 1 (some [1])]⟩

/-- A step before the first batch. -/
theorem start_turn (step : SinkWorker.Step setting s id t) (nothing : t.transactions = s.transactions) :
    Clean (.start s) (.turn id ⟨[],[],true⟩) ∧ AuditTrail.Step setting (.start s) (.turn id ⟨[],[],true⟩) (.start t) :=
  ⟨⟨rfl,fun _ member => (List.not_mem_nil member).elim⟩,
    .turn (.silent step nothing) (fun _ member => (List.not_mem_nil member).elim)⟩

private theorem bank_batch : ∃ trace sink,
    Run (fun s label t => Clean s label ∧ Step bankSetting s label t) (.start bankStart) trace (bankWritten sink) := by
  obtain ⟨plan,made,busy,accepted,past⟩ := bankWorker_counted
  let viewing := bankStart.setWorker 0 { idle with view := load bankControl 0 }
  let assigned := viewing.setWorker 0 { viewing.workers 0 with position := (viewing.workers 0).position.put officeTopic 0 }
  let polled := assigned.setWorker 0 { assigned.workers 0 with
    buffer := (assigned.workers 0).buffer ++ (officeLog.from 0).filter (fun r => r.offset < 3)
    position := (assigned.workers 0).position.put officeTopic 3 }
  have view : SinkWorker.Step bankSetting bankStart (some 0) viewing := .refresh (load bankControl 0)
  have assign : SinkWorker.Step bankSetting viewing (some 0) assigned := .assign rfl rfl
  have poll : SinkWorker.Step bankSetting assigned (some 0) polled :=
    .poll rfl rfl (show (assigned.workers 0).position officeTopic = some 0 from rfl) (by decide) (by decide)
  let stored := ((polled.publish (plan.letters.map (·.record))).commit (polled.write plan)).setWorker 0
    ((polled.workers 0).settle plan)
  let account : Account := ⟨covered plan.next bankWorker.buffer,reportsOf 0 [("m_office",bankCounts)],true⟩
  have write : Turn bankSetting polled (some 0) stored account :=
    .batch rfl (show bankWorker.buffer ≠ [] by decide) made (.written busy accepted)
  have report : AuditTrail.Step bankSetting (.start polled) (.turn (some 0) account) (bankWritten stored) := by
    rw [bankWritten,← past]
    exact .turn (s := .start polled) write (fun _ member => (List.not_mem_nil member).elim)
  have clean : Clean (.start polled) (.turn (some 0) account) := ⟨rfl,fun _ _ => List.not_mem_nil⟩
  exact ⟨_,_,(((Run.start.extend (start_turn view rfl)).extend (start_turn assign rfl)).extend
    (start_turn poll rfl)).extend ⟨clean,report⟩⟩

def noAudits : Buffer (String × String) Counts := SwapBuffer.empty
def officeMinute : String × String := ("m_office","2024-01-01T00:00:00Z")

/-- The map is updated, swapped and written. -/
def updatedThenWritten : Buffer (String × String) Counts := ((noAudits.add 0 officeMinute bankCounts).swap).write 0 .done

/-- The map is swapped and written, and then updated. -/
def writtenThenUpdated : Buffer (String × String) Counts := (noAudits.swap.write 0 .done).add 0 officeMinute bankCounts

/-- The worker has read the first map. -/
def bankRead (sink : State) : System := { bankWritten sink with inHand := Function.update (fun _ => none) 0 (some 0) }

/-- The worker has reported its counts. -/
def bankReported (sink : State) (reporter : Buffer (String × String) Counts) : System :=
  { bankRead sink with reporter := reporter, due := [], inHand := Function.update (bankRead sink).inHand 0 none }

private theorem bankRead_step (sink : State) : AuditTrail.Step bankSetting (bankWritten sink) (.readMap 0) (bankRead sink) :=
  .readMap ⟨_,List.mem_singleton_self _,rfl⟩ rfl

/-- The worker updates the map before the flush, and its counts are written. -/
theorem audit_accounts_written : ∃ trace t,
    Run (fun s label t => Clean s label ∧ AuditTrail.Step bankSetting s label t) (.start bankStart) trace t ∧
    total (fun key => key.1 = "m_office") t.reporter.written = bankCounts ∧ Accounted t "m_office" := by
  obtain ⟨trace,sink,run⟩ := bank_batch
  have update : AuditTrail.Step bankSetting (bankRead sink) (.update 0 "m_office" "2024-01-01T00:00:00Z")
      (bankReported sink (noAudits.add 0 officeMinute bankCounts)) :=
    @Step.update bankSetting (bankRead sink) 0 0 "m_office" "2024-01-01T00:00:00Z" bankCounts [] [] rfl rfl
  have lands : noAudits.Lands 0 officeMinute := by decide
  have clean : Clean (bankRead sink) (.update 0 "m_office" "2024-01-01T00:00:00Z") := by
    rintro m ⟨⟩
    exact lands
  have swapping : AuditTrail.Step bankSetting _ .swap (bankReported sink (noAudits.add 0 officeMinute bankCounts).swap) :=
    .swap (s := bankReported sink (noAudits.add 0 officeMinute bankCounts))
  have out : 0 ∈ (noAudits.add 0 officeMinute bankCounts).swap.swapped := by decide
  have write : AuditTrail.Step bankSetting _ (.write 0 .done) (bankReported sink updatedThenWritten) :=
    .write (s := bankReported sink (noAudits.add 0 officeMinute bankCounts).swap) .done out
  have answered : Clean (bankReported sink (noAudits.add 0 officeMinute bankCounts).swap) (.write 0 .done) :=
    (by decide : Commit.done ≠ .unanswered)
  have reads : Clean (bankWritten sink) (.readMap 0) := trivial
  have swaps : Clean (bankReported sink (noAudits.add 0 officeMinute bankCounts)) .swap := trivial
  have whole := (((run.extend ⟨reads,bankRead_step sink⟩).extend ⟨clean,update⟩).extend ⟨swaps,swapping⟩).extend
    ⟨answered,write⟩
  have counts : total (fun key => key.1 = "m_office") updatedThenWritten.written = bankCounts := by decide
  exact ⟨_,_,whole,counts,audit_accounts bankSetting _ bankStart _ _ bank_initial whole "m_office"⟩

/-- The flush comes between the reading and the update, and the counts are lost. -/
theorem flush_loses_update : ∃ trace t, Run (AuditTrail.Step bankSetting) (.start bankStart) trace t ∧
    (t.counts "m_office").consumed = 0 ∧ (t.handledOf "m_office").card = 2 ∧ ¬ Accounted t "m_office" := by
  obtain ⟨trace,sink,run⟩ := bank_batch
  have swapping : AuditTrail.Step bankSetting (bankRead sink) .swap { bankRead sink with reporter := noAudits.swap } :=
    .swap (s := bankRead sink)
  have out : 0 ∈ noAudits.swap.swapped := by decide
  have write : AuditTrail.Step bankSetting _ (.write 0 .done)
      { bankRead sink with reporter := noAudits.swap.write 0 .done } :=
    .write (s := { bankRead sink with reporter := noAudits.swap }) .done out
  have update : AuditTrail.Step bankSetting _ (.update 0 "m_office" "2024-01-01T00:00:00Z")
      (bankReported sink writtenThenUpdated) :=
    @Step.update bankSetting { bankRead sink with reporter := noAudits.swap.write 0 .done } 0 0 "m_office"
      "2024-01-01T00:00:00Z" bankCounts [] [] rfl rfl
  have whole := ((((run.imp (fun _ _ _ step => step.2)).extend (bankRead_step sink)).extend swapping).extend write).extend
    update
  have lost : (writtenThenUpdated.sum (fun key => key.1 = "m_office") +
      total (fun t => t = "m_office") ([] : List (String × Counts))).consumed = 0 := by decide
  have both : (([officeRecord 0 none,officeRecord 1 (some [1])] : List Record).filter
      (fun r => tableOf r.topic = "m_office")).toFinset.card = 2 := by decide
  refine ⟨_,_,whole,lost,both,fun accounted => ?_⟩
  have same : (writtenThenUpdated.sum (fun key => key.1 = "m_office") +
      total (fun t => t = "m_office") ([] : List (String × Counts))).consumed = 2 := accounted.consumed.trans both
  rw [lost] at same
  cases same

end FineractBi.AuditTrail
