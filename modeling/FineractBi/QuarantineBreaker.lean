import Mathlib.Data.Finset.Card
import FineractBi.SinkSafety

/-!
The quarantine breaker over one call of `processWithRetry`: which records of the
batch are dead-lettered as rejected by the warehouse, whatever fails in which
order. What a transaction or a publish answers is left open here.
-/
namespace FineractBi.QuarantineBreaker
open Runs Binary64 FineractBi.Routing FineractBi.Envelope FineractBi.SinkWorker

variable (setting : Setting)

/-- A call in progress, with the records that it has published as WAREHOUSE_REJECTED. -/
structure Call where
  worker : Worker
  rejected : List Record
  returned : Bool

def Call.start (w : Worker) : Call := ⟨w,[],false⟩

/-- The failures that stop the worker. -/
def fatal (failure : Failure) : Bool :=
  match failure with
  | .undelivered => false
  | .sql state => failure ≠ fenced && classify state = .FATAL

/-- `dropBuffered`, after a rebalance has taken partitions away. -/
def dropBuffered (w : Worker) (partitions : TopicPartition → Bool) : Worker :=
  { w with
    buffer := w.buffer.filter (fun r => !partitions r.tp)
    held := fun tp => w.held tp && !partitions tp
    position := fun tp => if partitions tp then none else w.position tp }

/-- The steps of `processWithRetry` and `isolate`. The polls in between may rebalance, and the
    call may be interrupted or stopped at any point. -/
inductive CallStep : Call → Unit → Call → Prop
  | refresh {c : Call} (running : c.returned = false) (view : OwnershipSnapshot) :
      CallStep c () { c with worker := { c.worker with view := view } }
  | assign {c : Call} (running : c.returned = false) (tp : TopicPartition) (offset : Nat) :
      CallStep c () { c with worker := { c.worker with position := c.worker.position.put tp offset } }
  | revoke {c : Call} (running : c.returned = false) (partitions : TopicPartition → Bool) :
      CallStep c () { c with worker := dropBuffered c.worker partitions }
  | stop {c : Call} (running : c.returned = false) : CallStep c () { c with returned := true }
  | batch {c : Call} {plan : Plan} (running : c.returned = false) (free : c.worker.isolation = none)
      (full : c.worker.buffer ≠ [])
      (planned : process setting c.worker.view .nowhere c.worker.buffer = some plan) :
      CallStep c () { c with worker := c.worker.settle plan, returned := true }
  | batchFailed {c : Call} {plan : Plan} {failure : Failure} (running : c.returned = false)
      (free : c.worker.isolation = none) (full : c.worker.buffer ≠ [])
      (planned : process setting c.worker.view .nowhere c.worker.buffer = some plan) :
      CallStep c () { c with worker := c.worker.retry setting failure, returned := fatal failure }
  | part {c : Call} {iso : Isolation} {part : List Record} {rest : List (List Record)} {plan : Plan}
      (running : c.returned = false) (isolating : c.worker.isolation = some iso)
      (head : keepAlive c.worker.position iso.work = part :: rest)
      (planned : process setting iso.snap iso.heldFrom part = some plan) :
      CallStep c () { c with worker := c.worker.settlePart iso part rest plan }
  | partFailed {c : Call} {iso : Isolation} {part : List Record} {rest : List (List Record)} {plan : Plan}
      {failure : Failure} (running : c.returned = false) (isolating : c.worker.isolation = some iso)
      (head : keepAlive c.worker.position iso.work = part :: rest)
      (planned : process setting iso.snap iso.heldFrom part = some plan)
      (otherwise : ¬ (∃ state, failure = .sql state ∧ classify state = .DATA ∧ part.length = 1 ∧
        iso.quarantined < iso.limit)) :
      CallStep c () { c with worker := c.worker.retryPart iso part rest failure, returned := fatal failure }
  | quarantine {c : Call} {iso : Isolation} {r : Record} {rest : List (List Record)} {plan : Plan}
      (running : c.returned = false) (isolating : c.worker.isolation = some iso)
      (head : keepAlive c.worker.position iso.work = [r] :: rest)
      (planned : process setting iso.snap iso.heldFrom [r] = some plan) (below : iso.quarantined < iso.limit) :
      CallStep c () { c with worker := c.worker.quarantine iso r rest, rejected := c.rejected ++ [r] }
  | quarantineFailed {c : Call} {iso : Isolation} {r : Record} {rest : List (List Record)} {plan : Plan}
      (running : c.returned = false) (isolating : c.worker.isolation = some iso)
      (head : keepAlive c.worker.position iso.work = [r] :: rest)
      (planned : process setting iso.snap iso.heldFrom [r] = some plan) (below : iso.quarantined < iso.limit)
      (published : Bool) (failure : Failure) :
      CallStep c () { c with
        worker := c.worker.abandon iso
        rejected := if published then c.rejected ++ [r] else c.rejected
        returned := fatal failure }
  | skipPart {c : Call} {iso : Isolation} {rest : List (List Record)} (running : c.returned = false)
      (isolating : c.worker.isolation = some iso) (head : keepAlive c.worker.position iso.work = [] :: rest) :
      CallStep c () { c with worker := { c.worker with isolation := some { iso with work := rest } } }
  | finish {c : Call} {iso : Isolation} (running : c.returned = false)
      (isolating : c.worker.isolation = some iso) (done : iso.work = []) :
      CallStep c () { c with worker := c.worker.finish iso }

private theorem quarantineLimit_pos (n : Nat) : 1 ≤ quarantineLimit setting n := le_max_left _ _

/-- A ratio that is no positive number leaves the least limit. -/
theorem quarantineLimit_least {n : Nat} (none_left : (setting.config.quarantineMaxRatio.timesInt n).ceilInt ≤ 0) :
    quarantineLimit setting n = 1 :=
  max_eq_left ((min_le_right _ _).trans (none_left.trans (by decide)))

/-- The limit of a smaller batch is not larger. -/
theorem quarantineLimit_mono {m n : Nat} (fewer : m ≤ n) : quarantineLimit setting m ≤ quarantineLimit setting n := by
  have positive := quarantineLimit_pos setting n
  have least (none_left : (setting.config.quarantineMaxRatio.timesInt m).ceilInt ≤ 0) :
      quarantineLimit setting m ≤ quarantineLimit setting n := (quarantineLimit_least setting none_left).trans_le positive
  have ordered (rows : (setting.config.quarantineMaxRatio.timesInt m).ceilInt ≤
      (setting.config.quarantineMaxRatio.timesInt n).ceilInt) : quarantineLimit setting m ≤ quarantineLimit setting n :=
    max_le_max (le_refl 1) (min_le_min (le_refl _) rows)
  cases ratio : setting.config.quarantineMaxRatio with
  | nan => exact least (by rw [ratio]; exact le_refl 0)
  | infinite negative =>
    rw [ratio] at least ordered
    by_cases none_buffered : m = 0
    · exact least (by simp [none_buffered,Double.timesInt,Double.ceilInt])
    · have some_buffered : n ≠ 0 := by omega
      have natural (k : Nat) : ¬(k : Int) < 0 := by omega
      exact ordered (by simp [Double.timesInt,none_buffered,some_buffered,natural])
  | finite q _ =>
    rw [ratio] at least ordered
    have casts : ((m : Int) : Rat) ≤ (n : Int) := by exact_mod_cast fewer
    have buffered : (0 : Rat) ≤ (m : Int) := by exact_mod_cast Nat.zero_le m
    rcases le_total 0 q with above | below
    · exact ordered (Double.ceilInt_ofRat_mono (mul_nonneg above buffered) (mul_le_mul_of_nonneg_left casts above))
    · exact least (Double.ceilInt_ofRat_nonpos (mul_nonpos_of_nonpos_of_nonneg below buffered))

/-- How many distinct records have been rejected. -/
def Call.count (c : Call) : Int := c.rejected.toFinset.card

/-- How many of some records have not been rejected yet. -/
def Call.unrejected (c : Call) (records : List Record) : Int := (records.toFinset \ c.rejected.toFinset).card

/-- What the call has left of the limit that it began with. -/
def Call.room (n : Nat) (c : Call) : Int := quarantineLimit setting n - c.count

/-- There is room for all records of the buffer that are not rejected, or for as many as the limit of the buffer allows. -/
def Affordable (n : Nat) (c : Call) : Prop :=
  c.unrejected c.worker.buffer ≤ c.room setting n ∨ quarantineLimit setting c.worker.buffer.length ≤ c.room setting n

/-- An isolation that starts after some record has been rejected in the call. -/
def IsolatesAgain (c d : Call) : Prop :=
  c.worker.isolation = none ∧ d.worker.isolation.isSome ∧ c.rejected ≠ []

/-- A step that starts no isolation again, or only one that is affordable. -/
def Afforded (n : Nat) (c : Call) (_ : Unit) (d : Call) : Prop := IsolatesAgain c d → Affordable setting n c

/-- The rejected records are within the limit, and an isolation cannot leave it. -/
structure Within (n : Nat) (c : Call) : Prop where
  buffered : c.worker.buffer.length ≤ n
  limited : c.count ≤ quarantineLimit setting n
  isolating : ∀ iso, c.worker.isolation = some iso →
    c.count + min (iso.limit - iso.quarantined) (c.unrejected iso.work.flatten) ≤ quarantineLimit setting n

variable {setting} {c : Call} {n : Nat}

private theorem keepAlive_flatten {position : OffsetMap} {work : List (List Record)} {part : List Record}
    {rest : List (List Record)} (head : keepAlive position work = part :: rest) :
    part ++ rest.flatten ⊆ work.flatten := by
  intro r inside
  have kept : r ∈ (keepAlive position work).flatten := by rw [head]; simpa using inside
  obtain ⟨filtered,listed,within⟩ := List.mem_flatten.mp kept
  obtain ⟨original,before,rfl⟩ := List.mem_map.mp listed
  exact List.mem_flatten.mpr ⟨original,before,(List.mem_filter.mp within).1⟩

private theorem unrejected_mono {d : Call} {some' records : List Record} (same : d.rejected = c.rejected)
    (fewer : some' ⊆ records) : d.unrejected some' ≤ c.unrejected records := by
  unfold Call.unrejected
  rw [same]
  have subset : some'.toFinset ⊆ records.toFinset := fun r inside => by simpa using fewer (by simpa using inside)
  exact_mod_cast Finset.card_le_card (Finset.sdiff_subset_sdiff subset (Finset.Subset.refl _))

/-- A step that rejects nothing and neither starts an isolation nor adds to its work. -/
theorem Within.quiet (within : Within setting n c) {d : Call} (same : d.rejected = c.rejected)
    (buffer : d.worker.buffer.length ≤ c.worker.buffer.length)
    (isolation : ∀ iso, d.worker.isolation = some iso → ∃ old, c.worker.isolation = some old ∧
      iso.limit = old.limit ∧ iso.quarantined = old.quarantined ∧ iso.work.flatten ⊆ old.work.flatten) :
    Within setting n d where
  buffered := buffer.trans within.buffered
  limited := by
    have limited := within.limited
    unfold Call.count at limited ⊢
    rwa [same]
  isolating := by
    intro iso isolating
    obtain ⟨old,before,limit,quarantined,work⟩ := isolation iso isolating
    have budget := within.isolating old before
    have fewer := unrejected_mono same work
    have count : d.count = c.count := by rw [Call.count,Call.count,same]
    rw [limit,quarantined,count]
    omega

/-- A record of the work is rejected: the call still has a place for it, and one less for the others. -/
theorem reject_one {iso : Isolation} {r : Record} {rest : List (List Record)} (below : iso.quarantined < iso.limit)
    (work : [r] ++ rest.flatten ⊆ iso.work.flatten) {d : Call} (rejected : d.rejected = c.rejected ++ [r])
    (budget : c.count + min (iso.limit - iso.quarantined) (c.unrejected iso.work.flatten) ≤ quarantineLimit setting n)
    (limited : c.count ≤ quarantineLimit setting n) :
    d.count ≤ quarantineLimit setting n ∧
      d.count + min (iso.limit - (iso.quarantined + 1)) (d.unrejected rest.flatten) ≤ quarantineLimit setting n := by
  have added : d.rejected.toFinset = insert r c.rejected.toFinset := by
    ext x
    simp [rejected]
  have in_work : r ∈ iso.work.flatten.toFinset := List.mem_toFinset.mpr (work (by simp))
  have rest_work : rest.flatten.toFinset ⊆ iso.work.flatten.toFinset :=
    fun x inside => List.mem_toFinset.mpr (work (List.mem_append_right _ (List.mem_toFinset.mp inside)))
  unfold Call.count Call.unrejected at *
  rw [added]
  by_cases before : r ∈ c.rejected.toFinset
  · rw [Finset.insert_eq_of_mem before]
    have fewer := Finset.card_le_card (Finset.sdiff_subset_sdiff rest_work (Finset.Subset.refl c.rejected.toFinset))
    omega
  · rw [Finset.card_insert_of_notMem before]
    have others : rest.flatten.toFinset \ insert r c.rejected.toFinset ⊆
        (iso.work.flatten.toFinset \ c.rejected.toFinset).erase r := by
      intro x inside
      obtain ⟨later,neither⟩ := Finset.mem_sdiff.mp inside
      rw [Finset.mem_insert,not_or] at neither
      exact Finset.mem_erase.mpr ⟨neither.1,Finset.mem_sdiff.mpr ⟨rest_work later,neither.2⟩⟩
    have fewer := Finset.card_le_card others
    have one_less := Finset.card_erase_add_one (Finset.mem_sdiff.mpr ⟨in_work,before⟩)
    omega

private theorem settle_buffer (w : Worker) (plan : Plan) : (w.settle plan).buffer.length ≤ w.buffer.length :=
  List.length_filter_le _ _

/-- A batch that fails leaves the buffer, unless the worker stops, and may start an isolation of it. -/
theorem retry_cases (setting : Setting) (w : Worker) (failure : Failure) :
    w.retry setting failure = idle ∨ w.retry setting failure = w ∨
      w.retry setting failure = { w with
        isolation := some ⟨[w.buffer],w.view,.nowhere,.nowhere,quarantineLimit setting w.buffer.length,0,0⟩ } := by
  unfold Worker.retry
  repeat' split
  all_goals simp

/-- What becomes of a part that fails: nothing is added to the work of the isolation. -/
theorem retryPart_keeps (w : Worker) (iso : Isolation) (part : List Record) (rest : List (List Record))
    (failure : Failure) : (w.retryPart iso part rest failure).buffer.length ≤ w.buffer.length ∧
      ∀ next, (w.retryPart iso part rest failure).isolation = some next → next.limit = iso.limit ∧
        next.quarantined = iso.quarantined ∧ next.work.flatten ⊆ part ++ rest.flatten := by
  have stopped : idle.buffer.length ≤ w.buffer.length := Nat.zero_le _
  unfold Worker.retryPart
  split
  · exact ⟨le_refl _,fun _ found => by cases found⟩
  · split
    · split
      · exact ⟨le_refl _,fun _ found => by cases found⟩
      · exact ⟨le_refl _,fun _ found => by cases found; exact ⟨rfl,rfl,fun _ inside => by simpa using inside⟩⟩
    · split
      · exact ⟨stopped,fun _ found => by cases found⟩
      · exact ⟨le_refl _,fun _ found => by cases found⟩
      · split
        · refine ⟨le_refl _,fun _ found => ?_⟩
          cases found
          have halves : part.take (part.length / 2) ++ part.drop (part.length / 2) = part := List.take_append_drop _ _
          refine ⟨rfl,rfl,?_⟩
          rw [List.flatten_cons,List.flatten_cons,← List.append_assoc,halves]
          exact List.Subset.refl _
        · exact ⟨le_refl _,fun _ found => by cases found⟩

private theorem start_within (w : Worker) (free : w.isolation = none) : Within setting w.buffer.length (Call.start w) where
  buffered := le_refl _
  limited := le_trans (by simp [Call.count,Call.start]) (quarantineLimit_pos setting w.buffer.length)
  isolating := fun iso found => by simp [Call.start,free] at found

/-- The isolation of a whole buffer is within the limit: as the first of its call, or as an affordable one. -/
theorem isolation_affordable (within : Within setting n c) (again : c.rejected ≠ [] → Affordable setting n c) :
    Affordable setting n c := by
  by_cases first : c.rejected = []
  · have none_rejected : c.count = 0 := by simp [Call.count,first]
    have smaller := quarantineLimit_mono setting within.buffered
    refine .inr ?_
    unfold Call.room
    omega
  · exact again first

/-- What one step keeps, when an isolation that it starts again is affordable. -/
theorem within_step {d : Call} (within : Within setting n c) (step : CallStep setting c () d)
    (afforded : Afforded setting n c () d) : Within setting n d := by
  cases step with
  | refresh running view =>
    exact within.quiet rfl (le_refl _) (fun iso found => ⟨iso,found,rfl,rfl,List.Subset.refl _⟩)
  | assign running tp offset =>
    exact within.quiet rfl (le_refl _) (fun iso found => ⟨iso,found,rfl,rfl,List.Subset.refl _⟩)
  | revoke running partitions =>
    exact within.quiet rfl (List.length_filter_le _ _) (fun iso found => ⟨iso,found,rfl,rfl,List.Subset.refl _⟩)
  | stop running =>
    exact within.quiet rfl (le_refl _) (fun iso found => ⟨iso,found,rfl,rfl,List.Subset.refl _⟩)
  | batch running free full planned =>
    exact within.quiet rfl (settle_buffer _ _) (fun iso found => ⟨iso,found,rfl,rfl,List.Subset.refl _⟩)
  | @batchFailed plan failure running free full planned =>
    rcases retry_cases setting c.worker failure with stopped | kept | isolated
    · refine within.quiet rfl ?_ (fun iso found => ?_)
      · simp only [stopped]
        exact Nat.zero_le _
      · rw [stopped] at found
        cases found
    · refine within.quiet rfl ?_ (fun iso found => ?_)
      · rw [kept]
      · rw [kept] at found
        exact ⟨iso,found,rfl,rfl,List.Subset.refl _⟩
    · refine ⟨?_,within.limited,?_⟩
      · simp only [isolated]
        exact within.buffered
      · intro iso found
        simp only [isolated] at found
        cases found
        have affordable := isolation_affordable within (fun some_rejected => afforded ⟨free,by simp [isolated],some_rejected⟩)
        have budget : c.count + min (quarantineLimit setting c.worker.buffer.length) (c.unrejected c.worker.buffer) ≤
            quarantineLimit setting n := by
          unfold Affordable Call.room at affordable
          omega
        simpa [Call.count,Call.unrejected] using budget
  | part running isolating head planned =>
    refine within.quiet rfl (List.length_filter_le _ _) (fun next found => ?_)
    cases found
    exact ⟨_,isolating,rfl,rfl,fun _ inside => keepAlive_flatten head (List.mem_append_right _ inside)⟩
  | @partFailed iso part rest plan failure running isolating head planned otherwise =>
    obtain ⟨buffer,isolation⟩ := retryPart_keeps c.worker iso part rest failure
    refine within.quiet rfl buffer (fun next found => ?_)
    obtain ⟨limit,quarantined,work⟩ := isolation next found
    exact ⟨iso,isolating,limit,quarantined,fun _ inside => keepAlive_flatten head (work inside)⟩
  | @quarantine iso r rest plan running isolating head planned below =>
    obtain ⟨limited,left⟩ := reject_one (d := { c with
      worker := c.worker.quarantine iso r rest, rejected := c.rejected ++ [r] }) below (keepAlive_flatten head) rfl
      (within.isolating iso isolating) within.limited
    refine ⟨(List.length_filter_le _ _).trans within.buffered,limited,fun next found => ?_⟩
    cases found
    exact left
  | @quarantineFailed iso r rest plan running isolating head planned below published failure =>
    cases published with
    | false => exact within.quiet rfl (le_refl _) (fun next found => by cases found)
    | true =>
      obtain ⟨limited,_⟩ := reject_one (d := { c with
        worker := c.worker.abandon iso, rejected := c.rejected ++ [r], returned := fatal failure }) below
        (keepAlive_flatten head) rfl (within.isolating iso isolating) within.limited
      exact ⟨within.buffered,limited,fun next found => by cases found⟩
  | skipPart running isolating head =>
    refine within.quiet rfl (le_refl _) (fun next found => ?_)
    cases found
    exact ⟨_,isolating,rfl,rfl,fun _ inside => keepAlive_flatten head inside⟩
  | finish running isolating done =>
    exact within.quiet rfl (le_refl _) (fun next found => by cases found)

/-- A call dead-letters no more records than the limit of its batch, whatever fails, when every
    isolation that it starts after a dead letter is affordable. -/
theorem rejected_within_limit {w : Worker} {trace : List Unit} (free : w.isolation = none)
    (run : Run (fun c a d => CallStep setting c a d ∧ Afforded setting w.buffer.length c a d) (Call.start w) trace c) :
    (c.rejected.toFinset.card : Int) ≤ quarantineLimit setting w.buffer.length := by
  have within := run.stateInvariant (I := Within setting w.buffer.length) (start_within w free)
    (fun _ _ _ within step => within_step within step.1 step.2)
  exact within.limited

/-- A text that is not valid in PostgreSQL. -/
def invalidText : Failure := .sql (some "22021")

section
variable {before : List Unit} {c₀ : Call}

/-- The parser does not leave `process` at the record. -/
def Readable (setting : Setting) (r : Record) : Prop :=
  ∀ message, parse setting.platform setting.contract r.topic r.value ≠ .error (.unchecked message)

private theorem process_readable {snap : OwnershipSnapshot} {batch : List Record} (readable : ∀ r ∈ batch, Readable setting r)
    (heldFrom : OffsetMap) : ∃ plan, process setting snap heldFrom batch = some plan := by
  have handled (plan : Plan) : ∃ plan', exec (handle setting snap) plan batch = some plan' := by
    induction batch generalizing plan with
    | nil => exact ⟨plan,rfl⟩
    | cons r rest ih =>
      obtain ⟨next,made⟩ : ∃ next, handle setting snap plan r = some next := by
        have declared := readable r List.mem_cons_self
        unfold Readable at declared
        unfold handle
        by_cases isHeld : (plan.heldFrom r.tp).isSome
        · exact ⟨plan,if_pos isHeld⟩
        · rw [if_neg isHeld]
          cases outcome : parse setting.platform setting.contract r.topic r.value with
          | ok event => cases event <;> exact ⟨_,rfl⟩
          | error thrown =>
            cases thrown with
            | poison reason message => exact ⟨_,rfl⟩
            | unchecked message => exact absurd outcome (declared message)
      rw [exec,made,Option.bind_some]
      exact ih (fun r' later => readable r' (List.mem_cons_of_mem _ later)) next
  exact handled _

private theorem keepAlive_assigned {position : OffsetMap} {work : List (List Record)}
    (assigned : ∀ r ∈ work.flatten, (position r.tp).isSome) : keepAlive position work = work := by
  refine (List.map_congr_left fun part listed => ?_).trans (List.map_id work)
  exact List.filter_eq_self.mpr (fun r inside => assigned r (List.mem_flatten.mpr ⟨part,listed,inside⟩))

/-- Each halving of a part and each record that is left behind takes something off. -/
def weight (work : List (List Record)) : Nat := (work.map (fun part => max 1 (4 * part.length - 2))).sum

private theorem weight_halve {part : List Record} (many : 1 < part.length) (rest : List (List Record)) :
    weight (part.take (part.length / 2) :: part.drop (part.length / 2) :: rest) < weight (part :: rest) := by
  simp only [weight,List.map_cons,List.sum_cons,List.length_take,List.length_drop]
  omega

/-- An isolation whose first part is split. -/
def halve (iso : Isolation) (part : List Record) (rest : List (List Record)) : Isolation :=
  { iso with work := part.take (part.length / 2) :: part.drop (part.length / 2) :: rest }

/-- A text that is not valid splits a part of several records. -/
private theorem retryPart_halves (w : Worker) (iso : Isolation) {part : List Record} (rest : List (List Record))
    (many : 1 < part.length) :
    w.retryPart iso part rest invalidText = { w with isolation := some (halve iso part rest) } := by
  have otherwise : Failure.sql (some "22021") ≠ fenced := by decide
  have data : classify (some "22021") = .DATA := by decide
  unfold invalidText
  simp only [Worker.retryPart,otherwise,data,many,if_true,if_false]
  rfl

private theorem count_reject {r : Record} (new : r ∉ c.rejected) (records : List Record) {d : Call}
    (rejected : d.rejected = c.rejected ++ [r]) :
    d.count = c.count + 1 ∧ c.unrejected (r :: records) = d.unrejected records + 1 := by
  have added : d.rejected.toFinset = insert r c.rejected.toFinset := by
    ext x
    simp [rejected]
  have fresh : r ∉ c.rejected.toFinset := by simpa using new
  have here : r ∈ insert r records.toFinset \ c.rejected.toFinset := by simp [new]
  have others : records.toFinset \ insert r c.rejected.toFinset =
      (insert r records.toFinset \ c.rejected.toFinset).erase r := by
    ext x
    simp only [Finset.mem_sdiff,Finset.mem_insert,Finset.mem_erase]
    tauto
  have one_more := Finset.card_erase_add_one here
  unfold Call.count Call.unrejected
  rw [added,Finset.card_insert_of_notMem fresh,List.toFinset_cons,others]
  omega

/-- A step of an isolation whose warehouse rejects what it can: the work gets less, and what the isolation could still
    reject is rejected or can be rejected yet. -/
structure Onward (setting : Setting) (c : Call) (iso : Isolation) (d : Call) (next : Isolation) : Prop where
  step : CallStep setting c () d
  running : d.returned = false
  isolating : d.worker.isolation = some next
  position : d.worker.position = c.worker.position
  lighter : weight next.work < weight iso.work
  inside : next.work.flatten ⊆ iso.work.flatten
  room : c.count + min (iso.limit - iso.quarantined) (c.unrejected iso.work.flatten) ≤
    d.count + min (next.limit - next.quarantined) (d.unrejected next.work.flatten)

section
variable {iso : Isolation} {r : Record} {rest : List (List Record)}

private theorem onward_skip (running : c.returned = false) (isolating : c.worker.isolation = some iso)
    (work : iso.work = [] :: rest) (head : keepAlive c.worker.position iso.work = iso.work) :
    ∃ d next, Onward setting c iso d next := by
  have skipped : CallStep setting c () _ := .skipPart running isolating (head.trans work)
  exact ⟨_,_,skipped,running,rfl,rfl,by simp [weight,work],by simp [work],by simp [work,Call.count,Call.unrejected]⟩

/-- A record that was published before its offset could be written is processed. -/
private theorem onward_part (running : c.returned = false) (isolating : c.worker.isolation = some iso)
    (work : iso.work = [r] :: rest) (head : keepAlive c.worker.position iso.work = iso.work) (readable : Readable setting r)
    (published : r ∈ c.rejected) : ∃ d next, Onward setting c iso d next := by
  obtain ⟨plan,planned⟩ : ∃ plan, process setting iso.snap iso.heldFrom [r] = some plan :=
    process_readable (by simpa using readable) iso.heldFrom
  have passed : CallStep setting c () _ := .part running isolating (head.trans work) planned
  have same : c.unrejected iso.work.flatten = c.unrejected rest.flatten := by
    simp [work,Call.unrejected,Finset.insert_sdiff_of_mem,published]
  exact ⟨_,_,passed,running,rfl,rfl,by simp [weight,work],by simp [work],by rw [same]; exact le_refl _⟩

private theorem onward_quarantine (running : c.returned = false) (isolating : c.worker.isolation = some iso)
    (work : iso.work = [r] :: rest) (head : keepAlive c.worker.position iso.work = iso.work) (readable : Readable setting r)
    (new : r ∉ c.rejected) (below : iso.quarantined < iso.limit) : ∃ d next, Onward setting c iso d next := by
  obtain ⟨plan,planned⟩ : ∃ plan, process setting iso.snap iso.heldFrom [r] = some plan :=
    process_readable (by simpa using readable) iso.heldFrom
  have dead : CallStep setting c () _ := .quarantine running isolating (head.trans work) planned below
  refine ⟨_,_,dead,running,rfl,rfl,by simp [weight,work],by simp [work],?_⟩
  obtain ⟨counted,left⟩ := count_reject new rest.flatten
    (show Call.rejected ⟨c.worker.quarantine iso r rest,c.rejected ++ [r],c.returned⟩ = c.rejected ++ [r] from rfl)
  have whole : iso.work.flatten = r :: rest.flatten := by rw [work]; rfl
  rw [whole,left]
  dsimp only
  omega

private theorem onward_halve {part : List Record} (running : c.returned = false) (isolating : c.worker.isolation = some iso)
    (work : iso.work = part :: rest) (head : keepAlive c.worker.position iso.work = iso.work)
    (readable : ∀ r ∈ part, Readable setting r) (many : 1 < part.length) : ∃ d next, Onward setting c iso d next := by
  obtain ⟨plan,planned⟩ : ∃ plan, process setting iso.snap iso.heldFrom part = some plan :=
    process_readable readable iso.heldFrom
  have several : ¬ ∃ state, invalidText = .sql state ∧ classify state = .DATA ∧ part.length = 1 ∧
      iso.quarantined < iso.limit := fun single => many.ne' single.choose_spec.2.2.1
  have split : CallStep setting c () _ := .partFailed running isolating (head.trans work) planned several
  have worker := retryPart_halves c.worker iso rest many
  have same : (halve iso part rest).work.flatten = iso.work.flatten := by
    rw [work,halve,List.flatten_cons,List.flatten_cons,← List.append_assoc,List.take_append_drop,List.flatten_cons]
  refine ⟨_,halve iso part rest,split,rfl,by rw [worker],by rw [worker],?_,by rw [same]; exact List.Subset.refl _,?_⟩
  · rw [work]
    exact weight_halve many rest
  · rw [same]
    exact le_refl _

/-- While there is work and room, an isolation can go on. -/
theorem goes_on (running : c.returned = false) (isolating : c.worker.isolation = some iso)
    (head : keepAlive c.worker.position iso.work = iso.work) (readable : ∀ r ∈ iso.work.flatten, Readable setting r)
    (some_work : iso.work ≠ []) (below : iso.quarantined < iso.limit) : ∃ d next, Onward setting c iso d next := by
  obtain ⟨part,rest,work⟩ := List.exists_cons_of_ne_nil some_work
  have readable_part : ∀ r ∈ part, Readable setting r :=
    fun r inside => readable r (by rw [work]; exact List.mem_append_left _ inside)
  cases part with
  | nil => exact onward_skip running isolating work head
  | cons r tail =>
    cases tail with
    | nil =>
      by_cases published : r ∈ c.rejected
      · exact onward_part running isolating work head (readable_part r List.mem_cons_self) published
      · exact onward_quarantine running isolating work head (readable_part r List.mem_cons_self) published below
    | cons r' more => exact onward_halve running isolating work head readable_part (by simp)

end

/-- A warehouse that rejects every record for which there is room in the isolation. -/
theorem rejections_reach (begun : Run (CallStep setting) c₀ before c) {iso : Isolation} (running : c.returned = false)
    (isolating : c.worker.isolation = some iso) (assigned : ∀ r ∈ iso.work.flatten, (c.worker.position r.tp).isSome)
    (readable : ∀ r ∈ iso.work.flatten, Readable setting r) :
    ∃ trace d, Run (CallStep setting) c₀ trace d ∧
      c.count + min (iso.limit - iso.quarantined) (c.unrejected iso.work.flatten) ≤ d.count := by
  induction size : weight iso.work using Nat.strong_induction_on generalizing before c iso with
  | _ size' ih =>
    by_cases done : iso.work = [] ∨ iso.limit ≤ iso.quarantined
    · refine ⟨before,c,begun,?_⟩
      rcases done with nothing | exhausted
      · simp [nothing,Call.unrejected]
      · omega
    · obtain ⟨some_work,below⟩ := not_or.mp done
      obtain ⟨d,next,onward⟩ := goes_on running isolating (keepAlive_assigned assigned) readable some_work (not_le.mp below)
      obtain ⟨trace,e,run,reached⟩ := ih _ (size ▸ onward.lighter) (begun.extend onward.step) onward.running onward.isolating
        (by rw [onward.position]; exact fun r within => assigned r (onward.inside within))
        (fun r within => readable r (onward.inside within)) rfl
      exact ⟨trace,e,run,onward.room.trans reached⟩

/-- The condition leaves nothing out: where an isolation would start without room for it, the call can come to more
    rejected records than its limit. -/
theorem unaffordable_exceeds (begun : Run (CallStep setting) c₀ before c) (running : c.returned = false)
    (free : c.worker.isolation = none) (armed : c.worker.tripped = false)
    (assigned : ∀ r ∈ c.worker.buffer, (c.worker.position r.tp).isSome)
    (readable : ∀ r ∈ c.worker.buffer, Readable setting r) (short : ¬ Affordable setting n c) :
    ∃ trace d, Run (CallStep setting) c₀ trace d ∧ quarantineLimit setting n < d.count := by
  obtain ⟨more,larger⟩ := not_or.mp short
  unfold Call.room at more larger
  by_cases none_buffered : c.worker.buffer = []
  · refine ⟨before,c,begun,?_⟩
    simp only [none_buffered,Call.unrejected,List.toFinset_nil,Finset.empty_sdiff,Finset.card_empty] at more
    omega
  · obtain ⟨plan,planned⟩ : ∃ plan, process setting c.worker.view .nowhere c.worker.buffer = some plan :=
      process_readable readable .nowhere
    obtain ⟨iso,limit,quarantined,work,isolates⟩ : ∃ iso : Isolation,
        iso.limit = quarantineLimit setting c.worker.buffer.length ∧ iso.quarantined = 0 ∧ iso.work = [c.worker.buffer] ∧
        c.worker.retry setting invalidText = { c.worker with isolation := some iso } := by
      have otherwise : Failure.sql (some "22021") ≠ fenced := by decide
      have data : classify (some "22021") = .DATA := by decide
      refine ⟨⟨[c.worker.buffer],c.worker.view,.nowhere,.nowhere,quarantineLimit setting c.worker.buffer.length,0,0⟩,
        rfl,rfl,rfl,?_⟩
      unfold invalidText
      simp only [Worker.retry,otherwise,data,armed,if_false,Bool.false_eq_true]
    obtain ⟨d,isolated,rejected,goes_on,worker⟩ : ∃ d, CallStep setting c () d ∧ d.rejected = c.rejected ∧
        d.returned = false ∧ d.worker = { c.worker with isolation := some iso } :=
      ⟨{ c with worker := c.worker.retry setting invalidText, returned := fatal invalidText },
        .batchFailed running free none_buffered planned,rfl,rfl,isolates⟩
    have same : iso.work.flatten = c.worker.buffer := by rw [work,List.flatten_cons,List.flatten_nil,List.append_nil]
    obtain ⟨trace,e,run,reached⟩ := rejections_reach (begun.extend isolated) goes_on (by rw [worker])
      (by rw [same,worker]; exact assigned) (by rw [same]; exact readable)
    refine ⟨trace,e,run,?_⟩
    have counted : d.count = c.count := by rw [Call.count,Call.count,rejected]
    have left : d.unrejected iso.work.flatten = c.unrejected c.worker.buffer := by
      rw [same,Call.unrejected,Call.unrejected,rejected]
    rw [counted,left,limit,quarantined] at reached
    omega

end

open SinkSafety (bankSetting bankControl officeTopic officeRecord)

/-- The setting of the bank with another ratio. -/
def bankAt (ratio : Double) : Setting :=
  { bankSetting with config := { bankSetting.config with quarantineMaxRatio := ratio } }

/-- A worker with two records. -/
def twoRecords : Worker :=
  { idle with
    view := load bankControl 0
    position := .single officeTopic 2
    buffer := [officeRecord 0 (some [1]),officeRecord 1 (some [1])] }

def connectionLost : Failure := .sql (some "08006")

def firstRecord : Record := officeRecord 0 (some [1])
def secondRecord : Record := officeRecord 1 (some [1])

section
variable (ratio : Double)

/-- An isolation of a batch of so many records. -/
def isolationOf (size : Nat) (work : List (List Record)) : Isolation :=
  ⟨work,load bankControl 0,.nowhere,.nowhere,quarantineLimit (bankAt ratio) size,0,0⟩

/-- The call after the batch is rejected, and after the part with both records is. -/
def isolated : Call := ⟨{ twoRecords with isolation := some (isolationOf ratio 2 [[firstRecord,secondRecord]]) },[],false⟩

def halved : Call := ⟨{ twoRecords with isolation := some (isolationOf ratio 2 [[firstRecord],[secondRecord]]) },[],false⟩

private theorem batch_rejected : CallStep (bankAt ratio) (.start twoRecords) () (isolated ratio) :=
  @CallStep.batchFailed (bankAt ratio) (.start twoRecords) _ invalidText rfl rfl (by decide) rfl

private theorem part_rejected : CallStep (bankAt ratio) (isolated ratio) () (halved ratio) :=
  @CallStep.partFailed (bankAt ratio) (isolated ratio) (isolationOf ratio 2 [[firstRecord,secondRecord]])
    [firstRecord,secondRecord] [] _ invalidText rfl rfl rfl rfl (fun ⟨_,_,_,one,_⟩ => by cases one)

/-- The first record is dead-lettered. -/
def quarantinedOnce : Call :=
  { halved ratio with
    worker := (halved ratio).worker.quarantine (isolationOf ratio 2 [[firstRecord],[secondRecord]]) firstRecord [[secondRecord]]
    rejected := [firstRecord] }

private theorem first_quarantined : CallStep (bankAt ratio) (halved ratio) () (quarantinedOnce ratio) :=
  @CallStep.quarantine (bankAt ratio) (halved ratio) (isolationOf ratio 2 [[firstRecord],[secondRecord]]) firstRecord
    [[secondRecord]] _ rfl rfl rfl rfl (quarantineLimit_pos (bankAt ratio) 2)

/-- What is left of the isolation then. -/
def secondPart : Isolation :=
  { isolationOf ratio 2 [[secondRecord]] with
    commit := OffsetMap.nowhere.merge (.single officeTopic 1)
    quarantined := 1 }

/-- The connection is lost while the second record is written, and the isolation is left. -/
def interrupted : Call := { quarantinedOnce ratio with worker := (quarantinedOnce ratio).worker.abandon (secondPart ratio) }

private theorem second_interrupted : CallStep (bankAt ratio) (quarantinedOnce ratio) () (interrupted ratio) :=
  @CallStep.partFailed (bankAt ratio) (quarantinedOnce ratio) (secondPart ratio) [secondRecord] [] _ connectionLost
    rfl rfl rfl rfl (by
    rintro ⟨state,same,data,_⟩
    rw [← Failure.sql.inj same] at data
    exact absurd data (by decide))

/-- The next attempt isolates the rest of the batch, with a limit of its own. -/
def isolatedAgain : Call :=
  { interrupted ratio with
    worker := { (interrupted ratio).worker with isolation := some (isolationOf ratio 1 [[secondRecord]]) } }

private theorem rest_rejected : CallStep (bankAt ratio) (interrupted ratio) () (isolatedAgain ratio) :=
  @CallStep.batchFailed (bankAt ratio) (interrupted ratio) _ invalidText rfl rfl (List.cons_ne_nil secondRecord []) rfl

def quarantinedTwice : Call :=
  { isolatedAgain ratio with
    worker := (isolatedAgain ratio).worker.quarantine (isolationOf ratio 1 [[secondRecord]]) secondRecord []
    rejected := [firstRecord,secondRecord] }

private theorem second_quarantined : CallStep (bankAt ratio) (isolatedAgain ratio) () (quarantinedTwice ratio) :=
  @CallStep.quarantine (bankAt ratio) (isolatedAgain ratio) (isolationOf ratio 1 [[secondRecord]]) secondRecord [] _
    rfl rfl rfl rfl (quarantineLimit_pos (bankAt ratio) 1)

end

/-- Two records are dead-lettered where the limit allows one. -/
theorem limit_exceeded : ∃ w trace c, w.isolation = none ∧ Run (CallStep bankSetting) (Call.start w) trace c ∧
    quarantineLimit bankSetting w.buffer.length < c.rejected.toFinset.card := by
  have rejections := ((Run.start.extend (batch_rejected (.ofRat (1 / 10)))).extend (part_rejected _)).extend (first_quarantined _)
  have run := ((rejections.extend (second_interrupted _)).extend (rest_rejected _)).extend (second_quarantined _)
  have limit : quarantineLimit bankSetting 2 = 1 := by decide +kernel
  exact ⟨twoRecords,_,_,rfl,run,by rw [show twoRecords.buffer.length = 2 from rfl,limit]; decide⟩

/-- With a ratio of one there is room for the second record when the rest of the batch is isolated. -/
theorem rejected_within_limit_again : ((quarantinedTwice (.ofRat 1)).rejected.toFinset.card : Int) ≤
    quarantineLimit (bankAt (.ofRat 1)) twoRecords.buffer.length := by
  have limit : quarantineLimit (bankAt (.ofRat 1)) 2 = 2 := by decide +kernel
  have first : Afforded (bankAt (.ofRat 1)) 2 (.start twoRecords) () (isolated (.ofRat 1)) := fun again => absurd rfl again.2.2
  have split : Afforded (bankAt (.ofRat 1)) 2 (isolated (.ofRat 1)) () (halved (.ofRat 1)) := fun again => absurd rfl again.2.2
  have letter : Afforded (bankAt (.ofRat 1)) 2 (halved (.ofRat 1)) () (quarantinedOnce (.ofRat 1)) :=
    fun again => absurd rfl again.2.2
  have lost : Afforded (bankAt (.ofRat 1)) 2 (quarantinedOnce (.ofRat 1)) () (interrupted (.ofRat 1)) :=
    fun again => by cases again.1
  have rest : Afforded (bankAt (.ofRat 1)) 2 (interrupted (.ofRat 1)) () (isolatedAgain (.ofRat 1)) := by
    refine fun _ => .inl ?_
    rw [Call.room,limit]
    decide
  have second : Afforded (bankAt (.ofRat 1)) 2 (isolatedAgain (.ofRat 1)) () (quarantinedTwice (.ofRat 1)) :=
    fun again => by cases again.1
  have run : Run (fun c a d => CallStep (bankAt (.ofRat 1)) c a d ∧ Afforded (bankAt (.ofRat 1)) 2 c a d)
      (.start twoRecords) _ (quarantinedTwice (.ofRat 1)) :=
    (((((Run.start.extend ⟨batch_rejected _,first⟩).extend ⟨part_rejected _,split⟩).extend ⟨first_quarantined _,letter⟩).extend
      ⟨second_interrupted _,lost⟩).extend ⟨rest_rejected _,rest⟩).extend ⟨second_quarantined _,second⟩
  exact rejected_within_limit rfl run

end FineractBi.QuarantineBreaker
