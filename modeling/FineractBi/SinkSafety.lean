import FineractBi.SinkWorker

/-!
The sink never advances past an unhandled record: whatever batches, failures,
isolations, holds and rebalances happen, every record below a stored offset has
been written, dead-lettered, skipped under a check that held, or carries no change.
-/
namespace FineractBi.SinkSafety
open Runs FineractBi.Routing FineractBi.Envelope FineractBi.SinkWorker

variable (setting : Setting)

/-- The event that a record holds. -/
def Carries (r : Record) (event : ChangeEvent) : Prop :=
  parse setting.platform setting.contract r.topic r.value = .ok (some event)

/-- What `process` has decided to do with a record. -/
def Settled (plan : Plan) (r : Record) : Prop :=
  (∃ w ∈ plan.writes, w.record = r ∧ Carries setting r w.event) ∨
    (∃ letter ∈ plan.letters, letter.record = r) ∨
    CarriesNoChange setting.platform r.value ∨
    ∃ check event, (r,check) ∈ plan.skips ∧ Carries setting r event ∧
      check.sourceId = event.sourceId ∧ check.table = event.table

/-- The records of a plan. -/
def planned (plan : Plan) : List Record :=
  plan.writes.map (·.record) ++ plan.letters.map (·.record) ++ plan.skips.map (·.1)

/-- The check that a snapshot gives to a skipped event. -/
def checkOf (snap : OwnershipSnapshot) (source table : String) : SkipCheck :=
  ⟨source,table,if (snap.route source table).target = .UNKNOWN_SOURCE then mustBeUnregistered
    else (snap.route source table).epoch⟩

/-- A plan with a record added to what it does. -/
structure Passes (snap : OwnershipSnapshot) (plan plan' : Plan) (r : Record) : Prop where
  heldFrom : plan'.heldFrom = plan.heldFrom
  next : plan'.next = plan.next.merge (.single r.tp (r.offset + 1))
  settled : Settled setting plan' r
  before : ∀ x, Settled setting plan x → Settled setting plan' x
  planned : ∀ x ∈ planned plan', x ∈ planned plan ∨ x = r
  checks : ∀ entry ∈ plan'.skips, entry ∈ plan.skips ∨
    entry.2 = checkOf snap entry.2.sourceId entry.2.table ∧ PgText entry.2.table

variable {setting} {snap : OwnershipSnapshot} {plan plan' : Plan} {r : Record}

private theorem passes_quiet (quiet : CarriesNoChange setting.platform r.value) :
    Passes setting snap plan (plan.pass r) r where
  heldFrom := rfl
  next := rfl
  settled := .inr (.inr (.inl quiet))
  before := fun _ before => before
  planned := fun _ member => .inl member
  checks := fun _ member => .inl member

private theorem passes_letter (reason message : String) :
    Passes setting snap plan ((plan.pass r).deadLetter r reason message) r where
  heldFrom := rfl
  next := rfl
  settled := .inr (.inl ⟨⟨r,reason,message⟩,by simp [Plan.deadLetter],rfl⟩)
  before := by
    rintro x (⟨w,member,same⟩ | ⟨letter,member,same⟩ | quiet | skipped)
    · exact .inl ⟨w,member,same⟩
    · exact .inr (.inl ⟨letter,by simp [Plan.deadLetter,Plan.pass,member],same⟩)
    · exact .inr (.inr (.inl quiet))
    · exact .inr (.inr (.inr skipped))
  planned := by
    intro x member
    simp only [planned,Plan.deadLetter,Plan.pass,List.map_append,List.map_cons,List.map_nil,List.mem_append,
      List.mem_singleton] at member ⊢
    tauto
  checks := fun _ member => .inl member

private theorem passes_write {event : ChangeEvent} (route : Route) (carries : Carries setting r event) :
    Passes setting snap plan { plan.pass r with writes := plan.writes ++ [⟨r,event,route⟩] } r where
  heldFrom := rfl
  next := rfl
  settled := .inl ⟨⟨r,event,route⟩,by simp,rfl,carries⟩
  before := by
    rintro x (⟨w,member,same⟩ | letter | quiet | skipped)
    · exact .inl ⟨w,by simp [member],same⟩
    · exact .inr (.inl letter)
    · exact .inr (.inr (.inl quiet))
    · exact .inr (.inr (.inr skipped))
  planned := by
    intro x member
    simp only [planned,Plan.pass,List.map_append,List.map_cons,List.map_nil,List.mem_append,
      List.mem_singleton] at member ⊢
    tauto
  checks := fun _ member => .inl member

private theorem passes_skip {event : ChangeEvent} {check : SkipCheck} (carries : Carries setting r event)
    (given : check = checkOf snap event.sourceId event.table) :
    Passes setting snap plan ((plan.pass r).skip r check) r where
  heldFrom := rfl
  next := rfl
  settled := .inr (.inr (.inr ⟨check,event,by simp [Plan.skip],carries,by simp [given,checkOf],by simp [given,checkOf]⟩))
  before := by
    rintro x (write | letter | quiet | ⟨other,event,member,same⟩)
    · exact .inl write
    · exact .inr (.inl letter)
    · exact .inr (.inr (.inl quiet))
    · exact .inr (.inr (.inr ⟨other,event,by simp [Plan.skip,Plan.pass,member],same⟩))
  planned := by
    intro x member
    simp only [planned,Plan.skip,Plan.pass,List.map_append,List.map_cons,List.map_nil,List.mem_append,
      List.mem_singleton] at member ⊢
    tauto
  checks := by
    intro entry member
    rcases List.mem_append.mp member with old | new
    · exact .inl old
    · obtain rfl := List.mem_singleton.mp new
      refine .inr ⟨?_,?_⟩
      · simp [given,checkOf]
      · simpa [given,checkOf] using parse_table setting.platform carries

/-- All that one record can do to a plan. -/
theorem handle_cases (handled : handle setting snap plan r = some plan') :
    (plan.heldFrom r.tp).isSome ∧ plan' = plan ∨
      plan.heldFrom r.tp = none ∧ plan' = { plan with heldFrom := plan.heldFrom.put r.tp r.offset } ∨
      plan.heldFrom r.tp = none ∧ Passes setting snap plan plan' r := by
  unfold handle at handled
  split at handled
  · next held => exact .inl ⟨held,(Option.some.inj handled).symm⟩
  · next unheld =>
    have free : plan.heldFrom r.tp = none := Option.not_isSome_iff_eq_none.mp unheld
    split at handled
    · next reason message _ =>
      exact .inr (.inr ⟨free,Option.some.inj handled ▸ passes_letter reason message⟩)
    · cases handled
    · next parsed =>
      exact .inr (.inr ⟨free,Option.some.inj handled ▸ passes_quiet (parse_empty setting.platform parsed)⟩)
    · next event carries =>
      obtain rfl := Option.some.inj handled
      unfold direct
      cases target : (snap.route event.sourceId event.table).target with
      | HOLD => exact .inr (.inl ⟨free,rfl⟩)
      | PROD => exact .inr (.inr ⟨free,passes_write _ carries⟩)
      | SHADOW => exact .inr (.inr ⟨free,passes_write _ carries⟩)
      | SKIP => exact .inr (.inr ⟨free,passes_skip carries (by simp [checkOf,target])⟩)
      | UNKNOWN_SOURCE =>
        dsimp only
        split
        · exact .inr (.inr ⟨free,passes_skip carries (by simp [checkOf,target])⟩)
        · exact .inr (.inr ⟨free,passes_letter _ _⟩)

/-- What a plan does with one partition that was not held: it passes the records
    before the first one held. -/
structure Splits (setting : Setting) (tp : TopicPartition) (batch : List Record) (plan : Plan)
    (passed rest : List Record) : Prop where
  parts : recordsOf tp batch = passed ++ rest
  settled : ∀ r ∈ passed, Settled setting plan r
  planned : ∀ x ∈ planned plan, x.tp = tp → x ∈ passed
  heldFrom : plan.heldFrom tp = rest.head?.map (·.offset)
  next : ∀ n, plan.next tp = some n → ∃ last ∈ passed, n = last.offset + 1
  above : ∀ r ∈ passed, ∃ n, plan.next tp = some n ∧ r.offset < n

/-- The plan of a batch, with the partitions that were held before. -/
structure PlanFor (setting : Setting) (snap : OwnershipSnapshot) (already : OffsetMap) (batch : List Record)
    (plan : Plan) : Prop where
  held : ∀ tp h, already tp = some h → plan.heldFrom tp = some h ∧ plan.next tp = none ∧ ∀ x ∈ planned plan, x.tp ≠ tp
  free : ∀ tp, already tp = none → ∃ passed rest, Splits setting tp batch plan passed rest
  checks : ∀ entry ∈ plan.skips, entry.2 = checkOf snap entry.2.sourceId entry.2.table ∧ PgText entry.2.table

private theorem merge_some {a b : OffsetMap} {tp : TopicPartition} {n : Nat} (merged : (a.merge b) tp = some n) :
    a tp = some n ∨ b tp = some n := by
  unfold OffsetMap.merge at merged
  split at merged
  · next x y left right =>
    rcases Nat.le_total x y with less | less
    · exact .inr (by rw [right,← merged,Nat.max_eq_right less])
    · exact .inl (by rw [left,← merged,Nat.max_eq_left less])
  · next left _ => exact .inl (left.trans merged)
  · next right => exact .inr merged

theorem merge_left {a b : OffsetMap} {tp : TopicPartition} {n : Nat} (left : a tp = some n) :
    ∃ m, (a.merge b) tp = some m ∧ n ≤ m := by
  unfold OffsetMap.merge
  rw [left]
  cases right : b tp with
  | none => exact ⟨n,rfl,Nat.le_refl _⟩
  | some y => exact ⟨max n y,rfl,Nat.le_max_left n y⟩

theorem merge_right {a b : OffsetMap} {tp : TopicPartition} {n : Nat} (right : b tp = some n) :
    ∃ m, (a.merge b) tp = some m ∧ n ≤ m := by
  unfold OffsetMap.merge
  rw [right]
  cases left : a tp with
  | none => exact ⟨n,rfl,Nat.le_refl _⟩
  | some x => exact ⟨max x n,rfl,Nat.le_max_right x n⟩

theorem single_self (tp : TopicPartition) (n : Nat) : OffsetMap.single tp n tp = some n := by
  simp [OffsetMap.single,OffsetMap.put]

private theorem single_other {tp tp' : TopicPartition} (n : Nat) (other : tp' ≠ tp) : OffsetMap.single tp n tp' = none := by
  simp [OffsetMap.single,OffsetMap.put,OffsetMap.nowhere,other]

private theorem single_some {tp tp' : TopicPartition} {n m : Nat} (found : OffsetMap.single tp n tp' = some m) :
    tp' = tp ∧ m = n := by
  by_cases same : tp' = tp
  · subst same
    rw [single_self] at found
    exact ⟨rfl,(Option.some.inj found).symm⟩
  · rw [single_other n same] at found
    cases found

private theorem merge_single_other (a : OffsetMap) {tp tp' : TopicPartition} (n : Nat) (other : tp' ≠ tp) :
    (a.merge (.single tp n)) tp' = a tp' := by
  unfold OffsetMap.merge
  rw [single_other n other]
  cases a tp' <;> rfl

theorem recordsOf_snoc (tp : TopicPartition) (batch : List Record) (r : Record) :
    recordsOf tp (batch ++ [r]) = if r.tp = tp then recordsOf tp batch ++ [r] else recordsOf tp batch := by
  unfold recordsOf
  rw [List.filter_append]
  split
  · next same => simp [same]
  · next other => simp [other]

/-- A record of another partition, or of one that is held. -/
theorem Splits.stays {tp : TopicPartition} {batch passed rest : List Record}
    (splits : Splits setting tp batch plan passed rest) (other : r.tp ≠ tp) (next : plan'.next tp = plan.next tp)
    (heldFrom : plan'.heldFrom tp = plan.heldFrom tp) (before : ∀ x, Settled setting plan x → Settled setting plan' x)
    (added : ∀ x ∈ SinkSafety.planned plan', x ∈ SinkSafety.planned plan ∨ x = r) :
    Splits setting tp (batch ++ [r]) plan' passed rest where
  parts := by rw [recordsOf_snoc,if_neg other,splits.parts]
  settled := fun x member => before x (splits.settled x member)
  planned := by
    intro x member same
    rcases added x member with old | rfl
    · exact splits.planned x old same
    · exact absurd same other
  heldFrom := heldFrom.trans splits.heldFrom
  next := fun n found => splits.next n (next ▸ found)
  above := by
    intro x member
    obtain ⟨n,found,less⟩ := splits.above x member
    exact ⟨n,next ▸ found,less⟩

/-- What one more record does to the plan. -/
theorem PlanFor.handle {already : OffsetMap} {batch : List Record} (spec : PlanFor setting snap already batch plan)
    (handled : SinkWorker.handle setting snap plan r = some plan') :
    PlanFor setting snap already (batch ++ [r]) plan' := by
  rcases handle_cases handled with ⟨isHeld,rfl⟩ | ⟨unheld,rfl⟩ | ⟨unheld,passes⟩
  · refine ⟨spec.held,?_,spec.checks⟩
    intro tp free
    obtain ⟨passed,rest,splits⟩ := spec.free tp free
    by_cases same : r.tp = tp
    · obtain ⟨h,found⟩ := Option.isSome_iff_exists.mp isHeld
      rw [same,splits.heldFrom] at found
      obtain ⟨head,first,_⟩ := Option.map_eq_some_iff.mp found
      refine ⟨passed,rest ++ [r],?_,splits.settled,splits.planned,?_,splits.next,splits.above⟩
      · rw [recordsOf_snoc,if_pos same,splits.parts,List.append_assoc]
      · rw [splits.heldFrom,List.head?_append,first]
        rfl
    · exact ⟨passed,rest,splits.stays same rfl rfl (fun _ before => before) (fun _ old => .inl old)⟩
  · have others : ∀ tp, r.tp ≠ tp → (plan.heldFrom.put r.tp r.offset) tp = plan.heldFrom tp :=
      fun tp other => Function.update_of_ne (Ne.symm other) _ _
    refine ⟨?_,?_,spec.checks⟩
    · intro tp h alreadyHeld
      obtain ⟨heldFrom,rest⟩ := spec.held tp h alreadyHeld
      refine ⟨(others tp ?_).trans heldFrom,rest⟩
      rintro rfl
      rw [unheld] at heldFrom
      cases heldFrom
    · intro tp free
      obtain ⟨passed,rest,splits⟩ := spec.free tp free
      by_cases same : r.tp = tp
      · subst same
        rw [splits.heldFrom,Option.map_eq_none_iff,List.head?_eq_none_iff] at unheld
        subst unheld
        refine ⟨passed,[r],?_,splits.settled,splits.planned,?_,splits.next,splits.above⟩
        · rw [recordsOf_snoc,if_pos rfl,splits.parts,List.append_nil]
        · exact Function.update_self _ _ _
      · exact ⟨passed,rest,splits.stays same rfl (others tp same) (fun _ before => before) (fun _ old => .inl old)⟩
  · refine ⟨?_,?_,?_⟩
    · intro tp h alreadyHeld
      obtain ⟨heldFrom,next,planned⟩ := spec.held tp h alreadyHeld
      have other : r.tp ≠ tp := by
        rintro rfl
        rw [unheld] at heldFrom
        cases heldFrom
      refine ⟨passes.heldFrom ▸ heldFrom,?_,?_⟩
      · rw [passes.next,merge_single_other _ _ (Ne.symm other),next]
      · intro x member
        rcases passes.planned x member with old | rfl
        · exact planned x old
        · exact other
    · intro tp free
      obtain ⟨passed,rest,splits⟩ := spec.free tp free
      by_cases same : r.tp = tp
      · subst same
        rw [splits.heldFrom,Option.map_eq_none_iff,List.head?_eq_none_iff] at unheld
        subst unheld
        refine ⟨passed ++ [r],[],?_,?_,?_,?_,?_,?_⟩
        · rw [recordsOf_snoc,if_pos rfl,splits.parts,List.append_nil,List.append_nil]
        · intro x member
          rcases List.mem_append.mp member with old | new
          · exact passes.before x (splits.settled x old)
          · exact List.mem_singleton.mp new ▸ passes.settled
        · intro x member same
          rcases passes.planned x member with old | rfl
          · exact List.mem_append_left _ (splits.planned x old same)
          · simp
        · rw [passes.heldFrom,splits.heldFrom]
        · intro n found
          rw [passes.next] at found
          rcases merge_some found with old | new
          · obtain ⟨last,member,same⟩ := splits.next n old
            exact ⟨last,List.mem_append_left _ member,same⟩
          · rw [single_self] at new
            exact ⟨r,by simp,(Option.some.inj new).symm⟩
        · intro x member
          rw [passes.next]
          rcases List.mem_append.mp member with old | new
          · obtain ⟨n,found,less⟩ := splits.above x old
            obtain ⟨m,merged,larger⟩ := merge_left (b := .single r.tp (r.offset + 1)) found
            exact ⟨m,merged,Nat.lt_of_lt_of_le less larger⟩
          · obtain rfl := List.mem_singleton.mp new
            exact merge_right (a := plan.next) (single_self x.tp (x.offset + 1))
      · refine ⟨passed,rest,splits.stays same ?_ (by rw [passes.heldFrom]) passes.before passes.planned⟩
        rw [passes.next,merge_single_other _ _ (Ne.symm same)]
    · intro entry member
      rcases passes.checks entry member with old | new
      · exact spec.checks entry old
      · exact new

/-- `process` as a run of `handle` over the batch. -/
theorem process_spec {already : OffsetMap} {batch : List Record}
    (made : process setting snap already batch = some plan) : PlanFor setting snap already batch plan := by
  have run : Run (fun plan r plan' => handle setting snap plan r = some plan') (.empty already) batch plan :=
    exec_run (fun _ _ _ handled => handled) made
  refine run.invariant (I := fun batch plan => PlanFor setting snap already batch plan) ?_
    (fun _ _ _ _ spec handled => spec.handle handled)
  refine ⟨?_,?_,by simp [Plan.empty]⟩
  · intro tp h alreadyHeld
    exact ⟨alreadyHeld,rfl,by simp [planned,Plan.empty]⟩
  · intro tp free
    exact ⟨[],[],rfl,by simp,by simp [planned,Plan.empty],free,by simp [Plan.empty,OffsetMap.nowhere],by simp⟩

/-- The records that the plan takes as processed are settled, and some offset is written for them. -/
theorem PlanFor.processed {already : OffsetMap} {batch : List Record} (spec : PlanFor setting snap already batch plan)
    (ordered : ∀ tp, already tp = none → (recordsOf tp batch).Pairwise (fun a b => a.offset < b.offset))
    (behind : ∀ r ∈ batch, ∀ h, already r.tp = some h → h ≤ r.offset) (member : r ∈ batch)
    (counted : processed plan.heldFrom r = true) : Settled setting plan r ∧ (plan.next r.tp).isSome := by
  unfold SinkWorker.processed at counted
  cases free : already r.tp with
  | some h =>
    rw [(spec.held r.tp h free).1] at counted
    exact absurd (of_decide_eq_true counted) (Nat.not_lt.mpr (behind r member h free))
  | none =>
    obtain ⟨passed,rest,splits⟩ := spec.free r.tp free
    have inside : r ∈ passed ++ rest := splits.parts ▸ List.mem_filter.mpr ⟨member,by simp⟩
    rcases List.mem_append.mp inside with before | after
    · obtain ⟨n,found,_⟩ := splits.above r before
      exact ⟨splits.settled r before,by rw [found]; rfl⟩
    · obtain ⟨head,rest',rfl⟩ := List.exists_cons_of_ne_nil (List.ne_nil_of_mem after)
      rw [splits.heldFrom] at counted
      have less : r.offset < head.offset := of_decide_eq_true counted
      have sorted := (List.pairwise_append.mp (splits.parts ▸ ordered r.tp free)).2.1
      rcases List.mem_cons.mp after with rfl | later
      · omega
      · have := (List.pairwise_cons.mp sorted).1 r later
        omega

/-- A plan stays below its holds. -/
theorem PlanFor.below {already : OffsetMap} {batch : List Record} (spec : PlanFor setting snap already batch plan)
    (ordered : ∀ tp, already tp = none → (recordsOf tp batch).Pairwise (fun a b => a.offset < b.offset))
    {tp : TopicPartition} {h : Nat} (found : plan.heldFrom tp = some h) :
    (∀ n, plan.next tp = some n → n ≤ h) ∧ ∀ x ∈ planned plan, x.tp = tp → x.offset < h := by
  cases free : already tp with
  | some h' =>
    obtain ⟨_,next,others⟩ := spec.held tp h' free
    exact ⟨by simp [next],fun x member same => absurd same (others x member)⟩
  | none =>
    obtain ⟨passed,rest,splits⟩ := spec.free tp free
    rw [splits.heldFrom] at found
    obtain ⟨head,first,rfl⟩ := Option.map_eq_some_iff.mp found
    have less : ∀ x ∈ passed, x.offset < head.offset := fun x member =>
      (List.pairwise_append.mp (splits.parts ▸ ordered tp free)).2.2 x member head (List.mem_of_head? first)
    refine ⟨?_,fun x member same => less x (splits.planned x member same)⟩
    intro n written
    obtain ⟨last,member,rfl⟩ := splits.next n written
    exact less last member

/-- A transaction stays below the holds that its worker knew of. -/
def RespectsHolds (tx : Transaction) : Prop :=
  ∀ tp h, tx.heldFrom tp = some h → (∀ n, tx.offsets tp = some n → n ≤ h) ∧
    (∀ w ∈ tx.writes, w.record.tp = tp → w.record.offset < h) ∧ ∀ entry ∈ tx.skips, entry.1.tp = tp → entry.1.offset < h

private theorem PlanFor.respectsHolds {already : OffsetMap} {batch : List Record}
    (spec : PlanFor setting snap already batch plan)
    (ordered : ∀ tp, already tp = none → (recordsOf tp batch).Pairwise (fun a b => a.offset < b.offset)) (s : State) :
    RespectsHolds (s.write plan) := by
  intro tp h found
  have below := spec.below ordered (show plan.heldFrom tp = some h from found)
  refine ⟨below.1,?_,?_⟩
  · intro w member
    exact below.2 w.record (by simp only [planned,List.mem_append,List.mem_map]; exact .inl (.inl ⟨w,member,rfl⟩))
  · intro entry member
    exact below.2 entry.1 (by simp only [planned,List.mem_append,List.mem_map]; exact .inr ⟨entry,member,rfl⟩)

/-! ### Handled records -/

section
variable (setting : Setting) (first : TopicPartition → Nat)

/-- A record is written in a committed transaction, acknowledged by the DLT, carries no
    change, or was skipped under a check that held in the committing transaction. -/
def Handled (s : State) (r : Record) : Prop :=
  (∃ tx ∈ s.transactions, ∃ w ∈ tx.writes, w.record = r ∧ Carries setting r w.event) ∨
    r ∈ s.acknowledged ∨
    CarriesNoChange setting.platform r.value ∨
    ∃ tx ∈ s.transactions, ∃ check event, (r,check) ∈ tx.skips ∧ Carries setting r event ∧
      check.sourceId = event.sourceId ∧ check.table = event.table ∧ staleSkip tx.control check = false

/-- Every record from the first one read up to the offset is handled. -/
def Reached (s : State) (tp : TopicPartition) (n : Nat) : Prop :=
  n ≤ (s.log tp).finish ∧ ∀ r ∈ (s.log tp).records, first tp ≤ r.offset → r.offset < n → Handled setting s r

/-- Every record below the offset is handled or among `ws`, which are in order. -/
structure Covers (s : State) (tp : TopicPartition) (ws : List Record) (n : Nat) : Prop where
  finish : n ≤ (s.log tp).finish
  ordered : ws.Pairwise (fun a b => a.offset < b.offset)
  inside : ∀ r ∈ ws, r.offset < n
  all : ∀ r ∈ (s.log tp).records, first tp ≤ r.offset → r.offset < n → Handled setting s r ∨ r ∈ ws

end

/-- What every step does to the log and to the history. -/
structure Grows (s t : State) : Prop where
  log : ∀ tp, (s.log tp).Extends (t.log tp)
  transactions : ∀ tx ∈ s.transactions, tx ∈ t.transactions
  acknowledged : ∀ r ∈ s.acknowledged, r ∈ t.acknowledged

private theorem extends_refl {tp : TopicPartition} (log : Log tp) : log.Extends log :=
  ⟨rfl,Nat.le_refl _,[],by simp,by simp⟩

variable {first : TopicPartition → Nat} {s t : State} {tp : TopicPartition} {n : Nat}

theorem Grows.handled (grows : Grows s t) (handled : Handled setting s r) : Handled setting t r := by
  rcases handled with ⟨tx,member,rest⟩ | acked | quiet | ⟨tx,member,rest⟩
  · exact .inl ⟨tx,grows.transactions tx member,rest⟩
  · exact .inr (.inl (grows.acknowledged r acked))
  · exact .inr (.inr (.inl quiet))
  · exact .inr (.inr (.inr ⟨tx,grows.transactions tx member,rest⟩))

/-- A record below the old end was there before. -/
theorem Grows.old (grows : Grows s t) (member : r ∈ (t.log tp).records) (below : r.offset < n)
    (within : n ≤ (s.log tp).finish) : r ∈ (s.log tp).records := by
  obtain ⟨_,_,fresh,records,late⟩ := grows.log tp
  rcases List.mem_append.mp (records ▸ member) with old | new
  · exact old
  · have := late r new
    omega

theorem Grows.reached (grows : Grows s t) (reached : Reached setting first s tp n) : Reached setting first t tp n := by
  refine ⟨Nat.le_trans reached.1 (grows.log tp).2.1,?_⟩
  intro r member from' below
  exact grows.handled (reached.2 r (grows.old member below reached.1) from' below)

theorem Grows.covers {ws : List Record} (grows : Grows s t) (covers : Covers setting first s tp ws n) :
    Covers setting first t tp ws n where
  finish := Nat.le_trans covers.finish (grows.log tp).2.1
  ordered := covers.ordered
  inside := covers.inside
  all := by
    intro r member from' below
    exact (covers.all r (grows.old member below covers.finish) from' below).imp_left grows.handled

/-- Handled records may be dropped. -/
theorem Covers.drop {ws ws' : List Record} (covers : Covers setting first s tp ws n) (kept : ws'.Sublist ws)
    (dropped : ∀ r ∈ ws, r ∉ ws' → Handled setting s r) : Covers setting first s tp ws' n where
  finish := covers.finish
  ordered := covers.ordered.sublist kept
  inside := fun r member => covers.inside r (kept.subset member)
  all := by
    intro r member from' below
    rcases covers.all r member from' below with handled | waiting
    · exact .inl handled
    · by_cases still : r ∈ ws'
      · exact .inr still
      · exact .inl (dropped r waiting still)

/-- The offset after the last of a handled prefix is reached. -/
theorem Covers.reached {passed rest : List Record} (covers : Covers setting first s tp (passed ++ rest) n)
    (handled : ∀ r ∈ passed, Handled setting s r) {last : Record} (member : last ∈ passed) :
    Reached setting first s tp (last.offset + 1) := by
  have inside := covers.inside last (List.mem_append_left _ member)
  refine ⟨Nat.le_trans inside covers.finish,?_⟩
  intro r known from' below
  rcases covers.all r known from' (by omega) with done | waiting
  · exact done
  · rcases List.mem_append.mp waiting with before | after
    · exact handled r before
    · have := (List.pairwise_append.mp covers.ordered).2.2 last member r after
      omega

private theorem Covers.nil_zero (s : State) (tp : TopicPartition) : Covers setting first s tp [] 0 :=
  ⟨Nat.zero_le _,.nil,by simp,fun _ _ _ below => absurd below (Nat.not_lt_zero _)⟩

theorem Reached.covers (reached : Reached setting first s tp n) : Covers setting first s tp [] n :=
  ⟨reached.1,.nil,by simp,fun r member from' below => .inl (reached.2 r member from' below)⟩

/-- Two skip checks of one plan that look the same to `verifySkips` are the same. -/
theorem PlanFor.agree {already : OffsetMap} {batch : List Record} (spec : PlanFor setting snap already batch plan) :
    ∀ a ∈ plan.skips.map (·.2), ∀ b ∈ plan.skips.map (·.2),
      key a.sourceId a.table = key b.sourceId b.table → a = b := by
  intro a memberA b memberB same
  obtain ⟨entryA,inA,rfl⟩ := List.mem_map.mp memberA
  obtain ⟨entryB,inB,rfl⟩ := List.mem_map.mp memberB
  obtain ⟨givenA,textA⟩ := spec.checks entryA inA
  obtain ⟨givenB,textB⟩ := spec.checks entryB inB
  obtain ⟨sources,tables⟩ := key_injective_table textA textB same
  rw [givenA,givenB,sources,tables]

/-- When a plan is written, all that it settles is handled. -/
theorem PlanFor.written {already : OffsetMap} {batch : List Record} (spec : PlanFor setting snap already batch plan)
    (accepted : Accepted (s.write plan)) (settled : Settled setting plan r) :
    Handled setting ((s.publish (plan.letters.map (·.record))).commit (s.write plan)) r := by
  rcases settled with ⟨w,member,rest⟩ | ⟨letter,member,same⟩ | quiet | ⟨check,event,member,carries,source,table⟩
  · exact .inl ⟨s.write plan,by simp [State.commit],w,member,rest⟩
  · refine .inr (.inl ?_)
    simp only [State.commit,State.publish,List.mem_append,List.mem_map]
    exact .inr ⟨letter,member,same⟩
  · exact .inr (.inr (.inl quiet))
  · refine .inr (.inr (.inr ⟨s.write plan,by simp [State.commit],check,event,member,carries,source,table,?_⟩))
    exact verifySkips_each spec.agree accepted.1 check (List.mem_map.mpr ⟨_,member,rfl⟩)

/-- What an attempt leaves behind, whether it fails or not. -/
structure Attempted (setting : Setting) (s : State) (batch : List Record) (plan : Plan) (t : State)
    (result : Option Failure) : Prop where
  grows : Grows s t
  log : t.log = s.log
  workers : t.workers = s.workers
  kafka : t.kafka = s.kafka
  stored : ∀ tp n, t.stored tp = some n →
    s.stored tp = some n ∨ plan.next tp = some n ∧ ∀ r, Settled setting plan r → Handled setting t r
  transactions : ∀ tx ∈ t.transactions, tx ∈ s.transactions ∨ tx = s.write plan
  done : result = none → ∀ r ∈ batch, (plan.next r.tp).isSome → Settled setting plan r → Handled setting t r
  failed : ∀ state, result = some (.sql state) → plan.quiet batch = false

theorem Grows.publish (s : State) (records : List Record) : Grows s (s.publish records) :=
  ⟨fun tp => extends_refl (s.log tp),fun _ member => member,fun _ member => List.mem_append_left _ member⟩

theorem Grows.commit (s : State) (tx : Transaction) : Grows s (s.commit tx) :=
  ⟨fun tp => extends_refl (s.log tp),fun _ member => List.mem_append_left _ member,fun _ member => member⟩

private theorem extends_trans {a b c : Log tp} (left : a.Extends b) (right : b.Extends c) : a.Extends c := by
  obtain ⟨beginning,finish,fresh,records,late⟩ := left
  obtain ⟨beginning',finish',fresh',records',late'⟩ := right
  refine ⟨beginning'.trans beginning,Nat.le_trans finish finish',fresh ++ fresh',?_,?_⟩
  · rw [records',records,List.append_assoc]
  · intro r member
    rcases List.mem_append.mp member with old | new
    · exact late r old
    · exact Nat.le_trans finish (late' r new)

theorem Grows.trans {u : State} (left : Grows s t) (right : Grows t u) : Grows s u :=
  ⟨fun tp => extends_trans (left.log tp) (right.log tp),fun tx member => right.transactions tx (left.transactions tx member),
    fun r member => right.acknowledged r (left.acknowledged r member)⟩

/-- The one lemma about attempts. -/
theorem attempt_spec {already : OffsetMap} {batch : List Record} {result : Option Failure}
    (spec : PlanFor setting snap already batch plan) (attempt : Attempt s batch plan t result) :
    Attempted setting s batch plan t result := by
  have commits : ∀ tp n, (s.stored.merge plan.next) tp = some n → Accepted (s.write plan) →
      s.stored tp = some n ∨ plan.next tp = some n ∧ ∀ r, Settled setting plan r →
        Handled setting ((s.publish (plan.letters.map (·.record))).commit (s.write plan)) r := by
    intro tp n found accepted
    exact (merge_some found).imp_right (fun next => ⟨next,fun r settled => spec.written accepted settled⟩)
  have both : Grows s ((s.publish (plan.letters.map (·.record))).commit (s.write plan)) :=
    (Grows.publish s _).trans (Grows.commit _ _)
  cases attempt with
  | unpublished some' sent =>
    exact ⟨Grows.publish s _,rfl,rfl,rfl,fun _ _ found => .inl found,fun _ member => .inl member,by simp,by simp⟩
  | unwritten state busy =>
    exact ⟨Grows.publish s _,rfl,rfl,rfl,fun _ _ found => .inl found,fun _ member => .inl member,by simp,fun _ _ => busy⟩
  | unanswered state busy accepted =>
    refine ⟨both,rfl,rfl,rfl,fun tp n found => commits tp n found accepted,?_,by simp,fun _ _ => busy⟩
    exact fun tx member => (List.mem_append.mp member).imp_right List.mem_singleton.mp
  | written busy accepted =>
    refine ⟨both,rfl,rfl,rfl,fun tp n found => commits tp n found accepted,?_,?_,by simp⟩
    · exact fun tx member => (List.mem_append.mp member).imp_right List.mem_singleton.mp
    · exact fun _ r _ _ settled => spec.written accepted settled
  | nothing quiet =>
    refine ⟨⟨fun tp => extends_refl (s.log tp),fun _ member => member,fun _ member => member⟩,rfl,rfl,rfl,
      fun _ _ found => .inl found,fun _ member => .inl member,?_,by simp⟩
    intro _ r member passed _
    have none' := List.all_eq_true.mp quiet r member
    rw [Option.isNone_iff_eq_none.mp none'] at passed
    cases passed

/-- Records waiting to be processed: of a free partition they cover what is not
    handled, of a held one they lie behind the hold. -/
structure Queue (setting : Setting) (first : TopicPartition → Nat) (s : State) (already : OffsetMap)
    (ws : List Record) : Prop where
  free : ∀ tp, already tp = none → ∃ n, Covers setting first s tp (recordsOf tp ws) n
  behind : ∀ r ∈ ws, ∀ h, already r.tp = some h → h ≤ r.offset

theorem recordsOf_append (tp : TopicPartition) (a b : List Record) :
    recordsOf tp (a ++ b) = recordsOf tp a ++ recordsOf tp b := List.filter_append ..

theorem Grows.queue {already : OffsetMap} {ws : List Record} (grows : Grows s t)
    (queue : Queue setting first s already ws) : Queue setting first t already ws where
  free := by
    intro tp free
    obtain ⟨n,covers⟩ := queue.free tp free
    exact ⟨n,grows.covers covers⟩
  behind := queue.behind

theorem Queue.ordered {already : OffsetMap} {part later : List Record}
    (queue : Queue setting first s already (part ++ later)) :
    ∀ tp, already tp = none → (recordsOf tp part).Pairwise (fun a b => a.offset < b.offset) := by
  intro tp free
  obtain ⟨n,covers⟩ := queue.free tp free
  exact (List.pairwise_append.mp (recordsOf_append tp part later ▸ covers.ordered)).1

/-- What a processed part means for its offsets and for the records after it. -/
structure Processed (setting : Setting) (first : TopicPartition → Nat) (t : State) (part later : List Record)
    (plan : Plan) : Prop where
  queue : Queue setting first t plan.heldFrom later
  handled : ∀ r ∈ part, processed plan.heldFrom r = true → Handled setting t r
  next : ∀ tp n, plan.next tp = some n → Reached setting first t tp n ∧ (∀ h, plan.heldFrom tp = some h → n ≤ h) ∧
    ∀ r ∈ later, r.tp = tp → n ≤ r.offset

/-- A hold of a plan is an old one or at a record of its batch. -/
theorem PlanFor.holds {already : OffsetMap} {batch : List Record} {h : Nat}
    (spec : PlanFor setting snap already batch plan) (found : plan.heldFrom tp = some h) :
    already tp = some h ∨ already tp = none ∧ ∃ r ∈ batch, r.tp = tp ∧ r.offset = h := by
  cases free : already tp with
  | some h' =>
    rw [(spec.held tp h' free).1] at found
    exact .inl found
  | none =>
    obtain ⟨passed,rest,splits⟩ := spec.free tp free
    rw [splits.heldFrom] at found
    obtain ⟨head,isHead,rfl⟩ := Option.map_eq_some_iff.mp found
    have member : head ∈ recordsOf tp batch :=
      splits.parts ▸ List.mem_append_right _ (List.mem_of_head? isHead)
    exact .inr ⟨rfl,head,(List.mem_filter.mp member).1,by simpa using (List.mem_filter.mp member).2,rfl⟩

/-- The offset that a plan writes for a partition is reached once its records are handled. -/
theorem PlanFor.reached {already : OffsetMap} {part later : List Record}
    (spec : PlanFor setting snap already part plan) (queue : Queue setting first t already (part ++ later))
    (handled : ∀ r ∈ part, Settled setting plan r → Handled setting t r) (found : plan.next tp = some n) :
    Reached setting first t tp n := by
  cases free : already tp with
  | some h =>
    rw [(spec.held tp h free).2.1] at found
    cases found
  | none =>
    obtain ⟨passed,rest,splits⟩ := spec.free tp free
    obtain ⟨m,covers⟩ := queue.free tp free
    obtain ⟨last,member,rfl⟩ := splits.next n found
    rw [recordsOf_append,splits.parts,List.append_assoc] at covers
    refine covers.reached (fun r before => handled r ?_ (splits.settled r before)) member
    have inside : r ∈ recordsOf tp part := splits.parts ▸ List.mem_append_left _ before
    exact (List.mem_filter.mp inside).1

/-- A part that was processed without an exception. -/
theorem Attempted.processed {already : OffsetMap} {part later : List Record}
    (attempted : Attempted setting s part plan t none) (spec : PlanFor setting snap already part plan)
    (queue : Queue setting first s already (part ++ later)) : Processed setting first t part later plan := by
  have queue' := attempted.grows.queue queue
  have handled : ∀ r ∈ part, (plan.next r.tp).isSome → Settled setting plan r → Handled setting t r := attempted.done rfl
  have passedHandled : ∀ tp passed rest, Splits setting tp part plan passed rest → ∀ r ∈ passed, Handled setting t r := by
    intro tp passed rest splits r before
    have inside : r ∈ recordsOf tp part := splits.parts ▸ List.mem_append_left _ before
    obtain ⟨member,same⟩ := List.mem_filter.mp inside
    obtain ⟨n,found,_⟩ := splits.above r before
    refine handled r member ?_ (splits.settled r before)
    rw [of_decide_eq_true same,found]
    rfl
  refine ⟨⟨?_,?_⟩,?_,?_⟩
  · intro tp unheld
    cases free : already tp with
    | some h =>
      rw [(spec.held tp h free).1] at unheld
      cases unheld
    | none =>
      obtain ⟨passed,rest,splits⟩ := spec.free tp free
      obtain ⟨n,covers⟩ := queue'.free tp free
      rw [splits.heldFrom,Option.map_eq_none_iff,List.head?_eq_none_iff] at unheld
      subst unheld
      rw [recordsOf_append,splits.parts,List.append_nil] at covers
      refine ⟨n,covers.drop (List.sublist_append_right _ _) ?_⟩
      intro r member out
      rcases List.mem_append.mp member with before | after
      · exact passedHandled tp passed [] splits r before
      · exact absurd after out
  · intro r member h found
    rcases spec.holds found with old | ⟨free,head,inPart,same,rfl⟩
    · exact queue.behind r (List.mem_append_right _ member) h old
    · obtain ⟨n,covers⟩ := queue.free r.tp free
      rw [recordsOf_append] at covers
      refine Nat.le_of_lt ((List.pairwise_append.mp covers.ordered).2.2 head ?_ r ?_)
      · exact List.mem_filter.mpr ⟨inPart,by simpa using same⟩
      · exact List.mem_filter.mpr ⟨member,by simp⟩
  · intro r member counted
    have settled := spec.processed queue.ordered
      (fun r member => queue.behind r (List.mem_append_left _ member)) member counted
    exact handled r member settled.2 settled.1
  · intro tp n found
    cases free : already tp with
    | some h =>
      rw [(spec.held tp h free).2.1] at found
      cases found
    | none =>
      obtain ⟨passed,rest,splits⟩ := spec.free tp free
      obtain ⟨m,covers⟩ := queue'.free tp free
      obtain ⟨last,member,rfl⟩ := splits.next n found
      rw [recordsOf_append,splits.parts,List.append_assoc] at covers
      have sorted := (List.pairwise_append.mp covers.ordered).2.2 last member
      refine ⟨covers.reached (passedHandled tp passed rest splits) member,?_,?_⟩
      · intro h held
        rw [splits.heldFrom] at held
        obtain ⟨head,isHead,rfl⟩ := Option.map_eq_some_iff.mp held
        exact sorted head (List.mem_append_left _ (List.mem_of_head? isHead))
      · intro r after same
        exact sorted r (List.mem_append_right _ (List.mem_filter.mpr ⟨after,by simpa using same⟩))

/-! ### The invariant -/

/-- What an isolation has still to do and what it has committed. -/
structure IsolationSafe (setting : Setting) (first : TopicPartition → Nat) (s : State) (iso : Isolation) : Prop where
  queue : Queue setting first s iso.heldFrom iso.work.flatten
  commit : ∀ tp n, iso.commit tp = some n → Reached setting first s tp n ∧
    (∀ h, iso.heldFrom tp = some h → n ≤ h) ∧ ∀ r ∈ iso.work.flatten, r.tp = tp → n ≤ r.offset

/-- The buffer of a worker covers what is not handled below its positions. -/
structure WorkerSafe (setting : Setting) (first : TopicPartition → Nat) (s : State) (w : Worker) : Prop where
  unassigned : ∀ tp, w.position tp = none → recordsOf tp w.buffer = []
  buffered : ∀ tp n, w.position tp = some n → Covers setting first s tp (recordsOf tp w.buffer) n
  commit : ∀ tp n, w.commit tp = some n → Reached setting first s tp n
  isolating : ∀ iso, w.isolation = some iso → IsolationSafe setting first s iso

structure Inv (setting : Setting) (first : TopicPartition → Nat) (s : State) : Prop where
  stored : ∀ tp n, s.stored tp = some n → Reached setting first s tp n
  kafka : ∀ tp n, s.kafka tp = some n → Reached setting first s tp n
  workers : ∀ id, WorkerSafe setting first s (s.workers id)
  transactions : ∀ tx ∈ s.transactions, RespectsHolds tx

private theorem Grows.workerSafe {w : Worker} (grows : Grows s t) (safe : WorkerSafe setting first s w) :
    WorkerSafe setting first t w where
  unassigned := safe.unassigned
  buffered := fun tp n assigned => grows.covers (safe.buffered tp n assigned)
  commit := fun tp n found => grows.reached (safe.commit tp n found)
  isolating := by
    intro iso found
    obtain ⟨queue,commit⟩ := safe.isolating iso found
    refine ⟨grows.queue queue,?_⟩
    intro tp n committed
    exact (commit tp n committed).imp_left grows.reached

/-- A change of the state that leaves the workers alone. -/
theorem Inv.grow (inv : Inv setting first s) (grows : Grows s t) (workers : t.workers = s.workers)
    (stored : ∀ tp n, t.stored tp = some n → s.stored tp = some n ∨ Reached setting first t tp n)
    (kafka : ∀ tp n, t.kafka tp = some n → s.kafka tp = some n ∨ Reached setting first t tp n)
    (transactions : ∀ tx ∈ t.transactions, tx ∈ s.transactions ∨ RespectsHolds tx) : Inv setting first t where
  stored := fun tp n found => (stored tp n found).elim (fun old => grows.reached (inv.stored tp n old)) id
  kafka := fun tp n found => (kafka tp n found).elim (fun old => grows.reached (inv.kafka tp n old)) id
  workers := fun id => workers ▸ grows.workerSafe (inv.workers id)
  transactions := fun tx member => (transactions tx member).elim (inv.transactions tx) id

private theorem setWorker_self (s : State) (id : Nat) (w : Worker) : (s.setWorker id w).workers id = w :=
  Function.update_self ..

private theorem setWorker_other (s : State) {id other : Nat} (w : Worker) (differs : other ≠ id) :
    (s.setWorker id w).workers other = s.workers other := Function.update_of_ne differs ..

/-- A change of one worker. -/
theorem Inv.setWorker (inv : Inv setting first s) (id : Nat) {w : Worker} (safe : WorkerSafe setting first s w) :
    Inv setting first (s.setWorker id w) where
  stored := inv.stored
  kafka := inv.kafka
  transactions := inv.transactions
  workers := by
    intro other
    have same : Grows s (s.setWorker id w) := ⟨fun tp => extends_refl (s.log tp),fun _ member => member,fun _ member => member⟩
    by_cases this : other = id
    · subst this
      rw [setWorker_self]
      exact same.workerSafe safe
    · rw [setWorker_other s w this]
      exact same.workerSafe (inv.workers other)

private theorem idle_safe (s : State) : WorkerSafe setting first s idle where
  unassigned := fun _ _ => rfl
  buffered := by simp [idle,OffsetMap.nowhere]
  commit := by simp [idle,OffsetMap.nowhere]
  isolating := by simp [idle]

/-- The buffer as the queue of a batch. -/
theorem WorkerSafe.queue {w : Worker} (safe : WorkerSafe setting first s w) :
    Queue setting first s .nowhere w.buffer where
  free := by
    intro tp _
    cases assigned : w.position tp with
    | none => exact ⟨0,safe.unassigned tp assigned ▸ Covers.nil_zero s tp⟩
    | some n => exact ⟨n,safe.buffered tp n assigned⟩
  behind := by simp [OffsetMap.nowhere]

/-- Handled records leave the buffer. -/
theorem WorkerSafe.drop {w w' : Worker} (keep : Record → Bool) (safe : WorkerSafe setting first s w)
    (buffer : w'.buffer = w.buffer.filter keep) (position : w'.position = w.position)
    (dropped : ∀ r ∈ w.buffer, keep r = false → Handled setting s r)
    (commit : ∀ tp n, w'.commit tp = some n → Reached setting first s tp n)
    (isolating : ∀ iso, w'.isolation = some iso → IsolationSafe setting first s iso) : WorkerSafe setting first s w' where
  unassigned := by
    intro tp free
    rw [buffer]
    have empty := safe.unassigned tp (position ▸ free)
    rw [recordsOf,List.filter_eq_nil_iff] at empty ⊢
    exact fun r member => empty r (List.mem_of_mem_filter member)
  buffered := by
    intro tp n assigned
    rw [buffer]
    refine (safe.buffered tp n (position ▸ assigned)).drop ?_ ?_
    · exact List.filter_sublist.filter _
    · intro r member out
      obtain ⟨inside,same⟩ := List.mem_filter.mp member
      refine dropped r inside ?_
      cases kept : keep r with
      | false => rfl
      | true => exact absurd (List.mem_filter.mpr ⟨List.mem_filter.mpr ⟨inside,kept⟩,same⟩) out
  commit := commit
  isolating := isolating

private theorem beginning_reached (s : State) (tp : TopicPartition) : Reached setting first s tp (s.log tp).beginning := by
  refine ⟨(s.log tp).bounds,?_⟩
  intro r member _ below
  have := ((s.log tp).inside r member).2.1
  omega

private theorem fallback_reached (inv : Inv setting first s) (tp : TopicPartition) :
    Reached setting first s tp (s.fallback tp) := by
  unfold State.fallback
  split
  · next k committed =>
    split
    · exact inv.kafka tp k committed
    · exact beginning_reached s tp
  · exact beginning_reached s tp

private theorem seekTo_reached (inv : Inv setting first s) {offset : Nat} (sought : seekTo setting s tp = .ok offset) :
    Reached setting first s tp offset := by
  unfold seekTo at sought
  split at sought
  · obtain rfl := Except.ok.inj sought
    split
    · exact beginning_reached s tp
    · exact fallback_reached inv tp
  · next stored found =>
    dsimp only at sought
    split at sought
    · split at sought
      · exact Except.ok.inj sought ▸ beginning_reached s tp
      · cases sought
    · exact Except.ok.inj sought ▸ inv.stored tp stored found

theorem WorkerSafe.revoke {w : Worker} (safe : WorkerSafe setting first s w) (partitions : TopicPartition → Bool) :
    WorkerSafe setting first s { w with
      buffer := w.buffer.filter (fun r => !partitions r.tp)
      held := fun tp => w.held tp && !partitions tp
      position := fun tp => if partitions tp then none else w.position tp } where
  unassigned := by
    intro tp free
    rw [recordsOf,List.filter_eq_nil_iff]
    intro r member same
    obtain ⟨inside,kept⟩ := List.mem_filter.mp member
    obtain rfl := of_decide_eq_true same
    have still : partitions r.tp = false := by simpa using kept
    have empty := safe.unassigned r.tp (by simpa [still] using free)
    rw [recordsOf,List.filter_eq_nil_iff] at empty
    exact empty r inside same
  buffered := by
    intro tp n assigned
    have kept : partitions tp = false := by
      cases revoked : partitions tp with
      | false => rfl
      | true => simp [revoked] at assigned
    simp only [kept,Bool.false_eq_true,if_false] at assigned
    have same : recordsOf tp (w.buffer.filter (fun r => !partitions r.tp)) = recordsOf tp w.buffer := by
      rw [recordsOf,List.filter_filter,recordsOf]
      refine List.filter_congr ?_
      intro r _
      by_cases this : r.tp = tp
      · simp [this,kept]
      · simp [this]
    rw [same]
    exact safe.buffered tp n assigned
  commit := safe.commit
  isolating := safe.isolating

/-- A poll gives the consumer what lies between two positions. -/
theorem Covers.poll {ws : List Record} {offset upTo : Nat} (covers : Covers setting first s tp ws offset)
    (forward : offset ≤ upTo) (available : upTo ≤ (s.log tp).finish) :
    Covers setting first s tp (ws ++ ((s.log tp).from offset).filter (fun r => r.offset < upTo)) upTo where
  finish := available
  ordered := by
    refine List.pairwise_append.mpr ⟨covers.ordered,?_,?_⟩
    · exact ((s.log tp).ordered.filter _).filter _
    · intro a before b after
      have := covers.inside a before
      have := (List.mem_filter.mp (List.mem_filter.mp after).1).2
      have : offset ≤ b.offset := of_decide_eq_true this
      omega
  inside := by
    intro r member
    rcases List.mem_append.mp member with old | new
    · have := covers.inside r old
      omega
    · exact of_decide_eq_true (List.mem_filter.mp new).2
  all := by
    intro r member from' below
    by_cases old : r.offset < offset
    · exact (covers.all r member from' old).imp_right (List.mem_append_left _)
    · refine .inr (List.mem_append_right _ (List.mem_filter.mpr ⟨List.mem_filter.mpr ⟨member,?_⟩,?_⟩))
      · exact decide_eq_true (Nat.not_lt.mp old)
      · exact decide_eq_true below

/-- To seek back to the first record of a stray poll passes no record. -/
theorem Covers.stray {ws rest : List Record} {offset : Nat} (covers : Covers setting first s tp ws offset)
    (polled : (s.log tp).from offset = r :: rest) : Covers setting first s tp ws r.offset := by
  have member : r ∈ (s.log tp).from offset := polled ▸ List.mem_cons_self
  obtain ⟨known,after⟩ := List.mem_filter.mp member
  have after : offset ≤ r.offset := of_decide_eq_true after
  have sorted : ((s.log tp).from offset).Pairwise (fun a b => a.offset < b.offset) := (s.log tp).ordered.filter _
  refine ⟨Nat.le_of_lt ((s.log tp).inside r known).2.2,covers.ordered,?_,?_⟩
  · intro x waiting
    have := covers.inside x waiting
    omega
  · intro x member from' below
    by_cases old : x.offset < offset
    · exact covers.all x member from' old
    · have late : x ∈ (s.log tp).from offset := List.mem_filter.mpr ⟨member,decide_eq_true (Nat.not_lt.mp old)⟩
      rw [polled] at late sorted
      rcases List.mem_cons.mp late with rfl | later
      · omega
      · have := (List.pairwise_cons.mp sorted).1 x later
        omega

/-- The position and the buffer of one partition move. -/
theorem WorkerSafe.move {w : Worker} {buffer : List Record} (safe : WorkerSafe setting first s w)
    (others : ∀ tp', tp' ≠ tp → recordsOf tp' buffer = recordsOf tp' w.buffer)
    (covers : Covers setting first s tp (recordsOf tp buffer) n) :
    WorkerSafe setting first s { w with buffer := buffer, position := w.position.put tp n } where
  unassigned := by
    intro tp' unassigned
    by_cases same : tp' = tp
    · subst same
      simp [OffsetMap.put] at unassigned
    · rw [others tp' same]
      exact safe.unassigned tp' (by simpa [OffsetMap.put,Function.update_of_ne same] using unassigned)
  buffered := by
    intro tp' m assigned
    by_cases same : tp' = tp
    · subst same
      simp only [OffsetMap.put,Function.update_self,Option.some.injEq] at assigned
      exact assigned ▸ covers
    · rw [others tp' same]
      exact safe.buffered tp' m (by simpa [OffsetMap.put,Function.update_of_ne same] using assigned)
  commit := safe.commit
  isolating := safe.isolating

theorem WorkerSafe.assign {w : Worker} (safe : WorkerSafe setting first s w) (free : w.position tp = none)
    (reached : Reached setting first s tp n) : WorkerSafe setting first s { w with position := w.position.put tp n } :=
  safe.move (fun _ _ => rfl) (safe.unassigned tp free ▸ reached.covers)

/-- Whatever an attempt leads to, the stored offsets are right and the holds respected. -/
theorem Inv.attempt {already : OffsetMap} {part later : List Record} {result : Option Failure}
    (inv : Inv setting first s) (spec : PlanFor setting snap already part plan)
    (queue : Queue setting first s already (part ++ later)) (attempted : Attempted setting s part plan t result) :
    Inv setting first t := by
  refine inv.grow attempted.grows attempted.workers ?_ ?_ ?_
  · intro tp n found
    refine (attempted.stored tp n found).imp_right ?_
    rintro ⟨next,handled⟩
    exact spec.reached (attempted.grows.queue queue) (fun r _ settled => handled r settled) next
  · intro tp n found
    rw [attempted.kafka] at found
    exact .inl found
  · intro tx member
    rcases attempted.transactions tx member with old | rfl
    · exact .inl old
    · exact .inr (spec.respectsHolds queue.ordered s)

theorem WorkerSafe.settle {w : Worker} (safe : WorkerSafe setting first t w) (free : w.isolation = none)
    (done : Processed setting first t w.buffer [] plan) : WorkerSafe setting first t (w.settle plan) := by
  refine safe.drop (fun r => !(r ∈ w.buffer && processed plan.heldFrom r)) rfl rfl ?_ ?_ ?_
  · intro r member gone
    exact done.handled r member (by simpa [member] using gone)
  · intro tp n found
    rcases merge_some found with old | new
    · exact safe.commit tp n old
    · exact (done.next tp n new).1
  · intro iso found
    rw [show (w.settle plan).isolation = none from free] at found
    cases found

/-- The state of the worker when only its isolation or its holds change. -/
theorem WorkerSafe.replace {w w' : Worker} (safe : WorkerSafe setting first s w) (buffer : w'.buffer = w.buffer)
    (position : w'.position = w.position) (commit : ∀ tp n, w'.commit tp = some n → Reached setting first s tp n)
    (isolating : ∀ iso, w'.isolation = some iso → IsolationSafe setting first s iso) :
    WorkerSafe setting first s w' where
  unassigned := fun tp free => buffer ▸ safe.unassigned tp (position ▸ free)
  buffered := fun tp n assigned => buffer ▸ safe.buffered tp n (position ▸ assigned)
  commit := commit
  isolating := isolating

theorem WorkerSafe.retry {w : Worker} (safe : WorkerSafe setting first s w) (failure : Failure) :
    WorkerSafe setting first s (w.retry setting failure) := by
  unfold Worker.retry
  split
  · exact safe
  · split
    · exact safe
    · split
      · exact idle_safe s
      · exact safe
      · split
        · exact safe
        · refine safe.replace rfl rfl safe.commit ?_
          rintro _ ⟨⟩
          exact ⟨by simpa using safe.queue,by simp [OffsetMap.nowhere]⟩

theorem WorkerSafe.abandon {w : Worker} (safe : WorkerSafe setting first s w) (iso : Isolation) :
    WorkerSafe setting first s (w.abandon iso) :=
  safe.replace rfl rfl safe.commit (by simp [Worker.abandon])

/-- The records of partitions taken away leave the queue. -/
theorem IsolationSafe.keepAlive {iso : Isolation} (safe : IsolationSafe setting first s iso) (position : OffsetMap) :
    IsolationSafe setting first s { iso with work := keepAlive position iso.work } := by
  have flat : (SinkWorker.keepAlive position iso.work).flatten =
      iso.work.flatten.filter (fun r => (position r.tp).isSome) := by
    rw [SinkWorker.keepAlive,List.filter_flatten]
  refine ⟨⟨?_,?_⟩,?_⟩
  · intro tp free
    obtain ⟨n,covers⟩ := safe.queue.free tp free
    dsimp only
    rw [flat]
    cases assigned : position tp with
    | none =>
      have gone : recordsOf tp (iso.work.flatten.filter (fun r => (position r.tp).isSome)) = [] := by
        rw [recordsOf,List.filter_eq_nil_iff]
        intro r member same
        have still := (List.mem_filter.mp member).2
        rw [of_decide_eq_true same,assigned] at still
        cases still
      exact ⟨0,gone ▸ Covers.nil_zero s tp⟩
    | some m =>
      have same : recordsOf tp (iso.work.flatten.filter (fun r => (position r.tp).isSome)) =
          recordsOf tp iso.work.flatten := by
        rw [recordsOf,List.filter_filter,recordsOf]
        refine List.filter_congr ?_
        intro r _
        by_cases this : r.tp = tp
        · simp [this,assigned]
        · simp [this]
      exact ⟨n,same ▸ covers⟩
  · intro r member
    exact safe.queue.behind r (List.mem_of_mem_filter (flat ▸ member))
  · intro tp n committed
    obtain ⟨reached,held,ahead⟩ := safe.commit tp n committed
    exact ⟨reached,held,fun r member => ahead r (List.mem_of_mem_filter (flat ▸ member))⟩

/-- Another deque with the same records in the same order. -/
theorem IsolationSafe.rearrange {iso iso' : Isolation} (safe : IsolationSafe setting first s iso)
    (flat : iso'.work.flatten = iso.work.flatten) (heldFrom : iso'.heldFrom = iso.heldFrom)
    (commit : iso'.commit = iso.commit) : IsolationSafe setting first s iso' := by
  obtain ⟨queue,committed⟩ := safe
  refine ⟨?_,?_⟩
  · rw [flat,heldFrom]
    exact queue
  · rw [flat,heldFrom,commit]
    exact committed

theorem WorkerSafe.retryPart {w : Worker} {iso : Isolation} {part : List Record} {rest : List (List Record)}
    (safe : WorkerSafe setting first s w) (isolation : IsolationSafe setting first s { iso with work := part :: rest })
    (failure : Failure) : WorkerSafe setting first s (w.retryPart iso part rest failure) := by
  unfold Worker.retryPart
  split
  · exact safe.abandon iso
  · split
    · split
      · exact safe.abandon iso
      · refine safe.replace rfl rfl safe.commit ?_
        rintro _ ⟨⟩
        exact isolation.rearrange rfl rfl rfl
    · split
      · exact idle_safe s
      · exact safe.abandon iso
      · split
        · refine safe.replace rfl rfl safe.commit ?_
          rintro _ ⟨⟩
          refine isolation.rearrange ?_ rfl rfl
          simp [← List.append_assoc]
        · exact (safe.abandon iso).replace rfl rfl safe.commit (by simp [Worker.abandon])

/-- A processed part leaves the deque; a hold it found stays for the parts after it. -/
theorem IsolationSafe.processed {iso : Isolation} {part : List Record} {rest : List (List Record)}
    (safe : IsolationSafe setting first t { iso with work := part :: rest })
    (spec : PlanFor setting snap iso.heldFrom part plan)
    (done : Processed setting first t part rest.flatten plan) : IsolationSafe setting first t
      { iso with work := rest, heldFrom := plan.heldFrom, commit := iso.commit.merge plan.next, fencedInARow := 0 } := by
  refine ⟨done.queue,?_⟩
  intro tp n committed
  rcases merge_some committed with old | new
  · obtain ⟨reached,held,ahead⟩ := safe.commit tp n old
    refine ⟨reached,?_,fun r member => ahead r (List.mem_append_right _ member)⟩
    intro h found
    rcases spec.holds found with before | ⟨_,head,member,same,rfl⟩
    · exact held h before
    · exact ahead head (List.mem_append_left _ member) same
  · exact done.next tp n new

theorem WorkerSafe.settlePart {w : Worker} {iso : Isolation} {part : List Record} {rest : List (List Record)}
    (safe : WorkerSafe setting first t w) (isolation : IsolationSafe setting first t { iso with work := part :: rest })
    (spec : PlanFor setting snap iso.heldFrom part plan)
    (done : Processed setting first t part rest.flatten plan) :
    WorkerSafe setting first t (w.settlePart iso part rest plan) := by
  refine safe.drop (fun r => !(r ∈ part && processed plan.heldFrom r)) rfl rfl ?_ safe.commit ?_
  · intro r _ gone
    have gone : r ∈ part ∧ processed plan.heldFrom r = true := by simpa using gone
    exact done.handled r gone.1 gone.2
  · rintro _ ⟨⟩
    exact isolation.processed spec done

theorem WorkerSafe.finish {w : Worker} {iso : Isolation} (safe : WorkerSafe setting first s w)
    (isolation : IsolationSafe setting first s iso) : WorkerSafe setting first s (w.finish iso) := by
  refine safe.replace rfl rfl ?_ (by simp [Worker.finish])
  intro tp n found
  rcases merge_some found with old | new
  · exact safe.commit tp n old
  · exact (isolation.commit tp n new).1

/-- What a failed part of one record means: its partition is not held, and once the
    record is handled the offset after it is reached. -/
structure Rejected (setting : Setting) (first : TopicPartition → Nat) (s : State) (iso : Isolation) (r : Record)
    (rest : List (List Record)) : Prop where
  free : iso.heldFrom r.tp = none
  reached : ∀ t, Grows s t → Handled setting t r → Reached setting first t r.tp (r.offset + 1)
  isolation : ∀ t, Grows s t → Handled setting t r → IsolationSafe setting first t
    { iso with work := rest, commit := iso.commit.merge (.single r.tp (r.offset + 1)),
               quarantined := iso.quarantined + 1 }

theorem IsolationSafe.rejected {iso : Isolation} {rest : List (List Record)} {state : Option String}
    (safe : IsolationSafe setting first s { iso with work := [r] :: rest })
    (spec : PlanFor setting snap iso.heldFrom [r] plan)
    (attempted : Attempted setting s [r] plan t (some (.sql state))) : Rejected setting first s iso r rest := by
  have free : iso.heldFrom r.tp = none := by
    cases held : iso.heldFrom r.tp with
    | none => rfl
    | some h =>
      have busy := attempted.failed state rfl
      simp [Plan.quiet,(spec.held r.tp h held).2.1] at busy
  have parts : recordsOf r.tp (r :: rest.flatten) = [r] ++ recordsOf r.tp rest.flatten := by
    simp [recordsOf]
  have reached : ∀ t, Grows s t → Handled setting t r → Reached setting first t r.tp (r.offset + 1) := by
    intro t grows handled
    obtain ⟨n,covers⟩ := (grows.queue safe.queue).free r.tp free
    rw [show (([r] :: rest).flatten) = r :: rest.flatten by simp,parts] at covers
    exact covers.reached (by simpa using handled) (by simp)
  refine ⟨free,reached,?_⟩
  intro t grows handled
  refine ⟨⟨?_,?_⟩,?_⟩
  · intro tp unheld
    obtain ⟨n,covers⟩ := (grows.queue safe.queue).free tp unheld
    rw [show (([r] :: rest).flatten) = [r] ++ rest.flatten by simp,recordsOf_append] at covers
    refine ⟨n,covers.drop (List.sublist_append_right _ _) ?_⟩
    intro x member out
    rcases List.mem_append.mp member with this | later
    · obtain rfl := List.mem_singleton.mp (List.mem_filter.mp this).1
      exact handled
    · exact absurd later out
  · intro x member
    exact safe.queue.behind x (by simpa using .inr (by simpa using member))
  · intro tp n committed
    rcases merge_some committed with old | new
    · obtain ⟨before,held,ahead⟩ := safe.commit tp n old
      exact ⟨grows.reached before,held,fun x member => ahead x (by simpa using .inr (by simpa using member))⟩
    · obtain ⟨rfl,rfl⟩ := single_some new
      refine ⟨reached t grows handled,by simp [free],?_⟩
      intro x member same
      obtain ⟨n,covers⟩ := safe.queue.free r.tp free
      rw [show (([r] :: rest).flatten) = r :: rest.flatten by simp,parts] at covers
      have := (List.pairwise_cons.mp covers.ordered).1 x (List.mem_filter.mpr ⟨member,by simpa using same⟩)
      exact this

/-- The transaction of `quarantine`. -/
theorem Inv.quarantine {iso : Isolation} {rest : List (List Record)} (inv : Inv setting first t)
    (grows : Grows s t) (rejected : Rejected setting first s iso r rest) :
    Inv setting first (t.deadLetter r iso.heldFrom) ∧
      Handled setting (t.deadLetter r iso.heldFrom) r := by
  have more : Grows t (t.deadLetter r iso.heldFrom) :=
    (Grows.publish t _).trans (Grows.commit _ _)
  have handled : Handled setting (t.deadLetter r iso.heldFrom) r :=
    .inr (.inl (by simp [State.deadLetter,State.commit,State.publish]))
  refine ⟨inv.grow more rfl ?_ (fun _ _ found => .inl found) ?_,handled⟩
  · intro tp n found
    refine (merge_some found).imp_right ?_
    intro new
    obtain ⟨rfl,rfl⟩ := single_some new
    exact rejected.reached _ (grows.trans more) handled
  · intro tx member
    rcases List.mem_append.mp member with old | new
    · exact .inl old
    · obtain rfl := List.mem_singleton.mp new
      refine .inr (fun tp h found => ⟨?_,by simp,by simp⟩)
      intro n written
      obtain ⟨rfl,_⟩ := single_some written
      exact absurd (rejected.free.symm.trans found) (by simp)

theorem WorkerSafe.quarantine {w : Worker} {iso : Isolation} {rest : List (List Record)}
    (safe : WorkerSafe setting first t w) (grows : Grows s t) (rejected : Rejected setting first s iso r rest)
    (handled : Handled setting t r) : WorkerSafe setting first t (w.quarantine iso r rest) := by
  refine safe.drop (fun x => x ≠ r) rfl rfl ?_ safe.commit ?_
  · intro x _ gone
    have same : x = r := by simpa using gone
    exact same ▸ handled
  · rintro _ ⟨⟩
    exact rejected.isolation t grows handled

/-! ### Every step keeps the invariant -/

/-- The parts of an isolation that are still assigned. -/
theorem Inv.parts {id : Nat} {iso : Isolation} {work : List (List Record)} (inv : Inv setting first s)
    (isolating : (s.workers id).isolation = some iso)
    (head : SinkWorker.keepAlive (s.workers id).position iso.work = work) :
    IsolationSafe setting first s { iso with work := work } :=
  head ▸ ((inv.workers id).isolating iso isolating).keepAlive (s.workers id).position

private theorem IsolationSafe.grow {iso : Isolation} (safe : IsolationSafe setting first s iso) (grows : Grows s t) :
    IsolationSafe setting first t iso :=
  ⟨grows.queue safe.queue,fun tp n committed => (safe.commit tp n committed).imp_left grows.reached⟩

theorem inv_step {id : Option Nat} (inv : Inv setting first s) (step : Step setting s id t) : Inv setting first t := by
  cases step with
  | @produce tp log grown =>
    have grows : Grows s { s with log := Function.update s.log tp log } := by
      refine ⟨?_,fun _ member => member,fun _ member => member⟩
      intro tp'
      by_cases same : tp' = tp
      · subst same
        simpa using grown
      · simpa [Function.update_of_ne same] using extends_refl (s.log tp')
    exact inv.grow grows rfl (fun _ _ found => .inl found) (fun _ _ found => .inl found) (fun _ member => .inl member)
  | govern control =>
    exact inv.grow ⟨fun tp => extends_refl (s.log tp),fun _ member => member,fun _ member => member⟩ rfl
      (fun _ _ found => .inl found) (fun _ _ found => .inl found) (fun _ member => .inl member)
  | @refresh id view =>
    exact inv.setWorker id ((inv.workers id).replace rfl rfl (inv.workers id).commit (inv.workers id).isolating)
  | @assign id tp offset free sought =>
    exact inv.setWorker id ((inv.workers id).assign free (seekTo_reached inv sought))
  | @assignUnsought id tp free swallowed =>
    exact inv.setWorker id ((inv.workers id).assign free (fallback_reached inv tp))
  | @revoke id partitions => exact inv.setWorker id ((inv.workers id).revoke partitions)
  | @crash id => exact inv.setWorker id (idle_safe s)
  | @poll id tp offset upTo free running assigned forward available =>
    refine inv.setWorker id ((inv.workers id).move ?_ ?_)
    · intro tp' other
      rw [recordsOf_append]
      refine List.append_right_eq_self.mpr (List.filter_eq_nil_iff.mpr ?_)
      intro r member same
      have known := (List.mem_filter.mp (List.mem_filter.mp member).1).1
      exact other ((of_decide_eq_true same).symm.trans ((s.log tp).inside r known).1)
    · have covers := ((inv.workers id).buffered tp offset assigned).poll forward available
      rw [recordsOf_append]
      have own : recordsOf tp (((s.log tp).from offset).filter (fun r => r.offset < upTo)) =
          ((s.log tp).from offset).filter (fun r => r.offset < upTo) := by
        refine List.filter_eq_self.mpr ?_
        intro r member
        have known := (List.mem_filter.mp (List.mem_filter.mp member).1).1
        exact decide_eq_true ((s.log tp).inside r known).1
      rw [own]
      exact covers
  | @stray id tp offset r rest assigned polled =>
    exact inv.setWorker id ((inv.workers id).move (fun _ _ => rfl)
      (((inv.workers id).buffered tp offset assigned).stray polled))
  | @batch t id plan free full planned attempted =>
    have spec := process_spec planned
    have queue : Queue setting first s .nowhere ((s.workers id).buffer ++ []) := by
      simpa using (inv.workers id).queue
    have result := attempt_spec spec attempted
    have safe := result.grows.workerSafe (inv.workers id)
    exact (inv.attempt spec queue result).setWorker id (safe.settle free (result.processed spec queue))
  | @batchFailed t id plan failure free full planned attempted =>
    have spec := process_spec planned
    have queue : Queue setting first s .nowhere ((s.workers id).buffer ++ []) := by
      simpa using (inv.workers id).queue
    have result := attempt_spec spec attempted
    exact (inv.attempt spec queue result).setWorker id ((result.grows.workerSafe (inv.workers id)).retry failure)
  | @part t id iso part rest plan isolating head planned attempted =>
    have spec := process_spec planned
    have isolation := inv.parts isolating head
    have queue : Queue setting first s iso.heldFrom (part ++ rest.flatten) := isolation.queue
    have result := attempt_spec spec attempted
    have isolation' := isolation.grow result.grows
    exact (inv.attempt spec queue result).setWorker id ((result.grows.workerSafe (inv.workers id)).settlePart
      isolation' spec (result.processed spec queue))
  | @partFailed t id iso part rest plan failure isolating head planned attempted otherwise =>
    have spec := process_spec planned
    have isolation := inv.parts isolating head
    have queue : Queue setting first s iso.heldFrom (part ++ rest.flatten) := isolation.queue
    have result := attempt_spec spec attempted
    have isolation' := isolation.grow result.grows
    exact (inv.attempt spec queue result).setWorker id
      ((result.grows.workerSafe (inv.workers id)).retryPart isolation' failure)
  | @quarantine t id iso r rest plan state isolating head planned attempted data below =>
    have spec := process_spec planned
    have isolation := inv.parts isolating head
    have queue : Queue setting first s iso.heldFrom ([r] ++ rest.flatten) := isolation.queue
    have result := attempt_spec spec attempted
    have rejected := isolation.rejected spec result
    obtain ⟨inv',handled⟩ := (inv.attempt spec queue result).quarantine result.grows rejected
    have grows : Grows s (t.deadLetter r iso.heldFrom) :=
      result.grows.trans ((Grows.publish t _).trans (Grows.commit _ _))
    exact inv'.setWorker id ((grows.workerSafe (inv.workers id)).quarantine grows rejected handled)
  | @quarantineFailed t u id iso r rest plan state isolating head planned attempted data below interrupted =>
    have spec := process_spec planned
    have isolation := inv.parts isolating head
    have queue : Queue setting first s iso.heldFrom ([r] ++ rest.flatten) := isolation.queue
    have result := attempt_spec spec attempted
    have rejected := isolation.rejected spec result
    have inv' := inv.attempt spec queue result
    rcases interrupted with rfl | rfl | rfl
    · exact inv'.setWorker id ((result.grows.workerSafe (inv.workers id)).abandon iso)
    · have more := Grows.publish t [r]
      exact (inv'.grow more rfl (fun _ _ found => .inl found) (fun _ _ found => .inl found)
        (fun _ member => .inl member)).setWorker id (((result.grows.trans more).workerSafe (inv.workers id)).abandon iso)
    · have grows : Grows s (t.deadLetter r iso.heldFrom) :=
        result.grows.trans ((Grows.publish t _).trans (Grows.commit _ _))
      exact (inv'.quarantine result.grows rejected).1.setWorker id ((grows.workerSafe (inv.workers id)).abandon iso)
  | @skipPart id iso rest isolating head =>
    have isolation := inv.parts isolating head
    refine inv.setWorker id ((inv.workers id).replace rfl rfl (inv.workers id).commit ?_)
    rintro _ ⟨⟩
    exact isolation.rearrange (by simp) rfl rfl
  | @abandon id iso isolating => exact inv.setWorker id ((inv.workers id).abandon iso)
  | @finish id iso isolating done =>
    exact inv.setWorker id ((inv.workers id).finish ((inv.workers id).isolating iso isolating))
  | @commitAsync id accepted =>
    have grows : Grows s (s.commitAsync (s.workers id).commit accepted) :=
      ⟨fun tp => extends_refl (s.log tp),fun _ member => member,fun _ member => member⟩
    refine (inv.grow grows rfl (fun _ _ found => .inl found) ?_ (fun _ member => .inl member)).setWorker id
      ((grows.workerSafe (inv.workers id)).replace rfl rfl (by simp [OffsetMap.nowhere]) ?_)
    · intro tp n found
      simp only [State.commitAsync] at found
      split at found
      · exact .inr (grows.reached ((inv.workers id).commit tp n found))
      · exact .inl found
    · exact (grows.workerSafe (inv.workers id)).isolating

/-- The first start of the consumer group: no worker has any partition, `start` is where
    `onPartitionsAssigned` lets the first reader of each partition begin, no stored offset
    is beyond the log, and Kafka holds none beyond the start. -/
structure Initial (setting : Setting) (start : TopicPartition → Nat) (s : State) : Prop where
  workers : ∀ id, s.workers id = idle
  transactions : s.transactions = []
  begins : ∀ tp, seekTo setting s tp = .ok (start tp)
  stored : ∀ tp n, s.stored tp = some n → n ≤ (s.log tp).finish
  kafka : ∀ tp n, s.kafka tp = some n → n ≤ start tp ∧ n ≤ (s.log tp).finish

theorem Initial.inv (initial : Initial setting first s) : Inv setting first s where
  stored := by
    intro tp n found
    refine ⟨initial.stored tp n found,?_⟩
    have begins := initial.begins tp
    simp only [seekTo,found] at begins
    intro r member from' before
    have inside := ((s.log tp).inside r member).2.1
    have within := initial.stored tp n found
    split at begins
    · next gap =>
      split at begins
      · have := Except.ok.inj begins
        omega
      · cases begins
    · have := Except.ok.inj begins
      omega
  kafka := by
    intro tp n found
    obtain ⟨below,inside⟩ := initial.kafka tp n found
    exact ⟨inside,fun r _ from' before => by omega⟩
  workers := fun id => initial.workers id ▸ idle_safe s
  transactions := by simp [initial.transactions]

/-- The sink never advances past an unhandled record. Whatever the workers did, every record
    from the first one read up to a stored offset is handled; no transaction passes
    a hold that its worker knew of; no isolation has committed past a hold it found. -/
theorem never_past_unhandled {trace : List (Option Nat)} (initial : Initial setting first s)
    (run : Run (Step setting) s trace t) :
    (∀ tp n, t.stored tp = some n → ∀ r ∈ (t.log tp).records, first tp ≤ r.offset → r.offset < n →
      Handled setting t r) ∧
    (∀ tx ∈ t.transactions, RespectsHolds tx) ∧
    ∀ id iso, (t.workers id).isolation = some iso → ∀ tp h n, iso.heldFrom tp = some h → iso.commit tp = some n →
      n ≤ h := by
  have inv := run.stateInvariant (I := Inv setting first) initial.inv (fun _ _ _ inv step => inv_step inv step)
  refine ⟨fun tp n found => (inv.stored tp n found).2,inv.transactions,?_⟩
  intro id iso isolating tp h n held committed
  exact (((inv.workers id).isolating iso isolating).commit tp n committed).2.1 h held

/-- Messages of one byte: the create of office 1 by the source that the byte stands for. -/
def bytePlatform : Platform where
  readTree := fun bytes => .ok (.object [("op",.string "c"),
    ("source",.object [("name",.string (if bytes = [1] then "bank-a" else "bank-b"))]),("after",.object [("id",.int 1)])])
  asLong := fun node default => match node with
    | .int n => n
    | _ => default
  render := fun _ => ""
  parseLong := fun _ => none
  localDate := fun _ => .ok ""
  instantOfMillis := fun _ => .ok ""
  instantOfMicros := fun _ => .ok ""
  currentTimeMillis := 0

def officeTable : TableContract := ⟨"m_office","id",[⟨"id","bigint",["id"],false,"micros"⟩],⟨_,List.mem_singleton.mpr rfl,rfl⟩⟩

def bankSetting : Setting where
  config := ⟨"dlt",true,false,100,.ofRat (1 / 10)⟩
  contract := ⟨"fineract.cdc",[officeTable],by decide⟩
  platform := bytePlatform

/-- KAFKA owns the offices of both banks; those of the second are paused. -/
def bankControl : ControlState where
  registry := [⟨"bank-a","t-a",0⟩,⟨"bank-b","t-b",0⟩]
  ownership := [⟨"bank-a","m_office",.KAFKA,none,.STEADY,7,none,none⟩,
    ⟨"bank-b","m_office",.KAFKA,none,.PAUSED,7,none,none⟩]
  registryKey := by decide
  ownershipKey := by decide
  registryText := by decide
  ownershipText := by decide

def officeTopic : TopicPartition := ⟨"fineract.cdc.m_office",0⟩
def officeRecord (offset : Nat) (value : Option Bytes) : Record := ⟨"fineract.cdc.m_office",0,offset,value⟩

/-- A tombstone, an event of the first bank and one of the second. -/
def officeLog : Log officeTopic where
  beginning := 0
  records := [officeRecord 0 none,officeRecord 1 (some [1]),officeRecord 2 (some [2])]
  finish := 3
  ordered := by decide
  inside := by decide
  bounds := by decide

def emptyLog (tp : TopicPartition) : Log tp := ⟨0,[],0,.nil,by simp,Nat.le_refl _⟩

def bankStart : State where
  log := Function.update emptyLog officeTopic officeLog
  control := bankControl
  stored := .nowhere
  kafka := .nowhere
  workers := fun _ => idle
  transactions := []
  acknowledged := []

/-- One worker with a fresh view and the three records in its buffer. -/
def bankWorker : Worker :=
  { idle with view := load bankControl 0, position := .single officeTopic 3, buffer := officeLog.records }

private theorem bankWorker_plan : ∃ plan, process bankSetting bankWorker.view .nowhere bankWorker.buffer = some plan ∧
    plan.quiet bankWorker.buffer = false ∧ Accepted (bankStart.write plan) ∧ plan.next officeTopic = some 2 ∧
    plan.heldFrom officeTopic = some 2 := by
  refine ⟨_,rfl,by decide,⟨by decide,by decide⟩,by decide,by decide⟩

/-- The worker writes the event of the first bank, holds the one of the second, and
    the stored offset lies between them. -/
theorem never_past_unhandled_hold : ∃ trace t, Run (Step bankSetting) bankStart trace t ∧
    t.stored officeTopic = some 2 ∧ ∀ r ∈ (t.log officeTopic).records, 0 ≤ r.offset → r.offset < 2 → Handled bankSetting t r := by
  obtain ⟨plan,made,busy,accepted,next,_⟩ := bankWorker_plan
  have initial : Initial bankSetting (fun tp => (bankStart.log tp).beginning) bankStart :=
    ⟨fun _ => rfl,rfl,fun _ => rfl,by simp [bankStart,OffsetMap.nowhere],by simp [bankStart,OffsetMap.nowhere]⟩
  let viewing := bankStart.setWorker 0 { idle with view := load bankControl 0 }
  let assigned := viewing.setWorker 0 { viewing.workers 0 with position := (viewing.workers 0).position.put officeTopic 0 }
  let polled := assigned.setWorker 0 { assigned.workers 0 with
    buffer := (assigned.workers 0).buffer ++ (officeLog.from 0).filter (fun r => r.offset < 3)
    position := (assigned.workers 0).position.put officeTopic 3 }
  have view : Step bankSetting bankStart (some 0) viewing := .refresh (load bankControl 0)
  have assign : Step bankSetting viewing (some 0) assigned := .assign rfl rfl
  have poll : Step bankSetting assigned (some 0) polled :=
    .poll rfl rfl (show (assigned.workers 0).position officeTopic = some 0 from rfl) (by decide) (by decide)
  have write : Step bankSetting polled (some 0)
      (((polled.publish (plan.letters.map (·.record))).commit (polled.write plan)).setWorker 0
        ((polled.workers 0).settle plan)) :=
    .batch rfl (show bankWorker.buffer ≠ [] by decide) made (.written busy accepted)
  have run := (((Run.start.extend view).extend assign).extend poll).extend write
  exact ⟨_,_,run,next,(never_past_unhandled initial run).1 officeTopic 2 next⟩

end FineractBi.SinkSafety
