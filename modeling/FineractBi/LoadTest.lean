import FineractBi.Lib.Numeral
import FineractBi.Lib.Runs
import Mathlib.Algebra.BigOperators.Group.Finset.Basic
import Mathlib.Data.Finset.Max

/-!
The load generator: `EventProducer` sends events to Kafka, some late and some twice,
and notes in `GroundTruth` what they leave of every key. However the draws fall, the
records that are sent determine the ground truth: it holds the newest of each key.
-/
namespace FineractBi.LoadTest
universe u

/-- The arguments of a load test. Sources and tables are counted from zero, and so are the keys. -/
structure Setting where
  sources : Nat
  sourcePrefix : String
  tables : List String
  keys : Nat
  baseLsn : Int

/-- `GroundTruth.Expected`. -/
structure Expected where
  live : Int
  deleted : Int
  lsnSum : Int
  amountCentsSum : Int
  deriving DecidableEq, Repr

/-- The greatest lsn and whether it was a delete, of each slot and key. -/
structure GroundTruth where
  maxLsn : Nat → Nat → Int
  deleted : Nat → Nat → Bool

namespace GroundTruth

def empty : GroundTruth := ⟨fun _ _ => 0,fun _ _ => false⟩

/-- The place of a source and a table in the arrays. -/
def slot (g : Setting) (source table : Nat) : Nat := source * g.tables.length + table

def isLive (g : Setting) (truth : GroundTruth) (source table key : Nat) : Bool :=
  0 < truth.maxLsn (slot g source table) key && !truth.deleted (slot g source table) key

def record (g : Setting) (truth : GroundTruth) (source table key : Nat) (lsn : Int) (delete : Bool) : GroundTruth :=
  let s := slot g source table
  if truth.maxLsn s key < lsn then
    ⟨fun s' k => if s' = s ∧ k = key then lsn else truth.maxLsn s' k,
      fun s' k => if s' = s ∧ k = key then delete else truth.deleted s' k⟩
  else truth

end GroundTruth

/-- `SyntheticPayloads.amountCents`, the product wrapping as a Java long. -/
def amountCents (lsn : Int) : Int := (Int.bmod (lsn * 2654435761) (2 ^ 64)) % 10000000 + 100

/-- One round of the loop of `expected`. -/
def countKey (g : Setting) (truth : GroundTruth) (amounts : Bool) (s : Nat) (e : Expected) (k : Nat) : Expected :=
  let lsn := truth.maxLsn s k
  if lsn = 0 then e
  else if truth.deleted s k then { e with deleted := e.deleted + 1 }
  else { e with
    live := e.live + 1
    lsnSum := e.lsnSum + (lsn - g.baseLsn)
    amountCentsSum := if amounts then e.amountCentsSum + amountCents lsn else e.amountCentsSum }

/-- The table whose amounts are summed. -/
def amountTable : String := "m_loan_transaction"

def GroundTruth.expected (g : Setting) (truth : GroundTruth) (source table : Nat) : Expected :=
  (List.range g.keys).foldl (countKey g truth (g.tables[table]? = some amountTable) (slot g source table)) ⟨0,0,0,0⟩

/-- `summary` of a table: the sources that have a row, with what is expected of them. -/
def GroundTruth.summary (g : Setting) (truth : GroundTruth) (table : Nat) : List (Nat × Expected) :=
  ((List.range g.sources).map (fun s => (s,truth.expected g s table))).filter (fun e => 0 < e.2.live + e.2.deleted)

inductive EventOp
  | c | u | d
  deriving DecidableEq, Repr

/-- A record on its way to Kafka. -/
structure Sent where
  source : Nat
  table : Nat
  key : Nat
  lsn : Int
  op : EventOp
  tsMicros : Int
  deriving DecidableEq, Repr

/-- What the random numbers of an event come to. A copy that is held back has a delay. -/
structure Draw where
  table : Nat
  source : Nat
  key : Nat
  delete : Bool
  reorder : Option Nat
  duplicate : Option Nat
  tsMicros : Int

/-- The variables of the loop. -/
structure Producer where
  i : Nat
  lsnBySource : Nat → Int
  truth : GroundTruth
  held : List (Nat × Sent)
  sent : List Sent

def Producer.start (g : Setting) : Producer := ⟨0,fun _ => g.baseLsn,.empty,[],[]⟩

/-- The record of an event. -/
def Producer.record (g : Setting) (p : Producer) (d : Draw) : Sent where
  source := d.source
  table := d.table
  key := d.key
  lsn := p.lsnBySource d.source + 1
  op := if p.truth.isLive g d.source d.table d.key then (if d.delete then .d else .u) else .c
  tsMicros := d.tsMicros

/-- Add a copy that is released after a delay. -/
def hold (i : Nat) (r : Sent) (held : List (Nat × Sent)) : Option Nat → List (Nat × Sent)
  | none => held
  | some delay => held ++ [(i + 1 + delay,r)]

/-- The head of the queue is sent while it is due. -/
def isDue (i : Nat) (h : Nat × Sent) : Bool := h.1 ≤ i

/-- One round of the loop. -/
def Producer.next (g : Setting) (p : Producer) (d : Draw) : Producer :=
  let r := p.record g d
  let held := hold p.i r (hold p.i r p.held d.reorder) d.duplicate
  { i := p.i + 1
    lsnBySource := fun s => if s = d.source then r.lsn else p.lsnBySource s
    truth := p.truth.record g d.source d.table d.key r.lsn (r.op = .d)
    held := held.dropWhile (isDue p.i)
    sent := p.sent ++ (if d.reorder.isNone then [r] else []) ++ (held.takeWhile (isDue p.i)).map Prod.snd }

/-- The loop, and the queue sent at its end. -/
def Producer.run (g : Setting) (draws : List Draw) : Producer :=
  let p := draws.foldl (Producer.next g) (.start g)
  { p with held := [], sent := p.sent ++ p.held.map Prod.snd }

/-- The draws are in the ranges that the generator draws from. -/
def Draw.InRange (g : Setting) (d : Draw) : Prop := d.table < g.tables.length ∧ d.source < g.sources ∧ d.key < g.keys

/-- The record is of the key. -/
def Sent.At (r : Sent) (source table key : Nat) : Prop := r.source = source ∧ r.table = table ∧ r.key = key

instance (r : Sent) (source table key : Nat) : Decidable (r.At source table key) := inferInstanceAs (Decidable (_ ∧ _ ∧ _))

/-- The newest of the records of a key. -/
def Latest (records : List Sent) (source table key : Nat) (r : Sent) : Prop :=
  r ∈ records ∧ r.At source table key ∧ ∀ r' ∈ records, r'.At source table key → r'.lsn ≤ r.lsn

/-- The ground truth holds the newest record of every key. -/
structure Tells (g : Setting) (records : List Sent) (truth : GroundTruth) : Prop where
  none_sent : ∀ s t k, t < g.tables.length → (∀ r ∈ records, ¬r.At s t k) → truth.maxLsn (GroundTruth.slot g s t) k = 0
  latest : ∀ s t k r, t < g.tables.length → Latest records s t k r →
    truth.maxLsn (GroundTruth.slot g s t) k = r.lsn ∧ truth.deleted (GroundTruth.slot g s t) k = decide (r.op = .d)

/-- The records of a load test: in range, newer than the base, and told apart by source and lsn. -/
structure Produced (g : Setting) (records : List Sent) (lsnBySource : Nat → Int) : Prop where
  inRange : ∀ r ∈ records, r.table < g.tables.length ∧ r.source < g.sources ∧ r.key < g.keys
  newer : ∀ r ∈ records, g.baseLsn < r.lsn ∧ r.lsn ≤ lsnBySource r.source
  apart : ∀ r ∈ records, ∀ r' ∈ records, r.source = r'.source → r.lsn = r'.lsn → r = r'
  counted : ∀ s, g.baseLsn ≤ lsnBySource s

section Producer
variable {g : Setting} {p : Producer} {d : Draw} {records records' : List Sent} {truth : GroundTruth} {lsns : Nat → Int}

theorem Produced.subset (produced : Produced g records lsns) (among : records' ⊆ records) : Produced g records' lsns :=
  ⟨fun r member => produced.inRange r (among member),fun r member => produced.newer r (among member),
    fun r member r' member' => produced.apart r (among member) r' (among member'),produced.counted⟩

/-- All that the loop has made. -/
def Producer.made (p : Producer) : List Sent := p.sent ++ p.held.map Prod.snd

private theorem slot_injective {s t s' t' : Nat} (inside : t < g.tables.length) (inside' : t' < g.tables.length)
    (same : GroundTruth.slot g s t = GroundTruth.slot g s' t') : s = s' ∧ t = t' := by
  have some_table : 0 < g.tables.length := by omega
  have source (s t : Nat) (inside : t < g.tables.length) : GroundTruth.slot g s t / g.tables.length = s := by
    rw [GroundTruth.slot,Nat.add_comm,Nat.add_mul_div_right _ _ some_table,Nat.div_eq_of_lt inside,Nat.zero_add]
  have table (s t : Nat) (inside : t < g.tables.length) : GroundTruth.slot g s t % g.tables.length = t := by
    rw [GroundTruth.slot,Nat.add_comm,Nat.add_mul_mod_self_right,Nat.mod_eq_of_lt inside]
  exact ⟨by rw [← source s t inside,same,source s' t' inside'],by rw [← table s t inside,same,table s' t' inside']⟩

private theorem mem_hold {i : Nat} {r r' : Sent} {held : List (Nat × Sent)} {delay : Option Nat} :
    r' ∈ (hold i r held delay).map Prod.snd ↔ r' ∈ held.map Prod.snd ∨ delay.isSome ∧ r' = r := by
  cases delay <;> simp [hold]

/-- A round makes the record of its event, and loses none. -/
theorem mem_made {r : Sent} : r ∈ (p.next g d).made ↔ r ∈ p.made ∨ r = p.record g d := by
  let held := hold p.i (p.record g d) (hold p.i (p.record g d) p.held d.reorder) d.duplicate
  have queued : r ∈ held.map Prod.snd ↔
      r ∈ (held.takeWhile (isDue p.i)).map Prod.snd ∨ r ∈ (held.dropWhile (isDue p.i)).map Prod.snd := by
    rw [← List.mem_append,← List.map_append,List.takeWhile_append_dropWhile]
  have copies : r ∈ held.map Prod.snd ↔
      (r ∈ p.held.map Prod.snd ∨ d.reorder.isSome ∧ r = p.record g d) ∨ d.duplicate.isSome ∧ r = p.record g d := by
    rw [mem_hold,mem_hold]
  have direct : r ∈ (if d.reorder.isNone then [p.record g d] else []) ↔ d.reorder.isNone ∧ r = p.record g d := by
    cases d.reorder <;> simp
  have made : r ∈ (p.next g d).made ↔ (r ∈ p.sent ∨ r ∈ (if d.reorder.isNone then [p.record g d] else [])) ∨
      r ∈ held.map Prod.snd := by
    rw [queued,← or_assoc]
    simp only [Producer.made,Producer.next,List.mem_append,held]
  have either : d.reorder.isNone ∨ d.reorder.isSome := by cases d.reorder <;> simp
  rw [made,direct,copies,Producer.made,List.mem_append]
  constructor
  · rintro ((sent | ⟨_,same⟩) | ((held | ⟨_,same⟩) | ⟨_,same⟩))
    · exact .inl (.inl sent)
    · exact .inr same
    · exact .inl (.inr held)
    · exact .inr same
    · exact .inr same
  · rintro ((sent | held) | same)
    · exact .inl (.inl sent)
    · exact .inr (.inl (.inl held))
    · exact either.elim (fun now => .inl (.inr ⟨now,same⟩)) (fun later => .inr (.inl (.inr ⟨later,same⟩)))

/-- A round numbers its event after all of the source. -/
theorem produced_next (produced : Produced g p.made p.lsnBySource) (ranged : d.InRange g) :
    Produced g (p.next g d).made (p.next g d).lsnBySource where
  inRange r member := by
    rcases mem_made.mp member with old | rfl
    · exact produced.inRange r old
    · exact ranged
  newer r member := by
    rcases mem_made.mp member with old | rfl
    · obtain ⟨newer,le⟩ := produced.newer r old
      refine ⟨newer,?_⟩
      simp only [Producer.next]
      split
      · next own =>
        rw [own] at le
        exact le.trans (Int.le_of_lt (Int.lt_succ _))
      · exact le
    · have counted := produced.counted d.source
      exact ⟨Int.lt_add_one_iff.mpr counted,by simp [Producer.next,Producer.record]⟩
  apart r member r' member' source lsn := by
    have later {old : Sent} (there : old ∈ p.made) (own : old.source = d.source) : old.lsn ≠ (p.record g d).lsn := by
      have le := (produced.newer old there).2
      rw [own] at le
      exact (Int.lt_add_one_iff.mpr le).ne
    rcases mem_made.mp member with old | rfl
    · rcases mem_made.mp member' with old' | rfl
      · exact produced.apart r old r' old' source lsn
      · exact absurd lsn (later old source)
    · rcases mem_made.mp member' with old' | rfl
      · exact absurd lsn.symm (later old' source.symm)
      · rfl
  counted s := by
    simp only [Producer.next]
    split
    · exact (produced.counted d.source).trans (Int.le_of_lt (Int.lt_succ _))
    · exact produced.counted s

/-- A key with a record has a newest one. -/
theorem latest_exists {s t k : Nat} {r : Sent} (member : r ∈ records) (own : r.At s t k) : ∃ r, Latest records s t k r := by
  classical
  have inside : r ∈ records.toFinset.filter (fun r => r.At s t k) := Finset.mem_filter.mpr ⟨List.mem_toFinset.mpr member,own⟩
  obtain ⟨newest,among,greatest⟩ := Finset.exists_max_image _ Sent.lsn ⟨r,inside⟩
  obtain ⟨there,own'⟩ := Finset.mem_filter.mp among
  refine ⟨newest,List.mem_toFinset.mp there,own',fun r' member' at_key => ?_⟩
  exact greatest r' (Finset.mem_filter.mpr ⟨List.mem_toFinset.mpr member',at_key⟩)

/-- The record of a round is newer than what the ground truth holds. -/
theorem maxLsn_lt (start : 0 ≤ g.baseLsn) (produced : Produced g p.made p.lsnBySource) (tells : Tells g p.made p.truth)
    (ranged : d.InRange g) : p.truth.maxLsn (GroundTruth.slot g d.source d.table) d.key < (p.record g d).lsn := by
  have counted := produced.counted d.source
  by_cases some_record : ∃ r ∈ p.made, r.At d.source d.table d.key
  · obtain ⟨r,member,own⟩ := some_record
    obtain ⟨newest,latest⟩ := latest_exists member own
    rw [(tells.latest _ _ _ newest ranged.1 latest).1]
    have le := (produced.newer newest latest.1).2
    rw [latest.2.1.1] at le
    exact Int.lt_add_one_iff.mpr le
  · push Not at some_record
    rw [tells.none_sent _ _ _ ranged.1 some_record]
    exact Int.lt_add_one_iff.mpr (start.trans counted)

/-- A round notes the record of its event. -/
theorem tells_next (start : 0 ≤ g.baseLsn) (produced : Produced g p.made p.lsnBySource) (tells : Tells g p.made p.truth)
    (ranged : d.InRange g) : Tells g (p.next g d).made (p.next g d).truth := by
  have newer := maxLsn_lt start produced tells ranged
  have truth_eq : (p.next g d).truth = p.truth.record g d.source d.table d.key (p.record g d).lsn ((p.record g d).op = .d) := rfl
  have elsewhere {s t k : Nat} (inside : t < g.tables.length) (other : ¬(p.record g d).At s t k) :
      ¬(GroundTruth.slot g s t = GroundTruth.slot g d.source d.table ∧ k = d.key) := by
    rintro ⟨same,rfl⟩
    obtain ⟨rfl,rfl⟩ := slot_injective inside ranged.1 same
    exact other ⟨rfl,rfl,rfl⟩
  constructor
  · intro s t k inside none_there
    have other : ¬(p.record g d).At s t k := none_there _ (mem_made.mpr (.inr rfl))
    rw [truth_eq,GroundTruth.record,if_pos newer]
    simp only [elsewhere inside other,if_false]
    exact tells.none_sent s t k inside (fun r member => none_there r (mem_made.mpr (.inl member)))
  · intro s t k r inside latest
    rw [truth_eq,GroundTruth.record,if_pos newer]
    rcases mem_made.mp latest.1 with old | rfl
    · have other : ¬(p.record g d).At s t k := by
        intro own
        -- the record of the round would be newer than the newest
        have le := latest.2.2 _ (mem_made.mpr (.inr rfl)) own
        have le' := (produced.newer r old).2
        rw [latest.2.1.1,← own.1] at le'
        exact absurd (le.trans le') (not_le.mpr (Int.lt_succ _))
      simp only [elsewhere inside other,if_false]
      exact tells.latest s t k r inside
        ⟨old,latest.2.1,fun r' member own => latest.2.2 r' (mem_made.mpr (.inl member)) own⟩
    · obtain ⟨rfl,rfl,rfl⟩ := latest.2.1
      simp [Producer.record]

/-- After the loop and the queue: the records are told apart, and the ground truth holds the newest of each key. -/
theorem run_tells (start : 0 ≤ g.baseLsn) (draws : List Draw) (ranged : ∀ d ∈ draws, d.InRange g) :
    ∃ lsns, Produced g (Producer.run g draws).sent lsns ∧ Tells g (Producer.run g draws).sent (Producer.run g draws).truth := by
  have kept : Produced g (draws.foldl (Producer.next g) (.start g)).made (draws.foldl (Producer.next g) (.start g)).lsnBySource ∧
      Tells g (draws.foldl (Producer.next g) (.start g)).made (draws.foldl (Producer.next g) (.start g)).truth := by
    induction draws using List.reverseRecOn with
    | nil =>
      have produced : Produced g [] (fun _ => g.baseLsn) := ⟨by simp,by simp,by simp,fun _ => le_rfl⟩
      exact ⟨produced,⟨fun _ _ _ _ _ => rfl,fun s t k r _ latest => absurd latest.1 (by simp [Producer.made,Producer.start])⟩⟩
    | append_singleton before d ih =>
      obtain ⟨produced,tells⟩ := ih (fun d' inside => ranged d' (List.mem_append_left _ inside))
      have in_range : d.InRange g := ranged d (by simp)
      rw [List.foldl_append]
      exact ⟨produced_next produced in_range,tells_next start produced tells in_range⟩
  exact ⟨_,kept⟩

/-- Without deletes among the draws no record is a delete. -/
theorem upserts_only (draws : List Draw) (kept : ∀ d ∈ draws, d.delete = false) :
    ∀ r ∈ (Producer.run g draws).sent, r.op ≠ .d := by
  have made : ∀ r ∈ (draws.foldl (Producer.next g) (.start g)).made, r.op ≠ .d := by
    induction draws using List.reverseRecOn with
    | nil => simp [Producer.made,Producer.start]
    | append_singleton before d ih =>
      intro r member
      rw [List.foldl_append] at member
      rcases mem_made.mp member with old | rfl
      · exact ih (fun d' inside => kept d' (List.mem_append_left _ inside)) r old
      · simp only [Producer.record,kept d (by simp)]
        split <;> simp
  exact made

/-- What a key adds to the counts. -/
def ofKey (g : Setting) (truth : GroundTruth) (amounts : Bool) (s k : Nat) : Expected := countKey g truth amounts s ⟨0,0,0,0⟩ k

private theorem countKey_eq {amounts : Bool} {s k : Nat} {e : Expected} : countKey g truth amounts s e k =
    ⟨e.live + (ofKey g truth amounts s k).live,e.deleted + (ofKey g truth amounts s k).deleted,
      e.lsnSum + (ofKey g truth amounts s k).lsnSum,e.amountCentsSum + (ofKey g truth amounts s k).amountCentsSum⟩ := by
  by_cases absent : truth.maxLsn s k = 0
  · simp [ofKey,countKey,absent]
  · by_cases dead : truth.deleted s k = true
    · simp [ofKey,countKey,absent,dead]
    · cases amounts <;> simp [ofKey,countKey,absent,dead]

/-- The loop sums what the keys add. -/
theorem count_range (amounts : Bool) (s n : Nat) : (List.range n).foldl (countKey g truth amounts s) ⟨0,0,0,0⟩ =
    ⟨∑ k ∈ Finset.range n, (ofKey g truth amounts s k).live,∑ k ∈ Finset.range n, (ofKey g truth amounts s k).deleted,
      ∑ k ∈ Finset.range n, (ofKey g truth amounts s k).lsnSum,∑ k ∈ Finset.range n, (ofKey g truth amounts s k).amountCentsSum⟩ := by
  induction n with
  | zero => rfl
  | succ n ih => simp only [List.range_succ,List.foldl_append,List.foldl_cons,List.foldl_nil,ih,countKey_eq,Finset.sum_range_succ]

end Producer

end FineractBi.LoadTest
