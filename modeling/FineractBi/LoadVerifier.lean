import FineractBi.Convergence
import FineractBi.EngineParity
import FineractBi.LoadTest
import Mathlib.Algebra.Order.BigOperators.Group.Finset

/-!
The load test against the warehouse. `Verifier` counts the rows of the load sources
and sums their lsns and amounts, and compares with what `GroundTruth` expects. When
every record of the test is delivered, in any order and any batches and any number of
times, nothing differs; and without deletes nothing differs only when the newest
record of every key is delivered.
-/
namespace FineractBi.LoadVerifier
open Calendar Newest Numeral FineractBi.Contract FineractBi.ApplyBatch FineractBi.Convergence FineractBi.LoadTest
open FineractBi.StageEncoding (numericIn toNumeric roundAway Numeric)

/-- SQL `LIKE`: a percent sign matches any text, an underscore any character, and a backslash quotes the next. -/
def like : List Char → List Char → Bool
  | [], text => text.isEmpty
  | '%' :: pattern, text => text.tails.any (fun rest => like pattern rest)
  | '_' :: pattern, _ :: rest => like pattern rest
  | '_' :: _, [] => false
  | '\\' :: c :: pattern, x :: rest => c = x && like pattern rest
  | '\\' :: _ :: _, [] => false
  | ['\\'], _ => false
  | c :: pattern, x :: rest => c = x && like pattern rest
  | _ :: _, [] => false

/-- A text without backslashes matches itself, whatever follows both. -/
theorem like_self {text pattern rest : List Char} (unquoted : '\\' ∉ text) (follows : like pattern rest = true) :
    like (text ++ pattern) (text ++ rest) = true := by
  induction text with
  | nil => exact follows
  | cons c text ih =>
    obtain ⟨other,unquoted⟩ := not_or.mp (List.mem_cons.not.mp unquoted)
    have kept := ih unquoted
    by_cases percent : c = '%'
    · subst percent
      refine List.any_eq_true.mpr ⟨text ++ rest,?_,kept⟩
      exact (List.mem_tails _ _).mpr (List.suffix_cons _ _)
    · by_cases underscore : c = '_'
      · subst underscore
        exact kept
      · have not_backslash : c ≠ '\\' := fun same => other same.symm
        simp [like,not_backslash,kept]

/-- `String.format("%05d", n)`. -/
def padded (n : Nat) : List Char := List.replicate (5 - (Nat.toDigits 10 n).length) '0' ++ Nat.toDigits 10 n

def sourceId (g : Setting) (source : Nat) : String := g.sourcePrefix ++ "-" ++ String.ofList (padded source)

/-- `source_id LIKE 'prefix-%'`. -/
def likeSource (g : Setting) (source : String) : Bool := like (g.sourcePrefix.toList ++ ['-','%']) source.toList

private theorem padded_injective {m n : Nat} (same : padded m = padded n) : m = n := by
  have read (n : Nat) : value (padded n) = n := by
    rw [padded,Decimal.value_zeros]
    exact value_toDigits n
  rw [← read m,same,read n]

private theorem sourceId_injective {g : Setting} {m n : Nat} (same : sourceId g m = sourceId g n) : m = n := by
  refine padded_injective ?_
  have texts := congrArg String.toList same
  simpa [sourceId] using texts

private theorem sourceId_like {g : Setting} (unquoted : '\\' ∉ g.sourcePrefix.toList) (source : Nat) :
    likeSource g (sourceId g source) = true := by
  have text : (sourceId g source).toList = g.sourcePrefix.toList ++ '-' :: padded source := by simp [sourceId]
  rw [likeSource,text]
  refine like_self unquoted ?_
  have nothing_left : [] ∈ (padded source).tails := (List.mem_tails _ _).mpr List.nil_suffix
  have any_text : like ['%'] (padded source) = true := List.any_eq_true.mpr ⟨[],nothing_left,rfl⟩
  simp [like,any_text]

/-- `SyntheticPayloads.money`. -/
def money (cents : Int) : List Char :=
  let frac := Nat.toDigits 10 (cents.natAbs % 100)
  (if cents < 0 then ['-'] else []) ++ Nat.toDigits 10 (cents.natAbs / 100) ++ '.' ::
    (if frac.length = 1 then '0' :: frac else frac) ++ ['0','0','0','0']

def valueOf : Numeric → Option Value
  | .number q => some (.numeric q)
  | .nan => none

/-- The amount as the column holds it. -/
def amountOf (lsn : Int) : Option Value := (numericIn (money (amountCents lsn))).bind valueOf

private theorem amountCents_range (lsn : Int) : 100 ≤ amountCents lsn ∧ amountCents lsn < 10000100 := by
  unfold amountCents
  omega

/-- The cents in two digits. -/
def centDigits (n : Nat) : List Char := if (Nat.toDigits 10 n).length = 1 then '0' :: Nat.toDigits 10 n else Nat.toDigits 10 n

private theorem centDigits_eq : ∀ n < 100, centDigits n = [Nat.digitChar (n / 10),Nat.digitChar (n % 10)] := by decide

/-- An amount that is written is read as its cents. -/
theorem numericIn_money {cents : Int} (positive : 0 ≤ cents) (small : cents < 10000100) :
    numericIn (money cents) = some (.number (cents / 100 : Rat)) := by
  obtain ⟨n,rfl⟩ := Int.eq_ofNat_of_zero_le positive
  have two : centDigits (n % 100) = [Nat.digitChar (n % 100 / 10),Nat.digitChar (n % 100 % 10)] :=
    centDigits_eq _ (Nat.mod_lt _ (by decide))
  have text : money n = Nat.toDigits 10 (n / 100) ++ (pointed (centDigits (n % 100) ++ List.replicate 4 '0') ++ exponentText 0) := by
    have unsigned : ¬(n : Int) < 0 := not_lt.mpr positive
    simp [money,pointed,exponentText,centDigits,unsigned]
  have digits : ∀ c ∈ centDigits (n % 100) ++ List.replicate 4 '0', c.isDigit = true := by
    intro c inside
    rw [two] at inside
    rcases List.mem_append.mp inside with cent | zero
    · rcases List.mem_pair.mp cent with rfl | rfl
      · exact isDigit_digitChar _ (by omega)
      · exact isDigit_digitChar _ (by omega)
    · rw [List.eq_of_mem_replicate zero]
      decide
  have number : value (Nat.toDigits 10 (n / 100) ++ (centDigits (n % 100) ++ List.replicate 4 '0')) = 10 ^ 4 * n := by
    rw [← List.append_assoc,Decimal.value_shifted,two,value,Nat.ofDigitChars_append,Nat.ofDigitChars_ten_toDigits,
      Nat.ofDigitChars_cons_digitChar_of_lt_ten (by omega),Nat.ofDigitChars_cons_digitChar_of_lt_ten (by omega),
      Nat.ofDigitChars_nil]
    omega
  have unsigned := readUnsigned_parts (fun _ inside => toDigits_isDigit inside) digits (toDigits_ne_nil (n / 100)) 0
  have no_sign : splitSign (money n) = (false,money n) := splitSign_digits (fun c head => by
    rw [text,List.head?_append_of_ne_nil _ (toDigits_ne_nil _)] at head
    exact toDigits_isDigit (List.mem_of_mem_head? head))
  have decimal : readDecimal (money n) = some ((n : Rat) / 100) := by
    have length : ((centDigits (n % 100) ++ List.replicate 4 '0').length : Int) = 6 := by simp [two]
    rw [readDecimal,no_sign]
    simp only [text,unsigned,number,length,Option.map_some,Bool.false_eq_true,if_false,Option.some.injEq]
    push_cast
    norm_num
    ring
  have scaled : roundAway ((n : Rat) / 100 * 10 ^ 6) = (n : Int) * 10000 := by
    have whole : (n : Rat) / 100 * 10 ^ 6 = (((n : Int) * 10000 : Int) : Rat) := by
      push_cast
      ring
    rw [whole,EngineParity.roundAway_int]
  have fits : ((n : Int) * 10000).natAbs < 10 ^ 19 := by omega
  rw [numericIn,decimal]
  simp only [toNumeric,scaled,fits,if_true,Option.some.injEq,Numeric.number.injEq]
  push_cast
  ring

/-- The amount of an lsn in the column. -/
theorem amountOf_eq (lsn : Int) : amountOf lsn = some (.numeric (amountCents lsn / 100 : Rat)) := by
  obtain ⟨low,high⟩ := amountCents_range lsn
  have read : numericIn (money (amountCents lsn)) = some (.number (amountCents lsn / 100 : Rat)) :=
    numericIn_money (le_trans (by decide) low) high
  unfold amountOf
  rw [read]
  rfl

/-- The rows that the query selects. -/
def selected (g : Setting) (raw : RawTable) : Finset Key :=
  raw.keys.filter (fun k => likeSource g k.sourceId ∧ ∃ lsn ∈ (raw.get k).bind (·.sourceLsn), g.baseLsn < lsn)

/-- A sum over rows. -/
def total (raw : RawTable) (keys : Finset Key) (f : RawRow → Int) : Int := ∑ k ∈ keys, ((raw.get k).map f).getD 0

def liveLsn (g : Setting) (r : RawRow) : Int := if r.isDeleted then 0 else r.sourceLsn.getD 0 - g.baseLsn

def liveCents (r : RawRow) : Int :=
  if r.isDeleted then 0 else ((asNumeric (r.cols "amount")).map (fun q => roundAway (q * 100))).getD 0

/-- The group of a source in the result of the query, zero where it has none. -/
def query (g : Setting) (amounts : Bool) (raw : RawTable) (source : String) : Expected :=
  let rows := (selected g raw).filter (fun k => k.sourceId = source)
  { live := total raw rows (fun r => if r.isDeleted then 0 else 1)
    deleted := total raw rows (fun r => if r.isDeleted then 1 else 0)
    lsnSum := total raw rows (liveLsn g)
    amountCentsSum := if amounts then total raw rows liveCents else 0 }

/-- The mismatches of a table: the sources whose counts differ, and those that are not expected. -/
def tableMismatches (g : Setting) (summary : List (Nat × Expected)) (amounts : Bool) (raw : RawTable) : Nat :=
  summary.countP (fun e => query g amounts raw (sourceId g e.1) ≠ e.2) +
    ((selected g raw).image (·.sourceId) \ (summary.map (fun e => sourceId g e.1)).toFinset).card

/-- The mismatches over all tables; the test passes when there are none. -/
def mismatches (g : Setting) (truth : GroundTruth) (raw : String → RawTable) : Nat :=
  (g.tables.mapIdx (fun i name => tableMismatches g (truth.summary g i) (name = amountTable) (raw name))).sum

/-! ### The delivery -/

/-- What the registry has of the load sources. -/
structure Registration where
  tenant : String → String
  generation : String → Int

/-- The row of a key of the load test. -/
def keyOf (g : Setting) (reg : Registration) (source key : Nat) : Key :=
  ⟨sourceId g source,reg.tenant (sourceId g source),key + 1⟩

/-- The staged row is that of the record. -/
structure Stages (g : Setting) (reg : Registration) (r : Sent) (row : StagedRow) : Prop where
  key : row.key = keyOf g reg r.source r.key
  target : row.target = "prod"
  generation : row.sourceGeneration = reg.generation (sourceId g r.source)
  lsn : row.sourceLsn = some r.lsn
  op : row.op = if r.op = .d then .d else .u
  complete : r.op ≠ .d → row.unavailable.getD [] = []
  amount : r.op ≠ .d → g.tables[r.table]? = some amountTable → row.cols "amount" = amountOf r.lsn

/-- The calls for a table deliver the records, one or more times each and in any order, and no other row of a load source. -/
structure Delivers (g : Setting) (reg : Registration) (records : List Sent) (name : String) (batches : List Batch) : Prop where
  only : ∀ batch ∈ batches, ∀ row ∈ batch.stage, likeSource g row.key.sourceId →
    ∃ r ∈ records, g.tables[r.table]? = some name ∧ Stages g reg r row
  all : ∀ r ∈ records, g.tables[r.table]? = some name → ∃ batch ∈ batches, ∃ row ∈ batch.stage, Stages g reg r row

/-- The rows of load sources are from before the test. -/
def Before (g : Setting) (reg : Registration) (raw : RawTable) : Prop :=
  ∀ k row, raw.get k = some row → likeSource g k.sourceId →
    row.sourceGeneration ≤ reg.generation k.sourceId ∧ ∀ n ∈ row.sourceLsn, 0 ≤ n ∧ n ≤ g.baseLsn

section Delivery
variable {g : Setting} {reg : Registration} {records : List Sent} {lsns : Nat → Int} {name : String} {i : Nat}
  {t : TableContract} {batches : List Batch} {start final : Stores}

private theorem keyOf_injective {s s' k k' : Nat} (same : keyOf g reg s k = keyOf g reg s' k') : s = s' ∧ k = k' := by
  have source : sourceId g s = sourceId g s' := congrArg Key.sourceId same
  have id : (k : Int) + 1 = k' + 1 := congrArg Key.id same
  exact ⟨sourceId_injective source,by omega⟩

/-- The table of a record, by its name. -/
theorem table_of_name (distinct : g.tables.Nodup) (at_i : g.tables[i]? = some name) {r : Sent}
    (named : g.tables[r.table]? = some name) : r.table = i := by
  obtain ⟨inside,rfl⟩ := List.getElem?_eq_some_iff.mp at_i
  obtain ⟨inside',same⟩ := List.getElem?_eq_some_iff.mp named
  exact (List.Nodup.getElem_inj_iff distinct).mp same

private theorem mem_delivered {batches : List Batch} {k : Key} {row : StagedRow} : row ∈ delivered batches "prod" k ↔
    (∃ batch ∈ batches, row ∈ batch.stage) ∧ row.target = "prod" ∧ row.key = k := by
  simp only [delivered,List.mem_flatMap,stagedFor,List.mem_filter,decide_eq_true_eq]
  constructor
  · rintro ⟨batch,inside,staged,own⟩
    exact ⟨⟨batch,inside,staged⟩,own⟩
  · rintro ⟨⟨batch,inside,staged⟩,own⟩
    exact ⟨batch,inside,staged,own⟩

/-- A stored row as a row of an earlier call. -/
def earlier (k : Key) (row : RawRow) : StagedRow where
  key := k
  cols := row.cols
  sourceGeneration := row.sourceGeneration
  sourceLsn := row.sourceLsn
  sourceTs := row.sourceTs
  op := if row.isDeleted then .d else .u
  unavailable := none
  ownerEpoch := 0
  target := "prod"

private theorem earlier_reflects (stored : Option RawRow) (k : Key) :
    Reflects stored (newest version (stored.map (earlier k)).toList) := by
  cases stored with
  | none => rfl
  | some row => exact ⟨row,rfl,rfl,rfl,by cases deleted : row.isDeleted <;> simp [earlier,deleted],fun _ => rfl⟩

/-- What the calls leave of a key of a load source: nothing newer than the base, or the newest of its records. -/
theorem final_row (positive : 0 ≤ g.baseLsn) (produced : Produced g records lsns) (distinct : g.tables.Nodup)
    (at_i : g.tables[i]? = some name) (delivers : Delivers g reg records name batches) (before : Before g reg start.raw)
    (applied : applyBatches t .KAFKA batches start = .ok final) {k : Key} (own : likeSource g k.sourceId) :
    ((∀ r ∈ records, r.table = i → keyOf g reg r.source r.key ≠ k) ∧ k ∉ selected g final.raw) ∨
    ∃ r row, Latest records r.source i r.key r ∧ keyOf g reg r.source r.key = k ∧ k ∈ selected g final.raw ∧
      final.raw.get k = some row ∧ row.sourceLsn = some r.lsn ∧ row.isDeleted = decide (r.op = .d) ∧
      (r.op ≠ .d → name = amountTable → row.cols "amount" = amountOf r.lsn) := by
  let seen := ((start.raw.get k).map (earlier k)).toList
  have stages (row : StagedRow) (inside : row ∈ delivered batches "prod" k) : ∃ r ∈ records, r.table = i ∧ Stages g reg r row := by
    obtain ⟨⟨batch,there,staged⟩,_,keyed⟩ := mem_delivered.mp inside
    obtain ⟨r,member,named,same⟩ := delivers.only batch there row staged (keyed ▸ own)
    exact ⟨r,member,table_of_name distinct at_i named,same⟩
  have arrives (r : Sent) (member : r ∈ records) (table : r.table = i) (keyed : keyOf g reg r.source r.key = k) :
      ∃ row ∈ delivered batches "prod" k, Stages g reg r row := by
    obtain ⟨batch,there,row,staged,same⟩ := delivers.all r member (table ▸ at_i)
    exact ⟨row,mem_delivered.mpr ⟨⟨batch,there,staged⟩,same.target,same.key.trans keyed⟩,same⟩
  have old (x : StagedRow) (inside : x ∈ seen) : x.sourceGeneration ≤ reg.generation k.sourceId ∧
      ∀ n ∈ x.sourceLsn, 0 ≤ n ∧ n ≤ g.baseLsn := by
    obtain ⟨row,stored,rfl⟩ := Option.map_eq_some_iff.mp (Option.mem_toList.mp inside)
    exact before k row stored own
  have versioned : ∀ row ∈ seen ++ delivered batches "prod" k, Versioned row := by
    intro row inside n lsn
    rcases List.mem_append.mp inside with seen | new
    · exact ((old row seen).2 n lsn).1
    · obtain ⟨r,member,_,same⟩ := stages row new
      obtain rfl := Option.some.inj (same.lsn.symm.trans lsn)
      exact positive.trans (produced.newer r member).1.le
  have complete : ∀ row ∈ delivered batches "prod" k, Complete row := by
    intro row inside upserts
    obtain ⟨r,_,_,same⟩ := stages row inside
    refine same.complete (fun deleted => ?_)
    rw [same.op,if_pos deleted] at upserts
    cases upserts
  have reflects : Reflects (final.raw.get k) (newest version (seen ++ delivered batches "prod" k)) :=
    reflects_applyBatches seen (.inl rfl) versioned complete (earlier_reflects _ k) applied
  rw [newest_append] at reflects
  cases found : newest version (delivered batches "prod" k) with
  | none =>
    refine .inl ⟨fun r member table keyed => ?_,fun inside => ?_⟩
    · obtain ⟨row,there,_⟩ := arrives r member table keyed
      rw [newest_eq_none.mp found] at there
      cases there
    · obtain ⟨_,_,lsn,newer,above⟩ := Finset.mem_filter.mp inside
      obtain ⟨row,stored,has_lsn⟩ := Option.bind_eq_some_iff.mp (Option.mem_def.mp newer)
      rw [found] at reflects
      cases at_seen : newest version seen with
      | none =>
        rw [at_seen] at reflects
        rw [show final.raw.get k = none from reflects] at stored
        cases stored
      | some x =>
        rw [at_seen] at reflects
        obtain ⟨row',stored',_,lsn_eq,_⟩ := reflects
        obtain rfl := Option.some.inj (stored.symm.trans stored')
        have le := ((old x (newest_mem at_seen)).2 lsn (lsn_eq.symm.trans has_lsn)).2
        exact absurd above (not_lt.mpr le)
  | some top =>
    obtain ⟨r,member,table,same⟩ := stages top (newest_mem found)
    have keyed : keyOf g reg r.source r.key = k := same.key.symm.trans (mem_delivered.mp (newest_mem found)).2.2
    have source : sourceId g r.source = k.sourceId := congrArg Key.sourceId keyed
    have newer : ∀ x, newest version seen = some x → version x ≤ version top := by
      intro x at_seen
      obtain ⟨generation,lsn⟩ := old x (newest_mem at_seen)
      simp only [version,Prod.Lex.toLex_le_toLex,same.generation,same.lsn,source]
      refine generation.lt_or_eq.imp id (fun equal => ⟨equal,?_⟩)
      cases at_lsn : x.sourceLsn with
      | none => exact bot_le
      | some n => exact WithBot.coe_le_coe.mpr ((lsn n at_lsn).2.trans (produced.newer r member).1.le)
    have at_top : Reflects (final.raw.get k) (some top) := by
      rw [found] at reflects
      cases at_seen : newest version seen with
      | none => rwa [at_seen] at reflects
      | some x =>
        rw [at_seen] at reflects
        simpa [newer x at_seen] using reflects
    obtain ⟨row,stored,_,lsn,deleted,cols⟩ := at_top
    have op : top.op = .d ↔ r.op = .d := by
      rw [same.op]
      split <;> simp_all
    refine .inr ⟨r,row,⟨member,⟨rfl,table,rfl⟩,fun r' member' at_key => ?_⟩,keyed,?_,stored,lsn.trans same.lsn,?_,?_⟩
    · obtain ⟨row',there,same'⟩ := arrives r' member' at_key.2.1 (by rw [at_key.1,at_key.2.2,keyed])
      have le := newest_ge found there
      simp only [version,Prod.Lex.toLex_le_toLex,same.generation,same.lsn,same'.generation,same'.lsn,at_key.1,lt_irrefl,
        false_or,true_and] at le
      exact WithBot.coe_le_coe.mp le
    · refine Finset.mem_filter.mpr ⟨(Relation.mem_keys _ _).mpr (by simp [stored]),own,r.lsn,?_,(produced.newer r member).1⟩
      simp [stored,lsn,same.lsn]
    · rw [deleted,decide_eq_decide]
      exact op
    · intro upserts amounts
      have upsert : top.op = .u := by rw [same.op,if_neg upserts]
      rw [cols upsert]
      exact same.amount upserts (by rw [table,at_i,amounts])

end Delivery

/-- The newest record of a key. -/
def newestOf (records : List Sent) (source table key : Nat) : Option Sent :=
  newest Sent.lsn (records.filter (fun r => r.source = source ∧ r.table = table ∧ r.key = key))

/-- What the newest record of a key adds to the counts. -/
def added (g : Setting) (amounts : Bool) : Option Sent → Expected
  | none => ⟨0,0,0,0⟩
  | some r => if r.op = .d then ⟨0,1,0,0⟩ else ⟨1,0,r.lsn - g.baseLsn,if amounts then amountCents r.lsn else 0⟩

/-- The sums of what the keys add. -/
def summed (keys : Nat) (adds : Nat → Expected) : Expected :=
  ⟨∑ k ∈ Finset.range keys, (adds k).live,∑ k ∈ Finset.range keys, (adds k).deleted,
    ∑ k ∈ Finset.range keys, (adds k).lsnSum,∑ k ∈ Finset.range keys, (adds k).amountCentsSum⟩

section Counts
variable {g : Setting} {reg : Registration} {records : List Sent} {lsns : Nat → Int} {name : String} {i source key : Nat}
  {truth : GroundTruth} {t : TableContract} {batches : List Batch} {start final : Stores} {r : Sent}

private theorem newestOf_none : newestOf records source i key = none ↔ ∀ r ∈ records, ¬r.At source i key := by
  rw [newestOf,newest_eq_none,List.filter_eq_nil_iff]
  simp [Sent.At]

private theorem newestOf_latest (found : newestOf records source i key = some r) : Latest records source i key r := by
  obtain ⟨member,own⟩ := List.mem_filter.mp (newest_mem found)
  refine ⟨member,of_decide_eq_true own,fun r' member' at_key => ?_⟩
  exact newest_ge found (List.mem_filter.mpr ⟨member',decide_eq_true at_key⟩)

/-- The newest record is the only one with its lsn. -/
theorem latest_newestOf (produced : Produced g records lsns) (latest : Latest records source i key r) :
    newestOf records source i key = some r := by
  cases found : newestOf records source i key with
  | none => exact absurd latest.2.1 (newestOf_none.mp found r latest.1)
  | some r' =>
    have latest' := newestOf_latest found
    have same : r'.lsn = r.lsn := le_antisymm (latest.2.2 r' latest'.1 latest'.2.1) (latest'.2.2 r latest.1 latest.2.1)
    rw [produced.apart r' latest'.1 r latest.1 (latest'.2.1.1.trans latest.2.1.1.symm) same]

/-- The ground truth expects what the newest records add. -/
theorem expected_eq (positive : 0 ≤ g.baseLsn) (produced : Produced g records lsns) (tells : Tells g records truth)
    (inside : i < g.tables.length) : truth.expected g source i =
      summed g.keys (fun k => added g (g.tables[i]? = some amountTable) (newestOf records source i k)) := by
  have of_key (k : Nat) : ofKey g truth (g.tables[i]? = some amountTable) (GroundTruth.slot g source i) k =
      added g (g.tables[i]? = some amountTable) (newestOf records source i k) := by
    cases found : newestOf records source i k with
    | none => simp [ofKey,countKey,added,tells.none_sent _ _ _ inside (newestOf_none.mp found)]
    | some r =>
      have latest := newestOf_latest found
      obtain ⟨lsn,deleted⟩ := tells.latest _ _ _ r inside latest
      have present : r.lsn ≠ 0 := (positive.trans_lt (produced.newer r latest.1).1).ne'
      by_cases dead : r.op = .d
      · simp [ofKey,countKey,added,lsn,deleted,present,dead]
      · simp [ofKey,countKey,added,lsn,deleted,present,dead]
  rw [GroundTruth.expected,count_range,summed]
  simp only [of_key]

/-- The selected rows of a load source are those of its keys with a record. -/
theorem selected_source (positive : 0 ≤ g.baseLsn) (produced : Produced g records lsns) (distinct : g.tables.Nodup)
    (unquoted : '\\' ∉ g.sourcePrefix.toList) (at_i : g.tables[i]? = some name) (delivers : Delivers g reg records name batches)
    (before : Before g reg start.raw) (applied : applyBatches t .KAFKA batches start = .ok final) :
    (selected g final.raw).filter (fun k => k.sourceId = sourceId g source) =
      ((Finset.range g.keys).filter (fun k => (newestOf records source i k).isSome)).image (keyOf g reg source) := by
  have row {k : Key} (own : likeSource g k.sourceId) := final_row positive produced distinct at_i delivers before applied own
  ext k
  rw [Finset.mem_filter,Finset.mem_image]
  constructor
  · rintro ⟨inside,own⟩
    rcases row (own ▸ sourceId_like unquoted source) with ⟨_,outside⟩ | ⟨r,_,latest,rfl,_⟩
    · exact absurd inside outside
    · have same : r.source = source := sourceId_injective own
      subst same
      refine ⟨r.key,Finset.mem_filter.mpr ⟨Finset.mem_range.mpr (produced.inRange r latest.1).2.2,?_⟩,rfl⟩
      rw [latest_newestOf produced latest]
      rfl
  · rintro ⟨key,has_record,rfl⟩
    refine ⟨?_,rfl⟩
    obtain ⟨r,found⟩ := Option.isSome_iff_exists.mp (Finset.mem_filter.mp has_record).2
    obtain ⟨member,⟨rfl,table,rfl⟩,_⟩ := newestOf_latest found
    have own : likeSource g (keyOf g reg r.source r.key).sourceId := sourceId_like unquoted r.source
    rcases row own with ⟨none_there,_⟩ | ⟨_,_,_,_,inside,_⟩
    · exact absurd rfl (none_there r member table)
    · exact inside

/-- The query of a load source sums what the newest delivered records add. -/
theorem query_eq (positive : 0 ≤ g.baseLsn) (produced : Produced g records lsns) (distinct : g.tables.Nodup)
    (unquoted : '\\' ∉ g.sourcePrefix.toList) (at_i : g.tables[i]? = some name) (delivers : Delivers g reg records name batches)
    (before : Before g reg start.raw) (applied : applyBatches t .KAFKA batches start = .ok final) :
    query g (name = amountTable) final.raw (sourceId g source) =
      summed g.keys (fun k => added g (name = amountTable) (newestOf records source i k)) := by
  have rows : (selected g final.raw).filter (fun k => k.sourceId = sourceId g source) = _ :=
    selected_source positive produced distinct unquoted at_i delivers before applied
  -- the row of a key with a record is that of the newest one
  have row (k : Nat) (r : Sent) (found : newestOf records source i k = some r) : ∃ row, final.raw.get (keyOf g reg source k) = some row ∧
      row.sourceLsn = some r.lsn ∧ row.isDeleted = decide (r.op = .d) ∧
      (r.op ≠ .d → name = amountTable → row.cols "amount" = amountOf r.lsn) := by
    obtain ⟨member,⟨rfl,table,rfl⟩,_⟩ := newestOf_latest found
    have own : likeSource g (keyOf g reg r.source r.key).sourceId := sourceId_like unquoted r.source
    rcases final_row positive produced distinct at_i delivers before applied own with ⟨none_there,_⟩ | ⟨r',row,latest,keyed,_,rest⟩
    · exact absurd rfl (none_there r member table)
    · obtain ⟨source,key⟩ := keyOf_injective keyed
      have newest := latest_newestOf produced latest
      rw [source,key,found] at newest
      obtain rfl := Option.some.inj newest
      exact ⟨row,rest⟩
  have sums (f : RawRow → Int) (add : Expected → Int) (nothing : add ⟨0,0,0,0⟩ = 0)
      (same : ∀ k r row, newestOf records source i k = some r → row.sourceLsn = some r.lsn → row.isDeleted = decide (r.op = .d) →
        (r.op ≠ .d → name = amountTable → row.cols "amount" = amountOf r.lsn) → f row = add (added g (name = amountTable) (some r))) :
      total final.raw ((selected g final.raw).filter (fun k => k.sourceId = sourceId g source)) f =
        ∑ k ∈ Finset.range g.keys, add (added g (name = amountTable) (newestOf records source i k)) := by
    rw [total,rows,Finset.sum_image (fun _ _ _ _ equal => (keyOf_injective equal).2),Finset.sum_filter]
    refine Finset.sum_congr rfl (fun k _ => ?_)
    cases found : newestOf records source i k with
    | none => exact nothing.symm
    | some r =>
      obtain ⟨stored,at_key,lsn,deleted,amount⟩ := row k r found
      rw [Option.isSome_some,if_pos rfl,at_key]
      exact same k r stored found lsn deleted amount
  have live := sums (fun r => if r.isDeleted then 0 else 1) Expected.live rfl
    (fun k r row _ _ deleted _ => by by_cases dead : r.op = .d <;> simp [added,deleted,dead])
  have dead := sums (fun r => if r.isDeleted then 1 else 0) Expected.deleted rfl
    (fun k r row _ _ deleted _ => by by_cases dead : r.op = .d <;> simp [added,deleted,dead])
  have lsn := sums (liveLsn g) Expected.lsnSum rfl
    (fun k r row _ lsn deleted _ => by by_cases dead : r.op = .d <;> simp [liveLsn,added,deleted,dead,lsn])
  have cents : (if name = amountTable then
      total final.raw ((selected g final.raw).filter (fun k => k.sourceId = sourceId g source)) liveCents else 0) =
        ∑ k ∈ Finset.range g.keys, (added g (name = amountTable) (newestOf records source i k)).amountCentsSum := by
    split
    · next amounts =>
      refine sums liveCents Expected.amountCentsSum rfl (fun k r row _ _ deleted amount => ?_)
      by_cases dead : r.op = .d
      · simp [liveCents,added,deleted,dead]
      · simp [liveCents,added,deleted,dead,amounts,amount dead amounts,amountOf_eq,asNumeric,EngineParity.roundAway_int]
    · next other =>
      refine (Finset.sum_eq_zero (fun k _ => ?_)).symm
      cases newestOf records source i k with
      | none => rfl
      | some r =>
        simp only [added,other]
        split <;> rfl
  simp only [query,live,dead,lsn,decide_eq_true_eq,cents,summed]

end Counts

/-! ### The verdict -/

/-- A load test: what it was run with, what was delivered of it and where the calls left the tables. -/
structure LoadRun (g : Setting) (reg : Registration) (delivered : List Sent) (batches : String → List Batch)
    (contracts : String → TableContract) (start final : String → Stores) : Prop where
  positive : 0 ≤ g.baseLsn
  unquoted : '\\' ∉ g.sourcePrefix.toList
  distinct : g.tables.Nodup
  delivers : ∀ name ∈ g.tables, Delivers g reg delivered name (batches name)
  before : ∀ name ∈ g.tables, Before g reg (start name).raw
  applied : ∀ name ∈ g.tables, applyBatches (contracts name) .KAFKA (batches name) (start name) = .ok (final name)

section Verdict
variable {g : Setting} {reg : Registration} {records delivered : List Sent} {lsns : Nat → Int} {truth : GroundTruth}
  {batches : String → List Batch} {contracts : String → TableContract} {start final : String → Stores} {name : String} {i source : Nat}

theorem LoadRun.query (test : LoadRun g reg delivered batches contracts start final) (produced : Produced g delivered lsns)
    (at_i : g.tables[i]? = some name) (source : Nat) : query g (name = amountTable) (final name).raw (sourceId g source) =
      summed g.keys (fun k => added g (name = amountTable) (newestOf delivered source i k)) := by
  have listed := List.mem_of_getElem? at_i
  exact query_eq test.positive produced test.distinct test.unquoted at_i (test.delivers name listed) (test.before name listed)
    (test.applied name listed)

/-- A key with a record counts. -/
theorem added_counts (amounts : Bool) (newest : Option Sent) :
    (added g amounts newest).live + (added g amounts newest).deleted = if newest.isSome then 1 else 0 := by
  cases newest with
  | none => rfl
  | some r =>
    by_cases dead : r.op = .d
    · simp [added,dead]
    · simp [added,dead]

/-- A source with a record is in the summary. -/
theorem mem_summary (positive : 0 ≤ g.baseLsn) (produced : Produced g records lsns) (tells : Tells g records truth) {r : Sent}
    (member : r ∈ records) : (r.source,truth.expected g r.source r.table) ∈ truth.summary g r.table := by
  obtain ⟨table,in_sources,key⟩ := produced.inRange r member
  refine List.mem_filter.mpr ⟨List.mem_map.mpr ⟨r.source,List.mem_range.mpr in_sources,rfl⟩,decide_eq_true ?_⟩
  rw [expected_eq positive produced tells table]
  simp only [summed]
  rw [← Finset.sum_add_distrib]
  refine Finset.sum_pos' (fun k _ => ?_) ⟨r.key,Finset.mem_range.mpr key,?_⟩
  · rw [added_counts]
    split <;> decide
  · have some_record : (newestOf records r.source r.table r.key).isSome := by
      by_contra absent
      exact newestOf_none.mp (Option.not_isSome_iff_eq_none.mp absent) r member ⟨rfl,rfl,rfl⟩
    rw [added_counts,if_pos some_record]
    decide

/-- The newest records are the same when they are delivered. -/
theorem newestOf_delivered (produced : Produced g records lsns) (among : delivered ⊆ records)
    (newest : ∀ r, Latest records r.source r.table r.key r → r ∈ delivered) (source i key : Nat) :
    newestOf delivered source i key = newestOf records source i key := by
  cases found : newestOf records source i key with
  | none => exact newestOf_none.mpr (fun r member => newestOf_none.mp found r (among member))
  | some r =>
    obtain ⟨member,⟨rfl,rfl,rfl⟩,greatest⟩ := newestOf_latest found
    have there : r ∈ delivered := newest r ⟨member,⟨rfl,rfl,rfl⟩,greatest⟩
    exact latest_newestOf (produced.subset among) ⟨there,⟨rfl,rfl,rfl⟩,fun r' member' => greatest r' (among member')⟩

/-- Nothing differs in a table when the newest record of every key is delivered. -/
theorem tableMismatches_eq_zero (test : LoadRun g reg delivered batches contracts start final)
    (produced : Produced g records lsns) (tells : Tells g records truth) (among : delivered ⊆ records)
    (newest : ∀ r, Latest records r.source r.table r.key r → r ∈ delivered) (inside : i < g.tables.length) :
    tableMismatches g (truth.summary g i) (g.tables[i] = amountTable) (final g.tables[i]).raw = 0 := by
  have produced' := produced.subset among
  have at_i : g.tables[i]? = some g.tables[i] := List.getElem?_eq_getElem inside
  have listed : g.tables[i] ∈ g.tables := List.getElem_mem inside
  have amounts : decide (g.tables[i]? = some amountTable) = decide (g.tables[i] = amountTable) := by simp [at_i]
  have equal (e : Nat × Expected) (member : e ∈ truth.summary g i) :
      query g (g.tables[i] = amountTable) (final g.tables[i]).raw (sourceId g e.1) = e.2 := by
    obtain ⟨s,_,rfl⟩ := List.mem_map.mp (List.mem_of_mem_filter member)
    rw [test.query produced' at_i,expected_eq test.positive produced tells inside,amounts]
    simp only [newestOf_delivered produced among newest]
  have none_differ : (truth.summary g i).countP
      (fun e => query g (g.tables[i] = amountTable) (final g.tables[i]).raw (sourceId g e.1) ≠ e.2) = 0 :=
    List.countP_eq_zero.mpr (fun e member => by simp [equal e member])
  have none_unexpected : (selected g (final g.tables[i]).raw).image (·.sourceId) ⊆
      ((truth.summary g i).map (fun e => sourceId g e.1)).toFinset := by
    intro id there
    obtain ⟨k,chosen,rfl⟩ := Finset.mem_image.mp there
    have own : likeSource g k.sourceId := (Finset.mem_filter.mp chosen).2.1
    rcases final_row test.positive produced' test.distinct at_i (test.delivers _ listed) (test.before _ listed)
      (test.applied _ listed) own with ⟨_,outside⟩ | ⟨r,_,latest,rfl,_⟩
    · exact absurd chosen outside
    · have listed_source := mem_summary test.positive produced tells (among latest.1)
      rw [latest.2.1.2.1] at listed_source
      exact List.mem_toFinset.mpr (List.mem_map.mpr ⟨_,listed_source,rfl⟩)
  rw [tableMismatches,none_differ,Finset.sdiff_eq_empty_iff_subset.mpr none_unexpected]
  rfl

/-- Whatever the draws, the batches and the order and number of the deliveries, and whatever else is lost, nothing differs
    once the newest record of every key is delivered. -/
theorem load_test_passes (g : Setting) (reg : Registration) (draws : List Draw) (ranged : ∀ d ∈ draws, d.InRange g)
    (delivered : List Sent) (among : delivered ⊆ (Producer.run g draws).sent)
    (newest : ∀ r, Latest (Producer.run g draws).sent r.source r.table r.key r → r ∈ delivered)
    (batches : String → List Batch) (contracts : String → TableContract) (start final : String → Stores)
    (test : LoadRun g reg delivered batches contracts start final) :
    mismatches g (Producer.run g draws).truth (fun name => (final name).raw) = 0 := by
  obtain ⟨lsns,produced,tells⟩ := run_tells test.positive draws ranged
  refine List.sum_eq_zero (fun count counted => ?_)
  obtain ⟨i,inside,rfl⟩ := List.mem_mapIdx.mp counted
  exact tableMismatches_eq_zero test produced tells among newest inside

/-- The verifier passes only when each source of the summary has the counts that are expected. -/
theorem passed_query (raw : String → RawTable) (passed : mismatches g truth raw = 0) (at_i : g.tables[i]? = some name)
    {e : Nat × Expected} (member : e ∈ truth.summary g i) : query g (name = amountTable) (raw name) (sourceId g e.1) = e.2 := by
  obtain ⟨inside,rfl⟩ := List.getElem?_eq_some_iff.mp at_i
  have none_counted := List.sum_eq_zero_iff.mp passed _ (List.mem_mapIdx.mpr ⟨i,inside,rfl⟩)
  have none_differ := List.countP_eq_zero.mp (Nat.add_eq_zero_iff.mp none_counted).1 e member
  simpa using none_differ

/-- A load test without deletes that passes has delivered the newest record of every key: a loss is seen in the counts or
    in the sum of the lsns. -/
theorem load_test_detects_loss (g : Setting) (reg : Registration) (draws : List Draw) (ranged : ∀ d ∈ draws, d.InRange g)
    (kept : ∀ d ∈ draws, d.delete = false) (delivered : List Sent) (among : delivered ⊆ (Producer.run g draws).sent)
    (batches : String → List Batch) (contracts : String → TableContract) (start final : String → Stores)
    (test : LoadRun g reg delivered batches contracts start final)
    (passed : mismatches g (Producer.run g draws).truth (fun name => (final name).raw) = 0) (r : Sent)
    (latest : Latest (Producer.run g draws).sent r.source r.table r.key r) : r ∈ delivered := by
  obtain ⟨lsns,produced,tells⟩ := run_tells test.positive draws ranged
  have upserts := upserts_only draws kept (g := g)
  have produced' := produced.subset among
  obtain ⟨table,_,in_keys⟩ := produced.inRange r latest.1
  have at_i : g.tables[r.table]? = some g.tables[r.table] := List.getElem?_eq_getElem table
  have amounts : decide (g.tables[r.table]? = some amountTable) = decide (g.tables[r.table] = amountTable) := by simp [at_i]
  have equal := passed_query _ passed at_i (mem_summary test.positive produced tells latest.1)
  rw [test.query produced' at_i,expected_eq test.positive produced tells table,amounts] at equal
  generalize decide (g.tables[r.table] = amountTable) = counted at equal
  have adds_live (records : List Sent) (sub : records ⊆ (Producer.run g draws).sent) (k : Nat) :
      (added g counted (newestOf records r.source r.table k)).live =
        if (newestOf records r.source r.table k).isSome then 1 else 0 := by
    cases found : newestOf records r.source r.table k with
    | none => rfl
    | some newest => simp [added,upserts newest (sub (newestOf_latest found).1)]
  have still_some (k : Nat) (there : (newestOf delivered r.source r.table k).isSome) :
      (newestOf (Producer.run g draws).sent r.source r.table k).isSome := by
    obtain ⟨newest,found⟩ := Option.isSome_iff_exists.mp there
    by_contra absent
    obtain ⟨member,own,_⟩ := newestOf_latest found
    exact newestOf_none.mp (Option.not_isSome_iff_eq_none.mp absent) newest (among member) own
  -- as many keys are counted, so every key of the test has a delivered record
  have none_missing (k : Nat) (inside : k ∈ Finset.range g.keys) :
      (newestOf delivered r.source r.table k).isSome = (newestOf (Producer.run g draws).sent r.source r.table k).isSome := by
    have le : ∀ k ∈ Finset.range g.keys, (added g counted (newestOf delivered r.source r.table k)).live ≤
        (added g counted (newestOf (Producer.run g draws).sent r.source r.table k)).live := by
      intro k _
      rw [adds_live _ among,adds_live _ (List.Subset.refl _)]
      by_cases there : (newestOf delivered r.source r.table k).isSome
      · rw [if_pos there,if_pos (still_some k there)]
      · rw [if_neg there]
        split <;> decide
    have same := (Finset.sum_eq_sum_iff_of_le le).mp (congrArg Expected.live equal) k inside
    rw [adds_live _ among,adds_live _ (List.Subset.refl _)] at same
    by_cases there : (newestOf delivered r.source r.table k).isSome
    · rw [there,still_some k there]
    · by_contra differs
      have sent_there : (newestOf (Producer.run g draws).sent r.source r.table k).isSome :=
        Option.isSome_iff_ne_none.mpr (by simpa [there] using differs)
      rw [if_neg there,if_pos sent_there] at same
      cases same
  -- no delivered record is newer than the newest, so the equal sums leave no room for an older one
  have same_lsn : (added g counted (newestOf delivered r.source r.table r.key)).lsnSum =
      (added g counted (newestOf (Producer.run g draws).sent r.source r.table r.key)).lsnSum := by
    have lsn_sums : ∑ k ∈ Finset.range g.keys, (added g counted (newestOf delivered r.source r.table k)).lsnSum =
        ∑ k ∈ Finset.range g.keys, (added g counted (newestOf (Producer.run g draws).sent r.source r.table k)).lsnSum :=
      congrArg Expected.lsnSum equal
    refine (Finset.sum_eq_sum_iff_of_le (fun k inside => ?_)).mp lsn_sums r.key (Finset.mem_range.mpr in_keys)
    have both := none_missing k inside
    cases old : newestOf delivered r.source r.table k with
    | none =>
      rw [old] at both
      rw [Option.isSome_eq_false_iff.mp both.symm |> Option.isNone_iff_eq_none.mp]
    | some x =>
      rw [old] at both
      obtain ⟨newest,found⟩ := Option.isSome_iff_exists.mp both.symm
      obtain ⟨member,own,_⟩ := newestOf_latest old
      have latest' := newestOf_latest found
      have le := latest'.2.2 x (among member) own
      simpa [found,added,upserts x (among member),upserts newest latest'.1] using le
  have newest := latest_newestOf produced latest
  cases old : newestOf delivered r.source r.table r.key with
  | none =>
    have both := none_missing r.key (Finset.mem_range.mpr in_keys)
    rw [old,newest] at both
    cases both
  | some x =>
    obtain ⟨member,own,_⟩ := newestOf_latest old
    have lsn : x.lsn = r.lsn := by
      simpa [old,newest,added,upserts x (among member),upserts r latest.1] using same_lsn
    rwa [← produced.apart x (among member) r latest.1 own.1 lsn]

end Verdict

/-- One source with one transaction. -/
def sampleSetting : Setting := ⟨1,"loadsrc",["m_loan_transaction"],1,1000⟩

def sampleRegistration : Registration := ⟨fun _ => "default",fun _ => 1⟩

/-- The transaction is sent late, then changed and sent twice. -/
def sampleDraws : List Draw := [⟨0,0,0,false,some 5,none,0⟩,⟨0,0,0,false,none,some 3,0⟩]

def created : Sent := ⟨0,0,0,1001,.c,0⟩
def changed : Sent := ⟨0,0,0,1002,.u,0⟩

/-- The staged row of a record. -/
def stagedRow (g : Setting) (reg : Registration) (r : Sent) : StagedRow where
  key := keyOf g reg r.source r.key
  cols := fun c => if c = "amount" then amountOf r.lsn else none
  sourceGeneration := reg.generation (sourceId g r.source)
  sourceLsn := some r.lsn
  sourceTs := some r.tsMicros
  op := if r.op = .d then .d else .u
  unavailable := none
  ownerEpoch := 2
  target := "prod"

private theorem stagedRow_stages (g : Setting) (reg : Registration) (r : Sent) : Stages g reg r (stagedRow g reg r) :=
  ⟨rfl,rfl,rfl,rfl,rfl,fun _ => rfl,fun _ _ => rfl⟩

/-- KAFKA owns the transactions of the load source. -/
def loadOwned : Routing.ControlState where
  registry := [⟨"loadsrc-00000","default",1⟩]
  ownership := [
    { sourceId := "loadsrc-00000", tableName := "m_loan_transaction", engine := .KAFKA, shadowEngine := none,
      cutoverState := .STEADY, epoch := 2 }]
  registryKey := by decide
  ownershipKey := by decide
  registryText := by decide
  ownershipText := by decide

private theorem sample_ranged : ∀ d ∈ sampleDraws, d.InRange sampleSetting := by
  simp [sampleDraws,Draw.InRange,sampleSetting]

private theorem sample_sent : (Producer.run sampleSetting sampleDraws).sent = [changed,created,changed] := by decide

/-- One call with some records of the test. -/
def sampleBatches (records : List Sent) : String → List Batch :=
  fun _ => [⟨0,0,loadOwned,records.map (stagedRow sampleSetting sampleRegistration)⟩]

def emptyStores : String → Stores := fun _ => ⟨.empty,.empty⟩

private theorem applied_owned {stage : List StagedRow} (owned : Routing.fencingCheck loadOwned mLoanTransactionContract.tableName .KAFKA
      (stage.map (fun row => ⟨row.key.sourceId,row.target,row.ownerEpoch⟩)).dedup = .ok ()) :
    ∃ result, applyStagedBatch mLoanTransactionContract .KAFKA 0 0 loadOwned stage ⟨.empty,.empty⟩ = .ok result := by
  cases applied : applyStagedBatch mLoanTransactionContract .KAFKA 0 0 loadOwned stage ⟨.empty,.empty⟩ with
  | error e => simp [applyStagedBatch,owned,bind,Except.bind,pure,Except.pure] at applied
  | ok result => exact ⟨result,rfl⟩

/-- A call that succeeds delivers its records. -/
theorem sample_run {records : List Sent} (first : ∀ r ∈ records, r.table = 0)
    (owned : Routing.fencingCheck loadOwned mLoanTransactionContract.tableName .KAFKA
      ((records.map (stagedRow sampleSetting sampleRegistration)).map
        (fun row => ⟨row.key.sourceId,row.target,row.ownerEpoch⟩)).dedup = .ok ()) :
    ∃ final, LoadRun sampleSetting sampleRegistration records (sampleBatches records) (fun _ => mLoanTransactionContract)
      emptyStores final := by
  obtain ⟨result,applied⟩ := applied_owned owned
  refine ⟨fun _ => result.1,by decide,by decide,by decide,fun name listed => ?_,fun _ _ k row stored => ?_,fun _ _ => ?_⟩
  · obtain rfl := List.mem_singleton.mp listed
    refine ⟨fun batch inside row staged _ => ?_,fun r member _ => ?_⟩
    · obtain rfl := List.mem_singleton.mp inside
      obtain ⟨r,member,rfl⟩ := List.mem_map.mp staged
      exact ⟨r,member,by rw [first r member]; rfl,stagedRow_stages ..⟩
    · exact ⟨_,List.mem_singleton_self _,_,List.mem_map.mpr ⟨r,member,rfl⟩,stagedRow_stages ..⟩
  · cases stored
  · simp [sampleBatches,applyBatches,emptyStores,applied,bind,Except.bind]

private theorem sample_newest : ∀ r, Latest (Producer.run sampleSetting sampleDraws).sent r.source r.table r.key r →
    r = changed := by
  intro r ⟨member,_,greatest⟩
  rw [sample_sent] at member greatest
  have newer := greatest changed (List.mem_cons_self ..)
  rcases List.mem_cons.mp member with rfl | member
  · rfl
  · rcases List.mem_cons.mp member with rfl | member
    · exact absurd (newer (by decide)) (by decide)
    · exact List.mem_singleton.mp member

/-- The record of the insert comes late and the change comes twice. -/
theorem load_test_passes_late : ∃ final : String → Stores,
    LoadRun sampleSetting sampleRegistration [changed,created,changed] (sampleBatches [changed,created,changed])
      (fun _ => mLoanTransactionContract) emptyStores final ∧
    mismatches sampleSetting (Producer.run sampleSetting sampleDraws).truth (fun name => (final name).raw) = 0 := by
  have called : ∃ final, LoadRun sampleSetting sampleRegistration [changed,created,changed] (sampleBatches [changed,created,changed])
      (fun _ => mLoanTransactionContract) emptyStores final := sample_run (by decide) (by decide)
  obtain ⟨final,test⟩ := called
  exact ⟨final,test,load_test_passes _ _ _ sample_ranged _ (by rw [sample_sent]; exact List.Subset.refl _)
    (fun r latest => by rw [sample_newest r latest]; exact List.mem_cons_self ..) _ _ _ _ test⟩

/-- The insert is lost and the verification passes: the newest record of the key is the change, which was delivered. -/
theorem load_test_detects_loss_late : ∃ final : String → Stores,
    LoadRun sampleSetting sampleRegistration [changed] (sampleBatches [changed]) (fun _ => mLoanTransactionContract) emptyStores final ∧
    mismatches sampleSetting (Producer.run sampleSetting sampleDraws).truth (fun name => (final name).raw) = 0 ∧
    ∀ r, Latest (Producer.run sampleSetting sampleDraws).sent r.source r.table r.key r → r ∈ [changed] := by
  have called : ∃ final, LoadRun sampleSetting sampleRegistration [changed] (sampleBatches [changed])
      (fun _ => mLoanTransactionContract) emptyStores final := sample_run (by decide) (by decide)
  obtain ⟨final,test⟩ := called
  have among : [changed] ⊆ (Producer.run sampleSetting sampleDraws).sent := by rw [sample_sent]; decide
  obtain ⟨lsns,produced,tells⟩ := run_tells (g := sampleSetting) (by decide) sampleDraws sample_ranged
  have passed : mismatches sampleSetting (Producer.run sampleSetting sampleDraws).truth (fun name => (final name).raw) = 0 := by
    have first := tableMismatches_eq_zero test produced tells among
      (fun r latest => by rw [sample_newest r latest]; exact List.mem_singleton_self _) (i := 0) (by decide)
    exact (add_zero _).trans first
  exact ⟨final,test,passed,fun r latest =>
    load_test_detects_loss _ _ _ sample_ranged (by decide) _ among _ _ _ _ test passed r latest⟩

end FineractBi.LoadVerifier
