import Mathlib.Data.Int.ConditionallyCompleteOrder
import Mathlib.Data.Finset.Image
import Mathlib.Data.Prod.Lex
import Mathlib.Order.WithBot
import Mathlib.Order.ConditionallyCompleteLattice.Basic
import FineractBi.Lib.Paging
import FineractBi.Lib.Relation
import FineractBi.Contract

/-!
The paging loop of the Python extractor: a page query after the watermark, the
watermark of its last row, the switch from the rows without a cursor to those
with one. In one order, with NULL first, a page reads the first of what there is
to read and leaves the rest.
-/
namespace FineractBi.PageLoop
open Paging FineractBi.Contract

/-- The columns of a source row. -/
abbrev SourceRow := Column → Option Value

/-- The content of the compat view, by primary key. -/
abbrev Content := Relation Int SourceRow

/-- A timestamp in microseconds. -/
abbrev Timestamp := Int

structure Watermark where
  cursorValue : Option Timestamp
  lastPk : Option Int
  deriving DecidableEq, Repr

/-- `_EPOCH`. -/
def EPOCH : Timestamp := 0

/-- The order of the two phases: NULL cursors first, then (cursor, key). -/
abbrev Position := WithBot Timestamp ×ₗ Int

/-- A table as the loop pages it: the cursor column, when `cursor_is_usable`, the page size and the
    select list, which shows the cursor. -/
structure PagedTable where
  cursor : Option Column
  pageSize : Nat
  select : SourceRow → SourceRow
  shown : ∀ c ∈ cursor, ∀ cols, select cols c = cols c

def asTimestamp : Option Value → Option Timestamp
  | some (.timestamptz micros) => some micros
  | _ => none

/-- The key to go on from. -/
def lastPk (start : Option Watermark) : Int := (start.bind (·.lastPk)).getD (-(2 ^ 63))

def startPosition (start : Option Watermark) : Position :=
  toLex ((start.bind (·.cursorValue) : WithBot Timestamp),lastPk start)

/-- Where the second phase of a first run starts. -/
def afterNulls : Position := toLex ((EPOCH : WithBot Timestamp),-(2 ^ 63))

/-- A run before its next query, after the commit of a page, or none under way. -/
inductive Progress
  | idle
  | querying (start : Option Watermark) (nullPhase : Bool)
  | fetched (start : Option Watermark) (nullPhase short : Bool)
  deriving DecidableEq

/-- The committed watermark, and how far a run is. -/
structure Loop where
  stored : Option Watermark
  progress : Progress
  deriving DecidableEq

section
variable (x : PagedTable)

def cursorOf (cols : SourceRow) : Option Timestamp := x.cursor.bind (fun c => asTimestamp (cols c))

/-- The place of a row; without a usable cursor the rows are ordered by their keys. -/
def position (id : Int) (cols : SourceRow) : Position := toLex ((cursorOf x cols : WithBot Timestamp),id)

def positions (source : Content) : Finset Position := source.rowSet.image (fun entry => position x entry.1 entry.2)

def inNullCursorPhase (start : Option Watermark) : Bool := x.cursor.isSome && (start.bind (·.cursorValue)).isNone

/-- The WHERE clause of `build_page_query`. -/
def whereClause (start : Option Watermark) (row : Position) : Bool :=
  match x.cursor, start.bind (·.cursorValue) with
  | none, _ => lastPk start < (ofLex row).2
  | some _, none => (ofLex row).1 = ⊥ && lastPk start < (ofLex row).2
  | some _, some cursorValue => toLex ((cursorValue : WithBot Timestamp),lastPk start) < row

/-- The rows of a page, by their places in the order. -/
def pageQuery (source : Content) (start : Option Watermark) : List Position :=
  page (positions x source) (whereClause x start) x.pageSize

/-- The watermark after a page that ends with `last`. -/
def nextWatermark (source : Content) (nullPhase : Bool) (last : Position) : Watermark where
  cursorValue := if nullPhase ∨ x.cursor = none then none else (source.get (ofLex last).2).bind (fun cols => cursorOf x (x.select cols))
  lastPk := some (ofLex last).2

/-- Where `_extract` starts. -/
def startOf (lookbackSeconds : Int) (stored : Option Watermark) : Option Watermark :=
  if x.cursor = none then none
  else match stored.bind (·.cursorValue) with
    | some cursorValue =>
      if lookbackSeconds > 0 then some ⟨some (cursorValue - lookbackSeconds * 1000000),none⟩ else stored
    | none => stored

def begin (lookbackSeconds : Int) (stored : Option Watermark) : Loop :=
  ⟨stored,.querying (startOf x lookbackSeconds stored) (inNullCursorPhase x (startOf x lookbackSeconds stored))⟩

/-- A page is fetched, written and committed. -/
def afterPage (source : Content) (stored start : Option Watermark) (nullPhase : Bool) : Loop :=
  let rows := pageQuery x source start
  match rows.getLast? with
  | none => ⟨stored,.fetched start nullPhase (rows.length < x.pageSize)⟩
  | some last =>
    let next := some (nextWatermark x source nullPhase last)
    ⟨if x.cursor.isSome then next else stored,.fetched next nullPhase (rows.length < x.pageSize)⟩

/-- What the loop does next; it may stop after any of these. -/
def next (source : Content) (l : Loop) : Loop :=
  match l.progress with
  | .querying start nullPhase => afterPage x source l.stored start nullPhase
  | .fetched start nullPhase false => { l with progress := .querying start nullPhase }
  | .fetched _ true true => ⟨some ⟨some EPOCH,none⟩,.querying (some ⟨some EPOCH,none⟩) false⟩
  | .fetched _ false true => { l with progress := .idle }
  | .idle => l

/-- The page that the next step fetches. -/
def nextPage (source : Content) : Progress → List Position
  | .querying start _ => pageQuery x source start
  | _ => []

/-- A run in this phase comes by the row. -/
def ToCome (start : Option Watermark) (nullPhase : Bool) (row : Position) : Prop :=
  whereClause x start row = true ∨ nullPhase = true ∧ (ofLex row).1 ≠ ⊥ ∧ afterNulls < row

/-- What there is to read from a stored watermark. -/
def AtStart (lookbackSeconds : Int) (stored : Option Watermark) (row : Position) : Prop :=
  ToCome x (startOf x lookbackSeconds stored) (inNullCursorPhase x (startOf x lookbackSeconds stored)) row

/-- What a run has still to read. -/
def Left : Progress → Position → Prop
  | .idle, _ => False
  | .querying start nullPhase, row => ToCome x start nullPhase row
  | .fetched start nullPhase _, row => ToCome x start nullPhase row

/-- The phase goes with the watermark, which holds no cursor where there is none. -/
structure Placed (start : Option Watermark) (nullPhase : Bool) : Prop where
  phase : nullPhase = inNullCursorPhase x start
  plain : x.cursor = none → start.bind (·.cursorValue) = none

/-- What a run knows of its watermark; a short page was the last of its phase. -/
def Underway (source : Content) : Progress → Prop
  | .idle => True
  | .querying start nullPhase => Placed x start nullPhase
  | .fetched start nullPhase short => Placed x start nullPhase ∧
      (short = true → ∀ row ∈ positions x source, whereClause x start row = false)

end

section
variable {x : PagedTable} {source : Content} {start : Option Watermark} {nullPhase : Bool} {row last : Position} {l : Loop}

theorem mem_positions : row ∈ positions x source ↔
    ∃ cols, source.get (ofLex row).2 = some cols ∧ position x (ofLex row).2 cols = row := by
  simp only [positions,Finset.mem_image,Relation.mem_rowSet,Prod.exists]
  constructor
  · rintro ⟨id,cols,there,rfl⟩
    exact ⟨cols,there,rfl⟩
  · rintro ⟨cols,there,same⟩
    exact ⟨_,cols,there,same⟩

/-- A fetched row shows its cursor. -/
theorem select_cursor (x : PagedTable) (cols : SourceRow) : cursorOf x (x.select cols) = cursorOf x cols := by
  cases usable : x.cursor with
  | none => simp [cursorOf,usable]
  | some c => simp [cursorOf,usable,x.shown c usable]

theorem position_mem {id : Int} {cols : SourceRow} (there : source.get id = some cols) :
    position x id cols ∈ positions x source := mem_positions.mpr ⟨cols,there,rfl⟩

/-- Without a cursor every place is at the bottom. -/
theorem placed_bot (unusable : x.cursor = none) (inside : row ∈ positions x source) : (ofLex row).1 = ⊥ := by
  obtain ⟨cols,_,same⟩ := mem_positions.mp inside
  have cursor : cursorOf x cols = none := by simp [cursorOf,unusable]
  rw [← same]
  exact cursor

/-- The clause selects what lies after the watermark; in the first phase, of the rows without a cursor. -/
theorem whereClause_iff (placed : Placed x start nullPhase) (inside : row ∈ positions x source) :
    whereClause x start row = true ↔ startPosition start < row ∧ (nullPhase = true → (ofLex row).1 = ⊥) := by
  have by_key (none_held : start.bind (·.cursorValue) = none) (low : (ofLex row).1 = ⊥) :
      startPosition start < row ↔ lastPk start < (ofLex row).2 := by
    rw [startPosition,none_held]
    exact Prod.Lex.lt_iff.trans ⟨fun after => after.elim (fun less => absurd low less.ne') And.right,
      fun less => .inr ⟨low.symm,less⟩⟩
  rw [placed.phase,inNullCursorPhase,whereClause]
  cases usable : x.cursor with
  | none =>
    have low := placed_bot usable inside
    simp [by_key (placed.plain usable) low]
  | some c =>
    cases held : start.bind (·.cursorValue) with
    | none =>
      simp only [Bool.and_eq_true,decide_eq_true_eq,Option.isSome_some,Option.isNone_none,and_self,forall_true_left]
      constructor
      · rintro ⟨low,less⟩
        exact ⟨(by_key held low).mpr less,low⟩
      · rintro ⟨after,low⟩
        exact ⟨low,(by_key held low).mp after⟩
    | some cursorValue =>
      simp only [startPosition,held,decide_eq_true_eq,Option.isNone_some,Bool.and_false,Bool.false_eq_true,false_implies,
        and_true]
      rfl

/-- The next watermark is at the last row of the page, in the same phase. -/
theorem next_position (placed : Placed x start nullPhase) (inside : last ∈ positions x source)
    (selected : whereClause x start last = true) :
    startPosition (some (nextWatermark x source nullPhase last)) = last ∧
      Placed x (some (nextWatermark x source nullPhase last)) nullPhase := by
  obtain ⟨cols,found,same⟩ := mem_positions.mp inside
  obtain ⟨after,null⟩ := (whereClause_iff placed inside).mp selected
  have cursor : (ofLex last).1 = (cursorOf x cols : WithBot Timestamp) := by rw [← same]; rfl
  have value : (nextWatermark x source nullPhase last).cursorValue =
      if nullPhase = true ∨ x.cursor = none then none else cursorOf x cols := by
    simp only [nextWatermark,found,Option.bind_some,select_cursor]
  have at_last (held : ((nextWatermark x source nullPhase last).cursorValue : WithBot Timestamp) = (ofLex last).1) :
      startPosition (some (nextWatermark x source nullPhase last)) = last := by
    have place : startPosition (some (nextWatermark x source nullPhase last)) =
        toLex (((nextWatermark x source nullPhase last).cursorValue : WithBot Timestamp),(ofLex last).2) := rfl
    calc startPosition (some (nextWatermark x source nullPhase last)) = _ := place
      _ = toLex ((ofLex last).1,(ofLex last).2) := congrArg (fun c : WithBot Timestamp => toLex (c,(ofLex last).2)) held
      _ = last := rfl
  by_cases by_key : nullPhase = true ∨ x.cursor = none
  · rw [if_pos by_key] at value
    have low : (ofLex last).1 = ⊥ := by_key.elim null (fun unusable => placed_bot unusable inside)
    refine ⟨at_last (Eq.trans value low.symm),?_,fun _ => value⟩
    rw [inNullCursorPhase,Option.bind_some,value,Option.isNone_none,Bool.and_true]
    rcases by_key with null_phase | unusable
    · have phase := placed.phase
      rw [null_phase,inNullCursorPhase,eq_comm,Bool.and_eq_true] at phase
      rw [null_phase,phase.1]
    · rw [placed.phase,inNullCursorPhase,unusable]
      rfl
  · rw [if_neg by_key] at value
    obtain ⟨dated,usable⟩ := not_or.mp by_key
    refine ⟨at_last (Eq.trans value cursor.symm),?_,fun unusable => absurd unusable usable⟩
    -- past a cursor there are only rows with one
    have present : cursorOf x cols ≠ none := by
      intro absent
      have low : (ofLex last).1 = ⊥ := cursor.trans absent
      rcases Prod.Lex.lt_iff.mp after with less | ⟨equal,_⟩
      · rw [low] at less
        exact not_lt_bot less
      · refine dated ?_
        have none_held : start.bind (·.cursorValue) = none := equal.trans low
        rw [placed.phase,inNullCursorPhase,none_held,Option.isNone_none,Bool.and_true]
        exact Option.isSome_iff_ne_none.mpr usable
    rw [inNullCursorPhase,Option.bind_some,value,Option.isNone_eq_false_iff.mpr (Option.isSome_iff_ne_none.mpr present),
      Bool.and_false]
    exact Bool.eq_false_iff.mpr dated

/-- A page reads what comes first, and leaves the rest to come. -/
theorem toCome_page (placed : Placed x start nullPhase) (at_end : (pageQuery x source start).getLast? = some last)
    (inside : row ∈ positions x source) :
    (ToCome x start nullPhase row ↔
      row ∈ pageQuery x source start ∨ ToCome x (some (nextWatermark x source nullPhase last)) nullPhase row) ∧
    (row ∈ pageQuery x source start → ¬ ToCome x (some (nextWatermark x source nullPhase last)) nullPhase row) := by
  obtain ⟨last_inside,last_selected⟩ := mem_page (List.mem_of_getLast? at_end)
  obtain ⟨at_last,next_placed⟩ := next_position placed last_inside last_selected
  have clause := whereClause_iff placed inside
  have clause' := whereClause_iff next_placed inside
  rw [at_last] at clause'
  have first_last := ((whereClause_iff placed last_inside).mp last_selected).1
  refine ⟨⟨?_,?_⟩,?_⟩
  · rintro (selected | later)
    · rcases page_last at_end inside selected with on_page | after
      · exact .inl on_page
      · exact .inr (.inl (clause'.mpr ⟨after,(clause.mp selected).2⟩))
    · exact .inr (.inr later)
  · rintro (on_page | selected | later)
    · exact .inl (mem_page on_page).2
    · obtain ⟨after,null⟩ := clause'.mp selected
      exact .inl (clause.mpr ⟨first_last.trans after,null⟩)
    · exact .inr later
  · rintro on_page (selected | ⟨null_phase,cursor,_⟩)
    · exact absurd (clause'.mp selected).1 (page_le_last at_end on_page).not_gt
    · exact cursor ((clause.mp (mem_page on_page).2).2 null_phase)

/-- After the switch the rows with a cursor are to come. -/
theorem toCome_switched (usable : x.cursor.isSome) :
    ToCome x (some ⟨some EPOCH,none⟩) false row ↔ (ofLex row).1 ≠ ⊥ ∧ afterNulls < row := by
  obtain ⟨c,cursor⟩ := Option.isSome_iff_exists.mp usable
  have clause : whereClause x (some ⟨some EPOCH,none⟩) row = true ↔ afterNulls < row := by
    simp only [whereClause,cursor,Option.bind_some,decide_eq_true_eq]
    rfl
  simp only [ToCome,clause,Bool.false_eq_true,false_and,or_false]
  refine ⟨fun after => ⟨fun low => ?_,after⟩,And.right⟩
  rcases Prod.Lex.lt_iff.mp after with less | ⟨equal,_⟩
  · rw [low] at less
    exact not_lt_bot less
  · rw [low] at equal
    exact WithBot.coe_ne_bot equal

/-- A short page holds all that the clause selects. -/
theorem pageQuery_short (short : decide ((pageQuery x source start).length < x.pageSize) = true)
    (inside : row ∈ positions x source) (selected : whereClause x start row = true) : row ∈ pageQuery x source start :=
  page_short (of_decide_eq_true short) inside selected

theorem next_empty (stored : Option Watermark) (at_end : (pageQuery x source start).getLast? = none) :
    next x source ⟨stored,.querying start nullPhase⟩ =
      ⟨stored,.fetched start nullPhase ((pageQuery x source start).length < x.pageSize)⟩ := by
  simp [next,afterPage,at_end]

theorem next_last (stored : Option Watermark) (at_end : (pageQuery x source start).getLast? = some last) :
    next x source ⟨stored,.querying start nullPhase⟩ =
      ⟨if x.cursor.isSome then some (nextWatermark x source nullPhase last) else stored,
        .fetched (some (nextWatermark x source nullPhase last)) nullPhase
          ((pageQuery x source start).length < x.pageSize)⟩ := by
  simp [next,afterPage,at_end]

theorem nextPage_placed {progress : Progress} (on_page : row ∈ nextPage x source progress) : row ∈ positions x source := by
  cases progress with
  | querying start nullPhase => exact (mem_page on_page).1
  | _ => cases on_page

theorem nextPage_nodup (progress : Progress) : (nextPage x source progress).Nodup := by
  cases progress with
  | querying start nullPhase => exact page_nodup
  | _ => exact List.nodup_nil

theorem begin_underway (lookbackSeconds : Int) (stored : Option Watermark) :
    Underway x source (begin x lookbackSeconds stored).progress :=
  ⟨rfl,fun unusable => by simp [startOf,unusable]⟩

theorem next_underway (underway : Underway x source l.progress) : Underway x source (next x source l).progress := by
  obtain ⟨stored,progress⟩ := l
  cases progress with
  | idle => trivial
  | querying start nullPhase =>
    have placed : Placed x start nullPhase := underway
    cases at_end : (pageQuery x source start).getLast? with
    | none =>
      have empty : pageQuery x source start = [] := List.getLast?_eq_none_iff.mp at_end
      rw [next_empty stored at_end]
      refine ⟨placed,fun short row inside => ?_⟩
      by_contra selected
      have on_page := pageQuery_short short inside (by simpa using selected)
      rw [empty] at on_page
      cases on_page
    | some last =>
      obtain ⟨last_inside,last_selected⟩ := mem_page (List.mem_of_getLast? at_end)
      have next_placed := (next_position placed last_inside last_selected).2
      rw [next_last stored at_end]
      refine ⟨next_placed,fun short row inside => ?_⟩
      by_contra selected
      have to_come : ToCome x (some (nextWatermark x source nullPhase last)) nullPhase row := .inl (by simpa using selected)
      obtain ⟨same,apart⟩ := toCome_page placed at_end inside
      rcases same.mpr (.inr to_come) with before | ⟨null_phase,cursor,_⟩
      · exact apart (pageQuery_short short inside before) to_come
      · exact cursor (((whereClause_iff next_placed inside).mp (by simpa using selected)).2 null_phase)
  | fetched start nullPhase short =>
    have placed : Placed x start nullPhase := underway.1
    cases short with
    | false => exact placed
    | true =>
      cases nullPhase with
      | false => trivial
      | true =>
        have phase := placed.phase
        rw [inNullCursorPhase,eq_comm,Bool.and_eq_true] at phase
        refine ⟨by simp [inNullCursorPhase],fun unusable => ?_⟩
        simp [unusable] at phase

/-- What a run has still to read is its next page and what it has to read after that. -/
theorem next_left (underway : Underway x source l.progress) (inside : row ∈ positions x source) :
    (Left x l.progress row ↔ row ∈ nextPage x source l.progress ∨ Left x (next x source l).progress row) ∧
    (row ∈ nextPage x source l.progress → ¬ Left x (next x source l).progress row) := by
  obtain ⟨stored,progress⟩ := l
  cases progress with
  | idle => exact ⟨by simp [nextPage,next,Left],fun on_page => by cases on_page⟩
  | querying start nullPhase =>
    have placed : Placed x start nullPhase := underway
    cases at_end : (pageQuery x source start).getLast? with
    | none =>
      have empty : pageQuery x source start = [] := List.getLast?_eq_none_iff.mp at_end
      rw [next_empty stored at_end]
      exact ⟨by simp [nextPage,empty,Left],fun on_page => by simp [nextPage,empty] at on_page⟩
    | some last =>
      rw [next_last stored at_end]
      exact toCome_page placed at_end inside
  | fetched start nullPhase short =>
    obtain ⟨placed,nothing⟩ := underway
    refine ⟨?_,fun on_page => by cases on_page⟩
    have none_fetched : nextPage x source (.fetched start nullPhase short) = [] := rfl
    simp only [none_fetched,List.not_mem_nil,false_or]
    cases short with
    | false => exact Iff.rfl
    | true =>
      cases nullPhase with
      | false => simp [Left,next,ToCome,nothing rfl row inside]
      | true =>
        -- the rows without a cursor are read, those with one are what the new watermark selects
        have phase := placed.phase
        rw [inNullCursorPhase,eq_comm,Bool.and_eq_true] at phase
        simp only [Left,next]
        rw [toCome_switched phase.1,ToCome,nothing rfl row inside]
        simp

theorem startOf_zero (usable : x.cursor.isSome) (stored : Option Watermark) : startOf x 0 stored = stored := by
  have present : x.cursor ≠ none := Option.isSome_iff_ne_none.mp usable
  rw [startOf,if_neg present]
  cases stored.bind (·.cursorValue) <;> rfl

/-- The lookback reads no less. -/
theorem toCome_atStart (lookbackSeconds : Int) (usable : x.cursor.isSome) (placed : Placed x start nullPhase)
    (to_come : ToCome x start nullPhase row) : AtStart x lookbackSeconds start row := by
  have present : x.cursor ≠ none := Option.isSome_iff_ne_none.mp usable
  obtain ⟨c,cursor⟩ := Option.isSome_iff_exists.mp usable
  rw [AtStart,startOf,if_neg present]
  rw [placed.phase] at to_come
  cases held : start.bind (·.cursorValue) with
  | none => exact to_come
  | some cursorValue =>
    simp only
    split
    · next back =>
      have after : startPosition start < row := by
        rcases to_come with selected | ⟨phase,_⟩
        · simp only [whereClause,cursor,held,decide_eq_true_eq] at selected
          rw [startPosition,held]
          exact selected
        · simp [inNullCursorPhase,held] at phase
      refine .inl ?_
      simp only [whereClause,cursor,Option.bind_some,decide_eq_true_eq]
      refine lt_trans (Prod.Lex.toLex_lt_toLex.mpr (.inl ?_)) after
      rw [held]
      exact WithBot.coe_lt_coe.mpr (Int.sub_lt_self cursorValue (Int.mul_pos back (by decide)))
    · exact to_come

/-- The stored watermark changes when the loop goes on from it. -/
theorem next_stored (usable : x.cursor.isSome) (underway : Underway x source l.progress) :
    nextPage x source l.progress = [] ∧ (next x source l).stored = l.stored ∨
    ∃ start nullPhase, (next x source l).stored = start ∧ Placed x start nullPhase ∧
      ∀ row, Left x (next x source l).progress row ↔ ToCome x start nullPhase row := by
  have underway' := next_underway underway
  obtain ⟨stored,progress⟩ := l
  cases progress with
  | idle => exact .inl ⟨rfl,rfl⟩
  | querying start nullPhase =>
    cases at_end : (pageQuery x source start).getLast? with
    | none =>
      rw [next_empty stored at_end]
      exact .inl ⟨List.getLast?_eq_none_iff.mp at_end,rfl⟩
    | some last =>
      rw [next_last stored at_end] at underway' ⊢
      exact .inr ⟨_,nullPhase,if_pos usable,underway'.1,fun row => Iff.rfl⟩
  | fetched start nullPhase short =>
    cases short with
    | false => exact .inl ⟨rfl,rfl⟩
    | true =>
      cases nullPhase with
      | false => exact .inl ⟨rfl,rfl⟩
      | true => exact .inr ⟨_,false,rfl,underway',fun row => Iff.rfl⟩

end

end FineractBi.PageLoop
