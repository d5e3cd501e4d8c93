import FineractBi.Lib.Query
import FineractBi.Lib.Rounds
import FineractBi.PageLoop

/-!
A backfill: the paging loop over a table that does not change, with or without a
usable cursor. What a run has read and what it has still to read make up what it
had to read at the start, and with a cursor the stored watermark says what is
still to read; so the loop ends, and it can be resumed.
-/
namespace FineractBi.Backfill
open Rounds FineractBi.Contract FineractBi.PageLoop

/-- The loop and the rows of all its pages so far. -/
structure State extends Loop where
  read : List Position

section
variable (x : PagedTable)

/-- A run from a stored watermark, with lookback 0. -/
def start (stored : Option Watermark) : State := ⟨begin x 0 stored,[]⟩

def next (source : Content) (s : State) : State :=
  ⟨PageLoop.next x source s.toLoop,s.read ++ nextPage x source s.progress⟩

/-- The loop after `n` steps from a stored watermark. -/
def loop (source : Content) (stored : Option Watermark) (n : Nat) : State := (next x source)^[n] (start x stored)

/-- The rows at the places of a list. -/
def rowsAt (source : Content) (places : List Position) : List (Int × SourceRow) :=
  places.filterMap (fun row => (source.get (ofLex row).2).map (fun cols => ((ofLex row).2,cols)))

/-- The pages hold every row of the source, each once. -/
def ReadsOnce (source : Content) (read : List Position) : Prop := (rowsAt source read : Multiset (Int × SourceRow)) = source.rows

/-- The sentinels of the two phases come before the row. -/
def Covered (id : Int) (cols : SourceRow) : Prop :=
  -(2 ^ 63) < id ∧ ∀ cursorValue, cursorOf x cols = some cursorValue → EPOCH ≤ cursorValue

/-- `scope` is what there was to read at the start. With a cursor the stored watermark says what is
    still to read. -/
structure Inv (source : Content) (scope : Position → Prop) (s : State) : Prop where
  distinct : s.read.Nodup
  placed : ∀ row ∈ s.read, row ∈ positions x source
  covers : ∀ row ∈ positions x source, scope row ↔ row ∈ s.read ∨ Left x s.progress row
  apart : ∀ row ∈ s.read, ¬ Left x s.progress row
  underway : Underway x source s.progress
  resumes : x.cursor.isSome → ∀ row ∈ positions x source, AtStart x 0 s.stored row ↔ Left x s.progress row

end

section
variable {x : PagedTable} {source : Content} {row : Position} {scope : Position → Prop} {s : State}

theorem inv_next (inv : Inv x source scope s) : Inv x source scope (next x source s) := by
  have split (row : Position) (inside : row ∈ positions x source) := next_left inv.underway inside
  have fresh : ∀ row ∈ s.read, row ∉ nextPage x source s.progress := by
    intro row was_read on_page
    exact inv.apart row was_read ((split row (inv.placed row was_read)).1.mpr (.inl on_page))
  refine ⟨?_,?_,?_,?_,next_underway inv.underway,fun usable row inside => ?_⟩
  · exact List.Nodup.append inv.distinct (nextPage_nodup _) (fun row was_read on_page => fresh row was_read on_page)
  · intro row inside
    exact (List.mem_append.mp inside).elim (inv.placed row) nextPage_placed
  · intro row inside
    rw [inv.covers row inside,next,List.mem_append,or_assoc]
    exact or_congr_right (split row inside).1
  · intro row was_read left
    rcases List.mem_append.mp was_read with before | on_page
    · exact inv.apart row before ((split row (inv.placed row before)).1.mpr (.inr left))
    · exact (split row (nextPage_placed on_page)).2 on_page left
  · change AtStart x 0 (PageLoop.next x source s.toLoop).stored row ↔ Left x (PageLoop.next x source s.toLoop).progress row
    rcases next_stored usable inv.underway with ⟨empty,same⟩ | ⟨first,nullPhase,stored,placed,left⟩
    · rw [same,inv.resumes usable row inside,(split row inside).1,empty]
      simp
    · rw [stored,left row,AtStart,startOf_zero usable,← placed.phase]

theorem inv_start (stored : Option Watermark) : Inv x source (AtStart x 0 stored) (start x stored) where
  distinct := List.nodup_nil
  placed _ was_read := by cases was_read
  covers row _ := by
    simp only [start,List.not_mem_nil,false_or]
    rfl
  apart _ was_read := by cases was_read
  underway := begin_underway 0 stored
  resumes _ _ _ := Iff.rfl

private theorem inv_loop (x : PagedTable) (source : Content) (stored : Option Watermark) (n : Nat) :
    Inv x source (AtStart x 0 stored) (loop x source stored n) :=
  iterate_kept (fun _ => inv_next) (inv_start stored) n

/-- The steps that a run needs before its next page, and the room it leaves for a page in between. -/
def weight : Progress → Nat
  | .querying _ true => 4
  | .querying _ false => 2
  | .fetched _ true false => 5
  | .fetched _ true true => 3
  | .fetched _ false false => 3
  | .fetched _ false true => 1
  | .idle => 0

def rank (x : PagedTable) (source : Content) (s : State) : Nat :=
  3 * ((positions x source).card - s.read.length) + weight s.progress

private theorem read_le (inv : Inv x source scope s) : s.read.length ≤ (positions x source).card := by
  rw [← List.toFinset_card_of_nodup inv.distinct]
  exact Finset.card_le_card (fun row inside => inv.placed row (List.mem_toFinset.mp inside))

private theorem rank_lowers (positive : 0 < x.pageSize) (inv : Inv x source scope s) (unfinished : s.progress ≠ .idle) :
    rank x source (next x source s) < rank x source s := by
  obtain ⟨⟨stored,progress⟩,read⟩ := s
  have bound := read_le (inv_next inv)
  cases progress with
  | idle => exact absurd rfl unfinished
  | fetched first nullPhase short =>
    cases nullPhase <;> cases short
    all_goals simp [next,PageLoop.next,nextPage,rank,weight]
  | querying first nullPhase =>
    cases at_end : (pageQuery x source first).getLast? with
    | none =>
      have empty : pageQuery x source first = [] := List.getLast?_eq_none_iff.mp at_end
      rw [next,next_empty stored at_end]
      cases nullPhase
      all_goals simp [rank,weight,nextPage,empty,positive]
    | some last =>
      have some_row : 0 < (pageQuery x source first).length := List.length_pos_of_mem (List.mem_of_getLast? at_end)
      have heavy : ∀ w short, weight (.fetched w nullPhase short) ≤ weight (.querying first nullPhase) + 1 := by
        intro w short
        cases nullPhase <;> cases short
        all_goals simp [weight]
      have after := heavy (some (nextWatermark x source nullPhase last)) ((pageQuery x source first).length < x.pageSize)
      rw [next,next_last stored at_end] at bound ⊢
      simp only [rank,nextPage,List.length_append] at bound ⊢
      omega

/-- Every run ends. -/
theorem loop_finishes (positive : 0 < x.pageSize) (source : Content) (stored : Option Watermark) :
    ∃ n, (loop x source stored n).progress = .idle :=
  finishes_within (Inv x source (AtStart x 0 stored)) (fun s => s.progress = .idle) (rank x source)
    (fun _ => inv_next) (fun _ => rank_lowers positive) _ (inv_start stored)

private theorem covered_atStart {stored : Option Watermark} (from_scratch : startOf x 0 stored = none) {id : Int}
    {cols : SourceRow}
    (covered : Covered x id cols) : AtStart x 0 stored (position x id cols) := by
  obtain ⟨above,dated⟩ := covered
  rw [AtStart,from_scratch]
  cases usable : x.cursor with
  | none =>
    refine .inl ?_
    simp only [whereClause,usable]
    exact decide_eq_true above
  | some c =>
    cases cursor : cursorOf x cols with
    | none =>
      refine .inl ?_
      simp only [whereClause,usable,Option.bind_none,position,cursor,lastPk,Option.getD_none,Bool.and_eq_true,
        decide_eq_true_eq]
      exact ⟨rfl,above⟩
    | some cursorValue =>
      refine .inr ⟨by simp [inNullCursorPhase,usable],?_,?_⟩
      · simp only [position,cursor]
        exact WithBot.coe_ne_bot
      · rw [afterNulls,position,cursor]
        rcases (dated cursorValue cursor).lt_or_eq with later | same
        · exact Prod.Lex.toLex_lt_toLex.mpr (.inl (WithBot.coe_lt_coe.mpr later))
        · exact Prod.Lex.toLex_lt_toLex.mpr (.inr ⟨congrArg (fun c : Timestamp => (c : WithBot Timestamp)) same,above⟩)

/-- Places without repetition that are those of the table are its rows. -/
theorem reads_once {read : List Position} (distinct : read.Nodup)
    (exact_places : ∀ row, row ∈ read ↔ row ∈ positions x source) :
    ReadsOnce source read := by
  have places : (read : Multiset Position) = source.rows.map (fun entry => position x entry.1 entry.2) := by
    have injective : Set.InjOn (fun entry : Int × SourceRow => position x entry.1 entry.2) source.rowSet := by
      intro a inside b inside' same
      exact Relation.rows_key_injective a inside b inside' (congrArg (fun p : Position => (ofLex p).2) same)
    have set : source.rowSet.val = source.rows := rfl
    rw [← set,← Finset.image_val_of_injOn injective]
    refine ((Multiset.coe_nodup.mpr distinct).ext (Finset.nodup _)).mpr (fun row => ?_)
    rw [Multiset.mem_coe,exact_places]
    rfl
  rw [ReadsOnce,rowsAt,← Multiset.filterMap_coe,places,Multiset.filterMap_map]
  conv_rhs => rw [← Multiset.filterMap_some source.rows]
  refine Query.filterMap_congr (fun entry inside => ?_)
  have found : source.get entry.1 = some entry.2 := Relation.mem_rows.mp inside
  simp [position,found]

private theorem read_finished (inv : Inv x source scope s) (finished : s.progress = .idle) (inside : row ∈ positions x source) :
    row ∈ s.read ↔ scope row := by
  rw [inv.covers row inside,finished]
  simp [Left]

/-- A run that starts at the beginning and has finished. -/
theorem run_reads_once (covered : ∀ id cols, source.get id = some cols → Covered x id cols) {stored : Option Watermark}
    (from_scratch : startOf x 0 stored = none) {n : Nat} (finished : (loop x source stored n).progress = .idle) :
    ReadsOnce source (loop x source stored n).read := by
  have inv := inv_loop x source stored n
  refine reads_once inv.distinct (fun row => ⟨inv.placed row,fun inside => (read_finished inv finished inside).mpr ?_⟩)
  obtain ⟨cols,there,same⟩ := mem_positions.mp inside
  rw [← same]
  exact covered_atStart from_scratch (covered _ _ there)

/-- A run that starts at the beginning and stops, and a run from the watermark that it left. -/
theorem resumed_reads_once (covered : ∀ id cols, source.get id = some cols → Covered x id cols) (usable : x.cursor.isSome)
    {k n : Nat} (finished : (loop x source (loop x source none k).stored n).progress = .idle) :
    ReadsOnce source ((loop x source none k).read ++ (loop x source (loop x source none k).stored n).read) := by
  have stopped := inv_loop x source none k
  have resumed := inv_loop x source (loop x source none k).stored n
  have rest (row : Position) (inside : row ∈ positions x source) :
      row ∈ (loop x source (loop x source none k).stored n).read ↔ Left x (loop x source none k).progress row := by
    rw [read_finished resumed finished inside]
    exact stopped.resumes usable row inside
  refine reads_once (x := x) (List.Nodup.append stopped.distinct resumed.distinct ?_) (fun row => ?_)
  · exact fun row before after => stopped.apart row before ((rest row (stopped.placed row before)).mp after)
  · rw [List.mem_append]
    refine ⟨fun was_read => was_read.elim (stopped.placed row) (resumed.placed row),fun inside => ?_⟩
    rw [rest row inside,← stopped.covers row inside]
    obtain ⟨cols,there,same⟩ := mem_positions.mp inside
    rw [← same]
    exact covered_atStart (by simp [startOf]) (covered _ _ there)

end

/-- Over a table whose rows come after the sentinels, a run after a reset ends and reads every row
    once. However it stops, a resumed run ends as well: with a cursor the two together read every
    row once, and without one the resumed run does. -/
theorem backfill_reads_once (x : PagedTable) (positive : 0 < x.pageSize) (source : Content)
    (covered : ∀ id cols, source.get id = some cols → Covered x id cols) :
    (∃ n, (loop x source none n).progress = .idle ∧ ReadsOnce source (loop x source none n).read) ∧
    ∀ k, ∃ n, (loop x source (loop x source none k).stored n).progress = .idle ∧
      (x.cursor.isSome →
        ReadsOnce source ((loop x source none k).read ++ (loop x source (loop x source none k).stored n).read)) ∧
      (x.cursor = none → ReadsOnce source (loop x source (loop x source none k).stored n).read) := by
  constructor
  · obtain ⟨n,finished⟩ := loop_finishes positive source none
    exact ⟨n,finished,run_reads_once covered (by simp [startOf]) finished⟩
  · intro k
    obtain ⟨n,finished⟩ := loop_finishes positive source (loop x source none k).stored
    refine ⟨n,finished,fun usable => resumed_reads_once covered usable finished,fun unusable => ?_⟩
    exact run_reads_once covered (by simp [startOf,unusable]) finished

/-- A run that has finished stays as it is. -/
theorem loop_finished_eq {x : PagedTable} {source : Content} {stored : Option Watermark} {n m : Nat}
    (ended : (loop x source stored n).progress = .idle) (ended' : (loop x source stored m).progress = .idle) :
    loop x source stored n = loop x source stored m := by
  have stays (s : State) (finished : s.progress = .idle) (k : Nat) : (next x source)^[k] s = s := by
    refine Function.iterate_fixed ?_ k
    obtain ⟨l,read⟩ := s
    have held : l.progress = .idle := finished
    simp [next,PageLoop.next,nextPage,held]
  have later (i j : Nat) (finished : (loop x source stored i).progress = .idle) :
      loop x source stored (j + i) = loop x source stored i := by
    rw [loop,Function.iterate_add_apply]
    exact stays _ finished j
  rcases Nat.le_total n m with before | after
  · rw [← later n (m - n) ended,Nat.sub_add_cancel before]
  · rw [← later m (n - m) ended',Nat.sub_add_cancel after]

def byModification : PagedTable := ⟨some "last_modified_on_utc",2,id,fun _ _ _ => rfl⟩
def byKey : PagedTable := ⟨none,2,id,fun _ _ _ => rfl⟩

/-- Rows by their modification times. -/
def modifiedAt (ids : Finset Int) (micros : Int → Option Timestamp) : Content :=
  Relation.tabulate ids (fun id => some (fun c => if c = "last_modified_on_utc" then (micros id).map .timestamptz else none))

private theorem modifiedAt_covered {ids : Finset Int} {micros : Int → Option Timestamp} (above : ∀ id ∈ ids, -(2 ^ 63) < id)
    (dated : ∀ id ∈ ids, ∀ c ∈ micros id, EPOCH ≤ c) {id : Int} {cols : SourceRow}
    (there : (modifiedAt ids micros).get id = some cols) : Covered byModification id cols := by
  simp only [modifiedAt,Relation.tabulate_get] at there
  split at there
  · next inside =>
    obtain rfl := Option.some.inj there
    refine ⟨above id inside,fun cursorValue cursor => dated id inside cursorValue ?_⟩
    cases held : micros id with
    | none => simp [cursorOf,byModification,asTimestamp,held] at cursor
    | some c => simpa [cursorOf,byModification,asTimestamp,held] using cursor
  · cases there

/-- Three rows without a time, one of the epoch and three of one later time. -/
def mixed : Content := modifiedAt {1,2,3,4,5,6,7} (fun id => if id ≤ 3 then none else if id = 4 then some EPOCH else some 5)

def place (cursorValue : Option Timestamp) (id : Int) : Position := toLex ((cursorValue : WithBot Timestamp),id)

/-- The first page of the second phase ends within the rows of one time. -/
theorem mixed_stopped : (loop byModification mixed none 5).stored = some ⟨some 5,some 5⟩ := by
  have nulls : pageQuery byModification mixed none = [place none 1,place none 2] :=
    Paging.page_eq (l := [place none 1,place none 2,place none 3]) (by decide) (by decide +kernel)
  have last_null : pageQuery byModification mixed (some ⟨none,some 2⟩) = [place none 3] :=
    Paging.page_eq (l := [place none 3]) (by decide) (by decide +kernel)
  have dated : pageQuery byModification mixed (some ⟨some EPOCH,none⟩) = [place (some EPOCH) 4,place (some 5) 5] :=
    Paging.page_eq (l := [place (some EPOCH) 4,place (some 5) 5,place (some 5) 6,place (some 5) 7]) (by decide) (by decide +kernel)
  have after_nulls (id : Int) : nextWatermark byModification mixed true (place none id) = ⟨none,some id⟩ := rfl
  have after_dated : nextWatermark byModification mixed false (place (some 5) 5) = ⟨some 5,some 5⟩ := by decide +kernel
  have begun : begin byModification 0 none = ⟨none,.querying none true⟩ := rfl
  have usable : byModification.cursor.isSome = true := rfl
  have size : byModification.pageSize = 2 := rfl
  simp [loop,start,next,PageLoop.next,afterPage,begun,usable,size,nulls,last_null,dated,after_nulls,after_dated]

/-- A run that stops there is resumed after the last row. -/
theorem mixed_read_once :
    (∃ n, (loop byModification mixed none n).progress = .idle ∧ ReadsOnce mixed (loop byModification mixed none n).read) ∧
    (loop byModification mixed none 5).stored = some ⟨some 5,some 5⟩ ∧
    ∃ n, (loop byModification mixed (some ⟨some 5,some 5⟩) n).progress = .idle ∧
      ReadsOnce mixed ((loop byModification mixed none 5).read ++ (loop byModification mixed (some ⟨some 5,some 5⟩) n).read) := by
  obtain ⟨whole,resumed⟩ := backfill_reads_once byModification (by decide) mixed
    (fun id cols there => modifiedAt_covered (by decide) (by decide) there)
  obtain ⟨n,ended,both,_⟩ := resumed 5
  rw [mixed_stopped] at ended both
  exact ⟨whole,mixed_stopped,n,ended,both rfl⟩

/-- One row, with a modification time. -/
def modified (id : Int) (micros : Timestamp) : Content := modifiedAt {id} (fun _ => some micros)

/-- A row from before 1970 and the least key are never read, and without a watermark the resumed run
    reads again what the stopped one has read. -/
theorem left_out_or_twice :
    (¬ ∃ n, (loop byModification (modified 1 (-1)) none n).progress = .idle ∧
      ReadsOnce (modified 1 (-1)) (loop byModification (modified 1 (-1)) none n).read) ∧
    (¬ ∃ n, (loop byKey (modified (-(2 ^ 63)) 0) none n).progress = .idle ∧
      ReadsOnce (modified (-(2 ^ 63)) 0) (loop byKey (modified (-(2 ^ 63)) 0) none n).read) ∧
    ¬ ∃ n, (loop byKey (modified 1 0) (loop byKey (modified 1 0) none 1).stored n).progress = .idle ∧
      ReadsOnce (modified 1 0) ((loop byKey (modified 1 0) none 1).read ++
        (loop byKey (modified 1 0) (loop byKey (modified 1 0) none 1).stored n).read) := by
  refine ⟨?_,?_,?_⟩
  · rintro ⟨n,ended,once⟩
    rw [loop_finished_eq (m := 4) ended (by decide +kernel)] at once
    exact absurd (congrArg Multiset.card once) (by decide +kernel)
  · rintro ⟨n,ended,once⟩
    rw [loop_finished_eq (m := 2) ended (by decide +kernel)] at once
    exact absurd (congrArg Multiset.card once) (by decide +kernel)
  · rintro ⟨n,ended,once⟩
    rw [loop_finished_eq (m := 2) ended (by decide +kernel)] at once
    exact absurd (congrArg Multiset.card once) (by decide +kernel)

end FineractBi.Backfill
