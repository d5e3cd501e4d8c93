import FineractBi.PageLoop
import FineractBi.Lib.Runs
import FineractBi.ApplyBatch

/-!
The incremental runs of the Python extractor on a table with a usable cursor. A
run is the paging loop from the stored watermark less the lookback; every page is
written and stores its watermark. What a run has still to read, and what the next
run would read, covers every row that is not current.
-/
namespace FineractBi.Extractor
open Runs FineractBi.Contract FineractBi.ApplyBatch FineractBi.PageLoop
open FineractBi.StateMachine (Engine)

/-- A table of a source as one engine and target extract it. The cursor is neither synthetic nor
    withheld, as in the contract. -/
structure Extraction where
  table : TableContract
  cursor : Column
  synthetic : List Column
  pii : List Column
  excludePii : Bool
  shown : cursor ∉ synthetic ∧ cursor ∉ pii
  sourceId : String
  tenantId : String
  captureGeneration : Int
  epoch : Int
  target : String
  pageSize : Nat
  lookbackSeconds : Int

section
variable (x : Extraction)

def Extraction.withheld : List Column := if x.excludePii then x.table.columns.filter (· ∈ x.pii) else []

def Extraction.key (id : Int) : Key := ⟨x.sourceId,x.tenantId,id⟩

/-- The select list. -/
def select (cols : SourceRow) : SourceRow :=
  fun c => if c ∈ x.synthetic ∨ x.excludePii ∧ c ∈ x.pii then none else cols c

private theorem select_shown (c : Column) (usable : c ∈ some x.cursor) (cols : SourceRow) : select x cols c = cols c := by
  obtain rfl := Option.mem_some_iff.mp usable
  simp [select,x.shown]

def Extraction.paged : PagedTable := ⟨some x.cursor,x.pageSize,select x,select_shown x⟩

/-- A row as `_write_page` stages it at `now`. -/
def stagedRow (now : Timestamp) (id : Int) (cols : SourceRow) : StagedRow where
  key := x.key id
  cols := select x cols
  sourceGeneration := x.captureGeneration
  sourceLsn := none
  sourceTs := some ((cursorOf x.paged (select x cols)).getD now)
  op := .u
  unavailable := if x.withheld = [] then none else some x.withheld
  ownerEpoch := x.epoch
  target := x.target

def stage (now : Timestamp) (source : Content) (rows : List Position) : List StagedRow :=
  rows.filterMap (fun row => (source.get (ofLex row).2).map (stagedRow x now (ofLex row).2))

/-- The loop of the run, over a source and into the target. -/
structure State extends Loop where
  source : Content
  table : RawTable

inductive Op
  | change (id : Int) (cols : SourceRow)
  | begin
  | page (now : Timestamp)
  | again
  | switch
  | complete
  | crash

/-- The target after the next page. -/
def written (s : State) (now : Timestamp) : RawTable :=
  match nextPage x.paged s.source s.progress with
  | [] => s.table
  | rows => writeBatch x.table .PYTHON now (stage x now s.source rows) x.target s.table

/-- The source changes between runs only, since a run sees one content. A run may crash, or be
    fenced off, at any time after the commits that it has made. -/
inductive Step : State → Op → State → Prop
  | change {s : State} {id : Int} {cols : SourceRow} (between : s.progress = .idle) :
      Step s (.change id cols) { s with source := s.source.alter {id} (fun _ _ => some cols) }
  | begin {s : State} (between : s.progress = .idle) : Step s .begin { s with
      toLoop := PageLoop.begin x.paged x.lookbackSeconds s.stored }
  | page {s : State} {now : Timestamp} {start : Option Watermark} {nullPhase : Bool}
      (running : s.progress = .querying start nullPhase) : Step s (.page now) { s with
      toLoop := next x.paged s.source s.toLoop
      table := written x s now }
  | again {s : State} {start : Option Watermark} {nullPhase : Bool}
      (full : s.progress = .fetched start nullPhase false) : Step s .again { s with
      toLoop := next x.paged s.source s.toLoop }
  | switch {s : State} {start : Option Watermark} (short : s.progress = .fetched start true true) :
      Step s .switch { s with toLoop := next x.paged s.source s.toLoop }
  | complete {s : State} {start : Option Watermark} (short : s.progress = .fetched start false true) :
      Step s .complete { s with toLoop := next x.paged s.source s.toLoop }
  | crash {s : State} : Step s .crash { s with progress := .idle }

/-- The current version of a row is in the target, in every column that is not withheld. -/
def Current (table : RawTable) (id : Int) (cols : SourceRow) : Prop :=
  ∃ row, table.get (x.key id) = some row ∧ row.isDeleted = false ∧
    ∀ c, c ∉ x.withheld → row.cols c = select x cols c

/-- A change leaves the row with a NULL cursor or later than the stored cursor minus the lookback. -/
def Later (s : State) : Op → Prop
  | .change _ cols => ∀ cursorValue, s.stored.bind (·.cursorValue) = some cursorValue →
      ∀ changed, cursorOf x.paged cols = some changed → cursorValue - x.lookbackSeconds * 1000000 < changed
  | _ => True

/-- A change leaves the row where the next run comes by: no NULL cursor once the rows without a
    cursor are read up to its key, and no cursor before 1970 as long as they are not all read. -/
def Reachable (s : State) : Op → Prop
  | .change id cols =>
    match s.stored.bind (·.cursorValue), cursorOf x.paged cols with
    | none, none => lastPk s.stored < id
    | none, some _ => afterNulls < position x.paged id cols
    | some _, none => False
    | some _, some _ => True
  | _ => True

/-- The rows that are not current are read by the run under way, and by the next one. -/
structure Inv (s : State) : Prop where
  underway : Underway x.paged s.source s.progress
  sweeps : s.progress ≠ .idle → ∀ id cols, s.source.get id = some cols →
    Current x s.table id cols ∨ Left x.paged s.progress (position x.paged id cols)
  resumes : ∀ id cols, s.source.get id = some cols →
    Current x s.table id cols ∨ AtStart x.paged x.lookbackSeconds s.stored (position x.paged id cols)

end

section
variable {x : Extraction}

/-- The staged rows of a key: that of the source row, if it is on the page. -/
theorem staged_key {now : Timestamp} {source : Content} {rows : List Position} {id : Int} {cols : SourceRow}
    (placed : ∀ row ∈ rows, row ∈ positions x.paged source) (distinct : rows.Nodup) (there : source.get id = some cols) :
    stagedFor (stage x now source rows) x.target (x.key id) =
      if position x.paged id cols ∈ rows then [stagedRow x now id cols] else [] := by
  induction rows with
  | nil => rfl
  | cons row rest ih =>
    rw [List.nodup_cons] at distinct
    obtain ⟨cols',found,same⟩ := mem_positions.mp (placed row List.mem_cons_self)
    have others := ih (fun row inside => placed row (List.mem_cons_of_mem _ inside)) distinct.2
    have first : stage x now source (row :: rest) = stagedRow x now (ofLex row).2 cols' :: stage x now source rest := by
      simp [stage,found]
    rw [first,stagedFor,List.filter_cons,← stagedFor,others]
    by_cases own : (ofLex row).2 = id
    · subst own
      obtain rfl : cols' = cols := Option.some.inj (found.symm.trans there)
      rw [same,if_neg distinct.1]
      simp [stagedRow]
    · have foreign : position x.paged id cols ≠ row := fun equal => own (congrArg (fun p => (ofLex p).2) equal.symm)
      simp [stagedRow,Extraction.key,own,foreign]

/-- The table after a page: the rows of the page are current, the other rows as they were. -/
theorem write_current (now : Timestamp) {source : Content} {rows : List Position} {table : RawTable} {id : Int}
    {cols : SourceRow} (placed : ∀ row ∈ rows, row ∈ positions x.paged source) (distinct : rows.Nodup)
    (there : source.get id = some cols) (on_page : position x.paged id cols ∈ rows ∨ Current x table id cols) :
    Current x (writeBatch x.table .PYTHON now (stage x now source rows) x.target table) id cols := by
  unfold Current
  rw [writeBatch_get]
  by_cases inside : position x.paged id cols ∈ rows
  · have single : stagedFor (stage x now source rows) x.target (x.key id) = [stagedRow x now id cols] := by
      rw [staged_key placed distinct there,if_pos inside]
    obtain ⟨d,found,op,carries⟩ := dedup_single (t := x.table) single
    have carried (c : Column) (open' : c ∉ x.withheld) : isAvailable (stagedRow x now id cols) c = true := by
      simp only [isAvailable,stagedRow]
      split <;> simp [open']
    rw [found]
    refine ⟨_,rfl,?_⟩
    have update : d.op = .u := op
    cases table.get (x.key id) with
    | none =>
      refine ⟨by simp [upsert,insertRow,update],fun c open' => ?_⟩
      exact (carries c (carried c open')).1
    | some old =>
      have passes : ApplyBatch.guard .PYTHON d old = true := rfl
      refine ⟨by simp [upsert,passes,setAvailable,insertRow,update],fun c open' => ?_⟩
      have shown := carries c (carried c open')
      simp only [upsert,passes,if_true,setAvailable,update,shown.2]
      simpa [stagedRow] using shown.1
  · have none_staged : dedup x.table (stage x now source rows) x.target (x.key id) = none := by
      rw [dedup_eq_none,staged_key placed distinct there,if_neg inside]
    rw [none_staged]
    exact on_page.resolve_left inside

/-- The table after the next page: its rows are current, the other rows as they were. -/
theorem written_current {s : State} (now : Timestamp) {id : Int} {cols : SourceRow} (there : s.source.get id = some cols)
    (on_page : position x.paged id cols ∈ nextPage x.paged s.source s.progress ∨ Current x s.table id cols) :
    Current x (written x s now) id cols := by
  have placed (row : Position) (inside : row ∈ nextPage x.paged s.source s.progress) := nextPage_placed inside
  have distinct : (nextPage x.paged s.source s.progress).Nodup := nextPage_nodup s.progress
  unfold written
  cases page : nextPage x.paged s.source s.progress with
  | nil =>
    rw [page] at on_page
    exact on_page.resolve_left List.not_mem_nil
  | cons first rows =>
    rw [page] at on_page placed distinct
    exact write_current now placed distinct there on_page

private theorem written_nothing {s : State} {now : Timestamp} (empty : nextPage x.paged s.source s.progress = []) :
    written x s now = s.table := by
  rw [written,empty]

/-- The next run reads the row of a change that it may reach. -/
theorem change_toCome {s : State} {id : Int} {cols : SourceRow} (later : Later x s (.change id cols))
    (reachable : Reachable x s (.change id cols)) :
    AtStart x.paged x.lookbackSeconds s.stored (position x.paged id cols) := by
  have cursor_there : x.paged.cursor = some x.cursor := rfl
  simp only [Later,Reachable] at later reachable
  rw [AtStart,startOf,if_neg (by simp [cursor_there])]
  cases held : s.stored.bind (·.cursorValue) with
  | none =>
    rw [held] at reachable
    cases cursor : cursorOf x.paged cols with
    | none =>
      rw [cursor] at reachable
      refine .inl ?_
      simp only [whereClause,cursor_there,held,Bool.and_eq_true,decide_eq_true_eq]
      exact ⟨cursor,reachable⟩
    | some changed =>
      rw [cursor] at reachable
      refine .inr ⟨by simp [inNullCursorPhase,cursor_there,held],?_,reachable⟩
      have same : (ofLex (position x.paged id cols)).1 = (changed : WithBot Timestamp) := cursor
      rw [same]
      exact WithBot.coe_ne_bot
  | some cursorValue =>
    rw [held] at reachable
    cases cursor : cursorOf x.paged cols with
    | none =>
      rw [cursor] at reachable
      cases reachable
    | some changed =>
      have less := later cursorValue held changed cursor
      have cursor_lt (c : Timestamp) (id' : Int) (lower : c < changed) :
          (toLex ((c : WithBot Timestamp),id') : Position) < position x.paged id cols := by
        refine Prod.Lex.toLex_lt_toLex.mpr (.inl ?_)
        rw [cursor]
        exact WithBot.coe_lt_coe.mpr lower
      refine .inl ?_
      simp only
      split
      · exact decide_eq_true (cursor_lt _ _ less)
      · next none_back =>
        have ahead : ∀ a b c : Int, b ≤ 0 → a - b < c → a < c := by
          intro a b c
          omega
        simp only [whereClause,cursor_there,held,decide_eq_true_eq]
        exact cursor_lt _ _ (ahead _ _ _ (by omega) less)

/-- A step of the loop, with the next page written: what is on the page is current, the rest is left. -/
theorem inv_next {s : State} {now : Timestamp} (inv : Inv x s) : Inv x { s with
    toLoop := next x.paged s.source s.toLoop
    table := written x s now } := by
  by_cases idle : s.progress = .idle
  · have stays : next x.paged s.source s.toLoop = s.toLoop := by simp [next,idle]
    have same : written x s now = s.table := written_nothing (by simp [nextPage,idle])
    rw [stays,same]
    exact inv
  · have left (id : Int) (cols : SourceRow) (there : s.source.get id = some cols) :
        Current x (written x s now) id cols ∨
          Left x.paged (next x.paged s.source s.toLoop).progress (position x.paged id cols) := by
      rcases inv.sweeps idle id cols there with current | to_come
      · exact .inl (written_current now there (.inr current))
      · rcases (next_left inv.underway (position_mem there)).1.mp to_come with on_page | later
        · exact .inl (written_current now there (.inl on_page))
        · exact .inr later
    refine ⟨next_underway inv.underway,fun _ => left,fun id cols there => ?_⟩
    rcases next_stored rfl inv.underway with ⟨empty,same⟩ | ⟨start,nullPhase,stored,placed,rest⟩
    · simp only [same,written_nothing empty]
      exact inv.resumes id cols there
    · refine (left id cols there).imp_right (fun later => ?_)
      simp only [stored]
      exact toCome_atStart x.lookbackSeconds rfl placed ((rest _).mp later)

/-- A change: the next run reads the changed row, and the other rows as before. -/
theorem inv_change {s : State} {id : Int} {cols : SourceRow} (inv : Inv x s) (between : s.progress = .idle)
    (later : Later x s (.change id cols)) (reachable : Reachable x s (.change id cols)) :
    Inv x { s with source := s.source.alter {id} (fun _ _ => some cols) } := by
  refine ⟨by simp [between,Underway],fun running => absurd between running,fun id' cols' there => ?_⟩
  by_cases own : id' = id
  · subst own
    obtain rfl : cols = cols' := by simpa [Relation.alter_get] using there
    exact .inr (change_toCome later reachable)
  · exact inv.resumes id' cols' (by simpa [Relation.alter_get,own] using there)

/-- A step of the loop that fetches no page. -/
theorem inv_pageless {s : State} (inv : Inv x s) (empty : nextPage x.paged s.source s.progress = []) :
    Inv x { s with toLoop := next x.paged s.source s.toLoop } := by
  have after : Inv x { s with
      toLoop := next x.paged s.source s.toLoop
      table := written x s 0 } := inv_next inv
  rwa [written_nothing empty] at after

/-- What one step of a history keeps. -/
theorem inv_step {s s' : State} {op : Op} (inv : Inv x s) (later : Later x s op) (reachable : Reachable x s op)
    (step : Step x s op s') : Inv x s' := by
  cases step with
  | change between => exact inv_change inv between later reachable
  | begin between => exact ⟨begin_underway _ _,fun _ => inv.resumes,inv.resumes⟩
  | page running => exact inv_next inv
  | again full => exact inv_pageless inv (by simp [nextPage,full])
  | switch short => exact inv_pageless inv (by simp [nextPage,short])
  | complete short => exact inv_pageless inv (by simp [nextPage,short])
  | crash => exact ⟨trivial,fun running => absurd rfl running,inv.resumes⟩

/-- A source without rows and without a watermark. -/
def Fresh (s : State) : Prop := s.source = Relation.empty ∧ s.stored = none ∧ s.progress = .idle

theorem Fresh.inv {s : State} (fresh : Fresh s) : Inv x s := by
  obtain ⟨source,_,idle⟩ := fresh
  refine ⟨by simp [idle,Underway],fun running => absurd idle running,fun id cols there => ?_⟩
  rw [source] at there
  cases there

end

/-- A history of changes and of runs, with the hypothesis on the changes. -/
abbrev History (x : Extraction) := Run (fun s op s' => Later x s op ∧ Step x s op s')

theorem History.step {x : Extraction} {s t u : State} {ops : List Op} {op : Op} (history : History x s ops t)
    (step : Step x t op u) (later : Later x t op) : History x s (ops ++ [op]) u := history.extend ⟨later,step⟩

/-- A history whose changes all leave the row where the next run comes by. -/
abbrev FollowedHistory (x : Extraction) := Run (fun s op s' => Later x s op ∧ Reachable x s op ∧ Step x s op s')

theorem FollowedHistory.step {x : Extraction} {s t u : State} {ops : List Op} {op : Op}
    (history : FollowedHistory x s ops t) (step : Step x t op u) (later : Later x t op) (reachable : Reachable x t op) :
    FollowedHistory x s (ops ++ [op]) u := history.extend ⟨later,reachable,step⟩

/-- The clients of a tenant, read by the defaults of the extractor but with their personal columns (FBI_EXCLUDE_PII=false). -/
def clients : Extraction where
  table := mClientContract
  cursor := "last_modified_on_utc"
  synthetic := []
  pii := ["date_of_birth"]
  excludePii := false
  shown := by decide
  sourceId := "src"
  tenantId := "default"
  captureGeneration := 1
  epoch := 1
  target := "prod"
  pageSize := 5000
  lookbackSeconds := 600

def aClient : SourceRow := fun c => if c = "id" then some (.int 1) else none

def nothing : State := ⟨⟨none,.idle⟩,Relation.empty,Relation.empty⟩

/-- After a first run over no clients. -/
def caughtUp : State := ⟨⟨some ⟨some EPOCH,none⟩,.idle⟩,Relation.empty,Relation.empty⟩

/-- Then a client is inserted whose modification time is NULL. -/
def inserted : State := { caughtUp with source := Relation.empty.alter {1} (fun _ _ => some aClient) }

/-- A client modified at a time. -/
def clientAt (id : Int) (micros : Timestamp) : SourceRow :=
  fun c => if c = "id" then some (.int id) else if c = "last_modified_on_utc" then some (.timestamptz micros) else none

/-- The client is modified, and there is a second one. -/
def modified : Content := (inserted.source.alter {2} (fun _ _ => some (clientAt 2 5))).alter {1} (fun _ _ => some (clientAt 1 5))

end FineractBi.Extractor
