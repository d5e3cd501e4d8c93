import FineractBi.EngineParity
import FineractBi.SinkSafety

/-!
How `DebeziumEnvelopeParser.parse` fails. Of all messages only one kind leaves
it by an exception that is not declared: a date column holds an integer that
lies outside the calendar of `LocalDate`, and every column before it is read.
-/
namespace FineractBi.ParserErrors
open Runs FineractBi.Routing FineractBi.Envelope FineractBi.SinkWorker FineractBi.SinkSafety
open FineractBi.StageEncoding (Java)

variable (platform : Platform)

/-- The days from 1970-01-01 that a `LocalDate` reaches. -/
def InCalendar (day : Int) : Prop := -365243219162 ≤ day ∧ day ≤ 365241780471

instance (day : Int) : Decidable (InCalendar day) := inferInstanceAs (Decidable (_ ∧ _))

/-- A value of a date column that `LocalDate.ofEpochDay` refuses. -/
def BeyondCalendar (type : String) (node : Json) : Prop :=
  type = "date" ∧ ∃ n, node = .int n ∧ ¬ InCalendar (platform.asLong (.int n) 0)

/-- A value that is declared not to fit: a number is expected, and something else is there. -/
def Mismatch (type : String) (node : Json) : Prop :=
  match node with
  | .missing => False
  | .null => False
  | .int _ => False
  | .decimal _ => type ∈ ["bigint","integer","smallint"]
  | .string text => type ∈ ["bigint","integer","smallint"] ∧ platform.parseLong text = none
  | _ => type ∈ ["bigint","integer","smallint"] ∨ "numeric".toList.isPrefixOf type.toList = true

/-- The node that the parser reads for a column: the first candidate that is present. -/
def columnNode (row : Json) (col : ColumnSpec) : Option Json :=
  if col.synthetic then none else ((col.candidates.find? row.has).bind row.get).filter (fun node => !node.isPlaceholder)

def ColumnBeyond (row : Json) (col : ColumnSpec) : Prop :=
  ∃ node, columnNode row col = some node ∧ BeyondCalendar platform col.type node

def ColumnMismatch (row : Json) (col : ColumnSpec) : Prop :=
  ∃ node, columnNode row col = some node ∧ Mismatch platform col.type node

/-- A result, or the exception that the parser declares. -/
def Declared {α : Type} (outcome : Except Thrown α) : Prop :=
  (∃ a, outcome = .ok a) ∨ ∃ reason message, outcome = .error (.poison reason message)

def Crashes {α : Type} (outcome : Except Thrown α) : Prop := ∃ message, outcome = .error (.unchecked message)

private theorem declared_iff {α : Type} (outcome : Except Thrown α) : Declared outcome ↔ ¬ Crashes outcome := by
  cases outcome with
  | ok a => simp [Declared,Crashes]
  | error thrown => cases thrown <;> simp [Declared,Crashes]

@[simp] theorem crashes_ok {α : Type} (a : α) : ¬ Crashes (.ok a) := by
  simp [Crashes]

@[simp] theorem crashes_poison {α : Type} (reason message : String) :
    ¬ Crashes (.error (.poison reason message) : Except Thrown α) := by
  simp [Crashes]

@[simp] theorem crashes_map {α β : Type} (f : α → β) (outcome : Except Thrown α) :
    Crashes (outcome.map f) ↔ Crashes outcome := by
  cases outcome <;> simp [Crashes,Except.map]

private theorem crashes_bind {α β : Type} (outcome : Except Thrown α) (f : α → Except Thrown β) :
    Crashes (outcome >>= f) ↔ Crashes outcome ∨ ∃ a, outcome = .ok a ∧ Crashes (f a) := by
  cases outcome <;> simp [Crashes,bind,Except.bind]

/-- How a value of a column is read: it is, or it is a declared mismatch, or it is beyond the calendar. -/
inductive Reads {α : Type} (mismatch beyond : Prop) (outcome : Except Thrown α) : Prop
  | value (a : α) (read : outcome = .ok a) (fits : ¬ mismatch) (inside : ¬ beyond)
  | poison (reason message : String) (thrown : outcome = .error (.poison reason message)) (fails : mismatch)
      (inside : ¬ beyond)
  | crash (message : String) (thrown : outcome = .error (.unchecked message)) (outside : beyond)

theorem Reads.map {α β : Type} {mismatch beyond : Prop} {outcome : Except Thrown α}
    (reads : Reads mismatch beyond outcome) (f : α → β) : Reads mismatch beyond (outcome.map f) := by
  cases reads with
  | value a read fits inside => exact .value (f a) (by rw [read]; rfl) fits inside
  | poison reason message thrown fails inside => exact .poison reason message (by rw [thrown]; rfl) fails inside
  | crash message thrown outside => exact .crash message (by rw [thrown]; rfl) outside

variable {platform}

private theorem numeric_types {type : String} (numeric : "numeric".toList.isPrefixOf type.toList = true) :
    type ≠ "date" ∧ type ∉ ["bigint","integer","smallint"] := by
  constructor
  · rintro rfl
    exact absurd numeric (by decide)
  · intro integral
    simp only [List.mem_cons,List.not_mem_nil,or_false] at integral
    rcases integral with rfl | rfl | rfl <;> exact absurd numeric (by decide)

private theorem not_beyond {type : String} {node : Json} (other : type ≠ "date") : ¬ BeyondCalendar platform type node :=
  fun beyond => other beyond.1

private theorem not_mismatch {type : String} {node : Json} (integral : type ∉ ["bigint","integer","smallint"])
    (numeric : "numeric".toList.isPrefixOf type.toList = false) : ¬ Mismatch platform type node := by
  cases node <;> simp only [Mismatch,integral,numeric,false_and,or_self,Bool.false_eq_true,not_false_eq_true]

/-- A column of a numeric type, whatever its precision. -/
theorem toPgText_numeric {type : String} (numeric : "numeric".toList.isPrefixOf type.toList = true) (node : Json)
    (cdcUnit : String) : Reads (Mismatch platform type node) (BeyondCalendar platform type node)
      (toPgText platform (some node) type cdcUnit) := by
  obtain ⟨no_date,no_integer⟩ := numeric_types numeric
  have unfolded : toPgText platform (some node) type cdcUnit = match node with
      | .missing => .ok none
      | .null => .ok none
      | .int n => .ok (some (toString n))
      | .decimal text => .ok (some text)
      | .string text => .ok (some text)
      | node => .error (.poison "TYPE_MISMATCH"
          ("Expected numeric (decimal.handling.mode=string) but got " ++ node.nodeType)) := by
    unfold toPgText
    cases node <;> simp only [numeric,if_true,String.reduceEq,or_self,if_false,Json.asText]
  have inside : ¬ BeyondCalendar platform type node := not_beyond no_date
  rw [unfolded]
  cases node with
  | missing => exact .value none rfl (by simp [Mismatch]) inside
  | null => exact .value none rfl (by simp [Mismatch]) inside
  | int n => exact .value _ rfl (by simp [Mismatch]) inside
  | decimal text => exact .value _ rfl no_integer inside
  | string text => exact .value _ rfl (fun fails => no_integer fails.1) inside
  | boolean b => exact .poison _ _ rfl (.inr numeric) inside
  | array items => exact .poison _ _ rfl (.inr numeric) inside
  | object fields => exact .poison _ _ rfl (.inr numeric) inside

/-- A date is the only type whose conversion throws an exception that is not declared. -/
theorem toPgText_date (java : Java platform) (node : Json) (cdcUnit : String) :
    Reads (Mismatch platform "date" node) (BeyondCalendar platform "date" node)
      (toPgText platform (some node) "date" cdcUnit) := by
  have fits : ¬ Mismatch platform "date" node := not_mismatch (by decide) (by decide)
  cases node with
  | int n =>
    have day : toPgText platform (some (.int n)) "date" cdcUnit =
        (unchecked (platform.localDate (platform.asLong (.int n) 0))).map some := by
      unfold toPgText
      simp
    rw [day,java.localDate]
    split
    · next inside => exact .value _ rfl fits (fun ⟨_,m,same,outside⟩ => by cases same; exact outside inside)
    · next outside => exact .crash _ rfl ⟨rfl,n,rfl,outside⟩
  | missing => exact .value none rfl fits (fun ⟨_,_,same,_⟩ => by cases same)
  | null => exact .value none rfl fits (fun ⟨_,_,same,_⟩ => by cases same)
  | boolean b => exact .value _ rfl fits (fun ⟨_,_,same,_⟩ => by cases same)
  | decimal text => exact .value _ rfl fits (fun ⟨_,_,same,_⟩ => by cases same)
  | string text => exact .value _ rfl fits (fun ⟨_,_,same,_⟩ => by cases same)
  | array items => exact .value _ rfl fits (fun ⟨_,_,same,_⟩ => by cases same)
  | object fields => exact .value _ rfl fits (fun ⟨_,_,same,_⟩ => by cases same)

private theorem integral_text {type : String} (integral : type ∈ ["bigint","integer","smallint"]) {node : Json} {cdcUnit : String} :
    toPgText platform (some node) type cdcUnit = match node with
      | .missing => .ok none
      | .null => .ok none
      | .int n => .ok (some (toString n))
      | .string text => match platform.parseLong text with
        | some _ => .ok (some text)
        | none => .error (.poison "TYPE_MISMATCH" ("Expected " ++ type ++ " but got '" ++ text ++ "'"))
      | node => .error (.poison "TYPE_MISMATCH" ("Expected " ++ type ++ " but got " ++ node.nodeType)) := by
  simp only [List.mem_cons,List.not_mem_nil,or_false] at integral
  rcases integral with rfl | rfl | rfl <;> cases node <;> rfl

private theorem toPgText_integral {type : String} (integral : type ∈ ["bigint","integer","smallint"]) (node : Json)
    (cdcUnit : String) : Reads (Mismatch platform type node) (BeyondCalendar platform type node)
      (toPgText platform (some node) type cdcUnit) := by
  have no_date : type ≠ "date" := by
    rintro rfl
    exact absurd integral (by decide)
  have inside : ¬ BeyondCalendar platform type node := not_beyond no_date
  rw [integral_text integral]
  cases node with
  | missing => exact .value none rfl (by simp [Mismatch]) inside
  | null => exact .value none rfl (by simp [Mismatch]) inside
  | int n => exact .value _ rfl (by simp [Mismatch]) inside
  | string text =>
    cases parsed : platform.parseLong text with
    | some n => exact .value (some text) (by simp only [parsed]) (fun fails => by simp [Mismatch,parsed] at fails) inside
    | none =>
      exact .poison "TYPE_MISMATCH" ("Expected " ++ type ++ " but got '" ++ text ++ "'") (by simp only [parsed])
        ⟨integral,parsed⟩ inside
  | decimal text => exact .poison _ _ rfl integral inside
  | boolean b => exact .poison _ _ rfl (.inl integral) inside
  | array items => exact .poison _ _ rfl (.inl integral) inside
  | object fields => exact .poison _ _ rfl (.inl integral) inside

/-- A type that takes any value. -/
theorem toPgText_any (java : Java platform) {type : String} (no_date : type ≠ "date")
    (no_integer : type ∉ ["bigint","integer","smallint"]) (numeric : "numeric".toList.isPrefixOf type.toList = false)
    (node : Json) (cdcUnit : String) : Reads (Mismatch platform type node) (BeyondCalendar platform type node)
      (toPgText platform (some node) type cdcUnit) := by
  have fits : ¬ Mismatch platform type node := not_mismatch no_integer numeric
  have inside : ¬ BeyondCalendar platform type node := not_beyond no_date
  have not_numeric : type ≠ "numeric" := by
    rintro rfl
    exact absurd numeric (by decide)
  have read : ∃ value, toPgText platform (some node) type cdcUnit = .ok value := by
    simp only [List.mem_cons,List.not_mem_nil,or_false] at no_integer
    unfold toPgText
    cases node <;> simp only [numeric,Bool.false_eq_true,if_false,no_date,no_integer,not_numeric,
      java.instantOfMillis,java.instantOfMicros]
    all_goals repeat' split
    all_goals exact ⟨_,rfl⟩
  obtain ⟨value,read⟩ := read
  exact .value value read fits inside

/-- The three outcomes of `toPgText`. -/
theorem toPgText_reads (java : Java platform) (node : Json) (type cdcUnit : String) :
    Reads (Mismatch platform type node) (BeyondCalendar platform type node)
      (toPgText platform (some node) type cdcUnit) := by
  by_cases date : type = "date"
  · subst date
    exact toPgText_date java node cdcUnit
  · by_cases integral : type ∈ ["bigint","integer","smallint"]
    · exact toPgText_integral integral node cdcUnit
    · cases numeric : "numeric".toList.isPrefixOf type.toList with
      | true => exact toPgText_numeric numeric node cdcUnit
      | false => exact toPgText_any java date integral numeric node cdcUnit

private theorem columnNode_none (platform : Platform) {row : Json} {col : ColumnSpec} (nothing : columnNode row col = none) :
    ¬ ColumnMismatch platform row col ∧ ¬ ColumnBeyond platform row col := by
  simp [ColumnMismatch,ColumnBeyond,nothing]

private theorem columnNode_some (platform : Platform) {row node : Json} {col : ColumnSpec}
    (held : columnNode row col = some node) :
    (ColumnMismatch platform row col ↔ Mismatch platform col.type node) ∧
      (ColumnBeyond platform row col ↔ BeyondCalendar platform col.type node) := by
  simp [ColumnMismatch,ColumnBeyond,held]

private theorem readColumn_reads (java : Java platform) (kind : Op) (row : Json) (image : Image) (col : ColumnSpec) :
    Reads (ColumnMismatch platform row col) (ColumnBeyond platform row col)
      (readColumn platform kind row image col) := by
  unfold readColumn
  split
  · next synthetic =>
    obtain ⟨fits,inside⟩ := columnNode_none platform
      (show columnNode row col = none by simp [columnNode,synthetic])
    exact .value _ rfl fits inside
  · next captured =>
    cases present : (col.candidates.find? row.has).bind row.get with
    | none =>
      obtain ⟨fits,inside⟩ := columnNode_none platform
        (show columnNode row col = none by simp [columnNode,present])
      cases kind with
      | UPSERT => exact .value _ rfl fits inside
      | DELETE => exact .value _ rfl fits inside
    | some node =>
      cases placeholder : node.isPlaceholder with
      | true =>
        obtain ⟨fits,inside⟩ := columnNode_none platform
          (show columnNode row col = none by simp [columnNode,present,placeholder])
        exact .value _ (by simp [placeholder]; rfl) fits inside
      | false =>
        have held : columnNode row col = some node := by simp [columnNode,captured,present,placeholder]
        obtain ⟨mismatch,beyond⟩ := columnNode_some platform held
        have reads := (toPgText_reads java node col.type col.cdcUnit).map
          (fun value => { image with values := image.values ++ [value] })
        simpa [placeholder,mismatch,beyond] using reads

/-- The columns are read up to one whose date is beyond the calendar. -/
def FirstBeyond (platform : Platform) (row : Json) (columns : List ColumnSpec) : Prop :=
  ∃ before col after, columns = before ++ col :: after ∧
    (∀ earlier ∈ before, ¬ ColumnMismatch platform row earlier) ∧ ColumnBeyond platform row col

private theorem firstBeyond_nil (row : Json) : ¬ FirstBeyond platform row [] := by
  rintro ⟨before,col,after,columns,_⟩
  cases before <;> cases columns

private theorem firstBeyond_cons {row : Json} {col : ColumnSpec} {columns : List ColumnSpec} :
    FirstBeyond platform row (col :: columns) ↔
      ColumnBeyond platform row col ∨ ¬ ColumnMismatch platform row col ∧ FirstBeyond platform row columns := by
  constructor
  · rintro ⟨before,later,after,columns,fit,beyond⟩
    cases before with
    | nil =>
      cases columns
      exact .inl beyond
    | cons first others =>
      cases columns
      exact .inr ⟨fit col List.mem_cons_self,others,later,after,rfl,
        fun earlier inside => fit earlier (List.mem_cons_of_mem _ inside),beyond⟩
  · rintro (beyond | ⟨fits,before,later,after,rfl,fit,beyond⟩)
    · exact ⟨[],col,columns,rfl,by simp,beyond⟩
    · refine ⟨col :: before,later,after,rfl,fun earlier inside => ?_,beyond⟩
      rcases List.mem_cons.mp inside with rfl | other
      · exact fits
      · exact fit earlier other

/-- The loop over the columns stops at the first column that is not read. -/
theorem readColumns_crash (java : Java platform) (kind : Op) (row : Json) (columns : List ColumnSpec) (image : Image) :
    Crashes (columns.foldlM (readColumn platform kind row) image) ↔ FirstBeyond platform row columns := by
  induction columns generalizing image with
  | nil => exact iff_of_false (crashes_ok image) (firstBeyond_nil row)
  | cons col rest ih =>
    rw [List.foldlM_cons,firstBeyond_cons]
    cases readColumn_reads java kind row image col with
    | value next read fits inside =>
      rw [read]
      exact (ih next).trans (by simp [fits,inside])
    | poison reason message thrown fails inside =>
      rw [thrown]
      exact iff_of_false (crashes_poison reason message) (by simp [fails,inside])
    | crash message thrown outside =>
      rw [thrown]
      exact iff_of_true ⟨message,rfl⟩ (.inl outside)

/-- A change of a source, with a row image that is beyond the calendar. -/
def ChangeBeyond (platform : Platform) (table : TableContract) (root : Json) (op : String) : Prop :=
  (text (root.path "source") "name").isSome ∧
    (∀ named, text (root.path "source") "table" = some named → named = table.tableName) ∧
    ∃ kind row, rowImage table root op = .ok (kind,row) ∧ row.isObject = true ∧ FirstBeyond platform row table.columns

private theorem rowImage_declared (table : TableContract) (root : Json) (op : String) : ¬ Crashes (rowImage table root op) := by
  unfold rowImage
  repeat' split
  all_goals first | exact crashes_ok _ | exact crashes_poison _ _

/-- The end of `readChange`, which asks for a primary key. -/
def keyedChange (platform : Platform) (table : TableContract) (source : Json) (sourceId : String) (kind : Op)
    (image : Image) : Except Thrown ChangeEvent :=
  if (image.values[table.columns.findIdx (fun col => col.name = table.primaryKey)]?).join = none
  then .error (.poison "MISSING_PRIMARY_KEY" ("Row image has no " ++ table.primaryKey))
  else .ok ⟨sourceId,table.tableName,kind,image.values,image.unavailable,
    if source.hasNonNull "lsn" then some (platform.asLong (source.path "lsn") 0) else none,
    if source.hasNonNull "ts_us" then platform.asLong (source.path "ts_us") 0
      else javaLong (platform.asLong (source.path "ts_ms") platform.currentTimeMillis * 1000),image.absent⟩

/-- A change whose source block is accepted: its row image is read, and its key asked for. -/
theorem readChange_image {topic op sourceId : String} {table : TableContract} {root : Json}
    (named : text (root.path "source") "name" = some sourceId)
    (matching : ∀ named, text (root.path "source") "table" = some named → named = table.tableName) :
    readChange platform topic table root op = rowImage table root op >>= fun read =>
      if !read.2.isObject then .error (.poison "MISSING_ROW" ("Op '" ++ op ++ "' has no row image"))
      else table.columns.foldlM (readColumn platform read.1 read.2) ⟨[],[],[]⟩ >>=
        keyedChange platform table (root.path "source") sourceId read.1 := by
  have passes : ∀ other, text (root.path "source") "table" = some other → ¬ other ≠ table.tableName :=
    fun other found => not_not.mpr (matching other found)
  unfold readChange
  cases found : text (root.path "source") "table" with
  | none =>
    simp only [named,found]
    rfl
  | some other =>
    simp only [named,found,passes other found]
    rfl

/-- Past the checks of its source block, a change crashes with its row image. -/
theorem readImage_crash (java : Java platform) {topic op sourceId : String} {table : TableContract} {root : Json}
    (named : text (root.path "source") "name" = some sourceId)
    (matching : ∀ named, text (root.path "source") "table" = some named → named = table.tableName) :
    Crashes (readChange platform topic table root op) ↔
      ∃ kind row, rowImage table root op = .ok (kind,row) ∧ row.isObject = true ∧
        FirstBeyond platform row table.columns := by
  have keyed : ∀ kind image, ¬ Crashes (keyedChange platform table (root.path "source") sourceId kind image) := by
    intro kind image
    unfold keyedChange
    split
    · exact crashes_poison _ _
    · exact crashes_ok _
  have columns : ∀ kind row, Crashes (table.columns.foldlM (readColumn platform kind row) ⟨[],[],[]⟩ >>=
      keyedChange platform table (root.path "source") sourceId kind) ↔ FirstBeyond platform row table.columns := by
    intro kind row
    rw [crashes_bind,readColumns_crash java]
    exact or_iff_left (fun ⟨image,_,crash⟩ => keyed kind image crash)
  rw [readChange_image named matching,crashes_bind]
  constructor
  · rintro (thrown | ⟨⟨kind,row⟩,image,crash⟩)
    · exact absurd thrown (rowImage_declared table root op)
    · refine ⟨kind,row,image,?_⟩
      cases object : row.isObject with
      | false => simp [object] at crash
      | true =>
        simp only [object,Bool.not_true,Bool.false_eq_true,if_false] at crash
        exact ⟨rfl,(columns kind row).mp crash⟩
  · rintro ⟨kind,row,image,object,beyond⟩
    refine .inr ⟨(kind,row),image,?_⟩
    simp only [object,Bool.not_true,Bool.false_eq_true,if_false]
    exact (columns kind row).mpr beyond

private theorem readChange_crash (java : Java platform) (topic : String) (table : TableContract) (root : Json) (op : String) :
    Crashes (readChange platform topic table root op) ↔ ChangeBeyond platform table root op := by
  unfold ChangeBeyond
  cases named : text (root.path "source") "name" with
  | none =>
    have thrown : readChange platform topic table root op =
        .error (.poison "MISSING_SOURCE" "Envelope has no source.name (topic.prefix)") := by
      simp only [readChange,named]
      rfl
    exact thrown ▸ iff_of_false (crashes_poison _ _) (by simp)
  | some sourceId =>
    by_cases matching : ∀ named, text (root.path "source") "table" = some named → named = table.tableName
    · exact (readImage_crash java named matching).trans ⟨fun beyond => ⟨rfl,matching,beyond⟩,fun whole => whole.2.2⟩
    · simp only [not_forall] at matching
      obtain ⟨other,found,differs⟩ := matching
      have thrown : readChange platform topic table root op =
          .error (.poison "TABLE_MISMATCH" ("Topic " ++ topic ++ " carries an event for table " ++ other)) := by
        simp only [readChange,named,found,ne_eq,differs,not_false_eq_true,if_true]
        rfl
      exact thrown ▸ iff_of_false (crashes_poison _ _) (fun whole => differs (whole.2.1 other found))

/-- The change of a message: the payload of an envelope with a schema, or the message itself. -/
def changeOf (node : Json) : Json := if node.has "schema" && node.has "payload" then node.path "payload" else node

/-- A message whose change is beyond the calendar. -/
def OutOfCalendar (platform : Platform) (contract : Contract) (topic : String) (value : Option Bytes) : Prop :=
  ∃ bytes table node op, value = some bytes ∧ bytes ≠ [] ∧ contract.tableForTopic topic = some table ∧
    platform.readTree bytes = .ok node ∧ node.isObject = true ∧ text (changeOf node) "op" = some op ∧ op ≠ "m" ∧
    ChangeBeyond platform table (changeOf node) op

private theorem parse_crash (java : Java platform) (contract : Contract) (topic : String) (value : Option Bytes) :
    Crashes (parse platform contract topic value) ↔ OutOfCalendar platform contract topic value := by
  constructor
  · intro crash
    unfold parse at crash
    split at crash
    · exact absurd crash (crashes_ok _)
    · exact absurd crash (crashes_ok _)
    · next bytes content =>
      split at crash
      · exact absurd crash (crashes_poison _ _)
      · next table named =>
        split at crash
        · exact absurd crash (crashes_poison _ _)
        · next node tree =>
          split at crash
          · exact absurd crash (crashes_poison _ _)
          · next object =>
            dsimp only at crash
            split at crash
            · exact absurd crash (crashes_poison _ _)
            · next op found =>
              split at crash
              · exact absurd crash (crashes_ok _)
              · next change =>
                rw [crashes_map,readChange_crash java] at crash
                exact ⟨bytes,table,node,op,rfl,fun empty => content (empty ▸ rfl),named,tree,
                  by simpa using object,found,change,crash⟩
  · rintro ⟨bytes,table,node,op,rfl,content,named,tree,object,found,change,beyond⟩
    obtain ⟨first,rest,rfl⟩ := List.exists_cons_of_ne_nil content
    have crash := (readChange_crash java topic table (changeOf node) op).mpr beyond
    have parsed : parse platform contract topic (some (first :: rest)) =
        (readChange platform topic table (changeOf node) op).map some := by
      unfold changeOf at found ⊢
      simp only [parse,named,tree,object,found,change,Bool.not_true,Bool.false_eq_true,if_false]
    rw [parsed,crashes_map]
    exact crash

section
variable (setting : Setting) (snap : OwnershipSnapshot)

def RecordBeyond (r : Record) : Prop := OutOfCalendar setting.platform setting.contract r.topic r.value

/-- The record starts a hold of its partition. -/
def Holds (r : Record) : Prop :=
  ∃ event, Carries setting r event ∧ (snap.route event.sourceId event.table).target = .HOLD

/-- A partition is held when the records before have been handled, so that no more of it is parsed. -/
def HeldAfter (already : OffsetMap) (before : List Record) (tp : TopicPartition) : Prop :=
  (already tp).isSome ∨ ∃ r ∈ before, r.tp = tp ∧ Holds setting snap r

variable {setting} {snap} {plan plan' : Plan} {r : Record}

private theorem handle_none (java : Java setting.platform) :
    handle setting snap plan r = none ↔ plan.heldFrom r.tp = none ∧ RecordBeyond setting r := by
  unfold RecordBeyond
  rw [← parse_crash java]
  unfold handle
  split
  · next held => exact iff_of_false (by simp) (fun whole => by simp [whole.1] at held)
  · next unheld =>
    have free : plan.heldFrom r.tp = none := Option.not_isSome_iff_eq_none.mp unheld
    split
    · next parsed => simp [parsed]
    · next parsed => simp [parsed,free,Crashes]
    · next parsed => simp [parsed]
    · next parsed => simp [parsed]

private theorem handle_unchecked {message : String} (free : plan.heldFrom r.tp = none)
    (thrown : parse setting.platform setting.contract r.topic r.value = .error (.unchecked message)) :
    handle setting snap plan r = none := by
  rw [handle,if_neg (by simp [free])]
  simp only [thrown]

private theorem process_unchecked {already : OffsetMap} (thrown : handle setting snap (.empty already) r = none) :
    process setting snap already [r] = none := by
  rw [process,exec,thrown,Option.bind_none]

private theorem holds_iff {event : ChangeEvent} (carries : Carries setting r event) :
    Holds setting snap r ↔ (snap.route event.sourceId event.table).target = .HOLD := by
  constructor
  · rintro ⟨other,parsed,target⟩
    cases carries.symm.trans parsed
    exact target
  · exact fun target => ⟨event,carries,target⟩

private theorem not_holds (parsed : ∀ event, ¬ Carries setting r event) : ¬ Holds setting snap r :=
  fun ⟨event,carries,_⟩ => parsed event carries

/-- One record holds its partition, or leaves the holds as they are. -/
theorem handle_held (handled : handle setting snap plan r = some plan') (tp : TopicPartition) :
    (plan'.heldFrom tp).isSome ↔ (plan.heldFrom tp).isSome ∨ r.tp = tp ∧ Holds setting snap r := by
  unfold handle at handled
  split at handled
  · next held =>
    cases handled
    exact ⟨.inl,fun old => old.elim id (fun new => new.1 ▸ held)⟩
  · split at handled
    · next parsed =>
      cases handled
      exact (or_iff_left (fun new => not_holds (fun event carries => by simp [Carries,parsed] at carries) new.2)).symm
    · cases handled
    · next parsed =>
      cases handled
      exact (or_iff_left (fun new => not_holds (fun event carries => by simp [Carries,parsed] at carries) new.2)).symm
    · next event carries =>
      cases handled
      rw [holds_iff carries]
      unfold direct
      cases target : (snap.route event.sourceId event.table).target with
      | HOLD =>
        by_cases same : r.tp = tp
        · simp [same,OffsetMap.put]
        · simp [same,OffsetMap.put,Function.update_of_ne (Ne.symm same)]
      | PROD => simp [Plan.pass]
      | SHADOW => simp [Plan.pass]
      | SKIP => simp [Plan.pass,Plan.skip]
      | UNKNOWN_SOURCE =>
        dsimp only
        split
        · simp [Plan.pass,Plan.skip]
        · simp [Plan.pass,Plan.deadLetter]

private theorem heldAfter_cons (handled : handle setting snap plan r = some plan') (before : List Record)
    (tp : TopicPartition) :
    HeldAfter setting snap plan'.heldFrom before tp ↔ HeldAfter setting snap plan.heldFrom (r :: before) tp := by
  unfold HeldAfter
  rw [handle_held handled tp,or_assoc]
  simp [List.mem_cons]

/-- `process` is left by an exception at the first record that is parsed and beyond the calendar. -/
theorem exec_none (snap : OwnershipSnapshot) (java : Java setting.platform) (plan : Plan) (batch : List Record) :
    exec (handle setting snap) plan batch = none ↔ ∃ before r after, batch = before ++ r :: after ∧
      ¬ HeldAfter setting snap plan.heldFrom before r.tp ∧ RecordBeyond setting r := by
  induction batch generalizing plan with
  | nil =>
    refine iff_of_false (by simp [exec]) ?_
    rintro ⟨before,r,after,batch,_⟩
    cases before <;> cases batch
  | cons first rest ih =>
    rw [exec]
    cases handled : handle setting snap plan first with
    | none =>
      obtain ⟨free,beyond⟩ := (handle_none java).mp handled
      exact iff_of_true rfl ⟨[],first,rest,rfl,by simp [HeldAfter,free],beyond⟩
    | some next =>
      rw [Option.bind_some,ih next]
      constructor
      · rintro ⟨before,r,after,rfl,reached,beyond⟩
        exact ⟨first :: before,r,after,rfl,fun held => reached ((heldAfter_cons handled before r.tp).mpr held),beyond⟩
      · rintro ⟨before,r,after,batch,reached,beyond⟩
        cases before with
        | nil =>
          cases batch
          have free : plan.heldFrom first.tp = none := by simpa [HeldAfter] using reached
          rw [(handle_none java).mpr ⟨free,beyond⟩] at handled
          cases handled
        | cons other before =>
          cases batch
          exact ⟨before,r,after,rfl,fun held => reached ((heldAfter_cons handled before r.tp).mp held),beyond⟩

end

/-- The parser fails as declared on every message but those beyond the calendar, and `process`
    settles or holds every record of a batch unless it parses one of them. -/
theorem fails_as_declared_iff (setting : Setting) (java : Java setting.platform) :
    (∀ topic value, Declared (parse setting.platform setting.contract topic value) ↔
      ¬ OutOfCalendar setting.platform setting.contract topic value) ∧
    ∀ snap already batch,
      (∃ plan, process setting snap already batch = some plan ∧ PlanFor setting snap already batch plan) ↔
        ∀ before r after, batch = before ++ r :: after →
          HeldAfter setting snap already before r.tp ∨ ¬ RecordBeyond setting r := by
  refine ⟨fun topic value => ?_,fun snap already batch => ?_⟩
  · rw [declared_iff,parse_crash java]
  · have crash := exec_none snap java (.empty already) batch
    constructor
    · rintro ⟨plan,made,_⟩ before r after split
      by_contra neither
      rw [not_or,not_not] at neither
      have none_made := crash.mpr ⟨before,r,after,split,neither⟩
      rw [process,none_made] at made
      cases made
    · intro every
      cases made : process setting snap already batch with
      | none =>
        obtain ⟨before,r,after,split,reached,beyond⟩ := crash.mp made
        exact absurd beyond ((every before r after split).resolve_left reached)
      | some plan => exact ⟨plan,rfl,process_spec made⟩

/-- A message that creates an office. -/
def officeMessage (openingDate : Int) : Json := .object [("op",.string "c"),
  ("after",.object [("id",.int 1),("parent_id",.null),("hierarchy",.string "."),("external_id",.null),
    ("name",.string "Head Office"),("opening_date",.int openingDate)]),
  ("source",.object [("name",.string "s1"),("table",.string "m_office")])]

def officeRecord : Record := ⟨FineractTables.topic .mOffice,0,0,some [0x7b]⟩

/-- The sink that reads it. -/
def officeSetting (openingDate : Int) : Setting :=
  ⟨⟨"dlt",false,false,100,.ofRat (1 / 10)⟩,FineractTables.fineract,EngineParity.libraries (officeMessage openingDate)⟩

/-- A day that no `LocalDate` reaches is not dead-lettered: it stops the worker. -/
theorem far_office_crashes :
    ¬ Declared (parse (officeSetting 1000000000000000).platform (officeSetting 1000000000000000).contract
      officeRecord.topic officeRecord.value) ∧
    ∀ snap, process (officeSetting 1000000000000000) snap .nowhere [officeRecord] = none := by
  have thrown : parse (officeSetting 1000000000000000).platform (officeSetting 1000000000000000).contract
      officeRecord.topic officeRecord.value = .error (.unchecked "Invalid value for EpochDay") := by
    decide +kernel
  refine ⟨fun declared => (declared_iff _).mp declared ⟨_,thrown⟩,fun snap => ?_⟩
  exact process_unchecked (handle_unchecked rfl thrown)

/-- An office of 2009 is read, by the parser and in a batch. -/
theorem office_read : Declared (parse (officeSetting 14245).platform (officeSetting 14245).contract
      officeRecord.topic officeRecord.value) ∧
    ∃ plan, process (officeSetting 14245) ⟨[],[],0⟩ .nowhere [officeRecord] = some plan ∧
      PlanFor (officeSetting 14245) ⟨[],[],0⟩ .nowhere [officeRecord] plan := by
  have read : Declared (parse (officeSetting 14245).platform (officeSetting 14245).contract
      officeRecord.topic officeRecord.value) := by
    refine .inl ⟨some ⟨"s1","m_office",.UPSERT,[some "1",none,some ".",none,some "Head Office",some "2009-01-01",
      none,none],[],none,0,[]⟩,?_⟩
    decide +kernel
  have fails := fails_as_declared_iff (officeSetting 14245) (EngineParity.libraries_java _)
  have inside := (fails.1 officeRecord.topic officeRecord.value).mp read
  refine ⟨(fails.1 officeRecord.topic officeRecord.value).mpr inside,
    (fails.2 ⟨[],[],0⟩ .nowhere [officeRecord]).mpr (fun before r after split => .inr ?_)⟩
  have member : r ∈ [officeRecord] := by
    rw [split]
    exact List.mem_append_right _ List.mem_cons_self
  rw [List.mem_singleton.mp member]
  exact inside

end FineractBi.ParserErrors
