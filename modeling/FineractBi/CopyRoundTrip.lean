import FineractBi.EngineParity

/-!
The round trip of the staging text. COPY reads back the rows that
`build_copy_payload` and `WarehouseWriter.encode` write, and an array within a
field is read back as the list that it stands for.
-/
namespace FineractBi.CopyRoundTrip
open FineractBi.Routing FineractBi.Envelope FineractBi.FineractTables
open FineractBi.StageEncoding FineractBi.EngineParity
open FineractBi.Contract (Table)

/-- A value that is NULL or a text, as Python has it. -/
def pyText : Option String → PyValue
  | none => .none
  | some text => .str text

/-- A field as COPY reads it: NULL, or the characters of a text. -/
def copied (value : Option String) : Option (List Char) := value.map String.toList

private theorem fieldOf_value (value : Option String) : (fieldOf value).value = copied value := by
  cases value <;> rfl

private theorem csvField_text (value : Option String) : csvField (pyText value) = (fieldOf value).render := by
  cases value <;> rfl

/-- A row with a field is a record of the payload. -/
theorem joinFields_row {row : List (Option String)} (some_field : row ≠ []) :
    joinFields ((row.map pyText).map csvField) ++ ['\n'] = Csv.renderRecord (row.map fieldOf) := by
  have fields : (row.map pyText).map csvField = (row.map fieldOf).map Csv.Field.render := by
    simp [Function.comp_def,csvField_text]
  rw [fields]
  exact joinFields_render (by simpa using some_field)

private theorem payload_render {rows : List (List (Option String))} (some_field : ∀ row ∈ rows, row ≠ []) :
    buildCopyPayload (rows.map (List.map pyText)) = (rows.map (List.map fieldOf)).flatMap Csv.renderRecord := by
  rw [buildCopyPayload,List.flatMap_map,List.flatMap_map]
  exact List.flatMap_congr (fun row inside => joinFields_row (some_field row inside))

/-- COPY reads the rows of the payload, in order. -/
theorem records_payload {rows : List (List (Option String))} (some_field : ∀ row ∈ rows, row ≠ []) :
    Csv.records (buildCopyPayload (rows.map (List.map pyText))) = some (rows.map (List.map copied)) := by
  have proper : ∀ fields ∈ rows.map (List.map fieldOf), ∀ f ∈ fields, f.Proper := by
    intro fields inside f field
    obtain ⟨row,_,rfl⟩ := List.mem_map.mp inside
    obtain ⟨value,_,rfl⟩ := List.mem_map.mp field
    exact fieldOf_proper value
  have written : ∀ fields ∈ rows.map (List.map fieldOf), fields ≠ [] := by
    intro fields inside
    obtain ⟨row,member,rfl⟩ := List.mem_map.mp inside
    simpa using some_field row member
  rw [payload_render some_field,Csv.records_render proper written]
  simp [Function.comp_def,fieldOf_value]

/-- The fields of a routed event, as they are to be read. -/
def stagedRecord (e : ChangeEvent) (route : Route) (stageTarget : String) : List (Option (List Char)) :=
  [copied (some e.sourceId),copied route.tenantId] ++ e.values.map copied ++
    [some (toString route.generation).toList,e.lsn.map (fun lsn => (toString lsn).toList),
    some (javaInstantText e.sourceTsMicros),some (if e.op = .DELETE then ['d'] else ['u']),
    copied (identifierArray e.unavailable),some (toString route.epoch).toList,some stageTarget.toList]

private theorem numberField_value (number : Option Int) :
    (numberField number).value = number.map (fun n => (toString n).toList) := by
  cases number <;> rfl

private theorem bare_value (text : List Char) : (Csv.Field.bare text).value = some text := rfl

private theorem eventFields_value (e : ChangeEvent) (route : Route) (stageTarget : String) :
    (eventFields e route stageTarget).map Csv.Field.value = stagedRecord e route stageTarget := by
  have values : (e.values.map fieldOf).map Csv.Field.value = e.values.map copied := by
    simp [Function.comp_def,fieldOf_value]
  simp only [eventFields,stagedRecord,List.map_cons,List.map_append,List.map_nil,values,fieldOf_value,
    numberField_value,bare_value,copied,Option.map_some,String.toList_ofList,List.cons_append,List.nil_append]

/-- COPY reads the routed events, in order. -/
theorem records_encode {events : List (ChangeEvent × Route × String)}
    (staged : ∀ e ∈ events, e.2.1.target.stageTarget = some e.2.2) :
    Csv.records (encode events) = some (events.map (fun (e,route,stageTarget) => stagedRecord e route stageTarget)) := by
  let fields : ChangeEvent × Route × String → List Csv.Field :=
    fun e => eventFields e.1 e.2.1 e.2.2
  have lines : encode events = (events.map fields).flatMap Csv.renderRecord := by
    rw [encode,List.flatMap_map]
    exact List.flatMap_congr (fun e _ => encodeLine_render e.1 e.2.1 e.2.2)
  have proper : ∀ record ∈ events.map fields, ∀ f ∈ record, f.Proper := by
    intro record inside
    obtain ⟨event,member,rfl⟩ := List.mem_map.mp inside
    exact eventFields_proper event.1 (staged event member)
  have written : ∀ record ∈ events.map fields, record ≠ [] := by
    intro record inside
    obtain ⟨event,_,rfl⟩ := List.mem_map.mp inside
    exact List.cons_ne_nil _ _
  rw [lines,Csv.records_render proper written,List.map_map]
  exact congrArg some (List.map_congr_left (fun e _ => eventFields_value e.1 e.2.1 e.2.2))

/-- A list that `csv_field` writes is read in two steps: one field, and the array in it. -/
theorem list_read (items : List String) : ∃ text, Csv.records (buildCopyPayload [[.list items]]) = some [[some text]] ∧
    ArrayText.read text = some (items.map (fun item => some item.toList)) := by
  refine ⟨ArrayText.braces (items.map (fun item => ArrayText.quoted item.toList)),?_,?_⟩
  · have proper : ∀ fields ∈ [[Csv.Field.quoted (ArrayText.braces (items.map
        (fun item => ArrayText.quoted item.toList)))]], ∀ f ∈ fields, f.Proper := by simp [Csv.Field.Proper]
    have record := Csv.records_render proper (by simp)
    simpa [buildCopyPayload,joinFields,csvField,Csv.renderRecord,Csv.Field.render,Csv.Field.value,Csv.NEWLINE]
      using record
  · have elements := ArrayText.read_braces ArrayText.quoted
      (fun text (_ : text ∈ items.map String.toList) => ArrayText.reads_quoted text)
    simpa [Function.comp_def] using elements

/-- The name of a column of the contract. -/
def ColumnName (name : String) : Prop := ∃ table, ∃ c ∈ (typed table).columns, c.name = name

/-- The names of columns are not empty, are not NULL and need no quotes. -/
theorem column_name {name : String} (column : ColumnName name) : ArrayText.Reads name.toList name.toList := by
  have names : ∀ table, ∀ c ∈ (typed table).columns, c.name.toList ≠ [] ∧
      c.name.toList.all (fun ch => ArrayText.Bare ch) = true ∧ ArrayText.isNull c.name.toList = false := by
    intro table
    cases table <;> decide +kernel
  obtain ⟨table,c,inside,rfl⟩ := column
  obtain ⟨some_char,bare,named⟩ := names table c inside
  exact ArrayText.reads_name (by simpa using bare) some_char named

private theorem identifierArray_read {names : List String} (some_name : names ≠ [])
    (columns : ∀ name ∈ names, ColumnName name) :
    ∃ text, identifierArray names = some text ∧
      ArrayText.read text.toList = some (names.map (fun name => some name.toList)) := by
  refine ⟨_,if_neg some_name,?_⟩
  have reads : ∀ text ∈ names.map String.toList, ArrayText.Reads (id text) text := by
    intro text inside
    obtain ⟨name,member,rfl⟩ := List.mem_map.mp inside
    exact column_name (columns name member)
  have elements := ArrayText.read_braces id reads
  rw [List.map_id,List.map_map] at elements
  rw [String.toList_ofList]
  exact elements

/-- Rows of NULLs and texts are read back from the extractor's payload, routed events from the
    sink's, lists from `csv_field` and names of columns from `identifierArray`. -/
theorem copy_round_trip :
    (∀ (fields : Nat) (rows : List (List (Option String))), 2 ≤ fields → (∀ row ∈ rows, row.length = fields) →
      Csv.records (buildCopyPayload (rows.map (List.map pyText))) = some (rows.map (List.map copied))) ∧
    (∀ events : List (ChangeEvent × Route × String), (∀ e ∈ events, e.2.1.target.stageTarget = some e.2.2) →
      Csv.records (encode events) =
        some (events.map (fun (e,route,stageTarget) => stagedRecord e route stageTarget))) ∧
    (∀ items : List String, ∃ text, Csv.records (buildCopyPayload [[.list items]]) = some [[some text]] ∧
      ArrayText.read text = some (items.map (fun item => some item.toList))) ∧
    ∀ names : List String, names ≠ [] → (∀ name ∈ names, ColumnName name) →
      ∃ text, identifierArray names = some text ∧
        ArrayText.read text.toList = some (names.map (fun name => some name.toList)) := by
  refine ⟨fun fields rows several sized => records_payload (fun row inside => ?_),fun events => records_encode,
    list_read,fun names => identifierArray_read⟩
  have length := sized row inside
  rintro rfl
  rw [← length] at several
  exact absurd several (by decide)

/-- A row with a NULL, an empty text and one that holds every character of the format. -/
theorem copy_round_trip_row :
    Csv.records (buildCopyPayload [[.none,.str "",.str "a,\"b\"\r\n\\"],[.str "x",.none,.none]]) =
      some [[none,some [],some "a,\"b\"\r\n\\".toList],[some ['x'],none,none]] :=
  copy_round_trip.1 3 [[none,some "",some "a,\"b\"\r\n\\"],[some "x",none,none]] (by decide) (by decide)

end FineractBi.CopyRoundTrip
