import Mathlib.Algebra.Group.Nat.Defs
import FineractBi.Routing

/-!
How the sink reads a message: `DebeziumEnvelopeParser.parse` with
`ValueConverter.toPgText`, over the contract as `Contract` and `ColumnSpec`
hold it. Jackson and the Java library enter through `Platform`.
-/
namespace FineractBi.Envelope
open FineractBi.Routing

abbrev Bytes := List UInt8

/-- Jackson's `JsonNode`. A number that is not integral stands as its text. -/
inductive Json
  | missing
  | null
  | boolean (b : Bool)
  | int (n : Int)
  | decimal (text : String)
  | string (text : String)
  | array (items : List Json)
  | object (fields : List (String × Json))

/-- `JsonNode.get`, which answers for objects only. -/
def Json.get (node : Json) (field : String) : Option Json :=
  match node with
  | .object fields => fields.lookup field
  | _ => none

def Json.path (node : Json) (field : String) : Json := (node.get field).getD .missing
def Json.has (node : Json) (field : String) : Bool := (node.get field).isSome

def Json.isNull : Json → Bool
  | .null => true
  | _ => false

def Json.isObject : Json → Bool
  | .object _ => true
  | _ => false

def Json.hasNonNull (node : Json) (field : String) : Bool := ((node.get field).map (!·.isNull)).getD false

/-- `JsonNode.asText`; containers have no text. -/
def Json.asText : Json → String
  | .missing => ""
  | .null => "null"
  | .boolean b => if b then "true" else "false"
  | .int n => toString n
  | .decimal text => text
  | .string text => text
  | .array _ => ""
  | .object _ => ""

/-- `JsonNode.getNodeType`. -/
def Json.nodeType : Json → String
  | .missing => "MISSING"
  | .null => "NULL"
  | .boolean _ => "BOOLEAN"
  | .int _ => "NUMBER"
  | .decimal _ => "NUMBER"
  | .string _ => "STRING"
  | .array _ => "ARRAY"
  | .object _ => "OBJECT"

/-- What reading a message can throw: a `PoisonEventException`, or an unchecked
    exception of the libraries. -/
inductive Thrown
  | poison (reason message : String)
  | unchecked (message : String)
  deriving DecidableEq, Repr

/-- The libraries under the parser. An error is the text of the exception. -/
structure Platform where
  readTree : Bytes → Except String Json
  asLong : Json → Int → Int
  render : Json → String
  parseLong : String → Option Int
  localDate : Int → Except String String
  instantOfMillis : Int → Except String String
  instantOfMicros : Int → Except String String
  currentTimeMillis : Int

structure ColumnSpec where
  name : String
  type : String
  candidates : List String
  synthetic : Bool
  cdcUnit : String

/-- `TableContract`; the primary key is one of the columns. -/
structure TableContract where
  tableName : String
  primaryKey : String
  columns : List ColumnSpec
  keyed : ∃ col ∈ columns, col.name = primaryKey

/-- `Contract`. Table names are PostgreSQL identifiers. -/
structure Contract where
  topicPrefix : String
  tables : List TableContract
  names : ∀ table ∈ tables, PgText table.tableName

/-- `Contract.tableForTopic`: the topic is the prefix, a dot and the table. -/
def Contract.tableForTopic (contract : Contract) (topic : String) : Option TableContract :=
  contract.tables.find? (fun table => topic = contract.topicPrefix ++ "." ++ table.tableName)

inductive Op
  | UPSERT | DELETE
  deriving DecidableEq, Repr

structure ChangeEvent where
  sourceId : String
  table : String
  op : Op
  values : List (Option String)
  unavailable : List String
  lsn : Option Int
  sourceTsMicros : Int
  absent : List String
  deriving DecidableEq, Repr

def UNAVAILABLE_PLACEHOLDER : String := "__debezium_unavailable_value"

def Json.isPlaceholder : Json → Bool
  | .string text => text = UNAVAILABLE_PLACEHOLDER
  | _ => false

variable (platform : Platform)

/-- What the library throws is not caught. -/
def unchecked {α : Type} : Except String α → Except Thrown α
  | .ok a => .ok a
  | .error message => .error (.unchecked message)

/-- `ValueConverter.toPgText`. -/
def toPgText (node : Option Json) (type cdcUnit : String) : Except Thrown (Option String) :=
  match node with
  | none => .ok none
  | some .null => .ok none
  | some .missing => .ok none
  | some node =>
    let base := if "numeric".toList.isPrefixOf type.toList then "numeric" else type
    if base = "date" then
      match node with
      | .int _ => (unchecked (platform.localDate (platform.asLong node 0))).map some
      | _ => .ok (some node.asText)
    else if base = "timestamptz" then
      match node with
      | .int _ => (unchecked (if cdcUnit = "millis" then platform.instantOfMillis (platform.asLong node 0)
          else platform.instantOfMicros (platform.asLong node 0))).map some
      | _ => .ok (some node.asText)
    else if base = "boolean" then
      match node with
      | .boolean b => .ok (some (if b then "t" else "f"))
      | .int _ => .ok (some (if platform.asLong node 0 ≠ 0 then "t" else "f"))
      | _ => .ok (some node.asText)
    else if base = "bigint" ∨ base = "integer" ∨ base = "smallint" then
      match node with
      | .int _ => .ok (some node.asText)
      | .string text =>
        match platform.parseLong text with
        | some _ => .ok (some text)
        | none => .error (.poison "TYPE_MISMATCH" ("Expected " ++ type ++ " but got '" ++ text ++ "'"))
      | _ => .error (.poison "TYPE_MISMATCH" ("Expected " ++ type ++ " but got " ++ node.nodeType))
    else if base = "numeric" then
      match node with
      | .int _ => .ok (some node.asText)
      | .decimal _ => .ok (some node.asText)
      | .string _ => .ok (some node.asText)
      | _ => .error (.poison "TYPE_MISMATCH"
          ("Expected numeric (decimal.handling.mode=string) but got " ++ node.nodeType))
    else
      match node with
      | .string text => .ok (some text)
      | _ => .ok (some (platform.render node))

/-- `DebeziumEnvelopeParser.text`. -/
def text (node : Json) (field : String) : Option String :=
  match node.get field with
  | none => none
  | some v => if v.isNull then none else some v.asText

/-- What the loop over the columns has read so far. -/
structure Image where
  values : List (Option String)
  unavailable : List String
  absent : List String

/-- One column of the row image. -/
def readColumn (kind : Op) (row : Json) (image : Image) (col : ColumnSpec) : Except Thrown Image :=
  if col.synthetic then .ok { image with values := image.values ++ [none] }
  else
    let node := (col.candidates.find? row.has).bind row.get
    if node.isNone && kind = .UPSERT then .ok
      ⟨image.values ++ [none],image.unavailable ++ [col.name],image.absent ++ [col.name]⟩
    else if (node.map (·.isPlaceholder)).getD false then .ok
      { image with values := image.values ++ [none], unavailable := image.unavailable ++ [col.name] }
    else (toPgText platform node col.type col.cdcUnit).map
      (fun value => { image with values := image.values ++ [value] })

/-- An integer as a `long` holds it: its low 64 bits. -/
def javaLong (n : Int) : Int := n.bmod (2 ^ 64)

/-- The kind of the change and its row image. -/
def rowImage (table : TableContract) (root : Json) (op : String) : Except Thrown (Op × Json) :=
  if op = "c" ∨ op = "r" ∨ op = "u" then .ok (.UPSERT,root.path "after")
  else if op = "d" then .ok (.DELETE,root.path "before")
  else if op = "t" then .error (.poison "TRUNCATE_UNSUPPORTED"
    ("TRUNCATE on " ++ table.tableName ++ " requires a controlled resnapshot"))
  else .error (.poison "UNKNOWN_OP" ("Unknown op '" ++ op ++ "'"))

/-- The envelope of a change, from its source block on. -/
def readChange (topic : String) (table : TableContract) (root : Json) (op : String) : Except Thrown ChangeEvent := do
  let source := root.path "source"
  let some sourceId := text source "name"
    | throw (.poison "MISSING_SOURCE" "Envelope has no source.name (topic.prefix)")
  if let some sourceTable := text source "table" then
    if sourceTable ≠ table.tableName then
      throw (.poison "TABLE_MISMATCH" ("Topic " ++ topic ++ " carries an event for table " ++ sourceTable))
  let lsn := if source.hasNonNull "lsn" then some (platform.asLong (source.path "lsn") 0) else none
  let tsMicros := if source.hasNonNull "ts_us" then platform.asLong (source.path "ts_us") 0
    else javaLong (platform.asLong (source.path "ts_ms") platform.currentTimeMillis * 1000)
  let (kind,row) ← rowImage table root op
  if !row.isObject then
    throw (.poison "MISSING_ROW" ("Op '" ++ op ++ "' has no row image"))
  let image ← table.columns.foldlM (readColumn platform kind row) ⟨[],[],[]⟩
  let primaryKey := (image.values[table.columns.findIdx (fun col => col.name = table.primaryKey)]?).join
  if primaryKey = none then
    throw (.poison "MISSING_PRIMARY_KEY" ("Row image has no " ++ table.primaryKey))
  return ⟨sourceId,table.tableName,kind,image.values,image.unavailable,lsn,tsMicros,image.absent⟩

/-- `DebeziumEnvelopeParser.parse`. -/
def parse (contract : Contract) (topic : String) (value : Option Bytes) : Except Thrown (Option ChangeEvent) :=
  match value with
  | none => .ok none
  | some [] => .ok none
  | some bytes =>
    match contract.tableForTopic topic with
    | none => .error (.poison "UNKNOWN_TOPIC" ("No contract table for topic " ++ topic))
    | some table =>
      match platform.readTree bytes with
      | .error message => .error (.poison "MALFORMED_JSON" ("Value is not valid JSON: " ++ message))
      | .ok node =>
        if !node.isObject then .error (.poison "MALFORMED_ENVELOPE" "Value is not a JSON object")
        else
          let root := if node.has "schema" && node.has "payload" then node.path "payload" else node
          match text root "op" with
          | none => .error (.poison "MISSING_OP" "Envelope has no 'op'")
          | some op =>
            if op = "m" then .ok none
            else (readChange platform topic table root op).map some

/-- A message that carries no change: its value is empty, or it is a JSON object,
    enveloped or not, with the op 'm'. -/
def CarriesNoChange (value : Option Bytes) : Prop :=
  value = none ∨ value = some [] ∨ ∃ bytes node, value = some bytes ∧ platform.readTree bytes = .ok node ∧
    text (if node.has "schema" && node.has "payload" then node.path "payload" else node) "op" = some "m"

/-- The parser returns empty for the messages that carry no change. -/
theorem parse_empty {contract : Contract} {topic : String} {value : Option Bytes}
    (empty : parse platform contract topic value = .ok none) : CarriesNoChange platform value := by
  unfold parse at empty
  split at empty
  · exact .inl rfl
  · exact .inr (.inl rfl)
  · next bytes _ =>
    split at empty
    · cases empty
    · split at empty
      · cases empty
      · next node read =>
        split at empty
        · cases empty
        · dsimp only at empty
          split at empty
          · cases empty
          · next op named =>
            split at empty
            · next same => exact .inr (.inr ⟨bytes,node,rfl,read,same ▸ named⟩)
            · cases changed : readChange platform topic _ _ op with
              | error thrown => rw [changed] at empty; cases empty
              | ok event => rw [changed] at empty; cases empty

private theorem readChange_table {topic op : String} {table : TableContract} {root : Json} {event : ChangeEvent}
    (read : readChange platform topic table root op = .ok event) : event.table = table.tableName := by
  unfold readChange at read
  simp only [bind,Except.bind,pure,Except.pure,throw,throwThe,MonadExceptOf.throw] at read
  repeat' split at read
  all_goals cases read
  all_goals rfl

/-- An event is about a table of the contract. -/
theorem parse_table {contract : Contract} {topic : String} {value : Option Bytes} {event : ChangeEvent}
    (parsed : parse platform contract topic value = .ok (some event)) : PgText event.table := by
  unfold parse at parsed
  split at parsed
  · cases parsed
  · cases parsed
  · split at parsed
    · cases parsed
    · next table found =>
      split at parsed
      · cases parsed
      · next node _ =>
        split at parsed
        · cases parsed
        · dsimp only at parsed
          split at parsed
          · cases parsed
          · next op _ =>
            split at parsed
            · cases parsed
            · cases changed : readChange platform topic table _ op with
              | error thrown => rw [changed] at parsed; cases parsed
              | ok event' =>
                rw [changed] at parsed
                cases parsed
                rw [readChange_table platform changed]
                exact contract.names table (List.mem_of_find?_eq_some found)

end FineractBi.Envelope
