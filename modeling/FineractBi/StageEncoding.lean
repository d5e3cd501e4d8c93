import Mathlib.Algebra.Order.Floor.Defs
import Mathlib.Algebra.Order.Floor.Ring
import Mathlib.Data.Rat.Floor
import FineractBi.FineractTables
import FineractBi.Lib.Csv
import FineractBi.Lib.IsoTime

/-!
How the two engines write a row into the stage: `ValueConverter`, `CsvEncoder`
and `WarehouseWriter.encode` on one side, the select list of `build_page_query`,
`csv_field` and `build_copy_payload` on the other, and what COPY reads of either.
-/
namespace FineractBi.StageEncoding
open Calendar IsoTime Numeral FineractBi.Routing FineractBi.Envelope FineractBi.FineractTables
open FineractBi.Contract (Table)

inductive Numeric
  | nan
  | number (q : Rat)
  deriving DecidableEq

/-- A value of a contract column; NULL is `none` of an option. -/
inductive PgValue
  | int (n : Int)
  | numeric (x : Numeric)
  | date (d : Date)
  | timestamptz (micros : Int)
  | text (s : String)
  | boolean (b : Bool)
  deriving DecidableEq

/-- Round half away from zero. -/
def roundAway (q : Rat) : Int := if 0 ≤ q then ⌊q + 1 / 2⌋ else -⌊-q + 1 / 2⌋

/-- A number as `numeric(19,6)` holds it. -/
def toNumeric (q : Rat) : Option Numeric :=
  let scaled := roundAway (q * 10 ^ 6)
  if scaled.natAbs < 10 ^ 19 then some (.number (scaled / 10 ^ 6)) else none

def numericIn (text : List Char) : Option Numeric :=
  match readDecimal text with
  | some q => toNumeric q
  | none => if text.map Char.toLower = ['n','a','n'] then some .nan else none

def intIn (bits : Nat) (text : List Char) : Option Int :=
  (readInt text).filter (fun n => -2 ^ (bits - 1) ≤ n ∧ n < 2 ^ (bits - 1))

/-- The beginnings of the words for true and false that are not beginnings of both. -/
def booleanIn (text : List Char) : Option Bool :=
  let lower := text.map Char.toLower
  let begins (word : String) (least : Nat) : Bool := lower.isPrefixOf word.toList && least ≤ lower.length
  if begins "true" 1 || begins "yes" 1 || begins "on" 2 || begins "1" 1 then some true
  else if begins "false" 1 || begins "no" 1 || begins "off" 2 || begins "0" 1 then some false
  else none

/-- Type input, of the forms without blanks and, for dates and times, of ISO 8601. -/
def typeIn (type : String) (text : List Char) : Option PgValue :=
  if type = "text" then some (.text (String.ofList text))
  else if type = "date" then (readWholeDate text).map .date
  else if type = "timestamptz" then (readInstant text).map .timestamptz
  else if type = "boolean" then (booleanIn text).map .boolean
  else if type = "bigint" then (intIn 64 text).map .int
  else if type = "integer" then (intIn 32 text).map .int
  else if type = "smallint" then (intIn 16 text).map .int
  else if type = "numeric(19,6)" then (numericIn text).map .numeric
  else none

def InRange (bits : Nat) (n : Int) : Prop := -2 ^ (bits - 1) ≤ n ∧ n < 2 ^ (bits - 1)

/-- The values of a contract type, of which no text is the placeholder of the connector. -/
def Fits (type : String) : PgValue → Prop
  | .int n => type = "bigint" ∧ InRange 64 n ∨ type = "integer" ∧ InRange 32 n ∨ type = "smallint" ∧ InRange 16 n
  | .numeric x => type = "numeric(19,6)" ∧ ∀ q, x = .number q → ∃ n : Int, q = n / 10 ^ 6 ∧ n.natAbs < 10 ^ 19
  | .date d => type = "date" ∧ FourDigitYear d
  | .timestamptz micros => type = "timestamptz" ∧ FourDigitYear (dateOf micros)
  | .text s => type = "text" ∧ s ≠ UNAVAILABLE_PLACEHOLDER
  | .boolean _ => type = "boolean"

/-- A year as `java.time` prints it: four digits or more, with a sign outside of four digits. -/
def javaYear (year : Int) : List Char :=
  (if year < 0 then ['-'] else if year > 9999 then ['+'] else []) ++
    (if year.natAbs < 10000 then pad 4 year.natAbs else Nat.toDigits 10 year.natAbs)

/-- `LocalDate.toString`. -/
def localDateText (d : Date) : List Char :=
  javaYear (toCivil d).1 ++ ('-' :: (pad 2 (toCivil d).2.1.toNat ++ ('-' :: pad 2 (toCivil d).2.2.toNat)))

/-- `Instant.toString`, which prints no, three or six digits of a fraction in microseconds. -/
def javaInstantText (micros : Int) : List Char :=
  let width := if clock micros % 1000000 = 0 then 0 else if clock micros % 1000 = 0 then 3 else 6
  localDateText (dateOf micros) ++ ('T' :: (clockText width (clock micros) ++ Zone.letter.text))

/-- The libraries that the sink runs on: Jackson's integers, and `java.time`. -/
structure Java (platform : Platform) : Prop where
  asLong : ∀ n otherwise, InRange 64 n → platform.asLong (.int n) otherwise = n
  localDate : ∀ d, platform.localDate d = if -365243219162 ≤ d ∧ d ≤ 365241780471
    then .ok (String.ofList (localDateText d)) else .error "Invalid value for EpochDay"
  instantOfMillis : ∀ millis, platform.instantOfMillis millis = .ok (String.ofList (javaInstantText (millis * 1000)))
  instantOfMicros : ∀ micros, platform.instantOfMicros micros = .ok (String.ofList (javaInstantText micros))

/-- `CsvEncoder.append`. -/
def append (value : Option String) : List Char :=
  match value with
  | none => []
  | some text => Csv.quoted text.toList

/-- `CsvEncoder.identifierArray`. -/
def identifierArray (names : List String) : Option String :=
  if names = [] then none else some (String.ofList (ArrayText.braces (names.map String.toList)))

/-- A line of `WarehouseWriter.encode`. -/
def encodeLine (e : ChangeEvent) (route : Route) (stageTarget : String) : List Char :=
  append (some e.sourceId) ++ [','] ++ append route.tenantId ++
    e.values.flatMap (fun value => ',' :: append value) ++
    ',' :: (toString route.generation).toList ++
    ',' :: ((e.lsn.map (fun lsn => (toString lsn).toList)).getD []) ++
    ',' :: append (some (String.ofList (javaInstantText e.sourceTsMicros))) ++
    ',' :: (if e.op = .DELETE then ['d'] else ['u']) ++
    ',' :: append (identifierArray e.unavailable) ++
    ',' :: (toString route.epoch).toList ++
    ',' :: stageTarget.toList ++ ['\n']

/-- `WarehouseWriter.encode`, of events that are routed to the given targets. -/
def encode (events : List (ChangeEvent × Route × String)) : List Char :=
  events.flatMap (fun (e,route,stageTarget) => encodeLine e route stageTarget)

/-- A Python value as the driver returns it. A datetime stands as its point in time. -/
inductive PyValue
  | none
  | bool (b : Bool)
  | datetime (micros : Int)
  | date (d : Date)
  | decimal (d : Decimal)
  | int (n : Int)
  | str (s : String)
  | list (items : List String)
  deriving DecidableEq

/-- `datetime.isoformat` in UTC. -/
def isoformat (micros : Int) : List Char := instantText .offset (if clock micros % 1000000 = 0 then 0 else 6) micros

/-- `csv_field`. -/
def csvField (value : PyValue) : List Char :=
  match value with
  | .none => []
  | .bool b => if b then ['t'] else ['f']
  | .datetime micros => Csv.quoted (isoformat micros)
  | .date d => Csv.quoted (dateText d)
  | .decimal d => Csv.quoted d.text
  | .int n => Csv.quoted (toString n).toList
  | .list items => Csv.quoted (ArrayText.braces (items.map (fun item => ArrayText.quoted item.toList)))
  | .str s => Csv.quoted s.toList

/-- `",".join`. -/
def joinFields : List (List Char) → List Char
  | [] => []
  | [field] => field
  | field :: next :: rest => field ++ ',' :: joinFields (next :: rest)

/-- `build_copy_payload`. -/
def buildCopyPayload (rows : List (List PyValue)) : List Char :=
  rows.flatMap (fun row => joinFields (row.map csvField) ++ ['\n'])

/-- What `_write_page` puts around a fetched row. -/
structure PageWrite where
  sourceId : String
  tenantId : String
  captureGeneration : Int
  sourceTs : Int
  epoch : Int
  target : String

/-- A row as `_write_page` stages it. -/
def stagedTuple (w : PageWrite) (op : String) (withheld : List String) (row : List PyValue) : List PyValue :=
  [.str w.sourceId,.str w.tenantId] ++ (row ++
    [.int w.captureGeneration,.none,.datetime w.sourceTs,.str op,
    if withheld ≠ [] ∧ op ≠ "d" then .list withheld else .none,.int w.epoch,.str w.target])

/-- A staged record, as far as the engines agree on it. -/
structure Staged where
  values : List (Option PgValue)
  unavailable : List (Option (List Char))
  deriving DecidableEq

/-- The value of a field. -/
def fieldIn (type : String) (field : Option (List Char)) : Option (Option PgValue) :=
  match field with
  | none => some none
  | some text => (typeIn type text).map some

def fieldsIn : List Column → List (Option (List Char)) → Option (List (Option PgValue))
  | [], [] => some []
  | c :: columns, field :: fields =>
    (fieldIn c.type field).bind fun value => (fieldsIn columns fields).map (value :: ·)
  | _, _ => none

/-- The `_unavailable` column, which says nothing when it is NULL. -/
def unavailableIn (field : Option (List Char)) : Option (List (Option (List Char))) :=
  match field with
  | none => some []
  | some text => ArrayText.read text

/-- A record of the stage table: source and tenant, the columns, and seven more. -/
def recordIn (t : TypedTable) (fields : List (Option (List Char))) : Option Staged :=
  match fields.drop (2 + t.columns.length) with
  | [_,_,_,_,unavailable,_,_] =>
    (fieldsIn t.columns ((fields.drop 2).take t.columns.length)).bind fun values =>
      (unavailableIn unavailable).map fun names => ⟨values,names⟩
  | _ => none

/-- `COPY … FROM STDIN WITH (FORMAT csv)` into the stage table. -/
def copyIn (t : TypedTable) (payload : List Char) : Option (List Staged) :=
  (Csv.records payload).bind (fun records => records.mapM (recordIn t))

def Staged.Unavailable (s : Staged) (name : String) : Prop := some name.toList ∈ s.unavailable

/-- What the source holds in the columns of its table: nothing where a column is missing. -/
abbrev BaseRow := String → Option (Option PgValue)

/-- The compat view shows the first candidate that is present. -/
def shown (base : BaseRow) (c : Column) : Option PgValue := (c.candidates.findSome? base).join

/-- A row of the source whose values lie in the types of the contract. -/
structure SourceRow (t : TypedTable) where
  base : BaseRow
  present : ∀ c ∈ t.columns, c.synthetic = false → ∃ name ∈ c.candidates, (base name).isSome
  typed : ∀ c ∈ t.columns, c.synthetic = false → ∀ name ∈ c.candidates, ∀ v, base name = some (some v) → Fits c.type v
  keyed : ∀ c ∈ t.columns, c.name = t.primaryKey → (shown base c).isSome

/-- How the connector encodes the value of a column. -/
def Encodes (c : Column) (value : Option PgValue) (node : Json) : Prop :=
  match value with
  | none => node = .null
  | some (.int n) => node = .int n
  | some (.boolean b) => node = .boolean b
  | some (.text s) => node = .string s
  | some (.date d) => node = .int d
  | some (.timestamptz micros) =>
    (c.cdcUnit = "micros" ∧ node = .int micros) ∨
    (c.cdcUnit = "millis" ∧ ∃ millis, micros = millis * 1000 ∧ node = .int millis) ∨
    ∃ zone width, width ≤ 6 ∧ 10 ^ (6 - width) ∣ clock micros % 1000000 ∧
      node = .string (String.ofList (instantText zone width micros))
  | some (.numeric .nan) => node = .string "NaN" ∨ node = .string "NAN"
  | some (.numeric (.number q)) => ∃ d : Decimal, d.toRat = some q ∧ node = .string (String.ofList d.text)

/-- The row image of the connector holds the columns of the include list that are present. -/
structure Captured (t : TypedTable) (excludePii : Bool) (base : BaseRow) (image : Json) : Prop where
  object : image.isObject = true
  columns : ∀ name v, name ∈ t.includeList excludePii → base name = some v →
    ∃ node, image.get name = some node ∧ ∀ c ∈ t.columns, name ∈ c.candidates → Encodes c v node
  others : ∀ name, name ∉ t.includeList excludePii ∨ base name = none → image.get name = none

/-- A message that inserts, reads or updates the row of an image. -/
structure Message (platform : Platform) (t : TypedTable) (sourceId : String) (bytes : Bytes) (image : Json) : Prop where
  content : bytes ≠ []
  envelope : ∃ node root op, platform.readTree bytes = .ok node ∧ node.isObject = true ∧
    root = (if node.has "schema" && node.has "payload" then node.path "payload" else node) ∧
    text root "op" = some op ∧ op ∈ ["c","r","u"] ∧ root.path "after" = image ∧
    text (root.path "source") "name" = some sourceId ∧
    ∀ table, text (root.path "source") "table" = some table → table = t.tableName

/-- What the driver makes of a value. -/
def Represents (value : Option PgValue) (py : PyValue) : Prop :=
  match value with
  | none => py = .none
  | some (.int n) => py = .int n
  | some (.boolean b) => py = .bool b
  | some (.text s) => py = .str s
  | some (.date d) => py = .date d
  | some (.timestamptz micros) => py = .datetime micros
  | some (.numeric .nan) => py = .decimal .nan
  | some (.numeric (.number q)) => ∃ d : Decimal, d.toRat = some q ∧ py = .decimal d

/-- The select list of `build_page_query` over the compat view: NULL for synthetic and withheld columns. -/
def selected (excludePii : Bool) (base : BaseRow) (c : Column) : Option PgValue :=
  if c.synthetic || (excludePii && c.pii) then none else shown base c

/-- The row that the page query fetches. -/
def Fetched (t : TypedTable) (excludePii : Bool) (base : BaseRow) (row : List PyValue) : Prop :=
  List.Forall₂ (fun c py => Represents (selected excludePii base c) py) t.columns row

end FineractBi.StageEncoding
