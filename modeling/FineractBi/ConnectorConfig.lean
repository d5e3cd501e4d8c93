import FineractBi.FineractTables
import FineractBi.Generations
import FineractBi.Lib.Pattern
import FineractBi.Lib.Separator
import FineractBi.Reconciler
import FineractBi.Secrets

/-!
The configuration that the control plane gives the connector of a source
(`build_connector_config`), what its include lists name, and the topics that its
two routers send the events to: the tables and columns of the contract, and the
topics that the sink reads. Debezium and Kafka Connect are parameters, with what
their documentation says of such a configuration (`Documented`).
-/
namespace FineractBi.ConnectorConfig
open Pattern Separator FineractBi.Registry FineractBi.FineractTables FineractBi.Secrets
open FineractBi.Envelope (Json)
open FineractBi.Contract (Table)

structure CdcSettings extends Reconciler.CdcSettings where
  kafkaBootstrap : String := "kafka:9092"
  snapshotMode : String := "initial"
  snapshotThreads : Int := 1
  heartbeatMs : Int := 10000
  maxBatchSize : Int := 4096
  maxQueueSize : Int := 16384
  pollIntervalMs : Int := 200
  publicationMode : String := "filtered"
  publicationName : String := "fbi_cdc"
  signalTopic : String := "fineract.cdc.signals"
  dropStaleSlots : Bool := true
  excludePii : Bool := true
  overrides : List (String × String) := []

/-- What the control plane reads of the contract file. -/
structure Contract where
  topicPrefix : String
  sourceSchema : String
  tables : List TypedTable

/-- The contract in `contracts/fineract_tables.json`. -/
def contract : Contract := ⟨"fineract.cdc","public",tables.map typed⟩

/-- A configuration. A label that is no text stays the JSON value it is. -/
abbrev Config := Relation String Json

/-- What `build_connector_config` raises; `typeError` is that of `re.match` on a value that is no text. -/
inductive ConfigError
  | connectionMissing (source : String)
  | secret (reason : String)
  | notIdentifier (what value : String)
  | typeError
  deriving DecidableEq

/-- A dict literal followed by updates: the last value of a key stands. -/
def dict (entries : List (String × Json)) : Config :=
  entries.foldl (fun config e => config.alter {e.1} (fun _ _ => some e.2)) .empty

/-- A value that Python takes for true, of an optional text. -/
def present (text : Option String) : Option String := text.filter (· ≠ "")

/-- A JSON value that Python takes for true. A number that is not integral is so when a digit before its exponent is not 0. -/
def truthy : Json → Bool
  | .missing | .null => false
  | .boolean b => b
  | .int n => n ≠ 0
  | .decimal text => (text.toList.takeWhile (fun c => c ≠ 'e' && c ≠ 'E')).any (fun c => c.isDigit && c ≠ '0')
  | .string text => text ≠ ""
  | .array items => !items.isEmpty
  | .object fields => !fields.isEmpty

/-- `source.labels.get(…)`, where it is true. -/
def label (r : SourceRecord) (name : String) : Option Json := (r.labels.lookup name).filter truthy

/-- `_QUALIFIED_IDENTIFIER`, without its `$`. -/
def qualifiedIdentifier (text : List Char) : Bool :=
  let part := fun t => identifier t && t.length ≤ 63
  part (text.takeWhile (· ≠ '.')) &&
    ((text.dropWhile (· ≠ '.')).isEmpty || part ((text.dropWhile (· ≠ '.')).drop 1))

/-- `_identifier`. -/
def checkIdentifier (value : Json) (what : String) : Except ConfigError String :=
  match value with
  | .string text => if (upToEnd qualifiedIdentifier text.toList).isSome then .ok text else .error (.notIdentifier what text)
  | _ => .error .typeError

/-- `source.db_schema or contract.source_schema`. -/
def captureSchema (contract : Contract) (r : SourceRecord) : String := (present (some r.dbSchema)).getD contract.sourceSchema

def includedTables (contract : Contract) (schema : String) : List String :=
  contract.tables.map (fun t => schema ++ "." ++ t.tableName)

/-- The sorted set of the candidates of the columns that are captured. -/
def includedColumns (contract : Contract) (schema : String) (excludePii : Bool) : List String :=
  (contract.tables.flatMap (fun t => (t.includeList excludePii).map (fun name =>
    schema ++ "." ++ t.tableName ++ "." ++ name))).toFinset.sort (· ≤ ·)

/-- The literal of `build_connector_config`. -/
def literalConfig (contract : Contract) (settings : CdcSettings) (r : SourceRecord)
    (dbHost dbName dbUser : String) (sslmode : Json) (password : String) : List (String × Json) := [
  ("connector.class",.string "io.debezium.connector.postgresql.PostgresConnector"),
  ("tasks.max",.string "1"),
  ("database.hostname",.string dbHost),
  ("database.port",.string (toString r.dbPort)),
  ("database.user",.string dbUser),
  ("database.password",.string password),
  ("database.dbname",.string dbName),
  ("database.sslmode",sslmode),
  ("topic.prefix",.string r.sourceId),
  ("plugin.name",.string "pgoutput"),
  ("slot.name",.string r.slotName),
  ("slot.drop.on.stop",.string "false"),
  ("publication.name",.string settings.publicationName),
  ("publication.autocreate.mode",.string settings.publicationMode),
  ("table.include.list",.string (",".intercalate (includedTables contract (captureSchema contract r)))),
  ("column.include.list",.string (String.ofList (escaped
    (",".intercalate (includedColumns contract (captureSchema contract r) settings.excludePii)).toList))),
  ("snapshot.mode",.string settings.snapshotMode),
  ("snapshot.max.threads",.string (toString settings.snapshotThreads)),
  ("decimal.handling.mode",.string "string"),
  ("time.precision.mode",.string "adaptive_time_microseconds"),
  ("interval.handling.mode",.string "string"),
  ("tombstones.on.delete",.string "false"),
  ("heartbeat.interval.ms",.string (toString settings.heartbeatMs)),
  ("max.batch.size",.string (toString settings.maxBatchSize)),
  ("max.queue.size",.string (toString settings.maxQueueSize)),
  ("poll.interval.ms",.string (toString settings.pollIntervalMs)),
  ("signal.enabled.channels",.string "kafka"),
  ("signal.kafka.topic",.string settings.signalTopic),
  ("signal.kafka.bootstrap.servers",.string settings.kafkaBootstrap),
  ("key.converter",.string "org.apache.kafka.connect.json.JsonConverter"),
  ("key.converter.schemas.enable",.string "false"),
  ("value.converter",.string "org.apache.kafka.connect.json.JsonConverter"),
  ("value.converter.schemas.enable",.string "false"),
  ("transforms",.string "route,heartbeat"),
  ("transforms.route.type",.string "org.apache.kafka.connect.transforms.RegexRouter"),
  ("transforms.route.regex",.string "[^.]+\\.[^.]+\\.(.*)"),
  ("transforms.route.replacement",.string (contract.topicPrefix ++ ".$1")),
  ("transforms.heartbeat.type",.string "org.apache.kafka.connect.transforms.RegexRouter"),
  ("transforms.heartbeat.regex",.string "__debezium-heartbeat\\..*"),
  ("transforms.heartbeat.replacement",.string (contract.topicPrefix ++ ".heartbeats")),
  ("errors.retry.timeout",.string "-1"),
  ("errors.tolerance",.string "none")]

/-- What the label `heartbeat_table` adds. -/
def heartbeatConfig (r : SourceRecord) : Except ConfigError (List (String × Json)) :=
  match label r "heartbeat_table" with
  | none => pure []
  | some value => do
    let table ← checkIdentifier value "heartbeat_table"
    return [("heartbeat.action.query",.string ("INSERT INTO " ++ table ++
      " (id, ts) VALUES (1, NOW()) ON CONFLICT (id) DO UPDATE SET ts = EXCLUDED.ts"))]

/-- What the label `signal_table` adds. -/
def signalConfig (r : SourceRecord) : Except ConfigError (List (String × Json)) :=
  match label r "signal_table" with
  | none => pure []
  | some value => do
    let table ← checkIdentifier value "signal_table"
    return [("signal.enabled.channels",.string "source,kafka"),("signal.data.collection",.string table)]

/-- `build_connector_config`; `defaultSslmode` is FBI_DEFAULT_SSLMODE. -/
def buildConnectorConfig (env : Environment) (defaultSslmode : String) (contract : Contract) (settings : CdcSettings)
    (r : SourceRecord) : Except ConfigError Config :=
  match present r.dbHost,present r.dbName,present r.dbUser with
  | some dbHost,some dbName,some dbUser => do
    let password ← (connectPlaceholder env r.secretRef r.sourceId).mapError .secret
    let config := literalConfig contract settings r dbHost dbName dbUser ((label r "sslmode").getD (.string defaultSslmode)) password
    let heartbeat ← heartbeatConfig r
    let signal ← signalConfig r
    return dict (config ++ heartbeat ++ signal ++ settings.overrides.map (fun e => (e.1,.string e.2)))
  | _,_,_ => throw (.connectionMissing r.sourceId)

/-- What the configuration is given to: how Debezium reads an include list and names its topics, `Matcher.matches` of
    Java's regular expressions with the groups it finds, and a transformation that is no plain `RegexRouter`. -/
structure Connect where
  includes : (list name : String) → Bool
  dataTopic : Config → (schema table : String) → String
  heartbeatTopic : Config → String
  groups : (regex text : String) → Option (List String)
  transform : Config → (name topic : String) → String

/-- The text of a key. -/
def textOf (config : Config) (key : String) : String :=
  match config.get key with
  | some (.string value) => value
  | _ => ""

/-- Both lists name the column. -/
def captures (connect : Connect) (config : Config) (schema table column : String) : Bool :=
  let table := schema ++ "." ++ table
  connect.includes (textOf config "table.include.list") table &&
    connect.includes (textOf config "column.include.list") (table ++ "." ++ column)

/-- `Matcher.replaceFirst` after `matches`: `$` names a group, a backslash keeps the next character. -/
def expand (groups : List String) : List Char → List Char
  | '$' :: d :: rest =>
    if d.isDigit then (groups.getD (d.toNat - 48) "").toList ++ expand groups rest else '$' :: d :: expand groups rest
  | '\\' :: c :: rest => c :: expand groups rest
  | c :: rest => c :: expand groups rest
  | [] => []

/-- One transformation, by its keys. A `RegexRouter` without a predicate renames the topics that its expression matches. -/
def transformed (connect : Connect) (config : Config) (topic name : String) : String :=
  let key := fun option => "transforms." ++ name ++ "." ++ option
  if textOf config (key "type") = "org.apache.kafka.connect.transforms.RegexRouter" ∧ (config.get (key "predicate")).isNone then
    match connect.groups (textOf config (key "regex")) topic with
    | some groups => String.ofList (expand groups (textOf config (key "replacement")).toList)
    | none => topic
  else connect.transform config name topic

/-- The topic that the records of a topic land on: the transformations in the order of `transforms`. -/
def landsOn (connect : Connect) (config : Config) (topic : String) : String :=
  (((textOf config "transforms").toList.splitOn ',').map String.ofList).foldl (transformed connect config) topic

/-- What `[^.]+\.[^.]+\.(.*)` finds for its group. -/
def afterTwoDots (topic : List Char) : Option (List Char) :=
  let first := topic.takeWhile (· ≠ '.')
  let second := ((topic.dropWhile (· ≠ '.')).drop 1).takeWhile (· ≠ '.')
  let rest := ((topic.dropWhile (· ≠ '.')).drop 1).dropWhile (· ≠ '.')
  if first.isEmpty || second.isEmpty || rest.isEmpty || (rest.drop 1).any terminator then none else some (rest.drop 1)

/-- `__debezium-heartbeat\..*` matches the topic. -/
def isHeartbeat (topic : List Char) : Bool :=
  "__debezium-heartbeat.".toList.isPrefixOf topic && !(topic.drop "__debezium-heartbeat.".length).any terminator

/-- A text of letters, digits, underscores and hyphens. -/
def Plain (text : String) : Prop := PlainText text.toList

instance (text : String) : Decidable (Plain text) := inferInstanceAs (Decidable (PlainText text.toList))

/-- No key changes how topics are named. -/
def DefaultTopics (config : Config) : Prop :=
  ∀ key ∈ ["topic.naming.strategy","topic.delimiter","topic.heartbeat.prefix"], config.get key = none

/-- The documented behaviour: a list is one of anchored expressions without regard to case, for those that `Pattern`
    reads; topics are named by the topic prefix; and the two expressions match as Java's do. -/
structure Documented (connect : Connect) : Prop where
  includes : ∀ list name : String, readable list.toList = true → connect.includes list name = listed list.toList name.toList
  dataTopic : ∀ config server schema table, DefaultTopics config → config.get "topic.prefix" = some (.string server) →
    Plain server → Plain schema → Plain table → connect.dataTopic config schema table = server ++ "." ++ schema ++ "." ++ table
  heartbeatTopic : ∀ config server, DefaultTopics config → config.get "topic.prefix" = some (.string server) → Plain server →
    connect.heartbeatTopic config = "__debezium-heartbeat." ++ server
  route : ∀ topic, connect.groups "[^.]+\\.[^.]+\\.(.*)" topic =
    (afterTwoDots topic.toList).map (fun rest => [topic,String.ofList rest])
  heartbeat : ∀ topic, connect.groups "__debezium-heartbeat\\..*" topic = if isHeartbeat topic.toList then some [topic] else none

/-! ### The values of the configuration -/

section
variable {env : Environment} {sslmode : String} {contract : Contract} {settings : CdcSettings} {r : SourceRecord} {config : Config}

private theorem textOf_eq {key value : String} (found : config.get key = some (.string value)) : textOf config key = value := by
  rw [textOf,found]

private theorem dict_append (entries : List (String × Json)) (e : String × Json) (k : String) :
    (dict (entries ++ [e])).get k = if k = e.1 then some e.2 else (dict entries).get k := by
  simp [dict,Relation.alter_get]

/-- The last value of a key. -/
theorem dict_get (entries : List (String × Json)) (k : String) : (dict entries).get k = entries.reverse.lookup k := by
  induction entries using List.reverseRecOn with
  | nil => rfl
  | append_singleton rest e ih =>
    obtain ⟨k',v⟩ := e
    rw [dict_append,List.reverse_append,List.reverse_singleton,List.singleton_append,List.lookup_cons,ih]
    by_cases same : k = k'
    · simp [same]
    · simp [same,beq_false_of_ne same]

/-- A key that no later part sets. -/
theorem dict_get_left {entries later : List (String × Json)} {k : String} (unset : later.reverse.lookup k = none) :
    (dict (entries ++ later)).get k = (dict entries).get k := by
  rw [dict_get,dict_get,List.reverse_append,List.lookup_append,unset,Option.none_or]

/-- The labels set no key of the literal but `signal.enabled.channels`. -/
theorem labels_unset {heartbeat signal : List (String × Json)} (at_heartbeat : heartbeatConfig r = .ok heartbeat)
    (at_signal : signalConfig r = .ok signal) {k : String} (other : k ≠ "heartbeat.action.query")
    (other' : k ≠ "signal.enabled.channels") (other'' : k ≠ "signal.data.collection") :
    (heartbeat ++ signal).reverse.lookup k = none := by
  have no_heartbeat : heartbeat.reverse.lookup k = none := by
    unfold heartbeatConfig at at_heartbeat
    split at at_heartbeat
    · obtain rfl := Except.ok.inj at_heartbeat
      rfl
    · obtain ⟨table,_,made⟩ := StateMachine.except_bind at_heartbeat
      obtain rfl := Except.ok.inj made
      simp [List.lookup_cons,beq_false_of_ne other]
  have no_signal : signal.reverse.lookup k = none := by
    unfold signalConfig at at_signal
    split at at_signal
    · obtain rfl := Except.ok.inj at_signal
      rfl
    · obtain ⟨table,_,made⟩ := StateMachine.except_bind at_signal
      obtain rfl := Except.ok.inj made
      simp [List.lookup_cons,beq_false_of_ne other',beq_false_of_ne other'']
  rw [List.reverse_append,List.lookup_append,no_heartbeat,no_signal]
  rfl

/-- A key that says what is captured or where its events go. -/
def captureKey (key : String) : Bool :=
  key = "slot.name" || ["table.","column.","schema.","topic.","transforms","predicates"].any (fun start =>
    start.toList.isPrefixOf key.toList)

/-- The overrides leave these keys alone. -/
def CaptureKept (settings : CdcSettings) : Prop := ∀ e ∈ settings.overrides, captureKey e.1 = false

instance (settings : CdcSettings) : Decidable (CaptureKept settings) :=
  inferInstanceAs (Decidable (∀ e ∈ settings.overrides, _))

/-- A configuration that is built has the values of the literal at these keys. -/
theorem built_get (built : buildConnectorConfig env sslmode contract settings r = .ok config) (kept : CaptureKept settings) :
    ∃ dbHost dbName dbUser mode password, ∀ k, captureKey k = true →
      config.get k = (literalConfig contract settings r dbHost dbName dbUser mode password).reverse.lookup k := by
  unfold buildConnectorConfig at built
  split at built
  · next dbHost dbName dbUser _ _ _ =>
    obtain ⟨password,_,rest⟩ := StateMachine.except_bind built
    obtain ⟨heartbeat,at_heartbeat,rest⟩ := StateMachine.except_bind rest
    obtain ⟨signal,at_signal,rest⟩ := StateMachine.except_bind rest
    obtain rfl := Except.ok.inj rest
    refine ⟨dbHost,dbName,dbUser,(label r "sslmode").getD (.string sslmode),password,fun k capture => ?_⟩
    have unset : (settings.overrides.map (fun e => (e.1,Json.string e.2))).reverse.lookup k = none := by
      rw [List.lookup_eq_none_iff]
      intro e member
      obtain ⟨e',inside,rfl⟩ := List.mem_map.mp (List.mem_reverse.mp member)
      refine bne_iff_ne.mpr ?_
      rintro rfl
      rw [kept e' inside] at capture
      cases capture
    have other {name : String} (quiet : captureKey name = false) : k ≠ name := by
      rintro rfl
      rw [quiet] at capture
      cases capture
    rw [dict_get_left unset,List.append_assoc,dict_get_left (labels_unset at_heartbeat at_signal (other (by decide))
      (other (by decide)) (other (by decide))),dict_get]
  · cases built

/-- The keys that say what is captured and where its events go. -/
structure Captures (contract : Contract) (settings : CdcSettings) (r : SourceRecord) (config : Config) : Prop where
  topicPrefix : config.get "topic.prefix" = some (.string r.sourceId)
  topics : DefaultTopics config
  slotName : config.get "slot.name" = some (.string (SourceNames.slotName r.sourceId r.captureGeneration))
  tables : textOf config "table.include.list" = ",".intercalate (includedTables contract (captureSchema contract r))
  columns : textOf config "column.include.list" = String.ofList (escaped
    (",".intercalate (includedColumns contract (captureSchema contract r) settings.excludePii)).toList)
  transforms : textOf config "transforms" = "route,heartbeat"
  route : ∀ connect : Connect, ∀ topic, transformed connect config topic "route" =
    match connect.groups "[^.]+\\.[^.]+\\.(.*)" topic with
    | some groups => String.ofList (expand groups (contract.topicPrefix ++ ".$1").toList)
    | none => topic
  heartbeat : ∀ connect : Connect, ∀ topic, transformed connect config topic "heartbeat" =
    match connect.groups "__debezium-heartbeat\\..*" topic with
    | some groups => String.ofList (expand groups (contract.topicPrefix ++ ".heartbeats").toList)
    | none => topic

private theorem built_captures (built : buildConnectorConfig env sslmode contract settings r = .ok config)
    (kept : CaptureKept settings) :
    Captures contract settings r config := by
  obtain ⟨dbHost,dbName,dbUser,mode,password,values⟩ := built_get built kept
  refine ⟨?_,?_,?_,?_,?_,?_,?_,?_⟩
  · rw [values _ (by decide)]
    simp [literalConfig,List.lookup_cons]
  · intro key inside
    simp only [List.mem_cons,List.not_mem_nil,or_false] at inside
    rcases inside with rfl | rfl | rfl
    all_goals
      rw [values _ (by decide)]
      simp [literalConfig,List.lookup_cons]
  · rw [values _ (by decide),← SourceNames.slotName_record]
    simp [literalConfig,List.lookup_cons]
  · refine textOf_eq ?_
    rw [values _ (by decide)]
    simp [literalConfig,List.lookup_cons]
  · refine textOf_eq ?_
    rw [values _ (by decide)]
    simp [literalConfig,List.lookup_cons]
  · refine textOf_eq ?_
    rw [values _ (by decide)]
    simp [literalConfig,List.lookup_cons]
  · intro connect topic
    have kind : textOf config "transforms.route.type" = "org.apache.kafka.connect.transforms.RegexRouter" := by
      refine textOf_eq ?_
      rw [values _ (by decide)]
      simp [literalConfig,List.lookup_cons]
    have regex : textOf config "transforms.route.regex" = "[^.]+\\.[^.]+\\.(.*)" := by
      refine textOf_eq ?_
      rw [values _ (by decide)]
      simp [literalConfig,List.lookup_cons]
    have replacement : textOf config "transforms.route.replacement" = contract.topicPrefix ++ ".$1" := by
      refine textOf_eq ?_
      rw [values _ (by decide)]
      simp [literalConfig,List.lookup_cons]
    have unconditional : config.get "transforms.route.predicate" = none := by
      rw [values _ (by decide)]
      simp [literalConfig,List.lookup_cons]
    rw [← regex,← replacement]
    exact if_pos ⟨kind,by simp [unconditional]⟩
  · intro connect topic
    have kind : textOf config "transforms.heartbeat.type" = "org.apache.kafka.connect.transforms.RegexRouter" := by
      refine textOf_eq ?_
      rw [values _ (by decide)]
      simp [literalConfig,List.lookup_cons]
    have regex : textOf config "transforms.heartbeat.regex" = "__debezium-heartbeat\\..*" := by
      refine textOf_eq ?_
      rw [values _ (by decide)]
      simp [literalConfig,List.lookup_cons]
    have replacement : textOf config "transforms.heartbeat.replacement" = contract.topicPrefix ++ ".heartbeats" := by
      refine textOf_eq ?_
      rw [values _ (by decide)]
      simp [literalConfig,List.lookup_cons]
    have unconditional : config.get "transforms.heartbeat.predicate" = none := by
      rw [values _ (by decide)]
      simp [literalConfig,List.lookup_cons]
    rw [← regex,← replacement]
    exact if_pos ⟨kind,by simp [unconditional]⟩

end

section
variable {settings : CdcSettings} {r : SourceRecord} {config : Config} {schema table column : String}

/-- The same text but for case. -/
def sameText (text other : String) : Prop := lower text.toList = lower other.toList

instance (text other : String) : Decidable (sameText text other) := inferInstanceAs (Decidable (_ = _))

/-- Plain, and in lower case. -/
def LowerText (text : String) : Prop := ∀ c ∈ text.toList, plain c = true ∧ c.toLower = c

instance (text : String) : Decidable (LowerText text) := List.decidableBAll _ text.toList

private theorem candidates_lower : ∀ t ∈ contract.tables, ∀ c ∈ t.columns, ∀ name ∈ c.candidates, LowerText name := by decide +kernel

private theorem tables_lower : ∀ t ∈ contract.tables, LowerText t.tableName := by decide +kernel

private theorem tables_plain (t : TypedTable) (inside : t ∈ contract.tables) : Plain t.tableName :=
  fun c member => (tables_lower t inside c member).1

/-- No two tables have one name. -/
theorem typed_named {t t' : Table} (same : (typed t).tableName = (typed t').tableName) : t = t' := by
  cases t <;> cases t' <;> first | rfl | exact absurd same (by decide)

private theorem lower_same {text other : String} (own : LowerText text) (own' : LowerText other) (same : sameText text other) :
    text = other := by
  have fixed {text : String} (own : LowerText text) : lower text.toList = text.toList :=
    (List.map_congr_left (fun c inside => (own c inside).2)).trans (List.map_id _)
  rw [sameText,fixed own,fixed own'] at same
  exact String.toList_injective same

private theorem columns_plain {t : TypedTable} (inside : t ∈ contract.tables) {excludePii : Bool} {name : String}
    (included : name ∈ t.includeList excludePii) : Plain name := by
  obtain ⟨c,shown,candidate⟩ := List.mem_flatMap.mp included
  exact fun ch member => (candidates_lower t inside c (List.mem_of_mem_filter shown) name candidate ch member).1

private theorem table_entry (schema table : String) : (schema ++ "." ++ table).toList = schema.toList ++ '.' :: table.toList := by
  simp [String.toList_append]

private theorem column_entry (schema table column : String) : (schema ++ "." ++ table ++ "." ++ column).toList =
    schema.toList ++ '.' :: (table.toList ++ '.' :: column.toList) := by simp [String.toList_append]

/-- A text of plain characters and dots. -/
def Dotted (text : String) : Prop := ∀ c ∈ text.toList, plain c = true ∨ c = '.'

theorem Dotted.no_comma {text : String} (dotted : Dotted text) : ',' ∉ text.toList := by
  intro comma
  rcases dotted ',' comma with is | dot
  · exact absurd is (by decide)
  · exact absurd dot (by decide)

private theorem Dotted.no_comma_escaped {text : String} (dotted : Dotted text) : ',' ∉ escaped text.toList := by
  intro comma
  obtain ⟨c,own,escapes⟩ := List.mem_flatMap.mp comma
  split at escapes
  · simp at escapes
  · obtain rfl := List.mem_singleton.mp escapes
    exact dotted.no_comma own

private theorem table_dotted (plain_schema : Plain (captureSchema contract r)) {t : TypedTable} (inside : t ∈ contract.tables) :
    Dotted (captureSchema contract r ++ "." ++ t.tableName) := by
  intro c member
  rw [table_entry,List.mem_append,List.mem_cons] at member
  rcases member with own | rfl | own
  · exact .inl (plain_schema c own)
  · exact .inr rfl
  · exact .inl (tables_plain t inside c own)

private theorem column_dotted (plain_schema : Plain (captureSchema contract r)) {t : TypedTable} (inside : t ∈ contract.tables)
    {excludePii : Bool} {name : String} (included : name ∈ t.includeList excludePii) :
    Dotted (captureSchema contract r ++ "." ++ t.tableName ++ "." ++ name) := by
  intro c member
  simp only [column_entry,List.mem_append,List.mem_cons] at member
  rcases member with own | rfl | own | rfl | own
  · exact .inl (plain_schema c own)
  · exact .inr rfl
  · exact .inl (tables_plain t inside c own)
  · exact .inr rfl
  · exact .inl (columns_plain inside included c own)

private theorem includedColumns_iff {excludePii : Bool} (text : String) :
    text ∈ includedColumns contract (captureSchema contract r) excludePii ↔
      ∃ t ∈ contract.tables, ∃ name ∈ t.includeList excludePii,
        text = captureSchema contract r ++ "." ++ t.tableName ++ "." ++ name := by
  simp only [includedColumns,Finset.mem_sort,List.mem_toFinset,List.mem_flatMap,List.mem_map]
  refine exists_congr (fun t => and_congr_right (fun _ => exists_congr (fun name => and_congr_right (fun _ => ?_))))
  exact eq_comm

private theorem includedColumns_some {excludePii : Bool} : includedColumns contract
    (captureSchema contract r) excludePii ≠ [] := by
  intro empty
  have first : captureSchema contract r ++ "." ++ "m_office" ++ "." ++ "id" ∈
      includedColumns contract (captureSchema contract r) excludePii :=
    (includedColumns_iff _).mpr ⟨mOffice,by simp [contract,tables,typed],"id",by cases excludePii <;> decide,rfl⟩
  rw [empty] at first
  cases first

/-- The entries of the list of columns, escaped. -/
theorem columns_text (excludePii : Bool) :
    escaped (",".intercalate (includedColumns contract (captureSchema contract r) excludePii)).toList =
      [','].intercalate ((includedColumns contract (captureSchema contract r) excludePii).map (fun e => escaped e.toList)) := by
  rw [String.toList_intercalate]
  change escaped ([','].intercalate _) = _
  rw [escaped_intercalate,List.map_map]
  rfl

private theorem tables_readable (plain_schema : Plain (captureSchema contract r)) :
    readable (",".intercalate (includedTables contract (captureSchema contract r))).toList = true := by
  rw [String.toList_intercalate,includedTables,List.map_map]
  refine readable_intercalate (by simp [contract,tables]) ?_ ?_
  · intro p inside
    obtain ⟨t,member,rfl⟩ := List.mem_map.mp inside
    exact (table_dotted plain_schema member).no_comma
  · intro p inside
    obtain ⟨t,member,rfl⟩ := List.mem_map.mp inside
    rw [Function.comp_apply,parse_dotted (table_dotted plain_schema member)]
    rfl

private theorem columns_readable (plain_schema : Plain (captureSchema contract r)) {excludePii : Bool} : readable (escaped
    (",".intercalate (includedColumns contract (captureSchema contract r) excludePii)).toList) = true := by
  rw [columns_text]
  refine readable_intercalate (by simpa using includedColumns_some) ?_ ?_
  · intro p inside
    obtain ⟨text,member,rfl⟩ := List.mem_map.mp inside
    obtain ⟨t,at_t,name,included,rfl⟩ := (includedColumns_iff text).mp member
    exact (column_dotted plain_schema at_t included).no_comma_escaped
  · intro p inside
    obtain ⟨text,member,rfl⟩ := List.mem_map.mp inside
    obtain ⟨t,at_t,name,included,rfl⟩ := (includedColumns_iff text).mp member
    rw [parse_escaped (column_dotted plain_schema at_t included)]
    rfl

/-- The list of tables matches the tables of the contract in the schema. -/
theorem tables_listed (plain_schema : Plain (captureSchema contract r)) :
    listed (",".intercalate (includedTables contract (captureSchema contract r))).toList (schema ++ "." ++ table).toList = true ↔
      sameText (captureSchema contract r) schema ∧ ∃ t ∈ contract.tables, sameText t.tableName table := by
  rw [String.toList_intercalate,includedTables,List.map_map]
  refine (listed_intercalate (by simp [contract,tables]) ?_).trans ?_
  · intro p inside
    obtain ⟨t,member,rfl⟩ := List.mem_map.mp inside
    exact (table_dotted plain_schema member).no_comma
  · constructor
    · rintro ⟨p,inside,items,parsed,covered⟩
      obtain ⟨t,member,rfl⟩ := List.mem_map.mp inside
      rw [Function.comp_apply,parse_dotted (table_dotted plain_schema member)] at parsed
      obtain rfl := Option.some.inj parsed
      rw [table_entry,table_entry] at covered
      obtain ⟨same,same'⟩ := covers_dotted plain_schema (tables_plain t member) covered
      exact ⟨same,t,member,same'⟩
    · rintro ⟨same,t,member,same'⟩
      refine ⟨_,List.mem_map_of_mem member,_,parse_dotted (table_dotted plain_schema member),?_⟩
      rw [Function.comp_apply,table_entry,table_entry]
      exact covers_dotted_self plain_schema (tables_plain t member) same same'

/-- The list of columns matches the columns that the contract shows, by their qualified names. -/
theorem columns_listed (plain_schema : Plain (captureSchema contract r)) (plain_other : Plain schema)
    (plain_table : Plain table)
    {excludePii : Bool} : listed (escaped
      (",".intercalate (includedColumns contract (captureSchema contract r) excludePii)).toList)
      (schema ++ "." ++ table ++ "." ++ column).toList = true ↔ sameText (captureSchema contract r) schema ∧
        ∃ t ∈ contract.tables, sameText t.tableName table ∧ ∃ name ∈ t.includeList excludePii, sameText name column := by
  rw [columns_text]
  refine (listed_intercalate (by simpa using includedColumns_some) ?_).trans ?_
  · intro p inside
    obtain ⟨text,member,rfl⟩ := List.mem_map.mp inside
    obtain ⟨t,at_t,name,included,rfl⟩ := (includedColumns_iff text).mp member
    exact (column_dotted plain_schema at_t included).no_comma_escaped
  · constructor
    · rintro ⟨p,inside,items,parsed,covered⟩
      obtain ⟨text,member,rfl⟩ := List.mem_map.mp inside
      obtain ⟨t,at_t,name,included,rfl⟩ := (includedColumns_iff text).mp member
      rw [parse_escaped (column_dotted plain_schema at_t included)] at parsed
      obtain rfl := Option.some.inj parsed
      have same := covers_escaped.mp covered
      simp only [column_entry,lower,List.map_append,List.map_cons] at same
      obtain ⟨first,rest⟩ := append_first (lower_no_dot plain_schema) (lower_no_dot plain_other) same
      obtain ⟨second,third⟩ := append_first (lower_no_dot (tables_plain t at_t)) (lower_no_dot plain_table) rest
      exact ⟨first,t,at_t,second,name,included,third⟩
    · rintro ⟨first,t,at_t,second,name,included,third⟩
      refine ⟨_,List.mem_map_of_mem ((includedColumns_iff _).mpr ⟨t,at_t,name,included,rfl⟩),_,
        parse_escaped (column_dotted plain_schema at_t included),?_⟩
      refine covers_escaped.mpr ?_
      simp only [sameText,lower] at first second third
      simp only [column_entry,lower,List.map_append,List.map_cons,first,second,third]

/-! ### The topics of a source -/

private theorem dots_split {first rest : List Char} (absent : '.' ∉ first) :
    (first ++ '.' :: rest).takeWhile (· ≠ '.') = first ∧
    (first ++ '.' :: rest).dropWhile (· ≠ '.') = '.' :: rest := by
  have all : ∀ c ∈ first, (decide (c ≠ '.')) = true := by
    intro c inside
    refine decide_eq_true ?_
    rintro rfl
    exact absent inside
  rw [List.takeWhile_append_of_pos all,List.dropWhile_append_of_pos all]
  simp

/-- The id of a source is plain, but for a line feed at its end. -/
theorem source_plain (valid : sourceIdPattern r.sourceId = true) (one_line : '\n' ∉ r.sourceId.toList) : Plain r.sourceId := by
  intro c inside
  rcases SourceNames.sourceId_chars valid c inside with part | rfl
  · simp only [idPart,idStart,Bool.decide_or,Bool.or_eq_true,decide_eq_true_eq,Char.le_def,UInt32.le_iff_toNat_le] at part
    rcases part with (letter | digit) | rfl | rfl
    · exact List.any_eq_true.mpr ⟨(97,122),by decide,decide_eq_true letter⟩
    · exact List.any_eq_true.mpr ⟨(48,57),by decide,decide_eq_true digit⟩
    · decide
    · decide
  · exact absurd inside one_line

private theorem plain_no_dot {text : String} (is : Plain text) : '.' ∉ text.toList :=
  fun inside => (plain_ne (is '.' inside)).2.1 rfl

private theorem plain_no_terminator {c : Char} (is : plain c = true) : terminator c = false := by
  have small := plain_small is
  have table : ∀ n < 128, plain (Char.ofNat n) = true → terminator (Char.ofNat n) = false := by decide
  have own := table c.toNat small
  rw [Char.ofNat_toNat] at own
  exact own is

/-- The two routers, one after the other. -/
theorem landsOn_eq (values : Captures contract settings r config) (connect : Connect) (topic : String) :
    landsOn connect config topic = transformed connect config (transformed connect config topic "route") "heartbeat" := by
  rw [landsOn,values.transforms]
  rfl

/-- What the first router makes of a topic. -/
theorem routed (values : Captures contract settings r config) {connect : Connect} (documented : Documented connect)
    (topic : String) :
    transformed connect config topic "route" = match afterTwoDots topic.toList with
      | some rest => "fineract.cdc." ++ String.ofList rest
      | none => topic := by
  rw [values.route,documented.route]
  cases afterTwoDots topic.toList with
  | none => rfl
  | some rest =>
    have expanded : expand [topic,String.ofList rest] (contract.topicPrefix ++ ".$1").toList = "fineract.cdc.".toList ++ rest := by
      change "fineract.cdc.".toList ++ ((String.ofList rest).toList ++ []) = _
      simp
    simp only [Option.map_some,expanded]
    exact String.toList_injective (by simp)

/-- What the second router makes of a topic. -/
theorem heartbeat_routed (values : Captures contract settings r config) {connect : Connect} (documented : Documented connect)
    (topic : String) : transformed connect config topic "heartbeat" =
      if isHeartbeat topic.toList then "fineract.cdc.heartbeats" else topic := by
  rw [values.heartbeat,documented.heartbeat]
  by_cases heartbeat : isHeartbeat topic.toList = true
  · rw [if_pos heartbeat,if_pos heartbeat]
    rfl
  · rw [if_neg heartbeat,if_neg heartbeat]

/-- The events of a table land on the topic that the sink reads for it. -/
theorem data_topic (values : Captures contract settings r config) {connect : Connect} (documented : Documented connect)
    (plain_source : Plain r.sourceId) (some_source : r.sourceId ≠ "") (plain_schema : Plain schema) (some_schema : schema ≠ "")
    (t : Table) : landsOn connect config (connect.dataTopic config schema (typed t).tableName) = topic t := by
  have member : typed t ∈ contract.tables := List.mem_map_of_mem (by cases t <;> decide)
  have plain_table := tables_plain _ member
  rw [documented.dataTopic config r.sourceId schema _ values.topics values.topicPrefix plain_source plain_schema plain_table,
    landsOn_eq values,routed values documented,heartbeat_routed values documented]
  have calm : (typed t).tableName.toList.any terminator = false :=
    List.any_eq_false.mpr (fun c inside => by simp [plain_no_terminator (plain_table c inside)])
  have source_text : r.sourceId.toList.isEmpty = false := by simpa using some_source
  have schema_text : schema.toList.isEmpty = false := by simpa using some_schema
  have found : afterTwoDots (r.sourceId ++ "." ++ schema ++ "." ++ (typed t).tableName).toList =
      some (typed t).tableName.toList := by
    rw [column_entry,afterTwoDots]
    simp only [dots_split (plain_no_dot plain_source),List.drop_one,List.tail_cons,dots_split (plain_no_dot plain_schema),
      source_text,schema_text,calm]
    rfl
  have not_heartbeat : isHeartbeat ("fineract.cdc." ++ (typed t).tableName).toList = false := by
    rw [isHeartbeat,String.toList_append]
    rfl
  simp only [found,String.ofList_toList,not_heartbeat]
  rfl

/-- The router of the tables leaves a topic of heartbeats alone. -/
theorem heartbeat_unrouted (plain_source : Plain r.sourceId) :
    afterTwoDots ("__debezium-heartbeat." ++ r.sourceId).toList = none := by
  have text : ("__debezium-heartbeat." ++ r.sourceId).toList = "__debezium-heartbeat".toList ++ '.' :: r.sourceId.toList := by
    simp [String.toList_append]
  have whole : r.sourceId.toList.dropWhile (· ≠ '.') = [] := by
    rw [List.dropWhile_eq_nil_iff]
    intro c inside
    refine decide_eq_true ?_
    rintro rfl
    exact plain_no_dot plain_source inside
  rw [text,afterTwoDots]
  simp only [dots_split (show '.' ∉ "__debezium-heartbeat".toList by decide),List.drop_one,List.tail_cons,whole]
  simp

/-- The heartbeats of a source land on a topic of their own. -/
theorem heartbeat_topic (values : Captures contract settings r config) {connect : Connect} (documented : Documented connect)
    (plain_source : Plain r.sourceId) : landsOn connect config (connect.heartbeatTopic config) = "fineract.cdc.heartbeats" := by
  have calm : r.sourceId.toList.any terminator = false :=
    List.any_eq_false.mpr (fun c inside => by simp [plain_no_terminator (plain_source c inside)])
  have heartbeat : isHeartbeat ("__debezium-heartbeat." ++ r.sourceId).toList = true := by
    rw [isHeartbeat,String.toList_append,show "__debezium-heartbeat.".length = "__debezium-heartbeat.".toList.length from rfl,
      List.drop_left,calm,Bool.not_false,Bool.and_true]
    exact List.isPrefixOf_iff_prefix.mpr (List.prefix_append _ _)
  rw [documented.heartbeatTopic config r.sourceId values.topics values.topicPrefix plain_source,landsOn_eq values,
    routed values documented,heartbeat_unrouted plain_source]
  simp only [heartbeat_routed values documented,heartbeat,if_true]

private theorem typed_member (t : Table) : typed t ∈ contract.tables := List.mem_map_of_mem (by cases t <;> decide)

private theorem member_typed {t : TypedTable} (inside : t ∈ contract.tables) : ∃ t', typed t' = t := by
  obtain ⟨t',_,same⟩ := List.mem_map.mp inside
  exact ⟨t',same⟩

/-- Whether a column is of the contract and shown, but for the case of its names. -/
def Shown (settings : CdcSettings) (r : SourceRecord) (schema table column : String) : Prop :=
  sameText (captureSchema contract r) schema ∧
    ∃ t, sameText (typed t).tableName table ∧ ∃ name ∈ (typed t).includeList settings.excludePii, sameText name column

private theorem captures_shown (values : Captures contract settings r config) {connect : Connect}
    (documented : Documented connect)
    (plain_schema : Plain (captureSchema contract r)) (plain_other : Plain schema) (plain_table : Plain table) :
    captures connect config schema table column = true ↔ Shown settings r schema table column := by
  rw [captures,values.tables,values.columns,documented.includes _ _ (tables_readable plain_schema),
    documented.includes _ _ (by rw [String.toList_ofList]; exact columns_readable plain_schema),String.toList_ofList,
    Bool.and_eq_true,tables_listed plain_schema,columns_listed plain_schema plain_other plain_table]
  constructor
  · rintro ⟨_,same,t,inside,rest⟩
    obtain ⟨t,rfl⟩ := member_typed inside
    exact ⟨same,t,rest⟩
  · rintro ⟨same,t,same_table,rest⟩
    exact ⟨⟨same,_,typed_member t,same_table⟩,same,_,typed_member t,same_table,rest⟩

/-- No column that a personal one is read from is shown. -/
theorem personal_hidden (withheld : settings.excludePii = true) (t : Table) {c : Column} (inside : c ∈ (typed t).columns)
    (personal : c.pii = true) {name : String} (candidate : name ∈ c.candidates) :
    ¬Shown settings r schema (typed t).tableName name := by
  rintro ⟨_,t',same_table,name',shown,same_name⟩
  have one_table := lower_same (tables_lower _ (typed_member t')) (tables_lower _ (typed_member t)) same_table
  obtain rfl := typed_named one_table
  rw [withheld] at shown
  obtain ⟨c',shows,candidate'⟩ := List.mem_flatMap.mp shown
  have one_name := lower_same (candidates_lower _ (typed_member t') c' (List.mem_of_mem_filter shows) name' candidate')
    (candidates_lower _ (typed_member t') c inside name candidate) same_name
  exact ((sound t').personal c inside personal).2 name candidate (one_name ▸ shown)

/-- The include lists of a source name exactly the columns that the contract shows, none of a personal one, and its events
    land on the topics that the sink reads, its heartbeats on none of them. -/
theorem capture_matches_contract {connect : Connect} (documented : Documented connect) {env : Environment} {sslmode : String}
    (built : buildConnectorConfig env sslmode contract settings r = .ok config) (kept : CaptureKept settings)
    (plain_schema : Plain (captureSchema contract r)) (valid : sourceIdPattern r.sourceId = true)
    (one_line : '\n' ∉ r.sourceId.toList) :
    (∀ schema table column, Plain schema → Plain table →
      (captures connect config schema table column = true ↔ Shown settings r schema table column)) ∧
    (settings.excludePii = true → ∀ t, ∀ c ∈ (typed t).columns, c.pii = true → ∀ name ∈ c.candidates,
      ∀ schema, Plain schema → captures connect config schema (typed t).tableName name = false) ∧
    (∀ t schema, Plain schema → schema ≠ "" →
      fineract.tableForTopic (landsOn connect config (connect.dataTopic config schema (typed t).tableName)) =
        some (typed t).sink) ∧
    fineract.tableForTopic (landsOn connect config (connect.heartbeatTopic config)) = none := by
  have values := built_captures built kept
  have plain_source := source_plain valid one_line
  have some_source : r.sourceId ≠ "" := by simpa using SourceNames.sourceId_some valid
  refine ⟨fun schema table column plain_other plain_table => captures_shown values documented plain_schema plain_other plain_table,
    fun withheld t c inside personal name candidate schema plain_other => ?_,fun t schema plain_other some_schema => ?_,?_⟩
  · rw [Bool.eq_false_iff,ne_eq,captures_shown values documented plain_schema plain_other (tables_plain _ (typed_member t))]
    exact personal_hidden withheld t inside personal candidate
  · rw [data_topic values documented plain_source some_source plain_other some_schema,tableForTopic_topic]
  · rw [heartbeat_topic values documented plain_source]
    decide +kernel

end

def bank : SourceRecord where
  sourceId := "bank-1"
  tenantId := "default"
  dbHost := some "db"
  dbName := some "fineract"
  dbUser := some "bi"
  secretRef := some "env:FBI_SRC_BANK_1_PASSWORD"
  labels := [("heartbeat_table",.string "public.fbi_heartbeat")]

/-- Nothing but variables of the source itself. -/
def bankEnvironment : Environment where
  allowed := fun name => "FBI_SRC_".toList.isPrefixOf name.toList
  sharedSecretRefs := ""
  secretDir := none
  getenv := fun _ => none
  realpath := fun _ => []
  lines := fun _ => none

def bankSettings : CdcSettings :=
  {maxCreatesPerRun := 5,maxDeletesPerRun := 10,deleteOrphans := true,overrides := [("max.batch.size","8192")]}

/-- A Debezium and a Kafka Connect that do what is documented. -/
def connect : Connect where
  includes list name := listed list.toList name.toList
  dataTopic config schema table := textOf config "topic.prefix" ++ "." ++ schema ++ "." ++ table
  heartbeatTopic config := "__debezium-heartbeat." ++ textOf config "topic.prefix"
  groups regex topic :=
    if regex = "[^.]+\\.[^.]+\\.(.*)" then (afterTwoDots topic.toList).map (fun rest => [topic,String.ofList rest])
    else if regex = "__debezium-heartbeat\\..*" ∧ isHeartbeat topic.toList then some [topic] else none
  transform _ _ topic := topic

private theorem connect_documented : Documented connect where
  includes _ _ _ := rfl
  dataTopic config server schema table _ found _ _ _ := by
    show textOf config "topic.prefix" ++ "." ++ schema ++ "." ++ table = _
    rw [textOf_eq found]
  heartbeatTopic config server _ found _ := by
    show "__debezium-heartbeat." ++ textOf config "topic.prefix" = _
    rw [textOf_eq found]
  route topic := by simp [connect]
  heartbeat topic := by simp [connect]

theorem capture_matches_contract_bank : ∃ config,
    buildConnectorConfig bankEnvironment "prefer" contract bankSettings bank = .ok config ∧
    captures connect config "public" "m_loan" "id" = true ∧ captures connect config "public" "m_client" "date_of_birth" = false ∧
    fineract.tableForTopic (landsOn connect config (connect.dataTopic config "public" "m_loan")) = some (typed .mLoan).sink ∧
    fineract.tableForTopic (landsOn connect config (connect.heartbeatTopic config)) = none := by
  cases built : buildConnectorConfig bankEnvironment "prefer" contract bankSettings bank with
  | error reason =>
    have is_built : (buildConnectorConfig bankEnvironment "prefer" contract bankSettings bank).toOption.isSome = true := by
      decide +kernel
    rw [built] at is_built
    cases is_built
  | ok config =>
    obtain ⟨exactly,withheld,lands,unread⟩ :=
      capture_matches_contract connect_documented built (by decide) (by decide +kernel) (by decide +kernel) (by decide +kernel)
    have shown : Shown bankSettings bank "public" "m_loan" "id" :=
      ⟨by decide +kernel,.mLoan,by decide +kernel,"id",by decide +kernel,by decide +kernel⟩
    have hidden := withheld rfl .mClient (personal "date" "date_of_birth") (by decide +kernel) rfl "date_of_birth"
      (by decide +kernel) "public" (by decide +kernel)
    exact ⟨config,rfl,(exactly _ _ _ (by decide +kernel) (by decide +kernel)).mpr shown,hidden,
      lands .mLoan "public" (by decide +kernel) (by decide +kernel),unread⟩

end FineractBi.ConnectorConfig
