import FineractBi.StageEncoding

/-!
Both engines stage the same row: what COPY reads of a row that the sink encoded
and of the same row that the extractor encoded agrees in every business column
that is available, and on which are not.
-/
namespace FineractBi.EngineParity
open Calendar IsoTime Numeral FineractBi.Routing FineractBi.Envelope FineractBi.FineractTables
open FineractBi.StageEncoding
open FineractBi.Contract (Table)

theorem roundAway_int (n : Int) : roundAway n = n := by
  have half (m : Int) : ⌊(m : Rat) + 1 / 2⌋ = m := by
    rw [Int.floor_intCast_add]
    norm_num
  unfold roundAway
  split
  · exact half n
  · have negated := half (-n)
    push_cast at negated
    rw [negated]
    exact neg_neg n

private theorem toNumeric_fits {n : Int} (fits : n.natAbs < 10 ^ 19) :
    toNumeric ((n : Rat) / 10 ^ 6) = some (.number ((n : Rat) / 10 ^ 6)) := by
  have scaled : (n : Rat) / 10 ^ 6 * 10 ^ 6 = n := div_mul_cancel₀ _ (by norm_num)
  simp only [toNumeric,scaled,roundAway_int,fits,if_true]

private theorem numericIn_text {d : Decimal} {n : Int} (value : d.toRat = some ((n : Rat) / 10 ^ 6))
    (fits : n.natAbs < 10 ^ 19) :
    numericIn d.text = some (.number ((n : Rat) / 10 ^ 6)) := by
  cases d with
  | nan => cases value
  | finite negative coefficient exponent =>
    rw [numericIn,Decimal.readDecimal_text,value]
    exact toNumeric_fits fits

private theorem typeIn_int {type : String} {n : Int} (fits : Fits type (.int n)) :
    typeIn type (toString n).toList = some (.int n) := by
  have within (bits : Nat) (range : InRange bits n) : intIn bits (toString n).toList = some n := by
    rw [intIn,readInt_toString,Option.filter_some,if_pos (by simpa [InRange] using range)]
  rcases fits with ⟨rfl,range⟩ | ⟨rfl,range⟩ | ⟨rfl,range⟩
  · rw [show typeIn "bigint" (toString n).toList = (intIn 64 (toString n).toList).map .int from rfl,within 64 range]
    rfl
  · rw [show typeIn "integer" (toString n).toList = (intIn 32 (toString n).toList).map .int from rfl,within 32 range]
    rfl
  · rw [show typeIn "smallint" (toString n).toList = (intIn 16 (toString n).toList).map .int from rfl,within 16 range]
    rfl

private theorem typeIn_boolean (b : Bool) : typeIn "boolean" (if b then ['t'] else ['f']) = some (.boolean b) := by
  cases b <;> rfl

private theorem typeIn_date {d : Date} (year : FourDigitYear d) : typeIn "date" (dateText d) = some (.date d) := by
  rw [show typeIn "date" (dateText d) = (readWholeDate (dateText d)).map .date from rfl,readWholeDate_text year]
  rfl

private theorem typeIn_instant {micros : Int} (year : FourDigitYear (dateOf micros)) {width : Nat} (digits : width ≤ 6)
    (exact' : 10 ^ (6 - width) ∣ clock micros % 1000000) (zone : Zone) :
    typeIn "timestamptz" (instantText zone width micros) = some (.timestamptz micros) := by
  rw [show typeIn "timestamptz" (instantText zone width micros) =
    (readInstant (instantText zone width micros)).map .timestamptz from rfl,readInstant_text year digits exact']
  rfl

private theorem typeIn_text (s : String) : typeIn "text" s.toList = some (.text s) := by
  simp [typeIn]

private theorem typeIn_numeric {d : Decimal} {q : Rat} (value : d.toRat = some q)
    (fits : Fits "numeric(19,6)" (.numeric (.number q))) :
    typeIn "numeric(19,6)" d.text = some (.numeric (.number q)) := by
  obtain ⟨n,rfl,small⟩ := fits.2 q rfl
  rw [show typeIn "numeric(19,6)" d.text = (numericIn d.text).map .numeric from rfl,numericIn_text value small]
  rfl

private theorem typeIn_nan {text : String} (named : text ∈ ["NaN","NAN"]) :
    typeIn "numeric(19,6)" text.toList = some (.numeric .nan) := by
  rcases List.mem_pair.mp named with rfl | rfl <;> decide +kernel

private theorem localDateText_eq {d : Date} (year : FourDigitYear d) : localDateText d = dateText d := by
  obtain ⟨lo,hi⟩ := year
  have positive : ¬ (toCivil d).1 < 0 := by omega
  have short : ¬ (toCivil d).1 > 9999 := by omega
  have four : (toCivil d).1.natAbs < 10000 := by omega
  have same : (toCivil d).1.natAbs = (toCivil d).1.toNat := by omega
  rw [localDateText,javaYear,if_neg positive,if_neg short,if_pos four,same,dateText]
  rfl

/-- An instant is printed with as many digits as it needs. -/
theorem typeIn_javaInstant {micros : Int} (year : FourDigitYear (dateOf micros)) :
    typeIn "timestamptz" (javaInstantText micros) = some (.timestamptz micros) := by
  have text (width : Nat) : localDateText (dateOf micros) ++ ('T' :: (clockText width (clock micros) ++ Zone.letter.text)) =
      instantText .letter width micros := by rw [localDateText_eq year,instantText]
  unfold javaInstantText
  split
  · next whole => exact text 0 ▸ typeIn_instant year (by decide) (by omega) .letter
  · split
    · next millis => exact text 3 ▸ typeIn_instant year (by decide) (by omega) .letter
    · exact text 6 ▸ typeIn_instant year (by decide) (by omega) .letter

private theorem typeIn_isoformat {micros : Int} (year : FourDigitYear (dateOf micros)) :
    typeIn "timestamptz" (isoformat micros) = some (.timestamptz micros) := by
  unfold isoformat
  split
  · next whole => exact typeIn_instant year (by decide) (by omega) .offset
  · exact typeIn_instant year (by decide) (by omega) .offset

/-- The field of a text that may be missing. -/
def fieldOf (value : Option String) : Csv.Field :=
  match value with
  | none => .null
  | some text => .quoted text.toList

private theorem append_render (value : Option String) : append value = (fieldOf value).render := by
  cases value <;> rfl

/-- A field that COPY reads as a value of the type. -/
def Tells (type : String) (value : Option PgValue) (field : Csv.Field) : Prop :=
  field.Proper ∧ fieldIn type field.value = some value

private theorem tells_null (type : String) : Tells type none .null := ⟨trivial,rfl⟩

private theorem tells_nothing (type : String) : Tells type none (fieldOf none) := tells_null type

private theorem tells_quoted {type : String} {v : PgValue} {text : List Char} (read : typeIn type text = some v) :
    Tells type (some v) (.quoted text) := by
  refine ⟨trivial,?_⟩
  rw [Csv.Field.value,fieldIn,read]
  rfl

private theorem plain_of_all {text : List Char} (plain : text.all (fun c => Csv.Plain c) = true) : ∀ c ∈ text, Csv.Plain c := by
  simpa using plain

private theorem tells_boolean (b : Bool) : Tells "boolean" (some (.boolean b)) (.bare (if b then ['t'] else ['f'])) := by
  cases b
  · exact ⟨⟨by simp,plain_of_all (by decide)⟩,rfl⟩
  · exact ⟨⟨by simp,plain_of_all (by decide)⟩,rfl⟩

/-- `csv_field` writes a field that says the value. -/
theorem csvField_tells {type : String} {value : Option PgValue} {py : PyValue} (represents : Represents value py)
    (fits : ∀ v, value = some v → Fits type v) : ∃ field : Csv.Field, csvField py = field.render ∧ Tells type value field := by
  cases value with
  | none =>
    obtain rfl : py = .none := represents
    exact ⟨.null,rfl,tells_null type⟩
  | some v =>
    have typed := fits v rfl
    cases v with
    | int n =>
      obtain rfl : py = .int n := represents
      exact ⟨.quoted _,rfl,tells_quoted (typeIn_int typed)⟩
    | boolean b =>
      obtain rfl : py = .bool b := represents
      obtain rfl : type = "boolean" := typed
      exact ⟨.bare (if b then ['t'] else ['f']),rfl,tells_boolean b⟩
    | text s =>
      obtain rfl : py = .str s := represents
      obtain ⟨rfl,_⟩ := typed
      exact ⟨.quoted _,rfl,tells_quoted (typeIn_text s)⟩
    | date d =>
      obtain rfl : py = .date d := represents
      obtain ⟨rfl,year⟩ := typed
      exact ⟨.quoted _,rfl,tells_quoted (typeIn_date year)⟩
    | timestamptz micros =>
      obtain rfl : py = .datetime micros := represents
      obtain ⟨rfl,year⟩ := typed
      exact ⟨.quoted _,rfl,tells_quoted (typeIn_isoformat year)⟩
    | numeric x =>
      obtain rfl : type = "numeric(19,6)" := typed.1
      cases x with
      | nan =>
        obtain rfl : py = .decimal .nan := represents
        exact ⟨.quoted _,rfl,tells_quoted (by decide +kernel)⟩
      | number q =>
        obtain ⟨d,number,rfl⟩ : ∃ d : Decimal, d.toRat = some q ∧ py = .decimal d := represents
        exact ⟨.quoted _,rfl,tells_quoted (typeIn_numeric number typed)⟩

section
variable {platform : Platform}

/-- A number of microseconds in years of four digits is a long. -/
theorem instant_long {micros : Int} (year : FourDigitYear (dateOf micros)) : InRange 64 micros := by
  obtain ⟨lo,hi⟩ := year.range
  have plain (d m : Int) (split : m / 86400000000 = d) (lo : -800000 ≤ d) (hi : d ≤ 4000000) : InRange 64 m := by
    rw [InRange]
    omega
  exact plain _ _ rfl lo hi

/-- A text that says something under its type is not the placeholder, unless it is of type text. -/
theorem not_placeholder {type : String} {v : PgValue} {text : List Char} (reads : typeIn type text = some v)
    (silent : typeIn type UNAVAILABLE_PLACEHOLDER.toList = none) :
    (Json.string (String.ofList text)).isPlaceholder = false := by
  refine decide_eq_false (fun same => ?_)
  rw [← same,String.toList_ofList,reads] at silent
  cases silent

private theorem toPgText_instant (epoch : Int) (cdcUnit : String) :
    toPgText platform (some (.int epoch)) "timestamptz" cdcUnit =
      (unchecked (if cdcUnit = "millis" then platform.instantOfMillis (platform.asLong (.int epoch) 0)
        else platform.instantOfMicros (platform.asLong (.int epoch) 0))).map some := by
  unfold toPgText
  simp

/-- `ValueConverter` on an epoch value. -/
theorem toPgText_epoch (java : Java platform) {micros epoch : Int} {cdcUnit : String}
    (year : FourDigitYear (dateOf micros)) (unit : cdcUnit = "micros" ∧ epoch = micros ∨
      cdcUnit = "millis" ∧ micros = epoch * 1000) :
    toPgText platform (some (.int epoch)) "timestamptz" cdcUnit = .ok (some (String.ofList (javaInstantText micros))) := by
  have long : InRange 64 micros := instant_long year
  rcases unit with ⟨rfl,rfl⟩ | ⟨rfl,rfl⟩
  · rw [toPgText_instant,if_neg (by decide),java.asLong _ 0 long,java.instantOfMicros]
    rfl
  · have long_millis : InRange 64 epoch := by
      simp only [InRange] at long ⊢
      omega
    rw [toPgText_instant,if_pos rfl,java.asLong _ 0 long_millis,java.instantOfMillis]
    rfl

theorem toPgText_date (java : Java platform) {d : Date} (year : FourDigitYear d) (cdcUnit : String) :
    toPgText platform (some (.int d)) "date" cdcUnit = .ok (some (String.ofList (dateText d))) := by
  obtain ⟨lo,hi⟩ := year.range
  have long : InRange 64 d := by
    have plain (n : Int) (lo : -800000 ≤ n) (hi : n ≤ 4000000) : InRange 64 n := by
      simp only [InRange]
      omega
    exact plain d lo hi
  have valid : -365243219162 ≤ d ∧ d ≤ 365241780471 :=
    ⟨le_trans (by decide) lo,le_trans hi (by decide)⟩
  unfold toPgText
  simp [java.asLong _ 0 long,java.localDate,valid,localDateText_eq year,unchecked,Except.map]

/-- A text is passed on as it is, for dates, times, numbers and text. -/
theorem toPgText_string (text : String) (cdcUnit : String) {type : String}
    (typed : type ∈ ["text","timestamptz","numeric(19,6)"]) :
    toPgText platform (some (.string text)) type cdcUnit = .ok (some text) := by
  unfold toPgText
  simp only [List.mem_cons,List.not_mem_nil,or_false] at typed
  rcases typed with rfl | rfl | rfl <;> simp [Json.asText]

private theorem toPgText_int (n : Int) (cdcUnit : String) {type : String} (typed : type ∈ ["bigint","integer","smallint"]) :
    toPgText platform (some (.int n)) type cdcUnit = .ok (some (toString n)) := by
  unfold toPgText
  simp only [List.mem_cons,List.not_mem_nil,or_false] at typed
  rcases typed with rfl | rfl | rfl <;> simp [Json.asText]

private theorem toPgText_boolean (b : Bool) (cdcUnit : String) :
    toPgText platform (some (.boolean b)) "boolean" cdcUnit = .ok (some (if b then "t" else "f")) := by
  unfold toPgText
  simp

/-- `ValueConverter` writes a text that says the value, and that is not the placeholder. -/
theorem toPgText_tells (java : Java platform) {c : Column} {value : Option PgValue} {node : Json}
    (encodes : Encodes c value node) (fits : ∀ v, value = some v → Fits c.type v) :
    node.isPlaceholder = false ∧ ∃ written : Option String,
      toPgText platform (some node) c.type c.cdcUnit = .ok written ∧ Tells c.type value (fieldOf written) := by
  cases value with
  | none =>
    obtain rfl : node = .null := encodes
    exact ⟨rfl,none,rfl,tells_nothing _⟩
  | some v =>
    have typed := fits v rfl
    obtain ⟨name,type,cdc,synthetic,pii,cdcUnit⟩ := c
    have written (text : List Char) (reads : typeIn type text = some v) :
        Tells type (some v) (fieldOf (some (String.ofList text))) := by
      rw [fieldOf,String.toList_ofList]
      exact tells_quoted reads
    cases v with
    | int n =>
      obtain rfl : node = .int n := encodes
      have whole : type ∈ ["bigint","integer","smallint"] := by
        rcases typed with ⟨type_eq,_⟩ | ⟨type_eq,_⟩ | ⟨type_eq,_⟩ <;> subst type_eq <;> simp
      exact ⟨rfl,_,toPgText_int n cdcUnit whole,tells_quoted (typeIn_int typed)⟩
    | boolean b =>
      obtain rfl : node = .boolean b := encodes
      obtain rfl : type = "boolean" := typed
      refine ⟨rfl,_,toPgText_boolean b cdcUnit,?_⟩
      have flag := written _ (typeIn_boolean b)
      cases b <;> exact flag
    | text s =>
      obtain rfl : node = .string s := encodes
      obtain ⟨rfl,other⟩ : type = "text" ∧ s ≠ UNAVAILABLE_PLACEHOLDER := typed
      exact ⟨by simp [Json.isPlaceholder,other],some s,toPgText_string s cdcUnit (by simp),tells_quoted (typeIn_text s)⟩
    | date d =>
      obtain rfl : node = .int d := encodes
      obtain ⟨rfl,year⟩ : type = "date" ∧ FourDigitYear d := typed
      exact ⟨rfl,_,toPgText_date java year cdcUnit,written _ (typeIn_date year)⟩
    | timestamptz micros =>
      obtain ⟨rfl,year⟩ : type = "timestamptz" ∧ FourDigitYear (dateOf micros) := typed
      rcases encodes with ⟨unit,rfl⟩ | ⟨unit,millis,value,rfl⟩ | ⟨zone,width,digits,exact',rfl⟩
      · exact ⟨rfl,_,toPgText_epoch java year (.inl ⟨unit,rfl⟩),written _ (typeIn_javaInstant year)⟩
      · exact ⟨rfl,_,toPgText_epoch java year (.inr ⟨unit,value⟩),written _ (typeIn_javaInstant year)⟩
      · have reads := typeIn_instant year digits exact' zone
        exact ⟨not_placeholder reads (by decide +kernel),_,toPgText_string _ cdcUnit (by simp),written _ reads⟩
    | numeric x =>
      obtain rfl : type = "numeric(19,6)" := typed.1
      cases x with
      | nan =>
        rcases encodes with rfl | rfl
        · exact ⟨by decide +kernel,some "NaN",toPgText_string _ cdcUnit (by simp),tells_quoted (typeIn_nan (by simp))⟩
        · exact ⟨by decide +kernel,some "NAN",toPgText_string _ cdcUnit (by simp),tells_quoted (typeIn_nan (by simp))⟩
      | number q =>
        obtain ⟨d,number,rfl⟩ : ∃ d : Decimal, d.toRat = some q ∧ node = .string (String.ofList d.text) := encodes
        have reads := typeIn_numeric number typed
        exact ⟨not_placeholder reads (by decide +kernel),_,toPgText_string _ cdcUnit (by simp),written _ reads⟩

/-! ### The parser reads what the connector captured -/

variable {t : TypedTable} {excludePii : Bool} {image : Json}

/-- Of the candidates that are captured the first one present is read, as the compat view shows it. -/
theorem first_present {base : BaseRow} (capture : Captured t excludePii base image) {c : Column} (column : c ∈ t.columns)
    {names : List String} (candidates : ∀ name ∈ names, name ∈ c.candidates)
    (included : ∀ name ∈ names, name ∈ t.includeList excludePii) (present : ∃ name ∈ names, (base name).isSome) :
    ∃ node, (names.find? image.has).bind image.get = some node ∧ Encodes c (names.findSome? base).join node := by
  induction names with
  | nil =>
    obtain ⟨name,inside,_⟩ := present
    cases inside
  | cons name rest ih =>
    cases held : base name with
    | none =>
      have missing : image.has name = false := by simp [Json.has,capture.others name (.inr held)]
      have later := ih (fun n inside => candidates n (List.mem_cons_of_mem _ inside))
        (fun n inside => included n (List.mem_cons_of_mem _ inside)) (by simpa [held] using present)
      simpa [missing,held] using later
    | some v =>
      obtain ⟨node,found,encodes⟩ := capture.columns name v (included name List.mem_cons_self) held
      refine ⟨node,by simp [Json.has,found],?_⟩
      simpa [held] using encodes c column (candidates name List.mem_cons_self)

/-- Of the candidates that are not captured none is read. -/
theorem none_present {base : BaseRow} (capture : Captured t excludePii base image) {names : List String}
    (excluded : ∀ name ∈ names, name ∉ t.includeList excludePii) : names.find? image.has = none := by
  rw [List.find?_eq_none]
  intro name inside
  simp [Json.has,capture.others name (.inl (excluded name inside))]

/-- The columns that the sink and the extractor report as unavailable. -/
def hidden (excludePii : Bool) (c : Column) : List String := if excludePii && c.pii then [c.name] else []

/-- What is shown lies in the type of the column. -/
theorem selected_fits (row : SourceRow t) {c : Column} (column : c ∈ t.columns) {v : PgValue}
    (value : selected excludePii row.base c = some v) : Fits c.type v := by
  cases made : c.synthetic with
  | true => simp [selected,made] at value
  | false =>
    cases withheld : excludePii && c.pii with
    | true => simp [selected,withheld] at value
    | false =>
      rw [selected,made,withheld] at value
      obtain ⟨name,inside,held⟩ := List.exists_of_findSome?_eq_some (Option.join_eq_some_iff.mp value)
      exact row.typed c column made name inside v held

/-- One column of the row image. -/
theorem readColumn_tells (java : Java platform) (valid : Sound t) (row : SourceRow t)
    (capture : Captured t excludePii row.base image) {c : Column} (column : c ∈ t.columns) :
    ∃ written : Option String, Tells c.type (selected excludePii row.base c) (fieldOf written) ∧
      ∀ acc, readColumn platform .UPSERT image acc c.spec = .ok ⟨acc.values ++ [written],
        acc.unavailable ++ hidden excludePii c,acc.absent ++ hidden excludePii c⟩ := by
  cases made : c.synthetic with
  | true =>
    have not_personal : c.pii = false := by
      by_contra personal
      have contradiction := (valid.personal c column (by simpa using personal)).1
      rw [made] at contradiction
      cases contradiction
    refine ⟨none,by simpa [selected,made] using tells_nothing c.type,fun acc => ?_⟩
    simp [readColumn,Column.spec,made,hidden,not_personal]
  | false =>
    cases withheld : excludePii && c.pii with
    | true =>
      obtain ⟨rfl,personal⟩ : excludePii = true ∧ c.pii = true := by simpa using withheld
      have nothing := none_present capture (valid.personal c column personal).2
      refine ⟨none,by simpa [selected,withheld] using tells_nothing c.type,fun acc => ?_⟩
      simp [readColumn,Column.spec,made,hidden,personal,nothing]
    | false =>
      have included : ∀ name ∈ c.candidates, name ∈ t.includeList excludePii := by
        intro name inside
        exact List.mem_flatMap.mpr ⟨c,List.mem_filter.mpr ⟨column,by simp [made,withheld]⟩,inside⟩
      obtain ⟨node,read,encodes⟩ := first_present capture column (fun _ inside => inside) included
        (row.present c column made)
      have value : selected excludePii row.base c = (c.candidates.findSome? row.base).join := by
        simp [selected,made,withheld,shown]
      obtain ⟨other,written,text,tells⟩ := toPgText_tells java encodes
        (fun v same => selected_fits row column (value.trans same))
      refine ⟨written,value ▸ tells,fun acc => ?_⟩
      simp [readColumn,Column.spec,made,hidden,withheld,read,other,text,Except.map]

/-- All columns of the row image. -/
theorem readColumns_tell (java : Java platform) (valid : Sound t) (row : SourceRow t)
    (capture : Captured t excludePii row.base image) {columns : List Column} (some_columns : ∀ c ∈ columns, c ∈ t.columns) :
    ∃ written : List (Option String),
      List.Forall₂ (fun c w => Tells c.type (selected excludePii row.base c) (fieldOf w)) columns written ∧
      ∀ acc, ∃ absent, (columns.map Column.spec).foldlM (readColumn platform .UPSERT image) acc =
        .ok ⟨acc.values ++ written,acc.unavailable ++ columns.flatMap (hidden excludePii),absent⟩ := by
  induction columns with
  | nil => exact ⟨[],.nil,fun acc => ⟨acc.absent,by simp [pure,Except.pure]⟩⟩
  | cons c rest ih =>
    obtain ⟨first,tells,read⟩ := readColumn_tells java valid row capture (some_columns c List.mem_cons_self)
    obtain ⟨others,all_tell,read_rest⟩ := ih (fun d inside => some_columns d (List.mem_cons_of_mem _ inside))
    refine ⟨first :: others,.cons tells all_tell,fun acc => ?_⟩
    obtain ⟨absent,later⟩ := read_rest ⟨acc.values ++ [first],acc.unavailable ++ hidden excludePii c,
      acc.absent ++ hidden excludePii c⟩
    refine ⟨absent,?_⟩
    rw [List.map_cons,List.foldlM_cons,read acc]
    simpa [bind,Except.bind] using later

/-- A field that says a value is not NULL. -/
theorem Tells.present {type : String} {v : PgValue} {w : Option String} (tells : Tells type (some v) (fieldOf w)) :
    w ≠ none := by
  rintro rfl
  cases tells.2

/-- The key of the row is read. -/
theorem key_present (valid : Sound t) (row : SourceRow t) {written : List (Option String)}
    (tell : List.Forall₂ (fun c w => Tells c.type (selected excludePii row.base c) (fieldOf w)) t.columns written) :
    (written[t.sink.columns.findIdx (fun col => col.name = t.sink.primaryKey)]?).join ≠ none := by
  obtain ⟨c,column,named⟩ := t.keyed
  have index : t.sink.columns.findIdx (fun col => col.name = t.sink.primaryKey) =
      t.columns.findIdx (fun c => c.name = t.primaryKey) := by
    simp only [TypedTable.sink,List.findIdx_map]
    rfl
  have inside : t.columns.findIdx (fun c => c.name = t.primaryKey) < t.columns.length :=
    List.findIdx_lt_length_of_exists ⟨c,column,by simpa using named⟩
  have is_key : (t.columns[t.columns.findIdx (fun c => c.name = t.primaryKey)]).name = t.primaryKey := by
    simpa using List.findIdx_getElem (w := inside)
  generalize t.columns.findIdx (fun c => c.name = t.primaryKey) = i at *
  have key_column : t.columns[i] ∈ t.columns := List.getElem_mem inside
  obtain ⟨made,personal⟩ := valid.key _ key_column is_key
  obtain ⟨length,each⟩ := List.forall₂_iff_get.mp tell
  have tells := each i inside (length ▸ inside)
  obtain ⟨v,value⟩ := Option.isSome_iff_exists.mp (row.keyed _ key_column is_key)
  simp only [List.get_eq_getElem] at tells
  rw [show selected excludePii row.base t.columns[i] = some v by simp [selected,made,personal,value]] at tells
  rw [index,List.getElem?_eq_getElem (length ▸ inside),Option.join_some]
  exact tells.present

private theorem hidden_withheld (columns : List Column) (excludePii : Bool) : columns.flatMap (hidden excludePii) =
    if excludePii then (columns.filter (·.pii)).map (·.name) else [] := by
  cases excludePii with
  | false => simp [hidden]
  | true =>
    induction columns with
    | nil => rfl
    | cons c rest ih =>
      rw [List.flatMap_cons,ih]
      cases personal : c.pii <;> simp [hidden,personal]

/-- The change of a row is read. -/
theorem readChange_tells (java : Java platform) (valid : Sound t) (row : SourceRow t)
    (capture : Captured t excludePii row.base image) (topic : String) {op sourceId : String}
    {root : Json} (upsert : op ∈ ["c","r","u"]) (after : root.path "after" = image)
    (named : text (root.path "source") "name" = some sourceId)
    (same_table : ∀ table, text (root.path "source") "table" = some table → table = t.tableName) :
    ∃ event, readChange platform topic t.sink root op = .ok event ∧ event.op = .UPSERT ∧
      event.unavailable = t.withheld excludePii ∧
      List.Forall₂ (fun c w => Tells c.type (selected excludePii row.base c) (fieldOf w)) t.columns event.values := by
  obtain ⟨written,tell,read⟩ := readColumns_tell java valid row capture (fun (c : Column) (inside : c ∈ t.columns) => inside)
  obtain ⟨absent,whole⟩ := read ⟨[],[],[]⟩
  have key := key_present valid row tell
  have image_read : rowImage t.sink root op = .ok (.UPSERT,image) := by
    simp only [List.mem_cons,List.not_mem_nil,or_false] at upsert
    simp [rowImage,upsert,after]
  have columns : t.sink.columns = t.columns.map Column.spec := rfl
  rw [columns] at key
  have matching : ∀ table, text (root.path "source") "table" = some table → ¬ table ≠ t.sink.tableName :=
    fun table found => not_not.mpr (same_table table found)
  have rows : (!image.isObject) = false := by simp [capture.object]
  refine ⟨⟨sourceId,t.tableName,.UPSERT,written,t.columns.flatMap (hidden excludePii),
    if (root.path "source").hasNonNull "lsn" then some (platform.asLong ((root.path "source").path "lsn") 0) else none,
    if (root.path "source").hasNonNull "ts_us" then platform.asLong ((root.path "source").path "ts_us") 0
      else javaLong (platform.asLong ((root.path "source").path "ts_ms") platform.currentTimeMillis * 1000),absent⟩,
    ?_,rfl,hidden_withheld t.columns excludePii,tell⟩
  unfold readChange
  simp only [named,image_read,columns]
  cases table : text (root.path "source") "table" with
  | none =>
    simp only [bind,Except.bind,pure,Except.pure,rows,whole,List.nil_append,key,if_false,Bool.false_eq_true]
    rfl
  | some name =>
    simp only [matching name table,bind,Except.bind,pure,Except.pure,rows,whole,List.nil_append,key,if_false,
      Bool.false_eq_true]
    rfl

/-- The message of a row is parsed into an upsert of its values. -/
theorem parse_tells (java : Java platform) {table : Table} (row : SourceRow (typed table))
    (capture : Captured (typed table) excludePii row.base image) {sourceId : String} {bytes : Bytes}
    (message : Message platform (typed table) sourceId bytes image) :
    ∃ event, parse platform fineract (topic table) (some bytes) = .ok (some event) ∧ event.op = .UPSERT ∧
      event.unavailable = (typed table).withheld excludePii ∧
      List.Forall₂ (fun c w => Tells c.type (selected excludePii row.base c) (fieldOf w)) (typed table).columns
        event.values := by
  obtain ⟨node,root,op,tree,object,unwrapped,op_text,upsert,after,named,same_table⟩ := message.envelope
  obtain ⟨first,rest,rfl⟩ := List.exists_cons_of_ne_nil message.content
  obtain ⟨event,changed,facts⟩ := readChange_tells java (sound table) row capture (topic table) upsert after named
    same_table
  have not_message : op ≠ "m" := by
    rintro rfl
    simp at upsert
  refine ⟨event,?_,facts⟩
  simp only [parse,tableForTopic_topic,tree,object,← unwrapped,op_text,not_message,changed,Bool.not_true,
    Bool.false_eq_true,if_false]
  rfl

end

private theorem renderRecord_cons (f : Csv.Field) (fields : List Csv.Field) :
    Csv.renderRecord (f :: fields) = f.render ++ fields.flatMap (fun g => ',' :: g.render) ++ ['\n'] := by
  induction fields generalizing f with
  | nil => simp [Csv.renderRecord,Csv.NEWLINE]
  | cons g rest ih => simp [Csv.renderRecord,Csv.COMMA,ih]

theorem joinFields_render {fields : List Csv.Field} (some_field : fields ≠ []) :
    joinFields (fields.map Csv.Field.render) ++ ['\n'] = Csv.renderRecord fields := by
  induction fields with
  | nil => exact absurd rfl some_field
  | cons f rest ih =>
    cases rest with
    | nil => rfl
    | cons g others =>
      have later := ih (by simp)
      simp only [List.map_cons] at later
      simp only [List.map_cons,joinFields,Csv.renderRecord,List.append_assoc,List.cons_append,later]
      rfl

private theorem digit_plain {c : Char} (digit : c.isDigit = true) : Csv.Plain c := by
  refine ⟨?_,?_,?_,?_⟩ <;> rintro rfl <;> exact absurd digit (by decide)

/-- A number needs no quotes. -/
theorem int_proper (n : Int) : (Csv.Field.bare (toString n).toList).Proper := by
  rw [Int.toString_eq_repr,Int.repr_eq_if]
  split
  · rw [Nat.toList_repr]
    exact ⟨toDigits_ne_nil _,fun c inside => digit_plain (toDigits_isDigit inside)⟩
  · rw [String.toList_append,Nat.toList_repr]
    refine ⟨by simp,fun c inside => ?_⟩
    rcases List.mem_append.mp inside with sign | digit
    · obtain rfl : c = '-' := by simpa using sign
      decide
    · exact digit_plain (toDigits_isDigit digit)

private theorem stageTarget_proper {target : RouteTarget} {name : String} (staged : target.stageTarget = some name) :
    (Csv.Field.bare name.toList).Proper := by
  have named : name = "prod" ∨ name = "shadow" := by
    cases target <;> simp [RouteTarget.stageTarget] at staged <;> simp [← staged]
  rcases named with rfl | rfl
  · exact ⟨by simp,plain_of_all (by decide)⟩
  · exact ⟨by simp,plain_of_all (by decide)⟩

theorem fieldOf_proper (value : Option String) : (fieldOf value).Proper := by
  cases value <;> trivial

/-- The values of a record. -/
theorem fieldsIn_tell {columns : List Column} {value : Column → Option PgValue} {fields : List Csv.Field}
    (tell : List.Forall₂ (fun c f => Tells c.type (value c) f) columns fields) :
    fieldsIn columns (fields.map Csv.Field.value) = some (columns.map value) := by
  induction tell with
  | nil => rfl
  | cons first _ ih =>
    rw [List.map_cons,fieldsIn,first.2,ih]
    rfl

private theorem tell_proper {columns : List Column} {value : Column → Option PgValue} {fields : List Csv.Field}
    (tell : List.Forall₂ (fun c f => Tells c.type (value c) f) columns fields) : ∀ f ∈ fields, f.Proper := by
  induction tell with
  | nil => simp
  | cons first _ ih =>
    intro f inside
    rcases List.mem_cons.mp inside with rfl | later
    · exact first.1
    · exact ih f later

/-- A record whose business fields tell the values and whose array is read is staged. -/
theorem copyIn_record {t : TypedTable} {value : Column → Option PgValue} {source tenant generation lsn ts op names epoch
    target : Csv.Field} {business : List Csv.Field} {unavailable : List (Option (List Char))}
    (tell : List.Forall₂ (fun c f => Tells c.type (value c) f) t.columns business)
    (proper : ∀ f ∈ [source,tenant,generation,lsn,ts,op,names,epoch,target], f.Proper)
    (hidden : unavailableIn names.value = some unavailable) :
    copyIn t (Csv.renderRecord (source :: tenant :: (business ++ [generation,lsn,ts,op,names,epoch,target]))) =
      some [⟨t.columns.map value,unavailable⟩] := by
  have length : business.length = t.columns.length := tell.length_eq.symm
  have all_proper : ∀ f ∈ source :: tenant :: (business ++ [generation,lsn,ts,op,names,epoch,target]), f.Proper := by
    intro f inside
    simp only [List.mem_cons,List.mem_append,List.not_mem_nil,or_false] at inside proper
    rcases inside with rfl | rfl | within | others
    · exact proper _ (.inl rfl)
    · exact proper _ (.inr (.inl rfl))
    · exact tell_proper tell f within
    · exact proper f (.inr (.inr others))
  have read : Csv.records (Csv.renderRecord (source :: tenant :: (business ++ [generation,lsn,ts,op,names,epoch,target]))) =
      some [(source :: tenant :: (business ++ [generation,lsn,ts,op,names,epoch,target])).map Csv.Field.value] := by
    have each : ∀ fields ∈ [source :: tenant :: (business ++ [generation,lsn,ts,op,names,epoch,target])],
        ∀ f ∈ fields, f.Proper := by simpa using all_proper
    simpa using Csv.records_render each (by simp)
  rw [copyIn,read,Option.bind_some]
  have rest : ((source :: tenant :: (business ++ [generation,lsn,ts,op,names,epoch,target])).map Csv.Field.value).drop
      (2 + t.columns.length) = [generation,lsn,ts,op,names,epoch,target].map Csv.Field.value := by
    simp [← length,Nat.add_comm 2]
  have middle : (((source :: tenant :: (business ++ [generation,lsn,ts,op,names,epoch,target])).map
      Csv.Field.value).drop 2).take t.columns.length = business.map Csv.Field.value := by
    simp [← length]
  have record : recordIn t ((source :: tenant :: (business ++ [generation,lsn,ts,op,names,epoch,target])).map
      Csv.Field.value) = some ⟨t.columns.map value,unavailable⟩ := by
    rw [recordIn,rest,middle]
    simp only [List.map_cons,List.map_nil,fieldsIn_tell tell,hidden,Option.bind_some,Option.map_some]
  rw [List.mapM_cons,record]
  rfl

/-! ### The two lines of a row -/

/-- The names of the hidden columns, as the sink and as the extractor write them. -/
theorem unavailable_read {t : TypedTable} (valid : Sound t) (excludePii : Bool) :
    unavailableIn (fieldOf (identifierArray (t.withheld excludePii))).value =
      some ((t.withheld excludePii).map (fun name => some name.toList)) ∧
    ArrayText.read (ArrayText.braces ((t.withheld excludePii).map (fun name => ArrayText.quoted name.toList))) =
      some ((t.withheld excludePii).map (fun name => some name.toList)) := by
  have plain : ∀ text ∈ (t.withheld excludePii).map String.toList, ArrayText.Reads text text := by
    intro text inside
    obtain ⟨name,withheld,rfl⟩ := List.mem_map.mp inside
    unfold TypedTable.withheld at withheld
    split at withheld
    · obtain ⟨c,column,rfl⟩ := List.mem_map.mp withheld
      obtain ⟨inside,personal⟩ := List.mem_filter.mp column
      obtain ⟨some_char,bare,named⟩ := valid.names c inside personal
      exact ArrayText.reads_name (by simpa using bare) some_char named
    · cases withheld
  have bare_read := ArrayText.read_braces id plain
  have quoted_read := ArrayText.read_braces ArrayText.quoted
    (fun text (_ : text ∈ (t.withheld excludePii).map String.toList) => ArrayText.reads_quoted text)
  rw [List.map_id,List.map_map] at bare_read
  rw [List.map_map,List.map_map] at quoted_read
  refine ⟨?_,quoted_read⟩
  unfold identifierArray
  split
  · next nothing => simp [nothing,fieldOf,Csv.Field.value,unavailableIn]
  · rw [fieldOf,Csv.Field.value,unavailableIn,String.toList_ofList]
    exact bare_read

/-- A number that may be missing. -/
def numberField (number : Option Int) : Csv.Field :=
  match number with
  | none => .null
  | some n => .bare (toString n).toList

private theorem numberField_proper (number : Option Int) : (numberField number).Proper := by
  cases number with
  | none => trivial
  | some n => exact int_proper n

private theorem numberField_render (number : Option Int) :
    (number.map (fun n => (toString n).toList)).getD [] = (numberField number).render := by
  cases number <;> rfl

/-- The fields of a line of the sink. -/
def eventFields (e : ChangeEvent) (route : Route) (stageTarget : String) : List Csv.Field :=
  fieldOf (some e.sourceId) :: fieldOf route.tenantId :: (e.values.map fieldOf ++
    [numberField (some route.generation),numberField e.lsn,
    fieldOf (some (String.ofList (javaInstantText e.sourceTsMicros))),.bare (if e.op = .DELETE then ['d'] else ['u']),
    fieldOf (identifierArray e.unavailable),numberField (some route.epoch),.bare stageTarget.toList])

theorem encodeLine_render (e : ChangeEvent) (route : Route) (stageTarget : String) :
    encodeLine e route stageTarget = Csv.renderRecord (eventFields e route stageTarget) := by
  rw [eventFields,renderRecord_cons]
  simp only [encodeLine,append_render,numberField_render,numberField,List.flatMap_cons,List.flatMap_nil,
    List.flatMap_append,List.flatMap_map,Csv.Field.render,List.append_assoc,List.cons_append,List.nil_append,
    List.append_nil]

theorem eventFields_proper (e : ChangeEvent) {route : Route} {stageTarget : String}
    (staged : route.target.stageTarget = some stageTarget) : ∀ f ∈ eventFields e route stageTarget, f.Proper := by
  have op : (Csv.Field.bare (if e.op = .DELETE then ['d'] else ['u'])).Proper := by
    split
    · exact ⟨by simp,plain_of_all (by decide)⟩
    · exact ⟨by simp,plain_of_all (by decide)⟩
  intro f inside
  simp only [eventFields,List.mem_cons,List.mem_append,List.mem_map,List.not_mem_nil,or_false] at inside
  rcases inside with rfl | rfl | ⟨value,_,rfl⟩ | rfl | rfl | rfl | rfl | rfl | rfl | rfl
  · exact fieldOf_proper _
  · exact fieldOf_proper _
  · exact fieldOf_proper _
  · exact numberField_proper _
  · exact numberField_proper _
  · exact fieldOf_proper _
  · exact op
  · exact fieldOf_proper _
  · exact numberField_proper _
  · exact stageTarget_proper staged

/-- What COPY reads of a line of the sink. -/
theorem copyIn_encode {t : TypedTable} (valid : Sound t) {excludePii : Bool} {value : Column → Option PgValue}
    {e : ChangeEvent} (unavailable : e.unavailable = t.withheld excludePii)
    (tell : List.Forall₂ (fun c w => Tells c.type (value c) (fieldOf w)) t.columns e.values) {route : Route}
    {stageTarget : String} (staged : route.target.stageTarget = some stageTarget) :
    copyIn t (encode [(e,route,stageTarget)]) =
      some [⟨t.columns.map value,(t.withheld excludePii).map (fun name => some name.toList)⟩] := by
  have business : List.Forall₂ (fun c f => Tells c.type (value c) f) t.columns (e.values.map fieldOf) :=
    List.forall₂_map_right_iff.mpr tell
  have line : encode [(e,route,stageTarget)] = Csv.renderRecord (eventFields e route stageTarget) := by
    simp only [encode,List.flatMap_cons,List.flatMap_nil,List.append_nil,encodeLine_render]
  have proper := eventFields_proper e staged
  rw [line]
  refine copyIn_record business (fun f inside => proper f ?_) (unavailable ▸ (unavailable_read valid excludePii).1)
  simp only [eventFields,List.mem_cons,List.mem_append,List.not_mem_nil,or_false] at inside ⊢
  rcases inside with first | second | others
  · exact .inl first
  · exact .inr (.inl second)
  · exact .inr (.inr (.inr others))

private theorem row_fields {columns : List Column} {value : Column → Option PgValue} {row : List PyValue}
    (tell : List.Forall₂ (fun c py => ∃ f : Csv.Field, csvField py = f.render ∧ Tells c.type (value c) f) columns row) :
    ∃ business : List Csv.Field, row.map csvField = business.map Csv.Field.render ∧
      List.Forall₂ (fun c f => Tells c.type (value c) f) columns business := by
  induction tell with
  | nil => exact ⟨[],rfl,.nil⟩
  | cons first _ ih =>
    obtain ⟨f,text,tells⟩ := first
    obtain ⟨rest,texts,rest_tell⟩ := ih
    exact ⟨f :: rest,by rw [List.map_cons,List.map_cons,text,texts],.cons tells rest_tell⟩

/-- What COPY reads of a row of the extractor. -/
theorem copyIn_payload {t : TypedTable} (valid : Sound t) {excludePii : Bool} {value : Column → Option PgValue}
    {row : List PyValue}
    (tell : List.Forall₂ (fun c py => ∃ f : Csv.Field, csvField py = f.render ∧ Tells c.type (value c) f) t.columns row)
    (w : PageWrite) :
    copyIn t (buildCopyPayload [stagedTuple w "u" (t.withheld excludePii) row]) =
      some [⟨t.columns.map value,(t.withheld excludePii).map (fun name => some name.toList)⟩] := by
  obtain ⟨business,written,business_tell⟩ := row_fields tell
  obtain ⟨names,names_proper,names_text,names_read⟩ : ∃ names : Csv.Field, names.Proper ∧
      csvField (if t.withheld excludePii ≠ [] ∧ "u" ≠ "d" then .list (t.withheld excludePii) else .none) = names.render ∧
      unavailableIn names.value = some ((t.withheld excludePii).map (fun name => some name.toList)) := by
    by_cases nothing : t.withheld excludePii = []
    · exact ⟨.null,trivial,by simp [nothing,csvField,Csv.Field.render],by simp [nothing,Csv.Field.value,unavailableIn]⟩
    · refine ⟨.quoted (ArrayText.braces ((t.withheld excludePii).map
        (fun name : String => ArrayText.quoted name.toList))),trivial,?_,(unavailable_read valid excludePii).2⟩
      rw [if_pos ⟨nothing,by decide⟩]
      rfl
  have line : buildCopyPayload [stagedTuple w "u" (t.withheld excludePii) row] = Csv.renderRecord
      (.quoted w.sourceId.toList :: .quoted w.tenantId.toList :: (business ++ [.quoted (toString w.captureGeneration).toList,
        .null,.quoted (isoformat w.sourceTs),.quoted ['u'],names,.quoted (toString w.epoch).toList,
        .quoted w.target.toList])) := by
    have fields : (stagedTuple w "u" (t.withheld excludePii) row).map csvField =
        (Csv.Field.quoted w.sourceId.toList :: .quoted w.tenantId.toList :: (business ++
          [.quoted (toString w.captureGeneration).toList,.null,.quoted (isoformat w.sourceTs),.quoted ['u'],names,
          .quoted (toString w.epoch).toList,.quoted w.target.toList])).map Csv.Field.render := by
      simp only [stagedTuple,List.map_append,List.map_cons,List.map_nil,written,names_text,List.cons_append,
        List.nil_append]
      rfl
    rw [buildCopyPayload,List.flatMap_cons,List.flatMap_nil,List.append_nil,fields,joinFields_render (by simp)]
  rw [line]
  refine copyIn_record business_tell ?_ names_read
  intro f inside
  simp only [List.mem_cons,List.not_mem_nil,or_false] at inside
  rcases inside with rfl | rfl | rfl | rfl | rfl | rfl | rfl | rfl | rfl
  all_goals first | exact names_proper | trivial

/-- The staged record of the sink and that of the extractor are read as one: the same value in
    every column, and the same columns unavailable. -/
theorem engines_stage_same_row (table : Table) (excludePii : Bool) {platform : Platform} (java : Java platform)
    (row : StageEncoding.SourceRow (typed table)) {image : Json}
    (capture : Captured (typed table) excludePii row.base image) {sourceId : String} {bytes : Bytes}
    (message : Message platform (typed table) sourceId bytes image) {fetched : List PyValue}
    (fetch : Fetched (typed table) excludePii row.base fetched) {route : Route} {stageTarget : String}
    (staged : route.target.stageTarget = some stageTarget) (w : PageWrite) :
    ∃ event record, parse platform fineract (topic table) (some bytes) = .ok (some event) ∧
      copyIn (typed table) (encode [(event,route,stageTarget)]) = some [record] ∧
      copyIn (typed table) (buildCopyPayload [stagedTuple w "u" ((typed table).withheld excludePii) fetched]) =
        some [record] ∧
      record.values = (typed table).columns.map (selected excludePii row.base) ∧
      ∀ name, record.Unavailable name ↔ name ∈ (typed table).withheld excludePii := by
  obtain ⟨event,parsed,_,unavailable,tell⟩ := parse_tells java row capture message
  have valid := sound table
  have python_tell : List.Forall₂ (fun c py => ∃ f : Csv.Field, csvField py = f.render ∧
      Tells c.type (selected excludePii row.base c) f) (typed table).columns fetched := by
    obtain ⟨length,each⟩ := List.forall₂_iff_get.mp fetch
    exact List.forall₂_iff_get.mpr ⟨length,fun i here there =>
      csvField_tells (each i here there) (fun _ => selected_fits row (List.get_mem _ _))⟩
  refine ⟨event,_,parsed,copyIn_encode valid unavailable tell staged,copyIn_payload valid python_tell w,rfl,?_⟩
  intro name
  simp only [Staged.Unavailable,List.mem_map,Option.some.injEq,String.toList_inj]
  exact ⟨fun ⟨_,inside,same⟩ => same ▸ inside,fun inside => ⟨name,inside,rfl⟩⟩

/-- A column, what the source holds in it, and what the connector and the driver make of that. -/
structure Cell where
  column : Column
  value : Option PgValue
  node : Json
  py : PyValue

def baseOf (cells : List Cell) : BaseRow := fun name => (cells.find? (·.column.name = name)).map (·.value)

def imageOf (cells : List Cell) : Json := .object (cells.map (fun cell => (cell.column.name,cell.node)))

/-- One cell for each column, all of them captured under their own names. -/
structure Cells (t : TypedTable) (cells : List Cell) : Prop where
  columns : t.columns = cells.map (·.column)
  named : (cells.map (·.column.name)).Nodup
  plain : ∀ cell ∈ cells, cell.column.candidates = [cell.column.name] ∧ cell.column.synthetic = false ∧ cell.column.pii = false
  fits : ∀ cell ∈ cells, ∀ v, cell.value = some v → Fits cell.column.type v
  encodes : ∀ cell ∈ cells, Encodes cell.column cell.value cell.node
  represents : ∀ cell ∈ cells, Represents cell.value cell.py
  keyed : ∀ cell ∈ cells, cell.column.name = t.primaryKey → cell.value.isSome

private theorem imageOf_get (cells : List Cell) (name : String) :
    (imageOf cells).get name = (cells.find? (·.column.name = name)).map (·.node) := by
  induction cells with
  | nil => rfl
  | cons cell rest ih =>
    simp only [imageOf,Json.get,List.map_cons,List.lookup_cons,List.find?_cons] at ih ⊢
    by_cases same : cell.column.name = name
    · simp [same]
    · have differs : (name == cell.column.name) = false := beq_eq_false_iff_ne.mpr (Ne.symm same)
      simp [same,differs,ih]

namespace Cells
variable {t : TypedTable} {cells : List Cell}

private theorem same_cell (given : Cells t cells) {cell other : Cell} (first : cell ∈ cells) (second : other ∈ cells)
    (name : cell.column.name = other.column.name) : cell = other :=
  List.inj_on_of_nodup_map given.named first second name

private theorem find (given : Cells t cells) {cell : Cell} (member : cell ∈ cells) :
    cells.find? (·.column.name = cell.column.name) = some cell := by
  cases found : cells.find? (·.column.name = cell.column.name) with
  | none => exact absurd (List.find?_eq_none.mp found cell member) (by simp)
  | some other =>
    have name : other.column.name = cell.column.name := by simpa using List.find?_some found
    rw [given.same_cell (List.mem_of_find?_eq_some found) member name]

private theorem of_column (given : Cells t cells) {c : Column} (column : c ∈ t.columns) : ∃ cell ∈ cells, cell.column = c :=
  List.mem_map.mp (given.columns ▸ column)

private theorem of_candidate (given : Cells t cells) {c : Column} (column : c ∈ t.columns) {name : String}
    (candidate : name ∈ c.candidates) : ∃ cell ∈ cells, cell.column = c ∧ name = cell.column.name := by
  obtain ⟨cell,member,rfl⟩ := given.of_column column
  rw [(given.plain cell member).1] at candidate
  exact ⟨cell,member,rfl,List.mem_singleton.mp candidate⟩

theorem base (given : Cells t cells) {cell : Cell} (member : cell ∈ cells) :
    baseOf cells cell.column.name = some cell.value := by
  rw [baseOf,given.find member]
  rfl

theorem shown (given : Cells t cells) {cell : Cell} (member : cell ∈ cells) :
    StageEncoding.shown (baseOf cells) cell.column = cell.value := by
  simp [StageEncoding.shown,(given.plain cell member).1,given.base member]

/-- The row of the source. -/
def row (given : Cells t cells) : StageEncoding.SourceRow t where
  base := baseOf cells
  present c column _ := by
    obtain ⟨cell,member,rfl⟩ := given.of_column column
    exact ⟨cell.column.name,by simp [(given.plain cell member).1],by rw [given.base member]; rfl⟩
  typed c column _ name candidate v held := by
    obtain ⟨cell,member,rfl,rfl⟩ := given.of_candidate column candidate
    exact given.fits cell member v (Option.some.inj ((given.base member).symm.trans held))
  keyed c column key := by
    obtain ⟨cell,member,rfl⟩ := given.of_column column
    rw [given.shown member]
    exact given.keyed cell member key

theorem captured (given : Cells t cells) (excludePii : Bool) : Captured t excludePii given.row.base (imageOf cells) where
  object := rfl
  columns name v _ held := by
    obtain ⟨cell,found,rfl⟩ := Option.map_eq_some_iff.mp held
    have member := List.mem_of_find?_eq_some found
    refine ⟨cell.node,by rw [imageOf_get,found]; rfl,fun c column candidate => ?_⟩
    obtain ⟨other,member',rfl,rfl⟩ := given.of_candidate column candidate
    have same : cell = other := given.same_cell member member' (by simpa using List.find?_some found)
    rw [← same]
    exact given.encodes cell member
  others name missing := by
    rw [imageOf_get]
    cases found : cells.find? (·.column.name = name) with
    | none => rfl
    | some cell =>
      have member := List.mem_of_find?_eq_some found
      obtain rfl : cell.column.name = name := by simpa using List.find?_some found
      obtain ⟨candidates,synthetic,pii⟩ := given.plain cell member
      have included : cell.column.name ∈ t.includeList excludePii := by
        refine List.mem_flatMap.mpr ⟨cell.column,List.mem_filter.mpr ⟨?_,by simp [synthetic,pii]⟩,by simp [candidates]⟩
        exact given.columns ▸ List.mem_map_of_mem member
      have held : given.row.base cell.column.name = some cell.value := given.base member
      rcases missing with absent | nothing
      · exact absurd included absent
      · rw [held] at nothing
        cases nothing

theorem fetched (given : Cells t cells) (excludePii : Bool) : Fetched t excludePii given.row.base (cells.map (·.py)) := by
  rw [Fetched,given.columns,List.forall₂_map_left_iff,List.forall₂_map_right_iff,List.forall₂_same]
  intro cell member
  obtain ⟨_,synthetic,pii⟩ := given.plain cell member
  have selected_value : selected excludePii given.row.base cell.column = cell.value := by
    rw [selected,if_neg (by simp [synthetic,pii])]
    exact given.shown member
  rw [selected_value]
  exact given.represents cell member

end Cells

/-- A cell that is NULL. -/
def emptyCell (column : Column) : Cell := ⟨column,none,.null,.none⟩

def repaymentCells : List Cell :=
  [⟨plain "bigint" "id",some (.int 7),.int 7,.int 7⟩,⟨plain "bigint" "loan_id",some (.int 3),.int 3,.int 3⟩,
    emptyCell (plain "bigint" "office_id"),⟨plain "boolean" "is_reversed",some (.boolean false),.boolean false,.bool false⟩,
    ⟨plain "smallint" "transaction_type_enum",some (.int 2),.int 2,.int 2⟩,
    ⟨plain "date" "transaction_date",some (.date (-1)),.int (-1),.date (-1)⟩,
    ⟨plain "numeric(19,6)" "amount",some (.numeric (.number (25 / 2))),
      .string (String.ofList (Decimal.finite false 12500000 (-6)).text),.decimal (.finite false 12500000 (-6))⟩,
    emptyCell (plain "numeric(19,6)" "principal_portion_derived"),
    emptyCell (plain "numeric(19,6)" "interest_portion_derived"),
    emptyCell (plain "numeric(19,6)" "fee_charges_portion_derived"),
    emptyCell (plain "numeric(19,6)" "penalty_charges_portion_derived"),
    emptyCell (plain "numeric(19,6)" "overpayment_portion_derived"),
    emptyCell (plain "numeric(19,6)" "outstanding_loan_balance_derived"),
    ⟨plain "date" "submitted_on_date",some (.date 0),.int 0,.date 0⟩,
    ⟨plain "timestamptz" "created_on_utc",some (.timestamptz (-1)),
      .string (String.ofList (instantText .letter 6 (-1))),.datetime (-1)⟩,
    ⟨plain "timestamptz" "last_modified_on_utc",some (.timestamptz 1500000),.int 1500000,.datetime 1500000⟩]

/-- A property of every cell, one by one. -/
theorem repayment_cells {P : Cell → Prop} (each : List.Forall P repaymentCells) : ∀ cell ∈ repaymentCells, P cell :=
  List.forall_iff_forall_mem.mp each

private theorem repayment_given : Cells (typed .mLoanTransaction) repaymentCells where
  columns := by decide +kernel
  named := by decide +kernel
  plain := repayment_cells (by decide +kernel)
  fits := repayment_cells (by
    have amount : ∃ n : Int, (25 / 2 : Rat) = n / 10 ^ 6 ∧ n.natAbs < 10000000000000000000 := ⟨12500000,by norm_num,by decide⟩
    have years : FourDigitYear (-1) ∧ FourDigitYear 0 ∧ FourDigitYear (dateOf (-1)) ∧ FourDigitYear (dateOf 1500000) := by decide
    simpa [repaymentCells,emptyCell,plain,Fits,InRange,amount] using years)
  encodes := repayment_cells (by
    have amount : (Decimal.finite false 12500000 (-6)).toRat = some (25 / 2) := by decide +kernel
    refine ⟨rfl,rfl,rfl,rfl,rfl,rfl,⟨_,amount,rfl⟩,rfl,rfl,rfl,rfl,rfl,rfl,rfl,?_,.inl ⟨rfl,rfl⟩⟩
    exact .inr (.inr ⟨.letter,6,by decide,by decide,rfl⟩))
  represents := repayment_cells (by
    have amount : (Decimal.finite false 12500000 (-6)).toRat = some (25 / 2) := by decide +kernel
    simp [repaymentCells,emptyCell,Represents,amount])
  keyed := repayment_cells (by decide +kernel)

def repaymentMessage : Json := .object [("op",.string "c"),("after",imageOf repaymentCells),
  ("source",.object [("name",.string "s1"),("table",.string "m_loan_transaction")])]

/-- Jackson on one message, and the library of Java. -/
def libraries (node : Json) : Platform where
  readTree _ := .ok node
  asLong
    | .int n, _ => javaLong n
    | _, otherwise => otherwise
  render _ := ""
  parseLong text := (readInt text.toList).filter (fun n => -2 ^ 63 ≤ n ∧ n < 2 ^ 63)
  localDate d := if -365243219162 ≤ d ∧ d ≤ 365241780471
    then .ok (String.ofList (localDateText d)) else .error "Invalid value for EpochDay"
  instantOfMillis millis := .ok (String.ofList (javaInstantText (millis * 1000)))
  instantOfMicros micros := .ok (String.ofList (javaInstantText micros))
  currentTimeMillis := 0

theorem libraries_java (node : Json) : Java (libraries node) where
  asLong n otherwise range := by
    simp only [InRange] at range
    exact Int.bmod_eq_of_le (by omega) (by omega)
  localDate _ := rfl
  instantOfMillis _ := rfl
  instantOfMicros _ := rfl

private theorem repayment_message :
    Message (libraries repaymentMessage) (typed .mLoanTransaction) "s1" [0x7b] (imageOf repaymentCells) where
  content := by decide
  envelope := ⟨repaymentMessage,repaymentMessage,"c",rfl,rfl,rfl,rfl,by simp,rfl,rfl,by
    intro table named
    obtain rfl : "m_loan_transaction" = table := Option.some.inj named
    rfl⟩

theorem repayment_staged : ∃ event record,
    parse (libraries repaymentMessage) fineract (topic .mLoanTransaction) (some [0x7b]) = .ok (some event) ∧
      copyIn (typed .mLoanTransaction) (encode [(event,⟨.PROD,1,some "default",1,none⟩,"prod")]) = some [record] ∧
      copyIn (typed .mLoanTransaction) (buildCopyPayload [stagedTuple ⟨"s1","default",1,0,1,"prod"⟩ "u"
        ((typed .mLoanTransaction).withheld true) (repaymentCells.map (·.py))]) = some [record] ∧
      record.values = (typed .mLoanTransaction).columns.map (selected true repayment_given.row.base) ∧
      ∀ name, record.Unavailable name ↔ name ∈ (typed .mLoanTransaction).withheld true :=
  engines_stage_same_row .mLoanTransaction true (libraries_java repaymentMessage) repayment_given.row
    (repayment_given.captured true) repayment_message (repayment_given.fetched true) rfl ⟨"s1","default",1,0,1,"prod"⟩

end FineractBi.EngineParity
