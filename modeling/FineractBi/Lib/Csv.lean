import Mathlib.Data.List.Basic

/-!
Comma-separated values as a bulk load reads them: a field is quoted as a whole
or not at all, a quote within quotes is doubled, and the empty field without
quotes is NULL. What is written so is read back, whatever the quoted text.
-/
namespace Csv

def QUOTE : Char := '\x22'
def COMMA : Char := ','
def NEWLINE : Char := '\n'
def RETURN : Char := '\r'

/-- A character that stands for itself outside quotes. -/
def Plain (c : Char) : Prop := c ≠ QUOTE ∧ c ≠ COMMA ∧ c ≠ NEWLINE ∧ c ≠ RETURN

instance (c : Char) : Decidable (Plain c) := inferInstanceAs (Decidable (_ ∧ _))

/-- Every quote twice. -/
def doubled (text : List Char) : List Char := text.flatMap (fun c => if c = QUOTE then [QUOTE,QUOTE] else [c])

def quoted (text : List Char) : List Char := QUOTE :: doubled text ++ [QUOTE]

/-- A field as it is written. -/
inductive Field
  | null
  | bare (text : List Char)
  | quoted (text : List Char)

def Field.render : Field → List Char
  | .null => []
  | .bare text => text
  | .quoted text => Csv.quoted text

/-- What a field says. -/
def Field.value : Field → Option (List Char)
  | .null => none
  | .bare text => some text
  | .quoted text => some text

/-- A field without quotes is not empty and holds no character that needs them. -/
def Field.Proper : Field → Prop
  | .bare text => text ≠ [] ∧ ∀ c ∈ text, Plain c
  | _ => True

/-- A record: the fields with commas between them, and a newline. -/
def renderRecord : List Field → List Char
  | [] => [NEWLINE]
  | [f] => f.render ++ [NEWLINE]
  | f :: g :: rest => f.render ++ COMMA :: renderRecord (g :: rest)

/-- Where the reader stands: outside quotes, within them, or after a quote within them. -/
inductive Mode
  | outside | inside | after
  deriving DecidableEq

/-- What has been read of a record: its fields, the current field and whether it had a quote. -/
structure Reader where
  mode : Mode
  fields : List (Option (List Char))
  text : List Char
  sawQuote : Bool

def Reader.start : Reader := ⟨.outside,[],[],false⟩

/-- The field that ends here. -/
def Reader.field (r : Reader) : Option (List Char) := if r.text = [] ∧ r.sawQuote = false then none else some r.text

def Reader.endField (r : Reader) : Reader := ⟨.outside,r.fields ++ [r.field],[],false⟩

def Reader.push (r : Reader) (mode : Mode) (c : Char) : Reader := { r with mode, text := r.text ++ [c] }

/-- The records of a text; every record ends with a newline. -/
def read : Reader → List Char → Option (List (List (Option (List Char))))
  | r, [] => if r.mode = .outside ∧ r.fields = [] ∧ r.text = [] ∧ r.sawQuote = false then some [] else none
  | r, c :: rest =>
    if r.mode = .inside then
      if c = QUOTE then read { r with mode := .after } rest else read (r.push .inside c) rest
    else if c = QUOTE then
      if r.mode = .after then read (r.push .inside c) rest else read { r with mode := .inside, sawQuote := true } rest
    else if c = COMMA then read r.endField rest
    else if c = NEWLINE then (read .start rest).map (r.endField.fields :: ·)
    else if c = RETURN then none
    else read (r.push .outside c) rest

def records (text : List Char) : Option (List (List (Option (List Char)))) := read .start text

section
variable {r : Reader} {text rest : List Char} {fields : List (Option (List Char))}

private theorem read_doubled (text : List Char) (before : List Char) :
    read ⟨.inside,fields,before,true⟩ (doubled text ++ QUOTE :: rest) = read ⟨.after,fields,before ++ text,true⟩ rest := by
  induction text generalizing before with
  | nil => simp [doubled,read]
  | cons c more ih =>
    have step : doubled (c :: more) = (if c = QUOTE then [QUOTE,QUOTE] else [c]) ++ doubled more := rfl
    rw [step,List.append_assoc]
    split
    · next quote =>
      subst quote
      have more_read := ih (before ++ [QUOTE])
      simpa [read,Reader.push] using more_read
    · next plain =>
      have more_read := ih (before ++ [c])
      simpa [read,Reader.push,plain] using more_read

theorem read_quoted (text : List Char) :
    read ⟨.outside,fields,[],false⟩ (quoted text ++ rest) = read ⟨.after,fields,text,true⟩ rest := by
  have body : read ⟨.inside,fields,[],true⟩ (doubled text ++ QUOTE :: rest) = read ⟨.after,fields,[] ++ text,true⟩ rest :=
    read_doubled text []
  simpa [quoted,read] using body

theorem read_bare (text before : List Char) (saw : Bool) (plain : ∀ c ∈ text, Plain c) :
    read ⟨.outside,fields,before,saw⟩ (text ++ rest) = read ⟨.outside,fields,before ++ text,saw⟩ rest := by
  induction text generalizing before with
  | nil => simp
  | cons c more ih =>
    obtain ⟨no_quote,no_comma,no_newline,no_return⟩ := plain c List.mem_cons_self
    have others := ih (before ++ [c]) (fun d inside => plain d (List.mem_cons_of_mem _ inside))
    simpa [read,Reader.push,no_quote,no_comma,no_newline,no_return] using others

/-- A field, up to the character that ends it. -/
theorem read_field (fields : List (Option (List Char))) {f : Field} (proper : f.Proper) : ∃ r : Reader, r.mode ≠ .inside ∧
    r.endField = ⟨.outside,fields ++ [f.value],[],false⟩ ∧
    ∀ rest, read ⟨.outside,fields,[],false⟩ (f.render ++ rest) = read r rest := by
  cases f with
  | null => exact ⟨⟨.outside,fields,[],false⟩,by simp,by simp [Reader.endField,Reader.field,Field.value],fun _ => rfl⟩
  | bare text =>
    refine ⟨⟨.outside,fields,text,false⟩,by simp,?_,fun rest => read_bare text [] false proper.2⟩
    simp [Reader.endField,Reader.field,Field.value,proper.1]
  | quoted text =>
    refine ⟨⟨.after,fields,text,true⟩,by simp,?_,fun rest => read_quoted text⟩
    simp [Reader.endField,Reader.field,Field.value]

private theorem read_comma (r : Reader) (outside : r.mode ≠ .inside) : read r (COMMA :: rest) = read r.endField rest := by
  simp [read,outside,COMMA,QUOTE]

private theorem read_newline (r : Reader) (outside : r.mode ≠ .inside) :
    read r (NEWLINE :: rest) = (read .start rest).map (r.endField.fields :: ·) := by
  simp [read,outside,COMMA,QUOTE,NEWLINE]

/-- A record that is read is the record that was written. -/
theorem read_record {written : List Field} (proper : ∀ f ∈ written, f.Proper) (some_field : written ≠ [])
    (before : List (Option (List Char))) : read ⟨.outside,before,[],false⟩ (renderRecord written ++ rest) =
      (read .start rest).map ((before ++ written.map Field.value) :: ·) := by
  induction written generalizing before with
  | nil => exact absurd rfl some_field
  | cons f more ih =>
    obtain ⟨r,outside,ends,reads⟩ := read_field before (proper f List.mem_cons_self)
    cases more with
    | nil =>
      have line : renderRecord [f] ++ rest = f.render ++ NEWLINE :: rest := by simp [renderRecord]
      rw [line,reads,read_newline r outside,ends]
      rfl
    | cons g others =>
      have line : renderRecord (f :: g :: others) ++ rest =
          f.render ++ COMMA :: (renderRecord (g :: others) ++ rest) := by simp [renderRecord]
      have later := ih (fun h inside => proper h (List.mem_cons_of_mem _ inside)) (by simp) (before ++ [f.value])
      rw [line,reads,read_comma r outside,ends,later]
      simp

/-- What is read is what was written. -/
theorem records_render {written : List (List Field)} (proper : ∀ fields ∈ written, ∀ f ∈ fields, f.Proper)
    (some_field : ∀ fields ∈ written, fields ≠ []) :
    records (written.flatMap renderRecord) = some (written.map (List.map Field.value)) := by
  induction written with
  | nil => rfl
  | cons fields more ih =>
    have later := ih (fun fields inside => proper fields (List.mem_cons_of_mem _ inside))
      (fun fields inside => some_field fields (List.mem_cons_of_mem _ inside))
    rw [List.flatMap_cons,records,Reader.start,read_record (proper fields List.mem_cons_self)
      (some_field fields List.mem_cons_self),← records,later]
    rfl

end

end Csv
