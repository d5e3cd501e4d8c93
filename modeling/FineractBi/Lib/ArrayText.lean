import Mathlib.Data.List.Basic

/-!
One-dimensional arrays in text, as a database reads them: the elements stand
between braces, bare or quoted, and a bare NULL is a missing element.
-/
namespace ArrayText

def QUOTE : Char := '\x22'
def BACKSLASH : Char := '\x5c'

/-- The blanks, which the reader refuses outside quotes. -/
def BLANKS : List Char := [' ','\t','\n','\r','\x0b','\x0c']

/-- A character that stands for itself in an element without quotes. -/
def Bare (c : Char) : Prop :=
  c ≠ ',' ∧ c ≠ '\x7b' ∧ c ≠ '\x7d' ∧ c ≠ QUOTE ∧ c ≠ BACKSLASH ∧ c ∉ BLANKS

instance (c : Char) : Decidable (Bare c) := inferInstanceAs (Decidable (_ ∧ _))

def joined : List (List Char) → List Char
  | [] => []
  | [element] => element
  | element :: next :: rest => element ++ ',' :: joined (next :: rest)

def braces (elements : List (List Char)) : List Char := '\x7b' :: joined elements ++ ['\x7d']

def escaped (text : List Char) : List Char :=
  text.flatMap (fun c => if c = BACKSLASH ∨ c = QUOTE then [BACKSLASH,c] else [c])

def quoted (text : List Char) : List Char := QUOTE :: escaped text ++ [QUOTE]

/-- Where the reader stands: before an element, in it, in quotes, after a backslash or after quotes. -/
inductive Mode
  | before | bare | inside | escape | after
  deriving DecidableEq

def isNull (text : List Char) : Bool := text.map Char.toLower = ['n','u','l','l']

/-- The element that ends here. -/
def element (mode : Mode) (text : List Char) : Option (List Char) :=
  if mode = .bare ∧ isNull text then none else some text

/-- The elements from the current one on, up to the closing brace. -/
def readElements (mode : Mode) (done : List (Option (List Char))) (text : List Char) :
    List Char → Option (List (Option (List Char)))
  | [] => none
  | c :: rest =>
    match mode with
    | .escape => readElements .inside done (text ++ [c]) rest
    | .inside =>
      if c = BACKSLASH then readElements .escape done text rest
      else if c = QUOTE then readElements .after done text rest
      else readElements .inside done (text ++ [c]) rest
    | .before =>
      if c = QUOTE then readElements .inside done [] rest
      else if c = '\x7d' then if done = [] ∧ rest = [] then some [] else none
      else if Bare c then readElements .bare done [c] rest
      else none
    | mode =>
      if c = ',' then readElements .before (done ++ [element mode text]) [] rest
      else if c = '\x7d' then if rest = [] then some (done ++ [element mode text]) else none
      else if mode = .bare ∧ Bare c then readElements .bare done (text ++ [c]) rest
      else none

def read : List Char → Option (List (Option (List Char)))
  | [] => none
  | c :: rest => if c = '\x7b' then readElements .before [] [] rest else none

section
variable {done : List (Option (List Char))} {rest : List Char}

theorem read_bare {text : List Char} (before : List Char) (bare : ∀ c ∈ text, Bare c) :
    readElements .bare done before (text ++ rest) = readElements .bare done (before ++ text) rest := by
  induction text generalizing before with
  | nil => simp
  | cons c more ih =>
    have shown := bare c List.mem_cons_self
    obtain ⟨no_comma,_,no_close,_,_⟩ := bare c List.mem_cons_self
    have others := ih (before ++ [c]) (fun d inside => bare d (List.mem_cons_of_mem _ inside))
    simpa [readElements,no_comma,no_close,shown] using others

/-- An element without quotes. -/
theorem read_name {text : List Char} (bare : ∀ c ∈ text, Bare c) (some_char : text ≠ []) :
    readElements .before done [] (text ++ rest) = readElements .bare done text rest := by
  cases text with
  | nil => exact absurd rfl some_char
  | cons c more =>
    have shown := bare c List.mem_cons_self
    obtain ⟨_,_,no_close,no_quote,_⟩ := bare c List.mem_cons_self
    have others : readElements .bare done [c] (more ++ rest) = readElements .bare done ([c] ++ more) rest :=
      read_bare [c] (fun d inside => bare d (List.mem_cons_of_mem _ inside))
    simpa [readElements,no_quote,no_close,shown] using others

private theorem read_escaped (text before : List Char) :
    readElements .inside done before (escaped text ++ QUOTE :: rest) = readElements .after done (before ++ text) rest := by
  induction text generalizing before with
  | nil => simp [escaped,readElements,QUOTE,BACKSLASH]
  | cons c more ih =>
    have step : escaped (c :: more) = (if c = BACKSLASH ∨ c = QUOTE then [BACKSLASH,c] else [c]) ++ escaped more := rfl
    have others := ih (before ++ [c])
    rw [step,List.append_assoc]
    split
    · simpa [readElements] using others
    · next plain =>
      rw [not_or] at plain
      simpa [readElements,plain.1,plain.2] using others

/-- A quoted element. -/
theorem read_quoted (text : List Char) :
    readElements .before done [] (quoted text ++ rest) = readElements .after done text rest := by
  have body : readElements .inside done [] (escaped text ++ QUOTE :: rest) = readElements .after done ([] ++ text) rest :=
    read_escaped text []
  simpa [quoted,readElements] using body

/-- A way to write an element that the reader reads as `text`. -/
def Reads (written text : List Char) : Prop :=
  ∃ mode : Mode, (mode = .bare ∨ mode = .after) ∧ element mode text = some text ∧
    ∀ done rest, readElements .before done [] (written ++ rest) = readElements mode done text rest

/-- A name that is not NULL, as it stands. -/
theorem reads_name {text : List Char} (bare : ∀ c ∈ text, Bare c) (some_char : text ≠ []) (named : isNull text = false) :
    Reads text text := ⟨.bare,.inl rfl,by simp [element,named],fun _ _ => read_name bare some_char⟩

/-- Any text in quotes. -/
theorem reads_quoted (text : List Char) : Reads (quoted text) text :=
  ⟨.after,.inr rfl,by simp [element],fun _ _ => read_quoted text⟩

private theorem read_joined (done : List (Option (List Char))) (write : List Char → List Char) {texts : List (List Char)}
    (some_element : texts ≠ [])
    (reads : ∀ text ∈ texts, Reads (write text) text) :
    readElements .before done [] (joined (texts.map write) ++ ['\x7d']) = some (done ++ texts.map some) := by
  induction texts generalizing done with
  | nil => exact absurd rfl some_element
  | cons text more ih =>
    obtain ⟨mode,ended,value,first⟩ := reads text List.mem_cons_self
    cases more with
    | nil =>
      rw [List.map_singleton,joined,first]
      rcases ended with rfl | rfl <;> simp [readElements,value]
    | cons next others =>
      have later := ih (done ++ [some text]) (by simp) (fun t inside => reads t (List.mem_cons_of_mem _ inside))
      have line : joined ((text :: next :: others).map write) ++ ['\x7d'] =
          write text ++ ',' :: (joined ((next :: others).map write) ++ ['\x7d']) := by simp [joined]
      rw [line,first]
      rcases ended with rfl | rfl <;> simpa [readElements,value] using later

/-- What is read is what was written. -/
theorem read_braces (write : List Char → List Char) {texts : List (List Char)}
    (reads : ∀ text ∈ texts, Reads (write text) text) : read (braces (texts.map write)) = some (texts.map some) := by
  cases texts with
  | nil => rfl
  | cons text more =>
    have elements := read_joined [] write (by simp) reads
    simpa [read,braces] using elements

end

end ArrayText
