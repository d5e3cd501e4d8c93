import Mathlib.Data.List.Basic

/-!
Lists of patterns separated by commas, the patterns being regular expressions of
letters, digits, underscores, hyphens, the dot for any character and escaped
characters. A pattern matches a whole text, without regard to case.
-/
namespace Pattern

/-- A character that stands for itself: a letter, a digit, an underscore or a hyphen. -/
def plain (c : Char) : Bool :=
  [(97,122),(65,90),(48,57),(95,95),(45,45)].any (fun range => decide (range.1 ≤ c.toNat ∧ c.toNat ≤ range.2))

/-- A line terminator, which the dot does not match. -/
def terminator (c : Char) : Bool := c = '\n' || c = '\r' || c = Char.ofNat 0x85 || c = Char.ofNat 0x2028 || c = Char.ofNat 0x2029

inductive Item
  | literal (c : Char)
  | any
  deriving DecidableEq

/-- The items of a pattern; none for a pattern with other characters. -/
def parse : List Char → Option (List Item)
  | [] => some []
  | '\\' :: c :: rest => if plain c then none else (parse rest).map (.literal c :: ·)
  | '.' :: rest => (parse rest).map (.any :: ·)
  | c :: rest => if plain c then (parse rest).map (.literal c :: ·) else none

def Item.accepts : Item → Char → Bool
  | .literal x,c => x.toLower = c.toLower
  | .any,c => !terminator c

/-- The items match a whole text. -/
def covers : List Item → List Char → Bool
  | [],[] => true
  | i :: items,c :: rest => i.accepts c && covers items rest
  | _,_ => false

/-- Some pattern of a list matches the text. -/
def listed (patterns text : List Char) : Bool :=
  (patterns.splitOn ',').any (fun p => (parse p).any (fun items => covers items text))

/-- Every pattern of a list is one that is read here. -/
def readable (patterns : List Char) : Bool := (patterns.splitOn ',').all (fun p => (parse p).isSome)

/-- A text with every dot escaped. -/
def escaped (text : List Char) : List Char := text.flatMap (fun c => if c = '.' then ['\\','.'] else [c])

def PlainText (text : List Char) : Prop := ∀ c ∈ text, plain c = true

instance (text : List Char) : Decidable (PlainText text) := List.decidableBAll _ text

theorem plain_ne {c : Char} (is : plain c = true) : c ≠ '\\' ∧ c ≠ '.' ∧ c ≠ ',' ∧ c ≠ '\n' := by
  refine ⟨?_,?_,?_,?_⟩ <;>
    · rintro rfl
      exact absurd is (by decide)

private theorem parse_plain {c : Char} (is : plain c = true) (rest : List Char) :
    parse (c :: rest) = (parse rest).map (.literal c :: ·) := by
  obtain ⟨escape,dot,_,_⟩ := plain_ne is
  rw [parse,if_pos is]
  · exact fun _ _ same => absurd same escape
  · exact dot

/-- A character of a text as it is matched when every dot is escaped, or none is. -/
def itemOf (dot : Item) (c : Char) : Item := if c = '.' then dot else .literal c

theorem parse_escaped {text : List Char} (shaped : ∀ c ∈ text, plain c = true ∨ c = '.') :
    parse (escaped text) = some (text.map (itemOf (.literal '.'))) := by
  induction text with
  | nil => rfl
  | cons c rest ih =>
    have later := ih (fun c inside => shaped c (List.mem_cons_of_mem _ inside))
    rcases shaped c List.mem_cons_self with is | rfl
    · obtain ⟨_,dot,_,_⟩ := plain_ne is
      rw [escaped,List.flatMap_cons,if_neg dot,List.singleton_append,parse_plain is,← escaped,later]
      simp [itemOf,dot]
    · rw [escaped,List.flatMap_cons,if_pos rfl,← escaped]
      change (if plain '.' then none else (parse (escaped rest)).map (.literal '.' :: ·)) = _
      rw [if_neg (by decide),later]
      rfl

theorem parse_dotted {text : List Char} (shaped : ∀ c ∈ text, plain c = true ∨ c = '.') :
    parse text = some (text.map (itemOf .any)) := by
  induction text with
  | nil => rfl
  | cons c rest ih =>
    have later := ih (fun c inside => shaped c (List.mem_cons_of_mem _ inside))
    rcases shaped c List.mem_cons_self with is | rfl
    · obtain ⟨_,dot,_,_⟩ := plain_ne is
      rw [parse_plain is,later]
      simp [itemOf,dot]
    · change (parse rest).map (.any :: ·) = _
      rw [later]
      rfl

def lower (text : List Char) : List Char := text.map Char.toLower

/-- Escaped, a text matches itself. -/
theorem covers_escaped {text other : List Char} :
    covers (text.map (itemOf (.literal '.'))) other = true ↔ lower text = lower other := by
  induction text generalizing other with
  | nil => cases other <;> simp [covers,lower]
  | cons c rest ih =>
    cases other with
    | nil => simp [covers,lower]
    | cons x others =>
      have own : (itemOf (.literal '.') c).accepts x = decide (c.toLower = x.toLower) := by
        by_cases dot : c = '.'
        · simp [itemOf,dot,Item.accepts]
        · simp [itemOf,dot,Item.accepts]
      rw [List.map_cons,covers,own,Bool.and_eq_true,ih]
      simp [lower]

theorem plain_small {c : Char} (is : plain c = true) : c.toNat < 128 := by
  obtain ⟨range,member,upto⟩ := List.any_eq_true.mp is
  have low : range.2 < 128 := (show ∀ r ∈ [(97,122),(65,90),(48,57),(95,95),(45,45)], r.2 < 128 by decide) range member
  have within : range.1 ≤ c.toNat ∧ c.toNat ≤ range.2 := of_decide_eq_true upto
  omega

/-- No character has the dot as its lower case but the dot. -/
theorem lower_plain {c : Char} (is : plain c = true) : c.toLower ≠ '.' := by
  have small := plain_small is
  have table : ∀ n < 128, plain (Char.ofNat n) = true → (Char.ofNat n).toLower ≠ '.' := by decide
  have own := table c.toNat small
  rw [Char.ofNat_toNat] at own
  exact own is

theorem lower_no_dot {text : List Char} (text_plain : PlainText text) : '.' ∉ lower text := by
  intro inside
  obtain ⟨c,member,dot⟩ := List.mem_map.mp inside
  exact lower_plain (text_plain c member) dot

private theorem no_dot {text other : List Char} (text_plain : PlainText text) (same : lower text = lower other) :
    '.' ∉ other := by
  intro inside
  have among : '.' ∈ lower other := List.mem_map.mpr ⟨'.',inside,by decide⟩
  rw [← same] at among
  exact lower_no_dot text_plain among

private theorem items_plain {text : List Char} (text_plain : PlainText text) (dot : Item) :
    text.map (itemOf dot) = text.map (itemOf (.literal '.')) := by
  refine List.map_congr_left (fun c inside => ?_)
  have not_dot := (plain_ne (text_plain c inside)).2.1
  simp [itemOf,not_dot]

/-- Unescaped, a dot between two plain texts still matches no text with one dot but themselves. -/
theorem covers_dotted {first second first' second' : List Char} (plain_first : PlainText first)
    (plain_second : PlainText second) :
    covers ((first ++ '.' :: second).map (itemOf .any)) (first' ++ '.' :: second') = true →
      lower first = lower first' ∧ lower second = lower second' := by
  induction first generalizing first' with
  | nil =>
    intro matched
    have rest : covers (second.map (itemOf .any)) ((first' ++ '.' :: second').tail) = true := by
      cases first' <;> exact (Bool.and_eq_true_iff.mp matched).2
    rw [items_plain plain_second,covers_escaped] at rest
    cases first' with
    | nil => exact ⟨rfl,rest⟩
    | cons x others => exact absurd (by simp) (no_dot plain_second rest)
  | cons c rest ih =>
    intro matched
    have not_dot := (plain_ne (plain_first c List.mem_cons_self)).2.1
    cases first' with
    | nil =>
      have accepted : (itemOf .any c).accepts '.' = true := (Bool.and_eq_true_iff.mp matched).1
      rw [itemOf,if_neg not_dot,Item.accepts,decide_eq_true_eq] at accepted
      exact absurd (accepted.trans (by decide)) (lower_plain (plain_first c List.mem_cons_self))
    | cons x others =>
      obtain ⟨accepted,further⟩ := Bool.and_eq_true_iff.mp matched
      obtain ⟨same,same'⟩ := ih (fun c inside => plain_first c (List.mem_cons_of_mem _ inside)) further
      rw [itemOf,if_neg not_dot,Item.accepts,decide_eq_true_eq] at accepted
      exact ⟨by rw [lower,lower,List.map_cons,List.map_cons,accepted,← lower,← lower,same],same'⟩

theorem covers_dotted_self {first second first' second' : List Char} (plain_first : PlainText first)
    (plain_second : PlainText second) (same : lower first = lower first') (same' : lower second = lower second') :
    covers ((first ++ '.' :: second).map (itemOf .any)) (first' ++ '.' :: second') = true := by
  induction first generalizing first' with
  | nil =>
    obtain rfl : first' = [] := by simpa [lower] using same.symm
    refine Bool.and_eq_true_iff.mpr ⟨rfl,?_⟩
    rw [items_plain plain_second]
    exact covers_escaped.mpr same'
  | cons c rest ih =>
    have not_dot := (plain_ne (plain_first c List.mem_cons_self)).2.1
    cases first' with
    | nil => simp [lower] at same
    | cons x others =>
      obtain ⟨head,tail⟩ : c.toLower = x.toLower ∧ lower rest = lower others := by simpa [lower] using same
      refine Bool.and_eq_true_iff.mpr ⟨?_,ih (fun c inside => plain_first c (List.mem_cons_of_mem _ inside)) tail⟩
      rw [itemOf,if_neg not_dot,Item.accepts,decide_eq_true_eq]
      exact head

/-- A list of patterns without commas matches what one of them does. -/
theorem listed_intercalate {patterns : List (List Char)} (some_pattern : patterns ≠ [])
    (no_comma : ∀ p ∈ patterns, ',' ∉ p) {text : List Char} : listed ([','].intercalate patterns) text = true ↔
      ∃ p ∈ patterns, ∃ items, parse p = some items ∧ covers items text = true := by
  rw [listed,List.splitOn_intercalate ',' no_comma some_pattern,List.any_eq_true]
  refine exists_congr (fun p => and_congr_right (fun _ => ?_))
  cases parse p <;> simp

theorem readable_intercalate {patterns : List (List Char)} (some_pattern : patterns ≠ [])
    (no_comma : ∀ p ∈ patterns, ',' ∉ p) (parsed : ∀ p ∈ patterns, (parse p).isSome = true) :
    readable ([','].intercalate patterns) = true := by
  rw [readable,List.splitOn_intercalate ',' no_comma some_pattern,List.all_eq_true]
  exact parsed

private theorem escaped_append (text more : List Char) : escaped (text ++ more) =
    escaped text ++ escaped more := List.flatMap_append

/-- Escaping commutes with joining by commas. -/
theorem escaped_intercalate (patterns : List (List Char)) :
    escaped ([','].intercalate patterns) = [','].intercalate (patterns.map escaped) := by
  induction patterns with
  | nil => rfl
  | cons p rest ih =>
    cases rest with
    | nil => simp
    | cons q rest =>
      rw [List.intercalate_cons_cons,escaped_append,escaped_append,ih]
      simp only [List.map_cons,List.intercalate_cons_cons]
      rfl

end Pattern
