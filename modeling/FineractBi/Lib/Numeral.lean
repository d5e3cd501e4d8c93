import Mathlib.Data.Rat.Defs
import Mathlib.Algebra.Field.Rat
import Mathlib.Tactic.Ring
import Mathlib.Tactic.FieldSimp
import Mathlib.Data.List.TakeWhile

/-!
Numbers in text: whole numbers with and without a fixed width, and decimal
numbers in plain or scientific notation, with readers for what is written.
-/
namespace Numeral

/-- The number that a list of digits stands for. -/
def value (digits : List Char) : Nat := Nat.ofDigitChars 10 digits 0

/-- One digit or more. -/
def readNat (text : List Char) : Option Nat := if text ≠ [] ∧ text.all Char.isDigit then some (value text) else none

/-- A sign, if there is one, and the rest. -/
def splitSign : List Char → Bool × List Char
  | [] => (false,[])
  | c :: rest => if c = '-' then (true,rest) else if c = '+' then (false,rest) else (false,c :: rest)

def readInt (text : List Char) : Option Int :=
  (readNat (splitSign text).2).map (fun n => if (splitSign text).1 then -(n : Int) else n)

/-- The last `width` digits of `n`. -/
def pad : Nat → Nat → List Char
  | 0, _ => []
  | width + 1, n => pad width (n / 10) ++ [Nat.digitChar (n % 10)]

@[simp] theorem pad_length (width n : Nat) : (pad width n).length = width := by
  induction width generalizing n with
  | zero => rfl
  | succ width ih => simp [pad,ih]

theorem isDigit_digitChar : ∀ n < 10, (Nat.digitChar n).isDigit = true := by decide

theorem pad_isDigit {width n : Nat} {c : Char} (inside : c ∈ pad width n) : c.isDigit = true := by
  induction width generalizing n with
  | zero => cases inside
  | succ width ih =>
    rcases List.mem_append.mp inside with before | last
    · exact ih before
    · rw [List.mem_singleton.mp last]
      exact isDigit_digitChar _ (Nat.mod_lt n (by decide))

theorem value_pad {width n : Nat} (fits : n < 10 ^ width) : value (pad width n) = n := by
  induction width generalizing n with
  | zero =>
    obtain rfl : n = 0 := by simpa using fits
    rfl
  | succ width ih =>
    have before : value (pad width (n / 10)) = n / 10 := ih (by rw [pow_succ] at fits; omega)
    rw [value] at before ⊢
    rw [pad,Nat.ofDigitChars_append,before,Nat.ofDigitChars_cons_digitChar_of_lt_ten (Nat.mod_lt n (by decide)),
      Nat.ofDigitChars_nil]
    omega

theorem readNat_pad {width n : Nat} (some_digit : width ≠ 0) (fits : n < 10 ^ width) :
    readNat (pad width n) = some n := by
  have not_empty : pad width n ≠ [] := by
    intro empty
    exact some_digit (by simpa using congrArg List.length empty)
  have digits : (pad width n).all Char.isDigit := List.all_eq_true.mpr (fun _ inside => pad_isDigit inside)
  rw [readNat,if_pos ⟨not_empty,digits⟩,value_pad fits]

theorem toDigits_isDigit {n : Nat} {c : Char} (inside : c ∈ Nat.toDigits 10 n) : c.isDigit = true :=
  Nat.isDigit_of_mem_toDigits (by decide) (by decide) inside

theorem value_toDigits (n : Nat) : value (Nat.toDigits 10 n) = n := Nat.ofDigitChars_ten_toDigits

theorem toDigits_ne_nil (n : Nat) : Nat.toDigits 10 n ≠ [] := Nat.toDigits_ne_nil

private theorem readNat_toDigits (n : Nat) : readNat (Nat.toDigits 10 n) = some n := by
  have digits : (Nat.toDigits 10 n).all Char.isDigit := List.all_eq_true.mpr (fun _ inside => toDigits_isDigit inside)
  rw [readNat,if_pos ⟨toDigits_ne_nil n,digits⟩,value_toDigits]

/-- What begins with a digit has no sign. -/
theorem splitSign_digits {text : List Char} (digits : ∀ c ∈ text.head?, c.isDigit = true) : splitSign text = (false,text) := by
  cases text with
  | nil => rfl
  | cons c rest =>
    have digit := digits c rfl
    have no_minus : c ≠ '-' := by rintro rfl; exact absurd digit (by decide)
    have no_plus : c ≠ '+' := by rintro rfl; exact absurd digit (by decide)
    simp [splitSign,no_minus,no_plus]

private theorem readInt_toDigits (n : Nat) : readInt (Nat.toDigits 10 n) = some (n : Int) := by
  rw [readInt,splitSign_digits (fun c head => toDigits_isDigit (List.mem_of_mem_head? head)),readNat_toDigits]
  rfl

private theorem readInt_minus (n : Nat) : readInt ('-' :: Nat.toDigits 10 n) = some (-(n : Int)) := by
  simp [readInt,splitSign,readNat_toDigits]

/-- The text of a whole number is read back. -/
theorem readInt_toString (n : Int) : readInt (toString n).toList = some n := by
  rw [Int.toString_eq_repr,Int.repr_eq_if]
  split
  · next positive =>
    rw [Nat.toList_repr,readInt_toDigits]
    exact congrArg some (Int.toNat_of_nonneg positive)
  · next negative =>
    rw [String.toList_append,Nat.toList_repr]
    have minus := readInt_minus (-n).toNat
    simpa [show ((-n).toNat : Int) = -n by omega] using minus

/-- The digits at the beginning of a text, and the rest. -/
def splitDigits (text : List Char) : List Char × List Char := (text.takeWhile Char.isDigit,text.dropWhile Char.isDigit)

theorem splitDigits_append {digits rest : List Char} (all_digits : ∀ c ∈ digits, c.isDigit = true)
    (ends : ∀ c ∈ rest.head?, c.isDigit = false) : splitDigits (digits ++ rest) = (digits,rest) := by
  rw [splitDigits,List.takeWhile_append_of_pos all_digits,List.dropWhile_append_of_pos all_digits]
  cases rest with
  | nil => simp
  | cons c more => simp [ends c rfl]

/-- The digits after a point, if there is one, and the rest. -/
def splitFraction : List Char → List Char × List Char
  | [] => ([],[])
  | c :: rest => if c = '.' then splitDigits rest else ([],c :: rest)

/-- The exponent that ends a text, zero when there is none. -/
def readExponent : List Char → Option Int
  | [] => some 0
  | c :: rest => if c = 'e' ∨ c = 'E' then readInt rest else none

/-- A decimal number without its sign. -/
def readUnsigned (text : List Char) : Option Rat :=
  let whole := splitDigits text
  let fraction := splitFraction whole.2
  if whole.1 ++ fraction.1 = [] then none
  else (readExponent fraction.2).map
    (fun e : Int => (value (whole.1 ++ fraction.1) : Rat) * (10 : Rat) ^ (e - fraction.1.length))

def readDecimal (text : List Char) : Option Rat :=
  (readUnsigned (splitSign text).2).map (fun q => if (splitSign text).1 then -q else q)

/-- A fraction as it is written: without a point when it has no digits. -/
def pointed (fraction : List Char) : List Char := if fraction = [] then [] else '.' :: fraction

/-- An exponent as it is written: nothing, or a letter and a signed number. -/
def exponentText (e : Int) : List Char :=
  if e = 0 then [] else 'E' :: (if e < 0 then '-' else '+') :: Nat.toDigits 10 e.natAbs

private theorem readExponent_text (e : Int) : readExponent (exponentText e) = some e := by
  unfold exponentText
  split
  · next zero => simp [zero,readExponent]
  · split
    · have minus := readInt_minus e.natAbs
      rw [show -(e.natAbs : Int) = e by omega] at minus
      simpa [readExponent] using minus
    · have plus : readInt ('+' :: Nat.toDigits 10 e.natAbs) = some (e.natAbs : Int) := by
        simp [readInt,splitSign,readNat_toDigits]
      rw [show (e.natAbs : Int) = e by omega] at plus
      simpa [readExponent] using plus

private theorem exponentText_head (e : Int) : ∀ c ∈ (exponentText e).head?, c = 'E' := by
  unfold exponentText
  split <;> simp

private theorem splitFraction_pointed {fraction : List Char} (digits : ∀ c ∈ fraction, c.isDigit = true) (e : Int) :
    splitFraction (pointed fraction ++ exponentText e) = (fraction,exponentText e) := by
  unfold pointed
  split
  · next empty =>
    subst empty
    cases text : exponentText e with
    | nil => rfl
    | cons c rest =>
      have letter := exponentText_head e c (by rw [text]; rfl)
      simp [splitFraction,letter]
  · have ends : ∀ c ∈ (exponentText e).head?, c.isDigit = false := by
      intro c head
      rw [exponentText_head e c head]
      decide
    simpa [splitFraction] using splitDigits_append digits ends

/-- A number is read from its digits before and after the point and its exponent. -/
theorem readUnsigned_parts {whole fraction : List Char} (before : ∀ c ∈ whole, c.isDigit = true)
    (after : ∀ c ∈ fraction, c.isDigit = true) (some_digit : whole ≠ []) (e : Int) :
    readUnsigned (whole ++ (pointed fraction ++ exponentText e)) =
      some ((value (whole ++ fraction) : Rat) * (10 : Rat) ^ (e - fraction.length)) := by
  have ends : ∀ c ∈ (pointed fraction ++ exponentText e).head?, c.isDigit = false := by
    intro c head
    unfold pointed at head
    split at head
    · rw [exponentText_head e c head]
      decide
    · obtain rfl : '.' = c := by simpa using head
      decide
  have parts := splitDigits_append before ends
  simp [readUnsigned,parts,splitFraction_pointed after,some_digit,readExponent_text]

/-- A decimal number: a sign, a whole number and a power of ten, or not a number. -/
inductive Decimal
  | nan
  | finite (negative : Bool) (coefficient : Nat) (exponent : Int)
  deriving DecidableEq, Repr

namespace Decimal

/-- The digits before and after the point, when it stands `place` digits from the left. -/
def pointAt (digits : List Char) (place : Int) : List Char × List Char :=
  if place ≤ 0 then (['0'],List.replicate (-place).toNat '0' ++ digits)
  else if place ≥ digits.length then (digits ++ List.replicate (place - digits.length).toNat '0',[])
  else (digits.take place.toNat,digits.drop place.toNat)

/-- The number in plain notation, unless its exponent is positive or the number very small. -/
def text : Decimal → List Char
  | nan => ['N','a','N']
  | finite negative coefficient exponent =>
    let digits := Nat.toDigits 10 coefficient
    let leftDigits := exponent + digits.length
    let place := if exponent ≤ 0 ∧ leftDigits > -6 then leftDigits else 1
    let parts := pointAt digits place
    (if negative then ['-'] else []) ++ (parts.1 ++ (pointed parts.2 ++ exponentText (leftDigits - place)))

/-- The number, if it is one. -/
def toRat : Decimal → Option Rat
  | nan => none
  | finite negative coefficient exponent =>
    let magnitude := (coefficient : Rat) * (10 : Rat) ^ exponent
    some (if negative then -magnitude else magnitude)

theorem value_zeros (k : Nat) (digits : List Char) : value (List.replicate k '0' ++ digits) = value digits := by
  rw [value,Nat.ofDigitChars_append,Nat.ofDigitChars_replicate_zero,Nat.mul_zero,← value]

theorem value_shifted (k : Nat) (digits : List Char) :
    value (digits ++ List.replicate k '0') = 10 ^ k * value digits := by
  rw [value,Nat.ofDigitChars_append,Nat.ofDigitChars_replicate_zero,← value]

/-- Wherever the point stands, the digits are digits and say the same, up to its place. -/
theorem pointAt_value {digits : List Char} (all_digits : ∀ c ∈ digits, c.isDigit = true) (some_digit : digits ≠ [])
    (place : Int) :
    (∀ c ∈ (pointAt digits place).1, c.isDigit = true) ∧ (∀ c ∈ (pointAt digits place).2, c.isDigit = true) ∧
      (pointAt digits place).1 ≠ [] ∧ ∀ e : Int,
        (value ((pointAt digits place).1 ++ (pointAt digits place).2) : Rat) *
          (10 : Rat) ^ (e - (pointAt digits place).2.length) =
        (value digits : Rat) * (10 : Rat) ^ (e + place - digits.length) := by
  have zeros (k : Nat) : ∀ c ∈ List.replicate k '0', c.isDigit = true := by
    intro c inside
    rw [List.eq_of_mem_replicate inside]
    decide
  unfold pointAt
  split
  · next left =>
    refine ⟨by simp,fun c inside => ?_,by simp,fun e => ?_⟩
    · rcases List.mem_append.mp inside with zero | digit
      · exact zeros _ c zero
      · exact all_digits c digit
    · have leading : value (['0'] ++ (List.replicate (-place).toNat '0' ++ digits)) = value digits := by
        have both := value_zeros ((-place).toNat + 1) digits
        rwa [List.replicate_succ] at both
      have length : e - ((List.replicate (-place).toNat '0' ++ digits).length : Int) = e + place - digits.length := by
        rw [List.length_append,List.length_replicate]
        omega
      rw [leading,length]
  · split
    · next right =>
      refine ⟨fun c inside => ?_,by simp,by simp [some_digit],fun e => ?_⟩
      · rcases List.mem_append.mp inside with digit | zero
        · exact all_digits c digit
        · exact zeros _ c zero
      · rw [List.append_nil,value_shifted]
        push_cast
        have split_power : (10 : Rat) ^ (e + place - digits.length) =
            (10 : Rat) ^ (place - digits.length).toNat * (10 : Rat) ^ e := by
          rw [← zpow_natCast,← zpow_add₀ (by norm_num)]
          congr 1
          omega
        rw [split_power]
        simp
        ring
    · next within =>
      refine ⟨fun c inside => all_digits c (List.mem_of_mem_take inside),
        fun c inside => all_digits c (List.mem_of_mem_drop inside),?_,fun e => ?_⟩
      · have first : 0 < place.toNat := by omega
        intro empty
        have none_taken := congrArg List.length empty
        rw [List.length_take,List.length_nil] at none_taken
        have length := List.length_pos_of_ne_nil some_digit
        omega
      · rw [List.take_append_drop]
        congr 2
        rw [List.length_drop]
        omega

/-- The text of a decimal number is read back. -/
theorem readDecimal_text {negative : Bool} {coefficient : Nat} {exponent : Int} :
    readDecimal (finite negative coefficient exponent).text = (finite negative coefficient exponent).toRat := by
  simp only [text,toRat]
  generalize (if exponent ≤ 0 ∧ exponent + ((Nat.toDigits 10 coefficient).length : Int) > -6
    then exponent + ((Nat.toDigits 10 coefficient).length : Int) else 1) = place
  obtain ⟨before,after,some_digit,same⟩ := pointAt_value
    (fun _ (inside : _ ∈ Nat.toDigits 10 coefficient) => toDigits_isDigit inside) (toDigits_ne_nil coefficient) place
  generalize pointAt (Nat.toDigits 10 coefficient) place = parts at *
  have unsigned := readUnsigned_parts before after some_digit
    (exponent + ((Nat.toDigits 10 coefficient).length : Int) - place)
  rw [same,value_toDigits,show exponent + ((Nat.toDigits 10 coefficient).length : Int) - place + place -
    ((Nat.toDigits 10 coefficient).length : Int) = exponent by omega] at unsigned
  have no_sign : splitSign (parts.1 ++ (pointed parts.2 ++
      exponentText (exponent + ((Nat.toDigits 10 coefficient).length : Int) - place))) = (false,parts.1 ++
      (pointed parts.2 ++ exponentText (exponent + ((Nat.toDigits 10 coefficient).length : Int) - place))) := by
    refine splitSign_digits (fun c head => ?_)
    rw [List.head?_append_of_ne_nil _ some_digit] at head
    exact before c (List.mem_of_mem_head? head)
  cases negative with
  | true => simp [readDecimal,splitSign,unsigned]
  | false => simp [readDecimal,no_sign,unsigned]

end Decimal

end Numeral
