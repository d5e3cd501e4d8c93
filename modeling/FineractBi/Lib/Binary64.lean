import Mathlib.Data.Int.Log
import Mathlib.Data.Rat.Floor

/-!
Binary64 numbers by their values. The result of an operation is the nearest number
of the format, of two the even one; the sign of a zero is left out.
-/
namespace Binary64

/-- The nearest integer, of two the even one. -/
def halfEven (q : Rat) : Int :=
  if q - ⌊q⌋ < 1 / 2 then ⌊q⌋
  else if 1 / 2 < q - ⌊q⌋ then ⌊q⌋ + 1
  else if ⌊q⌋ % 2 = 0 then ⌊q⌋ else ⌊q⌋ + 1

/-- The exponent of the last of 53 binary digits, and of the last digit that there is. -/
def lastPlace (q : Rat) : Int := max (-1074) (Int.log 2 |q| - 52)

/-- The nearest number with so many digits, however large. -/
def rounded (q : Rat) : Rat := halfEven (q / 2 ^ lastPlace q) * 2 ^ lastPlace q

private theorem halfEven_cases (q : Rat) : halfEven q = ⌊q⌋ ∧ q - ⌊q⌋ ≤ 1 / 2 ∨ halfEven q = ⌊q⌋ + 1 ∧ 1 / 2 ≤ q - ⌊q⌋ := by
  unfold halfEven
  split
  · next below => exact .inl ⟨rfl,below.le⟩
  · next above =>
    split
    · next less => exact .inr ⟨rfl,less.le⟩
    · next most =>
      split
      · exact .inl ⟨rfl,not_lt.mp most⟩
      · exact .inr ⟨rfl,not_lt.mp above⟩

private theorem halfEven_intCast (n : Int) : halfEven n = n := by simp [halfEven]

private theorem halfEven_mono {a b : Rat} (less : a ≤ b) : halfEven a ≤ halfEven b := by
  have floors : ⌊a⌋ ≤ ⌊b⌋ := Int.floor_mono less
  rcases halfEven_cases a with ⟨down,_⟩ | ⟨up,rest_a⟩ <;> rcases halfEven_cases b with ⟨down',rest_b⟩ | ⟨up',_⟩
  · omega
  · omega
  · rcases floors.lt_or_eq with lower | same
    · omega
    · -- Both are halfway between the same integers.
      rw [same] at rest_a
      have equal : a = b := by linarith
      rw [equal]
  · omega

private theorem place_pos (q : Rat) : (0 : Rat) < 2 ^ lastPlace q := zpow_pos two_pos _

private theorem rounded_nonneg {q : Rat} (positive : 0 ≤ q) : 0 ≤ rounded q := by
  have integer : halfEven ((0 : Int) : Rat) ≤ halfEven (q / 2 ^ lastPlace q) :=
    halfEven_mono (by simpa using div_nonneg positive (place_pos q).le)
  rw [halfEven_intCast] at integer
  exact mul_nonneg (by exact_mod_cast integer) (place_pos q).le

private theorem rounded_nonpos {q : Rat} (negative : q ≤ 0) : rounded q ≤ 0 := by
  have integer : halfEven (q / 2 ^ lastPlace q) ≤ halfEven ((0 : Int) : Rat) :=
    halfEven_mono (by simpa using div_nonpos_of_nonpos_of_nonneg negative (place_pos q).le)
  rw [halfEven_intCast] at integer
  exact mul_nonpos_of_nonpos_of_nonneg (by exact_mod_cast integer) (place_pos q).le

/-- A number up to a power of two, of which the last place is a part, is rounded to one up to it. -/
theorem rounded_le_zpow {q : Rat} {e : Int} (place : lastPlace q ≤ e) (less : q ≤ 2 ^ e) : rounded q ≤ 2 ^ e := by
  obtain ⟨k,rfl⟩ := Int.le.dest place
  have split : (2 : Rat) ^ (lastPlace q + k) = 2 ^ lastPlace q * ((2 ^ k : Int) : Rat) := by
    rw [zpow_add₀ two_ne_zero,zpow_natCast]
    push_cast
    rfl
  have integer : halfEven (q / 2 ^ lastPlace q) ≤ halfEven ((2 ^ k : Int) : Rat) :=
    halfEven_mono ((div_le_iff₀' (place_pos q)).mpr (split ▸ less))
  rw [halfEven_intCast] at integer
  rw [rounded,split,mul_comm]
  exact mul_le_mul_of_nonneg_left (by exact_mod_cast integer) (place_pos q).le

private theorem zpow_le_rounded {q : Rat} {e : Int} (place : lastPlace q ≤ e) (less : 2 ^ e ≤ q) : 2 ^ e ≤ rounded q := by
  obtain ⟨k,rfl⟩ := Int.le.dest place
  have split : (2 : Rat) ^ (lastPlace q + k) = 2 ^ lastPlace q * ((2 ^ k : Int) : Rat) := by
    rw [zpow_add₀ two_ne_zero,zpow_natCast]
    push_cast
    rfl
  have integer : halfEven ((2 ^ k : Int) : Rat) ≤ halfEven (q / 2 ^ lastPlace q) :=
    halfEven_mono ((le_div_iff₀' (place_pos q)).mpr (split ▸ less))
  rw [halfEven_intCast] at integer
  rw [rounded,split,mul_comm (halfEven _ : Rat)]
  exact mul_le_mul_of_nonneg_left (by exact_mod_cast integer) (place_pos q).le

/-- Rounding keeps the order. -/
theorem rounded_mono {a b : Rat} (positive : 0 ≤ a) (less : a ≤ b) : rounded a ≤ rounded b := by
  rcases positive.eq_or_lt with rfl | positive
  · exact (rounded_nonpos le_rfl).trans (rounded_nonneg less)
  have logs : Int.log 2 a ≤ Int.log 2 b := Int.log_mono_right positive less
  have places : lastPlace a ≤ lastPlace b := by
    simp only [lastPlace,abs_of_pos positive,abs_of_pos (positive.trans_le less)]
    omega
  rcases places.lt_or_eq with finer | same
  · -- A power of two lies between them, and both are rounded to their side of it.
    have digits : lastPlace b = Int.log 2 b - 52 ∧ Int.log 2 a < Int.log 2 b := by
      simp only [lastPlace,abs_of_pos positive,abs_of_pos (positive.trans_le less)] at finer ⊢
      omega
    have below : a ≤ 2 ^ Int.log 2 b := (Int.lt_zpow_iff_log_lt one_lt_two positive).mpr digits.2 |>.le
    have above : (2 : Rat) ^ Int.log 2 b ≤ b := Int.zpow_log_le_self one_lt_two (positive.trans_le less)
    exact (rounded_le_zpow (by omega) below).trans (zpow_le_rounded (by omega) above)
  · rw [rounded,rounded,same]
    have integers := halfEven_mono (div_le_div_of_nonneg_right less (place_pos b).le)
    exact mul_le_mul_of_nonneg_right (by exact_mod_cast integers) (place_pos b).le

/-- So many digits at places that there are, and below the bound. -/
structure Representable (q : Rat) : Prop where
  digits : ∃ m e : Int, |m| ≤ 2 ^ 53 ∧ -1074 ≤ e ∧ q = m * 2 ^ e
  bounded : |q| < 2 ^ 1024

inductive Double
  | nan
  | infinite (negative : Bool)
  | finite (q : Rat) (exact : Representable q)

private theorem rounded_digits (q : Rat) : ∃ m e : Int, |m| ≤ 2 ^ 53 ∧ -1074 ≤ e ∧ rounded q = m * 2 ^ e := by
  refine ⟨halfEven (q / 2 ^ lastPlace q),lastPlace q,?_,le_max_left _ _,rfl⟩
  have last : Int.log 2 |q| + 1 ≤ lastPlace q + (53 : Nat) := by
    unfold lastPlace
    omega
  have scaled : |q| ≤ ((2 ^ 53 : Int) : Rat) * 2 ^ lastPlace q := by
    calc |q| ≤ 2 ^ (Int.log 2 |q| + 1) := (Int.lt_zpow_succ_log_self one_lt_two |q|).le
      _ ≤ 2 ^ (lastPlace q + (53 : Nat)) := zpow_le_zpow_right₀ one_le_two last
      _ = ((2 ^ 53 : Int) : Rat) * 2 ^ lastPlace q := by
        rw [zpow_add₀ two_ne_zero,zpow_natCast,mul_comm]
        norm_num
  obtain ⟨lower,upper⟩ := abs_le.mp scaled
  have least : halfEven ((-2 ^ 53 : Int) : Rat) ≤ halfEven (q / 2 ^ lastPlace q) :=
    halfEven_mono ((le_div_iff₀ (place_pos q)).mpr (by push_cast at lower ⊢; linarith))
  have most : halfEven (q / 2 ^ lastPlace q) ≤ halfEven ((2 ^ 53 : Int) : Rat) :=
    halfEven_mono ((div_le_iff₀ (place_pos q)).mpr upper)
  rw [halfEven_intCast] at least most
  exact abs_le.mpr ⟨least,most⟩

namespace Double

/-- The number that is nearest, or an infinity beyond the bound. -/
def ofRat (q : Rat) : Double :=
  if bounded : |rounded q| < 2 ^ 1024 then .finite (rounded q) ⟨rounded_digits q,bounded⟩
  else .infinite (rounded q < 0)

/-- The product with an integer that the format holds exactly. -/
def timesInt : Double → Int → Double
  | .nan, _ => .nan
  | .infinite negative, n => if n = 0 then .nan else .infinite (negative != decide (n < 0))
  | .finite q _, n => ofRat (q * n)

/-- The integer above, cut to 32 bits; of what is no number, zero. -/
def ceilInt : Double → Int
  | .nan => 0
  | .infinite negative => if negative then -2 ^ 31 else 2 ^ 31 - 1
  | .finite q _ => max (-2 ^ 31) (min (2 ^ 31 - 1) ⌈q⌉)

private theorem ceilInt_le (x : Double) : x.ceilInt ≤ 2 ^ 31 - 1 := by
  cases x with
  | nan => decide
  | infinite negative => cases negative <;> decide
  | finite q _ =>
    simp only [ceilInt]
    omega

theorem ceilInt_ofRat_nonpos {q : Rat} (negative : q ≤ 0) : (ofRat q).ceilInt ≤ 0 := by
  have below := rounded_nonpos negative
  unfold ofRat
  split
  · have integer : ⌈rounded q⌉ ≤ 0 := Int.ceil_le.mpr (by simpa using below)
    simp only [ceilInt]
    omega
  · next beyond =>
    have less : rounded q < 0 := below.lt_of_ne (fun zero => beyond (by rw [zero]; norm_num))
    simp [ceilInt,less]

theorem ceilInt_ofRat_mono {a b : Rat} (positive : 0 ≤ a) (less : a ≤ b) : (ofRat a).ceilInt ≤ (ofRat b).ceilInt := by
  have order := rounded_mono positive less
  have above := rounded_nonneg positive
  by_cases bounded : |rounded b| < 2 ^ 1024
  · have bounded' : |rounded a| < 2 ^ 1024 := by
      rw [abs_of_nonneg above]
      rw [abs_of_nonneg (above.trans order)] at bounded
      exact order.trans_lt bounded
    have integers := Int.ceil_mono order
    rw [ofRat,ofRat,dif_pos bounded,dif_pos bounded']
    simp only [ceilInt]
    omega
  · have greatest : (ofRat b).ceilInt = 2 ^ 31 - 1 := by
      rw [ofRat,dif_neg bounded]
      simp [ceilInt,not_lt.mpr (above.trans order)]
    exact greatest ▸ ceilInt_le _

end Double

end Binary64
