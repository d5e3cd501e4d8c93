import Mathlib.Tactic.Ring
import FineractBi.Lib.Calendar
import FineractBi.Lib.Numeral

/-!
Dates and times in ISO 8601 text: a date is year, month and day, a time of day
may have a fraction of a second, and a zone is UTC or an offset from it.
-/
namespace IsoTime
open Calendar Numeral

private theorem ediv_of_split {a b y r : Int} (split : a = b * y + r) (lo : 0 ≤ r) (hi : r < b) : a / b = y := by
  rw [split,Int.add_comm,Int.add_mul_ediv_left _ _ (by omega),Int.ediv_eq_zero_of_lt lo hi,Int.zero_add]

private theorem split_by {b : Int} (positive : 0 < b) (a : Int) : ∃ q r : Int, a = b * q + r ∧ 0 ≤ r ∧ r < b :=
  ⟨a / b,a % b,(Int.mul_ediv_add_emod a b).symm,Int.emod_nonneg a (by omega),Int.emod_lt_of_pos a positive⟩

/-- The years before the day of an era, from its centuries, leap cycles, years and days. -/
theorem year_of_day {q k j t : Int} (century : 0 ≤ q ∧ q ≤ 3) (quad : 0 ≤ k ∧ k ≤ 24) (year : 0 ≤ j ∧ j ≤ 3)
    (day : 0 ≤ t ∧ t ≤ 365) (long : t = 365 → j = 3 ∧ k ≤ 23) {doe : Int}
    (split : doe = 36524 * q + 1461 * k + 365 * j + t) :
    (doe - doe / 1460 + doe / 36524 - doe / 146096) / 365 = 100 * q + 4 * k + j := by
  have centuries : doe / 36524 = q := by omega
  have eras : doe / 146096 = 0 := by omega
  have quads : doe / 1460 = 25 * q + k ∧ t ≤ 364 ∨ doe / 1460 = 25 * q + k + 1 ∧ 1 ≤ t := by omega
  rw [centuries,eras]
  rcases quads with ⟨same,short⟩ | ⟨next,late⟩
  · rw [same]
    exact ediv_of_split (r := t) (by omega) (by omega) (by omega)
  · rw [next]
    exact ediv_of_split (r := t - 1) (by omega) (by omega) (by omega)

/-- A day of an era but the last: its century, leap cycle, year and day of the year. -/
theorem day_split {doe : Int} (lo : 0 ≤ doe) (hi : doe < 146096) : ∃ q k j t : Int,
    (0 ≤ q ∧ q ≤ 3) ∧ (0 ≤ k ∧ k ≤ 24) ∧ (0 ≤ j ∧ j ≤ 3) ∧ (0 ≤ t ∧ t ≤ 365) ∧ (t = 365 → j = 3 ∧ k ≤ 23) ∧
      doe = 36524 * q + 1461 * k + 365 * j + t := by
  obtain ⟨q,r,century,rlo,rhi⟩ := split_by (b := 36524) (by decide) doe
  obtain ⟨k,s,quad,slo,shi⟩ := split_by (b := 1461) (by decide) r
  obtain ⟨j,t,year,tlo,thi⟩ := split_by (b := 365) (by decide) s
  have q_range : 0 ≤ q ∧ q ≤ 3 := by omega
  have k_range : 0 ≤ k ∧ k ≤ 24 := by omega
  by_cases leap : j = 4
  · have k_short : k ≤ 23 := by omega
    exact ⟨q,k,3,365,q_range,k_range,by decide,by decide,fun _ => ⟨rfl,k_short⟩,by omega⟩
  · exact ⟨q,k,j,t,q_range,k_range,by omega,by omega,fun long => by omega,by omega⟩

/-- A day of an era: the years before it and its day of the year. -/
theorem era_year {doe : Int} (lo : 0 ≤ doe) (hi : doe ≤ 146096) : ∃ y t : Int,
    (doe - doe / 1460 + doe / 36524 - doe / 146096) / 365 = y ∧ (0 ≤ y ∧ y ≤ 399) ∧ (0 ≤ t ∧ t ≤ 365) ∧
      doe = 365 * y + y / 4 - y / 100 + t := by
  by_cases last : doe = 146096
  · subst last
    exact ⟨399,365,by decide,by decide,by decide,by decide⟩
  · obtain ⟨q,k,j,t,century,quad,year,day,long,split⟩ := day_split lo (by omega)
    have quads : (100 * q + 4 * k + j) / 4 = 25 * q + k := ediv_of_split (r := j) (by omega) (by omega) (by omega)
    have centuries : (100 * q + 4 * k + j) / 100 = q := ediv_of_split (r := 4 * k + j) (by omega) (by omega) (by omega)
    refine ⟨100 * q + 4 * k + j,t,year_of_day century quad year day long split,⟨by omega,by omega⟩,day,?_⟩
    rw [quads,centuries]
    omega

private theorem month_of_day {t : Int} (lo : 0 ≤ t) (hi : t ≤ 365) :
    (0 ≤ (5 * t + 2) / 153 ∧ (5 * t + 2) / 153 ≤ 11) ∧
      1 ≤ t - (153 * ((5 * t + 2) / 153) + 2) / 5 + 1 ∧ t - (153 * ((5 * t + 2) / 153) + 2) / 5 + 1 ≤ 31 := by
  omega

/-- Year, month and day of a date are those of the calendar, and give the date back. -/
theorem ofCivil_toCivil (date : Date) : ofCivil (toCivil date).1 (toCivil date).2.1 (toCivil date).2.2 = date ∧
    (1 ≤ (toCivil date).2.1 ∧ (toCivil date).2.1 ≤ 12) ∧ 1 ≤ (toCivil date).2.2 ∧ (toCivil date).2.2 ≤ 31 := by
  obtain ⟨era,doe,split,lo,hi⟩ := split_by (b := 146097) (by decide) (date + 719468)
  have era_eq : (date + 719468 : Int) / 146097 = era := ediv_of_split split lo hi
  have doe_eq : (date + 719468 - era * 146097 : Int) = doe := by
    rw [split]
    ring
  obtain ⟨y,t,year,⟨y_lo,y_hi⟩,⟨t_lo,t_hi⟩,day⟩ := era_year lo (by omega)
  obtain ⟨⟨m_lo,m_hi⟩,d_lo,d_hi⟩ := month_of_day t_lo t_hi
  have rest : doe - (365 * y + y / 4 - y / 100) = t := by omega
  simp only [toCivil,era_eq,doe_eq,year,rest]
  generalize (5 * t + 2) / 153 = m at *
  have date_eq : era * 146097 + doe - 719468 = date := by
    have plain : ∀ a b c : Int, a + 719468 = 146097 * b + c → b * 146097 + c - 719468 = a := by
      intro a b c
      omega
    exact plain _ _ _ split
  have first : (y + era * 400) / 400 = era := ediv_of_split (r := y) (by omega) y_lo (by omega)
  have cancel : y + era * 400 - era * 400 = y := by omega
  have within : 365 * y + y / 4 - y / 100 + t = doe := day.symm
  by_cases late : m < 10
  · have month : ¬ m + 3 ≤ 2 := by omega
    have month' : m + 3 > 2 := by omega
    have day_back : (153 * (m + 3 - 3) + 2) / 5 + (t - (153 * m + 2) / 5 + 1) - 1 = t := by
      rw [show m + 3 - 3 = m by omega]
      omega
    refine ⟨?_,?_,d_lo,d_hi⟩
    · simp only [ofCivil,late,if_true,month,if_false,month',first,cancel,day_back]
      rw [← date_eq,← within]
      ring
    · simp only [late,if_true]
      omega
  · have month : m - 9 ≤ 2 := by omega
    have month' : ¬ m - 9 > 2 := by omega
    have previous : y + era * 400 + 1 - 1 = y + era * 400 := by omega
    have day_back : (153 * (m - 9 + 9) + 2) / 5 + (t - (153 * m + 2) / 5 + 1) - 1 = t := by
      rw [show m - 9 + 9 = m by omega]
      omega
    refine ⟨?_,?_,d_lo,d_hi⟩
    · simp only [ofCivil,late,if_false,month,if_true,month',previous,first,cancel,day_back]
      rw [← date_eq,← within]
      ring
    · simp only [late,if_false]
      omega

/-- The year of a date is one of four digits, and not the year zero. -/
def FourDigitYear (date : Date) : Prop := 1 ≤ (toCivil date).1 ∧ (toCivil date).1 ≤ 9999

instance (date : Date) : Decidable (FourDigitYear date) := inferInstanceAs (Decidable (_ ∧ _))

/-- Such dates lie within three million days of 1970 or so. -/
theorem FourDigitYear.range {date : Date} (year : FourDigitYear date) : -800000 ≤ date ∧ date ≤ 4000000 := by
  obtain ⟨back,month,day⟩ := ofCivil_toCivil date
  obtain ⟨lo,hi⟩ := year
  have bounds (y m d : Int) (year : 1 ≤ y ∧ y ≤ 9999) (month : 1 ≤ m ∧ m ≤ 12) (day : 1 ≤ d ∧ d ≤ 31) :
      -800000 ≤ ofCivil y m d ∧ ofCivil y m d ≤ 4000000 := by
    have inner (y' doy : Int) (year : 0 ≤ y' ∧ y' ≤ 9999) (doy_range : 0 ≤ doy ∧ doy ≤ 400) :
        -800000 ≤ y' / 400 * 146097 + ((y' - y' / 400 * 400) * 365 + (y' - y' / 400 * 400) / 4 -
          (y' - y' / 400 * 400) / 100 + doy) - 719468 ∧
        y' / 400 * 146097 + ((y' - y' / 400 * 400) * 365 + (y' - y' / 400 * 400) / 4 -
          (y' - y' / 400 * 400) / 100 + doy) - 719468 ≤ 4000000 := by omega
    unfold ofCivil
    refine inner _ _ ?_ ?_
    · split <;> omega
    · split <;> omega
  rw [← back]
  exact bounds _ _ _ ⟨lo,hi⟩ month day

def dateText (date : Date) : List Char :=
  pad 4 (toCivil date).1.toNat ++ ('-' :: (pad 2 (toCivil date).2.1.toNat ++ ('-' :: pad 2 (toCivil date).2.2.toNat)))

/-- Microseconds in a day. -/
def DAY : Int := 86400000000

def dateOf (micros : Int) : Date := micros / DAY

/-- The time of a day in microseconds. -/
def clock (micros : Int) : Nat := (micros % DAY).toNat

/-- A fraction of a second with `width` digits. -/
def fractionText (width micros : Nat) : List Char := if width = 0 then [] else '.' :: pad width (micros / 10 ^ (6 - width))

/-- Hours, minutes, seconds and a fraction. -/
def clockText (width time : Nat) : List Char :=
  pad 2 (time / 3600000000) ++ (':' :: (pad 2 (time / 60000000 % 60) ++ (':' :: (pad 2 (time / 1000000 % 60) ++
    fractionText width (time % 1000000)))))

/-- The zone of a time in UTC. -/
inductive Zone
  | letter | offset
  deriving DecidableEq

def Zone.text : Zone → List Char
  | letter => ['Z']
  | offset => ['+','0','0',':','0','0']

/-- A point in time, in microseconds since 1970. -/
def instantText (zone : Zone) (width : Nat) (micros : Int) : List Char :=
  dateText (dateOf micros) ++ ('T' :: (clockText width (clock micros) ++ zone.text))

/-- A number of exactly `width` digits, and the rest. -/
def fixed (width : Nat) (text : List Char) : Option (Nat × List Char) :=
  if (text.take width).length = width then (readNat (text.take width)).map (fun n => (n,text.drop width)) else none

def expect (c : Char) : List Char → Option (List Char)
  | [] => none
  | d :: rest => if d = c then some rest else none

def readDate (text : List Char) : Option (Date × List Char) :=
  (fixed 4 text).bind fun (year,text) => (expect '-' text).bind fun text =>
  (fixed 2 text).bind fun (month,text) => (expect '-' text).bind fun text =>
  (fixed 2 text).bind fun (day,text) =>
    if year ≠ 0 ∧ toCivil (ofCivil year month day) = ((year : Int),(month : Int),(day : Int))
    then some (ofCivil year month day,text) else none

/-- The microseconds of a fraction of up to six digits, if there is one, and the rest. -/
def readFraction (text : List Char) : Option (Nat × List Char) :=
  let parts := splitFraction text
  if parts.1.length ≤ 6 then some (value parts.1 * 10 ^ (6 - parts.1.length),parts.2) else none

def readClock (text : List Char) : Option (Nat × List Char) :=
  (fixed 2 text).bind fun (hour,text) => (expect ':' text).bind fun text =>
  (fixed 2 text).bind fun (minute,text) => (expect ':' text).bind fun text =>
  (fixed 2 text).bind fun (second,text) => (readFraction text).bind fun (micros,text) =>
    if hour < 24 ∧ minute < 60 ∧ second < 60
    then some (hour * 3600000000 + minute * 60000000 + second * 1000000 + micros,text) else none

/-- The offset of a zone in microseconds. -/
def readZone : List Char → Option Int
  | [] => none
  | c :: rest =>
    if c = 'Z' then if rest = [] then some 0 else none
    else if c = '+' ∨ c = '-' then
      (fixed 2 rest).bind fun (hours,text) => (expect ':' text).bind fun text => (fixed 2 text).bind fun (minutes,text) =>
        if text = [] ∧ minutes < 60
        then some ((if c = '-' then -1 else 1) * ((hours * 60 + minutes) * 60000000)) else none
    else none

/-- A date and nothing else. -/
def readWholeDate (text : List Char) : Option Date :=
  (readDate text).bind fun (date,rest) => if rest = [] then some date else none

def readInstant (text : List Char) : Option Int :=
  (readDate text).bind fun (date,text) => (expect 'T' text).bind fun text =>
  (readClock text).bind fun (time,text) => (readZone text).map fun offset => date * DAY + time - offset

private theorem fixed_pad {width n : Nat} (some_digit : width ≠ 0) (fits : n < 10 ^ width) (rest : List Char) :
    fixed width (pad width n ++ rest) = some (n,rest) := by
  have first : (pad width n ++ rest).take width = pad width n := List.take_left' (pad_length width n)
  have later : (pad width n ++ rest).drop width = rest := List.drop_left' (pad_length width n)
  rw [fixed,first,later,pad_length,if_pos rfl,readNat_pad some_digit fits]
  rfl

@[simp] theorem expect_self (c : Char) (rest : List Char) : expect c (c :: rest) = some rest := by simp [expect]

/-- A date of a year with four digits is read back. -/
theorem readDate_text {date : Date} (year : FourDigitYear date) (rest : List Char) :
    readDate (dateText date ++ rest) = some (date,rest) := by
  obtain ⟨back,⟨month_lo,month_hi⟩,day_lo,day_hi⟩ := ofCivil_toCivil date
  obtain ⟨year_lo,year_hi⟩ := year
  have same : toCivil date = ((toCivil date).1,(toCivil date).2.1,(toCivil date).2.2) := rfl
  generalize (toCivil date).1 = y at *
  generalize (toCivil date).2.1 = m at *
  generalize (toCivil date).2.2 = d at *
  obtain ⟨y,rfl⟩ := Int.eq_ofNat_of_zero_le (show 0 ≤ y by omega)
  obtain ⟨m,rfl⟩ := Int.eq_ofNat_of_zero_le (show 0 ≤ m by omega)
  obtain ⟨d,rfl⟩ := Int.eq_ofNat_of_zero_le (show 0 ≤ d by omega)
  have not_zero : y ≠ 0 := by omega
  simp only [readDate,dateText,same,List.append_assoc,List.cons_append,Int.toNat_natCast,
    fixed_pad (by decide) (show y < 10 ^ 4 by omega),fixed_pad (by decide) (show m < 10 ^ 2 by omega),
    fixed_pad (by decide) (show d < 10 ^ 2 by omega),Option.bind_some,expect_self,back,not_zero,ne_eq,not_false_eq_true,
    true_and,if_true]

theorem readWholeDate_text {date : Date} (year : FourDigitYear date) : readWholeDate (dateText date) = some date := by
  have whole := readDate_text year []
  rw [List.append_nil] at whole
  simp [readWholeDate,whole]

/-- What follows a time does not go on with it. -/
def Ends (rest : List Char) : Prop := ∀ c ∈ rest.head?, c ≠ '.' ∧ c.isDigit = false

private theorem readFraction_text {width micros : Nat} (digits : width ≤ 6) (exact' : 10 ^ (6 - width) ∣ micros)
    (fits : micros < 1000000) {rest : List Char} (ends : Ends rest) :
    readFraction (fractionText width micros ++ rest) = some (micros,rest) := by
  unfold readFraction fractionText
  split
  · next whole =>
    subst whole
    obtain rfl : micros = 0 := Nat.eq_zero_of_dvd_of_lt exact' fits
    have nothing : splitFraction rest = ([],rest) := by
      cases rest with
      | nil => rfl
      | cons c more => simp [splitFraction,(ends c rfl).1]
    simp [nothing,value]
  · next some_digit =>
    have part : micros / 10 ^ (6 - width) < 10 ^ width := by
      refine Nat.div_lt_of_lt_mul ?_
      rw [← pow_add,Nat.sub_add_cancel digits]
      exact fits
    have digits_read : splitDigits (pad width (micros / 10 ^ (6 - width)) ++ rest) =
        (pad width (micros / 10 ^ (6 - width)),rest) :=
      splitDigits_append (fun _ inside => pad_isDigit inside) (fun c head => (ends c head).2)
    simp [splitFraction,digits_read,value_pad part,digits,Nat.div_mul_cancel exact']

/-- A time of day is read back. -/
theorem readClock_text {width time : Nat} (digits : width ≤ 6) (exact' : 10 ^ (6 - width) ∣ time % 1000000)
    (fits : time < 86400000000) {rest : List Char} (ends : Ends rest) :
    readClock (clockText width time ++ rest) = some (time,rest) := by
  have hour : time / 3600000000 < 24 := by omega
  have minute : time / 60000000 % 60 < 60 := Nat.mod_lt _ (by decide)
  have second : time / 1000000 % 60 < 60 := Nat.mod_lt _ (by decide)
  have sum : time / 3600000000 * 3600000000 + time / 60000000 % 60 * 60000000 + time / 1000000 % 60 * 1000000 +
      time % 1000000 = time := by omega
  have fraction := readFraction_text digits exact' (Nat.mod_lt time (by decide)) ends
  simp only [readClock,clockText,List.append_assoc,List.cons_append,
    fixed_pad (by decide) (show time / 3600000000 < 10 ^ 2 by omega),
    fixed_pad (by decide) (show time / 60000000 % 60 < 10 ^ 2 by omega),
    fixed_pad (by decide) (show time / 1000000 % 60 < 10 ^ 2 by omega),
    Option.bind_some,expect_self,fraction,hour,minute,second,and_self,if_true,sum]

private theorem Zone.text_ends (zone : Zone) : Ends zone.text := by
  cases zone <;> simp [Ends,text]

private theorem readZone_text (zone : Zone) : readZone zone.text = some 0 := by
  cases zone <;> decide

/-- A point in time is read back from its text, when the fraction has enough digits. -/
theorem readInstant_text {micros : Int} (year : FourDigitYear (dateOf micros)) {width : Nat} (digits : width ≤ 6)
    (exact' : 10 ^ (6 - width) ∣ clock micros % 1000000) (zone : Zone) :
    readInstant (instantText zone width micros) = some micros := by
  have positive : (0 : Int) < DAY := by decide
  have fits : clock micros < 86400000000 := by
    have less := Int.emod_lt_of_pos micros positive
    rw [clock]
    simp only [DAY] at less ⊢
    omega
  have same : dateOf micros * DAY + (clock micros : Int) - 0 = micros := by
    rw [clock,Int.toNat_of_nonneg (Int.emod_nonneg micros positive.ne'),sub_zero,dateOf,mul_comm]
    exact Int.mul_ediv_add_emod micros DAY
  simp only [readInstant,instantText,readDate_text year,Option.bind_some,expect_self,
    readClock_text digits exact' fits zone.text_ends,readZone_text,Option.map_some,same]

end IsoTime
