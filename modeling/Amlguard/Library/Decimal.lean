import Amlguard.Library.Rounding
import Amlguard.Library.Spelling
import Mathlib.Data.List.TakeWhile

/-!
# Decimal numbers

A decimal number is a sign, its digits and an exponent; numbers of one value may have different exponents,
and are then written differently. An operation computes the exact value, rounds it to a format, and gives
the result the exponent that is closest to an ideal one.

The text of a number is written without an exponent when it is short enough that way. Every text is read
back as the number, with its sign and its exponent.
-/

open Rounding

/-- A decimal number. -/
structure Decimal where
  negative : Bool
  digits : ℕ
  exponent : ℤ
  deriving DecidableEq

namespace Decimal

/-- The digits with the sign. -/
def signed (d : Decimal) : ℤ := if d.negative then -d.digits else d.digits

/-- The value of a number. -/
def value (d : Decimal) : ℚ := d.signed * ten d.exponent

/-- A number without a fraction. -/
def ofNat (n : ℕ) : Decimal := ⟨false, n, 0⟩

@[simp] theorem value_ofNat (n : ℕ) : (ofNat n).value = n := by
  simp [value, signed, ofNat, ten]

/-- `str(d)` without the sign. -/
def unsignedText (d : Decimal) : List Char :=
  let digits := Nat.toDigits 10 d.digits
  let point : ℤ := d.exponent + digits.length
  if d.exponent ≤ 0 ∧ -6 < point then
    if point ≤ 0 then '0' :: '.' :: (List.replicate (-point).toNat '0' ++ digits)
    else if d.exponent = 0 then digits
    else digits.take point.toNat ++ '.' :: digits.drop point.toNat
  else
    let mantissa := if digits.length ≤ 1 then digits else digits.take 1 ++ '.' :: digits.drop 1
    mantissa ++ 'E' :: (if point - 1 < 0 then '-' else '+') :: Nat.toDigits 10 (point - 1).natAbs

/-- `str(d)`. -/
def str (d : Decimal) : String :=
  String.ofList (if d.negative then '-' :: d.unsignedText else d.unsignedText)

/-- The number before a point and the one behind it, and how many digits are behind it. -/
def readMantissa (text : List Char) : ℕ × ℕ :=
  let fraction := (text.dropWhile (· ≠ '.')).drop 1
  (Nat.ofDigitChars 10 (text.takeWhile (· ≠ '.') ++ fraction) 0, fraction.length)

/-- The exponent behind its sign. -/
def readExponent : List Char → ℤ
  | [] => 0
  | sign :: digits =>
    let n : ℤ := Nat.ofDigitChars 10 digits 0
    if sign = '-' then -n else n

/-- The digits and the exponent of a text without a sign. -/
def read (text : List Char) : ℕ × ℤ :=
  let mantissa := readMantissa (text.takeWhile (· ≠ 'E'))
  (mantissa.1, readExponent ((text.dropWhile (· ≠ 'E')).drop 1) - mantissa.2)

section Text

/-- A text that joins two parts at a mark is taken apart at the first mark. -/
theorem takeWhile_mark {mark : Char} {left right : List Char} (h : mark ∉ left) :
    (left ++ mark :: right).takeWhile (· ≠ mark) = left ∧
      (left ++ mark :: right).dropWhile (· ≠ mark) = mark :: right := by
  have hleft : ∀ c ∈ left, decide (c ≠ mark) = true := fun c hc =>
    decide_eq_true fun heq => h (heq ▸ hc)
  constructor
  · rw [List.takeWhile_append_of_pos hleft]
    simp
  · rw [List.dropWhile_append_of_pos hleft]
    simp

/-- A text without the mark is not taken apart. -/
theorem takeWhile_no_mark {mark : Char} {text : List Char} (h : mark ∉ text) :
    text.takeWhile (· ≠ mark) = text ∧ text.dropWhile (· ≠ mark) = [] := by
  have htext : ∀ c ∈ text, decide (c ≠ mark) = true := fun c hc =>
    decide_eq_true fun heq => h (heq ▸ hc)
  constructor
  · exact List.takeWhile_eq_self_iff.mpr htext
  · exact List.dropWhile_eq_nil_iff.mpr htext

/-- The digits of a number hold no mark. -/
theorem notMem_toDigits {mark : Char} (h : mark.isDigit = false) (n : ℕ) : mark ∉ Nat.toDigits 10 n := by
  intro hmem
  have hdigit := Nat.isDigit_of_mem_toDigits (by decide) (by decide) hmem
  rw [hdigit] at h
  cases h

theorem readMantissa_plain {text : List Char} (h : '.' ∉ text) :
    readMantissa text = (Nat.ofDigitChars 10 text 0, 0) := by
  obtain ⟨htake, hdrop⟩ := takeWhile_no_mark h
  simp only [readMantissa, htake, hdrop, List.drop_nil, List.append_nil, List.length_nil]

theorem readMantissa_point {whole fraction : List Char} (h : '.' ∉ whole) :
    readMantissa (whole ++ '.' :: fraction) =
      (Nat.ofDigitChars 10 (whole ++ fraction) 0, fraction.length) := by
  obtain ⟨htake, hdrop⟩ := @takeWhile_mark '.' whole fraction h
  simp only [readMantissa, htake, hdrop, List.drop_one, List.tail_cons]

/-- A text without an exponent. -/
theorem read_plain {text : List Char} (h : 'E' ∉ text) :
    read text = ((readMantissa text).1, -((readMantissa text).2 : ℤ)) := by
  obtain ⟨htake, hdrop⟩ := takeWhile_no_mark h
  simp only [read, htake, hdrop, List.drop_nil, readExponent]
  rw [Int.zero_sub]

/-- A text with an exponent. -/
theorem read_scientific {mantissa exponent : List Char} (h : 'E' ∉ mantissa) :
    read (mantissa ++ 'E' :: exponent) =
      ((readMantissa mantissa).1, readExponent exponent - (readMantissa mantissa).2) := by
  obtain ⟨htake, hdrop⟩ := @takeWhile_mark 'E' mantissa exponent h
  simp only [read, htake, hdrop, List.drop_one, List.tail_cons]

/-- An exponent is written with its sign. -/
theorem readExponent_written (e : ℤ) :
    readExponent ((if e < 0 then '-' else '+') :: Nat.toDigits 10 e.natAbs) = e := by
  simp only [readExponent, Nat.ofDigitChars_ten_toDigits]
  split
  · rw [if_pos rfl]
    omega
  · rw [if_neg (by decide)]
    omega

/-- Digits that are taken apart are the same digits. -/
theorem ofDigitChars_split (n k : ℕ) :
    Nat.ofDigitChars 10 ((Nat.toDigits 10 n).take k ++ (Nat.toDigits 10 n).drop k) 0 = n := by
  rw [List.take_append_drop, Nat.ofDigitChars_ten_toDigits]

/-- Digits behind a zero and more zeros are the same number. -/
theorem ofDigitChars_zeros (n k : ℕ) :
    Nat.ofDigitChars 10 (['0'] ++ (List.replicate k '0' ++ Nat.toDigits 10 n)) 0 = n := by
  have h := Spelling.ofDigitChars_padded (k + 1 + (Nat.toDigits 10 n).length) n
  rw [Spelling.padded, Nat.add_sub_cancel, List.replicate_succ] at h
  exact h

/-- The text of a number is read as its digits and its exponent. -/
theorem read_unsignedText (d : Decimal) : read d.unsignedText = (d.digits, d.exponent) := by
  have hpoint : '.' ∉ Nat.toDigits 10 d.digits := notMem_toDigits (by decide) _
  have hmark : 'E' ∉ Nat.toDigits 10 d.digits := notMem_toDigits (by decide) _
  have hsplit : ∀ {mark : Char} (k : ℕ), mark ∉ Nat.toDigits 10 d.digits →
      mark ∉ (Nat.toDigits 10 d.digits).take k ∧ mark ∉ (Nat.toDigits 10 d.digits).drop k :=
    fun k h => ⟨fun hmem => h (List.mem_of_mem_take hmem), fun hmem => h (List.mem_of_mem_drop hmem)⟩
  unfold unsignedText
  dsimp only
  split
  · rename_i hshort
    split
    · -- zeros stand between the point and the digits
      rename_i hsmall
      change read (['0'] ++ '.' :: (_ ++ _)) = _
      rw [read_plain, readMantissa_point (by decide), ofDigitChars_zeros]
      · simp only [List.length_append, List.length_replicate, Prod.mk.injEq, true_and]
        omega
      · simp [hmark, List.mem_replicate]
    · split
      · rename_i hzero
        rw [read_plain hmark, readMantissa_plain hpoint, Nat.ofDigitChars_ten_toDigits, hzero]
        rfl
      · -- the point stands among the digits
        rename_i hlarge hwhole
        obtain ⟨htake, hdrop⟩ := hsplit (d.exponent + (Nat.toDigits 10 d.digits).length).toNat hmark
        rw [read_plain, readMantissa_point (hsplit _ hpoint).1, ofDigitChars_split]
        · simp only [List.length_drop, Prod.mk.injEq, true_and]
          omega
        · simp [htake, hdrop]
  · split
    · rename_i hone
      rw [read_scientific hmark, readExponent_written, readMantissa_plain hpoint,
        Nat.ofDigitChars_ten_toDigits]
      have hlength : 0 < (Nat.toDigits 10 d.digits).length := Nat.length_toDigits_pos
      simp only [Prod.mk.injEq, true_and]
      omega
    · -- one digit stands before the point
      rename_i hmany
      obtain ⟨htake, hdrop⟩ := hsplit 1 hmark
      rw [read_scientific, readExponent_written, readMantissa_point (hsplit 1 hpoint).1,
        ofDigitChars_split]
      · simp only [List.length_drop, Prod.mk.injEq, true_and]
        omega
      · simp only [List.mem_append, List.mem_cons, htake, hdrop]
        simp

/-- A text without a sign begins with a digit. -/
theorem unsignedText_ne_minus (d : Decimal) (rest : List Char) : d.unsignedText ≠ '-' :: rest := by
  obtain ⟨first, digits, heq⟩ := List.exists_cons_of_ne_nil (Nat.toDigits_ne_nil (n := d.digits) (b := 10))
  have hfirst : first ≠ '-' := by
    rintro rfl
    exact notMem_toDigits (by decide) d.digits (heq ▸ List.mem_cons_self)
  unfold unsignedText
  simp only [heq]
  split
  · split
    · simp
    · split
      · simp [hfirst]
      · rename_i hlarge _
        obtain ⟨k, hk⟩ : ∃ k, (d.exponent + (first :: digits).length).toNat = k + 1 :=
          Nat.exists_eq_add_one.mpr (by omega)
        rw [hk]
        simp [hfirst]
  · split <;> simp [hfirst]

/-- Numbers with equal texts are equal, exponents included. -/
theorem str_injective : Function.Injective str := by
  intro a b h
  have htext := String.ofList_injective h
  have hread : a.unsignedText = b.unsignedText → a.digits = b.digits ∧ a.exponent = b.exponent := by
    intro heq
    have hpair := congrArg read heq
    rw [read_unsignedText, read_unsignedText] at hpair
    exact Prod.mk.inj hpair
  obtain ⟨negative, digits, exponent⟩ := a
  obtain ⟨negative', digits', exponent'⟩ := b
  cases negative <;> cases negative'
  · obtain ⟨rfl, rfl⟩ := hread htext
    rfl
  · exact absurd htext (unsignedText_ne_minus _ _)
  · exact absurd htext.symm (unsignedText_ne_minus _ _)
  · obtain ⟨rfl, rfl⟩ := hread (List.cons.inj htext).2
    rfl

end Text

end Decimal

namespace Rounding.Format

variable (F : Format)

/-- The exponent of a result: the ideal one or the closest below it that loses no digit, but none below the
last place that is kept. -/
def placeOf (ideal : ℤ) (x : ℚ) : ℤ :=
  (((List.range (ideal - F.lastPlace x).toNat).map fun (k : ℕ) => ideal - (k : ℤ)).find?
    fun e => (x / ten e).den = 1).getD (F.lastPlace x)

/-- A value with the digits that are kept, unless it is too large: its sign, or the given one of a zero, and
an exponent. -/
def result (zeroNegative : Bool) (ideal : ℤ) (x : ℚ) : Option Decimal :=
  if x = 0 then some ⟨zeroNegative, 0, min (max ideal F.tiny) F.emax⟩
  else
    let place := F.placeOf ideal x
    let digits := (roundHalfEven (x / ten place)).natAbs
    if ten (F.emax + 1) ≤ digits * ten place then none
    else if digits = 10 ^ F.precision then some ⟨x < 0, 10 ^ (F.precision - 1), place + 1⟩
    else some ⟨x < 0, digits, place⟩

/-- The sum of two numbers. -/
def add (a b : Decimal) : Option Decimal :=
  F.result (a.negative && b.negative) (min a.exponent b.exponent) (a.value + b.value)

/-- The product of two numbers. -/
def mul (a b : Decimal) : Option Decimal :=
  F.result (a.negative ^^ b.negative) (a.exponent + b.exponent) (a.value * b.value)

/-- The quotient of two numbers, the second of which is not zero. -/
def div (a b : Decimal) : Option Decimal :=
  F.result (a.negative ^^ b.negative) (a.exponent - b.exponent) (a.value / b.value)

/-- A number with a given exponent, when that takes no more digits than are kept. -/
def quantize (a : Decimal) (place : ℤ) : Option Decimal :=
  let digits := (roundHalfEven (a.value / ten place)).natAbs
  if digits < 10 ^ F.precision then some ⟨a.negative, digits, place⟩ else none

variable {F}

/-- At the place of a result as many digits are kept as are kept at all. -/
theorem round_placeOf (ideal : ℤ) (x : ℚ) :
    roundHalfEven (x / ten (F.placeOf ideal x)) * ten (F.placeOf ideal x) = F.nearest x := by
  unfold placeOf
  generalize hfound : List.find? _ _ = found
  cases found with
  | none => rfl
  | some e =>
    have hpos := (ten_pos e).ne'
    have hwhole := List.find?_some hfound
    obtain ⟨k, hk, rfl⟩ := List.mem_map.mp (List.mem_of_find?_eq_some hfound)
    rw [List.mem_range] at hk
    rw [decide_eq_true_eq] at hwhole
    have hquotient := ((Rat.den_eq_one_iff _).mp hwhole).symm
    have hx : x = (x / ten (ideal - (k : ℤ))).num * ten (ideal - (k : ℤ)) := by
      rw [← hquotient, div_mul_cancel₀ _ hpos]
    rw [Option.getD_some, F.nearest_of_multiple (by omega) hx, hquotient, roundHalfEven_intCast, ← hx]

/-- The digits of a result stand for the magnitude, and its sign for the sign. -/
theorem signed_natAbs {x : ℚ} (e : ℤ) :
    (if x < 0 then -((roundHalfEven (x / ten e)).natAbs : ℤ) else (roundHalfEven (x / ten e)).natAbs) =
      roundHalfEven (x / ten e) := by
  have hzero := roundHalfEven_intCast 0
  rw [Int.cast_zero] at hzero
  split
  · rename_i hneg
    have h := roundHalfEven_mono (div_nonpos_of_nonpos_of_nonneg hneg.le (ten_pos e).le)
    omega
  · rename_i hpos
    have h := roundHalfEven_mono (div_nonneg (not_lt.mp hpos) (ten_pos e).le)
    omega

/-- The value of a result is the rounded value. -/
theorem value_result (zeroNegative : Bool) (ideal : ℤ) (x : ℚ) :
    (F.result zeroNegative ideal x).map Decimal.value = F.round x := by
  unfold result
  split
  · rename_i hzero
    rw [round, hzero, nearest_zero, if_pos (by rw [abs_zero]; exact ten_pos _)]
    simp [Decimal.value, Decimal.signed]
  · have hnearest := F.round_placeOf ideal x
    have hsigned := signed_natAbs (x := x) (F.placeOf ideal x)
    dsimp only
    generalize F.placeOf ideal x = place at hnearest hsigned
    have habs : |F.nearest x| = (roundHalfEven (x / ten place)).natAbs * ten place := by
      rw [← hnearest, abs_mul, abs_of_pos (ten_pos place), Nat.cast_natAbs, Int.cast_abs]
    generalize (roundHalfEven (x / ten place)).natAbs = digits at hsigned habs
    rw [round, habs]
    split
    · rename_i hlarge
      rw [if_neg (not_lt.mpr hlarge)]
      rfl
    · rename_i hfits
      rw [if_pos (not_le.mp hfits), ← hnearest, ← hsigned]
      have hcarry : ((10 : ℚ) ^ F.precision) * ten place =
          10 ^ (F.precision - 1) * ten (place + 1) := by
        rw [ten_add, ← Nat.succ_pred_eq_of_pos F.precision_pos, pow_succ]
        simp only [ten, zpow_one, Nat.succ_eq_add_one, Nat.pred_eq_sub_one, Nat.add_sub_cancel]
        ring
      split
      · rename_i heq
        simp only [Option.map_some, Decimal.value, Decimal.signed, heq, decide_eq_true_eq,
          Option.some.injEq]
        split
        · push_cast
          linarith
        · push_cast
          linarith
      · simp only [Option.map_some, Decimal.value, Decimal.signed, decide_eq_true_eq]

theorem value_add (a b : Decimal) : (F.add a b).map Decimal.value = F.round (a.value + b.value) :=
  value_result _ _ _

theorem value_mul (a b : Decimal) : (F.mul a b).map Decimal.value = F.round (a.value * b.value) :=
  value_result _ _ _

theorem value_div (a b : Decimal) : (F.div a b).map Decimal.value = F.round (a.value / b.value) :=
  value_result _ _ _

/-- A number with a given exponent is the nearest multiple of that power of ten. -/
theorem quantize_eq_some {a q : Decimal} {place : ℤ} (h : F.quantize a place = some q) :
    |roundHalfEven (a.value / ten place)| < 10 ^ F.precision ∧
      q.value = roundHalfEven (a.value / ten place) * ten place := by
  unfold quantize at h
  dsimp only at h
  split at h
  · rename_i hdigits
    cases h
    constructor
    · rw [Int.abs_eq_natAbs]
      exact_mod_cast hdigits
    · have hplace := (ten_pos place).le
      have hzero := roundHalfEven_intCast 0
      rw [Int.cast_zero] at hzero
      rw [Decimal.value, Decimal.signed]
      dsimp only
      congr 2
      split
      · rename_i hnegative
        have hle : a.value ≤ 0 := by
          rw [Decimal.value, Decimal.signed, if_pos hnegative]
          exact mul_nonpos_of_nonpos_of_nonneg (by simp) (ten_pos _).le
        have h := roundHalfEven_mono (div_nonpos_of_nonpos_of_nonneg hle hplace)
        omega
      · rename_i hpositive
        have hle : 0 ≤ a.value := by
          rw [Decimal.value, Decimal.signed, if_neg hpositive]
          exact mul_nonneg (by simp) (ten_pos _).le
        have h := roundHalfEven_mono (div_nonneg hle hplace)
        omega
  · cases h

/-- There is such a number when it takes no more digits than are kept. -/
theorem exists_quantize {a : Decimal} {place : ℤ}
    (h : |roundHalfEven (a.value / ten place)| < 10 ^ F.precision) : ∃ q, F.quantize a place = some q := by
  rw [Int.abs_eq_natAbs] at h
  refine ⟨_, if_pos ?_⟩
  exact_mod_cast h

section Sums

/-- The sum of numbers, each added to what has been added up before it. -/
def sum (F : Format) (start : Decimal) (items : List Decimal) : Option Decimal := items.foldlM F.add start

variable {start total : Decimal} {items : List Decimal}

theorem sum_cons {d : Decimal} :
    F.sum start (d :: items) = (F.add start d).bind fun next => F.sum next items := rfl

/-- What is added has the rounded value. -/
theorem value_of_add {a b c : Decimal} (h : F.add a b = some c) :
    c.value = F.nearest (a.value + b.value) := by
  have hvalue := @value_add F a b
  rw [h] at hvalue
  exact round_eq_some hvalue.symm

/-- A value that can be rounded is the value of a sum. -/
theorem exists_of_round {made : Option Decimal} {x y : ℚ} (h : made.map Decimal.value = F.round x)
    (hround : F.round x = some y) : ∃ c, made = some c ∧ c.value = y := by
  rw [hround] at h
  exact Option.map_eq_some_iff.mp h

/-- A sum stays below the power of ten after the greatest exponent. -/
theorem sum_lt (hstart : start.value < ten (F.emax + 1)) (h : F.sum start items = some total) :
    total.value < ten (F.emax + 1) := by
  induction items generalizing start with
  | nil =>
    cases h
    exact hstart
  | cons d items ih =>
    obtain ⟨next, hnext, h⟩ := Option.bind_eq_some_iff.mp (sum_cons.symm.trans h)
    have hvalue := @value_add F start d
    rw [hnext, Option.map_some] at hvalue
    exact ih ((le_abs_self _).trans_lt (lt_of_round_eq hvalue.symm)) h

/-- Whole multiples of one place are added exactly, as long as they come to no more digits than are kept. -/
theorem sum_exact {place : ℤ} (htiny : F.tiny ≤ place) (hmax : place + F.precision ≤ F.emax + 1)
    (hstart : ∃ n : ℕ, start.value = n * ten place)
    (hitems : ∀ d ∈ items, ∃ n : ℕ, d.value = n * ten place)
    (htotal : start.value + (items.map Decimal.value).sum < ten (place + F.precision)) :
    ∃ total, F.sum start items = some total ∧
      total.value = start.value + (items.map Decimal.value).sum := by
  induction items generalizing start with
  | nil => exact ⟨start, rfl, by simp⟩
  | cons d items ih =>
    obtain ⟨n, hn⟩ := hstart
    obtain ⟨m, hm⟩ := hitems d List.mem_cons_self
    have hrest : ∀ d ∈ items, ∃ n : ℕ, d.value = n * ten place := fun other hother =>
      hitems other (List.mem_cons_of_mem _ hother)
    have hnonneg : 0 ≤ (items.map Decimal.value).sum := by
      apply List.sum_nonneg
      intro x hx
      obtain ⟨other, hother, rfl⟩ := List.mem_map.mp hx
      obtain ⟨k, hk⟩ := hrest other hother
      rw [hk]
      exact mul_nonneg (Nat.cast_nonneg k) (ten_pos place).le
    rw [List.map_cons, List.sum_cons, ← add_assoc] at htotal ⊢
    have hsum : start.value + d.value = ((n + m : ℕ) : ℤ) * ten place := by
      rw [hn, hm]
      push_cast
      ring
    have hlt : start.value + d.value < ten (place + F.precision) := by linarith
    have hfits : |start.value + d.value| < ten (F.emax + 1) := by
      rw [abs_of_nonneg (by rw [hsum]; exact mul_nonneg (by positivity) (ten_pos place).le)]
      exact hlt.trans_le (zpow_le_zpow_right₀ (by norm_num) hmax)
    have hrepresentable : F.Representable (start.value + d.value) := by
      refine ⟨((n + m : ℕ) : ℤ), place, ?_, htiny, hsum⟩
      rw [hsum, add_comm place, ten_add, ten_natCast] at hlt
      rw [abs_of_nonneg (Int.natCast_nonneg _)]
      exact_mod_cast lt_of_mul_lt_mul_right hlt (ten_pos place).le
    obtain ⟨next, hnext, hvalue⟩ := exists_of_round (value_add start d) (hrepresentable.round_eq hfits)
    rw [← hvalue] at hsum htotal ⊢
    rw [sum_cons, hnext]
    exact ih ⟨n + m, by simpa using hsum⟩ hrest htotal

/-- Each number that is added moves a sum by no more than half a unit of a place below its digits. -/
theorem sum_near {place : ℤ} (htiny : F.tiny ≤ place) (hmax : place + F.precision ≤ F.emax)
    (hstart : 0 ≤ start.value) (hitems : ∀ d ∈ items, 0 ≤ d.value)
    (hroom : start.value + (items.map Decimal.value).sum + items.length * (ten place / 2) <
      ten (place + F.precision)) :
    ∃ total, F.sum start items = some total ∧
      start.value + (items.map Decimal.value).sum - items.length * (ten place / 2) ≤ total.value ∧
      total.value ≤ start.value + (items.map Decimal.value).sum + items.length * (ten place / 2) := by
  have hpos := ten_pos place
  induction items generalizing start with
  | nil => exact ⟨start, rfl, by simp, by simp⟩
  | cons d items ih =>
    have hd := hitems d List.mem_cons_self
    have hrest : ∀ d ∈ items, 0 ≤ d.value := fun other hother =>
      hitems other (List.mem_cons_of_mem _ hother)
    have hnonneg : 0 ≤ (items.map Decimal.value).sum := by
      apply List.sum_nonneg
      intro x hx
      obtain ⟨other, hother, rfl⟩ := List.mem_map.mp hx
      exact hrest other hother
    simp only [List.map_cons, List.sum_cons, List.length_cons, Nat.cast_add, Nat.cast_one] at hroom ⊢
    have herrors : 0 ≤ (items.length : ℚ) * (ten place / 2) := by positivity
    have hlt : start.value + d.value < ten (place + F.precision) := by linarith
    have hle : start.value + d.value ≤ ten F.emax :=
      hlt.le.trans (zpow_le_zpow_right₀ (by norm_num) hmax)
    obtain ⟨next, hnext, hvalue⟩ := exists_of_round (value_add start d)
      (exists_round (by omega) (add_nonneg hstart hd) hle)
    obtain ⟨hlow, hhigh⟩ := @nearest_near F (start.value + d.value) place
      ((abs_of_nonneg (add_nonneg hstart hd)).trans_lt hlt) htiny
    rw [← hvalue] at hlow hhigh
    have hnextpos : 0 ≤ next.value := hvalue ▸ nearest_nonneg (add_nonneg hstart hd)
    obtain ⟨total, htotal, hbelow, habove⟩ := ih hnextpos hrest (by linarith)
    refine ⟨total, by rw [sum_cons, hnext]; exact htotal, ?_, ?_⟩
    · linarith
    · linarith

/-- More numbers come to no less, wherever the sums are rounded. -/
theorem sum_mono {start' total' : Decimal} {items' : List Decimal} (hsub : items.Sublist items')
    (hpos : ∀ d ∈ items', 0 ≤ d.value) (hstart : 0 ≤ start.value) (hle : start.value ≤ start'.value)
    (hkept : F.nearest start'.value = start'.value) (h : F.sum start items = some total)
    (h' : F.sum start' items' = some total') : total.value ≤ total'.value := by
  induction hsub generalizing start start' with
  | slnil =>
    cases h
    cases h'
    exact hle
  | @cons items items' d hsub ih =>
    obtain ⟨next, hnext, h'⟩ := Option.bind_eq_some_iff.mp (sum_cons.symm.trans h')
    have hvalue := value_of_add hnext
    have hd := hpos d List.mem_cons_self
    have hmore : start'.value ≤ next.value := by
      rw [hvalue]
      exact hkept.symm.trans_le (nearest_mono (hstart.trans hle) (by linarith))
    apply ih (fun d hd => hpos d (List.mem_cons_of_mem _ hd)) hstart (hle.trans hmore) _ h h'
    rw [hvalue]
    exact (representable_nearest _).nearest_eq
  | @cons_cons items items' d hsub ih =>
    obtain ⟨next, hnext, h⟩ := Option.bind_eq_some_iff.mp (sum_cons.symm.trans h)
    obtain ⟨next', hnext', h'⟩ := Option.bind_eq_some_iff.mp (sum_cons.symm.trans h')
    have hd := hpos d List.mem_cons_self
    have hvalue := value_of_add hnext
    have hvalue' := value_of_add hnext'
    apply ih (fun d hd => hpos d (List.mem_cons_of_mem _ hd)) _ _ _ h h'
    · rw [hvalue]
      exact nearest_nonneg (by linarith)
    · rw [hvalue, hvalue']
      exact nearest_mono (by linarith) (by linarith)
    · rw [hvalue']
      exact (representable_nearest _).nearest_eq

end Sums

end Rounding.Format
