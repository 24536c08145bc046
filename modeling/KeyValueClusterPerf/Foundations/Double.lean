import KeyValueClusterPerf.Foundations.CheckedInt
import KeyValueClusterPerf.Foundations.Decimal

/-!
# Double-precision numbers

Only what programs that count in doubles need: the comparison with its special
values, the rounding of a sum of natural numbers and of a quotient of integers to 53
significant bits, the conversion to `int`, and the text that a stream in its default
format (`%g` with six significant digits) prints for a natural number.
-/

namespace Doubles

open Texts

/-- The value of a double; `finite` is meant for the rationals that are doubles. -/
inductive Double
  | finite (value : ℚ)
  | infinity
  | negInfinity
  | nan
  deriving DecidableEq

namespace Double

/-- The comparison `left > right`; it is false as soon as one side is not a number. -/
def gt : Double → Double → Bool
  | .finite left, .finite right => right < left
  | .infinity, .finite _ | .infinity, .negInfinity | .finite _, .negInfinity => true
  | _, _ => false

/-- The comparison `left <= right`; it is false as soon as one side is not a number. -/
def le : Double → Double → Bool
  | .finite left, .finite right => left ≤ right
  | .negInfinity, .finite _ | .negInfinity, .negInfinity | .negInfinity, .infinity => true
  | .finite _, .infinity | .infinity, .infinity => true
  | _, _ => false

theorem gt_of_gt_of_le {left small large : Double} (exceeds : left.gt large = true)
    (ordered : small.le large = true) : left.gt small = true := by
  cases left <;> cases small <;> cases large <;> simp_all [gt, le]
  exact lt_of_le_of_lt ordered exceeds

end Double

def roundHalfEven (number divisor : ℕ) : ℕ :=
  let quotient := number / divisor
  let remainder := number % divisor
  if 2 * remainder < divisor then quotient
  else if divisor < 2 * remainder then quotient + 1
  else quotient + quotient % 2

theorem roundHalfEven_le (number divisor : ℕ) :
    roundHalfEven number divisor ≤ number / divisor + 1 := by
  simp only [roundHalfEven]
  split
  · omega
  · split <;> omega

/-- The double nearest to a natural number: 53 significant bits, ties to even. -/
def roundDouble (number : ℕ) : ℕ :=
  let spare := number.log2 + 1 - 53
  roundHalfEven number (2 ^ spare) * 2 ^ spare

theorem roundDouble_eq {number : ℕ} (small : number < 2 ^ 53) : roundDouble number = number := by
  have spareEq : number.log2 + 1 - 53 = 0 := by
    by_cases zero : number = 0
    · simp [zero]
    · have bits := (Nat.log2_lt zero).mpr small
      omega
  simp [roundDouble, spareEq, roundHalfEven, Nat.mod_one]

def overflowBound : ℕ :=
  2 ^ 1024

theorem overflowBound_lt : overflowBound < 10 ^ 309 := by
  decide +kernel

theorem pow_lt_overflowBound : 2 ^ 53 < overflowBound := by
  decide +kernel

/-- The double nearest to a rational number: 53 significant bits, ties to even. -/
def nearest (value : ℚ) : Double :=
  let exponent := max (Int.log 2 |value| - 52) (-1074)
  let scaled := |value| / 2 ^ exponent
  let magnitude : ℚ := roundHalfEven scaled.num.toNat scaled.den * 2 ^ exponent
  if overflowBound ≤ magnitude then (if value < 0 then .negInfinity else .infinity)
  else .finite (if value < 0 then -magnitude else magnitude)

/-- The quotient of two doubles that are integers; a divisor that is zero is a positive zero. -/
def divide (dividend divisor : ℤ) : Double :=
  if divisor = 0 then
    if dividend = 0 then .nan
    else if dividend < 0 then .negInfinity
    else .infinity
  else nearest (dividend / divisor)

example : divide 5 4 = .finite (5 / 4) := by decide +kernel

/-- The conversion to `int`, towards zero, where it is defined. -/
def Double.truncate : Double → Option Int32
  | .finite value => CheckedInts.checked (value.num.tdiv value.den)
  | _ => none

/-- A double that is a natural number or, after an overflow, infinite. -/
inductive NatDouble
  | finite (value : ℕ) (bound : value < overflowBound)
  | infinity

namespace NatDouble

def zero : NatDouble :=
  .finite 0 (by decide +kernel)

def add : NatDouble → ℕ → NatDouble
  | .finite value _, number =>
      if bound : roundDouble (value + number) < overflowBound then
        .finite (roundDouble (value + number)) bound
      else .infinity
  | .infinity, _ => .infinity

def toDouble : NatDouble → Double
  | .finite value _ => .finite value
  | .infinity => .infinity

theorem toDouble_add {total : NatDouble} {sum number : ℕ} (exact : total.toDouble = .finite sum)
    (small : sum + number < 2 ^ 53) :
    (total.add number).toDouble = .finite ((sum + number : ℕ) : ℚ) := by
  cases total with
  | finite value bound =>
      have sameValue : value = sum := by simpa [toDouble] using exact
      subst sameValue
      have inRange : roundDouble (value + number) < overflowBound := by
        rw [roundDouble_eq small]
        exact small.trans pow_lt_overflowBound
      rw [add, dif_pos inRange]
      simp [toDouble, roundDouble_eq small]
  | infinity => simp [toDouble] at exact

end NatDouble

/--
The six leading decimal digits, rounded, and the decimal exponent of a number of at
least six digits.
-/
def significand (number : ℕ) : ℕ × ℕ :=
  let digits := (decimal number).length
  let rounded := roundHalfEven number (10 ^ (digits - 6))
  if rounded = 10 ^ 6 then (10 ^ 5, digits) else (rounded, digits - 1)

def stripZeros (digits : Text) : Text :=
  (digits.reverse.dropWhile (· = '0')).reverse

/-- The exponent form `d.ddddde+XX` without trailing zeros of the fraction. -/
def scientific (mantissa exponent : ℕ) : Text :=
  let digits := decimal mantissa
  let fraction := stripZeros digits.tail
  digits.take 1 ++ (if fraction = [] then [] else '.' :: fraction) ++ ['e', '+'] ++
    padded 2 exponent

/-- The text of a natural number in the default stream format `%g`. -/
def generalFormat (number : ℕ) : Text :=
  if number < 10 ^ 6 then decimal number
  else scientific (significand number).1 (significand number).2

def NatDouble.text : NatDouble → Text
  | .finite value _ => generalFormat value
  | .infinity => ['i', 'n', 'f']

theorem length_stripZeros_le (digits : Text) : (stripZeros digits).length ≤ digits.length := by
  simpa [stripZeros] using List.length_dropWhile_le (· = '0') digits.reverse

theorem mem_of_mem_stripZeros {digits : Text} {character : Char}
    (mem : character ∈ stripZeros digits) : character ∈ digits := by
  have kept := (List.dropWhile_suffix (fun other => decide (other = '0'))).mem
    (List.mem_reverse.mp mem)
  simpa using kept

theorem length_scientific_le {mantissa exponent : ℕ} (six : mantissa < 10 ^ 6)
    (small : exponent < 10 ^ 3) : (scientific mantissa exponent).length ≤ 12 := by
  have digits := (length_decimal_le_iff mantissa (by omega)).mpr six
  have exponentDigits : (padded 2 exponent).length ≤ 3 :=
    length_padded_le (by omega) (by omega) small
  have fraction := length_stripZeros_le (decimal mantissa).tail
  have leading := List.length_take_le 1 (decimal mantissa)
  rw [List.length_tail] at fraction
  simp only [scientific, List.length_append, List.length_cons, List.length_nil]
  split
  · simp only [List.length_nil]
    omega
  · simp only [List.length_cons]
    omega

theorem significand_fst_lt (number : ℕ) : (significand number).1 < 10 ^ 6 := by
  have length_le : number < 10 ^ (decimal number).length :=
    (length_decimal_le_iff number (List.length_pos_of_ne_nil (decimal_ne_nil number))).mp le_rfl
  have quotientLt : number / 10 ^ ((decimal number).length - 6) < 10 ^ 6 := by
    rw [Nat.div_lt_iff_lt_mul (by positivity), ← pow_add]
    exact length_le.trans_le (Nat.pow_le_pow_right (by decide) (by omega))
  have roundedLe := roundHalfEven_le number (10 ^ ((decimal number).length - 6))
  simp only [significand]
  split
  · norm_num
  · omega

theorem significand_snd_le (number : ℕ) : (significand number).2 ≤ (decimal number).length := by
  simp only [significand]
  split <;> simp

/-- The default format of a double that counts something has at most twelve characters. -/
theorem NatDouble.length_text_le (number : NatDouble) : number.text.length ≤ 12 := by
  cases number with
  | infinity => decide
  | finite value bound =>
      simp only [text, generalFormat]
      split
      · rename_i small
        have digits := (length_decimal_le_iff value (by omega)).mpr small
        omega
      · have digits : (decimal value).length ≤ 309 :=
          (length_decimal_le_iff value (by omega)).mpr (bound.trans overflowBound_lt)
        have exponent := significand_snd_le value
        exact length_scientific_le (significand_fst_lt value) (by omega)

theorem NatDouble.mem_text {number : NatDouble} {character : Char}
    (mem : character ∈ number.text) :
    character.isDigit ∨ character ∈ ['.', 'e', '+', 'i', 'n', 'f'] := by
  cases number with
  | infinity =>
      simp only [text, List.mem_cons, List.not_mem_nil, or_false] at mem
      rcases mem with rfl | rfl | rfl <;> decide
  | finite value bound =>
      simp only [text, generalFormat] at mem
      split at mem
      · exact .inl (isDigit_of_mem_decimal mem)
      · simp only [scientific, List.mem_append, List.mem_cons, List.not_mem_nil, or_false] at mem
        rcases mem with ((leading | fraction) | rfl | rfl) | exponent
        · exact .inl (isDigit_of_mem_decimal (List.mem_of_mem_take leading))
        · split at fraction
          · simp at fraction
          · rcases List.mem_cons.mp fraction with rfl | digit
            · decide
            · exact .inl (isDigit_of_mem_decimal
                (List.mem_of_mem_tail (mem_of_mem_stripZeros digit)))
        · decide
        · decide
        · exact .inl (isDigit_of_mem_padded exponent)

end Doubles
