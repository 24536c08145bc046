import KeyValueClusterPerf.Foundations.Double

/-!
# What printed numbers denote

The default stream format keeps six significant digits. Reading its text back, as digits
with an optional fraction and an optional decimal exponent, gives the number rounded to
six digits, and so the number itself exactly if it has no more.
-/

namespace Doubles

open Texts

/-- The value of a non-empty text of digits. -/
def digitsValue (digits : Text) : Option ℕ :=
  if digits ≠ [] ∧ ∀ character ∈ digits, character.isDigit then
    some (Nat.ofDigitChars 10 digits 0)
  else none

/-- The decimal exponent of what is left of a number after its digits. -/
def exponentValue : Text → Option ℕ
  | [] => some 0
  | 'e' :: '+' :: digits => digitsValue digits
  | _ => none

/-- The number that a text denotes: digits, perhaps with a fraction and an exponent. -/
def denoted (text : Text) : Option ℚ := do
  let mantissa := text.takeWhile (· ≠ 'e')
  let fraction := (mantissa.dropWhile (· ≠ '.')).tail
  let digits ← digitsValue (mantissa.takeWhile (· ≠ '.') ++ fraction)
  let exponent ← exponentValue (text.dropWhile (· ≠ 'e'))
  return digits * 10 ^ exponent / 10 ^ fraction.length

/-- A natural number rounded to six significant digits, ties to even. -/
def roundSixDigits (number : ℕ) : ℕ :=
  if number < 10 ^ 6 then number
  else
    let spare := (decimal number).length - 6
    roundHalfEven number (10 ^ spare) * 10 ^ spare

/-- A natural number has at most six significant digits. -/
def SixDigits (number : ℕ) : Prop :=
  ∃ mantissa exponent, mantissa < 10 ^ 6 ∧ number = mantissa * 10 ^ exponent

theorem roundHalfEven_mul {number divisor : ℕ} (positive : 0 < divisor)
    (divides : divisor ∣ number) : roundHalfEven number divisor * divisor = number := by
  rcases divides with ⟨quotient, rfl⟩
  simp [roundHalfEven, positive, Nat.mul_comm]

theorem le_roundHalfEven (number divisor : ℕ) :
    number / divisor ≤ roundHalfEven number divisor := by
  simp only [roundHalfEven]
  split
  · exact le_rfl
  · split <;> omega

section Digits

variable {number : ℕ}

theorem six_lt_length (large : 10 ^ 6 ≤ number) : 6 < (decimal number).length :=
  (lt_length_decimal_iff number (by omega)).mpr large

/-- The six leading digits of a number that has more are at least `10 ^ 5`. -/
theorem le_rounded (large : 10 ^ 6 ≤ number) :
    10 ^ 5 ≤ roundHalfEven number (10 ^ ((decimal number).length - 6)) := by
  have long := six_lt_length large
  have atLeast : 10 ^ ((decimal number).length - 1) ≤ number :=
    (lt_length_decimal_iff number (by omega)).mp (by omega)
  have powers : 10 ^ 5 * 10 ^ ((decimal number).length - 6) =
      10 ^ ((decimal number).length - 1) := by
    rw [← pow_add]
    congr 1
    omega
  have quotient : 10 ^ 5 ≤ number / 10 ^ ((decimal number).length - 6) := by
    rw [Nat.le_div_iff_mul_le (by positivity), powers]
    exact atLeast
  exact quotient.trans (le_roundHalfEven number _)

theorem roundSixDigits_of_le (large : 10 ^ 6 ≤ number) :
    roundSixDigits number = roundHalfEven number (10 ^ ((decimal number).length - 6)) *
      10 ^ ((decimal number).length - 6) :=
  if_neg (not_lt.mpr large)

/-- Rounding to six digits keeps exactly the numbers with at most six significant digits. -/
theorem roundSixDigits_eq_iff : roundSixDigits number = number ↔ SixDigits number := by
  constructor
  · intro kept
    by_cases small : number < 10 ^ 6
    · exact ⟨number, 0, small, by simp⟩
    · rw [roundSixDigits_of_le (not_lt.mp small)] at kept
      have below := significand_fst_lt number
      simp only [significand] at below
      split at below
      · rename_i carried
        simp only [carried] at kept
        refine ⟨10 ^ 5, (decimal number).length - 6 + 1, by norm_num, kept.symm.trans ?_⟩
        ring
      · exact ⟨_, _, below, kept.symm⟩
  · rintro ⟨mantissa, exponent, below, rfl⟩
    rw [roundSixDigits]
    split
    · rfl
    · rename_i large
      have length : (decimal (mantissa * 10 ^ exponent)).length ≤ 6 + exponent := by
        apply (length_decimal_le_iff _ (by omega)).mpr
        rw [pow_add]
        exact Nat.mul_lt_mul_of_pos_right below (by positivity)
      apply roundHalfEven_mul (by positivity)
      apply dvd_mul_of_dvd_right
      exact pow_dvd_pow 10 (by omega)

end Digits

theorem digitsValue_eq {digits : Text} (nonempty : digits ≠ [])
    (allDigits : ∀ character ∈ digits, character.isDigit) :
    digitsValue digits = some (Nat.ofDigitChars 10 digits 0) :=
  if_pos ⟨nonempty, allDigits⟩

theorem digitsValue_decimal (number : ℕ) : digitsValue (decimal number) = some number := by
  rw [digitsValue_eq (decimal_ne_nil number) fun _ mem => isDigit_of_mem_decimal mem]
  exact congrArg some Nat.ofDigitChars_ten_toDigits

theorem digitsValue_padded (width number : ℕ) :
    digitsValue (padded width number) = some number := by
  have nonempty : padded width number ≠ [] := by
    simp [padded, decimal_ne_nil]
  rw [digitsValue_eq nonempty fun _ mem => isDigit_of_mem_padded mem, padded,
    Nat.ofDigitChars_append, Nat.ofDigitChars_replicate_zero, Nat.mul_zero]
  exact congrArg some Nat.ofDigitChars_ten_toDigits

/-- What is stripped from the end of a fraction are zeros. -/
theorem exists_stripZeros_append (digits : Text) :
    ∃ zeros, stripZeros digits ++ List.replicate zeros '0' = digits := by
  have allZeros : ∀ character ∈ digits.reverse.takeWhile (· = '0'), character = '0' := by
    intro character mem
    simpa using List.mem_takeWhile_imp mem
  refine ⟨(digits.reverse.takeWhile (· = '0')).length, ?_⟩
  apply List.reverse_injective
  rw [List.reverse_append, List.reverse_replicate, ← List.eq_replicate_of_mem allZeros,
    stripZeros, List.reverse_reverse]
  exact List.takeWhile_append_dropWhile

/-- A text is cut at a character that its first part lacks and its second part begins with. -/
theorem cut_append {stop : Char} {front rest : Text} (absent : stop ∉ front)
    (starts : rest = [] ∨ rest.head? = some stop) :
    (front ++ rest).takeWhile (· ≠ stop) = front ∧ (front ++ rest).dropWhile (· ≠ stop) = rest := by
  have others : ∀ character ∈ front, decide (character ≠ stop) = true := by
    intro character mem
    simpa using ne_of_mem_of_not_mem mem absent
  rw [List.takeWhile_append_of_pos others, List.dropWhile_append_of_pos others]
  cases rest with
  | nil => simp
  | cons first others =>
      have firstEq : first = stop := by simpa using starts
      simp [firstEq]

theorem not_mem_of_isDigit {stop : Char} {digits : Text} (notDigit : stop.isDigit = false)
    (allDigits : ∀ character ∈ digits, character.isDigit) : stop ∉ digits := by
  intro mem
  simp [allDigits stop mem] at notDigit

/-- The value of digits with or without a fraction and an exponent. -/
theorem denoted_eq {whole point rest : Text} {digits exponent : ℕ}
    (wholeDigits : ∀ character ∈ whole, character.isDigit)
    (pointStarts : point = [] ∨ point.head? = some '.')
    (fractionDigits : ∀ character ∈ point.tail, character.isDigit)
    (restStarts : rest = [] ∨ rest.head? = some 'e')
    (digitsEq : digitsValue (whole ++ point.tail) = some digits)
    (exponentEq : exponentValue rest = some exponent) :
    denoted (whole ++ point ++ rest) =
      some ((digits : ℚ) * 10 ^ exponent / 10 ^ point.tail.length) := by
  have noExponent : 'e' ∉ whole ++ point := by
    intro mem
    rcases List.mem_append.mp mem with inWhole | inPoint
    · exact not_mem_of_isDigit (by decide) wholeDigits inWhole
    · cases point with
      | nil => simp at inPoint
      | cons first fraction =>
          have firstEq : first = '.' := by simpa using pointStarts
          rw [firstEq] at inPoint
          rcases List.mem_cons.mp inPoint with same | inFraction
          · exact absurd same (by decide)
          · exact not_mem_of_isDigit (by decide) fractionDigits inFraction
  rcases cut_append noExponent restStarts with ⟨mantissaEq, restEq⟩
  rcases cut_append (not_mem_of_isDigit (by decide) wholeDigits) pointStarts with
    ⟨wholeEq, pointEq⟩
  simp only [denoted, mantissaEq, restEq, wholeEq, pointEq, digitsEq, exponentEq]
  rfl

theorem denoted_decimal (number : ℕ) : denoted (decimal number) = some number := by
  have value := @denoted_eq (decimal number) [] [] number 0
    (fun _ mem => isDigit_of_mem_decimal mem) (.inl rfl) (by simp) (.inl rfl)
    (by simpa using digitsValue_decimal number) rfl
  simpa using value

/-- Stripping zeros from the end divides the value of the digits by a power of ten. -/
theorem exists_strippedValue (number : ℕ) :
    ∃ digits zeros,
      digitsValue ((decimal number).take 1 ++ stripZeros (decimal number).tail) = some digits ∧
        number = digits * 10 ^ zeros ∧
          (decimal number).length - 1 = (stripZeros (decimal number).tail).length + zeros := by
  rcases exists_stripZeros_append (decimal number).tail with ⟨zeros, stripped⟩
  have kept : ∀ character ∈ (decimal number).take 1 ++ stripZeros (decimal number).tail,
      character ∈ decimal number := by
    intro character mem
    rcases List.mem_append.mp mem with leading | fraction
    · exact List.mem_of_mem_take leading
    · exact List.mem_of_mem_tail (mem_of_mem_stripZeros fraction)
  have nonempty : (decimal number).take 1 ++ stripZeros (decimal number).tail ≠ [] := by
    simp [decimal_ne_nil]
  refine ⟨_, zeros, digitsValue_eq nonempty fun character mem =>
    isDigit_of_mem_decimal (kept character mem), ?_, ?_⟩
  · have whole : (decimal number).take 1 ++ stripZeros (decimal number).tail ++
        List.replicate zeros '0' = decimal number := by
      rw [List.append_assoc, stripped, ← List.drop_one, List.take_append_drop]
    calc
      number = Nat.ofDigitChars 10 (decimal number) 0 := Nat.ofDigitChars_ten_toDigits.symm
      _ = Nat.ofDigitChars 10 ((decimal number).take 1 ++ stripZeros (decimal number).tail ++
          List.replicate zeros '0') 0 := by rw [whole]
      _ = 10 ^ zeros * Nat.ofDigitChars 10
          ((decimal number).take 1 ++ stripZeros (decimal number).tail) 0 := by
        rw [Nat.ofDigitChars_append, Nat.ofDigitChars_replicate_zero]
      _ = _ := Nat.mul_comm _ _
  · have lengths := congrArg List.length stripped
    rw [List.length_append, List.length_replicate, List.length_tail] at lengths
    exact lengths.symm

/-- The exponent form denotes its mantissa with the point after the first digit. -/
theorem denoted_scientific (mantissa exponent : ℕ) :
    denoted (scientific mantissa exponent) =
      some ((mantissa : ℚ) * 10 ^ exponent / 10 ^ ((decimal mantissa).length - 1)) := by
  rcases exists_strippedValue mantissa with ⟨digits, zeros, digitsEq, valueEq, lengthEq⟩
  generalize pointEq : (if stripZeros (decimal mantissa).tail = [] then []
    else '.' :: stripZeros (decimal mantissa).tail) = point
  have pointStarts : point = [] ∨ point.head? = some '.' := by
    rw [← pointEq]
    split
    · exact .inl rfl
    · exact .inr rfl
  have tailEq : point.tail = stripZeros (decimal mantissa).tail := by
    rw [← pointEq]
    split
    · rename_i empty
      exact empty.symm
    · rfl
  rw [← tailEq] at digitsEq
  have value := @denoted_eq ((decimal mantissa).take 1) point ('e' :: '+' :: padded 2 exponent)
    digits exponent (fun _ mem => isDigit_of_mem_decimal (List.mem_of_mem_take mem)) pointStarts
    (fun _ mem => isDigit_of_mem_decimal
      (List.mem_of_mem_tail (mem_of_mem_stripZeros (tailEq ▸ mem))))
    (.inr rfl) digitsEq (digitsValue_padded 2 exponent)
  have textEq : scientific mantissa exponent =
      (decimal mantissa).take 1 ++ point ++ ('e' :: '+' :: padded 2 exponent) := by
    simp [scientific, pointEq]
  rw [textEq, value, tailEq, lengthEq]
  congr 1
  rw [valueEq, pow_add]
  push_cast
  field_simp

/-- The six digits and the exponent make the rounded number, with five digits as a fraction. -/
theorem significand_value {number : ℕ} (large : 10 ^ 6 ≤ number) :
    10 ^ 5 ≤ (significand number).1 ∧
      (significand number).1 * 10 ^ (significand number).2 = roundSixDigits number * 10 ^ 5 := by
  have long := six_lt_length large
  have atLeast := le_rounded large
  rw [roundSixDigits_of_le large]
  simp only [significand]
  split
  · rename_i carried
    refine ⟨le_rfl, ?_⟩
    have powers : 10 ^ (decimal number).length = 10 ^ ((decimal number).length - 6) * 10 ^ 6 := by
      rw [← pow_add]
      congr 1
      omega
    rw [carried, powers]
    ring
  · refine ⟨atLeast, ?_⟩
    have powers : (decimal number).length - 1 = (decimal number).length - 6 + 5 := by omega
    rw [powers]
    ring

/-- The default format of a number denotes the number rounded to six digits. -/
theorem denoted_generalFormat (number : ℕ) :
    denoted (generalFormat number) = some (roundSixDigits number : ℚ) := by
  by_cases small : number < 10 ^ 6
  · rw [generalFormat, roundSixDigits, if_pos small, if_pos small]
    exact denoted_decimal number
  · rcases significand_value (not_lt.mp small) with ⟨atLeast, valueEq⟩
    have sixLong : (decimal (significand number).1).length = 6 := by
      apply le_antisymm
      · exact (length_decimal_le_iff _ (by omega)).mpr (significand_fst_lt number)
      · exact (lt_length_decimal_iff _ (by omega)).mpr atLeast
    rw [generalFormat, if_neg small, denoted_scientific, sixLong]
    congr 1
    rw [div_eq_iff (by positivity)]
    exact_mod_cast valueEq

theorem mantissa_unique {first second early late : ℕ} (below : first < 10 ^ 6)
    (atLeast : 10 ^ 5 ≤ second) (ordered : early ≤ late)
    (same : first * 10 ^ early = second * 10 ^ late) : first = second ∧ early = late := by
  have split : second * 10 ^ late = second * 10 ^ (late - early) * 10 ^ early := by
    rw [mul_assoc, ← pow_add]
    congr 2
    omega
  have firstEq := Nat.eq_of_mul_eq_mul_right (by positivity) (same.trans split)
  rcases Nat.eq_zero_or_pos (late - early) with equal | greater
  · rw [equal] at firstEq
    exact ⟨by simpa using firstEq, by omega⟩
  · have tenfold : 10 ^ 1 ≤ 10 ^ (late - early) := Nat.pow_le_pow_right (by decide) greater
    have large := Nat.mul_le_mul atLeast tenfold
    omega

theorem roundSixDigits_lt_iff (number : ℕ) : roundSixDigits number < 10 ^ 6 ↔ number < 10 ^ 6 := by
  by_cases small : number < 10 ^ 6
  · rw [roundSixDigits, if_pos small]
  · have long := six_lt_length (not_lt.mp small)
    have tenfold : 10 ^ 1 ≤ 10 ^ ((decimal number).length - 6) :=
      Nat.pow_le_pow_right (by decide) (by omega)
    have large := Nat.mul_le_mul (le_rounded (not_lt.mp small)) tenfold
    rw [roundSixDigits_of_le (not_lt.mp small)]
    omega

/-- Two numbers are printed alike exactly if they agree after rounding to six digits. -/
theorem generalFormat_eq_iff (first second : ℕ) :
    generalFormat first = generalFormat second ↔ roundSixDigits first = roundSixDigits second := by
  constructor
  · intro same
    have values := congrArg denoted same
    rw [denoted_generalFormat, denoted_generalFormat] at values
    exact_mod_cast Option.some.inj values
  · intro same
    have together := (roundSixDigits_lt_iff first).symm.trans (same ▸ roundSixDigits_lt_iff second)
    by_cases small : first < 10 ^ 6
    · rw [roundSixDigits, roundSixDigits, if_pos small, if_pos (together.mp small)] at same
      rw [same]
    · have large : ¬second < 10 ^ 6 := fun secondSmall => small (together.mpr secondSmall)
      rcases significand_value (not_lt.mp small) with ⟨firstAtLeast, firstEq⟩
      rcases significand_value (not_lt.mp large) with ⟨secondAtLeast, secondEq⟩
      have values := firstEq.trans ((congrArg (· * 10 ^ 5) same).trans secondEq.symm)
      rw [generalFormat, generalFormat, if_neg small, if_neg large]
      rcases le_total (significand first).2 (significand second).2 with ordered | ordered
      · rcases mantissa_unique (significand_fst_lt first) secondAtLeast ordered values with
          ⟨mantissaEq, exponentEq⟩
        rw [mantissaEq, exponentEq]
      · rcases mantissa_unique (significand_fst_lt second) firstAtLeast ordered values.symm with
          ⟨mantissaEq, exponentEq⟩
        rw [mantissaEq, exponentEq]

theorem NatDouble.text_of_toDouble {number : NatDouble} {value : ℕ}
    (exact : number.toDouble = .finite value) : number.text = generalFormat value := by
  cases number with
  | finite other bound =>
      have sameValue : other = value := by simpa [toDouble] using exact
      rw [text, sameValue]
  | infinity => simp [toDouble] at exact

end Doubles
