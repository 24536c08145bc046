import KeyValueClusterPerf.Foundations.Text

/-!
# Decimal texts of integers

The texts that stream insertion prints for integers, with and without padding. The
facts needed about them are their length and that they consist of digits, so that
they contain no separator of the formats they are embedded in.
-/

namespace Texts

def decimal (number : ℕ) : Text :=
  Nat.toDigits 10 number

/-- The decimal text of an integer, with a leading minus sign if it is negative. -/
def decimalInt : ℤ → Text
  | .ofNat number => decimal number
  | .negSucc number => '-' :: decimal (number + 1)

/-- The decimal text of a natural number, padded with zeros to at least `width` digits. -/
def padded (width number : ℕ) : Text :=
  List.replicate (width - (decimal number).length) '0' ++ decimal number

theorem isDigit_of_mem_decimal {number : ℕ} {character : Char}
    (mem : character ∈ decimal number) : character.isDigit :=
  Nat.isDigit_of_mem_toDigits (by decide) (by decide) mem

theorem isDigit_of_mem_padded {width number : ℕ} {character : Char}
    (mem : character ∈ padded width number) : character.isDigit := by
  rcases List.mem_append.mp mem with zeroMem | digitMem
  · rw [List.eq_of_mem_replicate zeroMem]
    decide
  · exact isDigit_of_mem_decimal digitMem

theorem length_decimal_le_iff (number : ℕ) {width : ℕ} (positive : 0 < width) :
    (decimal number).length ≤ width ↔ number < 10 ^ width :=
  Nat.length_toDigits_le_iff (by decide) positive

theorem lt_length_decimal_iff (number : ℕ) {width : ℕ} (positive : 0 < width) :
    width < (decimal number).length ↔ 10 ^ width ≤ number := by
  rw [← not_le, length_decimal_le_iff number positive, not_lt]

theorem decimal_ne_nil (number : ℕ) : decimal number ≠ [] :=
  Nat.toDigits_ne_nil

theorem decimalInt_ne_nil (number : ℤ) : decimalInt number ≠ [] := by
  cases number with
  | ofNat number => exact decimal_ne_nil number
  | negSucc number => exact List.cons_ne_nil _ _

theorem decimal_injective : Function.Injective decimal := by
  intro first second same
  have values := congrArg (Nat.ofDigitChars 10 · 0) same
  simpa [decimal] using values

theorem decimalInt_injective : Function.Injective decimalInt := by
  have minus : ∀ number, '-' ∉ decimal number := by
    intro number mem
    simpa using isDigit_of_mem_decimal mem
  intro first second same
  cases first with
  | ofNat first =>
      cases second with
      | ofNat second => exact congrArg Int.ofNat (decimal_injective same)
      | negSucc second =>
          have signed : decimal first = '-' :: decimal (second + 1) := same
          exact absurd (by simp [signed]) (minus first)
  | negSucc first =>
      cases second with
      | ofNat second =>
          have signed : decimal second = '-' :: decimal (first + 1) := same.symm
          exact absurd (by simp [signed]) (minus second)
      | negSucc second =>
          have digits := decimal_injective (List.cons.inj same).2
          rw [Nat.succ.inj digits]

theorem length_padded_le {width bound number : ℕ} (wide : width ≤ bound) (positive : 0 < bound)
    (small : number < 10 ^ bound) : (padded width number).length ≤ bound := by
  have digits := (length_decimal_le_iff number positive).mpr small
  simp only [padded, List.length_append, List.length_replicate]
  omega

section FixedWidth

variable {base width number : ℕ}

/-- The last digits of a number in a base, from left to right. -/
def lastDigits (base : ℕ) : ℕ → ℕ → Text
  | 0, _ => []
  | width + 1, number => lastDigits base width (number / base) ++ [Nat.digitChar (number % base)]

theorem lastDigits_zero (base width : ℕ) : lastDigits base width 0 = List.replicate width '0' := by
  induction width with
  | zero => rfl
  | succ width ih =>
      rw [lastDigits, Nat.zero_div, ih, Nat.zero_mod, List.replicate_succ']
      rfl

/-- A number padded with zeros to a width that is enough for its digits. -/
theorem replicate_append_toDigits (large : 1 < base) (positive : 0 < width)
    (fits : number < base ^ width) :
    List.replicate (width - (Nat.toDigits base number).length) '0' ++ Nat.toDigits base number =
      lastDigits base width number := by
  induction width generalizing number with
  | zero => omega
  | succ width ih =>
      rcases lt_or_ge number base with small | more
      · rw [Nat.toDigits_of_lt_base small, lastDigits, Nat.div_eq_of_lt small, lastDigits_zero,
          Nat.mod_eq_of_lt small]
        rfl
      · have front : number / base < base ^ width := Nat.div_lt_of_lt_mul (by
          rwa [← Nat.pow_succ'])
        have longer : 0 < width := by
          by_contra zero
          have digit : number < base := by simpa [Nat.eq_zero_of_not_pos zero] using fits
          exact absurd digit (not_lt.mpr more)
        rw [Nat.toDigits_of_base_le large more, lastDigits, ← ih longer front, List.length_append,
          List.length_singleton, Nat.add_sub_add_right, List.append_assoc]

end FixedWidth

end Texts
