import RouteTrust.Text.Blank

namespace RouteTrust.Text

/-- The fewest decimal digits of a number. -/
def decimal (value : UInt64) : List Char := Nat.toDigits 10 value.toNat

/-- The number that one or more decimal digits denote, if it is below 2^64. -/
def digitsValue? (digits : List Char) : Option UInt64 :=
  if digits.isEmpty || !digits.all Char.isDigit then none
  else
    let value := Nat.ofDigitChars 10 digits 0
    if value < UInt64.size then some (UInt64.ofNat value) else none

/-- Reads a number: an optional plus sign, then its digits and nothing else. -/
def decimalValue? : List Char → Option UInt64
  | '+' :: digits => digitsValue? digits
  | digits => digitsValue? digits

private theorem digitsValue?_decimal (value : UInt64) : digitsValue? (decimal value) = some value := by
  have digits : (decimal value).all Char.isDigit = true :=
    List.all_eq_true.2 fun _ member => Nat.isDigit_of_mem_toDigits (by decide) (by decide) member
  have some_digit : (decimal value).isEmpty = false := by
    simp [decimal, Nat.toDigits_ne_nil]
  have back : Nat.ofDigitChars 10 (decimal value) 0 = value.toNat := Nat.ofDigitChars_ten_toDigits
  simp [digitsValue?, digits, some_digit, back, value.toNat_lt]

/-- A written number has no sign. -/
theorem plus_not_mem_decimal (value : UInt64) : '+' ∉ decimal value := fun member =>
  absurd (Nat.isDigit_of_mem_toDigits (by decide) (by decide) member) (by decide)

theorem decimalValue?_decimal (value : UInt64) : decimalValue? (decimal value) = some value := by
  have unsigned := plus_not_mem_decimal value
  rw [← digitsValue?_decimal value]
  unfold decimalValue?
  split
  · simp_all
  · rfl

end RouteTrust.Text
