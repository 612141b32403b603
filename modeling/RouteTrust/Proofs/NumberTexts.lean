import Mathlib.Data.Nat.Digits.Defs
import RouteTrust.Proofs.Packing
import RouteTrust.Proofs.Trimming

namespace RouteTrust

namespace Text
variable {text digits : List Char} {number : UInt64}

theorem ofUtf8?_eq_some_iff {bytes : List UInt8} {text : String} : ofUtf8? bytes = some text ↔ bytes = utf8 text := by
  constructor
  · intro read
    unfold ofUtf8? String.fromUTF8? at read
    split at read
    · cases read
      rfl
    · cases read
  · rintro rfl
    exact ofUtf8?_utf8 text

/-- What decimal digits stand for by their places, the last one for ones. -/
def placeValue (digits : List Char) : Nat :=
  Nat.ofDigits 10 (digits.map fun c => c.toNat - '0'.toNat).reverse

/-- The text denotes the value: between blanks there is at most one plus sign, then digits. -/
inductive Denotes : List Char → Nat → Prop
  | mk {before sign digits after : List Char} (blank : AllBlank before) (signed : sign = [] ∨ sign = ['+'])
      (present : digits ≠ []) (decimal : ∀ c ∈ digits, c.isDigit = true) (blankToo : AllBlank after) :
      Denotes (before ++ (sign ++ digits) ++ after) (placeValue digits)

private theorem ofDigitChars_eq_placeValue (digits : List Char) : Nat.ofDigitChars 10 digits 0 = placeValue digits := by
  induction digits using List.reverseRecOn with
  | nil => rfl
  | append_singleton front last ih =>
    rw [Nat.ofDigitChars_append, ih, placeValue, placeValue, List.map_append, List.reverse_append,
      List.map_singleton, List.reverse_singleton, List.singleton_append, Nat.ofDigits_cons]
    simp only [Nat.ofDigitChars, List.foldl_cons, List.foldl_nil]
    omega

private theorem digitsValue?_eq_some_iff : digitsValue? digits = some number ↔
    digits ≠ [] ∧ (∀ c ∈ digits, c.isDigit = true) ∧ placeValue digits = number.toNat := by
  rw [digitsValue?, ofDigitChars_eq_placeValue]
  by_cases proper : digits ≠ [] ∧ ∀ c ∈ digits, c.isDigit = true
  · have accepted : (digits.isEmpty || !digits.all Char.isDigit) = false := by
      simpa [List.all_eq_true] using proper
    have below := number.toNat_lt_size
    simp only [accepted, Bool.false_eq_true, if_false, and_iff_right proper.1, and_iff_right proper.2]
    split
    · rename_i small
      rw [Option.some.injEq, ← UInt64.toNat_inj, UInt64.toNat_ofNat_of_lt' small]
    · rename_i large
      constructor
      · intro none_read
        cases none_read
      · intro same
        exact absurd (same ▸ below) large
  · have refused : (digits.isEmpty || !digits.all Char.isDigit) = true := by
      by_contra accepted
      exact proper (by simpa [List.all_eq_true] using accepted)
    simp only [refused, if_true]
    constructor
    · intro none_read
      cases none_read
    · rintro ⟨present, decimal, _⟩
      exact absurd ⟨present, decimal⟩ proper

/-- A number is read from digits with at most one plus sign in front. -/
theorem decimalValue?_eq_some_iff : decimalValue? text = some number ↔
    ∃ sign digits, text = sign ++ digits ∧ (sign = [] ∨ sign = ['+']) ∧ digitsValue? digits = some number := by
  constructor
  · intro read
    unfold decimalValue? at read
    split at read
    · rename_i digits
      exact ⟨['+'], digits, rfl, .inr rfl, read⟩
    · exact ⟨[], text, rfl, .inl rfl, read⟩
  · rintro ⟨sign, digits, rfl, rfl | rfl, read⟩
    · obtain ⟨_, decimal, _⟩ := digitsValue?_eq_some_iff.1 read
      unfold decimalValue?
      split
      · rename_i rest starts
        have plus := decimal '+' (by rw [List.nil_append] at starts; simp [starts])
        exact absurd plus (by decide)
      · exact read
    · exact read

/-- What is read from a trimmed text is what the text denotes. -/
theorem decimalValue?_trim_eq_some_iff : decimalValue? (trim text) = some number ↔ Denotes text number.toNat := by
  constructor
  · intro read
    obtain ⟨before, after, blank, blankToo, split⟩ := exists_trim text
    obtain ⟨sign, digits, core, signed, value⟩ := decimalValue?_eq_some_iff.1 read
    obtain ⟨present, decimal, same⟩ := digitsValue?_eq_some_iff.1 value
    rw [split, core, ← same]
    exact .mk blank signed present decimal blankToo
  · intro denotes
    generalize same : number.toNat = value at denotes
    obtain @⟨before, sign, digits, after, blank, signed, present, decimal, blankToo⟩ := denotes
    have visible : ∀ c ∈ sign ++ digits, isBlank c = false := by
      intro c member
      rcases List.mem_append.1 member with inSign | inDigits
      · rcases signed with rfl | rfl
        · cases inSign
        · rw [List.mem_singleton.1 inSign]
          decide
      · exact isBlank_of_isDigit (decimal c inDigits)
    have starts : ∃ c rest, sign ++ digits = c :: rest ∧ isBlank c = false := by
      obtain ⟨c, rest, core⟩ := List.exists_cons_of_ne_nil (List.append_ne_nil_of_right_ne_nil sign present)
      exact ⟨c, rest, core, visible c (core ▸ List.mem_cons_self)⟩
    have ends : ¬ EndsBlank (sign ++ digits) := by
      rintro ⟨c, last, blank⟩
      rw [visible c (List.mem_of_getLast? last)] at blank
      cases blank
    rw [trim_around blank blankToo starts ends]
    exact decimalValue?_eq_some_iff.2 ⟨sign, digits, rfl, signed,
      digitsValue?_eq_some_iff.2 ⟨present, decimal, same.symm⟩⟩

end Text

namespace Disk

/-- A number is read from a file whose text denotes it, and only from such a file. -/
theorem readNumber?_eq_some_iff {disk : Disk} {path : Path} {number : UInt64} :
    disk.readNumber? path = some number ↔
      ∃ text, disk.read? path = some (Text.utf8 text) ∧ Text.Denotes text.toList number.toNat := by
  constructor
  · intro read
    unfold readNumber? at read
    split at read
    · rename_i text found
      obtain ⟨bytes, stored, decoded⟩ := Option.bind_eq_some_iff.1 found
      rw [Text.ofUtf8?_eq_some_iff.1 decoded] at stored
      exact ⟨text, stored, Text.decimalValue?_trim_eq_some_iff.1 read⟩
    · cases read
  · rintro ⟨text, stored, denotes⟩
    simp only [readNumber?, stored, Option.bind_some, Text.ofUtf8?_utf8]
    exact Text.decimalValue?_trim_eq_some_iff.2 denotes

end Disk
end RouteTrust
