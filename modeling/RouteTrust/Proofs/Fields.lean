import RouteTrust.Wire.Field

namespace RouteTrust.Wire

/-! ## Reading back -/

theorem readNumber_varint (value : UInt64) (rest : List UInt8) :
    readNumber (varint value.toNat ++ rest) = .ok (value, rest) := by
  rw [readNumber, readVarint_varint]

private theorem readNumber_varint_of_lt {value : Nat} (fits : value < UInt64.size) (rest : List UInt8) :
    readNumber (varint value ++ rest) = .ok (UInt64.ofNat value, rest) := by
  have same : (UInt64.ofNat value).toNat = value := UInt64.toNat_ofNat_of_lt' fits
  have read := readNumber_varint (UInt64.ofNat value) rest
  rwa [same] at read

private theorem Form.ofCode?_code (form : Form) : Form.ofCode? form.code = some form := by
  cases form with
  | _ => rfl

private theorem Form.code_lt (form : Form) : form.code < 8 := by
  cases form with
  | _ => decide

theorem readKey_key {tag : Nat} (positive : 0 < tag) (small : 8 * tag + 8 ≤ UInt32.size) (form : Form)
    (rest : List UInt8) : readKey (key tag form ++ rest) = .ok (⟨tag, form⟩, rest) := by
  have code := form.code_lt
  have narrow : 8 * tag + form.code < UInt32.size := by omega
  have fits : 8 * tag + form.code < UInt64.size := Nat.lt_trans narrow (by decide)
  have number : (UInt64.ofNat (8 * tag + form.code)).toNat = 8 * tag + form.code := UInt64.toNat_ofNat_of_lt' fits
  have ofTag : (8 * tag + form.code) / 8 = tag := by omega
  have ofForm : (8 * tag + form.code) % 8 = form.code := by omega
  simp only [readKey, key, readNumber_varint_of_lt fits rest, Key.ofNumber, number, ofTag, ofForm,
    Form.ofCode?_code, if_neg (Nat.not_le.2 narrow), if_neg (Nat.ne_of_gt positive)]

private theorem takeBytes_append (bytes rest : List UInt8) :
    takeBytes bytes.length (bytes ++ rest) = .ok (bytes, rest) := by
  simp [takeBytes]

theorem readBytes_varint {bytes : List UInt8} (fits : bytes.length < UInt64.size) (rest : List UInt8) :
    readBytes (varint bytes.length ++ (bytes ++ rest)) = .ok (bytes, rest) := by
  have length : (UInt64.ofNat bytes.length).toNat = bytes.length := UInt64.toNat_ofNat_of_lt' fits
  simp only [readBytes, readNumber_varint_of_lt fits, length, takeBytes_append]

theorem readText_of_readBytes {bytes rest : List UInt8} {text : String}
    (read : readBytes bytes = .ok (Text.utf8 text, rest)) : readText bytes = .ok (text, rest) := by
  simp only [readText, read, Text.ofUtf8?_utf8]

/-! ## Telling fields apart -/

/-- Numbers in front of other bytes are told apart. -/
theorem varint_append_inj {a b : Nat} {rest others : List UInt8}
    (same : varint a ++ rest = varint b ++ others) : a = b ∧ rest = others := by
  have fits {value : Nat} (bound : value ≤ max a b) : value < Nat.pow 128 (max a b + 1) :=
    Nat.lt_of_le_of_lt bound (Nat.lt_of_lt_of_le (Nat.lt_pow_self (by decide))
      (Nat.pow_le_pow_right (by decide) (Nat.le_succ _)))
  have first := readVarintWithin_varint (fits (Nat.le_max_left a b)) rest
  have second := readVarintWithin_varint (fits (Nat.le_max_right a b)) others
  rw [same, second] at first
  cases first
  exact ⟨rfl, rfl⟩

@[simp] theorem bytesField_nil (tag : Nat) : bytesField tag [] = [] := rfl

theorem bytesField_of_ne {tag : Nat} {bytes : List UInt8} (present : bytes ≠ []) :
    bytesField tag bytes = key tag .delimited ++ (varint bytes.length ++ bytes) := by
  rw [bytesField, if_neg (by simpa using present), List.append_assoc]

theorem bytesField_append_inj {tag : Nat} {a b rest others : List UInt8} (first : a ≠ []) (second : b ≠ [])
    (same : bytesField tag a ++ rest = bytesField tag b ++ others) : a = b ∧ rest = others := by
  simp only [bytesField_of_ne first, bytesField_of_ne second, List.append_assoc, List.append_cancel_left_eq]
    at same
  obtain ⟨lengths, same⟩ := varint_append_inj same
  exact List.append_inj same lengths

@[simp] theorem numberField_zero (tag : Nat) : numberField tag 0 = [] := rfl

theorem numberField_of_ne {tag : Nat} {value : UInt64} (present : value ≠ 0) :
    numberField tag value = key tag .varint ++ varint value.toNat := by
  rw [numberField, if_neg present]

/-- A number may be left out, so what stands behind it must not look like it. -/
theorem numberField_append_inj {tag : Nat} {a b : UInt64} {rest others : List UInt8}
    (differs : ¬ key tag .varint <+: rest) (differsToo : ¬ key tag .varint <+: others)
    (same : numberField tag a ++ rest = numberField tag b ++ others) : a = b ∧ rest = others := by
  by_cases first : a = 0
  · by_cases second : b = 0
    · rw [first, second] at same
      exact ⟨first.trans second.symm, same⟩
    · rw [first, numberField_of_ne second, numberField_zero, List.nil_append, List.append_assoc] at same
      exact absurd ⟨_, same.symm⟩ differs
  · by_cases second : b = 0
    · rw [second, numberField_of_ne first, numberField_zero, List.nil_append, List.append_assoc] at same
      exact absurd ⟨_, same⟩ differsToo
    · simp only [numberField_of_ne first, numberField_of_ne second, List.append_assoc,
        List.append_cancel_left_eq] at same
      obtain ⟨numbers, same⟩ := varint_append_inj same
      exact ⟨UInt64.toNat_inj.1 numbers, same⟩

/-- Keys of different tags do not begin each other. -/
theorem not_key_prefix {tag other : Nat} {form otherForm : Form} (differ : tag ≠ other) (rest : List UInt8) :
    ¬ key tag form <+: key other otherForm ++ rest := by
  rintro ⟨others, same⟩
  have numbers := (varint_append_inj same).1
  have code := form.code_lt
  have otherCode := otherForm.code_lt
  omega

end RouteTrust.Wire
