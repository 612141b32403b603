import RouteTrust.Text.Base64

namespace RouteTrust.Text.Base64

/-! ## Groups -/

/-- The values of up to three bytes; the unused low bits of the last are zero. -/
def sextets : List UInt8 → List Nat
  | [a] => [a.toNat / 4, a.toNat % 4 * 16]
  | [a, b] => [a.toNat / 4, a.toNat % 4 * 16 + b.toNat / 16, b.toNat % 16 * 4]
  | [a, b, c] =>
    [a.toNat / 4, a.toNat % 4 * 16 + b.toNat / 16, b.toNat % 16 * 4 + c.toNat / 64, c.toNat % 64]
  | _ => []

private theorem sextets_lt (group : List UInt8) : ∀ value ∈ sextets group, value < 64 := by
  fun_cases sextets group with
  | case1 a =>
    have aBound := a.toNat_lt
    simp only [List.mem_cons, List.not_mem_nil, or_false, forall_eq_or_imp, forall_eq]
    omega
  | case2 a b =>
    have aBound := a.toNat_lt
    have bBound := b.toNat_lt
    simp only [List.mem_cons, List.not_mem_nil, or_false, forall_eq_or_imp, forall_eq]
    omega
  | case3 a b c =>
    have aBound := a.toNat_lt
    have bBound := b.toNat_lt
    have cBound := c.toNat_lt
    simp only [List.mem_cons, List.not_mem_nil, or_false, forall_eq_or_imp, forall_eq]
    omega
  | case4 => simp

private theorem bytesOf_sextets_one (a : UInt8) : bytesOf (sextets [a]) = [a] := by
  have first : a.toNat / 4 * 4 + a.toNat % 4 * 16 / 16 = a.toNat := by omega
  simp only [sextets, bytesOf, first, UInt8.ofNat_toNat]

private theorem bytesOf_sextets_two (a b : UInt8) : bytesOf (sextets [a, b]) = [a, b] := by
  have bBound := b.toNat_lt
  have first : a.toNat / 4 * 4 + (a.toNat % 4 * 16 + b.toNat / 16) / 16 = a.toNat := by omega
  have second : (a.toNat % 4 * 16 + b.toNat / 16) % 16 * 16 + b.toNat % 16 * 4 / 4 = b.toNat := by omega
  simp only [sextets, bytesOf, first, second, UInt8.ofNat_toNat]

private theorem bytesOf_sextets_three (a b c : UInt8) : bytesOf (sextets [a, b, c]) = [a, b, c] := by
  have bBound := b.toNat_lt
  have cBound := c.toNat_lt
  have first : a.toNat / 4 * 4 + (a.toNat % 4 * 16 + b.toNat / 16) / 16 = a.toNat := by omega
  have second : (a.toNat % 4 * 16 + b.toNat / 16) % 16 * 16 + (b.toNat % 16 * 4 + c.toNat / 64) / 4 = b.toNat := by
    omega
  have third : (b.toNat % 16 * 4 + c.toNat / 64) % 4 * 64 + c.toNat % 64 = c.toNat := by omega
  simp only [sextets, bytesOf, first, second, third, UInt8.ofNat_toNat]

/-- Text is symbols group by group; the last group is filled with padding. -/
theorem encode_one (a : UInt8) : encode [a] = (sextets [a]).map symbol ++ [pad, pad] := rfl

private theorem encode_two (a b : UInt8) : encode [a, b] = (sextets [a, b]).map symbol ++ [pad] := rfl

private theorem encode_three (a b c : UInt8) (rest : List UInt8) :
    encode (a :: b :: c :: rest) = (sextets [a, b, c]).map symbol ++ encode rest := rfl

private theorem values_map_symbol {found : List Nat} (small : ∀ value ∈ found, value < 64) (offset : Nat) :
    values offset (found.map symbol) = .ok found := by
  induction found generalizing offset with
  | nil => rfl
  | cons value rest ih =>
    have read := value?_symbol (small value List.mem_cons_self)
    have later := ih (fun other member => small other (List.mem_cons_of_mem _ member)) (offset + 1)
    simp only [List.map_cons, values, read, later]
    rfl

/-- A last group of two to four symbols and the padding that fills it. -/
theorem decodeLast_symbols {found : List Nat} {padding : Nat} (small : ∀ value ∈ found, value < 64)
    (enough : 2 ≤ found.length) (full : found.length + padding = 4) (unused : unusedBits found = 0)
    (offset : Nat) :
    decodeLast offset (found.map symbol ++ List.replicate padding pad) = .ok (bytesOf found) := by
  have symbols : ∀ byte ∈ found.map symbol, (byte ≠ pad : Bool) = true := by
    intro byte member
    obtain ⟨value, inside, rfl⟩ := List.mem_map.1 member
    simpa using symbol_ne_pad value (small value inside)
  have taken : (found.map symbol ++ List.replicate padding pad).takeWhile (· ≠ pad) = found.map symbol := by
    rw [List.takeWhile_append_of_pos symbols]
    cases padding with
    | zero => simp
    | succ => simp [List.replicate_succ]
  have dropped : (found.map symbol ++ List.replicate padding pad).dropWhile (· ≠ pad) =
      List.replicate padding pad := by
    rw [List.dropWhile_append_of_pos symbols]
    cases padding with
    | zero => rfl
    | succ => simp [List.replicate_succ]
  have onlyPads : (List.replicate padding pad).any (· ≠ pad) = false := by simp
  have present : ¬ found.length < 2 := by omega
  have whole : (found.length + padding) % 4 = 0 := by omega
  simp only [decodeLast, taken, dropped, values_map_symbol small, onlyPads, List.length_map, List.length_append,
    List.length_replicate, present, whole, unused, decide_false, Bool.or_false, Bool.and_false, bind, Except.bind]
  rfl

/-- A group in front of other bytes. -/
theorem decodeFrom_symbols {found : List Nat} (small : ∀ value ∈ found, value < 64) (four : found.length = 4)
    {rest others : List UInt8} (more : rest ≠ []) {offset : Nat}
    (later : decodeFrom (offset + 4) rest = .ok others) :
    decodeFrom offset (found.map symbol ++ rest) = .ok (bytesOf found ++ others) := by
  obtain ⟨next, tail, rfl⟩ := List.exists_cons_of_ne_nil more
  have read := values_map_symbol small offset
  match found, four with
  | [a, b, c, d], _ =>
    simp only [List.map_cons, List.map_nil] at read
    simp only [List.map_cons, List.map_nil, List.cons_append, List.nil_append, decodeFrom, read, later, bind,
      Except.bind]
    rfl

/-! ## Texts -/

private theorem length_encode_mod (bytes : List UInt8) : (encode bytes).length % 4 = 0 := by
  fun_induction encode bytes with
  | case4 a b c rest ih => simp only [List.length_cons]; omega
  | _ => simp

private theorem encode_ne_nil {bytes : List UInt8} (present : bytes ≠ []) : encode bytes ≠ [] := by
  fun_cases encode bytes with
  | case1 => exact absurd rfl present
  | _ => simp

private theorem decodeFrom_encode (bytes : List UInt8) (offset : Nat) :
    decodeFrom offset (encode bytes) = .ok bytes := by
  induction bytes using encode.induct generalizing offset with
  | case1 => rfl
  | case2 a =>
    have unused : unusedBits (sextets [a]) = 0 := by simp [sextets, unusedBits]
    have full : (sextets [a]).length + 2 = 4 := rfl
    have read := decodeLast_symbols (sextets_lt [a]) (Nat.le_refl 2) full unused offset
    rwa [bytesOf_sextets_one] at read
  | case3 a b =>
    have unused : unusedBits (sextets [a, b]) = 0 := by simp [sextets, unusedBits]
    have full : (sextets [a, b]).length + 1 = 4 := rfl
    have read := decodeLast_symbols (sextets_lt [a, b]) (Nat.le_succ 2) full unused offset
    rwa [bytesOf_sextets_two] at read
  | case4 a b c rest ih =>
    by_cases last : rest = []
    · have enough : 2 ≤ (sextets [a, b, c]).length := Nat.le_add_right 2 2
      have full : (sextets [a, b, c]).length + 0 = 4 := rfl
      have read := decodeLast_symbols (sextets_lt [a, b, c]) enough full rfl offset
      rw [bytesOf_sextets_three] at read
      rw [last]
      exact read
    · have read := decodeFrom_symbols (sextets_lt [a, b, c]) rfl (encode_ne_nil last) (ih (offset + 4))
      rwa [bytesOf_sextets_three, ← encode_three] at read

/-- Text is read back to the bytes that it was made from. -/
theorem decode_encode (bytes : List UInt8) : decode (encode bytes) = .ok bytes := by
  have full := length_encode_mod bytes
  have noStray : strayLast? (encode bytes) = none := by
    unfold strayLast?
    split
    · rw [if_neg]
      omega
    · rfl
  rw [decode, noStray]
  exact decodeFrom_encode bytes 0

private theorem not_isLayout_symbol {value : Nat} (small : value < 64) : isLayout (symbol value) = false := by
  have all : ∀ v : Fin 64, isLayout (symbol v.val) = false := by decide
  exact all ⟨value, small⟩

private theorem not_isLayout_symbols (group : List UInt8) :
    ∀ byte ∈ (sextets group).map symbol, isLayout byte = false := by
  intro byte member
  obtain ⟨value, inside, rfl⟩ := List.mem_map.1 member
  exact not_isLayout_symbol (sextets_lt group value inside)

private theorem not_isLayout_of_mem_encode {bytes : List UInt8} : ∀ byte ∈ encode bytes, isLayout byte = false := by
  have padding : isLayout pad = false := rfl
  induction bytes using encode.induct with
  | case1 => simp [encode]
  | case2 a =>
    rw [encode_one, List.forall_mem_append]
    exact ⟨not_isLayout_symbols [a], by simp [padding]⟩
  | case3 a b =>
    rw [encode_two, List.forall_mem_append]
    exact ⟨not_isLayout_symbols [a, b], by simp [padding]⟩
  | case4 a b c rest ih =>
    rw [encode_three, List.forall_mem_append]
    exact ⟨not_isLayout_symbols [a, b, c], ih⟩

/-- The second text is the first with blanks put in anywhere. -/
inductive Spaced : List UInt8 → List UInt8 → Prop
  | nil : Spaced [] []
  | keep (byte : UInt8) {text spaced : List UInt8} : Spaced text spaced → Spaced (byte :: text) (byte :: spaced)
  | blank {byte : UInt8} {text spaced : List UInt8} : isLayout byte = true → Spaced text spaced →
      Spaced text (byte :: spaced)

theorem Spaced.refl (text : List UInt8) : Spaced text text := by
  induction text with
  | nil => exact .nil
  | cons byte rest ih => exact .keep byte ih

private theorem Spaced.filter_eq {text spaced : List UInt8} (same : Spaced text spaced)
    (dense : ∀ byte ∈ text, isLayout byte = false) : spaced.filter (fun byte => !isLayout byte) = text := by
  induction same with
  | nil => rfl
  | keep byte _ ih =>
    have visible := dense byte List.mem_cons_self
    have later := ih fun other member => dense other (List.mem_cons_of_mem _ member)
    simp [visible, later]
  | blank layout _ ih => simpa [layout] using ih dense

theorem decodeLoose_of_spaced {bytes text : List UInt8} (spaced : Spaced (encode bytes) text) :
    decodeLoose text = .ok bytes := by
  rw [decodeLoose, spaced.filter_eq not_isLayout_of_mem_encode, decode_encode]

end RouteTrust.Text.Base64
