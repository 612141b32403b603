/-!
Variable-length numbers: seven bits a byte, the lowest first, and the top bit of
every byte but the last set. Reading takes at most ten bytes and a value below
2^64, accepts longer forms than the shortest, and leaves the bytes after the
number alone.
-/
namespace RouteTrust.Wire

/-- The shortest form of a number. -/
def varint (value : Nat) : List UInt8 :=
  if value < 128 then [UInt8.ofNat value]
  else UInt8.ofNat (value % 128 + 128) :: varint (value / 128)
termination_by value

/-- Reads a number of at most `width` bytes. -/
def readVarintWithin : Nat → List UInt8 → Option (Nat × List UInt8)
  | 0, _ => none
  | _, [] => none
  | width + 1, byte :: rest =>
    if byte.toNat < 128 then some (byte.toNat, rest)
    else (readVarintWithin width rest).map fun (high, after) => (byte.toNat - 128 + 128 * high, after)

/-- Reads a number below 2^64 of at most ten bytes. -/
def readVarint (bytes : List UInt8) : Option (UInt64 × List UInt8) :=
  match readVarintWithin 10 bytes with
  | some (value, rest) => if value < UInt64.size then some (UInt64.ofNat value, rest) else none
  | none => none

theorem varint_of_lt {value : Nat} (small : value < 128) : varint value = [UInt8.ofNat value] := by
  rw [varint, if_pos small]

theorem varint_of_ge {value : Nat} (large : 128 ≤ value) :
    varint value = UInt8.ofNat (value % 128 + 128) :: varint (value / 128) := by
  rw [varint, if_neg (by omega)]

theorem varint_ne_nil (value : Nat) : varint value ≠ [] := by
  rw [varint]; split <;> simp

/-- What is left after a number is shorter by at least one byte. -/
theorem readVarintWithin_shorter {width : Nat} {bytes rest : List UInt8} {value : Nat}
    (read : readVarintWithin width bytes = some (value, rest)) : rest.length < bytes.length := by
  fun_induction readVarintWithin width bytes generalizing value rest with
  | case1 => cases read
  | case2 => cases read
  | case3 => cases read; simp
  | case4 width byte tail _ ih =>
    obtain ⟨⟨high, after⟩, inner, same⟩ := Option.map_eq_some_iff.1 read
    cases same
    have := ih inner
    simp only [List.length_cons]
    omega

theorem readVarint_shorter {bytes rest : List UInt8} {value : UInt64}
    (read : readVarint bytes = some (value, rest)) : rest.length < bytes.length := by
  unfold readVarint at read
  split at read
  · rename_i found
    split at read
    · cases read; exact readVarintWithin_shorter found
    · cases read
  · cases read

/-- A number in its shortest form is read back, whatever follows it. -/
theorem readVarintWithin_varint {width value : Nat} (fits : value < Nat.pow 128 (width + 1)) (rest : List UInt8) :
    readVarintWithin (width + 1) (varint value ++ rest) = some (value, rest) := by
  by_cases small : value < 128
  · have exact : (UInt8.ofNat value).toNat = value := by simp; omega
    simp [varint_of_lt small, readVarintWithin, exact, small]
  · induction width generalizing value with
    | zero => exact absurd fits small
    | succ width ih =>
      have exact : (UInt8.ofNat (value % 128 + 128)).toNat = value % 128 + 128 := by
        rw [UInt8.toNat_ofNat']; omega
      have inner : readVarintWithin (width + 1) (varint (value / 128) ++ rest) = some (value / 128, rest) := by
        have fits : value / 128 < Nat.pow 128 (width + 1) :=
          Nat.div_lt_of_lt_mul (Nat.mul_comm _ _ ▸ fits)
        by_cases last : value / 128 < 128
        · have exact : (UInt8.ofNat (value / 128)).toNat = value / 128 := by simp; omega
          simp [varint_of_lt last, readVarintWithin, exact, last]
        · exact ih fits last
      rw [varint_of_ge (by omega), List.cons_append, readVarintWithin, exact, if_neg (by omega), inner]
      simp only [Option.map_some, Option.some.injEq, Prod.mk.injEq, and_true]
      omega

theorem readVarint_varint (value : UInt64) (rest : List UInt8) :
    readVarint (varint value.toNat ++ rest) = some (value, rest) := by
  have bound : value.toNat < UInt64.size := value.toNat_lt
  have fits : value.toNat < Nat.pow 128 (9 + 1) := Nat.lt_of_lt_of_le bound (by decide)
  simp only [readVarint, readVarintWithin_varint fits rest, if_pos bound, UInt64.ofNat_toNat]

end RouteTrust.Wire
