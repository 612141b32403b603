import RouteTrust.Proofs.Resuming

/-!
The bits of the packed number. Each kind owns twenty places of it, and packing is what masks
and shifts of words give (`combined_eq_or`), so at its places the number shows the bits of the
counter (`testBit_combined`). A change of one counter leaves the bits at all other places as
they were, also where the counter comes to its limit (`moved`); so counters that came about in
any way share the number and do not touch each other (`fields_apart`).
-/
namespace RouteTrust

namespace LsaKind
variable {place : Nat}

/-- The lowest place of a kind in the packed number. -/
def lowest : LsaKind → Nat
  | .name => 0
  | .coordinate => 20
  | .adjacency => 40

/-- The place is one of the twenty of the kind. -/
def Owns (kind : LsaKind) (place : Nat) : Prop := kind.lowest ≤ place ∧ place < kind.lowest + 20

/-- Every place below sixty has an owner. -/
theorem exists_owns (small : place < 60) : ∃ kind, Owns kind place := by
  by_cases first : place < 20
  · exact ⟨.name, Nat.zero_le place, first⟩
  · by_cases second : place < 40
    · exact ⟨.coordinate, Nat.le_of_not_lt first, second⟩
    · exact ⟨.adjacency, Nat.le_of_not_lt second, small⟩

/-- A field shows the bits at the places of its kind. -/
theorem testBit_field (kind : LsaKind) (number bit : Nat) :
    (kind.field number).testBit bit = (decide (bit < 20) && number.testBit (bit + kind.lowest)) := by
  cases kind with
  | name => exact Nat.testBit_mod_two_pow number 20 bit
  | coordinate => rw [field, Nat.testBit_mod_two_pow, Nat.testBit_div_two_pow, lowest]
  | adjacency => rw [field, Nat.testBit_mod_two_pow, Nat.testBit_div_two_pow, lowest]

end LsaKind

namespace Counters
variable {counters : Counters}

/-! ## Masks and shifts -/

private theorem toNat_and_limit (value : UInt64) : (value &&& limit).toNat = value.toNat % 2 ^ 20 := by
  rw [UInt64.toNat_and, toNat_limit]
  exact Nat.and_two_pow_sub_one_eq_mod value.toNat 20

/-- Twenty bits stay whole when they are shifted by no more than forty-four places. -/
theorem toNat_shift_and_limit (value : UInt64) {amount : UInt64} (small : amount.toNat ≤ 44) :
    ((value &&& limit) <<< amount).toNat = value.toNat % 2 ^ 20 * 2 ^ amount.toNat := by
  rw [UInt64.toNat_shiftLeft, toNat_and_limit, Nat.mod_eq_of_lt (by omega : amount.toNat < 64), Nat.shiftLeft_eq]
  refine Nat.mod_eq_of_lt ?_
  calc value.toNat % 2 ^ 20 * 2 ^ amount.toNat
      < 2 ^ 20 * 2 ^ amount.toNat :=
        Nat.mul_lt_mul_of_pos_right (Nat.mod_lt _ (Nat.two_pow_pos 20)) (Nat.two_pow_pos _)
    _ ≤ 2 ^ 20 * 2 ^ 44 := Nat.mul_le_mul_left _ (Nat.pow_le_pow_right Nat.two_pos small)

/-- Numbers whose bits do not meet are added by laying them over each other. -/
theorem add_eq_or {low amount : Nat} (small : low < 2 ^ amount) (high : Nat) :
    low + high * 2 ^ amount = low ||| high * 2 ^ amount := by
  rw [Nat.add_comm, Nat.mul_comm, Nat.two_pow_add_eq_or_of_lt small, Nat.or_comm]

/-- The packed number is made of the masked counters, shifted to their places. -/
theorem combined_eq_or (counters : Counters) :
    counters.combined = counters.name &&& limit ||| (counters.coordinate &&& limit) <<< 20 |||
      (counters.adjacency &&& limit) <<< 40 := by
  have name := Nat.mod_lt counters.name.toNat (Nat.two_pow_pos 20)
  have coordinate := Nat.mod_lt counters.coordinate.toNat (Nat.two_pow_pos 20)
  rw [← UInt64.toNat_inj, UInt64.toNat_or, UInt64.toNat_or, toNat_and_limit,
    toNat_shift_and_limit counters.coordinate (by decide), toNat_shift_and_limit counters.adjacency (by decide)]
  have twenty : UInt64.toNat 20 = 20 := rfl
  have forty : UInt64.toNat 40 = 40 := rfl
  rw [twenty, forty, ← add_eq_or name, ← add_eq_or (by omega), toNat_combined]
  rfl

/-- Unpacking shifts the number back and masks it. -/
theorem split_eq_and (number : UInt64) :
    split number = ⟨number &&& limit, number >>> 20 &&& limit, number >>> 40 &&& limit⟩ := by
  refine ext_get ?_
  intro kind
  rw [← UInt64.toNat_inj, toNat_get_split]
  cases kind with
  | name => exact (toNat_and_limit number).symm
  | coordinate =>
    rw [get, toNat_and_limit, UInt64.toNat_shiftRight, Nat.shiftRight_eq_div_pow]
    rfl
  | adjacency =>
    rw [get, toNat_and_limit, UInt64.toNat_shiftRight, Nat.shiftRight_eq_div_pow]
    rfl

private theorem combined_lt (counters : Counters) : counters.combined.toNat < 2 ^ 60 := by
  rw [toNat_combined]
  omega

/-- Packing what was unpacked gives the lowest sixty bits. -/
theorem toNat_combined_split (number : UInt64) : (split number).combined.toNat = number.toNat % 2 ^ 60 := by
  have name := toNat_get_split number .name
  have coordinate := toNat_get_split number .coordinate
  have adjacency := toNat_get_split number .adjacency
  simp only [get] at name coordinate adjacency
  rw [toNat_combined, name, coordinate, adjacency]
  omega

/-! ## Bit by bit -/

/-- At the places of a kind the packed number shows the bits of its counter. -/
theorem testBit_combined (counters : Counters) (kind : LsaKind) {bit : Nat} (small : bit < 20) :
    counters.combined.toNat.testBit (bit + kind.lowest) = (counters.get kind).toNat.testBit bit := by
  have shown := LsaKind.testBit_field kind counters.combined.toNat bit
  have masked := Nat.testBit_mod_two_pow (counters.get kind).toNat 20 bit
  rw [decide_eq_true small, Bool.true_and] at shown masked
  rw [← values_split, values, toNat_get_split_combined] at shown
  exact shown.symm.trans masked

private theorem testBit_combined_of_le (counters : Counters) {place : Nat} (large : 60 ≤ place) :
    counters.combined.toNat.testBit place = false :=
  Nat.testBit_lt_two_pow (Nat.lt_of_lt_of_le counters.combined_lt (Nat.pow_le_pow_right Nat.two_pos large))

/-- A new value of one counter moves no bit outside its places. -/
theorem testBit_combined_set (counters : Counters) {kind : LsaKind} {place : Nat} (apart : ¬ kind.Owns place)
    (value : UInt64) :
    (counters.set kind value).combined.toNat.testBit place = counters.combined.toNat.testBit place := by
  -- Below sixty the place is that of another counter, and from there on no bit is set.
  by_cases small : place < 60
  · obtain ⟨owner, above, below⟩ := LsaKind.exists_owns small
    have other : owner ≠ kind := by
      rintro rfl
      exact apart ⟨above, below⟩
    have inside : place - owner.lowest < 20 := by omega
    rw [← Nat.sub_add_cancel above, testBit_combined _ owner inside, testBit_combined _ owner inside,
      get_set_of_ne other]
  · rw [testBit_combined_of_le _ (Nat.le_of_not_lt small), testBit_combined_of_le _ (Nat.le_of_not_lt small)]

/-! ## Changes -/

/-- The kind whose counter is changed. -/
def Change.kind : Change → LsaKind
  | .assign kind _ => kind
  | .increment kind => kind

/-- The value that is asked for. -/
def Change.asked (counters : Counters) : Change → Nat
  | .assign _ value => value.toNat
  | .increment kind => counters.values kind + 1

/-- A change gives its counter the value that is asked for, or the limit. -/
theorem exists_change_eq_set (counters : Counters) (change : Change) :
    ∃ value, value.toNat = min (change.asked counters) limit.toNat ∧
      counters.change change = counters.set change.kind value := by
  cases change with
  | assign kind value => exact ⟨raise value 0, toNat_raise value 0, rfl⟩
  | increment kind => exact ⟨raise (counters.get kind) 1, toNat_raise (counters.get kind) 1, rfl⟩

/-- What a change does to the packed number. -/
structure Moved (counters : Counters) (change : Change) : Prop where
  own : ((split (counters.change change).combined).get change.kind).toNat = min (change.asked counters) limit.toNat
  others : ∀ kind, kind ≠ change.kind →
    (split (counters.change change).combined).get kind = (split counters.combined).get kind
  bits : ∀ place, ¬ change.kind.Owns place →
    (counters.change change).combined.toNat.testBit place = counters.combined.toNat.testBit place

theorem moved (counters : Counters) (change : Change) : Moved counters change := by
  obtain ⟨value, reached, same⟩ := exists_change_eq_set counters change
  rw [toNat_limit] at reached
  refine ⟨?_, ?_, ?_⟩
  · rw [same, toNat_get_split_combined, get_set_self, reached, toNat_limit]
    omega
  · intro kind other
    rw [same, ← UInt64.toNat_inj, toNat_get_split_combined, toNat_get_split_combined, get_set_of_ne other]
  · intro place apart
    rw [same]
    exact testBit_combined_set counters apart value

/-- Counters that share one number. -/
structure SideBySide (counters : Counters) : Prop where
  bounded : ∀ kind, counters.get kind ≤ limit
  fits : counters.combined.toNat < 2 ^ 60
  unpacked : split counters.combined = counters

private theorem Bounded.sideBySide (bounded : counters.Bounded) : SideBySide counters :=
  ⟨bounded, combined_lt counters, split_combined bounded⟩

/-- Raising a counter by one lowers no field of the packed number. -/
theorem Bounded.split_le_increment (bounded : counters.Bounded) (kind other : LsaKind) :
    (split counters.combined).get other ≤ (split (counters.increment kind).combined).get other := by
  rw [split_combined bounded, split_combined (bounded.increment kind)]
  exact bounded.le_increment kind other

end Counters

namespace LsaSequence
open Counters

/-- Sequences that came about: new, resumed from a file on some disk, or after a counter of
    such a sequence was set or raised. -/
inductive Lived : LsaSequence → Prop
  | new (path : Path) : Lived (new path)
  | resumed {disk : Disk} {path : Path} {sequence : LsaSequence}
      (done : (resume disk path).1 = .ok sequence) : Lived sequence
  | changed {sequence : LsaSequence} (lived : Lived sequence) (change : Counters.Change) :
      Lived { sequence with counters := sequence.counters.change change }

private theorem Lived.bounded {sequence : LsaSequence} (lived : Lived sequence) : sequence.counters.Bounded := by
  induction lived with
  | new path => exact bounded_zero
  | resumed done => exact bounded_of_resume done
  | changed _ change ih => exact ih.change change

/-- Counters that came about in any way share one number of sixty bits, from which they are
    unpacked as they are. Setting or raising one of them gives it the value that is asked for, or the
    limit, and leaves the bits outside its own places as they were; raising lowers none of them.
    Packing and unpacking are what masks and shifts give, and a number that is unpacked and packed
    again keeps its lowest sixty bits. -/
theorem fields_apart :
    (∀ sequence, Lived sequence → SideBySide sequence.counters ∧
      (∀ change, Moved sequence.counters change) ∧
      ∀ kind other, (split sequence.counters.combined).get other ≤
        (split (sequence.counters.increment kind).combined).get other) ∧
    (∀ counters : Counters, counters.combined = counters.name &&& limit |||
      (counters.coordinate &&& limit) <<< 20 ||| (counters.adjacency &&& limit) <<< 40) ∧
    ∀ number, split number = ⟨number &&& limit, number >>> 20 &&& limit, number >>> 40 &&& limit⟩ ∧
      (split number).combined.toNat = number.toNat % 2 ^ 60 := by
  refine ⟨?_, combined_eq_or, ?_⟩
  · intro sequence lived
    exact ⟨lived.bounded.sideBySide, moved sequence.counters, lived.bounded.split_le_increment⟩
  · intro number
    exact ⟨split_eq_and number, toNat_combined_split number⟩

/-- A disk with a number of sixty-four ones in a file. -/
def diskOfOnes : Disk := ⟨[(⟨true, ["f"]⟩, .file (Text.utf8 "18446744073709551615"))], []⟩

/-- Resumed from it, all counters stand at their limit. Raising the lowest one, or setting it far above
    its limit, carries nothing into its neighbour. -/
theorem fields_apart_full :
    ∃ sequence, (resume diskOfOnes ⟨"/f"⟩).1 = .ok sequence ∧ SideBySide sequence.counters ∧
      (split (sequence.counters.increment .name).combined).get .coordinate = limit ∧
      ((split (sequence.counters.assign .name 18446744073709551615).combined).get .name).toNat = 1048575 := by
  have done : (resume diskOfOnes ⟨"/f"⟩).1 = .ok ⟨⟨limit, limit, limit⟩, ⟨"/f"⟩⟩ := by decide +kernel
  obtain ⟨together, moved, _⟩ := fields_apart.1 _ (.resumed done)
  have raised := (moved (.increment .name)).others .coordinate (by decide)
  rw [together.unpacked] at raised
  exact ⟨_, done, together, raised, (moved (.assign .name 18446744073709551615)).own⟩

end LsaSequence
end RouteTrust
