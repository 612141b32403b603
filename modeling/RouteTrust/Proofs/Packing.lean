import RouteTrust.Proofs.Saving
import RouteTrust.Sequence.File

namespace RouteTrust

/-- A number is larger than an earlier one, or both stand at the limit. -/
def Rises (limit earlier later : UInt64) : Prop := earlier < later ∨ earlier = limit ∧ later = limit

instance (limit earlier later : UInt64) : Decidable (Rises limit earlier later) :=
  inferInstanceAs (Decidable (earlier < later ∨ earlier = limit ∧ later = limit))

/-- What is added to a number that is not below an earlier one makes it larger than
    that one, unless it stands at the limit. -/
theorem rises_of_toNat {limit earlier current step next : UInt64} (above : earlier ≤ current)
    (positive : 0 < step) (bounded : earlier ≤ limit)
    (added : next.toNat = min (current.toNat + step.toNat) limit.toNat) : Rises limit earlier next := by
  rw [Rises, ← UInt64.toNat_inj, ← UInt64.toNat_inj, UInt64.lt_iff_toNat_lt]
  rw [UInt64.le_iff_toNat_le] at above bounded
  rw [UInt64.lt_iff_toNat_lt, UInt64.toNat_zero] at positive
  omega

namespace Counters

/-! ## Raising -/

theorem toNat_limit : limit.toNat = 1048575 := rfl

theorem toNat_raise (value step : UInt64) :
    (raise value step).toNat = min (value.toNat + step.toNat) limit.toNat := by
  have sum := toNat_addCapped value step
  have small : limit.toNat ≤ UInt64.size - 1 := by decide
  unfold raise
  simp only [UInt64.lt_iff_toNat_lt]
  split <;> omega

theorem le_raise {value : UInt64} (bounded : value ≤ limit) (step : UInt64) : value ≤ raise value step := by
  rw [UInt64.le_iff_toNat_le] at bounded ⊢
  rw [toNat_raise]
  omega

theorem rises_raise {earlier value step : UInt64} (above : earlier ≤ value) (bounded : value ≤ limit)
    (positive : 0 < step) : Rises limit earlier (raise value step) :=
  rises_of_toNat above positive (UInt64.le_trans above bounded) (toNat_raise value step)

/-- No counter is above the limit. -/
def Bounded (counters : Counters) : Prop := ∀ kind, counters.get kind ≤ limit

theorem bounded_zero : zero.Bounded := fun kind => by cases kind <;> decide

theorem get_increment_self (counters : Counters) (kind : LsaKind) :
    (counters.increment kind).get kind = raise (counters.get kind) 1 :=
  get_set_self counters kind _

theorem get_increment_of_ne {kind other : LsaKind} (different : other ≠ kind) (counters : Counters) :
    (counters.increment kind).get other = counters.get other :=
  get_set_of_ne different counters _

theorem get_afterRestart (counters : Counters) (kind : LsaKind) :
    counters.afterRestart.get kind = raise (counters.get kind) restartStep := by
  cases kind <;> rfl

theorem Bounded.set {counters : Counters} (bounded : counters.Bounded) {value : UInt64} (small : value ≤ limit)
    (kind : LsaKind) : (counters.set kind value).Bounded := by
  intro other
  by_cases same : other = kind
  · rw [same, get_set_self]
    exact small
  · rw [get_set_of_ne same]
    exact bounded other

theorem Bounded.increment {counters : Counters} (bounded : counters.Bounded) (kind : LsaKind) :
    (counters.increment kind).Bounded :=
  bounded.set (raise_le_limit _ 1) kind

theorem bounded_afterRestart (counters : Counters) : counters.afterRestart.Bounded := by
  intro kind
  rw [get_afterRestart]
  exact raise_le_limit _ _

/-- One more advertisement of a kind lowers no counter. -/
theorem Bounded.le_increment {counters : Counters} (bounded : counters.Bounded) (kind other : LsaKind) :
    counters.get other ≤ (counters.increment kind).get other := by
  by_cases same : other = kind
  · rw [same, get_increment_self]
    exact le_raise (bounded kind) 1
  · rw [get_increment_of_ne same]
    exact UInt64.le_refl _

/-! ## Packing -/

theorem toNat_combined (counters : Counters) :
    counters.combined.toNat = counters.name.toNat % 1048576 + counters.coordinate.toNat % 1048576 * 1048576 +
      counters.adjacency.toNat % 1048576 * 1099511627776 := by
  have radix_eq : radix.toNat = 1048576 := rfl
  have square_eq : (radix * radix).toNat = 1099511627776 := by decide
  simp only [combined, UInt64.toNat_add, UInt64.toNat_mul, UInt64.toNat_mod, radix_eq, square_eq]
  -- three fields of twenty bits fill sixty, so none of the sums wraps
  omega

theorem toNat_get_split (number : UInt64) (kind : LsaKind) :
    ((split number).get kind).toNat =
      match kind with
      | .name => number.toNat % 1048576
      | .coordinate => number.toNat / 1048576 % 1048576
      | .adjacency => number.toNat / 1099511627776 % 1048576 := by
  have square_eq : (radix * radix).toNat = 1099511627776 := by decide
  cases kind with
  | name => simp only [split, get, UInt64.toNat_mod]; rfl
  | coordinate => simp only [split, get, UInt64.toNat_mod, UInt64.toNat_div]; rfl
  | adjacency => simp only [split, get, UInt64.toNat_mod, UInt64.toNat_div, square_eq]; rfl

theorem split_zero : split 0 = zero := by decide

theorem bounded_split (number : UInt64) : (split number).Bounded := by
  intro kind
  have unpacked := toNat_get_split number kind
  rw [UInt64.le_iff_toNat_le, toNat_limit, unpacked]
  cases kind <;> simp only <;> omega

/-- Of each counter the lowest twenty bits are unpacked, whatever the other counters are. -/
theorem toNat_get_split_combined (counters : Counters) (kind : LsaKind) :
    ((split counters.combined).get kind).toNat = (counters.get kind).toNat % 1048576 := by
  rw [toNat_get_split, toNat_combined]
  cases kind with
  | name => simp only [get]; omega
  | coordinate => simp only [get]; omega
  | adjacency => simp only [get]; omega

private theorem get_split_combined {counters : Counters} (bounded : counters.Bounded) (kind : LsaKind) :
    (split counters.combined).get kind = counters.get kind := by
  have below := bounded kind
  rw [UInt64.le_iff_toNat_le, toNat_limit] at below
  rw [← UInt64.toNat_inj, toNat_get_split_combined, Nat.mod_eq_of_lt (by omega)]

theorem ext_get {a b : Counters} (same : ∀ kind, a.get kind = b.get kind) : a = b := by
  obtain ⟨aName, aCoordinate, aAdjacency⟩ := a
  obtain ⟨bName, bCoordinate, bAdjacency⟩ := b
  rw [mk.injEq]
  exact ⟨same .name, same .coordinate, same .adjacency⟩

theorem split_combined {counters : Counters} (bounded : counters.Bounded) :
    split counters.combined = counters :=
  ext_get (get_split_combined bounded)

end Counters

namespace CertificateSequence

/-- The largest number of a certificate. -/
def limit : UInt64 := UInt64.ofNat (UInt64.size - 1)

private theorem toNat_limit : limit.toNat = UInt64.size - 1 := by decide

private theorem le_limit (number : UInt64) : number ≤ limit := by
  rw [UInt64.le_iff_toNat_le, toNat_limit]
  exact Nat.le_sub_one_of_lt number.toNat_lt_size

theorem rises_following {earlier : UInt64} {last : Option UInt64} (above : earlier ≤ last.getD 0) :
    Rises limit earlier (following last) := by
  have one : (0 : UInt64) < 1 := by decide
  cases last with
  | none => exact rises_of_toNat above one (le_limit earlier) (by decide)
  | some last => exact rises_of_toNat above one (le_limit earlier) (toNat_addCapped last 1)

end CertificateSequence

/-! ## Number files -/

namespace Text

theorem isBlank_of_isDigit {c : Char} (digit : c.isDigit = true) : isBlank c = false := by
  have range : 48 ≤ c.toNat ∧ c.toNat ≤ 57 := by
    simpa [Char.isDigit, UInt32.le_iff_toNat_le] using digit
  simp only [isBlank, blankRanges, List.any_cons, List.any_nil]
  grind

private theorem trimStart_of_visible {text : List Char} (visible : ∀ c ∈ text, isBlank c = false) :
    trimStart text = text := by
  cases text with
  | nil => rfl
  | cons c rest => exact trimStart_cons_of_not_blank (visible c List.mem_cons_self)

private theorem trim_of_visible {text : List Char} (visible : ∀ c ∈ text, isBlank c = false) : trim text = text := by
  have back := trimStart_of_visible fun c member => visible c (List.mem_reverse.1 member)
  rw [trim, trimStart_of_visible visible, trimEnd]
  rw [trimStart] at back
  rw [back, List.reverse_reverse]

private theorem trim_decimal (value : UInt64) : trim (decimal value) = decimal value :=
  trim_of_visible fun _ member =>
    isBlank_of_isDigit (Nat.isDigit_of_mem_toDigits (by decide) (by decide) member)

end Text

namespace Disk

/-- What is read as a number depends on what the file reads as. -/
theorem readNumber?_congr {before after : Disk} {path : Path} (same : after.read? path = before.read? path) :
    after.readNumber? path = before.readNumber? path := by
  simp only [readNumber?, same]

private theorem readNumber?_of_read? {disk : Disk} {path : Path} {number : UInt64}
    (read : disk.read? path = some (Text.utf8 (String.ofList (Text.decimal number)))) :
    disk.readNumber? path = some number := by
  simp only [readNumber?, read, Option.bind_some, Text.ofUtf8?_utf8, String.toList_ofList, Text.trim_decimal,
    Text.decimalValue?_decimal]

/-- Writing a number either leaves it in the file, or fails and leaves every file as
    it was. -/
theorem writeNumber_cases (disk : Disk) (path : Path) (number : UInt64) :
    (disk.writeNumber path number).1 = .ok () ∧ (disk.writeNumber path number).2.Opens path ∧
        (disk.writeNumber path number).2.readNumber? path = some number ∨
      (disk.writeNumber path number).1 = .error (.notWritten path) ∧
        ∀ other, Spares disk (disk.writeNumber path number).2 other := by
  unfold writeNumber Change.orError
  cases done : (disk.save path (Text.utf8 (String.ofList (Text.decimal number)))).isDone with
  | true =>
    have read := read?_of_save done
    exact .inl ⟨rfl, opens_of_read? read, readNumber?_of_read? read⟩
  | false => exact .inr ⟨rfl, save_spares_of_not_done done⟩

theorem writeNumber_spares {path other : Path} (different : other.place ≠ path.place) (disk : Disk)
    (number : UInt64) : Spares disk (disk.writeNumber path number).2 other :=
  save_spares different disk _

end Disk
end RouteTrust
