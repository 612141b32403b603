import Mathlib.Data.List.DropRight
import Mathlib.Data.List.Induction
import Mathlib.Data.List.TakeWhile
import RouteTrust.Text.Blank

namespace RouteTrust.Text

/-- All characters are blanks. -/
def AllBlank (text : List Char) : Prop := ∀ c ∈ text, isBlank c = true

/-- The text ends with a blank. -/
def EndsBlank (text : List Char) : Prop := ∃ c, text.getLast? = some c ∧ isBlank c = true

instance (text : List Char) : Decidable (AllBlank text) :=
  decidable_of_iff (text.all isBlank = true) List.all_eq_true

instance (text : List Char) : Decidable (EndsBlank text) :=
  decidable_of_iff (text.getLast?.any isBlank = true) (by simp [EndsBlank, Option.any_eq_true])

variable {before core after front text : List Char} {c : Char}

private theorem trimEnd_eq_rdropWhile (text : List Char) : trimEnd text = text.rdropWhile isBlank := rfl

private theorem trimStart_append_of_blank (blank : AllBlank before) : trimStart (before ++ text) = trimStart text :=
  List.dropWhile_append_of_pos blank

private theorem trimEnd_append_of_blank (blank : AllBlank after) : trimEnd (text ++ after) = trimEnd text := by
  have behind : ∀ c ∈ after.reverse, isBlank c = true := fun c member => blank c (List.mem_reverse.1 member)
  rw [trimEnd, trimEnd, List.reverse_append, List.dropWhile_append_of_pos behind]

/-- Trimming at the end stops at a visible character. -/
theorem trimEnd_append_of_visible (visible : isBlank c = false) :
    trimEnd (front ++ c :: text) = front ++ c :: trimEnd text := by
  simp only [trimEnd_eq_rdropWhile]
  induction text using List.reverseRecOn with
  | nil => exact trimEnd_concat_of_not_blank visible
  | append_singleton text last ih =>
    have split : front ++ c :: (text ++ [last]) = (front ++ c :: text) ++ [last] := by
      rw [List.append_assoc, List.cons_append]
    rw [split, List.rdropWhile_concat, List.rdropWhile_concat, ih]
    split_ifs
    · rfl
    · rw [List.append_assoc, List.cons_append]

theorem trimEnd_subset (text : List Char) : trimEnd text ⊆ text :=
  (List.rdropWhile_prefix isBlank text).subset

theorem trimEnd_eq_self_iff : trimEnd text = text ↔ ¬ EndsBlank text := by
  rw [trimEnd_eq_rdropWhile, List.rdropWhile_eq_self_iff]
  constructor
  · rintro visible ⟨c, last, blank⟩
    obtain ⟨front, rfl⟩ := List.getLast?_eq_some_iff.1 last
    refine visible (by simp) ?_
    rw [List.getLast_concat]
    exact blank
  · intro visible present blank
    exact visible ⟨_, List.getLast?_eq_some_getLast present, blank⟩

/-- A text is its trimmed text with blanks around it. -/
theorem exists_trim (text : List Char) :
    ∃ before after, AllBlank before ∧ AllBlank after ∧ text = before ++ trim text ++ after := by
  refine ⟨text.takeWhile isBlank, (trimStart text).rtakeWhile isBlank, fun _ => List.mem_takeWhile_imp,
    fun _ => List.mem_rtakeWhile_imp, ?_⟩
  rw [trim, trimEnd_eq_rdropWhile, List.append_assoc, List.rdropWhile_append_rtakeWhile, trimStart,
    List.takeWhile_append_dropWhile]

/-- Blanks around something visible are trimmed away. -/
theorem trim_around (blank : AllBlank before) (blankToo : AllBlank after)
    (starts : ∃ c rest, core = c :: rest ∧ isBlank c = false) (ends : ¬ EndsBlank core) :
    trim (before ++ core ++ after) = core := by
  obtain ⟨c, rest, rfl, visible⟩ := starts
  rw [trim, List.append_assoc, trimStart_append_of_blank blank, List.cons_append,
    trimStart_cons_of_not_blank visible, ← List.cons_append, trimEnd_append_of_blank blankToo]
  exact trimEnd_eq_self_iff.2 ends

end RouteTrust.Text
