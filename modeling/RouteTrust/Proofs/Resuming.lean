import RouteTrust.Proofs.NumberTexts
import RouteTrust.Proofs.SavingAgain
import RouteTrust.Proofs.SequenceFiles

/-!
Resuming the counters of advertisements from any file. A file with a number gives each counter
its own field of that number, raised for the restart, and then holds the raised counters
as one number (`resumesFrom_of_readNumber?`); any other file is as good as none. Counters that were set and
raised in any order are within their limit (`Bounded.changed`), so what was written for them
is resumed from counter by counter (`resumed_exactly`).
-/
namespace RouteTrust

namespace LsaKind

/-- The field of a kind in a packed number, twenty bits for each kind. -/
def field : LsaKind → Nat → Nat
  | .name, number => number % 2 ^ 20
  | .coordinate, number => number / 2 ^ 20 % 2 ^ 20
  | .adjacency, number => number / 2 ^ 40 % 2 ^ 20

/-- The number with the given fields. -/
def pack (fields : LsaKind → Nat) : Nat := fields .name + fields .coordinate * 2 ^ 20 + fields .adjacency * 2 ^ 40

/-- A field after a restart: ten more, and the limit at most. -/
def raised (fields : LsaKind → Nat) (kind : LsaKind) : Nat := min (fields kind + 10) (2 ^ 20 - 1)

end LsaKind

namespace Counters
variable {counters : Counters}

/-! ## Any changes of the counters -/

/-- What can be done to counters between two restarts. -/
inductive Change
  | assign (kind : LsaKind) (value : UInt64)
  | increment (kind : LsaKind)

/-- The counters after a change. -/
def change (counters : Counters) : Change → Counters
  | .assign kind value => counters.assign kind value
  | .increment kind => counters.increment kind

/-- The counters after changes, in their order. -/
def changed (counters : Counters) (changes : List Change) : Counters := changes.foldl change counters

theorem Bounded.change (bounded : counters.Bounded) (change : Change) : (counters.change change).Bounded := by
  cases change with
  | assign kind value => exact bounded.set (raise_le_limit value 0) kind
  | increment kind => exact bounded.increment kind

theorem Bounded.changed (bounded : counters.Bounded) (changes : List Change) :
    (counters.changed changes).Bounded := by
  induction changes generalizing counters with
  | nil => exact bounded
  | cons change rest ih => exact ih (bounded.change change)

/-! ## Counters as fields -/

/-- The counters as numbers. -/
def values (counters : Counters) (kind : LsaKind) : Nat := (counters.get kind).toNat

theorem values_split (number : UInt64) (kind : LsaKind) : (split number).values kind = kind.field number.toNat := by
  rw [values, toNat_get_split]
  cases kind <;> rfl

private theorem values_afterRestart (counters : Counters) :
    counters.afterRestart.values = LsaKind.raised counters.values := by
  funext kind
  rw [values, get_afterRestart, toNat_raise]
  rfl

private theorem toNat_combined_of_bounded (bounded : counters.Bounded) :
    counters.combined.toNat = LsaKind.pack counters.values := by
  have small : ∀ kind, counters.values kind % 1048576 = counters.values kind := fun kind => by
    have below := bounded kind
    rw [UInt64.le_iff_toNat_le, toNat_limit] at below
    exact Nat.mod_eq_of_lt (by unfold values; omega)
  rw [toNat_combined]
  have name := small .name
  have coordinate := small .coordinate
  have adjacency := small .adjacency
  simp only [values, get] at name coordinate adjacency
  rw [name, coordinate, adjacency]
  rfl

/-- A field holds its counter, whatever the other counters are. -/
theorem field_combined (bounded : counters.Bounded) (kind : LsaKind) :
    kind.field counters.combined.toNat = counters.values kind := by
  rw [← values_split, split_combined bounded]

end Counters

/-- The contents of a number file. -/
def Text.numberFile (number : Nat) : List UInt8 := utf8 (String.ofList (Nat.toDigits 10 number))

namespace LsaSequence
variable {disk : Disk} {path : Path}

/-- Resuming gives every counter its field raised for the restart. Where the file can be written it
    holds the decimal digits of the raised fields afterwards; where not, resuming fails and all
    files are as they were. -/
structure ResumesFrom (disk : Disk) (path : Path) (fields : LsaKind → Nat) : Prop where
  done : (disk.save path []).isDone = true → ∃ sequence, (resume disk path).1 = .ok sequence ∧
    sequence.path = path ∧ (∀ kind, sequence.counters.values kind = LsaKind.raised fields kind) ∧
    (resume disk path).2.read? path = some (Text.numberFile (LsaKind.pack (LsaKind.raised fields)))
  failed : (disk.save path []).isDone = false → (resume disk path).1 = .error (.notWritten path) ∧
    ∀ other, Disk.Spares disk (resume disk path).2 other

private theorem persist_eq (sequence : LsaSequence) (bounded : sequence.counters.Bounded) (disk : Disk) :
    sequence.persist disk =
      (disk.save sequence.path (Text.numberFile (LsaKind.pack sequence.counters.values))).orError
        (.notWritten sequence.path) := by
  rw [← Counters.toNat_combined_of_bounded bounded]
  rfl

theorem resumesFrom_of_readNumber? {number : UInt64} (read : disk.readNumber? path = some number) :
    ResumesFrom disk path fun kind => kind.field number.toNat := by
  have bounded := Counters.bounded_afterRestart (Counters.split number)
  have values : (Counters.split number).afterRestart.values = LsaKind.raised fun kind => kind.field number.toNat := by
    rw [Counters.values_afterRestart]
    exact congrArg LsaKind.raised (funext (Counters.values_split number))
  have written := persist_eq ⟨(Counters.split number).afterRestart, path⟩ bounded disk
  have alike := Disk.isDone_save_congr disk path
    (Text.numberFile (LsaKind.pack (LsaKind.raised fun kind => kind.field number.toNat))) []
  simp only [values, Change.orError] at written
  constructor
  · intro done
    have saved := alike.trans done
    rw [saved, if_pos rfl] at written
    rw [resume_of_some read, written]
    exact ⟨_, rfl, rfl, congrFun values, Disk.read?_of_save saved⟩
  · intro failed
    have unsaved := alike.trans failed
    rw [unsaved, if_neg Bool.false_ne_true] at written
    rw [resume_of_some read, written]
    exact ⟨rfl, Disk.save_spares_of_not_done unsaved⟩

/-- Counters that were written are what the file is resumed from. -/
theorem resumesFrom_of_persist {sequence : LsaSequence} (bounded : sequence.counters.Bounded)
    (done : (sequence.persist disk).1 = .ok ()) :
    ResumesFrom (sequence.persist disk).2 sequence.path sequence.counters.values ∧
      ((sequence.persist disk).2.save sequence.path []).isDone = true := by
  rcases persist_cases bounded disk with ⟨_, _, holds, _⟩ | ⟨failed, _⟩
  · constructor
    · have resumes := resumesFrom_of_readNumber? holds
      rwa [funext (Counters.field_combined bounded)] at resumes
    · rw [persist_eq sequence bounded disk] at done ⊢
      refine Disk.isDone_save_again ?_ []
      by_contra failed
      rw [Change.orError, if_neg failed] at done
      cases done
  · rw [failed] at done
    cases done

/-- What resuming does with any file. From a file whose text denotes a number below 2^64 every
    counter is resumed as its field of that number raised for the restart. Any other file is
    left alone with the whole disk, and the counters are zero. Counters that were set and
    raised in any order from zero and written with success are resumed each by itself, and then
    the file can be written again. -/
theorem resumed_exactly (disk : Disk) (path : Path) :
    (∀ text value, disk.read? path = some (Text.utf8 text) → Text.Denotes text.toList value →
      value < UInt64.size → ResumesFrom disk path fun kind => kind.field value) ∧
    ((¬ ∃ text value, disk.read? path = some (Text.utf8 text) ∧ Text.Denotes text.toList value ∧
        value < UInt64.size) →
      ∃ sequence, resume disk path = (.ok sequence, disk) ∧ sequence.path = path ∧
        ∀ kind, sequence.counters.values kind = 0) ∧
    ∀ changes, (persist ⟨Counters.zero.changed changes, path⟩ disk).1 = .ok () →
      let after := (persist ⟨Counters.zero.changed changes, path⟩ disk).2
      ∃ sequence, (resume after path).1 = .ok sequence ∧ sequence.path = path ∧
        (∀ kind, sequence.counters.values kind = LsaKind.raised (Counters.zero.changed changes).values kind) ∧
        (resume after path).2.read? path =
          some (Text.numberFile (LsaKind.pack (LsaKind.raised (Counters.zero.changed changes).values))) := by
  refine ⟨?_, ?_, ?_⟩
  · intro text value stored denotes small
    have whole : (UInt64.ofNat value).toNat = value := UInt64.toNat_ofNat_of_lt' small
    have read : disk.readNumber? path = some (UInt64.ofNat value) :=
      Disk.readNumber?_eq_some_iff.2 ⟨text, stored, whole.symm ▸ denotes⟩
    have resumes := resumesFrom_of_readNumber? read
    rwa [whole] at resumes
  · intro no_number
    have unread : disk.readNumber? path = none := by
      rw [Option.eq_none_iff_forall_ne_some]
      intro number read
      obtain ⟨text, stored, denotes⟩ := Disk.readNumber?_eq_some_iff.1 read
      exact no_number ⟨text, _, stored, denotes, number.toNat_lt_size⟩
    exact ⟨new path, resume_of_none unread, rfl, fun kind => by cases kind <;> rfl⟩
  · intro changes done
    have bounded : Counters.Bounded (LsaSequence.mk (Counters.zero.changed changes) path).counters :=
      Counters.bounded_zero.changed changes
    obtain ⟨resumes, writable⟩ := resumesFrom_of_persist bounded done
    exact resumes.done writable

/-- A disk with a seven in a file, between blanks and with a sign and a zero in front. -/
def diskOfSeven : Disk := ⟨[(⟨true, ["f"]⟩, .file (Text.utf8 " +07\n"))], []⟩

/-- The first counter goes on from seven. Without a file all start at zero, and when the first was set
    above its limit and the second raised once, they go on from there. -/
theorem resumed_exactly_seven :
    (∃ sequence, (resume diskOfSeven ⟨"/f"⟩).1 = .ok sequence ∧ sequence.counters.values .name = 17 ∧
      sequence.counters.values .coordinate = 10) ∧
    (∃ sequence, resume .empty ⟨"/f"⟩ = (.ok sequence, .empty) ∧ sequence.counters.values .name = 0) ∧
    ∃ sequence, (resume (persist ⟨Counters.zero.changed [.assign .name 2000000, .increment .coordinate], ⟨"/f"⟩⟩
        .empty).2 ⟨"/f"⟩).1 = .ok sequence ∧ sequence.counters.values .name = 1048575 ∧
      sequence.counters.values .coordinate = 11 := by
  have denotes : Text.Denotes " +07\n".toList 7 :=
    @Text.Denotes.mk [' '] ['+'] ['0', '7'] ['\n'] (by decide) (.inr rfl) (by decide)
      (List.all_eq_true.1 (by decide)) (by decide)
  have stored : diskOfSeven.read? ⟨"/f"⟩ = some (Text.utf8 " +07\n") := by decide +kernel
  obtain ⟨sequence, resumed, _, values, _⟩ :=
    ((resumed_exactly diskOfSeven ⟨"/f"⟩).1 _ _ stored denotes (by decide)).done (by decide +kernel)
  have missing : Disk.empty.read? ⟨"/f"⟩ = none := by decide +kernel
  obtain ⟨_, fresh, changed⟩ := resumed_exactly .empty ⟨"/f"⟩
  obtain ⟨first, started, _, zeros⟩ := fresh (by
    rintro ⟨text, value, stored, _⟩
    rw [missing] at stored
    cases stored)
  obtain ⟨second, again, _, raised, _⟩ :=
    changed [.assign .name 2000000, .increment .coordinate] (by decide +kernel)
  exact ⟨⟨sequence, resumed, values .name, values .coordinate⟩, ⟨first, started, zeros .name⟩,
    ⟨second, again, raised .name, raised .coordinate⟩⟩

end LsaSequence
end RouteTrust
