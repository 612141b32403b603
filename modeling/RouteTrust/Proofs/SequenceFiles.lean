import RouteTrust.Proofs.Packing

namespace RouteTrust

/-- The number that a file holds; a file without a readable number counts as zero. -/
def Disk.number (disk : Disk) (path : Path) : UInt64 := (disk.readNumber? path).getD 0

/-- The counter of a kind on disk. -/
def Disk.counter (disk : Disk) (path : Path) (kind : LsaKind) : UInt64 :=
  (Counters.split (disk.number path)).get kind

namespace Disk.Untouched
variable {before after : Disk} {path : Path}

theorem readNumber? (untouched : Untouched before after path) :
    after.readNumber? path = before.readNumber? path :=
  readNumber?_congr untouched.read

theorem number (untouched : Untouched before after path) : after.number path = before.number path := by
  rw [Disk.number, Disk.number, untouched.readNumber?]

theorem counter (untouched : Untouched before after path) (kind : LsaKind) :
    after.counter path kind = before.counter path kind := by
  rw [Disk.counter, Disk.counter, untouched.number]

end Disk.Untouched

/-! ## The file of the counters -/

namespace LsaSequence

/-- Counters are within their limit and none is behind the one on disk. -/
structure Ahead (sequence : LsaSequence) (disk : Disk) : Prop where
  bounded : sequence.counters.Bounded
  above : ∀ kind, disk.counter sequence.path kind ≤ sequence.counters.get kind

/-- A change leaves the file of the counters readable and takes no counter back. -/
structure Kept (before after : Disk) (path : Path) : Prop where
  opens : after.Opens path
  above : ∀ kind, before.counter path kind ≤ after.counter path kind

theorem Kept.of_untouched {before after : Disk} {path : Path} (untouched : Disk.Untouched before after path) :
    Kept before after path where
  opens := untouched.opens
  above kind := by
    rw [untouched.counter]
    exact UInt64.le_refl _

theorem Kept.trans {first second third : Disk} {path : Path} (one : Kept first second path)
    (two : Kept second third path) : Kept first third path where
  opens := two.opens
  above kind := UInt64.le_trans (one.above kind) (two.above kind)

theorem Ahead.of_untouched {before after : Disk} {sequence : LsaSequence} (ahead : sequence.Ahead before)
    (untouched : Disk.Untouched before after sequence.path) : sequence.Ahead after where
  bounded := ahead.bounded
  above kind := by
    rw [untouched.counter]
    exact ahead.above kind

/-- Writing the counters either makes the file hold them, or fails and leaves every
    file as it was. -/
theorem persist_cases {sequence : LsaSequence} (bounded : sequence.counters.Bounded) (disk : Disk) :
    (sequence.persist disk).1 = .ok () ∧ (sequence.persist disk).2.Opens sequence.path ∧
        (sequence.persist disk).2.readNumber? sequence.path = some sequence.counters.combined ∧
        (∀ kind, (sequence.persist disk).2.counter sequence.path kind = sequence.counters.get kind) ∨
      (sequence.persist disk).1 = .error (.notWritten sequence.path) ∧
        ∀ other, Disk.Spares disk (sequence.persist disk).2 other := by
  rcases Disk.writeNumber_cases disk sequence.path sequence.counters.combined with ⟨done, opens, holds⟩ | failed
  · refine .inl ⟨done, opens, holds, fun kind => ?_⟩
    rw [Disk.counter, Disk.number, persist, holds, Option.getD_some, Counters.split_combined bounded]
  · exact .inr failed

theorem persist_spares {sequence : LsaSequence} {other : Path} (different : other.place ≠ sequence.path.place)
    (disk : Disk) : Disk.Spares disk (sequence.persist disk).2 other :=
  Disk.writeNumber_spares different disk _

theorem Ahead.persist {sequence : LsaSequence} {disk : Disk} (ahead : sequence.Ahead disk)
    (opened : disk.Opens sequence.path) :
    sequence.Ahead (sequence.persist disk).2 ∧ Kept disk (sequence.persist disk).2 sequence.path := by
  rcases persist_cases ahead.bounded disk with ⟨_, opens, _, holds⟩ | ⟨_, spares⟩
  · refine ⟨⟨ahead.bounded, fun kind => ?_⟩, opens, fun kind => ?_⟩
    · rw [holds]
      exact UInt64.le_refl _
    · rw [holds]
      exact ahead.above kind
  · have untouched := (spares sequence.path).untouched opened
    exact ⟨ahead.of_untouched untouched, .of_untouched untouched⟩

/-- The counters after a restart are ahead of those that were in the file. -/
theorem ahead_afterRestart {disk : Disk} {path : Path} {number : UInt64}
    (read : disk.readNumber? path = some number) : Ahead ⟨(Counters.split number).afterRestart, path⟩ disk where
  bounded := Counters.bounded_afterRestart _
  above kind := by
    rw [Disk.counter, Disk.number, read, Option.getD_some, Counters.get_afterRestart]
    exact Counters.le_raise (Counters.bounded_split number kind) _

private theorem ahead_new {disk : Disk} {path : Path} (read : disk.readNumber? path = none) :
    (new path).Ahead disk where
  bounded := Counters.bounded_zero
  above kind := by
    rw [Disk.counter, Disk.number, new, read, Option.getD_none, Counters.split_zero]
    exact UInt64.le_refl _

theorem resume_of_none {disk : Disk} {path : Path} (read : disk.readNumber? path = none) :
    resume disk path = (.ok (new path), disk) := by
  simp only [resume, read]

theorem resume_of_some {disk : Disk} {path : Path} {number : UInt64} (read : disk.readNumber? path = some number) :
    resume disk path =
      ((persist ⟨(Counters.split number).afterRestart, path⟩ disk).1.map
          fun () => ⟨(Counters.split number).afterRestart, path⟩,
        (persist ⟨(Counters.split number).afterRestart, path⟩ disk).2) := by
  simp only [resume, read]

theorem kept_resume {disk : Disk} {path : Path} (opened : disk.Opens path) :
    Kept disk (resume disk path).2 path := by
  cases read : disk.readNumber? path with
  | none =>
    rw [resume_of_none read]
    exact .of_untouched ⟨opened, rfl⟩
  | some number =>
    rw [resume_of_some read]
    exact ((ahead_afterRestart read).persist opened).2

/-- Counters that were resumed are new, where the file has no number, or those of the file after
    the restart, which have been written back. -/
theorem cases_of_resume {disk : Disk} {path : Path} {sequence : LsaSequence}
    (resumed : (resume disk path).1 = .ok sequence) :
    disk.readNumber? path = none ∧ sequence = new path ∧ (resume disk path).2 = disk ∨
      ∃ number, disk.readNumber? path = some number ∧
        sequence = ⟨(Counters.split number).afterRestart, path⟩ ∧ (resume disk path).2 = (sequence.persist disk).2 := by
  cases read : disk.readNumber? path with
  | none =>
    rw [resume_of_none read] at resumed ⊢
    cases resumed
    exact .inl ⟨rfl, rfl, rfl⟩
  | some number =>
    rw [resume_of_some read] at resumed ⊢
    cases outcome : (persist ⟨(Counters.split number).afterRestart, path⟩ disk).1 with
    | error reason =>
      rw [outcome] at resumed
      cases resumed
    | ok _ =>
      rw [outcome] at resumed
      cases resumed
      exact .inr ⟨number, rfl, rfl, rfl⟩

theorem ahead_of_resume {disk : Disk} {path : Path} {sequence : LsaSequence} (opened : disk.Opens path)
    (resumed : (resume disk path).1 = .ok sequence) : sequence.path = path ∧ sequence.Ahead (resume disk path).2 := by
  rcases cases_of_resume resumed with ⟨read, rfl, same⟩ | ⟨number, read, rfl, written⟩
  · rw [same]
    exact ⟨rfl, ahead_new read⟩
  · rw [written]
    exact ⟨rfl, ((ahead_afterRestart read).persist opened).1⟩

theorem bounded_of_resume {disk : Disk} {path : Path} {sequence : LsaSequence}
    (resumed : (resume disk path).1 = .ok sequence) : sequence.counters.Bounded := by
  rcases cases_of_resume resumed with ⟨_, rfl, _⟩ | ⟨number, _, rfl, _⟩
  · exact Counters.bounded_zero
  · exact Counters.bounded_afterRestart _

theorem resume_spares {path other : Path} (different : other.place ≠ path.place) (disk : Disk) :
    Disk.Spares disk (resume disk path).2 other := by
  cases read : disk.readNumber? path with
  | none =>
    rw [resume_of_none read]
    exact .refl disk other
  | some number =>
    rw [resume_of_some read]
    exact Disk.writeNumber_spares different disk _

end LsaSequence

/-! ## The file of the certificate number -/

namespace CertificateSequence

/-- A change leaves the file of the certificate number readable and does not take the
    number back. -/
structure Kept (before after : Disk) (path : Path) : Prop where
  opens : after.Opens path
  above : before.number path ≤ after.number path

theorem Kept.of_untouched {before after : Disk} {path : Path} (untouched : Disk.Untouched before after path) :
    Kept before after path where
  opens := untouched.opens
  above := by
    rw [untouched.number]
    exact UInt64.le_refl _

theorem Kept.trans {first second third : Disk} {path : Path} (one : Kept first second path)
    (two : Kept second third path) : Kept first third path :=
  ⟨two.opens, UInt64.le_trans one.above two.above⟩

theorem persist_spares {sequence : CertificateSequence} {other : Path}
    (different : other.place ≠ sequence.path.place) (disk : Disk) :
    Disk.Spares disk (sequence.persist disk).2 other :=
  Disk.writeNumber_spares different disk _

/-- A router that writes its number again changes nothing in the file. -/
theorem persist_again {sequence : CertificateSequence} {disk : Disk} (opened : disk.Opens sequence.path)
    (holds : disk.readNumber? sequence.path = some sequence.seq) :
    (sequence.persist disk).2.readNumber? sequence.path = some sequence.seq ∧
      Kept disk (sequence.persist disk).2 sequence.path := by
  rcases Disk.writeNumber_cases disk sequence.path sequence.seq with ⟨_, opens, written⟩ | ⟨_, spares⟩
  · refine ⟨written, opens, ?_⟩
    rw [Disk.number, Disk.number, persist, written, holds]
    exact UInt64.le_refl _
  · have untouched := (spares sequence.path).untouched opened
    exact ⟨untouched.readNumber?.trans holds, .of_untouched untouched⟩

/-- Resuming either makes the file hold the next number, or fails and leaves every
    file as it was. -/
theorem resume_cases (disk : Disk) (path : Path) :
    (resume disk path).1 = .ok ⟨following (disk.readNumber? path), path⟩ ∧ (resume disk path).2.Opens path ∧
        (resume disk path).2.readNumber? path = some (following (disk.readNumber? path)) ∨
      (resume disk path).1 = .error (.notWritten path) ∧ ∀ other, Disk.Spares disk (resume disk path).2 other := by
  unfold resume persist
  simp only
  rcases Disk.writeNumber_cases disk path (following (disk.readNumber? path))
    with ⟨done, opens, holds⟩ | ⟨failed, spares⟩
  · rw [done]
    exact .inl ⟨rfl, opens, holds⟩
  · rw [failed]
    exact .inr ⟨rfl, spares⟩

private theorem le_following (last : Option UInt64) : last.getD 0 ≤ following last := by
  rcases rises_following (UInt64.le_refl (last.getD 0)) with above | ⟨earlier, later⟩
  · exact UInt64.le_of_lt above
  · rw [earlier, later]
    exact UInt64.le_refl _

theorem kept_resume {disk : Disk} {path : Path} (opened : disk.Opens path) :
    Kept disk (resume disk path).2 path := by
  rcases resume_cases disk path with ⟨_, opens, holds⟩ | ⟨_, spares⟩
  · refine ⟨opens, ?_⟩
    rw [Disk.number, Disk.number, holds]
    exact le_following _
  · exact .of_untouched ((spares path).untouched opened)

theorem resume_spares {path other : Path} (different : other.place ≠ path.place) (disk : Disk) :
    Disk.Spares disk (resume disk path).2 other :=
  Disk.writeNumber_spares different disk _

end CertificateSequence
end RouteTrust
