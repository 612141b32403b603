import RouteTrust.Sequence.Counters
import RouteTrust.Storage.Disk
import RouteTrust.Text.Utf8

/-!
Sequence numbers on disk, one decimal number a file. A file that cannot be read
as a number counts as missing. On resuming, the raised numbers are written back
before they are used, so no number is used twice. Each change answers with the disk
after it, also where it fails.
-/
namespace RouteTrust

/-- Why a sequence number was not kept. -/
inductive SequenceError
  | notWritten (path : Path)
  deriving DecidableEq, Repr

def SequenceError.message : SequenceError → String
  | .notWritten path => "failed to write " ++ path.text

namespace Disk

/-- The number in a file: trimmed text of an optional plus sign and digits. -/
def readNumber? (disk : Disk) (path : Path) : Option UInt64 :=
  match (disk.read? path).bind Text.ofUtf8? with
  | some text => Text.decimalValue? (Text.trim text.toList)
  | none => none

def writeNumber (disk : Disk) (path : Path) (number : UInt64) : Except SequenceError Unit × Disk :=
  (disk.save path (Text.utf8 (String.ofList (Text.decimal number)))).orError (.notWritten path)

end Disk

/-- The counters of advertisements and the file that keeps them. -/
structure LsaSequence where
  counters : Counters
  path : Path
  deriving DecidableEq, Repr

namespace LsaSequence

/-- All counters at zero; no file is touched. -/
def new (path : Path) : LsaSequence := ⟨.zero, path⟩

/-- Writes the counters to their file. -/
def persist (sequence : LsaSequence) (disk : Disk) : Except SequenceError Unit × Disk :=
  disk.writeNumber sequence.path sequence.counters.combined

/-- Resumes from a file: its counters raised for a restart and written back. Without
    a readable file all counters are zero and nothing is written. -/
def resume (disk : Disk) (path : Path) : Except SequenceError LsaSequence × Disk :=
  match disk.readNumber? path with
  | none => (.ok (new path), disk)
  | some number =>
    let sequence : LsaSequence := ⟨(Counters.split number).afterRestart, path⟩
    let (outcome, disk) := sequence.persist disk
    (outcome.map fun () => sequence, disk)

end LsaSequence

/-- The number of a router's own certificates and the file that keeps it. -/
structure CertificateSequence where
  seq : UInt64
  path : Path
  deriving DecidableEq, Repr

namespace CertificateSequence

/-- Writes the number to its file. -/
def persist (sequence : CertificateSequence) (disk : Disk) : Except SequenceError Unit × Disk :=
  disk.writeNumber sequence.path sequence.seq

/-- The number after the one in the file, or one without a readable file. It stays at
    the largest number there is. -/
def following : Option UInt64 → UInt64
  | some last => addCapped last 1
  | none => 1

/-- Resumes from a file and writes the new number back. -/
def resume (disk : Disk) (path : Path) : Except SequenceError CertificateSequence × Disk :=
  let sequence : CertificateSequence := ⟨following (disk.readNumber? path), path⟩
  let (outcome, disk) := sequence.persist disk
  (outcome.map fun () => sequence, disk)

end CertificateSequence
end RouteTrust
