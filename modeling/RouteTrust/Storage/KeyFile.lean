import RouteTrust.Crypto.Scheme
import RouteTrust.Storage.Disk

namespace RouteTrust

/-- Why a key cannot be had from a file. -/
inductive KeyFileError
  | unreadable
  | wrongLength (actual : Nat)
  deriving DecidableEq, Repr

def KeyFileError.message : KeyFileError → String
  | .unreadable => "IO error"
  | .wrongLength actual => s!"Invalid key length: expected 32 bytes, got {actual}"

namespace SigningKey

def load (disk : Disk) (path : Path) : Except KeyFileError SigningKey :=
  match disk.read? path with
  | none => .error .unreadable
  | some contents =>
    match Octets.ofList? 32 contents with
    | some seed => .ok ⟨seed⟩
    | none => .error (.wrongLength contents.length)

/-- Writes a key file. The disk is that after the writing or after its failure. -/
def save (key : SigningKey) (disk : Disk) (path : Path) : Except KeyFileError Unit × Disk :=
  (disk.save path key.seed.bytes).orError .unreadable

/-- A key and whether it was made just now. -/
structure Found where
  key : SigningKey
  isNew : Bool
  deriving DecidableEq

/-- Reads a key file if anything stands at its path, and otherwise writes the fresh
    key there. -/
def loadOrCreate (disk : Disk) (path : Path) (fresh : SigningKey) : Except KeyFileError Found × Disk :=
  if disk.contains path then ((load disk path).map fun key => ⟨key, false⟩, disk)
  else
    let (outcome, disk) := fresh.save disk path
    (outcome.map fun () => ⟨fresh, true⟩, disk)

end SigningKey
end RouteTrust
