import RouteTrust.Text.Hex

namespace RouteTrust

/-- Exactly `size` bytes. -/
structure Octets (size : Nat) where
  bytes : List UInt8
  length_eq : bytes.length = size
  deriving DecidableEq

namespace Octets
variable {size : Nat}

theorem ext_bytes {a b : Octets size} (same : a.bytes = b.bytes) : a = b := by
  cases a; cases b; simp_all

/-- The given bytes, if there are exactly `size` of them. -/
def ofList? (size : Nat) (bytes : List UInt8) : Option (Octets size) :=
  if exact : bytes.length = size then some ⟨bytes, exact⟩ else none

/-- The byte at every position. -/
def ofFn (byte : Fin size → UInt8) : Octets size := ⟨List.ofFn byte, List.length_ofFn⟩

/-- The given bytes cut to `size`, or with zero bytes after them up to `size`. -/
def padded (size : Nat) (bytes : List UInt8) : Octets size :=
  ⟨(bytes ++ List.replicate size 0).take size, by simp⟩

def zero (size : Nat) : Octets size := ⟨List.replicate size 0, List.length_replicate⟩

instance : Inhabited (Octets size) := ⟨zero size⟩

/-- Byte strings are ordered by their first difference. -/
instance : Ord (Octets size) := ⟨fun a b => compare a.bytes b.bytes⟩

def toHex (octets : Octets size) : String := Text.hex octets.bytes

@[simp] theorem ofList?_bytes (octets : Octets size) : ofList? size octets.bytes = some octets := by
  simp [ofList?, octets.length_eq]

end Octets

/-- Why a text does not give bytes of the length asked for. -/
inductive OctetsError
  | notHex (reason : Text.HexError)
  | wrongLength (expected actual : Nat)
  deriving DecidableEq, Repr

def OctetsError.message : OctetsError → String
  | .notHex reason => "invalid hex: " ++ reason.message
  | .wrongLength expected actual => s!"expected {expected} bytes, got {actual}"

/-- Reads exactly `size` bytes from hexadecimal text. -/
def Octets.ofHex (size : Nat) (text : String) : Except OctetsError (Octets size) :=
  match Text.unhex text with
  | .error reason => .error (.notHex reason)
  | .ok bytes =>
    match Octets.ofList? size bytes with
    | some octets => .ok octets
    | none => .error (.wrongLength size bytes.length)

/-- A BLAKE3 digest. -/
abbrev Digest := Octets 32

/-- An Ed25519 public key, as its compressed point. -/
abbrev PublicKey := Octets 32

/-- An Ed25519 signature: the commitment point, then the response. -/
abbrev Signature := Octets 64

/-- The signature that stands in for one not made yet. -/
def Signature.blank : Signature := Octets.zero 64

/-- A value under the name of its kind, for diagnostics. -/
def Octets.labelled {size : Nat} (kind : String) (octets : Octets size) : String :=
  kind ++ "(" ++ octets.toHex ++ ")"

end RouteTrust
