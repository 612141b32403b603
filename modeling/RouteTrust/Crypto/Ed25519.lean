import RouteTrust.Crypto.Edwards
import RouteTrust.Crypto.Scheme
import RouteTrust.Crypto.Sha512

/-!
Ed25519 signatures over digests. Checking is strict: the response must be
reduced, neither the key nor the commitment may have an order that divides eight,
and the recomputed commitment must equal the given one byte for byte.
-/
namespace RouteTrust.Crypto.Ed25519
open Edwards

/-- The secret scalar and the nonce source that a seed expands to. -/
structure Expanded where
  scalar : Nat
  nonceSource : List UInt8

/-- The number with its lowest three bits cleared, bit 254 set and none above it. -/
def clamp (number : Nat) : Nat := number % (1 <<< 254) / 8 * 8 + (1 <<< 254)

def expand (key : SigningKey) : Expanded :=
  let digest := Sha512.hash key.seed.bytes
  ⟨clamp (littleEndian (digest.take 32)), digest.drop 32⟩

/-- A SHA-512 digest as a scalar. -/
def scalarOf (message : List UInt8) : Nat := littleEndian (Sha512.hash message) % groupOrder

def publicKey (key : SigningKey) : PublicKey := (Point.baseMultiple (expand key).scalar).compress

def sign (key : SigningKey) (digest : Digest) : Signature :=
  let secret := expand key
  let nonce := scalarOf (secret.nonceSource ++ digest.bytes)
  let commitment := (Point.baseMultiple nonce).compress
  let challenge := scalarOf (commitment.bytes ++ (publicKey key).bytes ++ digest.bytes)
  let response := (nonce + challenge * secret.scalar) % groupOrder
  ⟨commitment.bytes ++ toLittleEndian 32 response, by
    rw [List.length_append, commitment.length_eq, length_toLittleEndian]⟩

/-- The first half of a signature. -/
def commitmentOf (signature : Signature) : Octets 32 :=
  ⟨signature.bytes.take 32, by rw [List.length_take, signature.length_eq]; rfl⟩

/-- The second half of a signature, as a number. -/
def responseOf (signature : Signature) : Nat := littleEndian (signature.bytes.drop 32)

def keyPoint (key : PublicKey) : Except SignatureError Point :=
  match decompress? key with
  | some point => .ok point
  | none => .error .invalidPublicKey

/-- The strict conditions on a signature by the key at a point. -/
def holds (key : PublicKey) (keyPoint : Point) (digest : Digest) (signature : Signature) : Bool :=
  let commitment := commitmentOf signature
  let response := responseOf signature
  match decompress? commitment with
  | none => false
  | some point =>
    let challenge := scalarOf (commitment.bytes ++ key.bytes ++ digest.bytes)
    decide (response < groupOrder) && !point.isSmallOrder && !keyPoint.isSmallOrder &&
      decide ((Point.baseMultiple response + (-keyPoint).multiple challenge).compress = commitment)

/-- Checks a signature over a digest. The key is looked at first. -/
def verify (key : PublicKey) (digest : Digest) (signature : Signature) : Except SignatureError Unit := do
  let point ← keyPoint key
  if holds key point digest signature then .ok () else .error .invalidSignature

/-- Ed25519 as a signature scheme. -/
def scheme : SignatureScheme := ⟨publicKey, sign, verify⟩

end RouteTrust.Crypto.Ed25519
