import RouteTrust.Octets

/-!
What the rest of the library asks of a signature scheme over digests: public
keys, signatures and their check. The trust logic takes the scheme as an
argument and knows nothing else about it.
-/
namespace RouteTrust

/-- The private half of a key pair, as the seed it grows from. -/
structure SigningKey where
  seed : Octets 32
  deriving DecidableEq

/-- Why a signature is refused. -/
inductive SignatureError
  | invalidSignature
  | invalidPublicKey
  deriving DecidableEq, Repr

def SignatureError.message : SignatureError → String
  | .invalidSignature => "invalid Ed25519 signature"
  | .invalidPublicKey => "invalid Ed25519 public key"

/-- A way to sign digests and to check signatures. -/
structure SignatureScheme where
  publicKey : SigningKey → PublicKey
  sign : SigningKey → Digest → Signature
  verify : PublicKey → Digest → Signature → Except SignatureError Unit

/-- The scheme's check as a yes or no. -/
def SignatureScheme.accepts (scheme : SignatureScheme) (key : PublicKey) (digest : Digest)
    (signature : Signature) : Bool :=
  (scheme.verify key digest signature).isOk

/-- The component that stands for a key in certificate names: `ksk-` and the first
    four bytes of the public key. -/
def PublicKey.keyId (key : PublicKey) : String := "ksk-" ++ Text.hex (key.bytes.take 4)

/-- The id of a key's public half under the name of its kind, for diagnostics. -/
def SigningKey.labelled (scheme : SignatureScheme) (key : SigningKey) : String :=
  "SigningIdentity(" ++ PublicKey.keyId (scheme.publicKey key) ++ ")"

end RouteTrust
