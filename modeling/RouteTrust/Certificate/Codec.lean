import RouteTrust.Certificate.Basic
import RouteTrust.Certificate.Message
import RouteTrust.Crypto.Blake3
import RouteTrust.Name.Uri
import RouteTrust.Text.Base64

/-!
Certificates as bytes. What is signed is the digest of the encoding with a blank
signature. Decoding looks at the message first, then at the two names, the key
and the signature in this order.
-/
namespace RouteTrust

/-- Why a certificate cannot be had from bytes or from a file. -/
inductive CertificateError
  | unreadable
  | notBase64 (reason : Text.Base64Error)
  | notMessage (reason : MessageError)
  | badName (reason : NameError)
  | publicKeyLength (actual : Nat)
  | signatureLength (actual : Nat)
  deriving DecidableEq, Repr

def CertificateError.message : CertificateError → String
  | .unreadable => "IO error"
  | .notBase64 reason => "Base64 decode error: " ++ reason.message
  | .notMessage reason => "Decode error: " ++ reason.message
  | .badName reason => "Invalid name: " ++ reason.message
  | .publicKeyLength actual => s!"Invalid public key length: expected 32 bytes, got {actual}"
  | .signatureLength actual => s!"Invalid signature length: expected 64 bytes, got {actual}"

namespace Certificate

/-- The fields of a certificate as they travel. -/
def toMessage (c : Certificate) : CertificateMessage :=
  ⟨c.name.uri, c.signer.uri, c.publicKey.bytes, c.validity.start, c.validity.stop, c.signature.bytes⟩

def encode (c : Certificate) : List UInt8 := c.toMessage.encode

/-- The bytes that a signature answers for: the encoding with a blank signature. -/
def signedBytes (c : Certificate) : List UInt8 := encode { c with signature := Signature.blank }

def digest (c : Certificate) : Digest := Crypto.Blake3.hash c.signedBytes

def nameOf (uri : String) : Except CertificateError Name :=
  match Name.ofUri uri with
  | .ok name => .ok name
  | .error reason => .error (.badName reason)

/-- The certificate that a message describes. -/
def ofMessage (m : CertificateMessage) : Except CertificateError Certificate := do
  let name ← nameOf m.name
  let signer ← nameOf m.signer
  match Octets.ofList? 32 m.publicKey with
  | none => .error (.publicKeyLength m.publicKey.length)
  | some publicKey =>
    match Octets.ofList? 64 m.signature with
    | none => .error (.signatureLength m.signature.length)
    | some signature => .ok ⟨name, signer, publicKey, ⟨m.notBefore, m.notAfter⟩, signature⟩

def decode (bytes : List UInt8) : Except CertificateError Certificate :=
  match CertificateMessage.decode bytes with
  | .ok m => ofMessage m
  | .error reason => .error (.notMessage reason)

end Certificate

/-- How a certificate stands in a file. -/
inductive CertificateEncoding
  /-- Base64 text of its bytes. -/
  | base64
  /-- Its bytes. -/
  | binary
  deriving DecidableEq, Repr

instance : Inhabited CertificateEncoding := ⟨.base64⟩

namespace CertificateEncoding

/-- The contents of a file that holds a certificate. -/
def write (c : Certificate) : CertificateEncoding → List UInt8
  | .base64 => Text.Base64.encode c.encode
  | .binary => c.encode

/-- Reads a certificate from the contents of a file. -/
def read (contents : List UInt8) : CertificateEncoding → Except CertificateError Certificate
  | .binary => Certificate.decode contents
  | .base64 =>
    match Text.Base64.decodeLoose contents with
    | .ok bytes => Certificate.decode bytes
    | .error reason => .error (.notBase64 reason)

end CertificateEncoding
end RouteTrust
