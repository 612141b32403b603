import RouteTrust.Crypto.Blake3
import RouteTrust.Crypto.Scheme
import RouteTrust.Name.Uri
import RouteTrust.Wire.Field

namespace RouteTrust

/-- Signed content under a name. -/
structure Advertisement where
  name : Name
  signer : Name
  content : List UInt8
  signature : Signature
  deriving DecidableEq

namespace Advertisement

/-- The bytes that a signature answers for: name, signer and content as tagged fields. -/
def signedBytes (a : Advertisement) : List UInt8 :=
  Wire.textField 1 a.name.uri ++ Wire.textField 2 a.signer.uri ++ Wire.bytesField 3 a.content

def digest (a : Advertisement) : Digest := Crypto.Blake3.hash a.signedBytes

/-- Signs content under a name. -/
def sign (scheme : SignatureScheme) (name : Name) (content : List UInt8) (key : SigningKey)
    (signer : Name) : Advertisement :=
  let draft : Advertisement := ⟨name, signer, content, Signature.blank⟩
  { draft with signature := scheme.sign key draft.digest }

def verify (scheme : SignatureScheme) (a : Advertisement) (key : PublicKey) :
    Except SignatureError Unit :=
  scheme.verify key a.digest a.signature

end Advertisement
end RouteTrust
