import RouteTrust.Certificate.Codec
import RouteTrust.Crypto.Scheme

namespace RouteTrust

/-- A certificate before it is signed; it is valid at all times unless it says
    otherwise. -/
structure CertificateDraft where
  name : Name
  publicKey : PublicKey
  validity : Window := Window.always

namespace CertificateDraft

/-- The draft with a lifetime that starts now. -/
def validFor (draft : CertificateDraft) (now lifetime : Time) : CertificateDraft :=
  { draft with validity := Window.startingAt now lifetime }

/-- The draft with the default lifetime, starting now. -/
def validFrom (draft : CertificateDraft) (now : Time) : CertificateDraft :=
  draft.validFor now defaultLifetime

/-- The draft with the given first and last time. -/
def validWithin (draft : CertificateDraft) (start stop : Time) : CertificateDraft :=
  { draft with validity := ⟨start, stop⟩ }

/-- The certificate of a draft with a blank signature. -/
def unsigned (draft : CertificateDraft) (signer : Name) : Certificate :=
  ⟨draft.name, signer, draft.publicKey, draft.validity, Signature.blank⟩

/-- Signs a draft with a key, and names the signer as its locator. -/
def sign (scheme : SignatureScheme) (draft : CertificateDraft) (issuer : SigningKey) (signer : Name) :
    Certificate :=
  let certificate := draft.unsigned signer
  { certificate with signature := scheme.sign issuer certificate.digest }

def selfSign (scheme : SignatureScheme) (draft : CertificateDraft) (issuer : SigningKey) : Certificate :=
  draft.sign scheme issuer draft.name

end CertificateDraft

def Certificate.verify (scheme : SignatureScheme) (c : Certificate) (key : PublicKey) :
    Except SignatureError Unit :=
  scheme.verify key c.digest c.signature

/-- Decides whether a certificate is certified by a key. -/
abbrev SignatureCheck := Certificate → PublicKey → Bool

/-- The check of a scheme at a time: the certificate is valid then, and the
    signature is good. -/
def SignatureScheme.checkAt (scheme : SignatureScheme) (now : Time) : SignatureCheck := fun c key =>
  c.isValidAt now && (c.verify scheme key).isOk

end RouteTrust
