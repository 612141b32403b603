import RouteTrust.Advertisement
import RouteTrust.Hierarchy.Policy
import RouteTrust.Keyring.Credentials
import RouteTrust.Keyring.Owner
import RouteTrust.Store.Update

/-!
A router's keyring: the certificates it trusts, and the key of its routing
process with the certificate that its router key issued for it. Certificates
from elsewhere enter the store only past the hierarchy policy.
-/
namespace RouteTrust

/-- The trust state of a router. -/
structure Keyring where
  owner : Owner
  store : Store
  rootCertificate : Name
  siteCertificate : Name
  operatorCertificate : Name
  routerCertificate : Name
  processCertificate : Name
  processKey : SigningKey
  certificateSeq : UInt64
  deriving DecidableEq

/-- The freshness number of the root, site and operator certificates. -/
def bootstrapSeq : UInt64 := 10

/-- The keys of a router: its own one, and a fresh one for its routing process. -/
structure RouterKeys where
  router : SigningKey
  process : SigningKey
  deriving DecidableEq

namespace Keyring

/-- The certificate of the process key, valid from now for the default lifetime. -/
def issueProcess (scheme : SignatureScheme) (now : Time) (owner : Owner) (keys : RouterKeys)
    (routerCertificate : Name) : Certificate :=
  let publicKey := scheme.publicKey keys.process
  let draft : CertificateDraft := { name := owner.processCertificate publicKey, publicKey }
  (draft.validFrom now).sign scheme keys.router routerCertificate

/-- The store with the starting certificates and the process certificate in it, all
    of them trusted. -/
def install (check : SignatureCheck) (store : Store) (credentials : Credentials) (process : Certificate)
    (seq : UInt64) : Store :=
  let add (store : Store) (certificate : Certificate) (seq : UInt64) : Store :=
    (store.insert check certificate seq true).store
  let store := add store credentials.root bootstrapSeq
  let store := add store credentials.site bootstrapSeq
  let store := add store credentials.operator bootstrapSeq
  let store := add store credentials.router seq
  add store process seq

/-- Establishes trust from credentials whose router certificate is for the router's key. -/
def ofCredentials (scheme : SignatureScheme) (check : SignatureCheck) (now : Time) (store : Store)
    (owner : Owner) (credentials : Credentials) (keys : RouterKeys) (seq : UInt64) :
    Except BootstrapError Keyring :=
  if credentials.router.publicKey ≠ scheme.publicKey keys.router then
    .error (.keyMismatch credentials.router.name)
  else
    let process := issueProcess scheme now owner keys credentials.router.name
    .ok
      { owner
        store := install check store credentials process seq
        rootCertificate := credentials.root.name
        siteCertificate := credentials.site.name
        operatorCertificate := credentials.operator.name
        routerCertificate := credentials.router.name
        processCertificate := process.name
        processKey := keys.process
        certificateSeq := seq }

/-- Establishes trust from the certificate files of a directory. -/
def bootstrap (scheme : SignatureScheme) (check : SignatureCheck) (now : Time) (store : Store)
    (owner : Owner) (disk : Disk) (directory : Path) (keys : RouterKeys) (seq : UInt64) :
    Except BootstrapError Keyring := do
  let credentials ← Credentials.load disk directory
  ofCredentials scheme check now store owner credentials keys seq

def naming (keyring : Keyring) : Naming := keyring.owner.naming

/-- What the admission of a certificate answers and leaves behind. -/
structure Admission where
  answer : Bool
  keyring : Keyring
  announced : List Name
  deriving DecidableEq

/-- Admits a certificate from elsewhere if the policy allows its names. The answer
    is whether the store took it. -/
def receive (check : SignatureCheck) (keyring : Keyring) (certificate : Certificate) (seq : UInt64) :
    Except Violation Admission :=
  match keyring.naming.checkSigner certificate.name certificate.signer with
  | .error violation => .error violation
  | .ok () =>
    let update := keyring.store.insert check certificate seq false
    .ok ⟨update.answer, { keyring with store := update.store }, update.announced⟩

/-- An advertisement is good if its signer is stored and verified, both belong to one
    router, and the signature holds. -/
def accepts (scheme : SignatureScheme) (keyring : Keyring) (advertisement : Advertisement) : Bool :=
  match keyring.store.find? advertisement.signer with
  | none => false
  | some signer =>
    signer.verified && keyring.naming.sameRouter advertisement.name signer.name &&
      (advertisement.verify scheme signer.certificate.publicKey).isOk

def sign (scheme : SignatureScheme) (keyring : Keyring) (name : Name) (content : List UInt8) :
    Advertisement :=
  Advertisement.sign scheme name content keyring.processKey keyring.processCertificate

end Keyring
end RouteTrust
