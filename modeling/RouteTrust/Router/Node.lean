import RouteTrust.Keyring.Basic
import RouteTrust.Router.Config
import RouteTrust.Sequence.File
import RouteTrust.Storage.KeyFile

/-!
A running router. Starting it resumes both sequence files, finds or makes the
router's key and establishes trust; what was written before a failure stays.
An advertisement leaves only after its sequence number is on disk.
-/
namespace RouteTrust

/-- Why a router cannot start or go on. -/
inductive NodeError
  | storage
  | config (reason : ConfigError)
  | identity (reason : KeyFileError)
  | bootstrap (reason : BootstrapError)
  | sequence (reason : SequenceError)
  deriving DecidableEq

def NodeError.message : NodeError → String
  | .storage => "IO error"
  | .config reason => reason.message
  | .identity reason => "Identity error: " ++ reason.message
  | .bootstrap reason => "Bootstrap error: " ++ reason.message
  | .sequence reason => "Sequence error: " ++ reason.message

/-- A running router. -/
structure Node where
  config : Config
  keyring : Keyring
  sequence : LsaSequence
  certificateSequence : CertificateSequence
  deriving DecidableEq

/-- What a start needs besides the files: the time, a key for a router that has none
    yet, and a key for its routing process. -/
structure Surroundings where
  now : Time
  freshRouterKey : SigningKey
  processKey : SigningKey
  deriving DecidableEq

namespace Node

/-- Starts a router. The disk is that after the start or after its failure. -/
def start (scheme : SignatureScheme) (surroundings : Surroundings) (config : Config)
    (directory : DataDirectory) (disk : Disk) : Except NodeError Node × Disk :=
  match (disk.createDirectory directory.base).orError NodeError.storage with
  | (.error reason, disk) => (.error reason, disk)
  | (.ok (), disk) =>
  match LsaSequence.resume disk (config.lsaSequenceIn directory) with
  | (.error reason, disk) => (.error (.sequence reason), disk)
  | (.ok sequence, disk) =>
  match CertificateSequence.resume disk (config.certificateSequenceIn directory) with
  | (.error reason, disk) => (.error (.sequence reason), disk)
  | (.ok certificateSequence, disk) =>
  match SigningKey.loadOrCreate disk directory.routerKey surroundings.freshRouterKey with
  | (.error reason, disk) => (.error (.identity reason), disk)
  | (.ok found, disk) =>
  match Keyring.bootstrap scheme (scheme.checkAt surroundings.now) surroundings.now .empty config.owner
      disk (config.certificatesIn directory) ⟨found.key, surroundings.processKey⟩
      certificateSequence.seq with
  | .error reason => (.error (.bootstrap reason), disk)
  | .ok keyring => (.ok ⟨config, keyring, sequence, certificateSequence⟩, disk)

/-- The name of an advertisement: network, `NLSR`, `LSA`, router name, kind, sequence
    number, and segment zero. -/
def lsaName (node : Node) (kind : LsaKind) (seq : UInt64) : Name :=
  (((((node.config.owner.network.push "NLSR").push lsaMarker ++ node.keyring.owner.routerName).push
    kind.label).push (String.ofList (Text.decimal seq))).push "0")

/-- What an advertisement leaves behind: the packet or the reason for none, the
    router with its counter raised, and the disk. -/
structure Advertised where
  packet : Except NodeError Advertisement
  node : Node
  disk : Disk

/-- Raises the counter of a kind, writes the counters to disk and then signs the
    content. Where writing fails the counter stays raised. -/
def advertise (scheme : SignatureScheme) (node : Node) (disk : Disk) (kind : LsaKind)
    (content : List UInt8) : Advertised :=
  let counters := node.sequence.counters.increment kind
  let next : Node := { node with sequence := { node.sequence with counters } }
  match next.sequence.persist disk with
  | (.error reason, disk) => ⟨.error (.sequence reason), next, disk⟩
  | (.ok (), disk) => ⟨.ok (next.keyring.sign scheme (next.lsaName kind (counters.get kind)) content), next, disk⟩

/-- Admits a certificate from a neighbour at the given time. -/
def receiveCertificate (scheme : SignatureScheme) (now : Time) (node : Node) (certificate : Certificate)
    (seq : UInt64) : Except Violation (Keyring.Admission × Node) :=
  (node.keyring.receive (scheme.checkAt now) certificate seq).map fun admission =>
    (admission, { node with keyring := admission.keyring })

/-- An advertisement from a neighbour is good. -/
def receiveAdvertisement (scheme : SignatureScheme) (node : Node) (advertisement : Advertisement) : Bool :=
  node.keyring.accepts scheme advertisement

/-- Writes both sequence files, the counters first. The disk is that after both
    writes or after the first that fails. -/
def shutdown (node : Node) (disk : Disk) : Except NodeError Unit × Disk :=
  match node.sequence.persist disk with
  | (.error reason, disk) => (.error (.sequence reason), disk)
  | (.ok (), disk) =>
  match node.certificateSequence.persist disk with
  | (.error reason, disk) => (.error (.sequence reason), disk)
  | (.ok (), disk) => (.ok (), disk)

end Node
end RouteTrust
