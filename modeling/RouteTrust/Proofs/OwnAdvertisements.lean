import RouteTrust.Proofs.Admission
import RouteTrust.Proofs.ComposedNames
import RouteTrust.Proofs.Contents
import RouteTrust.Proofs.InStep

/-!
A router and its own advertisements. At a start the certificate of the routing process
comes last into the store and is trusted, so under a name apart from those of the
starting certificates it is found by its name (`Keyring.exists_equipped`); it belongs to the same
router as all that its key signs. So a router finds every advertisement good that it
gave out itself (`accepts_own`).
-/
namespace RouteTrust

/-- A signature made with a key is good for the key and the digest it was made for. -/
def SignatureScheme.Sound (scheme : SignatureScheme) : Prop :=
  ∀ key digest, scheme.verify (scheme.publicKey key) digest (scheme.sign key digest) = .ok ()

namespace Store

/-- A trusted certificate that comes last is found by its name if it overlaps nothing. -/
theorem find?_perform_trusted {operations : List Operation} {check : SignatureCheck} {certificate : Certificate}
    (apart : ∀ record ∈ (empty.perform operations).records, record.name.overlaps certificate.name = false)
    (seq : UInt64) :
    (empty.perform (operations ++ [.insert check certificate seq true])).find? certificate.name =
      some ⟨certificate, seq, true⟩ := by
  have separated := separated_perform (operations ++ [.insert check certificate seq true])
  have fresh : (empty.perform operations).holdsFresher certificate.name seq = false :=
    holdsFresher_eq_false_iff.2 fun record member overlap => by
      rw [apart record member] at overlap
      cases overlap
  have grown := grown_run (.insert check certificate seq true) (empty.perform operations)
  rw [Operation.leaves, if_neg (Bool.eq_false_iff.1 fresh)] at grown
  have member : (⟨certificate, seq, true⟩ : Record) ∈
      (empty.perform (operations ++ [.insert check certificate seq true])).records := by
    rw [perform_append]
    exact grown.mem_of_verified (List.mem_append_right _ List.mem_cons_self) rfl
  exact find?_name separated member

end Store

namespace Keyring

variable {scheme : SignatureScheme} {check : SignatureCheck} {now : Time} {held : Store} {owner : Owner}
  {disk : Disk} {directory : Path} {keys : RouterKeys} {seq : UInt64} {keyring : Keyring}

/-- The certificate of the process key is there under its name, trusted. -/
structure Equipped (scheme : SignatureScheme) (keyring : Keyring) (record : Record) : Prop where
  found : keyring.store.find? keyring.processCertificate = some record
  verified : record.verified = true
  publicKey : record.certificate.publicKey = scheme.publicKey keyring.processKey
  named : record.name = keyring.owner.processCertificate (scheme.publicKey keyring.processKey)

theorem exists_equipped
    (started : bootstrap scheme check now .empty owner disk directory keys seq = .ok keyring)
    (apart : ∀ name ∈ keyring.bootstrapNames, name.overlaps keyring.processCertificate = false) :
    ∃ record, keyring.Equipped scheme record := by
  obtain ⟨credentials, process, issued, same, key, named, names, stored⟩ := exists_credentials_of_bootstrap started
  rw [names, named] at apart
  have outside : ∀ record ∈ (Store.empty.perform (installations check credentials process seq).dropLast).records,
      record.name.overlaps process.name = false := by
    intro record member
    obtain ⟨_, _, called⟩ := Store.inserted_of_mem_perform member
    have isStarting :
        record.certificate ∈ [credentials.root, credentials.site, credentials.operator, credentials.router] := by
      simp only [installations, List.dropLast, List.mem_cons, Operation.insert.injEq, List.not_mem_nil, or_false]
        at called ⊢
      exact called.imp (·.2.1) (.imp (·.2.1) (.imp (·.2.1) (·.2.1)))
    exact apart record.certificate.name (List.mem_map_of_mem isStarting)
  -- the process certificate comes last, so nothing takes it away again
  have last : installations check credentials process seq =
      (installations check credentials process seq).dropLast ++ [.insert check process seq true] := rfl
  refine ⟨⟨process, seq, true⟩, ⟨?_, rfl, ?_, ?_⟩⟩
  · rw [stored, named, last]
    exact Store.find?_perform_trusted outside seq
  · rw [issued, key]
    rfl
  · rw [same, key, Record.name, issued]
    rfl

/-- A keyring that has its process certificate finds good what its key signs, if the
    name belongs to the same router. -/
theorem accepts_sign (sound : scheme.Sound) {record : Record} (equipped : keyring.Equipped scheme record)
    {name router : Name} (subject : keyring.naming.routerOf? name = some router)
    (signer : keyring.naming.routerOf? record.name = some router) (content : List UInt8) :
    keyring.accepts scheme (keyring.sign scheme name content) = true := by
  have found : keyring.store.find? (keyring.sign scheme name content).signer = some record := equipped.found
  have verifies : (keyring.sign scheme name content).verify scheme record.certificate.publicKey = .ok () := by
    rw [equipped.publicKey]
    exact sound keyring.processKey _
  have together : keyring.naming.sameRouter (keyring.sign scheme name content).name record.name = true := by
    have named : (keyring.sign scheme name content).name = name := rfl
    rw [named, Naming.sameRouter, subject, signer]
    simp
  rw [accepts, found]
  simp only [equipped.verified, together, verifies, Except.isOk, Except.toBool, Bool.and_self]

end Keyring

namespace Node

/-- Advertisements one after the other, each with the disk that it finds: what came of
    them, and the router after them. -/
def advertiseAll (scheme : SignatureScheme) (node : Node) :
    List (Disk × LsaKind × List UInt8) → List (Except NodeError Advertisement) × Node
  | [] => ([], node)
  | (disk, kind, content) :: rest =>
    let advertised := node.advertise scheme disk kind content
    let (outcomes, last) := advertised.node.advertiseAll scheme rest
    (advertised.packet :: outcomes, last)

variable {scheme : SignatureScheme} {surroundings : Surroundings} {config : Config} {directory : DataDirectory}
  {disk : Disk} {node : Node}

private theorem bootstrap_of_start (started : (start scheme surroundings config directory disk).1 = .ok node) :
    node.config = config ∧ ∃ files key, Keyring.bootstrap scheme (scheme.checkAt surroundings.now) surroundings.now
      .empty config.owner files (config.certificatesIn directory) ⟨key, surroundings.processKey⟩
      node.certificateSequence.seq = .ok node.keyring := by
  rw [start_eq] at started
  rcases resumed : resume config directory disk with ⟨_ | ⟨sequence, certificateSequence⟩, after⟩
  · rw [resumed] at started
    cases started
  · rw [resumed] at started
    obtain ⟨same, _, rfl, trusted⟩ := of_establish_eq_ok started
    exact ⟨same, trusted⟩

/-- Advertising changes neither the trust of a router nor its configuration. -/
theorem keyring_advertise (scheme : SignatureScheme) (node : Node) (disk : Disk) (kind : LsaKind)
    (content : List UInt8) :
    (node.advertise scheme disk kind content).node.keyring = node.keyring ∧
      (node.advertise scheme disk kind content).node.config = node.config := by
  rw [advertise_eq]
  exact ⟨rfl, rfl⟩

private theorem keyring_advertiseAll (node : Node) (calls : List (Disk × LsaKind × List UInt8)) :
    (node.advertiseAll scheme calls).2.keyring = node.keyring := by
  induction calls generalizing node with
  | nil => rfl
  | cons call rest ih =>
    obtain ⟨disk, kind, content⟩ := call
    exact (ih _).trans (node.keyring_advertise scheme disk kind content).1

/-- Whatever comes of an advertisement, it is signed by the router's keyring under a
    name of the router. -/
theorem exists_sign_of_mem_advertiseAll {calls : List (Disk × LsaKind × List UInt8)} {packet : Advertisement}
    (given : .ok packet ∈ (node.advertiseAll scheme calls).1) :
    ∃ kind number content, packet = node.keyring.sign scheme (node.lsaName kind number) content := by
  induction calls generalizing node with
  | nil => cases given
  | cons call rest ih =>
    obtain ⟨disk, kind, content⟩ := call
    rcases List.mem_cons.1 given with here | later
    · rw [advertise_eq] at here
      simp only at here
      split at here
      · cases here
        exact ⟨kind, _, content, rfl⟩
      · cases here
    · obtain ⟨kindToo, number, contentToo, made⟩ := ih later
      obtain ⟨same, sameToo⟩ := node.keyring_advertise scheme disk kind content
      refine ⟨kindToo, number, contentToo, ?_⟩
      rw [made, lsaName, lsaName, same, sameToo]

/-- A router accepts its own advertisements. Whatever they say and whatever disks they
    find, those that were given out are good for the router that gave them out, then and
    after any number of others. -/
theorem accepts_own (sound : scheme.Sound)
    (started : (start scheme surroundings config directory disk).1 = .ok node) (unmarked : config.owner.Unmarked)
    (apart : ∀ name ∈ node.keyring.bootstrapNames, name.overlaps node.keyring.processCertificate = false)
    (calls : List (Disk × LsaKind × List UInt8)) {packet : Advertisement}
    (given : .ok packet ∈ (node.advertiseAll scheme calls).1) :
    (node.advertiseAll scheme calls).2.receiveAdvertisement scheme packet = true := by
  obtain ⟨kind, number, content, rfl⟩ := exists_sign_of_mem_advertiseAll given
  obtain ⟨sameConfig, files, key, trusted⟩ := bootstrap_of_start started
  obtain ⟨record, equipped⟩ := Keyring.exists_equipped trusted apart
  obtain ⟨sameOwner, _⟩ := Keyring.store_bootstrap trusted
  have owned : node.keyring.owner = node.config.owner := by rw [sameOwner, sameConfig]
  rw [receiveAdvertisement, keyring_advertiseAll]
  have clear : node.config.owner.Unmarked := sameConfig ▸ unmarked
  refine Keyring.accepts_sign sound equipped (routerOf?_lsaName owned clear kind number _) ?_ content
  rw [equipped.named]
  exact Owner.routerOf?_processCertificate (owned ▸ clear) _

/-- A scheme whose signatures repeat the digest and the key. -/
def repeatingScheme : SignatureScheme where
  publicKey key := key.seed
  sign key digest :=
    ⟨digest.bytes ++ key.seed.bytes, by rw [List.length_append, digest.length_eq, key.seed.length_eq]⟩
  verify key digest signature :=
    if signature.bytes = digest.bytes ++ key.bytes then .ok () else .error .invalidSignature

private theorem sound_repeatingScheme : repeatingScheme.Sound := fun _ _ => if_pos rfl

theorem accepts_own_pollux :
    ∃ node packet, (start repeatingScheme ⟨0, ⟨Octets.zero 32⟩, ⟨Octets.zero 32⟩⟩ .pollux ⟨⟨"/data"⟩⟩
        (Keyring.sampleDisk ⟨"/certs"⟩)).1 = .ok node ∧
      Config.pollux.owner.Unmarked ∧
      (∀ name ∈ node.keyring.bootstrapNames, name.overlaps node.keyring.processCertificate = false) ∧
      .ok packet ∈ (node.advertiseAll repeatingScheme [(.empty, .name, []), (.empty, .adjacency, [1, 2])]).1 ∧
      (node.advertiseAll repeatingScheme [(.empty, .name, []), (.empty, .adjacency, [1, 2])]).2.receiveAdvertisement
        repeatingScheme packet = true := by
  have facts : ((start repeatingScheme ⟨0, ⟨Octets.zero 32⟩, ⟨Octets.zero 32⟩⟩ .pollux ⟨⟨"/data"⟩⟩
      (Keyring.sampleDisk ⟨"/certs"⟩)).1.map fun node => decide (
        (∀ name ∈ node.keyring.bootstrapNames, name.overlaps node.keyring.processCertificate = false) ∧
        (node.advertise repeatingScheme .empty .name []).packet.isOk = true)) = .ok true := by
    decide +kernel
  have unmarked : Config.pollux.owner.Unmarked := by decide
  cases started : (start repeatingScheme ⟨0, ⟨Octets.zero 32⟩, ⟨Octets.zero 32⟩⟩ .pollux ⟨⟨"/data"⟩⟩
      (Keyring.sampleDisk ⟨"/certs"⟩)).1 with
  | error reason =>
    rw [started] at facts
    cases facts
  | ok node =>
    rw [started] at facts
    obtain ⟨apart, written⟩ := of_decide_eq_true (Except.ok.inj facts)
    cases first : (node.advertise repeatingScheme .empty .name []).packet with
    | error reason =>
      rw [first] at written
      cases written
    | ok packet =>
      have given : .ok packet ∈
          (node.advertiseAll repeatingScheme [(.empty, .name, []), (.empty, .adjacency, [1, 2])]).1 :=
        List.mem_cons.2 (.inl first.symm)
      exact ⟨node, packet, rfl, unmarked, apart, given, accepts_own sound_repeatingScheme started unmarked apart _ given⟩

end Node
end RouteTrust
