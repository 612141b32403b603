import RouteTrust.Proofs.Admission
import RouteTrust.Proofs.Contents

/-!
What a start installs. The starting certificates and the one of the routing process go into
an empty store one after the other, each of them trusted, so nothing ever waits
(`Settled.insert`). A certificate that overlaps none of the others is there in the end,
whatever the numbers are (`mem_certificates_perform`). Of two that overlap the store keeps
one at most, and the start does not tell.
-/
namespace RouteTrust

namespace Store
variable {check : SignatureCheck} {store : Store} {certificate other : Certificate} {seq : UInt64}

def certificates (store : Store) : List Certificate := store.records.map (·.certificate)

/-- A certificate is found by its name, and verified. -/
def Trusts (store : Store) (certificate : Certificate) : Prop :=
  ∃ seq, store.find? certificate.name = some ⟨certificate, seq, true⟩

private theorem cascade_of_idle (idle : store.waiting = .empty) (queue : List Name) :
    store.cascade check queue = (store, queue) := by
  induction queue with
  | nil => rw [cascade_nil]
  | cons name rest ih =>
    have nobody : store.signersOf name = [] := by
      rw [signersOf, idle]
      rfl
    simp only [cascade_cons, nobody, wakeAll_nil, List.append_nil, ih]

/-- Everything in the store is verified, and nothing waits. -/
structure Settled (store : Store) : Prop where
  verified : ∀ record ∈ store.records, record.verified = true
  idle : store.waiting = .empty

private theorem settled_empty : Settled empty := ⟨fun _ member => absurd member List.not_mem_nil, rfl⟩

/-- Where nothing waits, a trusted certificate is refused or put in its place, and that is all. -/
theorem insert_trusted_of_idle (idle : store.waiting = .empty) (check : SignatureCheck) (certificate : Certificate)
    (seq : UInt64) :
    (store.insert check certificate seq true).store =
      if store.holdsFresher certificate.name seq then store else store.act (.place certificate seq true) := by
  have idleToo : ((store.replace certificate seq).markVerified certificate.name).waiting = .empty := idle
  rw [insert]
  split
  · rfl
  · simp only [if_true, spread, cascade_of_idle idleToo, act]

theorem Settled.insert (settled : store.Settled) (check : SignatureCheck) (certificate : Certificate) (seq : UInt64) :
    (store.insert check certificate seq true).store.Settled := by
  rw [insert_trusted_of_idle settled.idle]
  split
  · exact settled
  · refine ⟨?_, settled.idle⟩
    intro record member
    rcases mem_act_place.1 member with ⟨old, _⟩ | rfl
    · exact settled.verified record old
    · rfl

private theorem mem_certificates_act_place :
    other ∈ (store.act (.place certificate seq true)).certificates ↔
      other ∈ store.certificates ∧ other.name.overlaps certificate.name = false ∨ other = certificate := by
  simp only [certificates, List.mem_map, mem_act_place]
  constructor
  · rintro ⟨record, ⟨old, apart⟩ | rfl, rfl⟩
    · exact .inl ⟨⟨record, old, rfl⟩, apart⟩
    · exact .inr rfl
  · rintro (⟨⟨record, old, rfl⟩, apart⟩ | rfl)
    · exact ⟨record, .inl ⟨old, apart⟩, rfl⟩
    · exact ⟨⟨other, seq, true⟩, .inr rfl, rfl⟩

private theorem mem_of_mem_insert (idle : store.waiting = .empty)
    (member : other ∈ (store.insert check certificate seq true).store.certificates) :
    other ∈ store.certificates ∨ other = certificate := by
  rw [insert_trusted_of_idle idle] at member
  split at member
  · exact .inl member
  · exact (mem_certificates_act_place.1 member).imp_left And.left

/-- A certificate that overlaps nothing but itself comes in, and stays. -/
theorem mem_insert_of_alone (idle : store.waiting = .empty)
    (alone : ∀ another ∈ certificate :: store.certificates, another.name.overlaps other.name = true → another = other)
    (present : other ∈ certificate :: store.certificates) :
    other ∈ (store.insert check certificate seq true).store.certificates := by
  rw [insert_trusted_of_idle idle]
  split
  · rename_i fresher
    rcases List.mem_cons.1 present with rfl | old
    · -- the one that is fresher overlaps it, and so is the same certificate
      obtain ⟨record, stored, overlap⟩ := List.any_eq_true.1 fresher
      rw [Bool.and_eq_true] at overlap
      have inStore := List.mem_map_of_mem (f := Record.certificate) stored
      rw [← alone _ (List.mem_cons_of_mem _ inStore) overlap.1]
      exact inStore
    · exact old
  · rw [mem_certificates_act_place]
    rcases List.mem_cons.1 present with rfl | old
    · exact .inr rfl
    · cases overlap : other.name.overlaps certificate.name with
      | false => exact .inl ⟨old, rfl⟩
      | true =>
        rw [Name.overlaps_comm] at overlap
        exact .inr (alone certificate List.mem_cons_self overlap).symm

/-- The calls that put trusted certificates into a store. -/
def trusting (check : SignatureCheck) (items : List (Certificate × UInt64)) : List Operation :=
  items.map fun item => .insert check item.1 item.2 true

theorem Settled.perform (settled : store.Settled) (check : SignatureCheck) (items : List (Certificate × UInt64)) :
    (store.perform (trusting check items)).Settled := by
  induction items generalizing store with
  | nil => exact settled
  | cons item rest ih => exact ih (settled.insert check item.1 item.2)

/-- Of trusted certificates, one that overlaps nothing but itself is there in the end. -/
theorem mem_certificates_perform (settled : store.Settled) {items : List (Certificate × UInt64)}
    (alone : ∀ another, another ∈ store.certificates ∨ another ∈ items.map Prod.fst →
      another.name.overlaps other.name = true → another = other)
    (present : other ∈ store.certificates ∨ other ∈ items.map Prod.fst) :
    other ∈ (store.perform (trusting check items)).certificates := by
  -- over the insertions: what may overlap only itself stays so, as each brings in one of the items
  induction items generalizing store with
  | nil => exact present.resolve_right List.not_mem_nil
  | cons item rest ih =>
    refine ih (settled.insert check item.1 item.2) ?_ ?_
    · rintro another (before | later) overlap
      · rcases mem_of_mem_insert settled.idle before with old | rfl
        · exact alone another (.inl old) overlap
        · exact alone _ (.inr List.mem_cons_self) overlap
      · exact alone another (.inr (List.mem_cons_of_mem _ later)) overlap
    · have aloneNow : ∀ another ∈ item.1 :: store.certificates,
          another.name.overlaps other.name = true → another = other := by
        intro another member
        rcases List.mem_cons.1 member with rfl | old
        · exact alone _ (.inr List.mem_cons_self)
        · exact alone another (.inl old)
      rcases present with old | next
      · exact .inl (mem_insert_of_alone settled.idle aloneNow (List.mem_cons_of_mem _ old))
      · rcases List.mem_cons.1 next with rfl | later
        · exact .inl (mem_insert_of_alone settled.idle aloneNow List.mem_cons_self)
        · exact .inr later

private theorem Settled.trusts (settled : store.Settled) (separated : Separated store.records)
    (member : certificate ∈ store.certificates) : store.Trusts certificate := by
  obtain ⟨record, stored, rfl⟩ := List.mem_map.1 member
  have known := find?_name separated stored
  have verified := settled.verified record stored
  cases record
  cases verified
  exact ⟨_, known⟩

/-- Of two certificates that overlap, one at most is trusted. -/
theorem eq_of_trusts (separated : Separated store.records) (first : store.Trusts certificate)
    (second : store.Trusts other) (overlap : certificate.name.overlaps other.name = true) : certificate = other := by
  obtain ⟨seq, found⟩ := first
  obtain ⟨seqToo, foundToo⟩ := second
  exact congrArg Record.certificate
    (separated.unique (mem_of_find? found).1 (mem_of_find? foundToo).1 overlap)

end Store

/-- The certificates that a start puts into the store, in order. -/
def Credentials.starting (credentials : Credentials) (process : Certificate) : List Certificate :=
  [credentials.root, credentials.site, credentials.operator, credentials.router, process]

namespace Keyring

/-- How a keyring stands after its start from the certificates that it reports. All that it
    stores is one of these and verified, and nothing waits. One that overlaps no other is
    trusted, and of those that overlap one at most, so all of them are trusted exactly if
    no two that differ overlap. -/
structure Installed (keyring : Keyring) (starting : List Certificate) : Prop where
  reported : keyring.bootstrapNames ++ [keyring.processCertificate] = starting.map (·.name)
  idle : keyring.store.waiting = .empty
  verified : ∀ record ∈ keyring.store.records, record.verified = true ∧ record.certificate ∈ starting
  alone : ∀ certificate ∈ starting,
    (∀ other ∈ starting, other.name.overlaps certificate.name = true → other = certificate) →
      keyring.store.Trusts certificate
  single : ∀ certificate other, keyring.store.Trusts certificate → keyring.store.Trusts other →
    other.name.overlaps certificate.name = true → other = certificate
  all_iff : (∀ certificate ∈ starting, keyring.store.Trusts certificate) ↔
    ∀ certificate ∈ starting, ∀ other ∈ starting,
      other.name.overlaps certificate.name = true → other = certificate

private theorem Installed.of_trusting {keyring : Keyring} (check : SignatureCheck) (items : List (Certificate × UInt64))
    (reported : keyring.bootstrapNames ++ [keyring.processCertificate] = (items.map Prod.fst).map (·.name))
    (stored : keyring.store = Store.empty.perform (Store.trusting check items)) :
    keyring.Installed (items.map Prod.fst) := by
  have settled : keyring.store.Settled := stored ▸ Store.settled_empty.perform check items
  have separated : Separated keyring.store.records := stored ▸ Store.separated_perform _
  have trusted : ∀ certificate ∈ items.map Prod.fst,
      (∀ other ∈ items.map Prod.fst, other.name.overlaps certificate.name = true → other = certificate) →
        keyring.store.Trusts certificate := by
    intro certificate member alone
    refine settled.trusts separated ?_
    rw [stored]
    refine Store.mem_certificates_perform Store.settled_empty ?_ (.inr member)
    rintro another (held | given)
    · cases held
    · exact alone another given
  have single : ∀ certificate other, keyring.store.Trusts certificate → keyring.store.Trusts other →
      other.name.overlaps certificate.name = true → other = certificate :=
    fun _ _ first second => Store.eq_of_trusts separated second first
  refine ⟨reported, settled.idle, ?_, trusted, single, ?_⟩
  · intro record member
    refine ⟨settled.verified record member, ?_⟩
    rw [stored] at member
    obtain ⟨_, _, called⟩ := Store.inserted_of_mem_perform member
    obtain ⟨item, listed, call⟩ := List.mem_map.1 called
    rw [← (Operation.insert.inj call).2.1]
    exact List.mem_map_of_mem (f := Prod.fst) listed
  · constructor
    · intro all certificate member other memberToo
      exact single certificate other (all certificate member) (all other memberToo)
    · intro apart certificate member
      exact trusted certificate member (apart certificate member)

variable {scheme : SignatureScheme} {disk : Disk} {directory : Path} {keys : RouterKeys} {credentials : Credentials}

/-- A start reports five certificates. It succeeds with credentials for the router's key, and
    trusts all that it reports exactly if no two of these that differ overlap, whatever the
    numbers are. -/
theorem installed_exactly (check : SignatureCheck) (now : Time) (owner : Owner) (seq : UInt64)
    (loaded : Credentials.load disk directory = .ok credentials)
    (own : credentials.router.publicKey = scheme.publicKey keys.router) :
    ∃ keyring, bootstrap scheme check now .empty owner disk directory keys seq = .ok keyring ∧
      keyring.Installed (credentials.starting (issueProcess scheme now owner keys credentials.router.name)) := by
  simp only [bootstrap, loaded, bind, Except.bind, ofCredentials, own, ne_eq, not_true_eq_false, if_false]
  let process := issueProcess scheme now owner keys credentials.router.name
  let items := [(credentials.root, bootstrapSeq), (credentials.site, bootstrapSeq),
    (credentials.operator, bootstrapSeq), (credentials.router, seq), (process, seq)]
  exact ⟨_, rfl, .of_trusting check items rfl rfl⟩

/-- An operator's certificate whose name begins with that of the site's. -/
def aliceOfSite : Certificate :=
  .sample ["ndn", "edu", "memphis", "KEY", "site", "alice"] ["ndn", "edu", "memphis", "KEY", "site"]

/-- The sample certificates, with that operator's instead. -/
def aliceCredentials : Credentials := { sampleCredentials with operator := aliceOfSite }

/-- The sample disk with that operator's certificate. -/
def aliceDisk : Disk :=
  (aliceOfSite.save (sampleDisk ⟨"/certs"⟩) ((⟨"/certs"⟩ : Path).join operatorFile) .base64).2

/-- A start that reports the certificates of the root, the site and the operator. It trusts the
    root's, but not both of the others. -/
theorem installed_exactly_alice :
    let owner : Owner := ⟨.ofList ["ndn"], .ofList ["ndn", "edu"], .ofList ["memphis"], .ofList ["pollux"]⟩
    let keys : RouterKeys := ⟨⟨Octets.zero 32⟩, ⟨Octets.zero 32⟩⟩
    let starting := aliceCredentials.starting (issueProcess sampleScheme 0 owner keys aliceCredentials.router.name)
    ∃ keyring, bootstrap sampleScheme (sampleScheme.checkAt 0) 0 .empty owner aliceDisk ⟨"/certs"⟩ keys 3 =
        .ok keyring ∧
      keyring.bootstrapNames ++ [keyring.processCertificate] = starting.map (·.name) ∧
      keyring.store.Trusts aliceCredentials.root ∧
      ¬ (keyring.store.Trusts aliceCredentials.site ∧ keyring.store.Trusts aliceCredentials.operator) := by
  intro owner keys starting
  have loaded : Credentials.load aliceDisk ⟨"/certs"⟩ = .ok aliceCredentials := by decide +kernel
  have own : aliceCredentials.router.publicKey = sampleScheme.publicKey keys.router := by decide +kernel
  obtain ⟨keyring, started, installed⟩ := installed_exactly (sampleScheme.checkAt 0) 0 owner 3 loaded own
  refine ⟨keyring, started, installed.reported, installed.alone _ List.mem_cons_self (by decide +kernel), ?_⟩
  rintro ⟨site, operator⟩
  have same := installed.single _ _ site operator (by decide +kernel)
  exact absurd same (by decide +kernel)

end Keyring
end RouteTrust
