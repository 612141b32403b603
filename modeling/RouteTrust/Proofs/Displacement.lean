import RouteTrust.Proofs.Admission
import RouteTrust.Proofs.Contents

/-!
Which verified certificates an arrival displaces. The store looks at names and
numbers before it looks at a signature: a certificate that it takes displaces all
that overlap it, whatever comes of its own verification, and no other verified one
(`mem_insert_iff`). A certificate that nobody signed can so displace every verified
one whose names the policy allows (`find?_insert_refused`).
-/
namespace RouteTrust

namespace Store
variable {check : SignatureCheck} {store : Store} {certificate : Certificate} {seq : UInt64} {trusted : Bool}
  {record : Record}

theorem answer_insert_of_fresher (fresher : store.holdsFresher certificate.name seq = true) :
    store.insert check certificate seq trusted = ⟨false, store, []⟩ := by
  rw [insert, if_pos fresher]

/-- A certificate that is taken stands behind all that it does not overlap, and trust may grow. -/
theorem grown_insert (newer : store.holdsFresher certificate.name seq = false) :
    Grown (store.records.filter (fun record => !record.name.overlaps certificate.name) ++
      [⟨certificate, seq, trusted⟩]) (store.insert check certificate seq trusted).store.records := by
  have run := grown_run (.insert check certificate seq trusted) store
  rw [Operation.leaves, if_neg (Bool.eq_false_iff.1 newer)] at run
  exact run

/-- A verified record stays unless a certificate is taken that overlaps it. -/
theorem mem_insert_iff (member : record ∈ store.records) (verified : record.verified = true) :
    record ∈ (store.insert check certificate seq trusted).store.records ↔
      ¬ ((store.insert check certificate seq trusted).answer = true ∧
        record.name.overlaps certificate.name = true) := by
  cases fresher : store.holdsFresher certificate.name seq with
  | true =>
    rw [answer_insert_of_fresher fresher]
    simp [member]
  | false =>
    have grown : Grown _ (store.insert check certificate seq trusted).store.records := grown_insert fresher
    rw [answer_insert fresher]
    constructor
    · rintro stays ⟨_, overlap⟩
      obtain ⟨old, left, gains⟩ := grown.exists_old stays
      rcases List.mem_append.1 left with other | new
      · have apart : old.name.overlaps certificate.name = false := by simpa using (List.mem_filter.1 other).2
        rw [gains.name_eq, apart] at overlap
        cases overlap
      · rw [List.mem_singleton] at new
        have newer := holdsFresher_eq_false_iff.1 fresher record member overlap
        rw [gains.seq_eq, new] at newer
        exact absurd newer (UInt64.lt_irrefl seq)
    · intro untouched
      have apart : record.name.overlaps certificate.name = false :=
        Bool.eq_false_iff.2 fun overlap => untouched ⟨rfl, overlap⟩
      refine grown.mem_of_verified (List.mem_append_left _ (List.mem_filter.2 ⟨member, ?_⟩)) verified
      rw [apart]
      rfl

/-- A certificate that is taken and refused by every key stands in the store, unverified. -/
theorem find?_insert_refused (separated : Separated store.records)
    (newer : store.holdsFresher certificate.name seq = false)
    (refused : ∀ key, check certificate key = false) :
    (store.insert check certificate seq false).store.find? certificate.name = some ⟨certificate, seq, false⟩ := by
  have found := find?_replace separated certificate seq
  have cases := attempted check (store.replace certificate seq) certificate.name
  simp only [insert, newer, Bool.false_eq_true, if_false]
  generalize (store.replace certificate seq).attempt check certificate.name = result at cases
  cases cases with
  | missing => exact found
  | alreadyVerified => exact found
  | deferred => exact found
  | failed => exact found
  | verified certified =>
    have accepted := certified.accepted
    rw [← Option.some.inj (found.symm.trans certified.found), refused] at accepted
    cases accepted

end Store

namespace Keyring

/-- The policy lets the certificate in, and the store takes it. -/
def takes (keyring : Keyring) (arrival : Arrival) : Bool :=
  match keyring.receive arrival.check arrival.certificate arrival.seq with
  | .ok admission => admission.answer
  | .error _ => false

private theorem takes_of_conforms {keyring : Keyring} {arrival : Arrival}
    (conforms : arrival.conforms keyring.naming = true) :
    keyring.takes arrival = (keyring.store.insert arrival.check arrival.certificate arrival.seq false).answer := by
  rw [takes, receive_of_conforms conforms]
  rfl

private theorem store_receive_of_conforms {keyring : Keyring} {arrival : Arrival}
    (conforms : arrival.conforms keyring.naming = true) :
    (keyring.receiveAll [arrival]).store =
      (keyring.store.insert arrival.check arrival.certificate arrival.seq false).store := by
  rw [receiveAll, receive_of_conforms conforms]
  rfl

/-- An arrival is taken if the policy allows its names and it is newer than all that overlap it. -/
theorem takes_iff {keyring : Keyring} {arrival : Arrival} :
    keyring.takes arrival = true ↔
      keyring.naming.checkSigner arrival.certificate.name arrival.certificate.signer = .ok () ∧
        ∀ record ∈ keyring.store.records, record.name.overlaps arrival.certificate.name = true →
          record.seq < arrival.seq := by
  rw [← Arrival.conforms_iff]
  by_cases conforms : arrival.conforms keyring.naming = true
  · rw [takes_of_conforms conforms, ← Store.holdsFresher_eq_false_iff]
    cases fresher : keyring.store.holdsFresher arrival.certificate.name arrival.seq with
    | true => simp [Store.answer_insert_of_fresher fresher]
    | false => simp [Store.answer_insert fresher, conforms]
  · obtain ⟨violation, refused⟩ := receive_of_not_conforms conforms
    simp [takes, refused, conforms]

/-- A verified record stays unless an arrival is taken that overlaps it. -/
theorem mem_receive_iff {keyring : Keyring} {record : Record} (member : record ∈ keyring.store.records)
    (verified : record.verified = true) (arrival : Arrival) :
    record ∈ (keyring.receiveAll [arrival]).store.records ↔
      ¬ (keyring.takes arrival = true ∧ record.name.overlaps arrival.certificate.name = true) := by
  by_cases conforms : arrival.conforms keyring.naming = true
  · rw [store_receive_of_conforms conforms, takes_of_conforms conforms]
    exact Store.mem_insert_iff member verified
  · obtain ⟨violation, refused⟩ := receive_of_not_conforms conforms
    simp [takes, receiveAll, refused, member]

variable {scheme : SignatureScheme} {check : SignatureCheck} {now : Time} {earlier : List Operation} {owner : Owner}
  {disk : Disk} {directory : Path} {keys : RouterKeys} {seq : UInt64} {keyring : Keyring}

theorem separated_receiveAll
    (started : bootstrap scheme check now (Store.empty.perform earlier) owner disk directory keys seq = .ok keyring)
    (arrivals : List Arrival) : Separated (keyring.receiveAll arrivals).store.records := by
  obtain ⟨_, credentials, process, installed⟩ := store_bootstrap started
  rw [← Store.perform_append] at installed
  have atStart : Separated keyring.store.records := installed ▸ Store.separated_perform _
  rw [store_receiveAll]
  refine Store.replay_induction (motive := fun store => Separated store.records) atStart ?_ _
  intro store action separated
  exact Store.separated_act separated action

/-- What displaces a verified certificate. After any arrivals, one more takes a verified
    record away exactly if it is taken and overlaps the record, whether or not it is
    verified itself. It is taken if the policy allows its names and it is newer than all
    that overlap it. So a certificate of the record's own names, if the policy allows
    them, takes it away under any greater number though every key refuses it. -/
theorem displaced_exactly
    (started : bootstrap scheme check now (Store.empty.perform earlier) owner disk directory keys seq = .ok keyring)
    (arrivals : List Arrival) {record : Record} (member : record ∈ (keyring.receiveAll arrivals).store.records)
    (verified : record.verified = true) :
    (∀ arrival : Arrival, record ∈ (keyring.receiveAll (arrivals ++ [arrival])).store.records ↔
      ¬ ((keyring.receiveAll arrivals).takes arrival = true ∧
        record.name.overlaps arrival.certificate.name = true)) ∧
    (∀ arrival : Arrival, (keyring.receiveAll arrivals).takes arrival = true ↔
      keyring.naming.checkSigner arrival.certificate.name arrival.certificate.signer = .ok () ∧
        ∀ other ∈ (keyring.receiveAll arrivals).store.records,
          other.name.overlaps arrival.certificate.name = true → other.seq < arrival.seq) ∧
    (keyring.naming.checkSigner record.name record.signer = .ok () → ∀ arrival : Arrival,
      arrival.certificate.name = record.name → arrival.certificate.signer = record.signer →
      record.seq < arrival.seq → (∀ key, arrival.check arrival.certificate key = false) →
      record ∉ (keyring.receiveAll (arrivals ++ [arrival])).store.records ∧
        (keyring.receiveAll (arrivals ++ [arrival])).store.find? record.name =
          some ⟨arrival.certificate, arrival.seq, false⟩) := by
  have exactly (arrival : Arrival) : record ∈ (keyring.receiveAll (arrivals ++ [arrival])).store.records ↔
      ¬ ((keyring.receiveAll arrivals).takes arrival = true ∧
        record.name.overlaps arrival.certificate.name = true) := by
    rw [receiveAll_append]
    exact mem_receive_iff member verified arrival
  have taken (arrival : Arrival) : (keyring.receiveAll arrivals).takes arrival = true ↔
      keyring.naming.checkSigner arrival.certificate.name arrival.certificate.signer = .ok () ∧
        ∀ other ∈ (keyring.receiveAll arrivals).store.records,
          other.name.overlaps arrival.certificate.name = true → other.seq < arrival.seq := by
    rw [takes_iff, naming_receiveAll]
  refine ⟨exactly, taken, ?_⟩
  intro allowed arrival sameName sameSigner greater refused
  have separated := separated_receiveAll started arrivals
  have allowedToo : keyring.naming.checkSigner arrival.certificate.name arrival.certificate.signer = .ok () := by
    rw [sameName, sameSigner]
    exact allowed
  have newer : ∀ other ∈ (keyring.receiveAll arrivals).store.records,
      other.name.overlaps arrival.certificate.name = true → other.seq < arrival.seq := by
    intro other stored overlap
    -- No other record overlaps the name of this one.
    rw [separated.unique stored member (sameName ▸ overlap)]
    exact greater
  refine ⟨?_, ?_⟩
  · rw [exactly arrival, not_not, sameName]
    exact ⟨(taken arrival).2 ⟨allowedToo, newer⟩, record.name.overlaps_self⟩
  · have conforms : arrival.conforms (keyring.receiveAll arrivals).naming = true := by
      rw [naming_receiveAll]
      exact Arrival.conforms_iff.2 allowedToo
    rw [receiveAll_append, store_receive_of_conforms conforms, ← sameName]
    exact Store.find?_insert_refused separated (Store.holdsFresher_eq_false_iff.2 newer) refused

/-- A certificate of the site of `pollux` that is not valid yet. -/
def earlySite : Arrival :=
  ⟨sampleScheme.checkAt 0, { sampleCredentials.site with validity := ⟨5, 9⟩ }, 11⟩

theorem displaced_exactly_pollux :
    startPollux = .ok pollux ∧
      ⟨sampleCredentials.root, 10, true⟩ ∈ (pollux.receiveAll [earlySite]).store.records ∧
      ⟨sampleCredentials.site, 10, true⟩ ∉ (pollux.receiveAll [earlySite]).store.records := by
  have started : bootstrap sampleScheme (sampleScheme.checkAt 0) 0 (Store.empty.perform [])
      ⟨.ofList ["ndn"], .ofList ["ndn", "edu"], .ofList ["memphis"], .ofList ["pollux"]⟩
      (sampleDisk ⟨"/certs"⟩) ⟨"/certs"⟩ ⟨⟨Octets.zero 32⟩, ⟨Octets.zero 32⟩⟩ 3 = .ok pollux := startPollux_eq
  refine ⟨started, ?_, ?_⟩
  · have stored : ⟨sampleCredentials.root, 10, true⟩ ∈ (pollux.receiveAll []).store.records := List.mem_cons_self
    refine ((displaced_exactly started [] stored rfl).1 earlySite).2 ?_
    rintro ⟨_, overlap⟩
    revert overlap
    decide +kernel
  · have stored : ⟨sampleCredentials.site, 10, true⟩ ∈ (pollux.receiveAll []).store.records :=
      List.mem_cons_of_mem _ List.mem_cons_self
    refine ((displaced_exactly started [] stored rfl).2.2 (by decide +kernel) earlySite rfl rfl (by decide) ?_).1
    intro key
    rfl

/-- A certificate that is not verified evicts a verified one. -/
theorem trusted_site_evicted :
    ∃ keyring, startPollux = .ok keyring ∧ ⟨sampleCredentials.site, 10, true⟩ ∈ keyring.store.records ∧
      (keyring.receiveAll [earlySite]).store.isVerified earlySite.certificate.name = false ∧
      ∀ record ∈ (keyring.receiveAll [earlySite]).store.records, record.certificate ≠ sampleCredentials.site := by
  refine ⟨pollux, startPollux_eq, ?_⟩
  decide +kernel

end Keyring
end RouteTrust
