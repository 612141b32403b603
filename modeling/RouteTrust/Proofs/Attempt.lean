import RouteTrust.Proofs.Lookup
import RouteTrust.Proofs.Waiting

namespace RouteTrust

/-- A lookup finds an unverified certificate whose signer is stored and verified,
    and the check accepts it under that signer's key. -/
structure Certified (check : SignatureCheck) (store : Store) (lookup : Name) (subject signer : Record) : Prop where
  found : store.find? lookup = some subject
  unverified : subject.verified = false
  signed : store.find? subject.signer = some signer
  trusted : signer.verified = true
  accepted : check subject.certificate signer.certificate.publicKey = true

/-- The outcomes of an attempt, and the store that each of them leaves. -/
inductive Attempted (check : SignatureCheck) (store : Store) (lookup : Name) : Attempt × Store → Prop
  | missing (absent : store.find? lookup = none) : Attempted check store lookup (.missing, store)
  | alreadyVerified {record : Record} (found : store.find? lookup = some record)
      (verified : record.verified = true) : Attempted check store lookup (.alreadyVerified, store)
  | deferred {record : Record} (found : store.find? lookup = some record) (unverified : record.verified = false)
      (untrusted : store.trustedKey? record.signer = none) :
      Attempted check store lookup (.deferred, store.defer record)
  | failed {record signer : Record} (found : store.find? lookup = some record)
      (unverified : record.verified = false) (signed : store.find? record.signer = some signer)
      (trusted : signer.verified = true)
      (refused : check record.certificate signer.certificate.publicKey = false) :
      Attempted check store lookup (.failed, store)
  | verified {subject signer : Record} (certified : Certified check store lookup subject signer) :
      Attempted check store lookup (.verified, store.markVerified lookup)

namespace Store

theorem trustedKey?_eq_some_iff {store : Store} {signer : Name} {key : PublicKey} :
    store.trustedKey? signer = some key ↔
      ∃ record, store.find? signer = some record ∧ record.verified = true ∧
        record.certificate.publicKey = key := by
  unfold trustedKey?
  cases found : store.find? signer with
  | none => simp
  | some record => simp

theorem trustedKey?_eq_none_iff {store : Store} (separated : Separated store.records) {signer : Name} :
    store.trustedKey? signer = none ↔
      ∀ record ∈ store.records, signer.resolvesTo record.name = true → record.verified = false := by
  constructor
  · intro untrusted record member resolves
    rw [Bool.eq_false_iff]
    intro verified
    have found := (find?_eq_some_iff separated).2 ⟨member, resolves⟩
    rw [trustedKey?_eq_some_iff.2 ⟨record, found, verified, rfl⟩] at untrusted
    cases untrusted
  · intro untrusted
    rw [Option.eq_none_iff_forall_not_mem]
    intro key trusted
    obtain ⟨record, found, verified, _⟩ := trustedKey?_eq_some_iff.1 trusted
    obtain ⟨member, resolves⟩ := mem_of_find? found
    rw [untrusted record member resolves] at verified
    cases verified

/-- Every attempt comes to one of the five outcomes. -/
theorem attempted (check : SignatureCheck) (store : Store) (lookup : Name) :
    Attempted check store lookup (store.attempt check lookup) := by
  unfold attempt
  split
  · rename_i absent
    exact .missing absent
  · rename_i record found
    split
    · rename_i verified
      exact .alreadyVerified found verified
    · rename_i notVerified
      have unverified : record.verified = false := Bool.eq_false_iff.2 notVerified
      split
      · rename_i untrusted
        exact .deferred found unverified untrusted
      · rename_i key trustedKey
        obtain ⟨signer, signed, trusted, rfl⟩ := trustedKey?_eq_some_iff.1 trustedKey
        split
        · rename_i accepted
          exact .verified ⟨found, unverified, signed, trusted, accepted⟩
        · rename_i refused
          exact .failed found unverified signed trusted (Bool.eq_false_iff.2 refused)

theorem attempt_of_certified {check : SignatureCheck} {store : Store} {lookup : Name} {subject signer : Record}
    (certified : Certified check store lookup subject signer) :
    store.attempt check lookup = (.verified, store.markVerified lookup) := by
  obtain ⟨found, unverified, signed, trusted, accepted⟩ := certified
  have key := trustedKey?_eq_some_iff.2 ⟨signer, signed, trusted, rfl⟩
  simp [attempt, found, unverified, key, accepted]

/-- An attempt counts as verified exactly if the certificate is certified then. -/
theorem attempt_eq_verified_iff {check : SignatureCheck} {store : Store} {lookup : Name} :
    (store.attempt check lookup).1 = .verified ↔
      ∃ subject signer, Certified check store lookup subject signer := by
  constructor
  · intro outcome
    have cases := attempted check store lookup
    generalize store.attempt check lookup = result at outcome cases
    cases cases with
    | verified certified => exact ⟨_, _, certified⟩
    | _ => cases outcome
  · rintro ⟨subject, signer, certified⟩
    rw [attempt_of_certified certified]

/-! ### What attempts leave as it is -/

theorem map_asVerified_attempt (check : SignatureCheck) (store : Store) (lookup : Name) :
    (store.attempt check lookup).2.records.map Record.asVerified = store.records.map Record.asVerified := by
  have cases := attempted check store lookup
  generalize store.attempt check lookup = result at cases
  cases cases with
  | verified certified => exact map_asVerified_markFirst lookup store.records
  | _ => rfl

/-- Names and their order depend on the records up to trust. -/
theorem separated_of_map_asVerified {records others : List Record}
    (same : records.map Record.asVerified = others.map Record.asVerified) (separated : Separated others) :
    Separated records := by
  have names := congrArg (List.map Record.name) same
  rw [List.map_map, List.map_map] at names
  exact separated_iff.2 (names ▸ separated_iff.1 separated)

theorem separated_attempt {check : SignatureCheck} {store : Store} {lookup : Name}
    (separated : Separated store.records) : Separated (store.attempt check lookup).2.records :=
  separated_of_map_asVerified (map_asVerified_attempt check store lookup) separated

/-- Verified records outlast attempts. -/
theorem mem_attempt_of_verified {check : SignatureCheck} {store : Store} {lookup : Name}
    (separated : Separated store.records) {record : Record} (member : record ∈ store.records)
    (verified : record.verified = true) : record ∈ (store.attempt check lookup).2.records := by
  have cases := attempted check store lookup
  generalize store.attempt check lookup = result at cases
  cases cases with
  | @verified subject signer certified =>
    refine (mem_markVerified separated certified.found).2 (.inr ⟨member, ?_⟩)
    rintro rfl
    rw [certified.unverified] at verified
    cases verified
  | _ => exact member

/-- What an attempt leaves unverified was there before. -/
theorem mem_of_mem_attempt {check : SignatureCheck} {store : Store} {lookup : Name} {record : Record}
    (member : record ∈ (store.attempt check lookup).2.records) (unverified : record.verified = false) :
    record ∈ store.records := by
  have cases := attempted check store lookup
  generalize store.attempt check lookup = result at member cases
  cases cases with
  | verified certified => exact mem_of_mem_markFirst member unverified
  | _ => exact member

/-- Who waits goes on waiting. -/
theorem holds_attempt {check : SignatureCheck} {store : Store} {lookup signer waitee : Name}
    (waits : store.waiting.holds signer waitee = true) :
    (store.attempt check lookup).2.waiting.holds signer waitee = true := by
  have cases := attempted check store lookup
  generalize store.attempt check lookup = result at cases
  cases cases with
  | deferred => exact WaitingList.holds_add.2 (.inl waits)
  | _ => exact waits

theorem holdsFresher_eq_false_iff {store : Store} {name : Name} {seq : UInt64} :
    store.holdsFresher name seq = false ↔
      ∀ record ∈ store.records, record.name.overlaps name = true → record.seq < seq := by
  simp [holdsFresher]

/-- What an insertion answers. -/
theorem answer_insert {check : SignatureCheck} {store : Store} {certificate : Certificate} {seq : UInt64}
    {trusted : Bool} (newer : store.holdsFresher certificate.name seq = false) :
    (store.insert check certificate seq trusted).answer = true := by
  simp only [insert, newer, Bool.false_eq_true, if_false]
  cases trusted with
  | true => rfl
  | false =>
    simp only [Bool.false_eq_true, if_false]
    split
    · rfl
    · rfl

/-! ### One name, one signer at a time -/

@[simp] theorem attemptAll_nil (check : SignatureCheck) (store : Store) : store.attemptAll check [] = (store, []) := rfl

theorem attemptAll_cons (check : SignatureCheck) (store : Store) (waitee : Name) (rest : List Name) :
    store.attemptAll check (waitee :: rest) =
      (((store.attempt check waitee).2.attemptAll check rest).1,
        (if (store.attempt check waitee).1 = .verified then [waitee] else []) ++
          ((store.attempt check waitee).2.attemptAll check rest).2) := by
  rw [attemptAll]
  split
  · rename_i next tried
    simp [tried]
  · rename_i outcome next differs tried
    rw [tried, if_neg differs]
    rfl

@[simp] theorem wakeAll_nil (check : SignatureCheck) (store : Store) : store.wakeAll check [] = (store, []) := rfl

theorem wakeAll_cons (check : SignatureCheck) (store : Store) (signer : Name) (rest : List Name) :
    store.wakeAll check (signer :: rest) =
      (((store.wake check signer).1.wakeAll check rest).1,
        (store.wake check signer).2 ++ ((store.wake check signer).1.wakeAll check rest).2) := rfl

theorem mem_signersOf {store : Store} {name signer : Name} :
    signer ∈ store.signersOf name ↔ signer ∈ store.waiting.signers ∧ signer.resolvesTo name = true := by
  simp [signersOf]

end Store
end RouteTrust
