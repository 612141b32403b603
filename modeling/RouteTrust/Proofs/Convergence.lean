import RouteTrust.Proofs.Accounting
import RouteTrust.Proofs.Grounding
import RouteTrust.Proofs.Stranding

/-!
Order does not matter. Certificates whose names lie apart leave one store behind,
up to the order of its records and entries, in whatever order they are inserted
(`inserted_in_any_order`): exactly the least set of certificates that is closed
under accepted signatures becomes verified, and each of its names is announced
once.
-/
namespace RouteTrust

/-- A certificate to be inserted. -/
structure Candidate where
  certificate : Certificate
  seq : UInt64
  trusted : Bool
  deriving DecidableEq

def Candidate.name (candidate : Candidate) : Name := candidate.certificate.name

/-- The calls that insert candidates in order under one check. -/
def insertions (check : SignatureCheck) (items : List Candidate) : List Operation :=
  items.map fun candidate => .insert check candidate.certificate candidate.seq candidate.trusted

/-- The least set of certificates with the trusted ones and all that one of its
    members certifies. -/
inductive Proven (check : SignatureCheck) (items : List Candidate) : Certificate → Prop
  | trusted {candidate : Candidate} (member : candidate ∈ items) (given : candidate.trusted = true) :
      Proven check items candidate.certificate
  | signed {candidate : Candidate} {signer : Certificate} (member : candidate ∈ items)
      (proven : Proven check items signer)
      (resolves : candidate.certificate.signer.resolvesTo signer.name = true)
      (accepted : check candidate.certificate signer.publicKey = true) :
      Proven check items candidate.certificate

/-- The state of a store after all items: what is stored and verified, who waits for
    whom, and what was announced. -/
structure Converged (check : SignatureCheck) (items : List Candidate) (store : Store) (heard : List Name) :
    Prop where
  contents : (store.records.map fun record => (record.certificate, record.seq)).Perm
    (items.map fun candidate => (candidate.certificate, candidate.seq))
  verified : ∀ record ∈ store.records, record.verified = true ↔ Proven check items record.certificate
  sound : store.waiting.Sound
  waits : ∀ signer waitee, store.waiting.holds signer waitee = true ↔
    ∃ candidate ∈ items, candidate.certificate.signer = signer ∧ candidate.name = waitee ∧
      ¬ Proven check items candidate.certificate ∧
      ∀ other, Proven check items other → signer.resolvesTo other.name = false
  once : heard.Nodup
  announced : ∀ name, name ∈ heard ↔ ∃ certificate, Proven check items certificate ∧ certificate.name = name

section
variable {check : SignatureCheck} {items : List Candidate}

theorem Proven.mono {others : List Candidate} {certificate : Certificate}
    (proven : Proven check items certificate) (reaches : items ⊆ others) : Proven check others certificate := by
  induction proven with
  | trusted member given => exact .trusted (reaches member) given
  | signed member _ resolves accepted ih => exact .signed (reaches member) ih resolves accepted

private theorem Proven.inversion {certificate : Certificate} (proven : Proven check items certificate) :
    (∃ candidate ∈ items, candidate.trusted = true ∧ candidate.certificate = certificate) ∨
      ∃ signer, Proven check items signer ∧ certificate.signer.resolvesTo signer.name = true := by
  cases proven with
  | trusted member given => exact .inl ⟨_, member, given, rfl⟩
  | signed _ signer resolves _ => exact .inr ⟨_, signer, resolves⟩

private theorem candidate_of_insert {other : SignatureCheck} {certificate : Certificate} {seq : UInt64} {trusted : Bool}
    (called : .insert other certificate seq trusted ∈ insertions check items) :
    ⟨certificate, seq, trusted⟩ ∈ items := by
  obtain ⟨candidate, member, same⟩ := List.mem_map.1 called
  cases same
  exact member

private theorem candidate_of_place {certificate : Certificate} {seq : UInt64} {trusted : Bool}
    (placed : .place certificate seq trusted ∈ Store.empty.trace (insertions check items)) :
    ⟨certificate, seq, trusted⟩ ∈ items := by
  obtain ⟨operation, called, prompts⟩ := Store.prompts_of_mem_trace placed
  obtain ⟨_, rfl⟩ := eq_insert_of_prompts prompts
  exact candidate_of_insert called

/-! ### What is verified is proven -/

private theorem proven_of_grounded {past : List Action} {record : Record} (grounded : Grounded past record)
    (within : past ⊆ Store.empty.trace (insertions check items)) : Proven check items record.certificate := by
  induction grounded with
  | trusted event =>
    have candidate := candidate_of_place (within event.action_mem)
    cases event.verifies
    exact .trusted candidate rfl
  | endorsed event =>
    obtain ⟨operation, called, prompts⟩ := Store.prompts_of_mem_trace (within event.action_mem)
    obtain ⟨candidate, _, same⟩ := List.mem_map.1 called
    subst same
    cases prompts
  | checked event certified _ ih =>
    have earlier := event.before_subset
    obtain ⟨operation, called, prompts⟩ := Store.prompts_of_mem_trace (within event.action_mem)
    obtain ⟨candidate, _, same⟩ := List.mem_map.1 called
    subst same
    cases prompts
    obtain ⟨_, placed⟩ := Store.placed_of_mem (Store.mem_of_find? certified.found).1
    have proven := ih fun _ member => within (earlier member)
    exact .signed (candidate_of_place (within (earlier placed))) proven (Store.mem_of_find? certified.signed).2
      certified.accepted

/-! ### All items at once -/

/-- Some item has the name. -/
def Names (items : List Candidate) (name : Name) : Prop := ∃ candidate ∈ items, candidate.name = name

/-- The names of no two items overlap. -/
def Apart (items : List Candidate) : Prop :=
  items.Pairwise fun a b => a.name.overlaps b.name = false

private theorem names_of_placed {name : Name} (placed : Placed (Store.empty.trace (insertions check items)) name) :
    Names items name := by
  obtain ⟨certificate, seq, trusted, member, rfl⟩ := placed
  exact ⟨_, candidate_of_place member, rfl⟩

/-- The last item is new to the store that the others lead to. -/
theorem fresh_of_apart {candidate : Candidate} (apart : Apart (items ++ [candidate])) (name : Name)
    (placed : Placed (Store.empty.trace (insertions check items)) name) : name.overlaps candidate.name = false := by
  obtain ⟨other, member, rfl⟩ := names_of_placed placed
  exact (List.pairwise_append.1 apart).2.2 other member candidate List.mem_cons_self

private theorem insertions_concat (candidate : Candidate) :
    insertions check (items ++ [candidate]) =
      insertions check items ++ [.insert check candidate.certificate candidate.seq candidate.trusted] := by
  rw [insertions, List.map_append]
  rfl

private theorem accounted_insertions (apart : Apart items) :
    Accounted check (.start (Store.empty.perform (insertions check items))
      (Store.empty.trace (insertions check items)) (Store.empty.heard (insertions check items)) []) := by
  induction items using List.reverseRecOn with
  | nil =>
    refine ⟨Traced.empty [] [], ?_, ?_, ?_, ?_⟩
    · rintro a b ⟨_, _, _, member, _⟩
      cases member
    · rintro signer (present | later)
      · cases present
      · cases later
    · intro record member
      cases member
    · exact List.Perm.refl []
  | append_singleton items candidate ih =>
    have held := ih (List.pairwise_append.1 apart).1
    have inserted := held.insert candidate.certificate candidate.seq candidate.trusted (fresh_of_apart apart)
    rw [insertions_concat, Store.perform_append, Store.trace_append, Store.heard, Store.updates_append,
      List.flatMap_append]
    simpa [Store.perform, Store.trace, Store.updates, Store.heard] using inserted

private theorem answers_insertions (apart : Apart items) :
    ∀ update ∈ Store.empty.updates (insertions check items), update.answer = true := by
  induction items using List.reverseRecOn with
  | nil =>
    intro update member
    cases member
  | append_singleton items candidate ih =>
    have others := (List.pairwise_append.1 apart).1
    have newer : (Store.empty.perform (insertions check items)).holdsFresher candidate.certificate.name
        candidate.seq = false := (accounted_insertions others).newer (fresh_of_apart apart)
    rw [insertions_concat, Store.updates_append]
    intro update member
    rcases List.mem_append.1 member with old | last
    · exact ih others update old
    · rw [List.mem_singleton.1 last]
      exact Store.answer_insert newer

private theorem contents_insertions (apart : Apart items) :
    (Store.empty.perform (insertions check items)).records.map Record.asVerified =
      items.map fun candidate => ⟨candidate.certificate, candidate.seq, true⟩ := by
  induction items using List.reverseRecOn with
  | nil => rfl
  | append_singleton items candidate ih =>
    have others := (List.pairwise_append.1 apart).1
    rw [insertions_concat, Store.perform_append, List.map_append, ← ih others]
    exact (accounted_insertions others).contents_insert candidate.certificate candidate.seq candidate.trusted
      (fresh_of_apart apart)

/-! ### What is proven is verified -/

private theorem candidate_unique (apart : Apart items) {a b : Candidate} (first : a ∈ items) (second : b ∈ items)
    (same : a.name = b.name) : a = b := by
  refine unique_of_apart apart first second ?_
  rw [same]
  exact Name.overlaps_self b.name

private theorem not_stranded_insertions (apart : Apart items) (signer : Name) (record : Record) :
    ¬ Stranded (Store.empty.perform (insertions check items)) signer record := by
  have noRoom (short long other : Name) (first : Names items short) (second : Names items long)
      (_ : Names items other) (longer : long.resolvesTo short = true) (differ : long ≠ short) :
      other.overlaps short = true := by
    obtain ⟨a, inItems, rfl⟩ := first
    obtain ⟨b, inItemsToo, rfl⟩ := second
    have same := unique_of_apart apart inItemsToo inItems (Name.overlaps_iff.2 (.inl longer))
    exact absurd (congrArg Candidate.name same) differ
  refine Store.not_stranded noRoom ?_ signer record
  intro other certificate seq trusted called
  exact ⟨_, candidate_of_insert called, rfl⟩

private theorem record_of_candidate (check : SignatureCheck) (apart : Apart items) {candidate : Candidate}
    (member : candidate ∈ items) :
    ∃ record ∈ (Store.empty.perform (insertions check items)).records,
      record.certificate = candidate.certificate := by
  have listed : (⟨candidate.certificate, candidate.seq, true⟩ : Record) ∈
      (Store.empty.perform (insertions check items)).records.map Record.asVerified := by
    rw [contents_insertions apart]
    exact List.mem_map.2 ⟨candidate, member, rfl⟩
  obtain ⟨record, stored, same⟩ := List.mem_map.1 listed
  exact ⟨record, stored, congrArg Record.certificate same⟩

/-- An unverified record belongs to a candidate without trust. -/
theorem untrusted_of_unverified {record : Record}
    (stored : record ∈ (Store.empty.perform (insertions check items)).records) (unverified : record.verified = false) :
    ⟨record.certificate, record.seq, false⟩ ∈ items := by
  rw [← Store.replay_trace] at stored
  rcases Store.placed_of_unverified _ stored unverified with atStart | placed
  · cases atStart
  · exact candidate_of_place placed

private theorem verified_of_proven (apart : Apart items) {certificate : Certificate}
    (proven : Proven check items certificate) :
    ∃ record ∈ (Store.empty.perform (insertions check items)).records,
      record.certificate = certificate ∧ record.verified = true := by
  have held : Accounted check _ := accounted_insertions apart
  induction proven with
  | @trusted candidate member given =>
    obtain ⟨record, stored, same⟩ := record_of_candidate check apart member
    refine ⟨record, stored, same, ?_⟩
    rw [← Bool.not_eq_false]
    intro unverified
    have untrusted := candidate_unique apart (untrusted_of_unverified stored unverified) member
      (congrArg Certificate.name same)
    rw [← untrusted] at given
    cases given
  | @signed candidate signer member _ resolves accepted ih =>
    obtain ⟨issuer, issuerStored, issuerSame, trusted⟩ := ih
    obtain ⟨record, stored, same⟩ := record_of_candidate check apart member
    refine ⟨record, stored, same, ?_⟩
    rw [← Bool.not_eq_false]
    intro unverified
    have reaches : record.signer.resolvesTo issuer.name = true := by
      rw [Record.signer, same, Record.name, issuerSame]
      exact resolves
    rcases held.accounted record stored unverified with pending | ⟨waits, _⟩ | ⟨other, otherStored, _, named, refused⟩
    · cases pending
    · have stranded : Stranded _ record.signer issuer :=
        ⟨WaitingList.mem_signers_of_holds waits, issuerStored, reaches, trusted⟩
      exact not_stranded_insertions apart _ _ stranded
    · rw [held.separated.resolve otherStored issuerStored named reaches, same, issuerSame, accepted] at refused
      cases refused

private theorem verified_iff_proven (apart : Apart items) {record : Record}
    (stored : record ∈ (Store.empty.perform (insertions check items)).records) :
    record.verified = true ↔ Proven check items record.certificate := by
  constructor
  · intro verified
    rw [← Store.replay_trace] at stored
    exact proven_of_grounded (Store.grounded_of_verified stored verified) (List.Subset.refl _)
  · intro proven
    obtain ⟨other, otherStored, same, verified⟩ := verified_of_proven apart proven
    have held : Accounted check _ := accounted_insertions apart
    have overlap : other.name.overlaps record.name = true := by
      rw [Record.name, same]
      exact Name.overlaps_self record.certificate.name
    rw [← held.separated.unique otherStored stored overlap]
    exact verified

private theorem waits_iff (apart : Apart items) (signer waitee : Name) :
    (Store.empty.perform (insertions check items)).waiting.holds signer waitee = true ↔
      ∃ candidate ∈ items, candidate.certificate.signer = signer ∧ candidate.name = waitee ∧
        ¬ Proven check items candidate.certificate ∧
        ∀ other, Proven check items other → signer.resolvesTo other.name = false := by
  have held : Accounted check _ := accounted_insertions apart
  constructor
  · intro waits
    have waited := WaitingList.mem_signers_of_holds waits
    have unresolved (other : Certificate) (proven : Proven check items other) :
        signer.resolvesTo other.name = false := by
      rw [Bool.eq_false_iff]
      intro resolves
      obtain ⟨record, stored, rfl, verified⟩ := verified_of_proven apart proven
      exact not_stranded_insertions apart signer record ⟨waited, stored, resolves, verified⟩
    rw [← Store.replay_trace] at waits
    obtain ⟨certificate, seq, placed, named, signed⟩ := Store.placed_of_holds waits
    have member := candidate_of_place placed
    refine ⟨_, member, signed, named, ?_, unresolved⟩
    intro proven
    rcases proven.inversion with ⟨candidate, trustedMember, given, same⟩ | ⟨other, issuer, resolves⟩
    · rw [candidate_unique apart trustedMember member (congrArg Certificate.name same)] at given
      cases given
    · rw [signed, unresolved other issuer] at resolves
      cases resolves
  · rintro ⟨candidate, member, rfl, rfl, unproven, unresolved⟩
    obtain ⟨record, stored, same⟩ := record_of_candidate check apart member
    have unverified : record.verified = false := by
      rw [Bool.eq_false_iff]
      intro verified
      have proven := (verified_iff_proven apart stored).1 verified
      exact unproven (same ▸ proven)
    rw [Candidate.name, ← same]
    rcases held.accounted record stored unverified with pending | ⟨waits, _⟩ | ⟨other, otherStored, verified, named, _⟩
    · cases pending
    · exact waits
    · have proven := (verified_iff_proven apart otherStored).1 verified
      have resolves : candidate.certificate.signer.resolvesTo other.certificate.name = true := same ▸ named
      rw [unresolved _ proven] at resolves
      cases resolves

private theorem converged_insertions (apart : Apart items) :
    Converged check items (Store.empty.perform (insertions check items))
      (Store.empty.heard (insertions check items)) := by
  have held : Accounted check _ := accounted_insertions apart
  have listed : (Store.empty.perform (insertions check items)).verifiedNames.Perm
      (Store.empty.heard (insertions check items)) := by
    simpa [Spreading.start] using held.listed
  refine ⟨?_, fun record stored => verified_iff_proven apart stored, ?_, waits_iff apart, ?_, ?_⟩
  · have stored : (Store.empty.perform (insertions check items)).records.map Record.asVerified = _ :=
      contents_insertions apart
    have contents := congrArg (List.map fun record : Record => (record.certificate, record.seq)) stored
    rw [List.map_map, List.map_map] at contents
    exact List.Perm.of_eq contents
  · rw [← Store.replay_trace]
    exact Store.sound_waiting_after _
  · exact listed.nodup_iff.1 (Store.nodup_verifiedNames held.separated)
  · intro name
    rw [← listed.mem_iff, Store.mem_verifiedNames]
    constructor
    · rintro ⟨record, stored, verified, rfl⟩
      exact ⟨record.certificate, (verified_iff_proven apart stored).1 verified, rfl⟩
    · rintro ⟨certificate, proven, rfl⟩
      obtain ⟨record, stored, same, verified⟩ := verified_of_proven apart proven
      exact ⟨record, stored, verified, congrArg Certificate.name same⟩

end

/-! ### Any order -/

section
variable {check : SignatureCheck} {items order : List Candidate}

theorem proven_perm (arranged : order.Perm items) {certificate : Certificate} :
    Proven check order certificate ↔ Proven check items certificate :=
  ⟨fun proven => proven.mono arranged.subset, fun proven => proven.mono arranged.symm.subset⟩

theorem Apart.perm (apart : Apart items) (arranged : order.Perm items) : Apart order := by
  refine arranged.symm.pairwise apart ?_
  intro a b lie
  rw [Name.overlaps_comm]
  exact lie

namespace Converged
variable {store other : Store} {heard heardToo : List Name}

theorem perm (converged : Converged check order store heard) (arranged : order.Perm items) :
    Converged check items store heard := by
  refine ⟨converged.contents.trans (arranged.map _), ?_, converged.sound, ?_, converged.once, ?_⟩
  · intro record stored
    rw [converged.verified record stored, proven_perm arranged]
  · intro signer waitee
    simp only [converged.waits, arranged.mem_iff, proven_perm arranged]
  · intro name
    simp only [converged.announced, proven_perm arranged]

open Classical in
/-- The records follow from the items and from what is proven. -/
theorem records_eq (converged : Converged check items store heard) :
    store.records = (store.records.map fun record => (record.certificate, record.seq)).map
      fun content => ⟨content.1, content.2, decide (Proven check items content.1)⟩ := by
  rw [List.map_map]
  refine ((List.map_congr_left ?_).trans (List.map_id store.records)).symm
  intro record stored
  have verified := converged.verified record stored
  cases record
  simp only [Function.comp_apply, id_eq, Record.mk.injEq, true_and]
  rw [Bool.eq_iff_iff, decide_eq_true_iff]
  exact verified.symm

/-- The items determine the store and what was announced, up to order. -/
theorem unique (first : Converged check items store heard) (second : Converged check items other heardToo) :
    store.records.Perm other.records ∧ store.waiting.pairs.Perm other.waiting.pairs ∧ heard.Perm heardToo := by
  refine ⟨?_, ?_, ?_⟩
  · rw [first.records_eq, second.records_eq]
    exact (first.contents.trans second.contents.symm).map _
  · rw [List.perm_ext_iff_of_nodup first.sound.nodup_pairs second.sound.nodup_pairs]
    rintro ⟨signer, waitee⟩
    rw [first.sound.mem_pairs, second.sound.mem_pairs, first.waits, second.waits]
  · rw [List.perm_ext_iff_of_nodup first.once second.once]
    intro name
    rw [first.announced, second.announced]

end Converged

/-- Certificates whose names lie apart may be inserted in any order. All of them are
    taken in, and the outcome is the one that the items describe. -/
theorem inserted_in_any_order (check : SignatureCheck) {items : List Candidate} (apart : Apart items) :
    (∀ order, order.Perm items →
      (∀ update ∈ Store.empty.updates (insertions check order), update.answer = true) ∧
      Converged check items (Store.empty.perform (insertions check order))
        (Store.empty.heard (insertions check order))) ∧
    ∀ order other, order.Perm items → other.Perm items →
      (Store.empty.perform (insertions check order)).records.Perm
        (Store.empty.perform (insertions check other)).records ∧
      (Store.empty.perform (insertions check order)).waiting.pairs.Perm
        (Store.empty.perform (insertions check other)).waiting.pairs ∧
      (Store.empty.heard (insertions check order)).Perm (Store.empty.heard (insertions check other)) := by
  have outcome (order : List Candidate) (arranged : order.Perm items) :
      Converged check items (Store.empty.perform (insertions check order))
        (Store.empty.heard (insertions check order)) :=
    (converged_insertions (apart.perm arranged)).perm arranged
  refine ⟨?_, ?_⟩
  · intro order arranged
    exact ⟨answers_insertions (apart.perm arranged), outcome order arranged⟩
  · intro order other arranged arrangedToo
    exact (outcome order arranged).unique (outcome other arrangedToo)

end

/-- A root, a site under a versioned name of the root, and a certificate of a signer
    that never comes. -/
def sampleItems : List Candidate :=
  [⟨.sample ["edu", "KEY", "r"] ["edu", "KEY", "r"], 1, true⟩,
    ⟨.sample ["edu", "site", "KEY", "s"] ["edu", "KEY", "r", "v1"], 1, false⟩,
    ⟨.sample ["edu", "lab", "KEY", "l"] ["com", "KEY", "c"], 7, false⟩]

theorem inserted_in_any_order_sample :
    Apart sampleItems ∧ sampleItems.reverse.Perm sampleItems ∧
      Converged (fun _ _ => true) sampleItems
        (Store.empty.perform (insertions (fun _ _ => true) sampleItems.reverse))
        (Store.empty.heard (insertions (fun _ _ => true) sampleItems.reverse)) ∧
      (Store.empty.perform (insertions (fun _ _ => true) sampleItems.reverse)).records.Perm
        (Store.empty.perform (insertions (fun _ _ => true) sampleItems)).records ∧
      Store.empty.heard (insertions (fun _ _ => true) sampleItems.reverse) =
        [.ofList ["edu", "KEY", "r"], .ofList ["edu", "site", "KEY", "s"]] := by
  have apart : Apart sampleItems := by
    unfold Apart
    decide +kernel
  have arranged : sampleItems.reverse.Perm sampleItems := sampleItems.reverse_perm
  obtain ⟨outcome, same⟩ := inserted_in_any_order (fun _ _ => true) apart
  exact ⟨apart, arranged, (outcome _ arranged).2, (same _ _ arranged (List.Perm.refl _)).1, by decide +kernel⟩

end RouteTrust
