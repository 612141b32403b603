import RouteTrust.Proofs.Spreading

/-!
Where every unverified certificate stands while trust spreads, if no two placed
names overlap. It is about to be tried, or it waits for its signer, or a verified
signer refuses it (`Accounted`). Signers are woken only once they are verified, so
no certificate is forgotten with an entry. The verified names are those announced
and those that wait in the queue, each once.
-/
namespace RouteTrust

/-- A verified certificate that the record names as its signer refuses it. -/
def Refuted (check : SignatureCheck) (store : Store) (record : Record) : Prop :=
  ∃ signer ∈ store.records, signer.verified = true ∧ record.signer.resolvesTo signer.name = true ∧
    check record.certificate signer.certificate.publicKey = false

namespace Store

def verifiedNames (store : Store) : List Name := (store.records.filter (·.verified)).map Record.name

theorem mem_verifiedNames {store : Store} {name : Name} :
    name ∈ store.verifiedNames ↔ ∃ record ∈ store.records, record.verified = true ∧ record.name = name := by
  simp [verifiedNames, and_assoc]

theorem nodup_verifiedNames {store : Store} (separated : Separated store.records) :
    store.verifiedNames.Nodup := by
  have kept : Separated (store.records.filter (·.verified)) := List.Pairwise.sublist List.filter_sublist separated
  refine List.pairwise_map.2 (kept.imp ?_)
  intro first second apart same
  rw [same, Name.overlaps_self] at apart
  cases apart

private theorem verifiedNames_markFirst {records : List Record} {lookup : Name} {subject : Record}
    (found : records.find? (fun record => lookup.resolvesTo record.name) = some subject)
    (unverified : subject.verified = false) :
    (((markFirst lookup records).filter (·.verified)).map Record.name).Perm
      ((records.filter (·.verified)).map Record.name ++ [subject.name]) := by
  induction records with
  | nil => cases found
  | cons head rest ih =>
    rw [List.find?_cons] at found
    by_cases resolves : lookup.resolvesTo head.name = true
    · rw [resolves] at found
      cases found
      have marked : markFirst lookup (subject :: rest) = subject.asVerified :: rest := if_pos resolves
      rw [marked, List.filter_cons_of_pos subject.verified_asVerified,
        List.filter_cons_of_neg (by simp [unverified])]
      exact (List.perm_append_singleton subject.name _).symm
    · rw [Bool.eq_false_iff.2 resolves] at found
      have passed : markFirst lookup (head :: rest) = head :: markFirst lookup rest := if_neg resolves
      rw [passed]
      cases known : head.verified with
      | true =>
        rw [List.filter_cons_of_pos known, List.filter_cons_of_pos known]
        exact (ih found).cons head.name
      | false =>
        rw [List.filter_cons_of_neg (by simp [known]), List.filter_cons_of_neg (by simp [known])]
        exact ih found

/-- An attempt adds the name of the record that it verifies. -/
theorem verifiedNames_attempt {check : SignatureCheck} {store : Store} {lookup : Name}
    (named : ∀ record, store.find? lookup = some record → record.name = lookup) :
    (store.attempt check lookup).2.verifiedNames.Perm
      (store.verifiedNames ++ if (store.attempt check lookup).1 = .verified then [lookup] else []) := by
  have cases := attempted check store lookup
  generalize store.attempt check lookup = result at cases
  cases cases with
  | verified certified =>
    have marked := verifiedNames_markFirst certified.found certified.unverified
    rw [named _ certified.found] at marked
    exact marked
  | _ => exact List.Perm.of_eq (List.append_nil _).symm

end Store

private theorem Refuted.attempt {check other : SignatureCheck} {store : Store} {lookup : Name} {record : Record}
    (refuted : Refuted check store record) (separated : Separated store.records) :
    Refuted check (store.attempt other lookup).2 record := by
  obtain ⟨signer, member, verified, resolves, refused⟩ := refuted
  exact ⟨signer, Store.mem_attempt_of_verified separated member verified, verified, resolves, refused⟩

/-- A traced cascade without overlapping names in which every unverified record is
    accounted for. -/
structure Accounted (check : SignatureCheck) (state : Spreading) : Prop extends Traced state where
  apart : ∀ a b, Placed state.past a → Placed state.past b → a.overlaps b = true → a = b
  backed : ∀ signer, state.current = some signer ∨ signer ∈ state.waking →
    ∃ record ∈ state.store.records, signer.resolvesTo record.name = true ∧ record.verified = true
  accounted : ∀ record ∈ state.store.records, record.verified = false →
    record.name ∈ state.trying ∨
      (state.store.waiting.holds record.signer record.name = true ∧ state.current ≠ some record.signer) ∨
      Refuted check state.store record
  listed : state.store.verifiedNames.Perm (state.announced ++ state.queue)

namespace Accounted
variable {check : SignatureCheck} {state last : Spreading}

/-- A lookup by a placed name finds nothing but the certificate of this name. -/
theorem name_of_found (held : Accounted check state) {lookup : Name} (placed : Placed state.past lookup)
    {record : Record} (found : state.store.find? lookup = some record) : record.name = lookup := by
  obtain ⟨member, resolves⟩ := Store.mem_of_find? found
  have known := placed_name_of_mem (held.replayed ▸ member)
  exact (held.apart _ _ placed known (Name.overlaps_iff.2 (.inl resolves))).symm

/-- A certificate that stays unverified when it is tried is refused, or waits for a
    signer other than the one whose waitees are being tried. -/
theorem standing {waitee : Name} (held : Accounted check state) {record : Record}
    (found : state.store.find? waitee = some record)
    (member : record ∈ (state.store.attempt check waitee).2.records) (unverified : record.verified = false) :
    ((state.store.attempt check waitee).2.waiting.holds record.signer record.name = true ∧
        state.current ≠ some record.signer) ∨
      Refuted check (state.store.attempt check waitee).2 record := by
  have cases := Store.attempted check state.store waitee
  generalize state.store.attempt check waitee = result at member cases
  cases cases with
  | missing absent =>
    rw [absent] at found
    cases found
  | alreadyVerified foundToo verified =>
    cases found.symm.trans foundToo
    rw [unverified] at verified
    cases verified
  | deferred foundToo _ untrusted =>
    cases found.symm.trans foundToo
    refine .inl ⟨WaitingList.holds_add.2 (.inr ⟨rfl, rfl⟩), ?_⟩
    -- The signer that is being woken is verified, so its waitees are not deferred.
    intro busy
    obtain ⟨signer, stored, resolves, verified⟩ := held.backed record.signer (.inl busy)
    rw [(Store.trustedKey?_eq_none_iff held.separated).1 untrusted signer stored resolves] at verified
    cases verified
  | failed foundToo _ signed trusted refused =>
    cases found.symm.trans foundToo
    obtain ⟨stored, resolves⟩ := Store.mem_of_find? signed
    exact .inr ⟨_, stored, trusted, resolves, refused⟩
  | verified certified =>
    cases found.symm.trans certified.found
    rcases (Store.mem_markVerified held.separated certified.found).1 member with same | ⟨_, different⟩
    · rw [same] at unverified
      cases unverified
    · exact absurd rfl different

private theorem attempt {store : Store} {past : List Action} {announced queue waking : List Name}
    {current : Option Name} {waitee : Name} {trying : List Name}
    (held : Accounted check ⟨store, past, announced, queue, waking, current, waitee :: trying⟩) :
    Accounted check ⟨(store.attempt check waitee).2, past ++ [.attempt check waitee], announced,
      queue ++ (if (store.attempt check waitee).1 = .verified then [waitee] else []), waking, current, trying⟩ := by
  have separated : Separated store.records := held.separated
  have placed : Placed past waitee := held.trying waitee List.mem_cons_self
  refine ⟨held.toTraced.attempt, ?_, ?_, ?_, ?_⟩
  · intro a b first second
    exact held.apart a b (placed_of_concat first (by simp)) (placed_of_concat second (by simp))
  · intro signer busy
    obtain ⟨record, member, resolves, verified⟩ := held.backed signer busy
    exact ⟨record, Store.mem_attempt_of_verified separated member verified, resolves, verified⟩
  · intro record member unverified
    have old := Store.mem_of_mem_attempt member unverified
    rcases held.accounted record old unverified with pending | ⟨waits, other⟩ | refuted
    · rcases List.mem_cons.1 pending with same | later
      · have found : store.find? waitee = some record := same ▸ Store.find?_name separated old
        exact .inr (held.standing found member unverified)
      · exact .inl later
    · exact .inr (.inl ⟨Store.holds_attempt waits, other⟩)
    · exact .inr (.inr (refuted.attempt separated))
  · refine (Store.verifiedNames_attempt fun record found => held.name_of_found placed found).trans ?_
    rw [← List.append_assoc]
    exact held.listed.append_right _

/-- Every step of a cascade keeps all records accounted for. -/
theorem next (held : Accounted check state) (step : Spreading.Next check state last) : Accounted check last := by
  have traced := held.toTraced.next step
  cases step with
  | announce store past announced name queue =>
    refine ⟨traced, held.apart, ?_, ?_, ?_⟩
    · rintro signer (present | later)
      · cases present
      · have resolves := (Store.mem_signersOf.1 later).2
        have verified : name ∈ store.verifiedNames :=
          held.listed.mem_iff.2 (List.mem_append_right _ List.mem_cons_self)
        obtain ⟨record, member, trusted, rfl⟩ := Store.mem_verifiedNames.1 verified
        exact ⟨record, member, resolves, trusted⟩
    · intro record member unverified
      rcases held.accounted record member unverified with pending | ⟨waits, _⟩ | refuted
      · cases pending
      · exact .inr (.inl ⟨waits, by simp⟩)
      · exact .inr (.inr refuted)
    · rw [List.append_assoc]
      exact held.listed
  | wake store past announced queue signer waking =>
    refine ⟨traced, held.apart, ?_, ?_, held.listed⟩
    · rintro other (present | later)
      · cases present
        exact held.backed signer (.inr List.mem_cons_self)
      · exact held.backed other (.inr (List.mem_cons_of_mem _ later))
    · intro record member unverified
      rcases held.accounted record member unverified with pending | ⟨waits, _⟩ | refuted
      · cases pending
      · by_cases own : record.signer = signer
        · exact .inl (own ▸ WaitingList.holds_iff.1 waits)
        · exact .inr (.inl ⟨waits, fun same => own (Option.some.inj same).symm⟩)
      · exact .inr (.inr refuted)
  | attempt => exact held.attempt
  | forget store past announced queue waking signer =>
    refine ⟨traced, ?_, ?_, ?_, held.listed⟩
    · intro a b first second
      exact held.apart a b (placed_of_concat first (by simp)) (placed_of_concat second (by simp))
    · rintro other (present | later)
      · cases present
      · exact held.backed other (.inr later)
    · intro record member unverified
      rcases held.accounted record member unverified with pending | ⟨waits, other⟩ | refuted
      · cases pending
      · refine .inr (.inl ⟨WaitingList.holds_remove.2 ⟨waits, ?_⟩, by simp⟩)
        intro same
        exact other (congrArg some same).symm
      · exact .inr (.inr refuted)

variable {store : Store} {past : List Action} {announced : List Name}

private theorem overlaps_fresh (held : Accounted check (.start store past announced [])) {certificate : Certificate}
    (fresh : ∀ name, Placed past name → name.overlaps certificate.name = false) {record : Record}
    (member : record ∈ store.records) : record.name.overlaps certificate.name = false := by
  have replayed : store = Store.after past := held.replayed
  exact fresh record.name (placed_name_of_mem (replayed ▸ member))

private theorem records_place (held : Accounted check (.start store past announced [])) {certificate : Certificate}
    {seq : UInt64} {trusted : Bool} (fresh : ∀ name, Placed past name → name.overlaps certificate.name = false) :
    (store.act (.place certificate seq trusted)).records = store.records ++ [⟨certificate, seq, trusted⟩] := by
  have all : store.records.filter (fun record => !record.name.overlaps certificate.name) = store.records := by
    rw [List.filter_eq_self]
    intro record member
    rw [held.overlaps_fresh fresh member]
    rfl
  rw [Store.records_act_place, all]

theorem newer (held : Accounted check (.start store past announced [])) {certificate : Certificate} {seq : UInt64}
    (fresh : ∀ name, Placed past name → name.overlaps certificate.name = false) :
    store.holdsFresher certificate.name seq = false := by
  refine Store.holdsFresher_eq_false_iff.2 ?_
  intro record member overlap
  rw [held.overlaps_fresh fresh member] at overlap
  cases overlap

/-- A new certificate is tried at once unless it is trusted. -/
theorem place (held : Accounted check (.start store past announced [])) (certificate : Certificate)
    (seq : UInt64) (trusted : Bool)
    (fresh : ∀ name, Placed past name → name.overlaps certificate.name = false) :
    Accounted check ⟨store.act (.place certificate seq trusted), past ++ [.place certificate seq trusted],
      announced, if trusted then [certificate.name] else [], [], none,
      if trusted then [] else [certificate.name]⟩ := by
  have waiting : (store.act (.place certificate seq trusted)).waiting = store.waiting := by
    cases trusted with
    | false => rfl
    | true => rfl
  refine ⟨held.toTraced.place certificate seq trusted ?_, ?_, ?_, ?_, ?_⟩
  · cases trusted with
    | false => exact List.Subset.refl _
    | true => exact List.nil_subset _
  · intro a b first second overlap
    rcases placed_concat_place first with old | rfl
    · rcases placed_concat_place second with oldToo | rfl
      · exact held.apart a b old oldToo overlap
      · rw [fresh a old] at overlap
        cases overlap
    · rcases placed_concat_place second with oldToo | same
      · rw [Name.overlaps_comm, fresh b oldToo] at overlap
        cases overlap
      · exact same
  · rintro signer (present | later)
    · cases present
    · cases later
  · intro record member unverified
    rcases Store.mem_act_place.1 member with ⟨old, _⟩ | rfl
    · rcases held.accounted record old unverified with pending | ⟨waits, _⟩ | ⟨signer, stored, verified, named⟩
      · cases pending
      · exact .inr (.inl ⟨waiting ▸ waits, by simp⟩)
      · exact .inr (.inr ⟨signer, Store.mem_act_place.2 (.inl ⟨stored, held.overlaps_fresh fresh stored⟩), verified, named⟩)
    · cases unverified
      exact .inl List.mem_cons_self
  · have names : (store.act (.place certificate seq trusted)).verifiedNames =
        store.verifiedNames ++ if trusted then [certificate.name] else [] := by
      rw [Store.verifiedNames, held.records_place fresh, List.filter_append, List.map_append]
      cases trusted with
      | false => rfl
      | true => rfl
    rw [names]
    have listed : store.verifiedNames.Perm announced := by simpa [Spreading.start] using held.listed
    exact listed.append_right _

/-- Inserting a certificate apart from all before keeps all records accounted for. -/
theorem insert (held : Accounted check (.start store past announced [])) (certificate : Certificate)
    (seq : UInt64) (trusted : Bool)
    (fresh : ∀ name, Placed past name → name.overlaps certificate.name = false) :
    Accounted check (.start ((Operation.insert check certificate seq trusted).run store).store
      (past ++ (Operation.insert check certificate seq trusted).actions store)
      (announced ++ ((Operation.insert check certificate seq trusted).run store).announced) []) := by
  have newer : store.holdsFresher certificate.name seq = false := held.newer fresh
  have opened : Accounted check (.start
      (store.replay ((Operation.insert check certificate seq trusted).opening store).1)
      (past ++ ((Operation.insert check certificate seq trusted).opening store).1) announced
      ((Operation.insert check certificate seq trusted).opening store).2) := by
    have placed := held.place certificate seq trusted fresh
    simp only [Operation.opening, newer, Bool.false_eq_true, if_false]
    cases trusted with
    | true => exact placed
    | false =>
      have inOrder := List.append_assoc past [.place certificate seq false] [.attempt check certificate.name]
      exact inOrder ▸ placed.attempt
  have runs := Spreading.runs_call (.insert check certificate seq trusted) store past announced
  exact runs.keeps (Accounted check) opened fun _ _ step accounted => accounted.next step

/-- A call that inserts a certificate apart from all before adds its record and changes
    no other but in trust. -/
theorem contents_insert (held : Accounted check (.start store past announced [])) (certificate : Certificate)
    (seq : UInt64) (trusted : Bool)
    (fresh : ∀ name, Placed past name → name.overlaps certificate.name = false) :
    ((Operation.insert check certificate seq trusted).run store).store.records.map Record.asVerified =
      store.records.map Record.asVerified ++ [⟨certificate, seq, true⟩] := by
  have newer : store.holdsFresher certificate.name seq = false := held.newer fresh
  have placed : (store.act (.place certificate seq trusted)).records.map Record.asVerified =
      store.records.map Record.asVerified ++ [⟨certificate, seq, true⟩] := by
    rw [held.records_place fresh, List.map_append]
    rfl
  have runs := Spreading.runs_call (.insert check certificate seq trusted) store past announced
  refine runs.keeps (fun state => state.store.records.map Record.asVerified =
    store.records.map Record.asVerified ++ [⟨certificate, seq, true⟩]) ?_ ?_
  · simp only [Operation.opening, newer, Bool.false_eq_true, if_false]
    cases trusted with
    | true => exact placed
    | false => exact (Store.map_asVerified_attempt check _ certificate.name).trans placed
  · intro state next step same
    cases step with
    | attempt store _ _ _ _ _ waitee => exact (Store.map_asVerified_attempt check store waitee).trans same
    | _ => exact same

end Accounted
end RouteTrust
