import RouteTrust.Proofs.History

/-!
Where the contents of a store come from. A record becomes verified in three ways
only (`Verifies`), and every verified record did so at some moment and has been
stored since (`exists_verifiedAt`). Unverified records were placed without trust
(`placed_of_unverified`), and a pair waits only after a certificate of that name
and that signer was placed (`placed_of_holds`).
-/
namespace RouteTrust

/-- The ways in which an action makes a record verified. -/
inductive Verifies (store : Store) : Action → Record → Prop
  | trusted (certificate : Certificate) (seq : UInt64) :
      Verifies store (.place certificate seq true) ⟨certificate, seq, true⟩
  | endorsed {lookup : Name} {record : Record} (found : store.find? lookup = some record)
      (unverified : record.verified = false) : Verifies store (.endorse lookup) record.asVerified
  | checked {check : SignatureCheck} {lookup : Name} {subject signer : Record}
      (certified : Certified check store lookup subject signer) :
      Verifies store (.attempt check lookup) subject.asVerified

namespace Store

/-- A placed certificate stands last, and all that it overlaps is gone. -/
theorem records_act_place (store : Store) (certificate : Certificate) (seq : UInt64) (trusted : Bool) :
    (store.act (.place certificate seq trusted)).records =
      store.records.filter (fun record => !record.name.overlaps certificate.name) ++
        [⟨certificate, seq, trusted⟩] := by
  cases trusted with
  | false => rfl
  | true =>
    refine markFirst_concat ?_ (Name.resolvesTo_self certificate.name)
    intro record member
    have apart : record.name.overlaps certificate.name = false := by simpa using (List.mem_filter.1 member).2
    exact (Name.overlaps_eq_false_iff.1 apart).2

theorem mem_act_place {store : Store} {certificate : Certificate} {seq : UInt64} {trusted : Bool}
    {record : Record} :
    record ∈ (store.act (.place certificate seq trusted)).records ↔
      record ∈ store.records ∧ record.name.overlaps certificate.name = false ∨
        record = ⟨certificate, seq, trusted⟩ := by
  simp [records_act_place]

theorem mem_replace {store : Store} {certificate : Certificate} {seq : UInt64} {record : Record} :
    record ∈ (store.replace certificate seq).records ↔
      record ∈ store.records ∧ record.name.overlaps certificate.name = false ∨ record = ⟨certificate, seq, false⟩ := by
  simp [replace]

theorem act_endorse (store : Store) (lookup : Name) :
    store.act (.endorse lookup) =
      match store.find? lookup with
      | some record => store.markVerified record.name
      | none => store := rfl

theorem separated_markVerified {store : Store} (separated : Separated store.records) (lookup : Name) :
    Separated (store.markVerified lookup).records :=
  separated_markFirst.2 separated

theorem records_remove (store : Store) (lookup : Name) :
    (store.remove lookup).store.records.Sublist store.records := by
  unfold remove
  split
  · exact List.Sublist.refl _
  · exact List.eraseP_sublist

theorem waiting_remove (store : Store) (lookup : Name) :
    (store.remove lookup).store.waiting = store.waiting := by
  unfold remove
  split
  · rfl
  · rfl

/-- Names lie apart whatever happens. -/
theorem separated_act {store : Store} (separated : Separated store.records) (action : Action) :
    Separated (store.act action).records := by
  cases action with
  | place certificate seq trusted =>
    rw [records_act_place, Separated, List.pairwise_append]
    refine ⟨List.Pairwise.filter _ separated, List.pairwise_singleton _ _, ?_⟩
    intro old member new isNew
    rw [List.mem_singleton.1 isNew]
    have apart : old.name.overlaps certificate.name = false := by simpa using (List.mem_filter.1 member).2
    exact apart
  | endorse lookup =>
    rw [act_endorse]
    split
    · exact separated_markVerified separated _
    · exact separated
  | attempt check lookup => exact separated_attempt separated
  | forget signer => exact separated
  | discard lookup => exact List.Pairwise.sublist (records_remove store lookup) separated

theorem find?_replace {store : Store} (separated : Separated store.records) (certificate : Certificate)
    (seq : UInt64) :
    (store.replace certificate seq).find? certificate.name = some ⟨certificate, seq, false⟩ := by
  have placed : Separated (store.replace certificate seq).records :=
    separated_act separated (.place certificate seq false)
  exact find?_name placed (List.mem_append_right _ List.mem_cons_self)

/-- A new certificate waits for its signer while no certificate is verified. -/
theorem insert_of_unverified {check : SignatureCheck} {store : Store} (separated : Separated store.records)
    (unverified : ∀ record ∈ store.records, record.verified = false) {certificate : Certificate} {seq : UInt64}
    (newer : store.holdsFresher certificate.name seq = false) :
    (store.insert check certificate seq false).store =
      ⟨store.records.filter (fun record => !record.name.overlaps certificate.name) ++ [⟨certificate, seq, false⟩],
        store.waiting.add certificate.signer certificate.name⟩ := by
  have placed : Separated (store.replace certificate seq).records :=
    separated_act separated (.place certificate seq false)
  have untrusted : (store.replace certificate seq).trustedKey? certificate.signer = none := by
    refine (trustedKey?_eq_none_iff placed).2 ?_
    intro record member _
    rcases List.mem_append.1 member with old | new
    · exact unverified record (List.mem_filter.1 old).1
    · rw [List.mem_singleton.1 new]
  have deferred : (store.replace certificate seq).attempt check certificate.name =
      (.deferred, (store.replace certificate seq).defer ⟨certificate, seq, false⟩) := by
    simp [attempt, find?_replace separated certificate seq, Record.signer, untrusted]
  simp only [insert, newer, deferred, Bool.false_eq_true, if_false]
  rfl

/-- The first certificate waits for its signer. -/
theorem insert_empty (check : SignatureCheck) (certificate : Certificate) (seq : UInt64) :
    (empty.insert check certificate seq false).store =
      ⟨[⟨certificate, seq, false⟩], ⟨[⟨certificate.signer, [certificate.name]⟩]⟩⟩ := by
  refine insert_of_unverified ?_ ?_ rfl
  · exact List.Pairwise.nil
  · simp [empty]

/-- A certificate takes the place of the only one, and waits for its signer too. -/
theorem insert_over {old new : Certificate} {oldSeq seq : UInt64}
    (overlap : old.name.overlaps new.name = true) (newer : oldSeq < seq) (check : SignatureCheck)
    (waiting : WaitingList) :
    (Store.insert check ⟨[⟨old, oldSeq, false⟩], waiting⟩ new seq false).store =
      ⟨[⟨new, seq, false⟩], waiting.add new.signer new.name⟩ := by
  refine (insert_of_unverified ?_ ?_ ?_).trans ?_
  · exact List.pairwise_singleton _ _
  · simp
  · simp [holdsFresher, newer]
  · simp [Record.name, overlap]

/-- What is verified after an action was verified before, or this action verified it. -/
theorem verifies_of_mem_act {store : Store} (separated : Separated store.records) {action : Action}
    {record : Record} (member : record ∈ (store.act action).records) (verified : record.verified = true) :
    record ∈ store.records ∨ Verifies store action record := by
  cases action with
  | place certificate seq trusted =>
    rcases mem_act_place.1 member with old | rfl
    · exact .inl old.1
    · cases verified
      exact .inr (.trusted certificate seq)
  | endorse lookup =>
    rw [act_endorse] at member
    split at member
    · rename_i other found
      obtain ⟨inStore, _⟩ := mem_of_find? found
      rcases (mem_markVerified separated (find?_name separated inStore)).1 member with rfl | old
      · cases known : other.verified with
        | true => exact .inl ((Record.asVerified_of_verified known).symm ▸ inStore)
        | false => exact .inr (.endorsed found known)
      · exact .inl old.1
    · exact .inl member
  | attempt check lookup =>
    have cases := attempted check store lookup
    simp only [act] at member
    generalize store.attempt check lookup = result at member cases
    cases cases with
    | verified certified =>
      rcases (mem_markVerified separated certified.found).1 member with rfl | old
      · exact .inr (.checked certified)
      · exact .inl old.1
    | _ => exact .inl member
  | forget signer => exact .inl member
  | discard lookup => exact .inl ((records_remove store lookup).subset member)

/-- What is unverified after an action was so before, or this action placed it. -/
theorem placed_of_mem_act {store : Store} {action : Action} {record : Record}
    (member : record ∈ (store.act action).records) (unverified : record.verified = false) :
    record ∈ store.records ∨ action = .place record.certificate record.seq false := by
  cases action with
  | place certificate seq trusted =>
    rcases mem_act_place.1 member with old | rfl
    · exact .inl old.1
    · cases unverified
      exact .inr rfl
  | endorse lookup =>
    rw [act_endorse] at member
    split at member
    · exact .inl (mem_of_mem_markFirst member unverified)
    · exact .inl member
  | attempt check lookup => exact .inl (mem_of_mem_attempt member unverified)
  | forget signer => exact .inl member
  | discard lookup => exact .inl ((records_remove store lookup).subset member)

/-- The store after actions from the beginning. -/
def after (past : List Action) : Store := empty.replay past

theorem after_concat (past : List Action) (action : Action) :
    after (past ++ [action]) = (after past).act action := by
  rw [after, replay_append]
  rfl

theorem separated_after (past : List Action) : Separated (after past).records := by
  have start : Separated empty.records := List.Pairwise.nil
  refine replay_induction (motive := fun store => Separated store.records) start ?_ past
  intro store action separated
  exact separated_act separated action

/-- Unverified records were placed without trust, or are from before the actions. -/
theorem placed_of_unverified {store : Store} (past : List Action) {record : Record}
    (member : record ∈ (store.replay past).records) (unverified : record.verified = false) :
    record ∈ store.records ∨ .place record.certificate record.seq false ∈ past := by
  induction past using List.reverseRecOn with
  | nil => exact .inl member
  | append_singleton past action ih =>
    rw [replay_append] at member
    rcases placed_of_mem_act member unverified with old | now
    · exact (ih old).imp_right (List.mem_append_left _)
    · exact .inr (List.mem_append_right _ (List.mem_singleton.2 now.symm))

private theorem placed_of_find? {past : List Action} {lookup : Name} {record : Record}
    (found : (after past).find? lookup = some record) (unverified : record.verified = false) :
    .place record.certificate record.seq false ∈ past := by
  rcases placed_of_unverified past (mem_of_find? found).1 unverified with atStart | placed
  · cases atStart
  · exact placed

/-! ### Who waits -/

/-- Only attempts that defer add to the waiting list, and forgetting takes from it. -/
theorem waiting_act (store : Store) (action : Action) :
    (store.act action).waiting = store.waiting ∨
      (∃ signer, action = .forget signer ∧ (store.act action).waiting = store.waiting.remove signer) ∨
      ∃ check lookup record, action = .attempt check lookup ∧ store.find? lookup = some record ∧
        record.verified = false ∧ store.trustedKey? record.signer = none ∧
          (store.act action).waiting = store.waiting.add record.signer record.name := by
  cases action with
  | place certificate seq trusted =>
    cases trusted with
    | false => exact .inl rfl
    | true => exact .inl rfl
  | endorse lookup =>
    rw [act_endorse]
    split
    · exact .inl rfl
    · exact .inl rfl
  | attempt check lookup =>
    have cases := attempted check store lookup
    simp only [act]
    generalize store.attempt check lookup = result at cases
    cases cases with
    | deferred found unverified untrusted =>
      exact .inr (.inr ⟨check, lookup, _, rfl, found, unverified, untrusted, rfl⟩)
    | _ => exact .inl rfl
  | forget signer => exact .inr (.inl ⟨signer, rfl, rfl⟩)
  | discard lookup => exact .inl (waiting_remove store lookup)

/-- A pair waits only after a certificate of this name and signer was placed without trust. -/
theorem placed_of_holds {past : List Action} {signer waitee : Name}
    (waits : (after past).waiting.holds signer waitee = true) :
    ∃ certificate seq, .place certificate seq false ∈ past ∧ certificate.name = waitee ∧
      certificate.signer = signer := by
  induction past using List.reverseRecOn with
  | nil => cases waits
  | append_singleton past action ih =>
    have earlier (old : (after past).waiting.holds signer waitee = true) :
        ∃ certificate seq, Action.place certificate seq false ∈ past ++ [action] ∧
          certificate.name = waitee ∧ certificate.signer = signer := by
      obtain ⟨certificate, seq, member, names⟩ := ih old
      exact ⟨certificate, seq, List.mem_append_left _ member, names⟩
    rw [after_concat] at waits
    rcases waiting_act (after past) action with same | ⟨gone, _, same⟩ | ⟨_, _, record, _, found, unverified, _, same⟩
    · exact earlier (same ▸ waits)
    · rw [same, WaitingList.holds_remove] at waits
      exact earlier waits.1
    · rw [same, WaitingList.holds_add] at waits
      rcases waits with old | ⟨rfl, rfl⟩
      · exact earlier old
      · have placed := placed_of_find? found unverified
        exact ⟨record.certificate, record.seq, List.mem_append_left _ placed, rfl, rfl⟩

theorem sound_waiting_after (past : List Action) : (after past).waiting.Sound := by
  have start : empty.waiting.Sound := WaitingList.sound_empty
  refine replay_induction (motive := fun store => store.waiting.Sound) start ?_ past
  intro store action sound
  rcases waiting_act store action with same | ⟨signer, _, same⟩ | ⟨_, _, record, _, _, _, _, same⟩
  · exact same ▸ sound
  · exact same ▸ sound.remove signer
  · exact same ▸ sound.add record.signer record.name

/-! ### The moment at which a record became verified -/

end Store

/-- The record is stored at every moment from `since` on. -/
def StoredSince (since past : List Action) (record : Record) : Prop :=
  ∀ mid, since <+: mid → mid <+: past → record ∈ (Store.after mid).records

namespace StoredSince
variable {since past : List Action} {record : Record}

theorem now (member : record ∈ (Store.after past).records) : StoredSince past past record := by
  intro mid began within
  rw [within.eq_of_length_le began.length_le]
  exact member

theorem extend (stored : StoredSince since past record) {next : Action}
    (member : record ∈ (Store.after (past ++ [next])).records) : StoredSince since (past ++ [next]) record := by
  intro mid began within
  rcases List.prefix_concat_iff.1 within with rfl | earlier
  · exact member
  · exact stored mid began earlier

end StoredSince

/-- The record became verified by an action of the past, the one right after
    `before`, and has been stored at every moment since. -/
structure VerifiedAt (past before : List Action) (action : Action) (record : Record) : Prop where
  moment : before ++ [action] <+: past
  verifies : Verifies (Store.after before) action record
  kept : ∀ mid, before ++ [action] <+: mid → mid <+: past → record ∈ (Store.after mid).records

namespace VerifiedAt
variable {past before : List Action} {action : Action} {record : Record}

theorem mem (event : VerifiedAt past before action record) : record ∈ (Store.after past).records :=
  event.kept past event.moment (List.prefix_refl past)

theorem verified (event : VerifiedAt past before action record) : record.verified = true := by
  cases event.verifies with
  | trusted => rfl
  | endorsed => rfl
  | checked => rfl

theorem action_mem (event : VerifiedAt past before action record) : action ∈ past :=
  event.moment.subset (List.mem_append_right before List.mem_cons_self)

theorem before_subset (event : VerifiedAt past before action record) : before ⊆ past :=
  ((List.prefix_append before [action]).trans event.moment).subset

theorem before_shorter (event : VerifiedAt past before action record) : before.length < past.length := by
  have bound := event.moment.length_le
  rw [List.length_append, List.length_singleton] at bound
  omega

/-- The event stays an event while the record is stored. -/
theorem extend (event : VerifiedAt past before action record) {next : Action}
    (member : record ∈ (Store.after (past ++ [next])).records) :
    VerifiedAt (past ++ [next]) before action record := by
  have kept : StoredSince (before ++ [action]) past record := event.kept
  exact ⟨event.moment.trans (List.prefix_append past [next]), event.verifies, kept.extend member⟩

theorem now {next : Action} (verifies : Verifies (Store.after past) next record)
    (member : record ∈ (Store.after (past ++ [next])).records) :
    VerifiedAt (past ++ [next]) past next record :=
  ⟨List.prefix_refl _, verifies, StoredSince.now member⟩

end VerifiedAt

namespace Store

/-- Every verified record became so at some moment and has been stored since. -/
theorem exists_verifiedAt {past : List Action} {record : Record} (member : record ∈ (after past).records)
    (verified : record.verified = true) : ∃ before action, VerifiedAt past before action record := by
  induction past using List.reverseRecOn with
  | nil => cases member
  | append_singleton past action ih =>
    have here := member
    rw [after_concat] at here
    rcases verifies_of_mem_act (separated_after past) here verified with old | verifies
    · obtain ⟨before, earlier, event⟩ := ih old
      exact ⟨before, earlier, event.extend member⟩
    · exact ⟨past, action, .now verifies member⟩

/-- A certificate that is stored after an action was stored before, or this action placed it. -/
theorem stored_or_placed_act {store : Store} {action : Action} {record : Record}
    (member : record ∈ (store.act action).records) :
    (∃ old ∈ store.records, old.certificate = record.certificate ∧ old.seq = record.seq) ∨
      ∃ trusted, action = .place record.certificate record.seq trusted := by
  have marked {lookup : Name} (member : record ∈ markFirst lookup store.records) :
      ∃ old ∈ store.records, old.certificate = record.certificate ∧ old.seq = record.seq := by
    rcases mem_markFirst member with old | ⟨subject, found, rfl⟩
    · exact ⟨record, old, rfl, rfl⟩
    · exact ⟨subject, List.mem_of_find?_eq_some found, rfl, rfl⟩
  cases action with
  | place certificate seq trusted =>
    rcases mem_act_place.1 member with old | rfl
    · exact .inl ⟨record, old.1, rfl, rfl⟩
    · exact .inr ⟨trusted, rfl⟩
  | endorse lookup =>
    rw [act_endorse] at member
    split at member
    · exact .inl (marked member)
    · exact .inl ⟨record, member, rfl, rfl⟩
  | attempt check lookup =>
    have cases := attempted check store lookup
    simp only [act] at member
    generalize store.attempt check lookup = result at member cases
    cases cases with
    | verified certified => exact .inl (marked member)
    | _ => exact .inl ⟨record, member, rfl, rfl⟩
  | forget signer => exact .inl ⟨record, member, rfl, rfl⟩
  | discard lookup => exact .inl ⟨record, (records_remove store lookup).subset member, rfl, rfl⟩

/-- Every stored certificate was stored before the actions, or one of them placed it. -/
theorem stored_or_placed {store : Store} {past : List Action} {record : Record}
    (member : record ∈ (store.replay past).records) :
    (∃ old ∈ store.records, old.certificate = record.certificate ∧ old.seq = record.seq) ∨
      ∃ trusted, .place record.certificate record.seq trusted ∈ past := by
  induction past using List.reverseRecOn generalizing record with
  | nil => exact .inl ⟨record, member, rfl, rfl⟩
  | append_singleton past action ih =>
    rw [replay_append] at member
    rcases stored_or_placed_act member with ⟨old, stored, same, sameSeq⟩ | ⟨trusted, rfl⟩
    · rcases ih stored with ⟨first, atStart, sameToo, sameSeqToo⟩ | ⟨trusted, placed⟩
      · exact .inl ⟨first, atStart, sameToo.trans same, sameSeqToo.trans sameSeq⟩
      · exact .inr ⟨trusted, List.mem_append_left _ (same ▸ sameSeq ▸ placed)⟩
    · exact .inr ⟨trusted, List.mem_append_right _ List.mem_cons_self⟩

/-- Every stored certificate was placed. -/
theorem placed_of_mem {past : List Action} {record : Record} (member : record ∈ (after past).records) :
    ∃ trusted, .place record.certificate record.seq trusted ∈ past := by
  rcases stored_or_placed member with ⟨_, atStart, _⟩ | placed
  · cases atStart
  · exact placed

/-- A record that a signer certifies lies apart from it. -/
theorem signer_apart {past : List Action} {check : SignatureCheck} {lookup : Name} {subject signer : Record}
    (certified : Certified check (after past) lookup subject signer) :
    signer.name.overlaps subject.name = false := by
  rw [Bool.eq_false_iff]
  intro overlap
  have same := (separated_after past).unique (mem_of_find? certified.signed).1 (mem_of_find? certified.found).1 overlap
  have trusted := certified.trusted
  rw [same, certified.unverified] at trusted
  cases trusted

end Store

/-! ### Names of placed certificates -/

/-- A certificate of this name was placed. -/
def Placed (past : List Action) (name : Name) : Prop :=
  ∃ certificate seq trusted, .place certificate seq trusted ∈ past ∧ certificate.name = name

theorem Placed.mono {past later : List Action} {name : Name} (placed : Placed past name)
    (reaches : past ⊆ later) : Placed later name := by
  obtain ⟨certificate, seq, trusted, member, named⟩ := placed
  exact ⟨certificate, seq, trusted, reaches member, named⟩

/-- Other actions place nothing. -/
theorem placed_of_concat {past : List Action} {action : Action} {name : Name}
    (placed : Placed (past ++ [action]) name)
    (other : ∀ certificate seq trusted, action ≠ .place certificate seq trusted) : Placed past name := by
  obtain ⟨certificate, seq, trusted, member, named⟩ := placed
  rcases List.mem_append.1 member with old | now
  · exact ⟨certificate, seq, trusted, old, named⟩
  · exact absurd (List.mem_singleton.1 now).symm (other certificate seq trusted)

theorem placed_concat_place {past : List Action} {certificate : Certificate} {seq : UInt64} {trusted : Bool}
    {name : Name} (placed : Placed (past ++ [.place certificate seq trusted]) name) :
    Placed past name ∨ certificate.name = name := by
  obtain ⟨other, otherSeq, otherTrusted, member, named⟩ := placed
  rcases List.mem_append.1 member with old | now
  · exact .inl ⟨other, otherSeq, otherTrusted, old, named⟩
  · cases List.mem_singleton.1 now
    exact .inr named

theorem placed_name_of_mem {past : List Action} {record : Record} (member : record ∈ (Store.after past).records) :
    Placed past record.name := by
  obtain ⟨trusted, placed⟩ := Store.placed_of_mem member
  exact ⟨record.certificate, record.seq, trusted, placed, rfl⟩

theorem placed_of_waitee {past : List Action} {signer waitee : Name}
    (waits : waitee ∈ (Store.after past).waiting.waiteesOf signer) : Placed past waitee := by
  obtain ⟨certificate, seq, member, named, _⟩ := Store.placed_of_holds (WaitingList.holds_iff.2 waits)
  exact ⟨certificate, seq, false, member, named⟩

end RouteTrust
