import RouteTrust.Proofs.Stranding

/-!
Whether an unverified certificate stays registered with its signer. The cascade
follows the names that waited. A record that became verified through the longer name
of one that it replaced wakes the signers one component beyond that name too, and
these do not find it: whoever waits for them is deferred once more and then
forgotten with the entry (`Dropped`). Nothing else loses a registration
(`registered_of_not_dropped`), so the names in use decide whether one is ever lost.
-/
namespace RouteTrust

/-- The check refused the record, under the key of its signer, at a moment since which
    it has been stored. -/
structure RefusedAt (past before : List Action) (check : SignatureCheck) (lookup : Name) (record : Record) : Prop where
  moment : before ++ [.attempt check lookup] <+: past
  found : (Store.after before).find? lookup = some record
  failed : ((Store.after before).attempt check lookup).1 = .failed
  stored : StoredSince before past record

/-- The record was refused at some moment since which it has been stored. -/
def RefusedSince (past : List Action) (record : Record) : Prop :=
  ∃ before check lookup, RefusedAt past before check lookup record

/-- A verified record became so through a placed name that is one component longer than
    its own. A verified certificate apart from it is stored beside it. -/
structure Stale (past : List Action) (lookup : Name) (found : Record) : Prop where
  verified : ∃ before check, VerifiedAt past before (.attempt check lookup) found
  placed : Placed past lookup
  longer : ∃ version, lookup.components = found.name.components ++ [version]
  issued : ∃ issuer ∈ (Store.after past).records, issuer.verified = true ∧
    issuer.name.overlaps found.name = false

/-- The entry of the record's signer was forgotten while the record was stored. The
    cascade came to this signer through a stale lookup, which it extends by one
    component, so the verified record was out of its reach. -/
structure DroppedAt (past before : List Action) (lookup : Name) (found record : Record) : Prop where
  moment : before ++ [.forget record.signer] <+: past
  stored : StoredSince before past record
  stale : Stale before lookup found
  beyond : ∃ extra, record.signer.components = lookup.components ++ [extra]

/-- The record was once dropped with the entry of its signer. -/
def Dropped (past : List Action) (record : Record) : Prop :=
  ∃ before lookup found, DroppedAt past before lookup found record

section
variable {past : List Action} {record : Record} {next : Action}

private theorem RefusedSince.extend (refused : RefusedSince past record)
    (member : record ∈ (Store.after (past ++ [next])).records) : RefusedSince (past ++ [next]) record := by
  obtain ⟨before, check, lookup, event⟩ := refused
  exact ⟨before, check, lookup, event.moment.trans (List.prefix_append past [next]), event.found, event.failed,
    event.stored.extend member⟩

private theorem Dropped.extend (dropped : Dropped past record)
    (member : record ∈ (Store.after (past ++ [next])).records) : Dropped (past ++ [next]) record := by
  obtain ⟨before, lookup, found, event⟩ := dropped
  exact ⟨before, lookup, found, event.moment.trans (List.prefix_append past [next]), event.stored.extend member,
    event.stale, event.beyond⟩

private theorem Stale.extend {lookup : Name} {found : Record} (stale : Stale past lookup found)
    (stays : ∀ record ∈ (Store.after past).records, record.verified = true →
      record ∈ (Store.after (past ++ [next])).records) : Stale (past ++ [next]) lookup found := by
  obtain ⟨⟨before, check, event⟩, placed, longer, issuer, member, verified, apart⟩ := stale
  have kept := stays found event.mem event.verified
  exact ⟨⟨before, check, event.extend kept⟩, placed.mono (List.subset_append_left past [next]), longer,
    issuer, stays issuer member verified, verified, apart⟩

end

/-- The name leads to a verified record: its own one, or one that became verified
    through it as a stale name. -/
def Leads (past : List Action) (name : Name) : Prop :=
  ∃ found ∈ (Store.after past).records, found.verified = true ∧ (found.name = name ∨ Stale past name found)

theorem Leads.extend {past : List Action} {name : Name} {next : Action} (leads : Leads past name)
    (stays : ∀ record ∈ (Store.after past).records, record.verified = true →
      record ∈ (Store.after (past ++ [next])).records) : Leads (past ++ [next]) name := by
  obtain ⟨found, member, verified, origin⟩ := leads
  exact ⟨found, stays found member verified, verified, origin.imp_right fun stale => stale.extend stays⟩

namespace Store
variable {past : List Action} {check : SignatureCheck} {lookup signer : Name}

theorem verified_stays_attempt (past : List Action) (check : SignatureCheck) (lookup : Name) :
    ∀ record ∈ (after past).records, record.verified = true →
      record ∈ (after (past ++ [.attempt check lookup])).records := by
  intro record member verified
  rw [after_concat]
  exact mem_attempt_of_verified (separated_after past) member verified

theorem verified_stays_forget (past : List Action) (signer : Name) :
    ∀ record ∈ (after past).records, record.verified = true → record ∈ (after (past ++ [.forget signer])).records := by
  intro record member _
  rw [after_concat]
  exact member

/-- A lookup that verifies a record leads to it. -/
theorem leads_of_certified {subject issuer : Record} (placed : Placed past lookup)
    (certified : Certified check (after past) lookup subject issuer) :
    Leads (past ++ [.attempt check lookup]) lookup := by
  have verifies : Verifies (after past) (.attempt check lookup) subject.asVerified := .checked certified
  have member : subject.asVerified ∈ (after (past ++ [.attempt check lookup])).records := by
    rw [after_concat, act, attempt_of_certified certified]
    exact (mem_markVerified (separated_after past) certified.found).2 (.inl rfl)
  refine ⟨subject.asVerified, member, rfl, ?_⟩
  obtain ⟨_, resolves⟩ := mem_of_find? certified.found
  rcases Name.resolvesTo_iff.1 resolves with same | longer
  · exact .inl same.symm
  · obtain ⟨issuerStored, _⟩ := mem_of_find? certified.signed
    refine .inr ⟨⟨past, check, .now verifies member⟩, placed.mono (List.subset_append_left past _), longer, issuer,
      verified_stays_attempt past check lookup issuer issuerStored certified.trusted, certified.trusted, ?_⟩
    rw [Record.name_asVerified]
    exact signer_apart certified

/-- A signer that resolves to a name that leads somewhere finds the record there, unless
    the name is stale and the signer is longer still. -/
theorem trusted_or_beyond {name : Name} (leads : Leads past name) (resolves : signer.resolvesTo name = true) :
    (after past).trustedKey? signer ≠ none ∨
      ∃ found, Stale past name found ∧ ∃ extra, signer.components = name.components ++ [extra] := by
  obtain ⟨found, member, verified, origin⟩ := leads
  have reached (reaches : signer.resolvesTo found.name = true) : (after past).trustedKey? signer ≠ none := by
    intro untrusted
    rw [(trustedKey?_eq_none_iff (separated_after past)).1 untrusted found member reaches] at verified
    cases verified
  rcases origin with rfl | stale
  · exact .inl (reached resolves)
  · rcases Name.resolvesTo_iff.1 resolves with rfl | beyond
    · exact .inl (reached (Name.resolvesTo_iff.2 (.inr stale.longer)))
    · exact .inr ⟨found, stale, beyond⟩

end Store

/-- Where an unverified record stands in a cascade. -/
inductive Standing (store : Store) (past : List Action) (current : Option Name) (trying : List Name)
    (record : Record) : Prop
  /-- It is about to be tried. -/
  | pending (tries : record.name ∈ trying)
  /-- It waits for a signer whose waitees are not being tried. -/
  | waiting (waits : store.waiting.holds record.signer record.name = true) (other : current ≠ some record.signer)
  | refused (refused : RefusedSince past record)
  | dropped (dropped : Dropped past record)
  /-- It will be forgotten with the signer whose waitees are being tried. -/
  | doomed {lookup : Name} {found : Record} (busy : current = some record.signer) (stale : Stale past lookup found)
      (beyond : ∃ extra, record.signer.components = lookup.components ++ [extra])

/-- A traced cascade in which every name that is announced leads to a verified record,
    and every unverified record stands somewhere. -/
structure Registered (state : Spreading) : Prop extends Traced state where
  queued : ∀ name ∈ state.queue, Leads state.past name
  woken : ∀ signer, state.current = some signer ∨ signer ∈ state.waking →
    ∃ name, signer.resolvesTo name = true ∧ Leads state.past name
  standing : ∀ record ∈ state.store.records, record.verified = false →
    Standing state.store state.past state.current state.trying record

namespace Registered
variable {state last : Spreading}

/-- Where a certificate stands that stays unverified when it is tried. -/
theorem standing_attempt {check : SignatureCheck} {store : Store} {past : List Action}
    {announced queue waking : List Name} {current : Option Name} {waitee : Name} {trying : List Name}
    (held : Registered ⟨store, past, announced, queue, waking, current, waitee :: trying⟩) {record : Record}
    (found : store.find? waitee = some record) (member : record ∈ (store.attempt check waitee).2.records)
    (unverified : record.verified = false) :
    Standing (store.attempt check waitee).2 (past ++ [.attempt check waitee]) current trying record := by
  have replayed : store = Store.after past := held.replayed
  have cases := Store.attempted check store waitee
  generalize outcome : store.attempt check waitee = result at member cases
  cases cases with
  | missing absent =>
    rw [absent] at found
    cases found
  | alreadyVerified foundToo verified =>
    cases found.symm.trans foundToo
    rw [unverified] at verified
    cases verified
  | deferred foundToo _ untrusted =>
    cases found.symm.trans foundToo
    have waits : (store.defer record).waiting.holds record.signer record.name = true :=
      WaitingList.holds_add.2 (.inr ⟨rfl, rfl⟩)
    by_cases busy : current = some record.signer
    · -- The cascade came to this signer through a name that leads to a verified record.
      obtain ⟨name, resolves, leads⟩ := held.woken record.signer (.inl busy)
      rcases Store.trusted_or_beyond leads resolves with trusted | ⟨verified, stale, beyond⟩
      · exact absurd (replayed ▸ untrusted) trusted
      · exact .doomed busy (stale.extend (Store.verified_stays_attempt past check waitee)) beyond
    · exact .waiting waits busy
  | failed =>
    refine .refused ⟨past, check, waitee, List.prefix_refl _, replayed ▸ found, ?_, ?_⟩
    · rw [← replayed, outcome]
    · have before : record ∈ (Store.after past).records := replayed ▸ (Store.mem_of_find? found).1
      refine (StoredSince.now before).extend ?_
      rw [Store.after_concat, ← replayed, Store.act, outcome]
      exact member
  | verified certified =>
    cases found.symm.trans certified.found
    rcases (Store.mem_markVerified held.separated certified.found).1 member with same | ⟨_, different⟩
    · rw [same] at unverified
      cases unverified
    · exact absurd rfl different

private theorem attempt {check : SignatureCheck} {store : Store} {past : List Action}
    {announced queue waking : List Name} {current : Option Name} {waitee : Name} {trying : List Name}
    (held : Registered ⟨store, past, announced, queue, waking, current, waitee :: trying⟩) :
    Registered ⟨(store.attempt check waitee).2, past ++ [.attempt check waitee], announced,
      queue ++ (if (store.attempt check waitee).1 = .verified then [waitee] else []), waking, current, trying⟩ := by
  have replayed : store = Store.after past := held.replayed
  have stays := Store.verified_stays_attempt past check waitee
  refine ⟨held.toTraced.attempt, ?_, ?_, ?_⟩
  · intro name member
    rcases List.mem_append.1 member with old | new
    · exact (held.queued name old).extend stays
    · split at new
      · rename_i verified
        rw [List.mem_singleton.1 new]
        obtain ⟨subject, issuer, certified⟩ := Store.attempt_eq_verified_iff.1 verified
        exact Store.leads_of_certified (held.trying waitee List.mem_cons_self) (replayed ▸ certified)
      · cases new
  · intro signer busy
    obtain ⟨name, resolves, leads⟩ := held.woken signer busy
    exact ⟨name, resolves, leads.extend stays⟩
  · intro record member unverified
    have old := Store.mem_of_mem_attempt member unverified
    have now : record ∈ (Store.after (past ++ [.attempt check waitee])).records := by
      rw [Store.after_concat, ← replayed]
      exact member
    cases held.standing record old unverified with
    | pending tries =>
      rcases List.mem_cons.1 tries with same | later
      · exact held.standing_attempt (same ▸ Store.find?_name held.separated old) member unverified
      · exact .pending later
    | waiting waits other => exact .waiting (Store.holds_attempt waits) other
    | refused refused => exact .refused (refused.extend now)
    | dropped dropped => exact .dropped (dropped.extend now)
    | doomed busy stale beyond => exact .doomed busy (stale.extend stays) beyond

/-- Every step of a cascade keeps all records standing somewhere. -/
theorem next {check : SignatureCheck} (held : Registered state) (step : Spreading.Next check state last) :
    Registered last := by
  have traced := held.toTraced.next step
  cases step with
  | announce store past announced name queue =>
    refine ⟨traced, ?_, ?_, ?_⟩
    · intro other member
      exact held.queued other (List.mem_cons_of_mem _ member)
    · rintro signer (present | later)
      · cases present
      · exact ⟨name, (Store.mem_signersOf.1 later).2, held.queued name List.mem_cons_self⟩
    · intro record member unverified
      cases held.standing record member unverified with
      | pending tries => cases tries
      | waiting waits _ => exact .waiting waits (by simp)
      | refused refused => exact .refused refused
      | dropped dropped => exact .dropped dropped
      | doomed busy _ _ => cases busy
  | wake store past announced queue signer waking =>
    refine ⟨traced, held.queued, ?_, ?_⟩
    · rintro other (present | later)
      · cases present
        exact held.woken signer (.inr List.mem_cons_self)
      · exact held.woken other (.inr (List.mem_cons_of_mem _ later))
    · intro record member unverified
      cases held.standing record member unverified with
      | pending tries => cases tries
      | waiting waits _ =>
        by_cases own : record.signer = signer
        · exact .pending (own ▸ WaitingList.holds_iff.1 waits)
        · exact .waiting waits fun same => own (Option.some.inj same).symm
      | refused refused => exact .refused refused
      | dropped dropped => exact .dropped dropped
      | doomed busy _ _ => cases busy
  | attempt => exact held.attempt
  | forget store past announced queue waking signer =>
    have stays := Store.verified_stays_forget past signer
    refine ⟨traced, ?_, ?_, ?_⟩
    · intro name member
      exact (held.queued name member).extend stays
    · rintro other (present | later)
      · cases present
      · obtain ⟨name, resolves, leads⟩ := held.woken other (.inr later)
        exact ⟨name, resolves, leads.extend stays⟩
    · intro record member unverified
      have before : record ∈ (Store.after past).records := held.replayed ▸ member
      have now : record ∈ (Store.after (past ++ [.forget signer])).records := by
        rw [Store.after_concat]
        exact before
      cases held.standing record member unverified with
      | pending tries => cases tries
      | waiting waits other =>
        refine .waiting (WaitingList.holds_remove.2 ⟨waits, ?_⟩) (by simp)
        intro same
        exact other (congrArg some same).symm
      | refused refused => exact .refused (refused.extend now)
      | dropped dropped => exact .dropped (dropped.extend now)
      | doomed busy stale beyond =>
        cases busy
        exact .dropped ⟨past, _, _, List.prefix_refl _, (StoredSince.now before).extend now, stale, beyond⟩

/-- One action between cascades that leaves the waiting list as it is. -/
theorem act {store : Store} {past : List Action} (held : Registered (.start store past [] [])) {action : Action}
    {queue trying : List Name} (traced : Traced ⟨store.act action, past ++ [action], [], queue, [], none, trying⟩)
    (waiting : (store.act action).waiting = store.waiting)
    (queued : ∀ name ∈ queue, ∃ record ∈ (store.act action).records, record.verified = true ∧ record.name = name)
    (tries : ∀ certificate seq, action = .place certificate seq false → certificate.name ∈ trying) :
    Registered ⟨store.act action, past ++ [action], [], queue, [], none, trying⟩ := by
  have replayed : store.act action = Store.after (past ++ [action]) := traced.replayed
  refine ⟨traced, ?_, ?_, ?_⟩
  · intro name member
    obtain ⟨record, stored, verified, named⟩ := queued name member
    exact ⟨record, replayed ▸ stored, verified, .inl named⟩
  · rintro signer (present | later)
    · cases present
    · cases later
  · intro record member unverified
    rcases Store.placed_of_mem_act member unverified with old | placed
    · have now : record ∈ (Store.after (past ++ [action])).records := replayed ▸ member
      cases held.standing record old unverified with
      | pending tries => cases tries
      | waiting waits _ => exact .waiting (waiting ▸ waits) (by simp)
      | refused refused => exact .refused (refused.extend now)
      | dropped dropped => exact .dropped (dropped.extend now)
      | doomed busy _ _ => cases busy
    · exact .pending (tries record.certificate record.seq placed)

/-- The opening of a call tries the certificate that it places, and announces only
    names that lead to a verified record. -/
theorem opening {store : Store} {past : List Action} (held : Registered (.start store past [] []))
    (operation : Operation) :
    Registered (.start (store.replay (operation.opening store).1) (past ++ (operation.opening store).1) []
      (operation.opening store).2) := by
  have unchanged : Registered (.start store (past ++ []) [] []) := by
    rw [List.append_nil]
    exact held
  cases operation with
  | insert check certificate seq trusted =>
    simp only [Operation.opening]
    split
    · exact unchanged
    · cases trusted with
      | true =>
        rw [if_pos rfl]
        refine held.act (held.toTraced.place certificate seq true (List.nil_subset _)) rfl ?_ (by simp)
        intro name member
        rw [List.mem_singleton.1 member]
        exact ⟨⟨certificate, seq, true⟩, Store.mem_act_place.2 (.inr rfl), rfl, rfl⟩
      | false =>
        rw [if_neg Bool.false_ne_true]
        have placed : Registered ⟨store.replace certificate seq, past ++ [.place certificate seq false], [], [], [],
            none, [certificate.name]⟩ := by
          refine held.act (held.toTraced.place certificate seq false (List.Subset.refl _)) rfl ?_ ?_
          · intro name member
            cases member
          · intro other otherSeq same
            cases same
            exact List.mem_cons_self
        have inOrder := List.append_assoc past [.place certificate seq false] [.attempt check certificate.name]
        exact inOrder ▸ placed.attempt
  | setVerified check lookup verified =>
    simp only [Operation.opening]
    split
    · rename_i record found
      split
      · have marks : store.act (.endorse lookup) = store.markVerified record.name := by rw [Store.act_endorse, found]
        refine held.act (held.toTraced.still (.endorse lookup) (by simp)) (by rw [marks]; rfl) ?_ (by simp)
        intro name member
        rw [List.mem_singleton.1 member, marks]
        have own := Store.find?_name held.separated (Store.mem_of_find? found).1
        exact ⟨record.asVerified, (Store.mem_markVerified held.separated own).2 (.inl rfl), rfl, record.name_asVerified⟩
      · exact unchanged
    · exact unchanged
  | remove lookup =>
    refine held.act (held.toTraced.still (.discard lookup) (by simp)) (Store.waiting_remove store lookup) ?_ ?_
    · intro name member
      cases member
    · intro certificate seq same
      cases same

end Registered

namespace Store

private theorem registered_trace (operations : List Operation) :
    Registered (.start (empty.perform operations) (empty.trace operations) [] []) := by
  refine Spreading.keeps_trace Registered ?_ ?_ ?_ ?_ operations
  · refine ⟨Traced.empty [] [], ?_, ?_, ?_⟩
    · intro name member
      cases member
    · rintro signer (present | later)
      · cases present
      · cases later
    · intro record member
      cases member
  · intro operation store past held
    exact held.opening operation
  · intro check state next step held
    exact held.next step
  · intro store past announced held
    exact ⟨⟨held.replayed, held.tried, held.trying⟩, held.queued, held.woken, held.standing⟩

/-- Only refusals and forgotten entries take a certificate from the waiting list. -/
theorem registered_of_not_dropped {operations : List Operation} {record : Record}
    (member : record ∈ (empty.perform operations).records) (unverified : record.verified = false)
    (notRefused : ¬ RefusedSince (empty.trace operations) record) :
    (empty.perform operations).waiting.holds record.signer record.name = true ∨
      Dropped (empty.trace operations) record := by
  cases (registered_trace operations).standing record member unverified with
  | pending tries => cases tries
  | waiting waits _ => exact .inl waits
  | refused refused => exact absurd refused notRefused
  | dropped dropped => exact .inr dropped
  | doomed busy _ _ => cases busy

private theorem not_refusedSince {operations : List Operation}
    (accepts : ∀ operation ∈ operations, ∀ certificate key, operation.check certificate key = true)
    (record : Record) : ¬ RefusedSince (empty.trace operations) record := by
  rintro ⟨before, check, lookup, event⟩
  have tried : .attempt check lookup ∈ empty.trace operations :=
    event.moment.subset (List.mem_append_right before List.mem_cons_self)
  obtain ⟨operation, called, prompts⟩ := prompts_of_mem_trace tried
  have failed := event.failed
  have cases := attempted check (after before) lookup
  generalize (after before).attempt check lookup = result at failed cases
  cases cases with
  | failed _ _ _ _ refused =>
    cases prompts
    rw [accepts operation called] at refused
    cases refused
  | _ => cases failed

end Store

/-! ### Names that drop nobody -/

private theorem Name.exists_longer_ne (long other : Name) :
    ∃ far extra, far.components = long.components ++ [extra] ∧ far ≠ other := by
  have first : (long.push "x").components = long.components ++ ["x"] := Name.components_push (by decide)
  have second : (long.push "y").components = long.components ++ ["y"] := Name.components_push (by decide)
  by_cases taken : long.push "x" = other
  · refine ⟨long.push "y", "y", second, ?_⟩
    rintro rfl
    rw [Name.ext_iff, first, second] at taken
    simp at taken
  · exact ⟨long.push "x", "x", first, taken⟩

/-- After these calls every unverified certificate waits for its signer, unless it was
    refused since it was placed. -/
def KeepsWaiters (operations : List Operation) : Prop :=
  ∀ record ∈ (Store.empty.perform operations).records, record.verified = false →
    ¬ RefusedSince (Store.empty.trace operations) record →
      (Store.empty.perform operations).waiting.holds record.signer record.name = true

namespace Store

/-- To drop a waiter takes a stale name, an issuer that verified a record through it, and
    a waiter apart from both. -/
theorem keepsWaiters_of_no_room {inUse : Name → Prop}
    (noRoom : ∀ short long issuer waiter, inUse short → inUse long → inUse issuer → inUse waiter →
      long.resolvesTo short = true → long ≠ short → issuer.overlaps short = false →
      waiter.overlaps short = false → waiter.overlaps issuer = true)
    {operations : List Operation} (inserts : InsertsOnly inUse operations) : KeepsWaiters operations := by
  intro record member unverified notRefused
  refine (registered_of_not_dropped member unverified notRefused).resolve_right ?_
  rintro ⟨before, lookup, found, event⟩
  obtain ⟨⟨earlier, check, verifiedAt⟩, placed, ⟨version, longer⟩, issuer, issuerStored, trusted, issuerApart⟩ :=
    event.stale
  have begins : before <+: empty.trace operations := (List.prefix_append before _).trans event.moment
  have stored : record ∈ (after before).records := event.stored before (List.prefix_refl before) begins
  have used {name : Name} (known : Placed before name) : inUse name :=
    inUse_of_placed inserts (known.mono begins.subset)
  have apart {other : Record} (otherStored : other ∈ (after before).records) (verified : other.verified = true) :
      record.name.overlaps other.name = false := by
    rw [Bool.eq_false_iff]
    intro overlap
    rw [← (separated_after before).unique stored otherStored overlap, unverified] at verified
    cases verified
  have overlap := noRoom found.name lookup issuer.name record.name (used (placed_name_of_mem verifiedAt.mem))
    (used placed) (used (placed_name_of_mem issuerStored)) (used (placed_name_of_mem stored))
    (Name.resolvesTo_iff.2 (.inr ⟨version, longer⟩)) (Name.ne_of_longer longer) issuerApart
    (apart verifiedAt.mem verifiedAt.verified)
  rw [apart issuerStored trusted] at overlap
  cases overlap

/-- A certificate of a short name takes the place of one of a longer name that waits for
    the same signer. -/
def renewalRun (short long signer : Name) : List Operation :=
  [.insert (fun _ _ => true) (.blank long signer) 1 false, .insert (fun _ _ => true) (.blank short signer) 2 false]

theorem perform_renewalRun {short long : Name} (longer : long.resolvesTo short = true) (differ : long ≠ short)
    (signer : Name) :
    empty.perform (renewalRun short long signer) =
      ⟨[⟨.blank short signer, 2, false⟩], ⟨[⟨signer, [long, short]⟩]⟩⟩ := by
  have overlap : long.overlaps short = true := Name.overlaps_iff.2 (.inl longer)
  have first (check : SignatureCheck) : (empty.insert check (.blank long signer) 1 false).store =
      ⟨[⟨.blank long signer, 1, false⟩], ⟨[⟨signer, [long]⟩]⟩⟩ := insert_empty check (.blank long signer) 1
  have second (check : SignatureCheck) :
      (Store.insert check ⟨[⟨.blank long signer, 1, false⟩], ⟨[⟨signer, [long]⟩]⟩⟩ (.blank short signer) 2 false).store =
        ⟨[⟨.blank short signer, 2, false⟩], ⟨[⟨signer, [long, short]⟩]⟩⟩ := by
    refine (insert_over overlap (by decide) check _).trans ?_
    simp [WaitingList.add_cons, WaitingEntry.register, differ.symm]
  simp only [renewalRun, perform, Operation.run, first, second]

/-- A certificate of a short name takes the place of one of a longer name, and one more
    waits for a signer that is longer still. The signer of the first two arrives last. -/
def droppedRun (short long far issuer waiter : Name) : List Operation :=
  [.insert (fun _ _ => true) (.blank long issuer) 1 false, .insert (fun _ _ => true) (.blank short issuer) 2 false,
    .insert (fun _ _ => true) (.blank waiter far) 3 false, .insert (fun _ _ => true) (.blank issuer issuer) 4 true]

private theorem perform_droppedRun {short long far issuer waiter : Name} {extra : String}
    (longer : long.resolvesTo short = true) (differ : long ≠ short)
    (beyond : far.components = long.components ++ [extra]) (other : far ≠ issuer)
    (issuerApart : issuer.overlaps short = false) (waiterApart : waiter.overlaps short = false)
    (apart : waiter.overlaps issuer = false) :
    empty.perform (droppedRun short long far issuer waiter) =
      ⟨[⟨.blank short issuer, 2, true⟩, ⟨.blank waiter far, 3, false⟩, ⟨.blank issuer issuer, 4, true⟩], ⟨[]⟩⟩ := by
  obtain ⟨issuerShort, shortIssuer⟩ := Name.overlaps_eq_false_iff.1 issuerApart
  obtain ⟨waiterShort, shortWaiter⟩ := Name.overlaps_eq_false_iff.1 waiterApart
  obtain ⟨waiterIssuer, issuerWaiter⟩ := Name.overlaps_eq_false_iff.1 apart
  have farLong : far.resolvesTo long = true := Name.resolvesTo_iff.2 (.inr ⟨extra, beyond⟩)
  obtain ⟨version, split⟩ := (Name.resolvesTo_iff.1 longer).resolve_left differ
  have farShort : far.resolvesTo short = false := Name.not_resolvesTo_of_beyond split beyond
  have farIssuer : far.resolvesTo issuer = false := by
    rw [Bool.eq_false_iff]
    intro reaches
    obtain ⟨another, again⟩ := (Name.resolvesTo_iff.1 reaches).resolve_left other
    -- Then the issuer has the longer name itself.
    rw [beyond] at again
    rw [← Name.ext_components (List.append_inj' again rfl).1, longer] at issuerShort
    cases issuerShort
  have shortApart : short.overlaps waiter = false := Name.overlaps_comm short waiter ▸ waiterApart
  have shortApartToo : short.overlaps issuer = false := Name.overlaps_comm short issuer ▸ issuerApart
  have renewed := perform_renewalRun longer differ issuer
  -- The stores after the two calls that follow.
  have third (check : SignatureCheck) :
      (Store.insert check ⟨[⟨.blank short issuer, 2, false⟩], ⟨[⟨issuer, [long, short]⟩]⟩⟩
        (.blank waiter far) 3 false).store =
        ⟨[⟨.blank short issuer, 2, false⟩, ⟨.blank waiter far, 3, false⟩],
          ⟨[⟨issuer, [long, short]⟩, ⟨far, [waiter]⟩]⟩⟩ := by
    refine (insert_of_unverified ?_ ?_ ?_).trans ?_
    · exact List.pairwise_singleton _ _
    · simp
    · simp [holdsFresher]
    · simp [WaitingList.add_nil, WaitingList.add_cons, Record.name, shortApart, other.symm]
  have fourth :
      (Store.insert (fun _ _ => true)
        ⟨[⟨.blank short issuer, 2, false⟩, ⟨.blank waiter far, 3, false⟩],
          ⟨[⟨issuer, [long, short]⟩, ⟨far, [waiter]⟩]⟩⟩ (.blank issuer issuer) 4 true).store =
        ⟨[⟨.blank short issuer, 2, true⟩, ⟨.blank waiter far, 3, false⟩, ⟨.blank issuer issuer, 4, true⟩], ⟨[]⟩⟩ := by
    rcases Bool.eq_false_or_eq_true (far.resolvesTo waiter) with found | found
    all_goals
      simp [Store.insert, holdsFresher, replace, attempt, find?, trustedKey?, Record.name, Record.signer, longer,
        issuerShort, issuerWaiter, shortApartToo, apart, waiterShort, farLong, farShort, farIssuer, other, found,
        markVerified, markFirst, spread, cascade_cons, wakeAll, wake, attemptAll_cons, signersOf, defer,
        WaitingList.add_cons, WaitingEntry.register, WaitingList.signers, WaitingList.waiteesOf, WaitingList.get?,
        WaitingList.remove_eq]
  simp only [renewalRun, perform] at renewed
  simp only [droppedRun, perform, renewed]
  simp only [Operation.run, third, fourth]

private theorem not_keepsWaiters_droppedRun {short long far issuer waiter : Name} {extra : String}
    (longer : long.resolvesTo short = true) (differ : long ≠ short)
    (beyond : far.components = long.components ++ [extra]) (other : far ≠ issuer)
    (issuerApart : issuer.overlaps short = false) (waiterApart : waiter.overlaps short = false)
    (apart : waiter.overlaps issuer = false) : ¬ KeepsWaiters (droppedRun short long far issuer waiter) := by
  intro keeps
  have performed := perform_droppedRun longer differ beyond other issuerApart waiterApart apart
  have stored : ⟨.blank waiter far, 3, false⟩ ∈ (empty.perform (droppedRun short long far issuer waiter)).records := by
    simp [performed]
  have waits := keeps _ stored rfl (not_refusedSince (by simp [droppedRun, Operation.check]) _)
  rw [performed] at waits
  cases waits

/-- How far waiters are kept. After any run an unverified certificate that was not
    refused since it was placed waits for its signer, unless it was dropped. Names in
    use drop nobody in any run exactly if, whenever two of them differ by one component,
    all others in use that lie apart from the shorter one overlap each other. -/
theorem registered_exactly (operations : List Operation) (inUse : Name → Prop) :
    (∀ record ∈ (empty.perform operations).records, record.verified = false →
      ¬ RefusedSince (empty.trace operations) record →
        (empty.perform operations).waiting.holds record.signer record.name = true ∨
          Dropped (empty.trace operations) record) ∧
    ((∀ run, InsertsOnly inUse run → KeepsWaiters run) ↔
      ∀ short long issuer waiter, inUse short → inUse long → inUse issuer → inUse waiter →
        long.resolvesTo short = true → long ≠ short → issuer.overlaps short = false →
        waiter.overlaps short = false → waiter.overlaps issuer = true) := by
  refine ⟨?_, ?_, ?_⟩
  · intro record member unverified notRefused
    exact registered_of_not_dropped member unverified notRefused
  · intro keeps short long issuer waiter shortInUse longInUse issuerInUse waiterInUse longer differ issuerApart
      waiterApart
    rw [← Bool.not_eq_false]
    intro apart
    obtain ⟨far, extra, beyond, other⟩ := Name.exists_longer_ne long issuer
    refine not_keepsWaiters_droppedRun longer differ beyond other issuerApart waiterApart apart (keeps _ ?_)
    simp [droppedRun, shortInUse, longInUse, issuerInUse, waiterInUse]
  · intro noRoom run inserts
    exact keepsWaiters_of_no_room noRoom inserts

/-- One that waits beyond the versioned name of a site is dropped. Names of three
    components drop nobody. -/
theorem registered_exactly_site :
    Dropped (empty.trace (droppedRun (.ofList ["a", "KEY", "k"]) (.ofList ["a", "KEY", "k", "v"])
      (.ofList ["a", "KEY", "k", "v", "w"]) (.ofList ["s", "KEY", "1"]) (.ofList ["c", "KEY", "1"])))
      ⟨.sample ["c", "KEY", "1"] ["a", "KEY", "k", "v", "w"], 3, false⟩ ∧
    KeepsWaiters [.insert (fun _ _ => true) (.sample ["c", "KEY", "1"] ["a", "KEY", "k", "v", "w"]) 1 false,
      .insert (fun _ _ => true) (.sample ["s", "KEY", "1"] ["s", "KEY", "1"]) 2 true] := by
  refine ⟨?_, ?_⟩
  · have performed : empty.perform (droppedRun (.ofList ["a", "KEY", "k"]) (.ofList ["a", "KEY", "k", "v"])
        (.ofList ["a", "KEY", "k", "v", "w"]) (.ofList ["s", "KEY", "1"]) (.ofList ["c", "KEY", "1"])) = _ :=
      perform_droppedRun (by decide +kernel) (by decide +kernel) rfl (by decide +kernel) (by decide +kernel)
        (by decide +kernel) (by decide +kernel)
    refine ((registered_exactly _ fun _ => True).1 _ ?_ rfl ?_).resolve_left ?_
    · simp [performed, Certificate.sample]
    · exact not_refusedSince (by simp [droppedRun, Operation.check]) _
    · simp [performed, WaitingList.holds, WaitingList.waiteesOf, WaitingList.get?]
  · refine (registered_exactly [] (·.length = 3)).2.2 ?_ _ ?_
    · intro short long issuer waiter three threeToo _ _ longer differ
      obtain ⟨version, split⟩ := (Name.resolvesTo_iff.1 longer).resolve_left differ
      have lengths := Name.length_longer split
      omega
    · simp [Certificate.sample, Name.length]

end Store
end RouteTrust
