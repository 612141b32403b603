import RouteTrust.Proofs.Spreading

/-!
Whether the waiting list is drained. A waiting signer is stranded if it resolves to
a record that is verified already. The cascade follows the names that waited, not
those of the records they found: a record that became verified through the longer
name of one that it replaced passes by the signers that wait for it under another
name, and nothing else strands a signer (`stranded_passedBy`). So the names in use
decide whether a signer can ever be stranded.
-/
namespace RouteTrust

/-- Somebody waits for a signer that resolves to a verified record. -/
structure Stranded (store : Store) (signer : Name) (record : Record) : Prop where
  waits : signer ∈ store.waiting.signers
  member : record ∈ store.records
  resolves : signer.resolvesTo record.name = true
  verified : record.verified = true

/-- The record became verified through a lookup that the signer does not resolve to. -/
def PassedBy (past : List Action) (signer : Name) (record : Record) : Prop :=
  ∃ before check lookup, VerifiedAt past before (.attempt check lookup) record ∧
    signer.resolvesTo lookup = false

namespace Store

/-- An action strands a signer only by verifying a record. Nobody begins to wait for
    a record that is verified. -/
theorem stranded_act {store : Store} (separated : Separated store.records) {action : Action} {signer : Name}
    {record : Record} (stranded : Stranded (store.act action) signer record) :
    (Stranded store signer record ∨ Verifies store action record) ∧ action ≠ .forget signer := by
  have origin := verifies_of_mem_act separated stranded.member stranded.verified
  have waited : signer ∈ store.waiting.signers ∧ action ≠ .forget signer := by
    have waits := stranded.waits
    rcases waiting_act store action with same | ⟨gone, rfl, same⟩ |
      ⟨check, lookup, subject, rfl, found, _, untrusted, same⟩
    · rw [same] at waits
      refine ⟨waits, ?_⟩
      rintro rfl
      have removed := (WaitingList.mem_signers_remove.1 stranded.waits).2
      exact removed rfl
    · rw [same, WaitingList.mem_signers_remove] at waits
      refine ⟨waits.1, ?_⟩
      intro equal
      cases equal
      exact waits.2 rfl
    · rw [same, WaitingList.mem_signers_add] at waits
      refine ⟨?_, Action.noConfusion⟩
      rcases waits with old | rfl
      · exact old
      -- A record is deferred only while no verified one is found under its locator.
      · rcases origin with inStore | verifies
        · have unverified := (trustedKey?_eq_none_iff separated).1 untrusted record inStore stranded.resolves
          rw [stranded.verified] at unverified
          cases unverified
        · cases verifies with
          | checked certified =>
            rw [Option.some.inj (certified.found.symm.trans found)] at certified
            have key := trustedKey?_eq_some_iff.2 ⟨_, certified.signed, certified.trusted, rfl⟩
            rw [untrusted] at key
            cases key
  refine ⟨?_, waited.2⟩
  rcases origin with inStore | verifies
  · exact .inl ⟨waited.1, inStore, stranded.resolves, stranded.verified⟩
  · exact .inr verifies

end Store

/-- The cascade still comes to this signer. -/
def Spreading.Owes (state : Spreading) (signer : Name) : Prop :=
  state.current = some signer ∨ signer ∈ state.waking ∨ ∃ name ∈ state.queue, signer.resolvesTo name = true

/-- A traced cascade in which every stranded signer is owed or was passed by. -/
structure Draining (state : Spreading) : Prop extends Traced state where
  drained : ∀ signer record, Stranded state.store signer record →
    state.Owes signer ∨ PassedBy state.past signer record

namespace Draining
variable {state last : Spreading}

/-- One action of a call. Who was owed stays so unless the action forgets it, and who
    waits for a newly verified record becomes owed or is passed by. -/
theorem act (draining : Draining state) (traced : Traced last) {action : Action}
    (acts : last.store = state.store.act action) (past : last.past = state.past ++ [action])
    (owes : ∀ signer, state.Owes signer → last.Owes signer ∨ action = .forget signer)
    (spreads : ∀ signer record, Verifies state.store action record → signer.resolvesTo record.name = true →
      last.Owes signer ∨ ∃ check lookup, action = .attempt check lookup ∧ signer.resolvesTo lookup = false) :
    Draining last := by
  refine ⟨traced, ?_⟩
  intro signer record stranded
  have member : record ∈ (Store.after (state.past ++ [action])).records := by
    rw [← past, ← traced.replayed]
    exact stranded.member
  rw [acts] at stranded
  obtain ⟨origin, kept⟩ := Store.stranded_act draining.separated stranded
  rcases origin with old | verifies
  · rcases draining.drained signer record old with owed | ⟨before, check, lookup, event, other⟩
    · exact .inl ((owes signer owed).resolve_right kept)
    · rw [past]
      exact .inr ⟨before, check, lookup, event.extend member, other⟩
  · rcases spreads signer record verifies stranded.resolves with owed | ⟨check, lookup, rfl, other⟩
    · exact .inl owed
    · rw [past]
      exact .inr ⟨_, check, lookup, .now (draining.replayed ▸ verifies) member, other⟩

private theorem attempt {check : SignatureCheck} {store : Store} {past : List Action}
    {announced queue waking : List Name} {current : Option Name} {waitee : Name} {trying : List Name}
    (draining : Draining ⟨store, past, announced, queue, waking, current, waitee :: trying⟩) :
    Draining ⟨(store.attempt check waitee).2, past ++ [.attempt check waitee], announced,
      queue ++ (if (store.attempt check waitee).1 = .verified then [waitee] else []), waking, current, trying⟩ := by
  have acts : (store.attempt check waitee).2 = store.act (.attempt check waitee) := rfl
  refine draining.act draining.toTraced.attempt acts rfl ?_ ?_
  · rintro signer (present | later | ⟨name, member, resolves⟩)
    · exact .inl (.inl present)
    · exact .inl (.inr (.inl later))
    · exact .inl (.inr (.inr ⟨name, List.mem_append_left _ member, resolves⟩))
  · intro signer record verifies _
    by_cases reached : signer.resolvesTo waitee = true
    · cases verifies with
      | checked certified =>
        refine .inl (.inr (.inr ⟨waitee, ?_, reached⟩))
        simp [Store.attempt_of_certified certified]
    · exact .inr ⟨check, waitee, rfl, Bool.eq_false_iff.2 reached⟩

/-- Every step of a cascade keeps on draining. -/
theorem next {check : SignatureCheck} (draining : Draining state) (step : Spreading.Next check state last) :
    Draining last := by
  have traced := draining.toTraced.next step
  cases step with
  | announce store past announced name queue =>
    refine ⟨traced, ?_⟩
    intro signer record stranded
    rcases draining.drained signer record stranded with (present | later | ⟨other, member, resolves⟩) | passed
    · cases present
    · cases later
    · rcases List.mem_cons.1 member with rfl | inQueue
      · exact .inl (.inr (.inl (Store.mem_signersOf.2 ⟨stranded.waits, resolves⟩)))
      · exact .inl (.inr (.inr ⟨other, inQueue, resolves⟩))
    · exact .inr passed
  | wake store past announced queue signer waking =>
    refine ⟨traced, ?_⟩
    intro other record stranded
    rcases draining.drained other record stranded with (present | later | inQueue) | passed
    · cases present
    · rcases List.mem_cons.1 later with rfl | still
      · exact .inl (.inl rfl)
      · exact .inl (.inr (.inl still))
    · exact .inl (.inr (.inr inQueue))
    · exact .inr passed
  | attempt => exact draining.attempt
  | forget store past announced queue waking signer =>
    refine draining.act traced rfl rfl ?_ ?_
    · rintro other (present | later | inQueue)
      · cases present
        exact .inr rfl
      · exact .inl (.inr (.inl later))
      · exact .inl (.inr (.inr inQueue))
    · intro other record verifies
      cases verifies

/-- The opening of a call puts whom it owes into the queue. -/
theorem opening {store : Store} {past : List Action} (draining : Draining (.start store past [] []))
    (operation : Operation) :
    Draining (.start (store.replay (operation.opening store).1) (past ++ (operation.opening store).1) []
      (operation.opening store).2) := by
  have nobody {signer : Name} (owed : (Spreading.start store past [] []).Owes signer) : False := by
    rcases owed with present | later | ⟨_, member, _⟩
    · cases present
    · cases later
    · cases member
  have unchanged : Draining (.start store (past ++ []) [] []) := by
    rw [List.append_nil]
    exact draining
  cases operation with
  | insert check certificate seq trusted =>
    simp only [Operation.opening]
    split
    · exact unchanged
    · cases trusted with
      | true =>
        rw [if_pos rfl]
        refine draining.act (draining.place certificate seq true (List.nil_subset _)) rfl rfl
          (fun _ owed => (nobody owed).elim) ?_
        intro signer record verifies resolves
        cases verifies
        exact .inl (.inr (.inr ⟨certificate.name, List.mem_cons_self, resolves⟩))
      | false =>
        rw [if_neg Bool.false_ne_true]
        have placed : Draining ⟨store.replace certificate seq, past ++ [.place certificate seq false], [], [], [],
            none, [certificate.name]⟩ := by
          refine draining.act (draining.place certificate seq false (List.Subset.refl _)) rfl rfl
            (fun _ owed => (nobody owed).elim) ?_
          intro signer record verifies
          cases verifies
        have inOrder := List.append_assoc past [.place certificate seq false] [.attempt check certificate.name]
        exact inOrder ▸ placed.attempt
  | setVerified check lookup verified =>
    simp only [Operation.opening]
    split
    · rename_i record found
      split
      · refine draining.act (draining.still (.endorse lookup) (by simp)) rfl rfl (fun _ owed => (nobody owed).elim) ?_
        intro signer other verifies resolves
        cases verifies with
        | endorsed foundToo =>
          rw [Option.some.inj (foundToo.symm.trans found)] at resolves
          exact .inl (.inr (.inr ⟨record.name, List.mem_cons_self, resolves⟩))
      · exact unchanged
    · exact unchanged
  | remove lookup =>
    refine draining.act (draining.still (.discard lookup) (by simp)) rfl rfl (fun _ owed => (nobody owed).elim) ?_
    intro signer record verifies
    cases verifies

end Draining

namespace Store

/-- Between calls nobody is owed anything. -/
theorem draining_trace (operations : List Operation) :
    Draining (.start (empty.perform operations) (empty.trace operations) [] []) := by
  refine Spreading.keeps_trace Draining ?_ ?_ ?_ ?_ operations
  · refine ⟨Traced.empty [] [], ?_⟩
    intro signer record stranded
    cases stranded.waits
  · intro operation store past draining
    exact draining.opening operation
  · intro check state next step draining
    exact draining.next step
  · intro store past announced draining
    exact ⟨⟨draining.replayed, draining.tried, draining.trying⟩, draining.drained⟩

theorem stranded_passedBy {operations : List Operation} {signer : Name} {record : Record}
    (stranded : Stranded (empty.perform operations) signer record) :
    PassedBy (empty.trace operations) signer record := by
  rcases (draining_trace operations).drained signer record stranded with (present | later | ⟨_, member, _⟩) | passed
  · cases present
  · cases later
  · cases member
  · exact passed

/-- The lookup that passed a signer by was the name of a placed certificate, one
    component longer than that of the record. -/
theorem passedBy_longer {operations : List Operation} {signer : Name} {record : Record}
    (passed : PassedBy (empty.trace operations) signer record) (resolves : signer.resolvesTo record.name = true) :
    ∃ before check lookup version, VerifiedAt (empty.trace operations) before (.attempt check lookup) record ∧
      Placed (empty.trace operations) lookup ∧
      lookup.components = record.name.components ++ [version] ∧ signer.resolvesTo lookup = false := by
  obtain ⟨before, check, lookup, event, other⟩ := passed
  have placed := (draining_trace operations).tried check lookup event.action_mem
  have reaches : lookup.resolvesTo record.name = true := by
    cases event.verifies with
    | checked certified => exact (mem_of_find? certified.found).2
  rcases Name.resolvesTo_iff.1 reaches with same | ⟨version, longer⟩
  · rw [same, resolves] at other
    cases other
  · exact ⟨before, check, lookup, version, event, placed, longer, other⟩

end Store

/-! ### Names that strand nobody -/

/-- Calls that insert certificates of names in use only. -/
def InsertsOnly (inUse : Name → Prop) (operations : List Operation) : Prop :=
  ∀ check certificate seq trusted, .insert check certificate seq trusted ∈ operations → inUse certificate.name

@[simp] theorem insertsOnly_nil {inUse : Name → Prop} : InsertsOnly inUse [] := by
  intro check certificate seq trusted member
  cases member

@[simp] theorem insertsOnly_cons_insert {inUse : Name → Prop} {check : SignatureCheck} {certificate : Certificate}
    {seq : UInt64} {trusted : Bool} {rest : List Operation} :
    InsertsOnly inUse (.insert check certificate seq trusted :: rest) ↔
      inUse certificate.name ∧ InsertsOnly inUse rest := by
  constructor
  · intro inserts
    refine ⟨inserts check certificate seq trusted List.mem_cons_self, ?_⟩
    intro otherCheck other otherSeq otherTrusted member
    exact inserts otherCheck other otherSeq otherTrusted (List.mem_cons_of_mem _ member)
  · rintro ⟨here, later⟩ otherCheck other otherSeq otherTrusted member
    rcases List.mem_cons.1 member with same | inRest
    · cases same
      exact here
    · exact later otherCheck other otherSeq otherTrusted inRest

namespace Store

theorem inUse_of_placed {inUse : Name → Prop} {operations : List Operation}
    (inserts : InsertsOnly inUse operations) {name : Name} (placed : Placed (empty.trace operations) name) :
    inUse name := by
  obtain ⟨certificate, seq, trusted, member, rfl⟩ := placed
  obtain ⟨operation, called, prompts⟩ := prompts_of_mem_trace member
  obtain ⟨check, rfl⟩ := eq_insert_of_prompts prompts
  exact inserts check certificate seq trusted called

theorem not_stranded {inUse : Name → Prop}
    (noRoom : ∀ short long other, inUse short → inUse long → inUse other → long.resolvesTo short = true →
      long ≠ short → other.overlaps short = true)
    {operations : List Operation} (inserts : InsertsOnly inUse operations) (signer : Name) (record : Record) :
    ¬ Stranded (empty.perform operations) signer record := by
  intro stranded
  obtain ⟨before, check, lookup, version, event, placed, longer, _⟩ :=
    passedBy_longer (stranded_passedBy stranded) stranded.resolves
  have reaches := event.before_subset
  have recordInUse := inUse_of_placed inserts (placed_name_of_mem event.mem)
  have lookupInUse := inUse_of_placed inserts placed
  have resolves : lookup.resolvesTo record.name = true := Name.resolvesTo_iff.2 (.inr ⟨version, longer⟩)
  cases event.verifies with
  | @checked _ _ subject issuer certified =>
    have issuerPlaced := placed_name_of_mem (mem_of_find? certified.signed).1
    have issuerInUse := inUse_of_placed inserts (issuerPlaced.mono reaches)
    have overlap := noRoom _ _ _ recordInUse lookupInUse issuerInUse resolves (Name.ne_of_longer longer)
    rw [Record.name_asVerified, signer_apart certified] at overlap
    cases overlap

/-- A certificate of a short name takes the place of one of a longer name that waits
    for the same signer; it is replaced once more after it has waited for itself. -/
def staleRun (short long other : Name) : List Operation :=
  [.insert (fun _ _ => true) (.blank long other) 1 false, .insert (fun _ _ => true) (.blank short short) 2 false,
    .insert (fun _ _ => true) (.blank short other) 3 false, .insert (fun _ _ => true) (.blank other other) 4 true]

private theorem perform_staleRun {short long other : Name} (longer : long.resolvesTo short = true)
    (differ : long ≠ short) (apart : other.overlaps short = false) :
    empty.perform (staleRun short long other) =
      ⟨[⟨.blank short other, 3, true⟩, ⟨.blank other other, 4, true⟩], ⟨[⟨short, [short]⟩]⟩⟩ := by
  obtain ⟨otherShort, shortOther⟩ := Name.overlaps_eq_false_iff.1 apart
  have notOther : short ≠ other := by
    rintro rfl
    rw [Name.overlaps_self] at apart
    cases apart
  have shortLong := Name.not_resolvesTo_longer longer differ
  have overlap : long.overlaps short = true := Name.overlaps_iff.2 (.inl longer)
  have apartToo : short.overlaps other = false := Name.overlaps_comm short other ▸ apart
  -- The stores after each of the four calls.
  have first (check : SignatureCheck) : (empty.insert check (.blank long other) 1 false).store =
      ⟨[⟨.blank long other, 1, false⟩], ⟨[⟨other, [long]⟩]⟩⟩ := insert_empty check (.blank long other) 1
  have second (check : SignatureCheck) :
      (Store.insert check ⟨[⟨.blank long other, 1, false⟩], ⟨[⟨other, [long]⟩]⟩⟩ (.blank short short) 2 false).store =
        ⟨[⟨.blank short short, 2, false⟩], ⟨[⟨other, [long]⟩, ⟨short, [short]⟩]⟩⟩ := by
    refine (insert_over overlap (by decide) check _).trans ?_
    simp [WaitingList.add_nil, WaitingList.add_cons, notOther.symm]
  have third (check : SignatureCheck) :
      (Store.insert check ⟨[⟨.blank short short, 2, false⟩], ⟨[⟨other, [long]⟩, ⟨short, [short]⟩]⟩⟩
        (.blank short other) 3 false).store =
        ⟨[⟨.blank short other, 3, false⟩], ⟨[⟨other, [long, short]⟩, ⟨short, [short]⟩]⟩⟩ := by
    refine (insert_over (Name.overlaps_self short) (by decide) check _).trans ?_
    simp [WaitingList.add_cons, WaitingEntry.register, differ.symm]
  have fourth :
      (Store.insert (fun _ _ => true)
        ⟨[⟨.blank short other, 3, false⟩], ⟨[⟨other, [long, short]⟩, ⟨short, [short]⟩]⟩⟩
        (.blank other other) 4 true).store =
        ⟨[⟨.blank short other, 3, true⟩, ⟨.blank other other, 4, true⟩], ⟨[⟨short, [short]⟩]⟩⟩ := by
    simp [Store.insert, holdsFresher, replace, attempt, find?, trustedKey?, Record.name, Record.signer, otherShort,
      shortOther, longer, shortLong, apartToo, notOther, markVerified, markFirst, spread, cascade_cons, wakeAll,
      wake, attemptAll_cons, signersOf, WaitingList.signers, WaitingList.waiteesOf, WaitingList.get?,
      WaitingList.remove_eq]
  simp only [staleRun, perform, Operation.run, first, second, third, fourth]

private theorem stranded_staleRun {short long other : Name} (longer : long.resolvesTo short = true)
    (differ : long ≠ short) (apart : other.overlaps short = false) :
    Stranded (empty.perform (staleRun short long other)) short ⟨.blank short other, 3, true⟩ := by
  rw [perform_staleRun longer differ apart]
  exact ⟨List.mem_cons_self, List.mem_cons_self, short.resolvesTo_self, rfl⟩

/-- How far the waiting list is drained. After any run a waiting signer is stranded
    at a record that it resolves to exactly if that record became verified through a
    longer name, placed before, that the signer does not resolve to. Names in use
    strand nobody in any run exactly if no two of them differ by one component, or
    all that are in use overlap the shorter one. -/
theorem stranded_exactly (operations : List Operation) (inUse : Name → Prop) :
    (∀ signer record, Stranded (empty.perform operations) signer record ↔
      signer ∈ (empty.perform operations).waiting.signers ∧ signer.resolvesTo record.name = true ∧
        ∃ before check lookup version, VerifiedAt (empty.trace operations) before (.attempt check lookup) record ∧
          Placed (empty.trace operations) lookup ∧
          lookup.components = record.name.components ++ [version] ∧ signer.resolvesTo lookup = false) ∧
    ((∀ run, InsertsOnly inUse run → ∀ signer record, ¬ Stranded (empty.perform run) signer record) ↔
      ∀ short long other, inUse short → inUse long → inUse other → long.resolvesTo short = true →
        long ≠ short → other.overlaps short = true) := by
  refine ⟨?_, ?_⟩
  · intro signer record
    constructor
    · intro stranded
      exact ⟨stranded.waits, stranded.resolves, passedBy_longer (stranded_passedBy stranded) stranded.resolves⟩
    · rintro ⟨waits, resolves, before, check, lookup, version, event, _⟩
      have member := event.mem
      rw [after, replay_trace] at member
      exact ⟨waits, member, resolves, event.verified⟩
  · constructor
    · intro settled short long other shortInUse longInUse otherInUse longer differ
      rw [← Bool.not_eq_false]
      intro apart
      refine settled (staleRun short long other) ?_ _ _ (stranded_staleRun longer differ apart)
      intro check certificate seq trusted member
      simp only [staleRun, List.mem_cons, Operation.insert.injEq, List.not_mem_nil, or_false] at member
      rcases member with ⟨_, rfl, _⟩ | ⟨_, rfl, _⟩ | ⟨_, rfl, _⟩ | ⟨_, rfl, _⟩
      · exact longInUse
      · exact shortInUse
      · exact shortInUse
      · exact otherInUse
    · intro noRoom run inserts
      exact not_stranded noRoom inserts

/-- A site's certificate becomes verified through the versioned name that it replaced,
    and the one that waits for it under its own name is left behind. -/
theorem stranded_exactly_site :
    Stranded (empty.perform (staleRun (.ofList ["a", "KEY", "k"]) (.ofList ["a", "KEY", "k", "v"])
        (.ofList ["s", "KEY", "1"])))
      (.ofList ["a", "KEY", "k"]) ⟨.sample ["a", "KEY", "k"] ["s", "KEY", "1"], 3, true⟩ ∧
    (∃ before check lookup version,
      VerifiedAt (empty.trace (staleRun (.ofList ["a", "KEY", "k"]) (.ofList ["a", "KEY", "k", "v"])
          (.ofList ["s", "KEY", "1"])))
        before (.attempt check lookup) ⟨.sample ["a", "KEY", "k"] ["s", "KEY", "1"], 3, true⟩ ∧
      lookup.components = ["a", "KEY", "k"] ++ [version]) ∧
    ∀ signer record, ¬ Stranded (empty.perform
      [.insert (fun _ _ => true) (.sample ["s", "KEY", "1"] ["s", "KEY", "1"]) 1 true]) signer record := by
  have stranded : Stranded (empty.perform (staleRun (.ofList ["a", "KEY", "k"]) (.ofList ["a", "KEY", "k", "v"])
      (.ofList ["s", "KEY", "1"]))) (.ofList ["a", "KEY", "k"])
      ⟨.sample ["a", "KEY", "k"] ["s", "KEY", "1"], 3, true⟩ :=
    stranded_staleRun (by decide +kernel) (by decide +kernel) (by decide +kernel)
  refine ⟨stranded, ?_, ?_⟩
  · obtain ⟨_, _, before, check, lookup, version, event, _, longer, _⟩ :=
      ((stranded_exactly _ fun _ => True).1 _ _).1 stranded
    exact ⟨before, check, lookup, version, event, longer⟩
  · refine (stranded_exactly [] (· = .ofList ["s", "KEY", "1"])).2.2 ?_ _ ?_
    · rintro short long other rfl rfl rfl
      decide +kernel
    · intro check certificate seq trusted member
      simp only [List.mem_singleton, Operation.insert.injEq] at member
      obtain ⟨_, rfl, _⟩ := member
      rfl

end Store
end RouteTrust
