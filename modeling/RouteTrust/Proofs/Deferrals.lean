import RouteTrust.Proofs.Quiescence

/-!
Who waits at each moment of a run, those within a cascade included. A pair is in the waiting
list exactly if an attempt deferred a certificate of this name and this signer, and the
signer's entry was not forgotten since (`holds_after_iff`). Only certificates that a call
inserted without trust are deferred (`exists_insertedAt`). Every state that a cascade passes
through is a moment of the run (`moment_of_runs`), so this holds between any two of its steps.
-/
namespace RouteTrust

/-- The action tries a certificate of the given signer and name, and defers it. -/
inductive Defers (store : Store) : Action → Name → Name → Prop
  | attempt {check : SignatureCheck} {lookup : Name} {record : Record} (found : store.find? lookup = some record)
      (deferred : (store.attempt check lookup).1 = .deferred) :
      Defers store (.attempt check lookup) record.signer record.name

/-- The action right after `before` deferred a certificate of this signer and name, and the
    signer was not forgotten since. -/
structure DeferredAt (past before : List Action) (action : Action) (signer waitee : Name) : Prop where
  moment : before ++ [action] <+: past
  defers : Defers (Store.after before) action signer waitee
  kept : ∀ mid, before <+: mid → ¬ mid ++ [.forget signer] <+: past

/-- By its history alone, the name waits for the signer. -/
def Deferred (past : List Action) (signer waitee : Name) : Prop :=
  ∃ before action, DeferredAt past before action signer waitee

/-- The call of a run right after `earlier` inserted the certificate and accepted it, by the given
    moment. -/
structure InsertedAt (operations earlier : List Operation) (past : List Action) (check : SignatureCheck)
    (certificate : Certificate) (seq : UInt64) (trusted : Bool) : Prop where
  called : earlier ++ [.insert check certificate seq trusted] <+: operations
  accepted : ((Store.empty.perform earlier).insert check certificate seq trusted).answer = true
  moment : Store.empty.trace earlier ++ [.place certificate seq trusted] <+: past

theorem InsertedAt.mono {operations others earlier : List Operation} {past later : List Action}
    {check : SignatureCheck} {certificate : Certificate} {seq : UInt64} {trusted : Bool}
    (inserted : InsertedAt operations earlier past check certificate seq trusted) (calls : operations <+: others)
    (reaches : past <+: later) : InsertedAt others earlier later check certificate seq trusted :=
  ⟨inserted.called.trans calls, inserted.accepted, inserted.moment.trans reaches⟩

/-- A certificate of this signer and name was inserted without trust, by the given moment. -/
def Inserted (operations : List Operation) (past : List Action) (signer waitee : Name) : Prop :=
  ∃ earlier check certificate seq, InsertedAt operations earlier past check certificate seq false ∧
    certificate.signer = signer ∧ certificate.name = waitee

namespace Store
variable {store : Store} {signer waitee : Name} {past : List Action} {action : Action}

/-! ## From one moment to the next -/

/-- Only who is deferred begins to wait. -/
theorem waiting_attempt (check : SignatureCheck) (store : Store) (lookup : Name) :
    (∃ record, store.find? lookup = some record ∧ (store.attempt check lookup).1 = .deferred ∧
      (store.attempt check lookup).2.waiting = store.waiting.add record.signer record.name) ∨
    (store.attempt check lookup).1 ≠ .deferred ∧ (store.attempt check lookup).2.waiting = store.waiting := by
  have cases := attempted check store lookup
  generalize store.attempt check lookup = result at cases
  cases cases with
  | deferred found => exact .inl ⟨_, found, rfl, rfl⟩
  | missing => exact .inr ⟨Attempt.noConfusion, rfl⟩
  | alreadyVerified => exact .inr ⟨Attempt.noConfusion, rfl⟩
  | failed => exact .inr ⟨Attempt.noConfusion, rfl⟩
  | verified => exact .inr ⟨Attempt.noConfusion, rfl⟩

/-- A pair waits after an action if it waited before and is not forgotten, or is deferred. -/
theorem holds_act_iff :
    (store.act action).waiting.holds signer waitee = true ↔
      store.waiting.holds signer waitee = true ∧ action ≠ .forget signer ∨ Defers store action signer waitee := by
  have unmoved (same : (store.act action).waiting = store.waiting) (stays : action ≠ .forget signer)
      (idle : ¬ Defers store action signer waitee) :
      (store.act action).waiting.holds signer waitee = true ↔
        store.waiting.holds signer waitee = true ∧ action ≠ .forget signer ∨ Defers store action signer waitee := by
    rw [same, or_iff_left idle, and_iff_left stays]
  cases action with
  | place certificate seq trusted =>
    refine unmoved ?_ Action.noConfusion (by rintro ⟨⟩)
    cases trusted with
    | true => rfl
    | false => rfl
  | endorse lookup =>
    refine unmoved ?_ Action.noConfusion (by rintro ⟨⟩)
    rw [act_endorse]
    split
    · rfl
    · rfl
  | discard lookup => exact unmoved (waiting_remove store lookup) Action.noConfusion (by rintro ⟨⟩)
  | forget gone =>
    rw [act, WaitingList.holds_remove, or_iff_left (by rintro ⟨⟩), Ne, Ne, Action.forget.injEq, @eq_comm _ gone]
  | attempt check lookup =>
    rcases waiting_attempt check store lookup with ⟨record, found, deferred, added⟩ | ⟨other, same⟩
    · rw [act, added, WaitingList.holds_add]
      constructor
      · rintro (old | ⟨rfl, rfl⟩)
        · exact .inl ⟨old, Action.noConfusion⟩
        · exact .inr (.attempt found deferred)
      · rintro (⟨old, _⟩ | ⟨foundToo, _⟩)
        · exact .inl old
        · cases found.symm.trans foundToo
          exact .inr ⟨rfl, rfl⟩
    · refine unmoved same Action.noConfusion ?_
      rintro ⟨_, deferred⟩
      exact other deferred

/-- The same of the history: a deferral outlasts an action that does not forget the signer. -/
theorem deferred_concat_iff :
    Deferred (past ++ [action]) signer waitee ↔
      Deferred past signer waitee ∧ action ≠ .forget signer ∨ Defers (after past) action signer waitee := by
  constructor
  · rintro ⟨before, tried, event⟩
    rcases List.prefix_concat_iff.1 event.moment with now | earlier
    · obtain ⟨rfl, same⟩ := List.append_inj' now rfl
      cases same
      exact .inr event.defers
    · have within := (List.prefix_append before [tried]).trans earlier
      refine .inl ⟨⟨before, tried, earlier, event.defers, ?_⟩, ?_⟩
      · intro mid began forgotten
        exact event.kept mid began (forgotten.trans (List.prefix_append past [action]))
      · rintro rfl
        exact event.kept past within (List.prefix_refl _)
  · rintro (⟨⟨before, tried, event⟩, stays⟩ | defers)
    · refine ⟨before, tried, event.moment.trans (List.prefix_append past [action]), event.defers, ?_⟩
      intro mid began forgotten
      rcases List.prefix_concat_iff.1 forgotten with now | earlier
      · obtain ⟨_, same⟩ := List.append_inj' now rfl
        exact stays (List.singleton_inj.1 same).symm
      · exact event.kept mid began earlier
    · refine ⟨past, action, List.prefix_refl _, defers, ?_⟩
      intro mid began forgotten
      rcases List.prefix_concat_iff.1 forgotten with now | earlier
      · obtain ⟨_, same⟩ := List.append_inj' now rfl
        cases same
        cases defers
      · have longer := began.length_le
        have shorter := earlier.length_le
        rw [List.length_append, List.length_singleton] at shorter
        omega

/-- The waiting list holds the deferrals whose signer was not forgotten since, and no others. -/
theorem holds_after_iff : (after past).waiting.holds signer waitee = true ↔ Deferred past signer waitee := by
  induction past using List.reverseRecOn with
  | nil =>
    refine iff_of_false Bool.false_ne_true ?_
    rintro ⟨before, action, event⟩
    exact List.append_ne_nil_of_right_ne_nil before (List.cons_ne_nil action []) (List.prefix_nil.1 event.moment)
  | append_singleton past action ih => rw [after_concat, holds_act_iff, ih, deferred_concat_iff]

/-! ## The calls behind them -/

/-- An insertion that places anything was accepted, and places its own certificate first. -/
theorem actions_insert {check : SignatureCheck} {certificate placed : Certificate} {seq number : UInt64}
    {trusted given : Bool}
    (places : .place placed number given ∈ (Operation.insert check certificate seq trusted).actions store) :
    (store.insert check certificate seq trusted).answer = true ∧
      [.place certificate seq trusted] <+: (Operation.insert check certificate seq trusted).actions store := by
  cases fresher : store.holdsFresher certificate.name seq with
  | true =>
    have nothing : (Operation.insert check certificate seq trusted).opening store = ([], []) := by
      simp only [Operation.opening, fresher, if_true]
    rw [Operation.actions, nothing, cascadeActions_nil] at places
    cases places
  | false =>
    refine ⟨answer_insert fresher, ?_⟩
    simp only [Operation.actions, Operation.opening, fresher, Bool.false_eq_true, if_false]
    cases trusted with
    | true => exact List.prefix_append _ _
    | false => exact List.prefix_append [_] _

/-- What was placed by some moment of a run was inserted by one of its calls. -/
theorem exists_insertedAt {operations : List Operation} (within : past <+: empty.trace operations)
    {certificate : Certificate} {seq : UInt64} {trusted : Bool} (placed : .place certificate seq trusted ∈ past) :
    ∃ earlier check, InsertedAt operations earlier past check certificate seq trusted := by
  induction operations using List.reverseRecOn generalizing past with
  | nil =>
    rw [trace, List.prefix_nil] at within
    rw [within] at placed
    cases placed
  | append_singleton operations operation ih =>
    -- The moment lies before the last call, or within it.
    have calls := List.prefix_append operations [operation]
    rw [trace_append, trace, trace, List.append_nil] at within
    rcases List.prefix_or_prefix_of_prefix within (List.prefix_append _ _) with before | ⟨begun, rfl⟩
    · obtain ⟨earlier, check, inserted⟩ := ih before placed
      exact ⟨earlier, check, inserted.mono calls (List.prefix_refl past)⟩
    · rcases List.mem_append.1 placed with old | now
      · obtain ⟨earlier, check, inserted⟩ := ih (List.prefix_refl _) old
        exact ⟨earlier, check, inserted.mono calls (List.prefix_append _ begun)⟩
      · have begins := (List.prefix_append_right_inj _).1 within
        obtain ⟨check, rfl⟩ := eq_insert_of_prompts (prompts_of_mem_actions (begins.subset now))
        obtain ⟨accepted, first⟩ := actions_insert (begins.subset now)
        have reached := List.prefix_of_prefix_length_le first begins (List.length_pos_of_mem now)
        exact ⟨operations, check, List.prefix_refl _, accepted, (List.prefix_append_right_inj _).2 reached⟩

end Store

namespace Spreading
variable {check : SignatureCheck} {state first last : Spreading}

/-- A call at the beginning of its cascade. -/
def opened (operation : Operation) (store : Store) (past : List Action) : Spreading :=
  .start (store.replay (operation.opening store).1) (past ++ (operation.opening store).1) []
    (operation.opening store).2

private theorem past_of_next (step : Next check state last) : state.past <+: last.past := by
  cases step with
  | announce => exact List.prefix_refl _
  | wake => exact List.prefix_refl _
  | attempt => exact List.prefix_append _ _
  | forget => exact List.prefix_append _ _

private theorem Runs.past_extends (runs : Runs check first last) : first.past <+: last.past :=
  runs.keeps (fun state => first.past <+: state.past) (List.prefix_refl _) fun _ _ step reached =>
    reached.trans (past_of_next step)

/-- The store of a cascade is the one that its actions lead to. -/
theorem Runs.replayed (runs : Runs check first last) (start : first.store = Store.after first.past) :
    last.store = Store.after last.past := by
  refine runs.keeps (fun state => state.store = Store.after state.past) start ?_
  intro state next step replayed
  cases step with
  | announce => exact replayed
  | wake => exact replayed
  | attempt store past _ _ _ _ waitee =>
    rw [Store.after_concat, ← replayed]
    rfl
  | forget store past _ _ _ signer => rw [Store.after_concat, ← replayed]

/-- All that a call passes through while it spreads trust are moments of the run. -/
theorem moment_of_runs {earlier operations : List Operation} {operation : Operation}
    (called : earlier ++ [operation] <+: operations)
    (runs : Runs operation.check (opened operation (Store.empty.perform earlier) (Store.empty.trace earlier)) state) :
    state.store = Store.after state.past ∧ state.past <+: Store.empty.trace operations := by
  obtain ⟨later, rfl⟩ := called
  have call := runs_call operation (Store.empty.perform earlier) (Store.empty.trace earlier) []
  refine ⟨runs.replayed ?_, ?_⟩
  · rw [opened, start, Store.after, Store.replay_append, Store.replay_trace]
  · -- A cascade has no choice, so it goes on from this state to the end of the call.
    have onward := (runs.onTo call ⟨rfl, rfl, rfl, rfl⟩).past_extends
    rw [Store.trace_append, Store.trace_append, Store.trace, Store.trace, List.append_nil]
    exact onward.trans (List.prefix_append _ _)

end Spreading

/-- The waiting list at a moment of a run. -/
structure Orderly (operations : List Operation) (past : List Action) : Prop where
  sound : (Store.after past).waiting.Sound
  count : (Store.after past).waiting.pairCount = (Store.after past).waiting.pairs.toFinset.card
  deferred : ∀ signer waitee, (signer, waitee) ∈ (Store.after past).waiting.pairs ↔ Deferred past signer waitee
  inserted : ∀ signer waitee, (signer, waitee) ∈ (Store.after past).waiting.pairs →
    Inserted operations past signer waitee

namespace Store

private theorem orderly_of_moment {operations : List Operation} {past : List Action}
    (within : past <+: empty.trace operations) : Orderly operations past := by
  have sound := sound_waiting_after past
  refine ⟨sound, sound.card_pairs.symm, ?_, ?_⟩
  · intro signer waitee
    rw [sound.mem_pairs, holds_after_iff]
  · intro signer waitee member
    obtain ⟨certificate, seq, placed, named, signed⟩ := placed_of_holds (sound.mem_pairs.1 member)
    obtain ⟨earlier, check, inserted⟩ := exists_insertedAt within placed
    exact ⟨earlier, check, certificate, seq, inserted, signed, named⟩

/-- At every moment of a run the waiting list is orderly: each signer has one entry, each entry
    has waitees and none of them twice, so pairs are counted once; and the pairs are the
    deferrals since their signer was last forgotten, of certificates that were inserted before. The
    store after the run is the one at its last moment, and each state within a cascade of
    the run is that of a moment. -/
theorem waiting_exactly (operations : List Operation) :
    (∀ past, past <+: empty.trace operations → Orderly operations past) ∧
    empty.perform operations = after (empty.trace operations) ∧
    ∀ earlier operation, earlier ++ [operation] <+: operations → ∀ state,
      Spreading.Runs operation.check (.opened operation (empty.perform earlier) (empty.trace earlier)) state →
        state.store = after state.past ∧ state.past <+: empty.trace operations := by
  refine ⟨fun _ => orderly_of_moment, (replay_trace empty operations).symm, ?_⟩
  intro earlier operation called state runs
  exact Spreading.moment_of_runs called runs

/-- Two certificates that wait for one signer. -/
def twoWaiters : List Operation :=
  [.insert (fun _ _ => true) (.sample ["a", "KEY", "1"] ["s", "KEY", "1"]) 1 false,
    .insert (fun _ _ => true) (.sample ["b", "KEY", "1"] ["s", "KEY", "1"]) 2 false]

/-- The signer arrives as a trusted one. -/
def signerArrives : Operation := .insert (fun _ _ => true) (.sample ["s", "KEY", "1"] ["s", "KEY", "1"]) 3 true

/-- Right after the cascade has verified the first one, both still count as waiting, and nobody waits
    in the end. The state in which the cascade begins is a moment of the run, too. -/
theorem waiting_exactly_two :
    (∃ past, past <+: empty.trace (twoWaiters ++ [signerArrives]) ∧ Orderly (twoWaiters ++ [signerArrives]) past ∧
      (after past).isVerified (.ofList ["a", "KEY", "1"]) = true ∧ (after past).waiting.pairCount = 2) ∧
    (empty.perform (twoWaiters ++ [signerArrives])).waiting = .empty ∧
    (Spreading.opened signerArrives (empty.perform twoWaiters) (empty.trace twoWaiters)).past <+:
      empty.trace (twoWaiters ++ [signerArrives]) := by
  obtain ⟨orderly, _, moments⟩ := waiting_exactly (twoWaiters ++ [signerArrives])
  have within := List.take_prefix 6 (empty.trace (twoWaiters ++ [signerArrives]))
  refine ⟨⟨_, within, orderly _ within, ?_, ?_⟩, ?_, ?_⟩
  · decide +kernel
  · decide +kernel
  · decide +kernel
  · exact (moments twoWaiters signerArrives (List.prefix_refl _) _ .refl).2

end Store
end RouteTrust
