import Mathlib.Logic.Relation
import RouteTrust.Proofs.Provenance

/-!
The cascade as a machine. Its state has all that a cascade still has to do: the
names in the queue, the signers to be woken for the last announced name, and the
waitees of the present signer to be tried. A cascade is a run of the machine
(`runs_cascade`), so what every step of it keeps holds at the end.
-/
namespace RouteTrust

/-- A store in the middle of a cascade, with the actions so far and the names
    announced so far. -/
structure Spreading where
  store : Store
  past : List Action
  announced : List Name
  queue : List Name
  waking : List Name
  current : Option Name
  trying : List Name

namespace Spreading

/-- A store with names to announce and nothing in progress. -/
def start (store : Store) (past : List Action) (announced queue : List Name) : Spreading :=
  ⟨store, past, announced, queue, [], none, []⟩

/-- One step of a cascade. -/
inductive Next (check : SignatureCheck) : Spreading → Spreading → Prop
  | announce (store past announced name queue) :
      Next check ⟨store, past, announced, name :: queue, [], none, []⟩
        ⟨store, past, announced ++ [name], queue, store.signersOf name, none, []⟩
  | wake (store past announced queue signer waking) :
      Next check ⟨store, past, announced, queue, signer :: waking, none, []⟩
        ⟨store, past, announced, queue, waking, some signer, store.waiting.waiteesOf signer⟩
  | attempt (store past announced queue waking signer waitee trying) :
      Next check ⟨store, past, announced, queue, waking, some signer, waitee :: trying⟩
        ⟨(store.attempt check waitee).2, past ++ [.attempt check waitee], announced,
          queue ++ (if (store.attempt check waitee).1 = .verified then [waitee] else []), waking, some signer,
          trying⟩
  | forget (store past announced queue waking signer) :
      Next check ⟨store, past, announced, queue, waking, some signer, []⟩
        ⟨store.act (.forget signer), past ++ [.forget signer], announced, queue, waking, none, []⟩

/-- Any number of steps. -/
abbrev Runs (check : SignatureCheck) : Spreading → Spreading → Prop := Relation.ReflTransGen (Next check)

/-- What every step keeps holds after a run. -/
theorem Runs.keeps {check : SignatureCheck} {first last : Spreading} (runs : Runs check first last)
    (invariant : Spreading → Prop) (start : invariant first)
    (step : ∀ state next, Next check state next → invariant state → invariant next) : invariant last := by
  induction runs with
  | refl => exact start
  | tail _ next ih => exact step _ _ next ih

section
variable (check : SignatureCheck)

private theorem runs_attemptAll (store : Store) (past : List Action) (announced queue waking : List Name)
    (signer : Name) (trying : List Name) :
    Runs check ⟨store, past, announced, queue, waking, some signer, trying⟩
      ⟨(store.attemptAll check trying).1, past ++ trying.map (.attempt check), announced,
        queue ++ (store.attemptAll check trying).2, waking, some signer, []⟩ := by
  induction trying generalizing store past queue with
  | nil =>
    simp only [Store.attemptAll_nil, List.map_nil, List.append_nil]
    exact .refl
  | cons waitee trying ih =>
    rw [Store.attemptAll_cons, List.map_cons]
    have later := ih (store.attempt check waitee).2 (past ++ [.attempt check waitee])
      (queue ++ if (store.attempt check waitee).1 = .verified then [waitee] else [])
    simp only [List.append_assoc, List.singleton_append] at later
    exact .head (.attempt store past announced queue waking signer waitee trying) later

private theorem runs_wake (store : Store) (past : List Action) (announced queue : List Name) (signer : Name)
    (waking : List Name) :
    Runs check ⟨store, past, announced, queue, signer :: waking, none, []⟩
      ⟨(store.wake check signer).1, past ++ store.wakeActions check signer, announced,
        queue ++ (store.wake check signer).2, waking, none, []⟩ := by
  have tried := runs_attemptAll check store past announced queue waking signer (store.waiting.waiteesOf signer)
  have last := tried.tail (.forget (store.attemptAll check (store.waiting.waiteesOf signer)).1
    (past ++ (store.waiting.waiteesOf signer).map (.attempt check)) announced
    (queue ++ (store.attemptAll check (store.waiting.waiteesOf signer)).2) waking signer)
  rw [List.append_assoc] at last
  exact .head (.wake store past announced queue signer waking) last

private theorem runs_wakeAll (store : Store) (past : List Action) (announced queue waking : List Name) :
    Runs check ⟨store, past, announced, queue, waking, none, []⟩
      ⟨(store.wakeAll check waking).1, past ++ store.wakeAllActions check waking, announced,
        queue ++ (store.wakeAll check waking).2, [], none, []⟩ := by
  induction waking generalizing store past queue with
  | nil =>
    simp only [Store.wakeAll_nil, Store.wakeAllActions, List.append_nil]
    exact .refl
  | cons signer waking ih =>
    have first := runs_wake check store past announced queue signer waking
    have later := ih (store.wake check signer).1 (past ++ store.wakeActions check signer)
      (queue ++ (store.wake check signer).2)
    simp only [List.append_assoc] at later
    rw [Store.wakeAll_cons, Store.wakeAllActions]
    exact first.trans later

/-- A cascade runs until nothing is left to do. -/
theorem runs_cascade (store : Store) (past : List Action) (announced queue : List Name) :
    Runs check (start store past announced queue)
      (start (store.cascade check queue).1 (past ++ store.cascadeActions check queue)
        (announced ++ (store.cascade check queue).2) []) := by
  fun_induction Store.cascade check store queue generalizing past announced with
  | case1 =>
    simp only [Store.cascadeActions_nil, List.append_nil]
    exact .refl
  | case2 store name queue woken last names later ih =>
    have first := runs_wakeAll check store past (announced ++ [name]) queue (store.signersOf name)
    have rest := ih (past ++ store.wakeAllActions check (store.signersOf name)) (announced ++ [name])
    rw [List.append_assoc, List.append_assoc, later] at rest
    rw [Store.cascadeActions_cons]
    exact .head (.announce store past announced name queue) (first.trans rest)

/-- A call runs from the end of its opening. -/
theorem runs_call (operation : Operation) (store : Store) (past : List Action) (announced : List Name) :
    Runs operation.check
      (start (store.replay (operation.opening store).1) (past ++ (operation.opening store).1) announced
        (operation.opening store).2)
      (start (operation.run store).store (past ++ operation.actions store)
        (announced ++ (operation.run store).announced) []) := by
  have runs := runs_cascade operation.check (store.replay (operation.opening store).1)
    (past ++ (operation.opening store).1) announced (operation.opening store).2
  obtain ⟨last, names⟩ := Store.run_eq operation store
  rw [List.append_assoc, ← names, ← last] at runs
  exact runs

end

/-- What the opening of a call and every step of a cascade keep holds between the calls
    of any run, if it does not depend on who was announced. -/
theorem keeps_trace (invariant : Spreading → Prop) (nothing : invariant (.start .empty [] [] []))
    (opening : ∀ (operation : Operation) store past, invariant (.start store past [] []) →
      invariant (.start (store.replay (operation.opening store).1) (past ++ (operation.opening store).1) []
        (operation.opening store).2))
    (step : ∀ check state next, Next check state next → invariant state → invariant next)
    (silent : ∀ store past announced, invariant (.start store past announced []) →
      invariant (.start store past [] [])) (operations : List Operation) :
    invariant (.start (Store.empty.perform operations) (Store.empty.trace operations) [] []) := by
  induction operations using List.reverseRecOn with
  | nil => exact nothing
  | append_singleton operations operation ih =>
    have runs := runs_call operation (Store.empty.perform operations) (Store.empty.trace operations) []
    have called := runs.keeps invariant (opening operation _ _ ih) (step operation.check)
    rw [Store.perform_append, Store.trace_append, Store.trace, Store.trace, List.append_nil]
    exact silent _ _ _ called

end Spreading

/-- A machine whose store has the given past, and that has tried and will try names
    of placed certificates only. -/
structure Traced (state : Spreading) : Prop where
  replayed : state.store = Store.after state.past
  tried : ∀ check lookup, .attempt check lookup ∈ state.past → Placed state.past lookup
  trying : ∀ waitee ∈ state.trying, Placed state.past waitee

namespace Traced
variable {state last : Spreading}

theorem separated (traced : Traced state) : Separated state.store.records :=
  traced.replayed ▸ Store.separated_after state.past

theorem empty (announced queue : List Name) : Traced (.start .empty [] announced queue) := by
  refine ⟨rfl, ?_, ?_⟩
  · intro check lookup member
    cases member
  · intro waitee member
    cases member

private theorem act (traced : Traced state) {action : Action} (acts : last.store = state.store.act action)
    (past : last.past = state.past ++ [action])
    (tries : ∀ check lookup, action = .attempt check lookup → Placed state.past lookup)
    (trying : ∀ waitee ∈ last.trying, Placed last.past waitee) : Traced last := by
  have reaches : state.past ⊆ last.past := past ▸ List.subset_append_left state.past [action]
  refine ⟨?_, ?_, trying⟩
  · rw [past, Store.after_concat, acts, traced.replayed]
  · intro check lookup member
    rw [past] at member
    rcases List.mem_append.1 member with old | now
    · exact (traced.tried check lookup old).mono reaches
    · exact (tries check lookup (List.mem_singleton.1 now).symm).mono reaches

/-- An action between cascades that tries nothing. -/
theorem still {store : Store} {past : List Action} {announced queue others names : List Name}
    (traced : Traced (.start store past announced queue)) (action : Action)
    (other : ∀ check lookup, action ≠ .attempt check lookup) :
    Traced (.start (store.act action) (past ++ [action]) others names) := by
  refine traced.act rfl rfl ?_ ?_
  · intro check lookup same
    exact absurd same (other check lookup)
  · intro waitee member
    cases member

/-- A placed certificate may be tried at once. -/
theorem place {store : Store} {past : List Action} {announced queue others next trying : List Name}
    (traced : Traced (.start store past announced queue)) (certificate : Certificate) (seq : UInt64)
    (trusted : Bool) (own : trying ⊆ [certificate.name]) :
    Traced ⟨store.act (.place certificate seq trusted), past ++ [.place certificate seq trusted], others, next, [],
      none, trying⟩ := by
  refine traced.act rfl rfl ?_ ?_
  · intro check lookup same
    cases same
  · intro waitee member
    rw [List.mem_singleton.1 (own member)]
    exact ⟨certificate, seq, trusted, List.mem_append_right _ List.mem_cons_self, rfl⟩

theorem attempt {check : SignatureCheck} {store : Store} {past : List Action}
    {announced queue next waking : List Name} {current : Option Name} {waitee : Name} {trying : List Name}
    (traced : Traced ⟨store, past, announced, queue, waking, current, waitee :: trying⟩) :
    Traced ⟨(store.attempt check waitee).2, past ++ [.attempt check waitee], announced, next, waking, current,
      trying⟩ := by
  have acts : (store.attempt check waitee).2 = store.act (.attempt check waitee) := rfl
  refine traced.act acts rfl ?_ ?_
  · intro _ lookup same
    cases same
    exact traced.trying waitee List.mem_cons_self
  · intro other member
    exact (traced.trying other (List.mem_cons_of_mem _ member)).mono (List.subset_append_left _ _)

theorem next {check : SignatureCheck} (traced : Traced state) (step : Spreading.Next check state last) :
    Traced last := by
  cases step with
  | announce => exact ⟨traced.replayed, traced.tried, traced.trying⟩
  | wake store past =>
    refine ⟨traced.replayed, traced.tried, ?_⟩
    intro waitee member
    have replayed : store = Store.after past := traced.replayed
    exact placed_of_waitee (replayed ▸ member)
  | attempt => exact traced.attempt
  | forget =>
    refine traced.act rfl rfl ?_ ?_
    · intro check lookup same
      cases same
    · intro waitee member
      cases member

end Traced
end RouteTrust
