import Mathlib.Data.List.Induction
import RouteTrust.Proofs.Attempt

/-!
The history of a store. A run is a list of calls; each call is made of actions,
each of which changes the store in one place. Replaying the actions of a run
gives the store after the run (`replay_trace`), and every action belongs to one of
the calls (`prompts_of_mem_trace`). A beginning of the actions is a moment of the
run, those within a cascade included.
-/
namespace RouteTrust

/-- A certificate of the given names, without a key of its own. -/
def Certificate.blank (name signer : Name) : Certificate :=
  let draft : CertificateDraft := { name, publicKey := Octets.zero 32 }
  draft.unsigned signer

@[simp] theorem Certificate.name_blank (name signer : Name) : (blank name signer).name = name := rfl
@[simp] theorem Certificate.signer_blank (name signer : Name) : (blank name signer).signer = signer := rfl

/-- A certificate of the names with the given components. -/
def Certificate.sample (name signer : List String) : Certificate := blank (.ofList name) (.ofList signer)

/-- A call on a store. The check may differ from call to call, as the clock moves. -/
inductive Operation
  | insert (check : SignatureCheck) (certificate : Certificate) (seq : UInt64) (trusted : Bool)
  | setVerified (check : SignatureCheck) (lookup : Name) (verified : Bool)
  | remove (lookup : Name)

/-- One change of a store: a certificate takes the place of all that overlap it,
    trust is given by hand, a lookup is tried, a signer's entry is forgotten, or a
    certificate is removed. -/
inductive Action
  | place (certificate : Certificate) (seq : UInt64) (trusted : Bool)
  | endorse (lookup : Name)
  | attempt (check : SignatureCheck) (lookup : Name)
  | forget (signer : Name)
  | discard (lookup : Name)

namespace Store

/-- The store after an action. -/
def act (store : Store) : Action → Store
  | .place certificate seq trusted =>
    if trusted then (store.replace certificate seq).markVerified certificate.name
    else store.replace certificate seq
  | .endorse lookup =>
    match store.find? lookup with
    | some record => store.markVerified record.name
    | none => store
  | .attempt check lookup => (store.attempt check lookup).2
  | .forget signer => { store with waiting := store.waiting.remove signer }
  | .discard lookup => (store.remove lookup).store

/-- The store after actions in order. -/
def replay (store : Store) (actions : List Action) : Store := actions.foldl act store

/-- The actions of waking the waitees of a signer. -/
def wakeActions (check : SignatureCheck) (store : Store) (signer : Name) : List Action :=
  (store.waiting.waiteesOf signer).map (.attempt check) ++ [.forget signer]

/-- The actions of waking the waitees of signers in order. -/
def wakeAllActions (check : SignatureCheck) (store : Store) : List Name → List Action
  | [] => []
  | signer :: rest => store.wakeActions check signer ++ (store.wake check signer).1.wakeAllActions check rest

/-- The actions of a cascade from a queue of names. -/
def cascadeActions (check : SignatureCheck) (store : Store) : List Name → List Action
  | [] => []
  | name :: queue =>
    let woken := store.wakeAll check (store.signersOf name)
    store.wakeAllActions check (store.signersOf name) ++ cascadeActions check woken.1 (queue ++ woken.2)
termination_by queue => store.unverifiedCount + queue.length
decreasing_by
  have := unverifiedCount_wakeAll check store (store.signersOf name)
  simp only [List.length_append, List.length_cons]
  omega

end Store

namespace Operation

/-- What the call answers and leaves behind. -/
def run (operation : Operation) (store : Store) : Update :=
  match operation with
  | insert check certificate seq trusted => store.insert check certificate seq trusted
  | setVerified check lookup verified => store.setVerified check lookup verified
  | remove lookup => store.remove lookup

/-- The check of a call; removing checks nothing. -/
def check : Operation → SignatureCheck
  | insert check _ _ _ => check
  | setVerified check _ _ => check
  | remove _ => fun _ _ => false

/-- The actions before the cascade of a call, and the name that the cascade starts from. -/
def opening (operation : Operation) (store : Store) : List Action × List Name :=
  match operation with
  | insert check certificate seq trusted =>
    if store.holdsFresher certificate.name seq then ([], [])
    else if trusted then ([.place certificate seq true], [certificate.name])
    else
      ([.place certificate seq false, .attempt check certificate.name],
        if ((store.replace certificate seq).attempt check certificate.name).1 = .verified then [certificate.name]
        else [])
  | setVerified _ lookup verified =>
    match store.find? lookup with
    | some record => if verified && !record.verified then ([.endorse lookup], [record.name]) else ([], [])
    | none => ([], [])
  | remove lookup => ([.discard lookup], [])

/-- The actions of a call. -/
def actions (operation : Operation) (store : Store) : List Action :=
  (operation.opening store).1 ++
    (store.replay (operation.opening store).1).cascadeActions operation.check (operation.opening store).2

end Operation

namespace Store

/-- The store after calls in order. -/
def perform (store : Store) : List Operation → Store
  | [] => store
  | operation :: rest => (operation.run store).store.perform rest

/-- The actions of calls in order. -/
def trace (store : Store) : List Operation → List Action
  | [] => []
  | operation :: rest => operation.actions store ++ (operation.run store).store.trace rest

/-- What calls in order answer, leave behind and announce. -/
def updates (store : Store) : List Operation → List Update
  | [] => []
  | operation :: rest => operation.run store :: (operation.run store).store.updates rest

/-- The names that calls in order announce. -/
def heard (store : Store) (operations : List Operation) : List Name :=
  (store.updates operations).flatMap (·.announced)

@[simp] theorem replay_nil (store : Store) : store.replay [] = store := rfl

@[simp] theorem replay_cons (store : Store) (action : Action) (rest : List Action) :
    store.replay (action :: rest) = (store.act action).replay rest := rfl

@[simp] theorem replay_append (store : Store) (first second : List Action) :
    store.replay (first ++ second) = (store.replay first).replay second :=
  List.foldl_append

private theorem replay_attempts (check : SignatureCheck) (store : Store) (names : List Name) :
    store.replay (names.map (.attempt check)) = (store.attemptAll check names).1 := by
  induction names generalizing store with
  | nil => rfl
  | cons name rest ih => rw [List.map_cons, replay_cons, ih, attemptAll_cons]; rfl

private theorem replay_wakeActions (check : SignatureCheck) (store : Store) (signer : Name) :
    store.replay (store.wakeActions check signer) = (store.wake check signer).1 := by
  rw [wakeActions, replay_append, replay_attempts]
  rfl

private theorem replay_wakeAllActions (check : SignatureCheck) (store : Store) (signers : List Name) :
    store.replay (store.wakeAllActions check signers) = (store.wakeAll check signers).1 := by
  induction signers generalizing store with
  | nil => rfl
  | cons signer rest ih => rw [wakeAllActions, replay_append, replay_wakeActions, ih, wakeAll_cons]

theorem cascadeActions_nil (check : SignatureCheck) (store : Store) : store.cascadeActions check [] = [] := by
  rw [cascadeActions]

theorem cascadeActions_cons (check : SignatureCheck) (store : Store) (name : Name) (queue : List Name) :
    store.cascadeActions check (name :: queue) =
      store.wakeAllActions check (store.signersOf name) ++
        (store.wakeAll check (store.signersOf name)).1.cascadeActions check
          (queue ++ (store.wakeAll check (store.signersOf name)).2) := by
  rw [cascadeActions]

private theorem replay_cascadeActions (check : SignatureCheck) (store : Store) (queue : List Name) :
    store.replay (store.cascadeActions check queue) = (store.cascade check queue).1 := by
  fun_induction cascade check store queue with
  | case1 => rw [cascadeActions_nil, replay_nil]
  | case2 store name queue woken last announced later ih =>
    rw [cascadeActions_cons, replay_append, replay_wakeAllActions, ih, later]

/-- A call acts as its opening does, followed by a cascade. -/
theorem run_eq (operation : Operation) (store : Store) :
    (operation.run store).store =
        ((store.replay (operation.opening store).1).cascade operation.check (operation.opening store).2).1 ∧
      (operation.run store).announced =
        ((store.replay (operation.opening store).1).cascade operation.check (operation.opening store).2).2 := by
  cases operation with
  | insert check certificate seq trusted =>
    simp only [Operation.run, Operation.opening, Operation.check, insert]
    split
    · simp
    · cases trusted with
      | true => simp [act, spread]
      | false =>
        simp only [Bool.false_eq_true, if_false, replay_cons, replay_nil, act]
        split
        · rename_i last tried
          simp [tried, spread]
        · rename_i outcome last differs tried
          have noSpread : ¬ outcome = .verified := fun same => differs same
          simp [tried, noSpread]
  | setVerified check lookup verified =>
    simp only [Operation.run, Operation.opening, Operation.check, setVerified]
    split
    · rename_i absent
      simp [absent]
    · rename_i record found
      simp only [found]
      split
      · simp [act, found, spread]
      · simp
  | remove lookup =>
    refine ⟨by simp [Operation.run, Operation.opening, act], ?_⟩
    simp only [Operation.run, Operation.opening, remove, cascade_nil]
    split
    · rfl
    · rfl

private theorem replay_actions (operation : Operation) (store : Store) :
    store.replay (operation.actions store) = (operation.run store).store := by
  rw [Operation.actions, replay_append, replay_cascadeActions, (run_eq operation store).1]

/-- A run leaves the store that its actions lead to. -/
theorem replay_trace (store : Store) (operations : List Operation) :
    store.replay (store.trace operations) = store.perform operations := by
  induction operations generalizing store with
  | nil => rfl
  | cons operation rest ih => rw [trace, replay_append, replay_actions, ih, perform]

theorem perform_append (store : Store) (first second : List Operation) :
    store.perform (first ++ second) = (store.perform first).perform second := by
  induction first generalizing store with
  | nil => rfl
  | cons operation rest ih => exact ih (operation.run store).store

theorem updates_append (store : Store) (first second : List Operation) :
    store.updates (first ++ second) = store.updates first ++ (store.perform first).updates second := by
  induction first generalizing store with
  | nil => rfl
  | cons operation rest ih => exact congrArg (operation.run store :: ·) (ih (operation.run store).store)

theorem trace_append (store : Store) (first second : List Operation) :
    store.trace (first ++ second) = store.trace first ++ (store.perform first).trace second := by
  induction first generalizing store with
  | nil => rfl
  | cons operation rest ih =>
    rw [List.cons_append, trace, ih, trace, List.append_assoc]
    rfl

/-- What every action keeps holds at every moment. -/
theorem replay_induction {motive : Store → Prop} {store : Store} (start : motive store)
    (step : ∀ store action, motive store → motive (store.act action)) (actions : List Action) :
    motive (store.replay actions) := by
  induction actions generalizing store with
  | nil => exact start
  | cons action rest ih => exact ih (step store action start)

end Store

/-! ### The call of an action -/

/-- The call has the action among its own. -/
inductive Prompts : Operation → Action → Prop
  | place (check : SignatureCheck) (certificate : Certificate) (seq : UInt64) (trusted : Bool) :
      Prompts (.insert check certificate seq trusted) (.place certificate seq trusted)
  | endorse (check : SignatureCheck) (lookup : Name) :
      Prompts (.setVerified check lookup true) (.endorse lookup)
  | discard (lookup : Name) : Prompts (.remove lookup) (.discard lookup)
  | attempt (operation : Operation) (lookup : Name) : Prompts operation (.attempt operation.check lookup)
  | forget (operation : Operation) (signer : Name) : Prompts operation (.forget signer)

theorem eq_insert_of_prompts {operation : Operation} {certificate : Certificate} {seq : UInt64} {trusted : Bool}
    (prompts : Prompts operation (.place certificate seq trusted)) :
    ∃ check, operation = .insert check certificate seq trusted := by
  cases prompts with
  | place check => exact ⟨check, rfl⟩

namespace Store

private theorem mem_wakeActions {check : SignatureCheck} {store : Store} {signer : Name} {action : Action}
    (member : action ∈ store.wakeActions check signer) :
    (∃ lookup, action = .attempt check lookup) ∨ action = .forget signer := by
  rw [wakeActions, List.mem_append, List.mem_map, List.mem_singleton] at member
  rcases member with ⟨lookup, _, rfl⟩ | rfl
  · exact .inl ⟨lookup, rfl⟩
  · exact .inr rfl

private theorem mem_wakeAllActions {check : SignatureCheck} {store : Store} {signers : List Name} {action : Action}
    (member : action ∈ store.wakeAllActions check signers) :
    (∃ lookup, action = .attempt check lookup) ∨ ∃ signer, action = .forget signer := by
  induction signers generalizing store with
  | nil => cases member
  | cons signer rest ih =>
    rw [wakeAllActions, List.mem_append] at member
    rcases member with first | later
    · rcases mem_wakeActions first with tried | rfl
      · exact .inl tried
      · exact .inr ⟨signer, rfl⟩
    · exact ih later

/-- A cascade only tries lookups and forgets signers. -/
theorem mem_cascadeActions {check : SignatureCheck} {store : Store} {queue : List Name} {action : Action}
    (member : action ∈ store.cascadeActions check queue) :
    (∃ lookup, action = .attempt check lookup) ∨ ∃ signer, action = .forget signer := by
  fun_induction cascade check store queue with
  | case1 =>
    rw [cascadeActions_nil] at member
    cases member
  | case2 store name queue woken last announced later ih =>
    rw [cascadeActions_cons, List.mem_append] at member
    rcases member with first | later
    · exact mem_wakeAllActions first
    · exact ih later

private theorem prompts_of_mem_opening {operation : Operation} {store : Store} {action : Action}
    (member : action ∈ (operation.opening store).1) : Prompts operation action := by
  cases operation with
  | insert check certificate seq trusted =>
    simp only [Operation.opening] at member
    split at member
    · cases member
    · cases trusted with
      | true =>
        rw [if_pos rfl] at member
        rw [List.mem_singleton.1 member]
        exact .place check certificate seq true
      | false =>
        rw [if_neg Bool.false_ne_true] at member
        rcases List.mem_cons.1 member with rfl | second
        · exact .place check certificate seq false
        · rw [List.mem_singleton.1 second]
          exact .attempt (.insert check certificate seq false) certificate.name
  | setVerified check lookup verified =>
    simp only [Operation.opening] at member
    split at member
    · split at member
      · rename_i given
        rw [Bool.and_eq_true] at given
        rw [List.mem_singleton.1 member, given.1]
        exact .endorse check lookup
      · cases member
    · cases member
  | remove lookup =>
    rw [List.mem_singleton.1 member]
    exact .discard lookup

theorem prompts_of_mem_actions {operation : Operation} {store : Store} {action : Action}
    (member : action ∈ operation.actions store) : Prompts operation action := by
  rw [Operation.actions, List.mem_append] at member
  rcases member with first | later
  · exact prompts_of_mem_opening first
  · rcases mem_cascadeActions later with ⟨lookup, rfl⟩ | ⟨signer, rfl⟩
    · exact .attempt operation lookup
    · exact .forget operation signer

/-- Every action of a run belongs to one of its calls. -/
theorem prompts_of_mem_trace {store : Store} {operations : List Operation} {action : Action}
    (member : action ∈ store.trace operations) : ∃ operation ∈ operations, Prompts operation action := by
  induction operations generalizing store with
  | nil => cases member
  | cons operation rest ih =>
    rw [trace, List.mem_append] at member
    rcases member with first | later
    · exact ⟨operation, List.mem_cons_self, prompts_of_mem_actions first⟩
    · obtain ⟨other, inRest, prompts⟩ := ih later
      exact ⟨other, List.mem_cons_of_mem _ inRest, prompts⟩

end Store
end RouteTrust
