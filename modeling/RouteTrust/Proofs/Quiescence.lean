import Mathlib.Data.Prod.Lex
import RouteTrust.Proofs.Contents

/-!
How a cascade ends. Each of its steps leaves less to do (`less_to_do`), whatever
records and waiting list it started from, names that overlap included. A name joins
the queue only when the record that it finds becomes verified, so the names that were
taken and those that still wait in the queue are one more than these records
(`Paid`). All else about the records stays as it was.
-/
namespace RouteTrust

/-- The number of places in which an unverified record has become a verified one. -/
def gainCount (before after : List Record) : Nat :=
  (before.zip after).countP fun pair => !pair.1.verified && pair.2.verified

private theorem Grown.countP_add_gainCount {before after : List Record} (grown : Grown before after) :
    after.countP (!·.verified) + gainCount before after = before.countP (!·.verified) := by
  unfold gainCount
  induction grown with
  | nil => rfl
  | @cons old new _ _ gains _ ih =>
    simp only [List.zip_cons_cons, List.countP_cons]
    have here : (if (!new.verified) = true then 1 else 0) +
        (if (!old.verified && new.verified) = true then 1 else 0) = if (!old.verified) = true then 1 else 0 := by
      rcases gains with rfl | rfl
      · cases new.verified with
        | false => rfl
        | true => rfl
      · cases old.verified with
        | false => rfl
        | true => rfl
    omega

namespace Spreading
variable {check : SignatureCheck} {state next first last : Spreading}

/-- What there is still to do: unverified records and queued names first, then signers to
    wake, then waitees to try and the entry to forget. -/
def toDo (state : Spreading) : Nat ×ₗ Nat ×ₗ Nat :=
  toLex (state.store.unverifiedCount + state.queue.length,
    toLex (state.waking.length, state.trying.length + state.current.toList.length))

/-- A name that joins the queue takes one record from the unverified ones. -/
theorem count_attempt (check : SignatureCheck) (store : Store) (waitee : Name) (queue : List Name) :
    (store.attempt check waitee).2.unverifiedCount +
        (queue ++ if (store.attempt check waitee).1 = .verified then [waitee] else []).length =
      store.unverifiedCount + queue.length := by
  have paid := Store.unverifiedCount_attempt check store waitee
  rw [List.length_append]
  split
  · rename_i verified
    rw [if_pos verified] at paid
    rw [List.length_singleton]
    omega
  · rename_i other
    rw [if_neg other] at paid
    rw [List.length_nil]
    omega

/-- Each step leaves less to do. -/
theorem less_to_do (step : Next check state next) : next.toDo < state.toDo := by
  unfold toDo
  rw [Prod.Lex.toLex_lt_toLex, Prod.Lex.toLex_lt_toLex]
  cases step with
  | announce store past announced name queue => exact .inl (by simp)
  | wake store past announced queue signer waking => exact .inr ⟨rfl, .inl (by simp)⟩
  | attempt store past announced queue waking signer waitee trying =>
    exact .inr ⟨count_attempt check store waitee queue, .inr ⟨rfl, by simp⟩⟩
  | forget store past announced queue waking signer => exact .inr ⟨rfl, .inr ⟨rfl, by simp⟩⟩

private theorem wellFounded_next (check : SignatureCheck) : WellFounded fun next state => Next check state next :=
  Subrelation.wf less_to_do (InvImage.wf toDo wellFounded_lt)

/-- There is no choice in a cascade. -/
theorem rightUnique_next (check : SignatureCheck) : Relator.RightUnique (Next check) := by
  intro state next other step second
  cases step with
  | announce => cases second; rfl
  | wake => cases second; rfl
  | attempt => cases second; rfl
  | forget => cases second; rfl

/-- Nothing is left to do. -/
def AtRest (state : Spreading) : Prop :=
  state.queue = [] ∧ state.waking = [] ∧ state.current = none ∧ state.trying = []

private theorem AtRest.not_next (rests : state.AtRest) : ¬ Next check state next := by
  intro step
  obtain ⟨noName, noSigner, idle, _⟩ := rests
  cases step with
  | announce => cases noName
  | wake => cases noSigner
  | attempt => cases idle
  | forget => cases idle

/-- A cascade that is not at rest goes on. -/
theorem exists_next_or_atRest (check : SignatureCheck) (idle : state.current = none → state.trying = []) :
    (∃ next, Next check state next) ∨ state.AtRest := by
  obtain ⟨store, past, announced, queue, waking, current, trying⟩ := state
  cases current with
  | some signer =>
    cases trying with
    | cons waitee trying => exact .inl ⟨_, .attempt store past announced queue waking signer waitee trying⟩
    | nil => exact .inl ⟨_, .forget store past announced queue waking signer⟩
  | none =>
    obtain rfl : trying = [] := idle rfl
    cases waking with
    | cons signer waking => exact .inl ⟨_, .wake store past announced queue signer waking⟩
    | nil =>
      cases queue with
      | cons name queue => exact .inl ⟨_, .announce store past announced name queue⟩
      | nil => exact .inr ⟨rfl, rfl, rfl, rfl⟩

/-- A state at rest is the end of all its runs. -/
theorem AtRest.eq_of_runs (rests : state.AtRest) (runs : Runs check state last) : state = last := by
  rcases Relation.ReflTransGen.cases_head runs with same | ⟨_, step, _⟩
  · exact same
  · exact absurd step rests.not_next

/-- A run goes on to the state at rest that another run from the same state ends in. -/
theorem Runs.onTo (runs : Runs check first state) (others : Runs check first last) (rests : last.AtRest) :
    Runs check state last := by
  rcases Relation.ReflTransGen.total_of_right_unique (rightUnique_next check) runs others with further | further
  · exact further
  · exact rests.eq_of_runs further ▸ .refl

/-- All runs that end do so in the same state. -/
theorem Runs.eq_of_atRest (runs : Runs check first state) (others : Runs check first last) (rests : state.AtRest)
    (restsToo : last.AtRest) : state = last :=
  rests.eq_of_runs (runs.onTo others restsToo)

end Spreading

/-- A cascade of one name, in which every other name that was taken from the queue or
    is in it was paid for by a record that became verified. -/
structure Paid (store : Store) (state : Spreading) : Prop where
  grown : Grown store.records state.store.records
  balance : state.announced.length + state.queue.length + state.store.unverifiedCount = 1 + store.unverifiedCount
  idle : state.current = none → state.trying = []

namespace Paid
variable {check : SignatureCheck} {store : Store} {state last : Spreading}

theorem start (store : Store) (name : Name) : Paid store (.start store [] [] [name]) :=
  ⟨Grown.refl _, rfl, fun _ => rfl⟩

private theorem next (paid : Paid store state) (step : Spreading.Next check state last) : Paid store last := by
  refine ⟨paid.grown.trans (Store.grown_next step), ?_, ?_⟩
  · have balance := paid.balance
    cases step with
    | announce => simp only [List.length_append, List.length_cons, List.length_nil] at balance ⊢; omega
    | wake => exact balance
    | attempt now _ _ queue _ _ waitee =>
      have count := Spreading.count_attempt check now waitee queue
      dsimp only at balance ⊢
      omega
    | forget => exact balance
  · cases step with
    | announce => exact fun _ => rfl
    | wake => exact fun busy => by cases busy
    | attempt => exact fun busy => by cases busy
    | forget => exact fun _ => rfl

/-- The names taken and the names in the queue are one more than the records that became verified. -/
theorem eq_one_add (paid : Paid store state) :
    state.announced.length + state.queue.length = 1 + gainCount store.records state.store.records := by
  have balance := paid.balance
  have gained := paid.grown.countP_add_gainCount
  unfold Store.unverifiedCount at balance
  omega

end Paid

namespace Store

/-- A cascade from one name comes to rest, whatever the store. It has no infinite run,
    and a run that cannot go on has come to what `cascade` gives. At each moment the names
    taken from the queue and those in it are one more than the records that have become
    verified, and the records have grown in trust only; so in the end the names taken
    are one more than these records. -/
theorem cascade_quiesces (check : SignatureCheck) (store : Store) (name : Name) :
    Acc (fun next state => Spreading.Next check state next) (.start store [] [] [name]) ∧
    (∀ state, Spreading.Runs check (.start store [] [] [name]) state →
      state.announced.length + state.queue.length = 1 + gainCount store.records state.store.records ∧
      Grown store.records state.store.records ∧
      ((∃ next, Spreading.Next check state next) ∨
        state = .start (store.cascade check [name]).1 (store.cascadeActions check [name])
          (store.cascade check [name]).2 [])) ∧
    (store.cascade check [name]).2.length = 1 + gainCount store.records (store.cascade check [name]).1.records ∧
    Grown store.records (store.cascade check [name]).1.records := by
  have paid {state : Spreading} (runs : Spreading.Runs check (.start store [] [] [name]) state) : Paid store state :=
    runs.keeps (Paid store) (Paid.start store name) fun _ _ step held => held.next step
  have cascades := Spreading.runs_cascade check store [] [] [name]
  refine ⟨(Spreading.wellFounded_next check).apply _, ?_, ?_, (paid cascades).grown⟩
  · intro state runs
    refine ⟨(paid runs).eq_one_add, (paid runs).grown, ?_⟩
    rcases Spreading.exists_next_or_atRest check (paid runs).idle with goesOn | rests
    · exact .inl goesOn
    · exact .inr (runs.eq_of_atRest cascades rests ⟨rfl, rfl, rfl, rfl⟩)
  · exact (paid cascades).eq_one_add

/-- Two overlapping records that wait for a site. The first one names itself as its signer. -/
def overlappingStore : Store :=
  ⟨[⟨.sample ["a", "KEY", "k", "v"] ["a", "KEY", "k", "v"], 1, false⟩,
    ⟨.sample ["a", "KEY", "k"] ["s", "KEY", "1"], 2, false⟩, ⟨.sample ["s", "KEY", "1"] ["s", "KEY", "1"], 3, true⟩],
    ⟨[⟨.ofList ["s", "KEY", "1"], [.ofList ["a", "KEY", "k", "v"], .ofList ["a", "KEY", "k"]]⟩]⟩⟩

/-- The one that names itself is deferred twice, and the other one is all that the
    cascade announces after the site. -/
theorem cascade_quiesces_overlapping :
    (overlappingStore.cascade (fun _ _ => true) [.ofList ["s", "KEY", "1"]]).2 =
        [.ofList ["s", "KEY", "1"], .ofList ["a", "KEY", "k"]] ∧
      gainCount overlappingStore.records
        (overlappingStore.cascade (fun _ _ => true) [.ofList ["s", "KEY", "1"]]).1.records = 1 := by
  have announced : (overlappingStore.cascade (fun _ _ => true) [.ofList ["s", "KEY", "1"]]).2 =
      [.ofList ["s", "KEY", "1"], .ofList ["a", "KEY", "k"]] := by decide +kernel
  obtain ⟨_, moments, _, _⟩ := cascade_quiesces (fun _ _ => true) overlappingStore (.ofList ["s", "KEY", "1"])
  have atTheEnd := (moments _ (Spreading.runs_cascade _ overlappingStore [] [] _)).1
  simp only [Spreading.start, announced, List.nil_append, List.length_cons, List.length_nil] at atTheEnd
  exact ⟨announced, by omega⟩

end Store
end RouteTrust
