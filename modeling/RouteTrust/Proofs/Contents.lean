import Mathlib.Data.List.Forall2
import RouteTrust.Proofs.Spreading

namespace RouteTrust

/-- The record is the other one, or the other one with its trust given. -/
def Record.Gains (old new : Record) : Prop := new = old ∨ new = old.asVerified

/-- The same records in the same places, some of them with more trust. -/
def Grown (before after : List Record) : Prop := List.Forall₂ Record.Gains before after

namespace Record
variable {old new : Record}

private theorem Gains.asVerified_eq (gains : old.Gains new) : new.asVerified = old.asVerified := by
  rcases gains with rfl | rfl
  · rfl
  · rfl

theorem Gains.name_eq (gains : old.Gains new) : new.name = old.name := by
  rw [← name_asVerified new, gains.asVerified_eq, name_asVerified]

theorem Gains.seq_eq (gains : old.Gains new) : new.seq = old.seq := by
  rw [← seq_asVerified new, gains.asVerified_eq, seq_asVerified]

private theorem Gains.eq_of_verified (gains : old.Gains new) (verified : old.verified = true) : new = old := by
  rcases gains with rfl | rfl
  · rfl
  · exact asVerified_of_verified verified

theorem Gains.trans {last : Record} (first : old.Gains new) (second : new.Gains last) : old.Gains last := by
  rcases second with rfl | rfl
  · exact first
  · exact .inr first.asVerified_eq

end Record

namespace Grown
variable {before middle after : List Record}

theorem refl (records : List Record) : Grown records records :=
  List.forall₂_same.2 fun _ _ => .inl rfl

theorem trans (first : Grown before middle) (second : Grown middle after) : Grown before after := by
  induction first generalizing after with
  | nil => exact second
  | cons gains _ ih =>
    cases second with
    | cons gainsToo rest => exact .cons (gains.trans gainsToo) (ih rest)

theorem map_asVerified (grown : Grown before after) :
    after.map Record.asVerified = before.map Record.asVerified := by
  induction grown with
  | nil => rfl
  | cons gains _ ih => rw [List.map_cons, List.map_cons, gains.asVerified_eq, ih]

theorem mem_of_verified (grown : Grown before after) {record : Record} (member : record ∈ before)
    (verified : record.verified = true) : record ∈ after := by
  induction grown with
  | nil => cases member
  | cons gains _ ih =>
    rcases List.mem_cons.1 member with rfl | later
    · rw [gains.eq_of_verified verified]
      exact List.mem_cons_self
    · exact List.mem_cons_of_mem _ (ih later)

theorem exists_old (grown : Grown before after) {record : Record} (member : record ∈ after) :
    ∃ old ∈ before, old.Gains record := by
  induction grown with
  | nil => cases member
  | @cons old new _ _ gains _ ih =>
    rcases List.mem_cons.1 member with rfl | later
    · exact ⟨old, List.mem_cons_self, gains⟩
    · obtain ⟨found, inRest, gainsToo⟩ := ih later
      exact ⟨found, List.mem_cons_of_mem _ inRest, gainsToo⟩

end Grown

namespace Store

private theorem grown_markFirst (lookup : Name) (records : List Record) : Grown records (markFirst lookup records) := by
  induction records with
  | nil => exact .nil
  | cons head rest ih =>
    unfold markFirst
    split
    · exact .cons (.inr rfl) (Grown.refl rest)
    · exact .cons (.inl rfl) ih

private theorem grown_attempt (check : SignatureCheck) (store : Store) (lookup : Name) :
    Grown store.records (store.attempt check lookup).2.records := by
  have cases := attempted check store lookup
  generalize store.attempt check lookup = result at cases
  cases cases with
  | verified certified => exact grown_markFirst lookup store.records
  | _ => exact Grown.refl _

theorem grown_next {check : SignatureCheck} {state last : Spreading} (step : Spreading.Next check state last) :
    Grown state.store.records last.store.records := by
  cases step with
  | attempt store _ _ _ _ _ waitee => exact grown_attempt check store waitee
  | _ => exact Grown.refl _

theorem grown_cascade (check : SignatureCheck) (store : Store) (queue : List Name) :
    Grown store.records (store.cascade check queue).1.records := by
  have runs := Spreading.runs_cascade check store [] [] queue
  refine runs.keeps (fun state => Grown store.records state.store.records) (Grown.refl _) ?_
  intro state next step grown
  exact grown.trans (grown_next step)

end Store

/-- The records that a call leaves, apart from the trust that it spreads. -/
def Operation.leaves (operation : Operation) (store : Store) : List Record :=
  match operation with
  | insert _ certificate seq trusted =>
    if store.holdsFresher certificate.name seq then store.records
    else
      store.records.filter (fun record => !record.name.overlaps certificate.name) ++ [⟨certificate, seq, trusted⟩]
  | setVerified _ _ _ => store.records
  | remove lookup => store.records.eraseP fun record => lookup.resolvesTo record.name

namespace Store

private theorem records_act_discard (store : Store) (lookup : Name) :
    (store.act (.discard lookup)).records = store.records.eraseP fun record => lookup.resolvesTo record.name := by
  simp only [act, remove]
  cases found : store.find? lookup with
  | none => exact (List.eraseP_of_forall_not (by simpa using find?_eq_none_iff.1 found)).symm
  | some record => rfl

private theorem grown_opening (operation : Operation) (store : Store) :
    Grown (operation.leaves store) (store.replay (operation.opening store).1).records := by
  cases operation with
  | insert check certificate seq trusted =>
    simp only [Operation.leaves, Operation.opening]
    split
    · exact Grown.refl _
    · rw [← records_act_place]
      cases trusted with
      | true => exact Grown.refl _
      | false => exact grown_attempt check _ certificate.name
  | setVerified check lookup verified =>
    simp only [Operation.leaves, Operation.opening]
    split
    · rename_i record found
      split
      · rw [replay_cons, replay_nil, act_endorse, found]
        exact grown_markFirst record.name store.records
      · exact Grown.refl _
    · exact Grown.refl _
  | remove lookup =>
    have erased : (store.replay (Operation.opening (.remove lookup) store).1).records =
        Operation.leaves (.remove lookup) store := records_act_discard store lookup
    rw [erased]
    exact Grown.refl _

/-- Beside what it is called for, a call only gives trust. -/
theorem grown_run (operation : Operation) (store : Store) :
    Grown (operation.leaves store) (operation.run store).store.records := by
  rw [(run_eq operation store).1]
  exact (grown_opening operation store).trans (grown_cascade _ _ _)

theorem separated_perform (operations : List Operation) : Separated (empty.perform operations).records := by
  rw [← replay_trace]
  exact separated_after (empty.trace operations)

/-- What calls leave in a store was inserted by one of them. -/
theorem inserted_of_mem_perform {operations : List Operation} {record : Record}
    (member : record ∈ (empty.perform operations).records) :
    ∃ check trusted, .insert check record.certificate record.seq trusted ∈ operations := by
  rw [← replay_trace] at member
  obtain ⟨trusted, placed⟩ := placed_of_mem member
  obtain ⟨operation, called, prompts⟩ := prompts_of_mem_trace placed
  obtain ⟨check, rfl⟩ := eq_insert_of_prompts prompts
  exact ⟨check, trusted, called⟩

end Store
end RouteTrust
