import Mathlib.Data.Finset.Card
import Mathlib.Data.List.Nodup
import RouteTrust.WaitingList

/-!
The waiting list as a relation between signers and waitees (`holds`). Adding and
removing change this relation by one pair and by one signer. In a sound list
every signer has one entry, and every entry names somebody once at least and
nobody twice; then the pairs of the list are the relation, each pair once.
-/
namespace RouteTrust

/-- An entry with a waitee, and with none of them twice. -/
structure WaitingEntry.Sound (entry : WaitingEntry) : Prop where
  nonempty : entry.waitees ≠ []
  distinct : entry.waitees.Nodup

namespace WaitingList

/-- Every signer has one entry, and all entries are sound. -/
structure Sound (list : WaitingList) : Prop where
  distinct : list.signers.Nodup
  entries : ∀ entry ∈ list.entries, entry.Sound

/-- The pairs of a signer and a waitee. -/
def pairs (list : WaitingList) : List (Name × Name) :=
  list.entries.flatMap fun entry => entry.waitees.map (entry.signer, ·)

private theorem waiteesOf_cons (entry : WaitingEntry) (rest : List WaitingEntry) (signer : Name) :
    waiteesOf ⟨entry :: rest⟩ signer =
      if entry.signer = signer then entry.waitees else waiteesOf ⟨rest⟩ signer := by
  by_cases same : entry.signer = signer
  · simp [waiteesOf, get?, same]
  · simp [waiteesOf, get?, same]

theorem holds_iff {list : WaitingList} {signer waitee : Name} :
    list.holds signer waitee = true ↔ waitee ∈ list.waiteesOf signer := by
  simp [holds]

private theorem mem_waiteesOf_add {list : WaitingList} {signer waitee other name : Name} :
    name ∈ (list.add signer waitee).waiteesOf other ↔
      name ∈ list.waiteesOf other ∨ other = signer ∧ name = waitee := by
  obtain ⟨entries⟩ := list
  induction entries with
  | nil =>
    rw [add_nil, waiteesOf_cons]
    by_cases same : signer = other
    · simp [waiteesOf, get?, same]
    · simp [waiteesOf, get?, same, Ne.symm same]
  | cons entry rest ih =>
    rw [add_cons]
    by_cases here : entry.signer = signer
    · rw [if_pos here, waiteesOf_cons, waiteesOf_cons, signer_register]
      by_cases same : entry.signer = other
      · simp [same, mem_waitees_register, ← here]
      · have different : other ≠ signer := fun equal => same (here.trans equal.symm)
        simp [same, different]
    · rw [if_neg here, waiteesOf_cons, waiteesOf_cons]
      by_cases same : entry.signer = other
      · have different : other ≠ signer := fun equal => here (same.trans equal)
        simp [same, different]
      · rw [if_neg same, if_neg same]
        exact ih

private theorem fst_registerIn (signer waitee : Name) (entries : List WaitingEntry) :
    (registerIn signer waitee entries).1 = !holds ⟨entries⟩ signer waitee := by
  induction entries with
  | nil => rfl
  | cons entry rest ih =>
    rw [registerIn, holds, waiteesOf_cons]
    by_cases here : entry.signer = signer
    · by_cases already : waitee ∈ entry.waitees
      · simp [here, already, WaitingEntry.register]
      · simp [here, already, WaitingEntry.register]
    · rw [if_neg here, if_neg here]
      exact ih

/-- Registering tells whether the pair is new. Afterwards it waits, and so do all that
    waited before. -/
theorem holds_register (list : WaitingList) (signer waitee : Name) :
    (list.register signer waitee).1 = !list.holds signer waitee ∧
      ∀ other name, (list.register signer waitee).2.holds other name = true ↔
        list.holds other name = true ∨ other = signer ∧ name = waitee := by
  refine ⟨fst_registerIn signer waitee list.entries, ?_⟩
  intro other name
  show (list.add signer waitee).holds other name = true ↔ _
  rw [holds_iff, holds_iff]
  exact mem_waiteesOf_add

theorem holds_add {list : WaitingList} {signer waitee other name : Name} :
    (list.add signer waitee).holds other name = true ↔
      list.holds other name = true ∨ other = signer ∧ name = waitee :=
  (list.holds_register signer waitee).2 other name

private theorem waiteesOf_remove_of_ne (list : WaitingList) {signer other : Name} (different : other ≠ signer) :
    (list.remove signer).waiteesOf other = list.waiteesOf other := by
  obtain ⟨entries⟩ := list
  rw [remove_eq]
  induction entries with
  | nil => rfl
  | cons entry rest ih =>
    rw [waiteesOf_cons]
    by_cases gone : entry.signer = signer
    · have passed : entry.signer ≠ other := fun same => different (same.symm.trans gone)
      simp only [List.filter_cons, gone, ne_eq, not_true, decide_false, Bool.false_eq_true, if_false]
      rw [if_neg (gone ▸ passed)]
      exact ih
    · simp only [List.filter_cons, gone, ne_eq, not_false_eq_true, decide_true, if_true]
      rw [waiteesOf_cons]
      split
      · rfl
      · exact ih

theorem mem_signers {list : WaitingList} {signer : Name} :
    signer ∈ list.signers ↔ ∃ entry ∈ list.entries, entry.signer = signer := by
  simp [signers]

private theorem fst_forget (list : WaitingList) (signer : Name) :
    (list.forget signer).1 = true ↔ signer ∈ list.signers := by
  have stays : (list.forget signer).1 = false ↔ ∀ entry ∈ list.entries, entry.signer ≠ signer := by
    simp [forget, List.length_filter_eq_length_iff]
  rw [← Bool.not_eq_false, stays, mem_signers]
  push Not
  rfl

/-- Forgetting tells whether the signer was waited for. It lets all go that wait for it,
    and nobody else. -/
theorem holds_forget (list : WaitingList) (signer : Name) :
    ((list.forget signer).1 = true ↔ signer ∈ list.signers) ∧
      ∀ other name, (list.forget signer).2.holds other name = true ↔
        list.holds other name = true ∧ other ≠ signer := by
  refine ⟨list.fst_forget signer, ?_⟩
  intro other name
  show (list.remove signer).holds other name = true ↔ _
  rw [holds_iff, holds_iff]
  by_cases same : other = signer
  · subst same
    simp [waiteesOf_remove_self]
  · rw [waiteesOf_remove_of_ne list same]
    simp [same]

theorem holds_remove {list : WaitingList} {signer other name : Name} :
    (list.remove signer).holds other name = true ↔ list.holds other name = true ∧ other ≠ signer :=
  (list.holds_forget signer).2 other name

private theorem signers_cons (entry : WaitingEntry) (rest : List WaitingEntry) :
    signers ⟨entry :: rest⟩ = entry.signer :: signers ⟨rest⟩ := rfl

private theorem signers_add (list : WaitingList) (signer waitee : Name) :
    (list.add signer waitee).signers =
      if signer ∈ list.signers then list.signers else list.signers ++ [signer] := by
  obtain ⟨entries⟩ := list
  induction entries with
  | nil => rfl
  | cons entry rest ih =>
    rw [add_cons]
    by_cases here : entry.signer = signer
    · simp [signers_cons, here]
    · rw [if_neg here, signers_cons, signers_cons, ih]
      by_cases later : signer ∈ signers ⟨rest⟩
      · rw [if_pos later, if_pos (List.mem_cons_of_mem _ later)]
      · have absent : signer ∉ entry.signer :: signers ⟨rest⟩ := by
          rw [List.mem_cons]
          rintro (same | inRest)
          · exact here same.symm
          · exact later inRest
        rw [if_neg later, if_neg absent, List.cons_append]

theorem mem_signers_add {list : WaitingList} {signer waitee other : Name} :
    other ∈ (list.add signer waitee).signers ↔ other ∈ list.signers ∨ other = signer := by
  rw [signers_add]
  by_cases present : signer ∈ list.signers
  · rw [if_pos present]
    constructor
    · exact .inl
    · rintro (old | rfl)
      · exact old
      · exact present
  · rw [if_neg present]
    simp

private theorem signers_remove (list : WaitingList) (signer : Name) :
    (list.remove signer).signers = list.signers.filter (· ≠ signer) := by
  rw [signers, remove_eq, signers, List.filter_map]
  rfl

theorem mem_signers_remove {list : WaitingList} {signer other : Name} :
    other ∈ (list.remove signer).signers ↔ other ∈ list.signers ∧ other ≠ signer := by
  simp [signers_remove]

/-- Who is waited for has an entry. -/
theorem mem_signers_of_holds {list : WaitingList} {signer waitee : Name}
    (waits : list.holds signer waitee = true) : signer ∈ list.signers := by
  rw [holds_iff, waiteesOf] at waits
  cases found : list.get? signer with
  | none =>
    rw [found] at waits
    cases waits
  | some entry =>
    have same : entry.signer = signer := by simpa using List.find?_some found
    exact mem_signers.2 ⟨entry, List.mem_of_find?_eq_some found, same⟩

/-! ### Sound lists -/

theorem sound_empty : empty.Sound := by
  refine ⟨List.nodup_nil, ?_⟩
  intro entry member
  cases member

private theorem sound_register {entry : WaitingEntry} (sound : entry.Sound) (waitee : Name) :
    (entry.register waitee).2.Sound := by
  unfold WaitingEntry.register
  split
  · exact sound
  · rename_i fresh
    refine ⟨by simp, ?_⟩
    rw [List.nodup_append]
    refine ⟨sound.distinct, by simp, ?_⟩
    intro name member other isNew same
    rw [List.mem_singleton] at isNew
    exact fresh (isNew ▸ same ▸ member)

private theorem sound_entries_add {list : WaitingList} (sound : ∀ entry ∈ list.entries, entry.Sound)
    (signer waitee : Name) : ∀ entry ∈ (list.add signer waitee).entries, entry.Sound := by
  obtain ⟨entries⟩ := list
  induction entries with
  | nil =>
    intro entry member
    rw [add_nil, List.mem_singleton] at member
    subst member
    exact ⟨by simp, by simp⟩
  | cons head rest ih =>
    intro entry member
    rw [add_cons] at member
    split at member
    · rcases List.mem_cons.1 member with rfl | member
      · exact sound_register (sound head List.mem_cons_self) waitee
      · exact sound entry (List.mem_cons_of_mem _ member)
    · rcases List.mem_cons.1 member with rfl | member
      · exact sound entry List.mem_cons_self
      · exact ih (fun e later => sound e (List.mem_cons_of_mem _ later)) entry member

theorem Sound.add {list : WaitingList} (sound : list.Sound) (signer waitee : Name) :
    (list.add signer waitee).Sound := by
  refine ⟨?_, sound_entries_add sound.entries signer waitee⟩
  rw [signers_add]
  split
  · exact sound.distinct
  · rename_i fresh
    rw [List.nodup_append]
    refine ⟨sound.distinct, by simp, ?_⟩
    intro name member other isNew same
    rw [List.mem_singleton] at isNew
    exact fresh (isNew ▸ same ▸ member)

theorem Sound.remove {list : WaitingList} (sound : list.Sound) (signer : Name) :
    (list.remove signer).Sound := by
  refine ⟨?_, ?_⟩
  · rw [signers_remove]
    exact sound.distinct.filter _
  · intro entry member
    exact sound.entries entry (List.mem_filter.1 member).1

theorem get?_eq_some_iff {list : WaitingList} (distinct : list.signers.Nodup) {signer : Name}
    {entry : WaitingEntry} :
    list.get? signer = some entry ↔ entry ∈ list.entries ∧ entry.signer = signer := by
  constructor
  · intro found
    exact ⟨List.mem_of_find?_eq_some found, by simpa using List.find?_some found⟩
  · obtain ⟨entries⟩ := list
    unfold get?
    rintro ⟨member, rfl⟩
    induction entries with
    | nil => cases member
    | cons head rest ih =>
      obtain ⟨fresh, distinctRest⟩ := List.nodup_cons.1 distinct
      rcases List.mem_cons.1 member with rfl | inRest
      · simp
      · have other : head.signer ≠ entry.signer := by
          intro same
          exact fresh (List.mem_map.2 ⟨entry, inRest, same.symm⟩)
        rw [List.find?_cons_of_neg (by simpa using other)]
        exact ih distinctRest inRest

theorem Sound.mem_pairs {list : WaitingList} (sound : list.Sound) {signer waitee : Name} :
    (signer, waitee) ∈ list.pairs ↔ list.holds signer waitee = true := by
  have named {entry : WaitingEntry} : (signer, waitee) ∈ entry.waitees.map (entry.signer, ·) ↔
      entry.signer = signer ∧ waitee ∈ entry.waitees := by
    simp [and_comm]
  rw [pairs, List.mem_flatMap, holds_iff, waiteesOf]
  constructor
  · rintro ⟨entry, member, pair⟩
    obtain ⟨own, waits⟩ := named.1 pair
    rw [(get?_eq_some_iff sound.distinct).2 ⟨member, own⟩]
    exact waits
  · intro waits
    cases found : list.get? signer with
    | none =>
      rw [found] at waits
      cases waits
    | some entry =>
      rw [found] at waits
      obtain ⟨member, own⟩ := (get?_eq_some_iff sound.distinct).1 found
      exact ⟨entry, member, named.2 ⟨own, waits⟩⟩

/-- A sound list has every pair once. -/
theorem Sound.nodup_pairs {list : WaitingList} (sound : list.Sound) : list.pairs.Nodup := by
  rw [pairs, List.nodup_flatMap]
  refine ⟨?_, ?_⟩
  · intro entry member
    exact (sound.entries entry member).distinct.map fun _ _ same => (Prod.mk.inj same).2
  · refine (List.pairwise_map.1 sound.distinct).imp ?_
    intro first second different pair inFirst inSecond
    obtain ⟨_, _, rfl⟩ := List.mem_map.1 inFirst
    obtain ⟨_, _, same⟩ := List.mem_map.1 inSecond
    exact different (congrArg Prod.fst same).symm

private theorem length_pairs (list : WaitingList) : list.pairs.length = list.pairCount := by
  simp [pairs, pairCount, List.length_flatMap]

/-- The pairs of a sound list are counted without counting one twice. -/
theorem Sound.card_pairs {list : WaitingList} (sound : list.Sound) :
    list.pairs.toFinset.card = list.pairCount := by
  rw [List.toFinset_card_of_nodup sound.nodup_pairs, length_pairs]

end WaitingList
end RouteTrust
