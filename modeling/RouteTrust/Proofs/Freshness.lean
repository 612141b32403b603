import RouteTrust.Proofs.Contents
import RouteTrust.Proofs.Stranding

/-!
Whether the number of a name can go back. A store knows how fresh a name is only
from the records that overlap it. A record under an overlapping name may replace
it, and one that overlaps the second name but not the first may replace that one:
then the first name's number is forgotten. Without such a detour the numbers under
which a name is taken rise (`exists_detour`), so the names in use decide whether
they always do.
-/
namespace RouteTrust

/-- The name of a certificate and the number that it is inserted with. -/
structure Version where
  name : Name
  seq : UInt64
  deriving DecidableEq

def Record.version (record : Record) : Version := ⟨record.name, record.seq⟩

namespace Operation

/-- The call is a removal. -/
def removes : Operation → Bool
  | insert _ _ _ _ => false
  | setVerified _ _ _ => false
  | remove _ => true

/-- The version that a call inserts, if the store accepts it. -/
def accepted? (operation : Operation) (store : Store) : Option Version :=
  match operation with
  | insert _ certificate seq _ =>
    if (operation.run store).answer then some ⟨certificate.name, seq⟩ else none
  | setVerified _ _ _ => none
  | remove _ => none

end Operation

namespace Store

def versions (store : Store) : List Version := store.records.map Record.version

/-- The versions that calls insert and the store accepts, in order. -/
def accepted (store : Store) : List Operation → List Version
  | [] => []
  | operation :: rest => (operation.accepted? store).toList ++ (operation.run store).store.accepted rest

end Store

/-- Each name is accepted under greater and greater numbers. -/
def Rising (versions : List Version) : Prop :=
  versions.Pairwise fun earlier later => earlier.name = later.name → earlier.seq < later.seq

instance (versions : List Version) : Decidable (Rising versions) :=
  inferInstanceAs (Decidable (versions.Pairwise _))

/-- After the first version, one of an overlapping name is accepted with a greater
    number, and then, with a number greater still, one that overlaps this name but not
    that of the first. -/
structure Detour (first : Version) (between : List Version) (via away : Version) : Prop where
  inOrder : [via, away].Sublist between
  near : via.name.overlaps first.name = true
  newer : first.seq < via.seq
  next : away.name.overlaps via.name = true
  newerToo : via.seq < away.seq
  apart : away.name.overlaps first.name = false

namespace Store
variable {store : Store} {operation : Operation} {operations : List Operation} {first again new version : Version}
  {seen between rest : List Version}

private theorem newer_iff {name : Name} {seq : UInt64} :
    store.holdsFresher name seq = false ↔
      ∀ version ∈ store.versions, version.name.overlaps name = true → version.seq < seq := by
  simp [holdsFresher_eq_false_iff, versions, Record.version]

/-- A version is accepted if it is newer than all stored ones that overlap it. -/
theorem accepted?_insert {check : SignatureCheck} {certificate : Certificate} {seq : UInt64} {trusted : Bool} :
    Operation.accepted? (.insert check certificate seq trusted) store =
      if store.holdsFresher certificate.name seq then none else some ⟨certificate.name, seq⟩ := by
  unfold Operation.accepted? Operation.run
  cases fresher : store.holdsFresher certificate.name seq with
  | true => simp [insert, fresher]
  | false => simp [answer_insert fresher]

private theorem newer_of_accepted? (accepted : operation.accepted? store = some new) (member : version ∈ store.versions)
    (overlap : version.name.overlaps new.name = true) : version.seq < new.seq := by
  cases operation with
  | insert check certificate seq trusted =>
    rw [accepted?_insert] at accepted
    split at accepted
    · cases accepted
    · rename_i newer
      cases accepted
      exact newer_iff.1 (Bool.eq_false_iff.2 newer) version member overlap
  | setVerified check lookup verified => cases accepted
  | remove lookup => cases accepted

/-- The versions in a store are those of the records that the call leaves. -/
theorem versions_run (operation : Operation) (store : Store) :
    (operation.run store).store.versions = (operation.leaves store).map Record.version := by
  have same := congrArg (List.map Record.version) (grown_run operation store).map_asVerified
  rw [List.map_map, List.map_map] at same
  exact same

/-- An accepted version takes the place of all that overlap it. -/
theorem versions_of_accepted? (accepted : operation.accepted? store = some new) :
    (operation.run store).store.versions =
      store.versions.filter (fun version => !version.name.overlaps new.name) ++ [new] := by
  cases operation with
  | insert check certificate seq trusted =>
    rw [accepted?_insert] at accepted
    split at accepted
    · cases accepted
    · rename_i newer
      cases accepted
      rw [versions_run, Operation.leaves, if_neg newer, List.map_append, versions, List.filter_map]
      rfl
  | setVerified check lookup verified => cases accepted
  | remove lookup => cases accepted

private theorem mem_versions_of_accepted? (accepted : operation.accepted? store = some new) :
    version ∈ (operation.run store).store.versions ↔
      version ∈ store.versions ∧ version.name.overlaps new.name = false ∨ version = new := by
  simp [versions_of_accepted? accepted]

/-- Calls that accept nothing and remove nothing leave the versions alone. -/
theorem versions_of_not_accepted (rejected : operation.accepted? store = none) (kept : operation.removes = false) :
    (operation.run store).store.versions = store.versions := by
  rw [versions_run]
  cases operation with
  | insert check certificate seq trusted =>
    rw [accepted?_insert] at rejected
    split at rejected
    · rename_i fresher
      rw [Operation.leaves, if_pos fresher, versions]
    · cases rejected
  | setVerified check lookup verified => rfl
  | remove lookup => cases kept

private theorem accepted_cons_of_none (rejected : operation.accepted? store = none) :
    store.accepted (operation :: operations) = (operation.run store).store.accepted operations := by
  rw [accepted, rejected, Option.toList_none, List.nil_append]

private theorem accepted_cons_of_some (accepted : operation.accepted? store = some new) :
    store.accepted (operation :: operations) = new :: (operation.run store).store.accepted operations := by
  rw [Store.accepted, accepted, Option.toList_some, List.singleton_append]

end Store

/-- A stored version overlaps the first one and is not older: the first one itself, or
    one that was accepted since, with a greater number. -/
def Guarded (store : Store) (first : Version) (seen : List Version) : Prop :=
  ∃ guard ∈ store.versions, guard.name.overlaps first.name = true ∧
    (guard = first ∨ first.seq < guard.seq ∧ guard ∈ seen)

namespace Store
variable {store : Store} {operation : Operation} {operations : List Operation} {first again new : Version}
  {seen between rest : List Version}

/-- An accepted version replaces the guard by a newer one, or leads away. -/
theorem guarded_run (guarded : Guarded store first seen) (accepted : operation.accepted? store = some new) :
    Guarded (operation.run store).store first (seen ++ [new]) ∨ ∃ via, Detour first (seen ++ [new]) via new := by
  obtain ⟨guard, stored, near, origin⟩ := guarded
  by_cases replaced : guard.name.overlaps new.name = true
  · have newer : guard.seq < new.seq := newer_of_accepted? accepted stored replaced
    by_cases inside : new.name.overlaps first.name = true
    · have risen : first.seq < new.seq := by
        rcases origin with rfl | ⟨above, _⟩
        · exact newer
        · exact UInt64.lt_trans above newer
      refine .inl ⟨new, (mem_versions_of_accepted? accepted).2 (.inr rfl), inside, .inr ⟨risen, ?_⟩⟩
      exact List.mem_append_right seen List.mem_cons_self
    · -- The guard is not the first version, since the new one overlaps it.
      rcases origin with rfl | ⟨above, earlier⟩
      · rw [Name.overlaps_comm] at replaced
        exact absurd replaced inside
      · refine .inr ⟨guard, ?_, near, above, ?_, newer, Bool.eq_false_iff.2 inside⟩
        · exact List.Sublist.append (List.singleton_sublist.2 earlier) (List.Sublist.refl [new])
        · rw [Name.overlaps_comm]
          exact replaced
  · have stays := (mem_versions_of_accepted? accepted).2 (.inl ⟨stored, Bool.eq_false_iff.2 replaced⟩)
    exact .inl ⟨guard, stays, near, origin.imp_right fun ⟨above, earlier⟩ => ⟨above, List.mem_append_left _ earlier⟩⟩

/-- Against a guard nothing that is no newer is accepted, so a detour comes first. -/
theorem exists_detour_of_guarded (guarded : Guarded store first seen)
    (kept : ∀ operation ∈ operations, operation.removes = false)
    (accepted : store.accepted operations = between ++ again :: rest) (same : again.name = first.name)
    (older : again.seq ≤ first.seq) : ∃ via away, Detour first (seen ++ between) via away := by
  induction operations generalizing store seen between with
  | nil => simp [Store.accepted] at accepted
  | cons operation later ih =>
    have keptLater : ∀ operation ∈ later, operation.removes = false :=
      fun operation member => kept operation (List.mem_cons_of_mem _ member)
    cases now : operation.accepted? store with
    | none =>
      rw [accepted_cons_of_none now] at accepted
      refine ih ?_ keptLater accepted
      unfold Guarded
      rw [versions_of_not_accepted now (kept operation List.mem_cons_self)]
      exact guarded
    | some new =>
      rw [accepted_cons_of_some now] at accepted
      cases between with
      | nil =>
        obtain ⟨rfl, _⟩ := List.cons.inj accepted
        obtain ⟨guard, stored, near, origin⟩ := guarded
        have newer : guard.seq < new.seq := newer_of_accepted? now stored (same ▸ near)
        have risen : first.seq ≤ guard.seq := by
          rcases origin with rfl | ⟨above, _⟩
          · exact UInt64.le_refl guard.seq
          · exact UInt64.le_of_lt above
        exact absurd (UInt64.lt_of_le_of_lt risen newer) (UInt64.not_lt.2 older)
      | cons head between =>
        obtain ⟨rfl, acceptedLater⟩ := List.cons.inj accepted
        rw [List.append_cons]
        rcases guarded_run guarded now with guardedStill | ⟨via, detour⟩
        · exact ih guardedStill keptLater acceptedLater
        · exact ⟨via, new, { detour with inOrder := detour.inOrder.trans (List.sublist_append_left _ _) }⟩

/-- A name is accepted under a number that is not greater only after a detour. -/
theorem exists_detour {before : List Version} (kept : ∀ operation ∈ operations, operation.removes = false)
    (accepted : store.accepted operations = before ++ first :: between ++ again :: rest)
    (same : again.name = first.name) (older : again.seq ≤ first.seq) :
    ∃ via away, Detour first between via away := by
  induction operations generalizing store before with
  | nil => simp [Store.accepted] at accepted
  | cons operation later ih =>
    have keptLater : ∀ operation ∈ later, operation.removes = false :=
      fun operation member => kept operation (List.mem_cons_of_mem _ member)
    cases now : operation.accepted? store with
    | none =>
      rw [accepted_cons_of_none now] at accepted
      exact ih keptLater accepted
    | some new =>
      rw [accepted_cons_of_some now] at accepted
      cases before with
      | cons head before => exact ih keptLater (List.cons.inj accepted).2
      | nil =>
        obtain ⟨rfl, acceptedLater⟩ := List.cons.inj accepted
        -- The first version guards itself.
        have guarded : Guarded (operation.run store).store new [] :=
          ⟨new, (mem_versions_of_accepted? now).2 (.inr rfl), Name.overlaps_self _, .inl rfl⟩
        exact exists_detour_of_guarded guarded keptLater acceptedLater same older

/-! ### Names under which numbers rise -/

private theorem inUse_of_accepted {inUse : Name → Prop} (inserts : InsertsOnly inUse operations)
    (member : version ∈ store.accepted operations) : inUse version.name := by
  induction operations generalizing store with
  | nil => cases member
  | cons operation later ih =>
    have insertsLater : InsertsOnly inUse later := fun check certificate seq trusted inLater =>
      inserts check certificate seq trusted (List.mem_cons_of_mem _ inLater)
    rcases List.mem_append.1 member with now | inRest
    · rw [Option.mem_toList] at now
      cases operation with
      | insert check certificate seq trusted =>
        rw [accepted?_insert] at now
        split at now
        · cases now
        · cases now
          exact inserts check certificate seq trusted List.mem_cons_self
      | setVerified check lookup verified => cases now
      | remove lookup => cases now
    · exact ih insertsLater inRest

/-- If the names in use leave no room for a detour, all numbers rise. -/
theorem rising_of_no_room {inUse : Name → Prop}
    (noRoom : ∀ name via away, inUse name → inUse via → inUse away → via.overlaps name = true →
      away.overlaps via = true → away.overlaps name = true)
    (inserts : InsertsOnly inUse operations) (kept : ∀ operation ∈ operations, operation.removes = false) :
    Rising (store.accepted operations) := by
  apply List.pairwise_iff_forall_sublist.2
  intro first again ordered same
  by_contra notRisen
  obtain ⟨front, back, split, inFront, inBack⟩ := List.cons_sublist_iff.1 ordered
  obtain ⟨before, between, rfl⟩ := List.append_of_mem inFront
  obtain ⟨more, rest, rfl⟩ := List.append_of_mem (List.singleton_sublist.1 inBack)
  have accepted : store.accepted operations = before ++ first :: (between ++ more) ++ again :: rest := by
    simp [split]
  obtain ⟨via, away, detour⟩ := exists_detour kept accepted same.symm (UInt64.not_lt.1 notRisen)
  have used {version : Version} (member : version ∈ first :: (between ++ more)) : inUse version.name := by
    have taken : version ∈ store.accepted operations := by
      rw [accepted]
      exact List.mem_append_left _ (List.mem_append_right _ member)
    exact inUse_of_accepted inserts taken
  have onTheWay := detour.inOrder.subset
  have overlap := noRoom first.name via.name away.name (used List.mem_cons_self)
    (used (List.mem_cons_of_mem _ (onTheWay (by simp)))) (used (List.mem_cons_of_mem _ (onTheWay (by simp))))
    detour.near detour.next
  rw [detour.apart] at overlap
  cases overlap

/-- A name is taken, replaced through another name that overlaps it, and taken again
    with the number of the first time. -/
def detourRun (name via away : Name) : List Operation :=
  [.insert (fun _ _ => true) (.blank name name) 1 false, .insert (fun _ _ => true) (.blank via via) 2 false,
    .insert (fun _ _ => true) (.blank away away) 3 false, .insert (fun _ _ => true) (.blank name name) 1 false]

private theorem accepted?_of_newer {check : SignatureCheck} {certificate : Certificate} {seq : UInt64} {trusted : Bool}
    (newer : ∀ version ∈ store.versions, version.name.overlaps certificate.name = true → version.seq < seq) :
    Operation.accepted? (.insert check certificate seq trusted) store = some ⟨certificate.name, seq⟩ := by
  rw [accepted?_insert, newer_iff.2 newer]
  rfl

private theorem accepted_detourRun {name via away : Name} (near : via.overlaps name = true)
    (next : away.overlaps via = true) (apart : away.overlaps name = false) :
    empty.accepted (detourRun name via away) = [⟨name, 1⟩, ⟨via, 2⟩, ⟨away, 3⟩, ⟨name, 1⟩] := by
  rw [Name.overlaps_comm] at near next
  -- Each call finds the version of the one before it.
  have alone {store : Store} {old : Version} (certificate : Certificate) (seq : UInt64)
      (only : store.versions = [old]) (newer : old.name.overlaps certificate.name = true → old.seq < seq) :
      Operation.accepted? (.insert (fun _ _ => true) certificate seq false) store = some ⟨certificate.name, seq⟩ := by
    apply accepted?_of_newer
    intro version member overlap
    rw [only, List.mem_singleton] at member
    exact member ▸ newer (member ▸ overlap)
  have replaced {store : Store} {operation : Operation} {old new : Version} (only : store.versions = [old])
      (accepted : operation.accepted? store = some new) (overlap : old.name.overlaps new.name = true) :
      (operation.run store).store.versions = [new] := by
    simp [versions_of_accepted? accepted, only, overlap]
  have first : Operation.accepted? (.insert (fun _ _ => true) (.blank name name) 1 false) empty = some ⟨name, 1⟩ := by
    apply accepted?_of_newer
    intro version member
    cases member
  have afterFirst := versions_of_accepted? first
  have second := alone (.blank via via) 2 afterFirst fun _ => (by decide : (1 : UInt64) < 2)
  have afterSecond := replaced afterFirst second near
  have third := alone (.blank away away) 3 afterSecond fun _ => (by decide : (2 : UInt64) < 3)
  have afterThird := replaced afterSecond third next
  have fourth := alone (.blank name name) 1 afterThird fun overlap => Bool.noConfusion (apart.symm.trans overlap)
  rw [detourRun, accepted_cons_of_some first, accepted_cons_of_some second, accepted_cons_of_some third,
    accepted_cons_of_some fourth]
  rfl

private theorem not_rising_detourRun {name via away : Name} (near : via.overlaps name = true)
    (next : away.overlaps via = true) (apart : away.overlaps name = false) :
    ¬ Rising (empty.accepted (detourRun name via away)) := by
  rw [accepted_detourRun near next apart]
  intro rising
  obtain ⟨later, _⟩ := List.pairwise_cons.1 rising
  have risen : (1 : UInt64) < 1 := later ⟨name, 1⟩ (by simp) rfl
  exact absurd risen (by decide)

/-- How far numbers rise. While nothing is removed, a name is accepted under a number
    that is not greater than an earlier one only after a detour through another name.
    Names in use never let a number go back, in any run, exactly if whatever overlaps
    one that overlaps a name overlaps this name too. -/
theorem rising_exactly (operations : List Operation) (inUse : Name → Prop) :
    ((∀ operation ∈ operations, operation.removes = false) → ∀ before first between again rest,
      empty.accepted operations = before ++ first :: between ++ again :: rest → again.name = first.name →
      again.seq ≤ first.seq → ∃ via away, Detour first between via away) ∧
    ((∀ run, InsertsOnly inUse run → (∀ operation ∈ run, operation.removes = false) →
        Rising (empty.accepted run)) ↔
      ∀ name via away, inUse name → inUse via → inUse away → via.overlaps name = true →
        away.overlaps via = true → away.overlaps name = true) := by
  refine ⟨?_, ?_, ?_⟩
  · intro kept before first between again rest accepted same older
    exact exists_detour kept accepted same older
  · intro rises name via away nameInUse viaInUse awayInUse near next
    rw [← Bool.not_eq_false]
    intro apart
    refine not_rising_detourRun near next apart (rises _ ?_ ?_)
    · simp [detourRun, nameInUse, viaInUse, awayInUse]
    · simp [detourRun, Operation.removes]
  · intro noRoom run inserts kept
    exact rising_of_no_room noRoom inserts kept

/-- The site's name comes back with an old number after two versions of it, and a name
    alone only with greater ones. -/
theorem rising_exactly_site :
    (∃ via away, Detour ⟨.ofList ["a", "KEY", "k"], 1⟩
      [⟨.ofList ["a", "KEY", "k", "v"], 2⟩, ⟨.ofList ["a", "KEY", "k", "v", "w"], 3⟩] via away) ∧
    Rising (empty.accepted [.insert (fun _ _ => true) (.sample ["a", "KEY", "k"] ["s", "KEY", "1"]) 1 false,
      .insert (fun _ _ => true) (.sample ["a", "KEY", "k"] ["s", "KEY", "1"]) 1 false]) := by
  refine ⟨?_, ?_⟩
  · refine (rising_exactly (detourRun (.ofList ["a", "KEY", "k"]) (.ofList ["a", "KEY", "k", "v"])
      (.ofList ["a", "KEY", "k", "v", "w"])) fun _ => True).1 ?_ [] _ _ ⟨.ofList ["a", "KEY", "k"], 1⟩ [] ?_ rfl ?_
    · simp [detourRun, Operation.removes]
    · exact accepted_detourRun (by decide +kernel) (by decide +kernel) (by decide +kernel)
    · decide
  · refine (rising_exactly [] (· = .ofList ["a", "KEY", "k"])).2.2 ?_ _ ?_ ?_
    · rintro name via away rfl rfl rfl _ overlap
      exact overlap
    · simp [Certificate.sample]
    · simp [Operation.removes]

/-- A number goes back without any removal. -/
theorem number_goes_back :
    (∀ operation ∈ detourRun (.ofList ["a", "KEY", "k"]) (.ofList ["a", "KEY", "k", "v"])
      (.ofList ["a", "KEY", "k", "v", "w"]), operation.removes = false) ∧
    ¬ Rising (empty.accepted (detourRun (.ofList ["a", "KEY", "k"]) (.ofList ["a", "KEY", "k", "v"])
      (.ofList ["a", "KEY", "k", "v", "w"]))) :=
  ⟨by simp [detourRun, Operation.removes],
    not_rising_detourRun (by decide +kernel) (by decide +kernel) (by decide +kernel)⟩

end Store
end RouteTrust
