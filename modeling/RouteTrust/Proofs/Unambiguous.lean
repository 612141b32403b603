import RouteTrust.Proofs.Contents

namespace RouteTrust

namespace Name

/-- A name with one component more finds what the name finds exactly. -/
theorem resolvesTo_push (name : Name) (component : String) : (name.push component).resolvesTo name = true := by
  by_cases present : component = ""
  · rw [present, push_empty]
    exact name.resolvesTo_self
  · exact resolvesTo_iff.2 (.inr ⟨component, components_push present⟩)

end Name

/-- Records that lie apart do so in every order. -/
theorem Separated.of_perm {records others : List Record} (separated : Separated records)
    (same : others.Perm records) : Separated others := by
  refine separated.perm same.symm ?_
  intro a b apart
  rw [Name.overlaps_comm]
  exact apart

private theorem Separated.overlaps_getElem {records : List Record} (separated : Separated records) {i j : Nat}
    (first : i < records.length) (second : j < records.length) (different : i ≠ j) :
    records[i].name.overlaps records[j].name = false := by
  rcases Nat.lt_or_gt_of_ne different with before | behind
  · exact List.pairwise_iff_getElem.1 separated i j first second before
  · rw [Name.overlaps_comm]
    exact List.pairwise_iff_getElem.1 separated j i second first behind

/-- No name stands twice among names that lie apart. -/
theorem Separated.nodup_names {records : List Record} (separated : Separated records) :
    (records.map Record.name).Nodup := by
  refine (separated_iff.1 separated).imp ?_
  rintro a _ apart rfl
  rw [Name.overlaps_self] at apart
  cases apart

/-- A lookup resolves to one place at most. -/
theorem Separated.resolve_getElem {records : List Record} (separated : Separated records) {lookup : Name}
    {i j : Nat} (first : i < records.length) (second : j < records.length)
    (toFirst : lookup.resolvesTo records[i].name = true) (toSecond : lookup.resolvesTo records[j].name = true) :
    i = j := by
  by_contra different
  have apart := separated.overlaps_getElem first second different
  rw [Name.overlaps_of_resolvesTo toFirst toSecond] at apart
  cases apart

namespace Store

theorem find?_of_perm {store other : Store} (separated : Separated store.records)
    (same : other.records.Perm store.records) (lookup : Name) : other.find? lookup = store.find? lookup := by
  ext record
  rw [find?_eq_some_iff (separated.of_perm same), find?_eq_some_iff separated, same.mem_iff]

end Store

/-- Both stores give the same answers about what a lookup finds, and their places for
    it hold the same record. -/
structure Agree (store other : Store) (lookup : Name) : Prop where
  found : other.find? lookup = store.find? lookup
  place : (other.position? lookup).bind (other.records[·]?) = (store.position? lookup).bind (store.records[·]?)
  certificate : other.certificate? lookup = store.certificate? lookup
  seq : other.seq? lookup = store.seq? lookup
  verified : other.isVerified lookup = store.isVerified lookup

/-- A store whose lookups have one answer, whatever the order of its records. -/
structure Unambiguous (store : Store) : Prop where
  apart : ∀ (i j : Nat) (first : i < store.records.length) (second : j < store.records.length), i ≠ j →
    store.records[i].name.overlaps store.records[j].name = false
  distinct : (store.records.map Record.name).Nodup
  onePlace : ∀ (lookup : Name) (i j : Nat) (first : i < store.records.length) (second : j < store.records.length),
    lookup.resolvesTo store.records[i].name = true → lookup.resolvesTo store.records[j].name = true → i = j
  anyOrder : ∀ other : Store, other.records.Perm store.records → ∀ lookup, Agree store other lookup
  ownName : ∀ record ∈ store.records, store.find? record.name = some record
  longerName : ∀ record ∈ store.records, ∀ component, store.find? (record.name.push component) = some record

theorem unambiguous_of_separated {store : Store} (separated : Separated store.records) : Unambiguous store where
  apart _ _ first second different := separated.overlaps_getElem first second different
  distinct := separated.nodup_names
  onePlace _ _ _ first second toFirst toSecond := separated.resolve_getElem first second toFirst toSecond
  anyOrder other same lookup := by
    have found := Store.find?_of_perm separated same lookup
    refine ⟨found, ?_, ?_, ?_, ?_⟩
    · rw [Store.getElem?_position?, Store.getElem?_position?, found]
    · rw [Store.certificate?, Store.certificate?, found]
    · rw [Store.seq?, Store.seq?, found]
    · rw [Store.isVerified, Store.isVerified, found]
  ownName _ member := Store.find?_name separated member
  longerName record member component :=
    (Store.find?_eq_some_iff separated).2 ⟨member, record.name.resolvesTo_push component⟩

/-- After any calls, lookups are unambiguous. -/
theorem unambiguous_perform (operations : List Operation) : Unambiguous (Store.empty.perform operations) :=
  unambiguous_of_separated (Store.separated_perform operations)

end RouteTrust
