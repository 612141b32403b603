import RouteTrust.Store.Update

namespace RouteTrust

namespace Name

theorem overlaps_iff {a b : Name} :
    a.overlaps b = true ↔ a.resolvesTo b = true ∨ b.resolvesTo a = true := by
  simp [overlaps]

@[simp] theorem overlaps_self (name : Name) : name.overlaps name = true := by
  simp [overlaps]

theorem overlaps_eq_false_iff {a b : Name} :
    a.overlaps b = false ↔ a.resolvesTo b = false ∧ b.resolvesTo a = false := by
  simp [overlaps]

/-- The names that one lookup resolves to overlap. -/
theorem overlaps_of_resolvesTo {lookup a b : Name} (first : lookup.resolvesTo a = true)
    (second : lookup.resolvesTo b = true) : a.overlaps b = true := by
  rw [overlaps_iff]
  rcases resolvesTo_iff.1 first with rfl | ⟨v, split⟩
  · exact .inl second
  · rcases resolvesTo_iff.1 second with rfl | ⟨w, other⟩
    · exact .inr first
    · have same : a.components = b.components := by
        rw [split] at other
        exact (List.append_inj' other rfl).1
      rw [ext_components same]
      exact .inl (resolvesTo_self b)

theorem length_longer {short long : Name} {version : String}
    (longer : long.components = short.components ++ [version]) : long.length = short.length + 1 := by
  rw [length, longer, List.length_append, List.length_singleton, length]

theorem ne_of_longer {short long : Name} {version : String}
    (longer : long.components = short.components ++ [version]) : long ≠ short := by
  rintro rfl
  have lengths := length_longer longer
  omega

/-- Who has one component more is not found by the shorter name. -/
theorem not_resolvesTo_longer {short long : Name} (longer : long.resolvesTo short = true) (differ : long ≠ short) :
    short.resolvesTo long = false := by
  obtain ⟨version, split⟩ := (resolvesTo_iff.1 longer).resolve_left differ
  rw [Bool.eq_false_iff]
  intro back
  rcases resolvesTo_iff.1 back with same | ⟨other, again⟩
  · exact differ same.symm
  · have oneMore := length_longer split
    have oneLess := length_longer again
    omega

/-- Who has two components more does not find the shorter name. -/
theorem not_resolvesTo_of_beyond {short long far : Name} {version extra : String}
    (longer : long.components = short.components ++ [version]) (beyond : far.components = long.components ++ [extra]) :
    far.resolvesTo short = false := by
  have oneMore := length_longer longer
  have twoMore := length_longer beyond
  rw [Bool.eq_false_iff]
  intro reaches
  rcases resolvesTo_iff.1 reaches with rfl | ⟨other, again⟩
  · omega
  · have lengths := length_longer again
    omega

end Name

namespace Record

/-- The record with its trust given. -/
def asVerified (record : Record) : Record := { record with verified := true }

@[simp] theorem seq_asVerified (record : Record) : record.asVerified.seq = record.seq := rfl
@[simp] theorem verified_asVerified (record : Record) : record.asVerified.verified = true := rfl
@[simp] theorem name_asVerified (record : Record) : record.asVerified.name = record.name := rfl

theorem asVerified_of_verified {record : Record} (verified : record.verified = true) :
    record.asVerified = record := by
  cases record; cases verified; rfl

end Record

/-- No name of a stored certificate overlaps another. -/
def Separated (records : List Record) : Prop :=
  records.Pairwise fun a b => a.name.overlaps b.name = false

theorem separated_iff {records : List Record} :
    Separated records ↔ (records.map Record.name).Pairwise fun a b => a.overlaps b = false := by
  rw [Separated, List.pairwise_map]

/-- Things whose names lie apart are known by any name that overlaps theirs. -/
theorem unique_of_apart {α : Type} {name : α → Name} {items : List α}
    (apart : items.Pairwise fun a b => (name a).overlaps (name b) = false) {a b : α}
    (first : a ∈ items) (second : b ∈ items) (overlap : (name a).overlaps (name b) = true) : a = b := by
  induction apart with
  | nil => cases first
  | @cons head rest others _ ih =>
    rcases List.mem_cons.1 first with same | inRest
    · rcases List.mem_cons.1 second with sameToo | inRestToo
      · rw [same, sameToo]
      · rw [same, others b inRestToo] at overlap
        cases overlap
    · rcases List.mem_cons.1 second with sameToo | inRestToo
      · rw [sameToo, Name.overlaps_comm, others a inRest] at overlap
        cases overlap
      · exact ih inRest inRestToo

theorem Separated.unique {records : List Record} (separated : Separated records) {a b : Record}
    (first : a ∈ records) (second : b ∈ records) (overlap : a.name.overlaps b.name = true) : a = b :=
  unique_of_apart separated first second overlap

/-- A lookup resolves to at most one stored certificate. -/
theorem Separated.resolve {records : List Record} (separated : Separated records) {lookup : Name}
    {a b : Record} (first : a ∈ records) (second : b ∈ records) (toA : lookup.resolvesTo a.name = true)
    (toB : lookup.resolvesTo b.name = true) : a = b :=
  separated.unique first second (Name.overlaps_of_resolvesTo toA toB)

namespace Store

theorem mem_of_find? {store : Store} {lookup : Name} {record : Record}
    (found : store.find? lookup = some record) :
    record ∈ store.records ∧ lookup.resolvesTo record.name = true :=
  ⟨List.mem_of_find?_eq_some found, by simpa using List.find?_some found⟩

theorem find?_eq_none_iff {store : Store} {lookup : Name} :
    store.find? lookup = none ↔ ∀ record ∈ store.records, lookup.resolvesTo record.name = false := by
  simp [find?]

theorem find?_eq_some_iff {store : Store} (separated : Separated store.records) {lookup : Name}
    {record : Record} :
    store.find? lookup = some record ↔ record ∈ store.records ∧ lookup.resolvesTo record.name = true := by
  constructor
  · exact mem_of_find?
  · rintro ⟨member, resolves⟩
    cases found : store.find? lookup with
    | none =>
      rw [find?_eq_none_iff.1 found record member] at resolves
      cases resolves
    | some other =>
      obtain ⟨otherMember, otherResolves⟩ := mem_of_find? found
      rw [separated.resolve otherMember member otherResolves resolves]

/-- A name finds its own record. -/
theorem find?_name {store : Store} (separated : Separated store.records) {record : Record}
    (member : record ∈ store.records) : store.find? record.name = some record :=
  (find?_eq_some_iff separated).2 ⟨member, record.name.resolvesTo_self⟩

/-- Marking gives trust to some records and changes nothing else. -/
theorem map_asVerified_markFirst (lookup : Name) (records : List Record) :
    (markFirst lookup records).map Record.asVerified = records.map Record.asVerified := by
  induction records with
  | nil => rfl
  | cons head rest ih =>
    unfold markFirst
    split
    · rfl
    · rw [List.map_cons, List.map_cons, ih]

private theorem map_name_markFirst (lookup : Name) (records : List Record) :
    (markFirst lookup records).map Record.name = records.map Record.name := by
  have same := congrArg (List.map Record.name) (map_asVerified_markFirst lookup records)
  rw [List.map_map, List.map_map] at same
  exact same

theorem separated_markFirst {lookup : Name} {records : List Record} :
    Separated (markFirst lookup records) ↔ Separated records := by
  rw [separated_iff, separated_iff, map_name_markFirst]

/-- Among separated records, marking the first one marks the only one. -/
theorem markFirst_eq_map {records : List Record} (separated : Separated records) (lookup : Name) :
    markFirst lookup records =
      records.map fun record => if lookup.resolvesTo record.name then record.asVerified else record := by
  induction separated with
  | nil => rfl
  | @cons head rest apart _ ih =>
    by_cases resolves : lookup.resolvesTo head.name = true
    · have others : ∀ record ∈ rest, lookup.resolvesTo record.name = false := by
        intro record member
        rw [Bool.eq_false_iff]
        intro resolvesToo
        have overlap := Name.overlaps_of_resolvesTo resolves resolvesToo
        rw [apart record member] at overlap
        cases overlap
      have kept : rest.map (fun record => if lookup.resolvesTo record.name then record.asVerified else record) =
          rest := by
        refine (List.map_congr_left ?_).trans (List.map_id rest)
        intro record member
        simp [others record member]
      rw [List.map_cons, kept, markFirst, if_pos resolves, if_pos resolves]
      rfl
    · rw [List.map_cons, markFirst, if_neg resolves, if_neg resolves, ih]

/-- Marking what a lookup finds changes that record only. -/
theorem mem_markVerified {store : Store} (separated : Separated store.records) {lookup : Name}
    {subject : Record} (found : store.find? lookup = some subject) {record : Record} :
    record ∈ (store.markVerified lookup).records ↔
      record = subject.asVerified ∨ record ∈ store.records ∧ record ≠ subject := by
  obtain ⟨member, resolves⟩ := mem_of_find? found
  rw [markVerified, markFirst_eq_map separated, List.mem_map]
  constructor
  · rintro ⟨old, oldMember, rfl⟩
    by_cases same : old = subject
    · subst same
      exact .inl (if_pos resolves)
    · have other : ¬ lookup.resolvesTo old.name = true :=
        fun resolvesToo => same (separated.resolve oldMember member resolvesToo resolves)
      rw [if_neg other]
      exact .inr ⟨oldMember, same⟩
  · rintro (rfl | ⟨oldMember, different⟩)
    · exact ⟨subject, member, if_pos resolves⟩
    · refine ⟨record, oldMember, if_neg ?_⟩
      exact fun resolvesToo => different (separated.resolve oldMember member resolvesToo resolves)

theorem markFirst_concat {lookup : Name} {others : List Record} {last : Record}
    (passed : ∀ record ∈ others, lookup.resolvesTo record.name = false)
    (resolves : lookup.resolvesTo last.name = true) :
    markFirst lookup (others ++ [last]) = others ++ [last.asVerified] := by
  induction others with
  | nil => simp [markFirst, resolves, Record.asVerified]
  | cons head rest ih =>
    have later := ih fun record member => passed record (List.mem_cons_of_mem _ member)
    simp [markFirst, passed head List.mem_cons_self, later]

/-- Marking changes the record that is found, also where others would be found too. -/
theorem mem_markFirst {lookup : Name} {records : List Record} {record : Record}
    (member : record ∈ markFirst lookup records) :
    record ∈ records ∨
      ∃ subject, records.find? (fun other => lookup.resolvesTo other.name) = some subject ∧
        record = subject.asVerified := by
  induction records with
  | nil => cases member
  | cons head rest ih =>
    rw [List.find?_cons]
    by_cases resolves : lookup.resolvesTo head.name = true
    · have marked : markFirst lookup (head :: rest) = head.asVerified :: rest := if_pos resolves
      rw [marked] at member
      rw [resolves]
      rcases List.mem_cons.1 member with rfl | later
      · exact .inr ⟨head, rfl, rfl⟩
      · exact .inl (List.mem_cons_of_mem _ later)
    · have passed : markFirst lookup (head :: rest) = head :: markFirst lookup rest := if_neg resolves
      rw [passed] at member
      rw [Bool.eq_false_iff.2 resolves]
      rcases List.mem_cons.1 member with rfl | later
      · exact .inl List.mem_cons_self
      · exact (ih later).imp_left (List.mem_cons_of_mem _)

/-- What marking leaves unverified was there before. -/
theorem mem_of_mem_markFirst {lookup : Name} {records : List Record} {record : Record}
    (member : record ∈ markFirst lookup records) (unverified : record.verified = false) :
    record ∈ records := by
  rcases mem_markFirst member with old | ⟨subject, _, rfl⟩
  · exact old
  · cases unverified

end Store
end RouteTrust
