import RouteTrust.Name.Uri

namespace RouteTrust

namespace Text

/-- Cutting leaves no slash. -/
theorem slash_not_mem_pieces {text piece : List Char} (member : piece ∈ pieces text) : '/' ∉ piece := by
  induction text generalizing piece with
  | nil =>
    rw [pieces, List.mem_singleton] at member
    simp [member]
  | cons c rest ih =>
    by_cases slash : c = '/'
    · rw [slash, pieces_slash] at member
      rcases List.mem_cons.1 member with rfl | later
      · exact List.not_mem_nil
      · exact ih later
    · cases cut : pieces rest with
      | nil => exact absurd cut (pieces_ne_nil rest)
      | cons head others =>
        rw [pieces, if_neg slash, cut] at member
        rw [cut] at ih
        rcases List.mem_cons.1 member with rfl | later
        · intro inside
          rcases List.mem_cons.1 inside with same | inHead
          · exact slash same.symm
          · exact ih List.mem_cons_self inHead
        · exact ih (List.mem_cons_of_mem _ later)

end Text

namespace Name

/-- No component has a slash in it. -/
def Unslashed (name : Name) : Prop := ∀ component ∈ name.components, '/' ∉ component.toList

instance (name : Name) : Decidable name.Unslashed :=
  inferInstanceAs (Decidable (∀ component ∈ name.components, '/' ∉ component.toList))

theorem unslashed_of_ofUri {uri : String} {name : Name} (read : ofUri uri = .ok name) : name.Unslashed := by
  unfold ofUri at read
  split at read
  · rename_i found
    cases read
    unfold ofChars? at found
    split at found
    · rename_i rest _
      cases found
      intro component member
      rw [components_ofList, List.mem_filter, List.mem_map] at member
      obtain ⟨⟨piece, cut, rfl⟩, _⟩ := member
      rw [String.toList_ofList]
      exact Text.slash_not_mem_pieces cut
    · cases found
  · cases read

/-- A text form always starts with a slash. -/
theorem exists_uriChars_eq (name : Name) : ∃ rest, name.uriChars = '/' :: rest := by
  unfold uriChars
  split
  · exact ⟨[], rfl⟩
  · rename_i full
    obtain ⟨components, present⟩ := name
    match components with
    | [] => exact absurd rfl full
    | first :: others => exact ⟨first.toList ++ componentChars others, rfl⟩

theorem uri_ne_empty (name : Name) : name.uri ≠ "" := by
  intro empty
  obtain ⟨rest, starts⟩ := name.exists_uriChars_eq
  rw [← toList_uri, empty] at starts
  cases starts

private theorem pieces_componentChars {first : String} {others : List String}
    (unslashed : ∀ component ∈ first :: others, '/' ∉ component.toList) :
    Text.pieces (componentChars (first :: others)) = [] :: (first :: others).map String.toList := by
  have whole := unslashed first List.mem_cons_self
  rw [componentChars, List.flatMap_cons, List.cons_append, Text.pieces_slash]
  induction others generalizing first with
  | nil => simp [Text.pieces_of_no_slash whole]
  | cons second rest ih =>
    have later := ih (fun component member => unslashed component (List.mem_cons_of_mem _ member))
      (unslashed second (List.mem_cons_of_mem _ List.mem_cons_self))
    rw [List.flatMap_cons, List.cons_append, Text.pieces_append_slash whole, List.map_cons]
    rw [(List.cons.inj later).2]

/-- Characters with a slash before every component denote these components. -/
theorem ofChars?_componentChars {components : List String} (present : components ≠ [])
    (unslashed : ∀ component ∈ components, '/' ∉ component.toList) :
    ofChars? (componentChars components) = some (ofList components) := by
  match components with
  | [] => exact absurd rfl present
  | first :: others =>
    have cut := pieces_componentChars unslashed
    have starts : componentChars (first :: others) = '/' :: (first.toList ++ componentChars others) := rfl
    rw [starts] at cut ⊢
    rw [ofChars?, cut, List.map_cons, List.map_map]
    refine congrArg some (ext_components ?_)
    simp [Function.comp_def]

theorem ofList_components (name : Name) : ofList name.components = name := by
  rw [ext_iff, components_ofList]
  exact List.filter_eq_self.2 fun component member => by simpa using name.components_ne component member

/-- The characters of a text form denote the name that they were made from. -/
theorem ofChars?_uriChars {name : Name} (unslashed : name.Unslashed) : ofChars? name.uriChars = some name := by
  by_cases present : name.components = []
  · rw [ext_components (b := root) present]
    decide
  · have full : name.isEmpty = false := by simp [isEmpty, present]
    rw [uriChars_of_not_isEmpty full, ofChars?_componentChars present unslashed, ofList_components]

theorem uri_injective {a b : Name} (first : a.Unslashed) (second : b.Unslashed) (same : a.uri = b.uri) :
    a = b := by
  have chars : a.uriChars = b.uriChars := by rw [← toList_uri, ← toList_uri, same]
  have denoted := ofChars?_uriChars first
  rw [chars, ofChars?_uriChars second] at denoted
  exact (Option.some.inj denoted).symm

end Name
end RouteTrust
