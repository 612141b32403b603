namespace RouteTrust.Text

/-- The pieces of a text between slashes; there is always at least one. -/
def pieces : List Char → List (List Char)
  | [] => [[]]
  | c :: rest =>
    if c = '/' then [] :: pieces rest
    else
      match pieces rest with
      | [] => [[c]]
      | piece :: others => (c :: piece) :: others

theorem pieces_ne_nil (text : List Char) : pieces text ≠ [] := by
  cases text with
  | nil => simp [pieces]
  | cons c rest => grind [pieces]

theorem pieces_slash (rest : List Char) : pieces ('/' :: rest) = [] :: pieces rest := by
  simp [pieces]

/-- A text without slashes is one piece. -/
theorem pieces_of_no_slash {text : List Char} (whole : '/' ∉ text) : pieces text = [text] := by
  induction text with
  | nil => rfl
  | cons c rest ih =>
    have rest_whole : '/' ∉ rest := fun member => whole (List.mem_cons_of_mem _ member)
    have other : c ≠ '/' := fun same => whole (same ▸ List.mem_cons_self)
    simp [pieces, other, ih rest_whole]

/-- A text up to its first slash is its first piece. -/
theorem pieces_append_slash {front : List Char} (whole : '/' ∉ front) (rest : List Char) :
    pieces (front ++ '/' :: rest) = front :: pieces rest := by
  induction front with
  | nil => simp [pieces]
  | cons c front ih =>
    have front_whole : '/' ∉ front := fun member => whole (List.mem_cons_of_mem _ member)
    have other : c ≠ '/' := fun same => whole (same ▸ List.mem_cons_self)
    simp [pieces, other, ih front_whole]

end RouteTrust.Text
