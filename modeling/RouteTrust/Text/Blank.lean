namespace RouteTrust.Text

/-- The inclusive code point ranges of the Unicode property White_Space. -/
def blankRanges : List (Nat × Nat) :=
  [(0x0009, 0x000D), (0x0020, 0x0020), (0x0085, 0x0085), (0x00A0, 0x00A0), (0x1680, 0x1680),
   (0x2000, 0x200A), (0x2028, 0x2029), (0x202F, 0x202F), (0x205F, 0x205F), (0x3000, 0x3000)]

/-- A character of the Unicode property White_Space. -/
def isBlank (c : Char) : Bool :=
  blankRanges.any fun (low, high) => low ≤ c.toNat && c.toNat ≤ high

/-- The text without the blanks at its start. -/
def trimStart (text : List Char) : List Char := text.dropWhile isBlank

/-- The text without the blanks at its end. -/
def trimEnd (text : List Char) : List Char := (text.reverse.dropWhile isBlank).reverse

/-- The text without the blanks at either end. -/
def trim (text : List Char) : List Char := trimEnd (trimStart text)

/-- A text that starts with a character that is not blank keeps its start. -/
theorem trimStart_cons_of_not_blank {c : Char} {rest : List Char} (visible : isBlank c = false) :
    trimStart (c :: rest) = c :: rest := by
  simp [trimStart, visible]

/-- A text that ends with a character that is not blank keeps its end. -/
theorem trimEnd_concat_of_not_blank {c : Char} {front : List Char} (visible : isBlank c = false) :
    trimEnd (front ++ [c]) = front ++ [c] := by
  simp [trimEnd, visible]

end RouteTrust.Text
