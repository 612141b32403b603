namespace RouteTrust.Text

/-- The code points below 256 that have no visible form: the controls, the
    no-break space and the soft hyphen. -/
def isInvisible (c : Char) : Bool :=
  c.toNat < 0x20 || (0x7f ≤ c.toNat && c.toNat ≤ 0xa0) || c.toNat == 0xad

/-- The escape of a code point: its hexadecimal digits in braces. -/
def codePointEscape (c : Char) : String :=
  "\\u\x7b" ++ String.ofList (Nat.toDigits 16 c.toNat) ++ "\x7d"

/-- How a character below 256 stands between apostrophes. -/
def literalBody (c : Char) : String :=
  match c.toNat with
  | 0x00 => "\\0"
  | 0x09 => "\\t"
  | 0x0a => "\\n"
  | 0x0d => "\\r"
  | 0x27 => "\\'"
  | 0x5c => "\\\\"
  | _ => if isInvisible c then codePointEscape c else c.toString

/-- The literal of a character below 256. -/
def charLiteral (c : Char) : String := "'" ++ literalBody c ++ "'"

end RouteTrust.Text
