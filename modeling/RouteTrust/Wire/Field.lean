import RouteTrust.Text.Utf8
import RouteTrust.Wire.Varint

/-!
Tagged fields: a key that holds a tag and a form, then a payload of that form.
Fields that hold their default value are not written. Readers take a field off
the front of the bytes, and fields of unknown tags are skipped by their form.
-/
namespace RouteTrust.Wire

/-- How a payload is laid out. -/
inductive Form
  | varint
  | fixed64
  | delimited
  | startGroup
  | endGroup
  | fixed32
  deriving DecidableEq, Repr

/-- The number of a form in a key. -/
def Form.code : Form → Nat
  | .varint => 0
  | .fixed64 => 1
  | .delimited => 2
  | .startGroup => 3
  | .endGroup => 4
  | .fixed32 => 5

/-- The form that a number stands for. -/
def Form.ofCode? : Nat → Option Form
  | 0 => some .varint
  | 1 => some .fixed64
  | 2 => some .delimited
  | 3 => some .startGroup
  | 4 => some .endGroup
  | 5 => some .fixed32
  | _ => none

/-- The name of a form in messages. -/
def Form.label : Form → String
  | .varint => "Varint"
  | .fixed64 => "SixtyFourBit"
  | .delimited => "LengthDelimited"
  | .startGroup => "StartGroup"
  | .endGroup => "EndGroup"
  | .fixed32 => "ThirtyTwoBit"

/-- Why bytes are not a list of fields. -/
inductive Fault
  | badVarint
  | badKey (key : UInt64)
  | badForm (code : Nat)
  | zeroTag
  | formMismatch (actual expected : Form)
  | underflow
  | notUtf8
  | strayEndGroup
  | tooDeep
  deriving DecidableEq, Repr

def Fault.message : Fault → String
  | .badVarint => "invalid varint"
  | .badKey key => s!"invalid key value: {key}"
  | .badForm code => s!"invalid wire type value: {code}"
  | .zeroTag => "invalid tag value: 0"
  | .formMismatch actual expected =>
    "invalid wire type: " ++ actual.label ++ " (expected " ++ expected.label ++ ")"
  | .underflow => "buffer underflow"
  | .notUtf8 => "invalid string value: data is not UTF-8 encoded"
  | .strayEndGroup => "unexpected end group tag"
  | .tooDeep => "recursion limit reached"

/-! ## Writing -/

def key (tag : Nat) (form : Form) : List UInt8 := varint (8 * tag + form.code)

/-- A field of bytes; none if there are no bytes. -/
def bytesField (tag : Nat) (bytes : List UInt8) : List UInt8 :=
  if bytes.isEmpty then [] else key tag .delimited ++ varint bytes.length ++ bytes

/-- A field of text; none if the text is empty. -/
def textField (tag : Nat) (text : String) : List UInt8 := bytesField tag (Text.utf8 text)

/-- A field of a number; none if the number is zero. -/
def numberField (tag : Nat) (value : UInt64) : List UInt8 :=
  if value = 0 then [] else key tag .varint ++ varint value.toNat

/-! ## Reading -/

/-- A value and the bytes after it. -/
abbrev Reading (α : Type) := Except Fault (α × List UInt8)

/-- What a key says. -/
structure Key where
  tag : Nat
  form : Form
  deriving DecidableEq, Repr

def readNumber (bytes : List UInt8) : Reading UInt64 :=
  match readVarint bytes with
  | some found => .ok found
  | none => .error .badVarint

/-- What a key's number says. -/
def Key.ofNumber (number : UInt64) : Except Fault Key :=
  if UInt32.size ≤ number.toNat then .error (.badKey number)
  else
    match Form.ofCode? (number.toNat % 8) with
    | none => .error (.badForm (number.toNat % 8))
    | some form =>
      if number.toNat / 8 = 0 then .error .zeroTag else .ok ⟨number.toNat / 8, form⟩

def readKey (bytes : List UInt8) : Reading Key :=
  match readNumber bytes with
  | .error fault => .error fault
  | .ok (number, rest) =>
    match Key.ofNumber number with
    | .error fault => .error fault
    | .ok key => .ok (key, rest)

/-- Takes a fixed count of bytes. -/
def takeBytes (count : Nat) (bytes : List UInt8) : Reading (List UInt8) :=
  let taken := bytes.take count
  if taken.length = count then .ok (taken, bytes.drop count) else .error .underflow

/-- Reads bytes with their length before them. -/
def readBytes (bytes : List UInt8) : Reading (List UInt8) :=
  match readNumber bytes with
  | .error fault => .error fault
  | .ok (length, rest) => takeBytes length.toNat rest

/-- Reads text with its length before it. -/
def readText (bytes : List UInt8) : Reading String :=
  match readBytes bytes with
  | .error fault => .error fault
  | .ok (payload, rest) =>
    match Text.ofUtf8? payload with
    | some text => .ok (text, rest)
    | none => .error .notUtf8

/-- Reads a payload that must have the expected form. -/
def readAs {α : Type} (expected : Form) (read : List UInt8 → Reading α) (key : Key)
    (bytes : List UInt8) : Reading α :=
  if key.form = expected then read bytes else .error (.formMismatch key.form expected)

/-- Skips a payload that is not a group. -/
def skipPlain (form : Form) (bytes : List UInt8) : Reading Unit :=
  match form with
  | .varint => (readNumber bytes).map fun (_, rest) => ((), rest)
  | .fixed64 => (takeBytes 8 bytes).map fun (_, rest) => ((), rest)
  | .fixed32 => (takeBytes 4 bytes).map fun (_, rest) => ((), rest)
  | .delimited => (readBytes bytes).map fun (_, rest) => ((), rest)
  | .startGroup => .error .strayEndGroup
  | .endGroup => .error .strayEndGroup

/-- How deep groups may be nested. -/
def depthLimit : Nat := 100

theorem readNumber_shorter {bytes rest : List UInt8} {value : UInt64}
    (read : readNumber bytes = .ok (value, rest)) : rest.length < bytes.length := by
  unfold readNumber at read
  split at read
  · rename_i found; cases read; exact readVarint_shorter found
  · cases read

theorem readKey_shorter {bytes rest : List UInt8} {key : Key}
    (read : readKey bytes = .ok (key, rest)) : rest.length < bytes.length := by
  unfold readKey at read
  split at read
  · cases read
  · rename_i found
    split at read
    · cases read
    · cases read; exact readNumber_shorter found

private theorem takeBytes_shorter {count : Nat} {bytes rest taken : List UInt8}
    (read : takeBytes count bytes = .ok (taken, rest)) : rest.length ≤ bytes.length := by
  unfold takeBytes at read
  simp only at read
  split at read
  · cases read; simp
  · cases read

theorem readBytes_shorter {bytes rest payload : List UInt8}
    (read : readBytes bytes = .ok (payload, rest)) : rest.length < bytes.length := by
  unfold readBytes at read
  split at read
  · cases read
  · rename_i found
    exact Nat.lt_of_le_of_lt (takeBytes_shorter read) (readNumber_shorter found)

theorem readText_shorter {bytes rest : List UInt8} {text : String}
    (read : readText bytes = .ok (text, rest)) : rest.length < bytes.length := by
  unfold readText at read
  split at read
  · cases read
  · rename_i found
    split at read
    · cases read; exact readBytes_shorter found
    · cases read

theorem readAs_ok {α : Type} {expected : Form} {read : List UInt8 → Reading α} {key : Key}
    {bytes : List UInt8} {found : α × List UInt8} (taken : readAs expected read key bytes = .ok found) :
    read bytes = .ok found := by
  unfold readAs at taken
  split at taken
  · exact taken
  · cases taken

private theorem skipPlain_shorter {form : Form} {bytes rest : List UInt8}
    (skipped : skipPlain form bytes = .ok ((), rest)) : rest.length ≤ bytes.length := by
  have inner {α : Type} {reading : Reading α} (h : reading.map (fun (_, rest) => ((), rest)) = .ok ((), rest)) :
      ∃ value, reading = .ok (value, rest) := by
    match reading, h with
    | .ok (value, _), h => cases h; exact ⟨value, rfl⟩
  cases form <;> simp only [skipPlain] at skipped
  case varint => obtain ⟨_, read⟩ := inner skipped; exact Nat.le_of_lt (readNumber_shorter read)
  case fixed64 => obtain ⟨_, read⟩ := inner skipped; exact takeBytes_shorter read
  case delimited => obtain ⟨_, read⟩ := inner skipped; exact Nat.le_of_lt (readBytes_shorter read)
  case fixed32 => obtain ⟨_, read⟩ := inner skipped; exact takeBytes_shorter read
  case startGroup => cases skipped
  case endGroup => cases skipped

/-- Skips to the end of the outermost of the open groups, given by their tags with
    the innermost first. Every field in a group counts one level for each group
    that is open, and fields at the depth limit are not read. -/
def skipGroups (openTags : List Nat) (bytes : List UInt8) : Except Fault (List UInt8) :=
  match openTags with
  | [] => .ok bytes
  | innermost :: outer =>
    match _read : readKey bytes with
    | .error fault => .error fault
    | .ok (key, rest) =>
      if key.form = .endGroup then
        if key.tag = innermost then skipGroups outer rest else .error .strayEndGroup
      else if depthLimit ≤ outer.length + 1 then .error .tooDeep
      else if key.form = .startGroup then skipGroups (key.tag :: innermost :: outer) rest
      else
        match _skipped : skipPlain key.form rest with
        | .error fault => .error fault
        | .ok ((), after) => skipGroups (innermost :: outer) after
termination_by bytes.length
decreasing_by
  all_goals first
    | exact readKey_shorter ‹_›
    | exact Nat.lt_of_le_of_lt (skipPlain_shorter ‹_›) (readKey_shorter ‹_›)

/-- Skips the payload of a field of unknown tag. -/
def skipField (key : Key) (bytes : List UInt8) : Except Fault (List UInt8) :=
  match key.form with
  | .startGroup => skipGroups [key.tag] bytes
  | form => (skipPlain form bytes).map (·.2)

private theorem skipGroups_shorter {openTags : List Nat} {bytes rest : List UInt8}
    (skipped : skipGroups openTags bytes = .ok rest) : rest.length ≤ bytes.length := by
  fun_induction skipGroups openTags bytes generalizing rest with
  | case1 => cases skipped; exact Nat.le_refl _
  | case3 _ _ _ _ read _ ih => exact Nat.le_trans (ih skipped) (Nat.le_of_lt (readKey_shorter read))
  | case6 _ _ _ _ _ read _ _ _ ih => exact Nat.le_trans (ih skipped) (Nat.le_of_lt (readKey_shorter read))
  | case8 _ _ _ _ _ read _ _ _ _ plain ih =>
    exact Nat.le_trans (ih skipped) (Nat.le_trans (skipPlain_shorter plain) (Nat.le_of_lt (readKey_shorter read)))
  | _ => cases skipped

theorem skipField_shorter {key : Key} {bytes rest : List UInt8}
    (skipped : skipField key bytes = .ok rest) : rest.length ≤ bytes.length := by
  unfold skipField at skipped
  split at skipped
  · exact skipGroups_shorter skipped
  · match inner : skipPlain key.form bytes, skipped with
    | .ok ((), after), skipped => cases skipped; exact skipPlain_shorter inner

end RouteTrust.Wire
