import RouteTrust.Name.Basic
import RouteTrust.Text.Blank
import RouteTrust.Text.Pieces

/-!
The text form of names: a slash before every component, and a lone slash for
the empty name. Reading trims blanks around the whole text, wants a slash first
and drops empty components.
-/
namespace RouteTrust

/-- Why a text is not a name. -/
inductive NameError
  | notAbsolute (uri : String)
  deriving DecidableEq, Repr

def NameError.message : NameError → String
  | .notAbsolute uri => "name must start with '/': " ++ uri

namespace Name

/-- The characters of components, a slash before each. -/
def componentChars (components : List String) : List Char :=
  components.flatMap fun component => '/' :: component.toList

/-- The characters of the text form. -/
def uriChars (name : Name) : List Char :=
  if name.isEmpty then ['/'] else componentChars name.components

def uri (name : Name) : String := String.ofList name.uriChars

/-- The name that trimmed characters denote. -/
def ofChars? : List Char → Option Name
  | '/' :: rest => some (ofList ((Text.pieces ('/' :: rest)).map String.ofList))
  | _ => none

def ofUri (uri : String) : Except NameError Name :=
  match ofChars? (Text.trim uri.toList) with
  | some name => .ok name
  | none => .error (.notAbsolute uri)

instance : ToString Name := ⟨uri⟩

/-- The text form under the name of its kind, for diagnostics. -/
def labelled (name : Name) : String := "Name(" ++ name.uri ++ ")"

@[simp] theorem toList_uri (name : Name) : name.uri.toList = name.uriChars := by
  simp [uri]

theorem uriChars_of_not_isEmpty {name : Name} (full : name.isEmpty = false) :
    name.uriChars = componentChars name.components := by
  simp [uriChars, full]

end Name
end RouteTrust
