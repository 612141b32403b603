import RouteTrust.Text.Pieces

/-!
Paths as they are written, the steps that they ask for, and the places that steps
lead to. A slash at the end of a path is one more step that stays, so it asks for
a directory.
-/
namespace RouteTrust

/-- One step along a path. -/
inductive Step
  | stay
  | up
  | down (name : String)
  deriving DecidableEq, Repr

namespace Step

/-- The step that a piece of a path asks for: nothing or a dot stays, two dots go up,
    all else goes down. -/
def ofPiece (piece : List Char) : Step :=
  if piece = [] ∨ piece = ['.'] then stay
  else if piece = ['.', '.'] then up
  else down (String.ofList piece)

def isDown : Step → Bool
  | down _ => true
  | _ => false

/-- What the step goes down to can be made there: a new name has at most 255 bytes. -/
def fits : Step → Bool
  | down name => name.utf8ByteSize ≤ 255
  | _ => true

end Step

/-- A place: the names on the way down to it, from the root or from where one stands. -/
structure Place where
  fromRoot : Bool
  names : List String
  deriving DecidableEq, Repr

namespace Place

/-- The place that a step leads to. From the outermost place, up leads to itself. -/
def after (place : Place) : Step → Place
  | .stay => place
  | .up => { place with names := place.names.dropLast }
  | .down name => { place with names := place.names ++ [name] }

/-- A place lies in another or is the same. -/
def isWithin (place outer : Place) : Bool :=
  place.fromRoot = outer.fromRoot && outer.names.isPrefixOf place.names

end Place

/-- A path as it is written. -/
structure Path where
  text : String
  deriving DecidableEq, Repr

namespace Path

/-- The path starts in a slash, so it does not depend on where one stands. -/
def isAbsolute (path : Path) : Bool := path.text.toList.head? = some '/'

/-- The path can stand for anything at all: it is not empty, has fewer than 4096 bytes
    and no zero character. -/
def isUsable (path : Path) : Bool :=
  path.text ≠ "" && path.text.utf8ByteSize < 4096 && !path.text.toList.contains '\x00'

/-- The path of a child. A child that starts with a slash stands for itself; else a
    slash goes between unless the parent is empty or ends in one. -/
def join (parent : Path) (child : String) : Path :=
  if child.toList.head? = some '/' then ⟨child⟩
  else if parent.text = "" ∨ parent.text.toList.getLast? = some '/' then ⟨parent.text ++ child⟩
  else ⟨parent.text ++ "/" ++ child⟩

def start (path : Path) : Place := ⟨path.isAbsolute, []⟩

/-- The pieces of the path, without the slash of an absolute one. -/
def pieces (path : Path) : List (List Char) :=
  Text.pieces (if path.isAbsolute then path.text.toList.tail else path.text.toList)

/-- The steps that the path asks for. -/
def steps (path : Path) : List Step := path.pieces.map Step.ofPiece

/-- The last step, slashes at the end aside. -/
def lastStep (path : Path) : Step :=
  (((path.pieces.filter (· ≠ [])).map Step.ofPiece).getLast?).getD .stay

/-- Pieces without those at the end that stay. -/
def withoutStays (pieces : List (List Char)) : List (List Char) :=
  (pieces.reverse.dropWhile (Step.ofPiece · = .stay)).reverse

/-- The path without its last piece, where pieces at the end that stay do not count. -/
def parent (path : Path) : Path :=
  let kept := withoutStays (withoutStays path.pieces).dropLast
  ⟨(if path.isAbsolute then "/" else "") ++ String.intercalate "/" (kept.map String.ofList)⟩

end Path
end RouteTrust
