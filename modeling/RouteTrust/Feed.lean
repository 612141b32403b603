import RouteTrust.Name.Basic

/-!
A feed of names with any number of readers. The last 256 names are kept. A
reader that falls further behind learns how many it missed and goes on with the
oldest kept one; after a feed is closed, its readers still get what is kept.
-/
namespace RouteTrust

/-- A feed: how many names were published, and the last ones in order. -/
structure Feed where
  published : Nat
  kept : List Name
  isOpen : Bool

/-- How far a reader has come: the count of names that were published before its next one. -/
structure Subscription where
  next : Nat
  deriving DecidableEq, Repr

/-- What one reading gives. -/
inductive FeedReading
  | name (name : Name)
  | missed (count : Nat)
  | nothing
  | closed
  deriving DecidableEq

namespace Feed

/-- How many names are kept. -/
def capacity : Nat := 256

def empty : Feed := ⟨0, [], true⟩

/-- The last names of a list, as many as are kept. -/
def recent (names : List Name) : List Name := names.drop (names.length - capacity)

def publish (feed : Feed) (names : List Name) : Feed :=
  { feed with published := feed.published + names.length, kept := recent (feed.kept ++ names) }

def close (feed : Feed) : Feed := { feed with isOpen := false }

/-- A reader of the names from now on. -/
def subscribe (feed : Feed) : Subscription := ⟨feed.published⟩

/-- The count of names that are no longer kept. -/
def dropped (feed : Feed) : Nat := feed.published - feed.kept.length

def read (feed : Feed) (reader : Subscription) : FeedReading × Subscription :=
  if reader.next < feed.dropped then (.missed (feed.dropped - reader.next), ⟨feed.dropped⟩)
  else
    match feed.kept[reader.next - feed.dropped]? with
    | some name => (.name name, ⟨reader.next + 1⟩)
    | none => (if feed.isOpen then .nothing else .closed, reader)

/-- Reads up to a number of times, until nothing is left; the end of the feed is
    told once. -/
def readUpTo (feed : Feed) : Nat → Subscription → List FeedReading × Subscription
  | 0, reader => ([], reader)
  | count + 1, reader =>
    match feed.read reader with
    | (.nothing, after) => ([], after)
    | (.closed, after) => ([.closed], after)
    | (reading, after) =>
      let (later, last) := feed.readUpTo count after
      (reading :: later, last)

/-- Reads until nothing is left. -/
def readAll (feed : Feed) (reader : Subscription) : List FeedReading × Subscription :=
  feed.readUpTo (feed.published + 2) reader

end Feed
end RouteTrust
