import RouteTrust.Storage.Path

/-!
Files and directories as a value. Every step of a path has to start at a directory
that is there, also a step up. A file is replaced whole or left as it was; a change
that fails on its way may leave directories behind. Main statement: a file reads
as what was saved.
-/
namespace RouteTrust

/-- What stands at a place. -/
inductive Entry
  | directory
  | file (contents : List UInt8)
  deriving DecidableEq

/-- Files and directories by place; the root and the place where one stands are
    always there. Files at read-only places can be read and not written. -/
structure Disk where
  entries : List (Place × Entry)
  readOnly : List Place
  deriving DecidableEq

/-- A disk after a change, and whether all of the change was done. -/
structure Change where
  isDone : Bool
  disk : Disk
  deriving DecidableEq

/-- The outcome of a change for those who give a reason why it fails. -/
def Change.orError {ε : Type} (change : Change) (reason : ε) : Except ε Unit × Disk :=
  (if change.isDone then .ok () else .error reason, change.disk)

namespace Disk

/-- Nothing but the outermost directories. -/
def empty : Disk := ⟨[], []⟩

/-- What stands at a place. -/
def lookup? (disk : Disk) (place : Place) : Option Entry :=
  if place.names = [] then some .directory else disk.entries.lookup place

def put (disk : Disk) (place : Place) (entry : Entry) : Disk :=
  { disk with entries := (place, entry) :: disk.entries.filter (·.1 ≠ place) }

/-- Takes away what stands at the places of a kind. -/
def remove (disk : Disk) (isGone : Place → Bool) : Disk :=
  { disk with entries := disk.entries.filter (!isGone ·.1) }

/-- The place that steps lead to, each of them from a directory. Nothing needs to
    stand at the last place. -/
def follow? (disk : Disk) (place : Place) : List Step → Option Place
  | [] => some place
  | step :: rest =>
    if disk.lookup? place = some .directory then disk.follow? (place.after step) rest else none

def place? (disk : Disk) (path : Path) : Option Place :=
  if path.isUsable then disk.follow? path.start path.steps else none

def entry? (disk : Disk) (path : Path) : Option Entry := (disk.place? path).bind disk.lookup?

/-- The contents of the file at a path. -/
def read? (disk : Disk) (path : Path) : Option (List UInt8) :=
  match disk.entry? path with
  | some (.file contents) => some contents
  | _ => none

/-- A file or a directory stands at a path. -/
def contains (disk : Disk) (path : Path) : Bool := (disk.entry? path).isSome

/-- Makes the directories along steps, the outermost first. -/
def makeDirectories (disk : Disk) (place : Place) : List Step → Change
  | [] => ⟨true, disk⟩
  | step :: rest =>
    let next := place.after step
    match disk.lookup? next with
    | some .directory => disk.makeDirectories next rest
    | some (.file _) => ⟨false, disk⟩
    | none =>
      if step.fits then (disk.put next .directory).makeDirectories next rest else ⟨false, disk⟩

/-- Makes a directory and all that it lies in. A path that ends in a dot names no new
    directory, so the directory has to be there once the one around it is. -/
def createDirectory (disk : Disk) (path : Path) : Change :=
  if path.text = "" then ⟨true, disk⟩
  else if !path.isUsable then ⟨false, disk⟩
  else if path.lastStep = .stay then
    let outer := disk.makeDirectories path.start path.parent.steps
    ⟨outer.isDone && outer.disk.entry? path = some .directory, outer.disk⟩
  else disk.makeDirectories path.start path.steps

/-- Writes a file into a directory that is there. -/
def write (disk : Disk) (path : Path) (contents : List UInt8) : Change :=
  match disk.place? path, path.steps.getLast? with
  | some place, some (.down name) =>
    if (Step.down name).fits ∧ place ∉ disk.readOnly ∧ disk.lookup? place ≠ some .directory then
      ⟨true, disk.put place (.file contents)⟩
    else ⟨false, disk⟩
  | _, _ => ⟨false, disk⟩

/-- Makes the directories that a file lies in and writes the file. -/
def save (disk : Disk) (path : Path) (contents : List UInt8) : Change :=
  let outer := disk.createDirectory path.parent
  if outer.isDone then outer.disk.write path contents else outer

/-- Deletes what stands at a path with all that lies in it. A directory is emptied
    first; it goes only if the path still leads to it by a name. -/
def delete (disk : Disk) (path : Path) : Disk :=
  match disk.place? path with
  | none => disk
  | some place =>
    let emptied := disk.remove fun other => other.isWithin place && other ≠ place
    if path.lastStep.isDown ∧ emptied.place? path = some place then emptied.remove (· = place)
    else emptied

/-- Among the entries at the places of a kind one finds what was there at these places
    and nothing else. -/
theorem lookup_filter (isKept : Place → Bool) (place : Place) (entries : List (Place × Entry)) :
    (entries.filter (isKept ·.1)).lookup place = if isKept place then entries.lookup place else none := by
  induction entries with
  | nil => simp only [List.filter_nil, List.lookup_nil, ite_self]
  | cons head rest ih =>
    obtain ⟨key, value⟩ := head
    by_cases same : place = key
    · subst same
      cases kept : isKept place <;> simp [kept, ih]
    · have skip : (place == key) = false := beq_eq_false_iff_ne.mpr same
      cases kept : isKept key <;> simp [List.lookup_cons, kept, skip, ih]

theorem lookup?_put_self {disk : Disk} {place : Place} (inner : place.names ≠ []) (entry : Entry) :
    (disk.put place entry).lookup? place = some entry := by
  simp [lookup?, put, inner]

theorem lookup?_put_of_ne {disk : Disk} {place other : Place} (different : other ≠ place)
    (entry : Entry) : (disk.put place entry).lookup? other = disk.lookup? other := by
  have skip : (other == place) = false := beq_eq_false_iff_ne.mpr different
  have kept := lookup_filter (· ≠ place) other disk.entries
  rw [if_pos (decide_eq_true different)] at kept
  simp only [lookup?, put, List.lookup_cons, skip, kept]

/-- Where no directory stands, a new entry leaves every way as it was. -/
theorem follow?_put {disk : Disk} {place : Place} (free : disk.lookup? place ≠ some .directory)
    (entry : Entry) {steps : List Step} {first last : Place}
    (reached : disk.follow? first steps = some last) :
    (disk.put place entry).follow? first steps = some last := by
  induction steps generalizing first with
  | nil => exact reached
  | cons step rest ih =>
    rw [follow?] at reached ⊢
    split at reached
    · rename_i here
      have other : first ≠ place := fun same => free (same ▸ here)
      rw [if_pos ((lookup?_put_of_ne other entry).trans here)]
      exact ih reached
    · cases reached

private theorem read?_of_write {disk : Disk} {path : Path} {contents : List UInt8}
    (done : (disk.write path contents).isDone = true) :
    (disk.write path contents).disk.read? path = some contents := by
  unfold write at done ⊢
  split at done
  · rename_i place name reached last
    split at done
    · rename_i allowed
      have free := allowed.2.2
      have inner : place.names ≠ [] := fun none_left => free (by simp [lookup?, none_left])
      rw [place?] at reached
      split at reached
      · rename_i usable
        simp only [if_pos allowed, read?, entry?, place?, if_pos usable, follow?_put free _ reached,
          Option.bind_some, lookup?_put_self inner]
      · cases reached
    · cases done
  · cases done

/-- A file reads as what was saved. -/
theorem read?_of_save {disk : Disk} {path : Path} {contents : List UInt8}
    (done : (disk.save path contents).isDone = true) :
    (disk.save path contents).disk.read? path = some contents := by
  unfold save at done ⊢
  by_cases made : (disk.createDirectory path.parent).isDone = true
  · simp only [if_pos made] at done ⊢
    exact read?_of_write done
  · simp only [if_neg made] at done
    exact absurd done made

end Disk
end RouteTrust
