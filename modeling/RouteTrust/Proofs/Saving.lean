import Mathlib.Data.List.Basic
import RouteTrust.Storage.Disk

namespace RouteTrust

namespace Text

theorem pieces_append (front rest : List Char) :
    pieces (front ++ '/' :: rest) = pieces front ++ pieces rest := by
  induction front with
  | nil => exact pieces_slash rest
  | cons c front ih =>
    by_cases slash : c = '/'
    · rw [slash, List.cons_append, pieces_slash, pieces_slash, ih, List.cons_append]
    · cases cut : pieces front with
      | nil => exact absurd cut (pieces_ne_nil front)
      | cons piece others =>
        rw [List.cons_append, pieces, if_neg slash, ih, cut]
        simp only [pieces, if_neg slash, cut, List.cons_append]

end Text

namespace Path

/-- The place that the steps of a path spell out. -/
def place (path : Path) : Place := path.steps.foldl Place.after path.start

/-- A text that as a piece of a path asks for a step down. -/
def IsPlain (child : String) : Prop :=
  '/' ∉ child.toList ∧ child ∉ ["", ".", ".."]

instance (child : String) : Decidable (IsPlain child) :=
  inferInstanceAs (Decidable ('/' ∉ child.toList ∧ child ∉ ["", ".", ".."]))

private theorem ofPiece_of_isPlain {child : String} (plain : IsPlain child) :
    Step.ofPiece child.toList = .down child := by
  have different : ∀ other ∈ ["", ".", ".."], child.toList ≠ other.toList := fun other member same =>
    plain.2 (String.toList_inj.1 same ▸ member)
  have empty : child.toList ≠ [] := different "" (by decide)
  have dot : child.toList ≠ ['.'] := different "." (by decide)
  have dots : child.toList ≠ ['.', '.'] := different ".." (by decide)
  rw [Step.ofPiece, if_neg (not_or.2 ⟨empty, dot⟩), if_neg dots, String.ofList_toList]

/-- In the text of a path to a child, what comes before the child is empty or ends
    in a slash. -/
theorem toList_join {child : String} (plain : IsPlain child) (parent : Path) :
    (parent.join child).text.toList = child.toList ∨
      ∃ front, (parent.join child).text.toList = front ++ '/' :: child.toList := by
  have relative : child.toList.head? ≠ some '/' := fun starts => plain.1 (List.mem_of_head? starts)
  rw [join, if_neg relative]
  by_cases empty : parent.text = ""
  · left
    rw [if_pos (.inl empty), empty, String.empty_append]
  right
  by_cases ends : parent.text.toList.getLast? = some '/'
  · obtain ⟨front, split⟩ := List.getLast?_eq_some_iff.1 ends
    exact ⟨front, by rw [if_pos (.inr ends), String.toList_append, split, List.append_assoc, List.singleton_append]⟩
  · refine ⟨parent.text.toList, ?_⟩
    rw [if_neg (not_or.2 ⟨empty, ends⟩), String.toList_append, String.toList_append, List.append_assoc]
    rfl

private theorem pieces_join {child : String} (plain : IsPlain child) (parent : Path) :
    ∃ outer, (parent.join child).pieces = outer ++ [child.toList] := by
  have whole := Text.pieces_of_no_slash plain.1
  have relative : child.toList.head? ≠ some '/' := fun starts => plain.1 (List.mem_of_head? starts)
  unfold pieces isAbsolute
  rcases toList_join plain parent with alone | ⟨front, split⟩
  · exact ⟨[], by simp only [alone, decide_eq_true_iff, if_neg relative, whole, List.nil_append]⟩
  · rw [split]
    cases front with
    | nil => exact ⟨[], by simp [whole]⟩
    | cons c front =>
      by_cases slash : c = '/'
      · exact ⟨Text.pieces front, by simp [slash, Text.pieces_append, whole]⟩
      · exact ⟨Text.pieces (c :: front), by
          simp only [List.cons_append, List.head?_cons, Option.some.injEq, slash, decide_false, Bool.false_eq_true,
            if_false]
          rw [← List.cons_append, Text.pieces_append, whole]⟩

/-- The file of a child stands under the child's name. -/
theorem getLast?_place_join {child : String} (plain : IsPlain child) (parent : Path) :
    (parent.join child).place.names.getLast? = some child := by
  obtain ⟨outer, cut⟩ := pieces_join plain parent
  rw [place, steps, cut, List.map_append, List.foldl_append, List.map_singleton, ofPiece_of_isPlain plain]
  simp [Place.after]

theorem place_join_ne {one two : String} (onePlain : IsPlain one) (twoPlain : IsPlain two)
    (different : one ≠ two) (parent other : Path) : (parent.join one).place ≠ (other.join two).place := by
  intro same
  have last := getLast?_place_join onePlain parent
  rw [same, getLast?_place_join twoPlain other] at last
  exact different (Option.some.inj last).symm

end Path

namespace Disk

/-! ## Where paths lead -/

private theorem follow?_eq_some {disk : Disk} {steps : List Step} {first last : Place}
    (reached : disk.follow? first steps = some last) : last = steps.foldl Place.after first := by
  induction steps generalizing first with
  | nil => exact (Option.some.inj reached).symm
  | cons step rest ih =>
    rw [follow?] at reached
    split at reached
    · exact ih reached
    · cases reached

theorem place?_eq_some {disk : Disk} {path : Path} {place : Place} (reached : disk.place? path = some place) :
    path.isUsable = true ∧ place = path.place := by
  unfold place? at reached
  split at reached
  · rename_i usable
    exact ⟨usable, follow?_eq_some reached⟩
  · cases reached

/-- The contents of the file at the place that a path spells out, whether or not the
    way there is open. -/
def stored? (disk : Disk) (path : Path) : Option (List UInt8) :=
  if path.isUsable then
    match disk.lookup? path.place with
    | some (.file contents) => some contents
    | _ => none
  else none

private theorem read?_eq (disk : Disk) (path : Path) :
    disk.read? path = if (disk.place? path).isSome then disk.stored? path else none := by
  unfold read? entry?
  cases reached : disk.place? path with
  | none => rfl
  | some place =>
    obtain ⟨usable, rfl⟩ := place?_eq_some reached
    rw [Option.bind_some, Option.isSome_some, if_pos rfl]
    exact (if_pos usable).symm

/-- A file that stands where a path points to can be read. -/
def Opens (disk : Disk) (path : Path) : Prop := disk.read? path = disk.stored? path

instance (disk : Disk) (path : Path) : Decidable (disk.Opens path) :=
  inferInstanceAs (Decidable (disk.read? path = disk.stored? path))

private theorem opens_iff {disk : Disk} {path : Path} :
    disk.Opens path ↔ ((disk.stored? path).isSome → (disk.place? path).isSome) := by
  rw [Opens, read?_eq]
  cases (disk.place? path).isSome <;> cases disk.stored? path <;> simp

theorem opens_of_read? {disk : Disk} {path : Path} {contents : List UInt8}
    (read : disk.read? path = some contents) : disk.Opens path := by
  rw [Opens, read]
  rw [read?_eq] at read
  split at read
  · exact read.symm
  · cases read

/-! ## Changes that leave a file alone -/

/-- A change leaves the file of a path alone: it stays or stays away, and the way to
    it stays open. -/
structure Spares (before after : Disk) (path : Path) : Prop where
  stored : after.stored? path = before.stored? path
  reached : (before.place? path).isSome → (after.place? path).isSome

namespace Spares
variable {first second third : Disk} {path : Path}

theorem refl (disk : Disk) (path : Path) : Spares disk disk path := ⟨rfl, id⟩

theorem trans (one : Spares first second path) (two : Spares second third path) : Spares first third path :=
  ⟨two.stored.trans one.stored, two.reached ∘ one.reached⟩

end Spares

/-- After a change the file of a path can be read and reads as before. -/
structure Untouched (before after : Disk) (path : Path) : Prop where
  opens : after.Opens path
  read : after.read? path = before.read? path

/-- What can be read and is left alone reads as before. -/
theorem Spares.untouched {before after : Disk} {path : Path} (spares : Spares before after path)
    (opened : before.Opens path) : Untouched before after path := by
  have opens : after.Opens path := by
    rw [opens_iff] at opened ⊢
    intro stands
    exact spares.reached (opened (spares.stored ▸ stands))
  refine ⟨opens, ?_⟩
  calc after.read? path = after.stored? path := opens
    _ = before.stored? path := spares.stored
    _ = before.read? path := opened.symm

/-- All that a change does is to make directories. -/
def Widens (before after : Disk) : Prop :=
  ∀ place, after.lookup? place = before.lookup? place ∨
    before.lookup? place = none ∧ after.lookup? place = some .directory

theorem Widens.refl (disk : Disk) : Widens disk disk := fun _ => .inl rfl

theorem Widens.trans {first second third : Disk} (one : Widens first second) (two : Widens second third) :
    Widens first third := by
  intro place
  rcases two place with same | ⟨free, made⟩
  · rw [same]
    exact one place
  · rcases one place with same | ⟨free', made'⟩
    · exact .inr ⟨same ▸ free, made⟩
    · rw [made'] at free
      cases free

/-- Directories stay where they are. -/
def DirectoriesStay (before after : Disk) : Prop :=
  ∀ place, before.lookup? place = some .directory → after.lookup? place = some .directory

theorem Widens.directoriesStay {before after : Disk} (widens : Widens before after) :
    DirectoriesStay before after := by
  intro place here
  rcases widens place with same | ⟨_, made⟩
  · exact same.trans here
  · exact made

/-- Where directories stay, ways stay open. -/
theorem DirectoriesStay.follow? {before after : Disk} (stay : DirectoriesStay before after) {steps : List Step}
    {first last : Place} (reached : before.follow? first steps = some last) :
    after.follow? first steps = some last := by
  induction steps generalizing first with
  | nil => exact reached
  | cons step rest ih =>
    rw [Disk.follow?] at reached ⊢
    split at reached
    · rename_i here
      rw [if_pos (stay first here)]
      exact ih reached
    · cases reached

theorem DirectoriesStay.place? {before after : Disk} (stay : DirectoriesStay before after) {path : Path}
    {place : Place} (reached : before.place? path = some place) : after.place? path = some place := by
  unfold Disk.place? at reached ⊢
  split at reached
  · rename_i usable
    rw [if_pos usable]
    exact stay.follow? reached
  · cases reached

private theorem DirectoriesStay.isSome_place? {before after : Disk} (stay : DirectoriesStay before after) {path : Path}
    (reached : (before.place? path).isSome) : (after.place? path).isSome := by
  obtain ⟨place, reached⟩ := Option.isSome_iff_exists.1 reached
  rw [stay.place? reached]
  rfl

theorem directoriesStay_put {disk : Disk} {place : Place} (free : disk.lookup? place ≠ some .directory)
    (entry : Entry) : DirectoriesStay disk (disk.put place entry) := by
  intro other here
  have different : other ≠ place := fun same => free (same ▸ here)
  exact (lookup?_put_of_ne different entry).trans here

theorem Widens.spares {before after : Disk} (widens : Widens before after) (path : Path) :
    Spares before after path where
  stored := by
    unfold stored?
    rcases widens path.place with same | ⟨free, made⟩
    · rw [same]
    · simp only [free, made]
  reached := widens.directoriesStay.isSome_place?

private theorem widens_put {disk : Disk} {place : Place} (free : disk.lookup? place = none) :
    Widens disk (disk.put place .directory) := by
  intro other
  by_cases same : other = place
  · subst same
    have inner : other.names ≠ [] := fun outermost => by simp [lookup?, outermost] at free
    exact .inr ⟨free, lookup?_put_self inner _⟩
  · exact .inl (lookup?_put_of_ne same _)

theorem widens_makeDirectories (disk : Disk) (place : Place) (steps : List Step) :
    Widens disk (disk.makeDirectories place steps).disk := by
  induction steps generalizing disk place with
  | nil => exact .refl disk
  | cons step rest ih =>
    unfold makeDirectories
    simp only
    split
    · exact ih disk _
    · exact .refl disk
    · rename_i free
      split
      · exact (widens_put free).trans (ih _ _)
      · exact .refl disk

theorem widens_createDirectory (disk : Disk) (path : Path) : Widens disk (disk.createDirectory path).disk := by
  unfold createDirectory
  split
  · exact .refl disk
  · split
    · exact .refl disk
    · split
      · exact widens_makeDirectories disk _ _
      · exact widens_makeDirectories disk _ _

private theorem disk_write_of_not_done {disk : Disk} {path : Path} {contents : List UInt8}
    (failed : (disk.write path contents).isDone = false) : (disk.write path contents).disk = disk := by
  unfold write at failed ⊢
  split
  · split
    · simp_all
    · rfl
  · rfl

private theorem write_spares {path other : Path} (different : other.place ≠ path.place) (disk : Disk)
    (contents : List UInt8) : Spares disk (disk.write path contents).disk other := by
  unfold write
  split
  · rename_i place name reached last
    split
    · rename_i allowed
      rw [(place?_eq_some reached).2] at allowed ⊢
      refine ⟨?_, ?_⟩
      · simp only [stored?, lookup?_put_of_ne different]
      · exact (directoriesStay_put allowed.2.2 _).isSome_place?
    · exact .refl disk other
  · exact .refl disk other

/-- Saving a file changes no other file. -/
theorem save_spares {path other : Path} (different : other.place ≠ path.place) (disk : Disk)
    (contents : List UInt8) : Spares disk (disk.save path contents).disk other := by
  have made := (widens_createDirectory disk path.parent).spares other
  unfold save
  simp only
  split
  · exact made.trans (write_spares different _ contents)
  · exact made

/-- A save that fails changes no file at all. -/
theorem save_spares_of_not_done {disk : Disk} {path : Path} {contents : List UInt8}
    (failed : (disk.save path contents).isDone = false) (other : Path) :
    Spares disk (disk.save path contents).disk other := by
  have made := (widens_createDirectory disk path.parent).spares other
  unfold save at failed ⊢
  simp only at failed ⊢
  -- the directories may have been made all the same
  split
  · rename_i done
    rw [if_pos done] at failed
    rw [disk_write_of_not_done failed]
    exact made
  · exact made

end Disk
end RouteTrust
