import RouteTrust.Proofs.Saving

namespace RouteTrust.Disk
variable {disk after : Disk} {path : Path} {contents other : List UInt8}

/-- What it takes to write the file of a path: the way is open and ends in a name, which is
    short enough and stands neither for a directory nor for a file that cannot be written. -/
structure Writable (disk : Disk) (path : Path) (place : Place) (name : String) : Prop where
  reached : disk.place? path = some place
  named : path.steps.getLast? = some (.down name)
  fits : (Step.down name).fits = true
  allowed : place ∉ disk.readOnly
  free : disk.lookup? place ≠ some .directory

private theorem Writable.write {place : Place} {name : String} (writable : Writable disk path place name)
    (contents : List UInt8) : disk.write path contents = ⟨true, disk.put place (.file contents)⟩ := by
  simp only [Disk.write, writable.reached, writable.named]
  rw [if_pos ⟨writable.fits, writable.allowed, writable.free⟩]

private theorem isDone_write_iff :
    (disk.write path contents).isDone = true ↔ ∃ place name, Writable disk path place name := by
  constructor
  · intro done
    unfold write at done
    split at done
    · rename_i place name reached named
      split at done
      · rename_i proper
        exact ⟨place, name, reached, named, proper.1, proper.2.1, proper.2.2⟩
      · cases done
    · cases done
  · rintro ⟨place, name, writable⟩
    rw [writable.write]

theorem isDone_save_congr (disk : Disk) (path : Path) (contents other : List UInt8) :
    (disk.save path contents).isDone = (disk.save path other).isDone := by
  unfold save
  simp only
  split
  · rw [Bool.eq_iff_iff, isDone_write_iff, isDone_write_iff]
  · rfl

/-! ## What a save leaves behind -/

/-- Directories that were made need not be made again. -/
theorem makeDirectories_again {place : Place} {steps : List Step}
    (done : (disk.makeDirectories place steps).isDone = true)
    (stay : DirectoriesStay (disk.makeDirectories place steps).disk after) :
    after.makeDirectories place steps = ⟨true, after⟩ := by
  induction steps generalizing disk place with
  | nil => rfl
  | cons step rest ih =>
    unfold makeDirectories at done stay ⊢
    simp only at done stay ⊢
    split at done
    · rename_i here
      simp only [here] at stay
      have there := stay _ ((widens_makeDirectories disk _ rest).directoriesStay _ here)
      simp only [there]
      exact ih done stay
    · cases done
    · rename_i free
      split at done
      · rename_i fits
        simp only [free, fits, if_true] at stay
        have inner : (place.after step).names ≠ [] := fun outermost => by simp [lookup?, outermost] at free
        have made := stay _ ((widens_makeDirectories _ _ rest).directoriesStay _ (lookup?_put_self inner _))
        simp only [made]
        exact ih done stay
      · cases done

/-- A directory that was made need not be made again. -/
theorem createDirectory_again (done : (disk.createDirectory path).isDone = true)
    (stay : DirectoriesStay (disk.createDirectory path).disk after) :
    after.createDirectory path = ⟨true, after⟩ := by
  unfold createDirectory at done stay ⊢
  split at done
  · rename_i empty
    rw [if_pos empty]
  · rename_i full
    split at done
    · cases done
    · rename_i usable
      simp only [if_neg full, if_neg usable] at stay ⊢
      split at done
      · rename_i dot
        rw [if_pos dot] at stay ⊢
        simp only [Bool.and_eq_true, decide_eq_true_eq] at done
        rw [makeDirectories_again done.1 stay]
        have there : after.entry? path = some .directory := by
          obtain ⟨place, reached, here⟩ := Option.bind_eq_some_iff.1 done.2
          unfold entry?
          rw [stay.place? reached]
          exact stay place here
        simp only [there, decide_true, Bool.and_true]
      · rename_i named
        rw [if_neg named] at stay ⊢
        exact makeDirectories_again done stay

/-- A file that was written can be written again. -/
theorem Writable.put {place : Place} {name : String} (writable : Writable disk path place name)
    (contents : List UInt8) : Writable (disk.put place (.file contents)) path place name where
  reached := (directoriesStay_put writable.free _).place? writable.reached
  named := writable.named
  fits := writable.fits
  allowed := writable.allowed
  free := by
    have inner : place.names ≠ [] := fun outermost => writable.free (by simp [lookup?, outermost])
    rw [lookup?_put_self inner]
    simp

/-- A file that was saved can be saved again. -/
theorem isDone_save_again (done : (disk.save path contents).isDone = true) (other : List UInt8) :
    ((disk.save path contents).disk.save path other).isDone = true := by
  by_cases made : (disk.createDirectory path.parent).isDone = true
  · simp only [save, if_pos made] at done ⊢
    obtain ⟨place, name, writable⟩ := isDone_write_iff.1 done
    have again := createDirectory_again made (directoriesStay_put writable.free (.file contents))
    rw [writable.write, again, if_pos rfl]
    exact isDone_write_iff.2 ⟨place, name, writable.put contents⟩
  · simp only [save, if_neg made] at done
    exact absurd done made

end RouteTrust.Disk
