import RouteTrust.Hierarchy.Policy
import RouteTrust.Proofs.Lookup

namespace RouteTrust

/-- A key may sign for the roles below its own, and a root for a root. -/
def Role.mayCertify (signer subject : Role) : Bool :=
  decide (signer.rank < subject.rank) || decide (signer = .root ∧ subject = .root)

private theorem Role.mayCertify_iff (signer subject : Role) :
    signer.mayCertify subject = true ↔
      ¬ signer.isBelow subject = true ∧ ¬ (signer = subject ∧ subject ≠ .root) := by
  cases signer with
  | _ => cases subject with
    | _ => decide

/-- Only a root signs for roots and sites. -/
theorem Role.eq_root_of_mayCertify {signer subject : Role} (above : signer.mayCertify subject = true)
    (high : subject = .root ∨ subject = .site) : signer = .root := by
  revert above high
  cases signer with
  | root => intro _ _; rfl
  | _ => cases subject with
    | _ => decide

/-- The role that the markers tell of a name that is not the root's. -/
def Markers.role (markers : Markers) : Role :=
  if markers.operator.isSome then .operator
  else if markers.router.isSome then if markers.process.isSome then .process else .router
  else .site

namespace Naming
variable {naming : Naming}

/-- The part of the network that a name shows when it signs for a role, or is
    signed in it. -/
def placeFor? (naming : Naming) (role : Role) (name : Name) : Option Name :=
  match role with
  | .root => some (naming.rootOf name)
  | .site => some (naming.rootOf name)
  | .operator => naming.siteOf? name
  | .router => naming.siteOf? name
  | .process => naming.routerOf? name

theorem roleOf_eq_root_iff {name : Name} :
    naming.roleOf name = .root ↔
      ∃ key, name.indexOf? keyMarker = some key ∧ name.take key = naming.rootPrefix := by
  have decides : (name.markers.key.any fun key => name.take key = naming.rootPrefix) = true ↔
      ∃ key, name.indexOf? keyMarker = some key ∧ name.take key = naming.rootPrefix := by
    cases found : name.indexOf? keyMarker with
    | none => simp [Name.markers, found]
    | some key => simp [Name.markers, found]
  rw [← decides]
  unfold roleOf
  by_cases direct : (name.markers.key.any fun key => name.take key = naming.rootPrefix) = true
  · simp [direct]
  · simp only [if_neg direct]
    repeat' split
    all_goals simp [direct]

theorem roleOf_of_ne_root {name : Name} (low : naming.roleOf name ≠ .root) : naming.roleOf name = name.markers.role := by
  unfold roleOf
  rw [if_neg fun direct => low (if_pos direct)]
  rfl

/-- The root of a name with the root's role is the configured one. -/
theorem rootOf_of_root {name : Name} (isRoot : naming.roleOf name = .root) :
    naming.rootOf name = naming.rootPrefix := by
  obtain ⟨key, _, directly⟩ := roleOf_eq_root_iff.1 isRoot
  rw [Name.ext_iff, Name.components_take] at directly
  rw [rootOf, Name.ext_iff, Name.components_take, Name.length, ← directly, List.length_take]
  by_cases short : key ≤ name.components.length
  · rw [Nat.min_eq_left short]
  · have whole : name.components.length ≤ key := by omega
    rw [Nat.min_eq_right whole, List.take_length, List.take_of_length_le whole]

private theorem inScope_iff {subject signer : Name}
    (above : (naming.roleOf signer).mayCertify (naming.roleOf subject) = true) :
    naming.inScope subject signer = true ↔
      (naming.placeFor? (naming.roleOf subject) subject).isSome = true ∧
        naming.placeFor? (naming.roleOf subject) subject = naming.placeFor? (naming.roleOf subject) signer := by
  unfold inScope
  cases role : naming.roleOf subject with
  | root =>
    have signerIsRoot : naming.roleOf signer = .root :=
      Role.eq_root_of_mayCertify above (.inl role)
    simp [placeFor?, rootOf_of_root role, rootOf_of_root signerIsRoot]
  | site => simp [placeFor?]
  | operator => simp [placeFor?, sameSite]
  | router => simp [placeFor?, sameSite]
  | process => simp [placeFor?, sameRouter]

/-- The policy allows exactly what stands above and shows the same place. -/
theorem checkSigner_ok_iff {subject signer : Name} :
    naming.checkSigner subject signer = .ok () ↔
      (naming.roleOf signer).mayCertify (naming.roleOf subject) = true ∧
        (naming.placeFor? (naming.roleOf subject) subject).isSome = true ∧
          naming.placeFor? (naming.roleOf subject) subject = naming.placeFor? (naming.roleOf subject) signer := by
  by_cases above : (naming.roleOf signer).mayCertify (naming.roleOf subject) = true
  · obtain ⟨notBelow, notSame⟩ := (Role.mayCertify_iff _ _).1 above
    rw [← inScope_iff above]
    simp only [checkSigner, if_neg notBelow, if_neg notSame, above, true_and]
    split
    · rename_i inside
      simp [inside]
    · rename_i outside
      simp [outside]
  · have refused := mt (Role.mayCertify_iff _ _).2 above
    constructor
    · intro allowed
      refine absurd ⟨?_, ?_⟩ refused
      · intro below
        simp [checkSigner, below] at allowed
      · intro same
        by_cases below : (naming.roleOf signer).isBelow (naming.roleOf subject) = true
        · simp [checkSigner, below] at allowed
        · simp only [checkSigner, if_neg below, if_pos same] at allowed
          cases allowed
    · rintro ⟨allowed, _⟩
      exact absurd allowed above

/-- Once one signer's name is allowed, another is exactly if its role suffices too
    and it shows the same place. -/
theorem checkSigner_ok_iff_of_ok {subject locator signer : Name}
    (allowed : naming.checkSigner subject locator = .ok ()) :
    naming.checkSigner subject signer = .ok () ↔
      (naming.roleOf signer).mayCertify (naming.roleOf subject) = true ∧
        naming.placeFor? (naming.roleOf subject) signer = naming.placeFor? (naming.roleOf subject) locator := by
  obtain ⟨_, known, same⟩ := checkSigner_ok_iff.1 allowed
  rw [checkSigner_ok_iff, same]
  constructor
  · rintro ⟨above, _, place⟩
    exact ⟨above, place.symm⟩
  · rintro ⟨above, place⟩
    exact ⟨above, same ▸ known, place.symm⟩

end Naming

/-! ## One component more -/

namespace Name

theorem indexOf?_lt {name : Name} {marker : String} {index : Nat}
    (found : name.indexOf? marker = some index) : index < name.length :=
  (List.findIdx?_eq_some_iff_findIdx_eq.1 found).1

theorem indexOf?_eq_none {name : Name} {marker : String} (absent : marker ∉ name.components) :
    name.indexOf? marker = none := by
  rw [indexOf?, List.findIdx?_eq_none_iff]
  intro component member
  rw [beq_eq_false_iff_ne]
  rintro rfl
  exact absent member

section
variable {name longer : Name} {component : String}
  (split : longer.components = name.components ++ [component])
include split

private theorem take_longer {stop : Nat} (inside : stop ≤ name.length) : longer.take stop = name.take stop := by
  rw [ext_iff, components_take, components_take, split, List.take_append_of_le_length inside]

private theorem slice_longer {start stop : Nat} (inside : stop ≤ name.length) :
    longer.slice start stop = name.slice start stop := by
  have insideToo : stop ≤ longer.length := by
    rw [length_longer split]
    omega
  unfold slice
  by_cases proper : start < stop
  · rw [if_pos ⟨proper, insideToo⟩, if_pos ⟨proper, inside⟩, ext_iff]
    simp only [split, List.take_append_of_le_length inside]
  · have improper (bound : Prop) : ¬ (start < stop ∧ bound) := fun both => proper both.1
    rw [if_neg (improper _), if_neg (improper _)]

private theorem indexOf?_longer {marker : String} (different : component ≠ marker) :
    longer.indexOf? marker = name.indexOf? marker := by
  rw [indexOf?, split, List.findIdx?_append]
  simp [indexOf?, different]

/-- A component that is no marker leaves the markers where they are. -/
theorem markers_longer (unmarked : component ∉ reservedMarkers) : longer.markers = name.markers := by
  have elsewhere {marker : String} (reserved : marker ∈ reservedMarkers) :
      longer.indexOf? marker = name.indexOf? marker := by
    refine indexOf?_longer split ?_
    rintro rfl
    exact unmarked reserved
  unfold markers
  rw [elsewhere (by simp [reservedMarkers]), elsewhere (by simp [reservedMarkers]),
    elsewhere (by simp [reservedMarkers]), elsewhere (by simp [reservedMarkers]),
    elsewhere (by simp [reservedMarkers]), elsewhere (by simp [reservedMarkers])]

end
end Name

namespace Naming
open Name
variable {naming : Naming}

section
variable {name longer : Name} {component : String}
  (split : longer.components = name.components ++ [component])
include split

private theorem roleOf_longer (unmarked : component ∉ reservedMarkers) :
    naming.roleOf longer = naming.roleOf name := by
  unfold roleOf
  rw [markers_longer split unmarked]
  cases found : name.indexOf? keyMarker with
  | none => simp [Name.markers, found]
  | some key =>
    have prefixes := take_longer split (Nat.le_of_lt (indexOf?_lt found))
    simp [Name.markers, found, prefixes]

private theorem siteOf?_longer (unmarked : component ∉ reservedMarkers) :
    naming.siteOf? longer = naming.siteOf? name := by
  unfold siteOf?
  rw [markers_longer split unmarked]
  refine Option.map_congr ?_
  intro stop chosen
  have found : ∃ marker, name.indexOf? marker = some stop := by
    rcases Option.or_eq_some_iff.1 chosen with router | ⟨_, later⟩
    · exact ⟨_, router⟩
    · rcases Option.or_eq_some_iff.1 later with operator | ⟨_, key⟩
      · exact ⟨_, operator⟩
      · exact ⟨_, key⟩
  obtain ⟨marker, found⟩ := found
  rw [slice_longer split (Nat.le_of_lt (indexOf?_lt found))]

private theorem routerUpTo_longer {router stop : Nat} (routerInside : router ≤ name.length)
    (stopInside : stop ≤ name.length) :
    naming.routerUpTo longer router stop = naming.routerUpTo name router stop := by
  rw [routerUpTo, routerUpTo, slice_longer split routerInside, slice_longer split stopInside]

private theorem advertiserOf?_longer (unmarked : component ∉ reservedMarkers) (noLinks : lsaMarker ∉ name.components) :
    advertiserOf? longer = advertiserOf? name := by
  unfold advertiserOf?
  rw [markers_longer split unmarked]
  cases found : name.indexOf? infoMarker with
  | none => simp [Name.markers, found, indexOf?_eq_none noLinks]
  | some info =>
    have same : longer.slice 0 info = name.slice 0 info :=
      slice_longer split (Nat.le_of_lt (indexOf?_lt found))
    simp [Name.markers, found, same]

private theorem routerOf?_longer (unmarked : component ∉ reservedMarkers) (noLinks : lsaMarker ∉ name.components) :
    naming.routerOf? longer = naming.routerOf? name := by
  unfold routerOf?
  rw [markers_longer split unmarked, advertiserOf?_longer split unmarked noLinks]
  cases router : name.indexOf? routerMarker with
  | none => simp [Name.markers, router]
  | some first =>
    have routerInside := Nat.le_of_lt (indexOf?_lt router)
    cases process : name.indexOf? processMarker with
    | some stop =>
      have same : naming.routerUpTo longer first stop = naming.routerUpTo name first stop :=
        routerUpTo_longer split routerInside (Nat.le_of_lt (indexOf?_lt process))
      simp [Name.markers, router, process, same]
    | none =>
      cases key : name.indexOf? keyMarker with
      | none => simp [Name.markers, router, process, key]
      | some stop =>
        have same : naming.routerUpTo longer first stop = naming.routerUpTo name first stop :=
          routerUpTo_longer split routerInside (Nat.le_of_lt (indexOf?_lt key))
        simp [Name.markers, router, process, key, same]

/-- What the policy allows to a name it allows without the last component, if that
    is no marker and the name does not advertise links. -/
theorem checkSigner_of_longer {subject : Name} (unmarked : component ∉ reservedMarkers)
    (noLinks : lsaMarker ∉ name.components) (allowed : naming.checkSigner subject longer = .ok ()) :
    naming.checkSigner subject name = .ok () := by
  have sameRole : naming.roleOf longer = naming.roleOf name := roleOf_longer split unmarked
  obtain ⟨above, _, _⟩ := checkSigner_ok_iff.1 allowed
  rw [sameRole] at above
  refine (checkSigner_ok_iff_of_ok allowed).2 ⟨above, ?_⟩
  have sameRoot (high : naming.roleOf name = .root) : naming.rootOf name = naming.rootOf longer := by
    rw [rootOf_of_root high, rootOf_of_root (sameRole.trans high)]
  cases role : naming.roleOf subject with
  | root => exact congrArg some (sameRoot (Role.eq_root_of_mayCertify (role ▸ above) (.inl rfl)))
  | site => exact congrArg some (sameRoot (Role.eq_root_of_mayCertify (role ▸ above) (.inr rfl)))
  | operator => exact (siteOf?_longer split unmarked).symm
  | router => exact (siteOf?_longer split unmarked).symm
  | process => exact (routerOf?_longer split unmarked noLinks).symm

end

end Naming
end RouteTrust
