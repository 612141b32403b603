import RouteTrust.Proofs.ComposedNames

/-!
Certificate names of the documented shapes, with parts of any length that use no marker.
Such a name shows whose certificate it is: its role, its site and its router are those
that it was composed from (`roleOf_certificate`, `siteOf?_certificate`,
`routerOf?_certificate`). So on these names the policy is a relation between the holders
of the two certificates, whatever the network is called (`checkSigner_certificate_iff`).
-/
namespace RouteTrust

/-- A part of a certificate name: one component or more, none of them a marker. -/
structure NamePart extends Name where
  components_ne_nil : components ≠ []
  unmarked : ∀ component ∈ components, component ∉ reservedMarkers
  deriving DecidableEq

namespace NamePart

/-- A site of one component. -/
def memphis : NamePart := ⟨.ofList ["memphis"], by decide, by decide⟩

/-- A site below the site `memphis`. -/
def memphisLab : NamePart := ⟨.ofList ["memphis", "lab"], by decide, by decide⟩

/-- A router of two components. -/
def labPollux : NamePart := ⟨.ofList ["lab", "pollux"], by decide, by decide⟩

/-- A router of one component. -/
def pollux : NamePart := ⟨.ofList ["pollux"], by decide, by decide⟩

/-- The id of a key. -/
def keyId : NamePart := ⟨.ofList ["ksk-1"], by decide, by decide⟩

end NamePart

/-- The root prefix `/ndn/edu` under the network `/ndn`. -/
def Naming.ndn : Naming := ⟨.ofList ["ndn", "edu"], .ofList ["ndn"]⟩

/-- Whom a certificate is for. -/
inductive Holder
  | root
  | site (site : NamePart)
  | operator (site operator : NamePart)
  | router (site router : NamePart)
  | process (site router : NamePart)
  deriving DecidableEq

/-- No marker is in the name. -/
def Name.Unmarked (name : Name) : Prop := ∀ component ∈ name.components, component ∉ reservedMarkers

instance (name : Name) : Decidable name.Unmarked :=
  inferInstanceAs (Decidable (∀ component ∈ name.components, component ∉ reservedMarkers))

/-- The markers between the root prefix and `KEY` in the certificate name of a role. -/
def Role.pathMarkers : Role → List String
  | root => []
  | site => []
  | operator => [operatorMarker]
  | router => [routerMarker]
  | process => [routerMarker, processMarker]

namespace Holder

/-- The role in which the holder signs. -/
def role : Holder → Role
  | root => .root
  | site _ => .site
  | operator _ _ => .operator
  | router _ _ => .router
  | process _ _ => .process

/-- The components between the root prefix and `KEY`. -/
def path : Holder → Name
  | root => .root
  | site s => s.toName
  | operator s o => s.toName.push operatorMarker ++ o.toName
  | router s r => s.toName.push routerMarker ++ r.toName
  | process s r => (s.toName.push routerMarker ++ r.toName).push processMarker

/-- The name of a certificate for the holder: root prefix, path, `KEY`, key id. -/
def certificate (rootPrefix : Name) (holder : Holder) (id : NamePart) : Name :=
  (rootPrefix ++ holder.path).push keyMarker ++ id.toName

/-- The site below the root prefix; none for the root. -/
def sitePart : Holder → Name
  | root => .root
  | site s => s.toName
  | operator s _ => s.toName
  | router s _ => s.toName
  | process s _ => s.toName

/-- The site and the router below the root prefix, for those who belong to a router. -/
def routerPart? : Holder → Option Name
  | router s r => some (s.toName ++ r.toName)
  | process s r => some (s.toName ++ r.toName)
  | _ => none

/-- Who may issue a certificate for whom. -/
inductive MayIssue : Holder → Holder → Prop
  | root : MayIssue .root .root
  | site (s : NamePart) : MayIssue .root (.site s)
  | siteOperator (s o : NamePart) : MayIssue (.site s) (.operator s o)
  | siteRouter (s r : NamePart) : MayIssue (.site s) (.router s r)
  | operatorRouter (s o r : NamePart) : MayIssue (.operator s o) (.router s r)
  /-- The names of site and router count in a row, wherever one ends and the other begins. -/
  | process {s r s' r' : NamePart} (same : s.toName ++ r.toName = s'.toName ++ r'.toName) :
      MayIssue (.router s' r') (.process s r)

end Holder

/-! ## Reading the names -/

section
variable {rootPrefix : Name} {holder : Holder} {id : NamePart}

theorem NamePart.toName_injective {a b : NamePart} (same : a.toName = b.toName) : a = b := by
  cases a
  cases b
  cases same
  rfl

private theorem NamePart.toName_ne_root (part : NamePart) : part.toName ≠ .root := fun same =>
  part.components_ne_nil (congrArg Name.components same)

theorem NamePart.absent (part : NamePart) {marker : String} (reserved : marker ∈ reservedMarkers) :
    marker ∉ part.components := fun member => part.unmarked marker member reserved

theorem Name.Unmarked.absent {name : Name} (unmarked : name.Unmarked) {marker : String}
    (reserved : marker ∈ reservedMarkers) : marker ∉ name.components :=
  fun member => unmarked marker member reserved

private theorem Name.append_right_inj {front a b : Name} : front ++ a = front ++ b ↔ a = b := by
  rw [Name.ext_iff, Name.ext_iff, Name.components_append, Name.components_append, List.append_cancel_left_eq]

theorem Name.isSome_indexOf?_iff {name : Name} {component : String} :
    (name.indexOf? component).isSome = true ↔ component ∈ name.components := by
  simp [Name.indexOf?, List.findIdx?_isSome]

namespace Holder

private theorem components_certificate : (holder.certificate rootPrefix id).components =
    rootPrefix.components ++ holder.path.components ++ keyMarker :: id.components := by
  rw [certificate, Name.components_append, Name.components_push (by decide), Name.components_append]
  simp only [List.append_assoc, List.cons_append, List.nil_append]

theorem certificate_eq (rootPrefix : Name) (holder : Holder) (id : NamePart) :
    holder.certificate rootPrefix id = rootPrefix ++ (holder.path.push keyMarker ++ id.toName) := by
  rw [Name.ext_iff, components_certificate, Name.components_append, Name.components_append,
    Name.components_push (by decide)]
  simp only [List.append_assoc, List.cons_append, List.nil_append]

private theorem mem_path_iff {marker : String} (reserved : marker ∈ reservedMarkers) :
    marker ∈ holder.path.components ↔ marker ∈ holder.role.pathMarkers := by
  have absent (part : NamePart) : marker ∉ part.components := part.absent reserved
  cases holder with
  | root => simp [path, role, Role.pathMarkers]
  | site s => simp [path, role, Role.pathMarkers, absent]
  | operator s o => simp [path, role, Role.pathMarkers, absent, Name.components_push, operatorMarker]
  | router s r => simp [path, role, Role.pathMarkers, absent, Name.components_push, routerMarker]
  | process s r => simp [path, role, Role.pathMarkers, absent, Name.components_push, routerMarker, processMarker]

private theorem mem_certificate_iff (unmarked : rootPrefix.Unmarked) {marker : String}
    (reserved : marker ∈ reservedMarkers) :
    marker ∈ (holder.certificate rootPrefix id).components ↔ marker ∈ keyMarker :: holder.role.pathMarkers := by
  simp only [components_certificate, List.mem_append, List.mem_cons, mem_path_iff reserved, unmarked.absent reserved,
    id.absent reserved, false_or, or_false]
  exact Or.comm

/-- The first `KEY` is the one behind the path. -/
theorem indexOf?_key (unmarked : rootPrefix.Unmarked) :
    (holder.certificate rootPrefix id).indexOf? keyMarker =
      some (rootPrefix.components ++ holder.path.components).length := by
  refine Name.indexOf?_of_split components_certificate ?_
  rw [List.mem_append, mem_path_iff (by decide), not_or]
  refine ⟨unmarked.absent (by decide), ?_⟩
  cases holder.role with
  | _ => decide

/-- Only the root's `KEY` directly follows the root prefix. -/
theorem path_eq_nil_iff : holder.path.components = [] ↔ holder.role = .root := by
  cases holder with
  | root => simp [path, role]
  | site s => simpa [path, role] using s.components_ne_nil
  | operator s o => simp [path, role, Name.components_push, operatorMarker]
  | router s r => simp [path, role, Name.components_push, routerMarker]
  | process s r => simp [path, role, Name.components_push, routerMarker, processMarker]

/-- A certificate has the role of its holder. -/
theorem roleOf_certificate {naming : Naming} (unmarked : naming.rootPrefix.Unmarked) (holder : Holder) (id : NamePart) :
    naming.roleOf (holder.certificate naming.rootPrefix id) = holder.role := by
  have direct : ((holder.certificate naming.rootPrefix id).markers.key.any fun key =>
      (holder.certificate naming.rootPrefix id).take key = naming.rootPrefix) = true ↔ holder.role = .root := by
    rw [Name.markers, indexOf?_key unmarked, Option.any_some, decide_eq_true_eq, Name.ext_iff, Name.components_take,
      components_certificate, List.take_left, List.append_right_eq_self, path_eq_nil_iff]
  have present (marker : String) (reserved : marker ∈ reservedMarkers) :
      ((holder.certificate naming.rootPrefix id).indexOf? marker).isSome = true ↔
        marker ∈ keyMarker :: holder.role.pathMarkers :=
    Name.isSome_indexOf?_iff.trans (mem_certificate_iff unmarked reserved)
  simp only [Naming.roleOf, direct]
  simp only [Name.markers, present operatorMarker (by decide), present routerMarker (by decide),
    present processMarker (by decide)]
  cases holder.role with
  | _ => rfl

private theorem rootOf_certificate {naming : Naming} (holder : Holder) (id : NamePart) :
    naming.rootOf (holder.certificate naming.rootPrefix id) = naming.rootPrefix := by
  rw [Naming.rootOf, Name.ext_iff, Name.components_take, components_certificate, List.append_assoc, Name.length,
    List.take_left]

/-- A marker that the role does not use is not in the name. -/
theorem indexOf?_of_role (unmarked : rootPrefix.Unmarked) (role : Role) (same : holder.role = role) (marker : String)
    (other : marker ∈ reservedMarkers ∧ marker ∉ keyMarker :: role.pathMarkers) :
    (holder.certificate rootPrefix id).indexOf? marker = none := by
  refine Name.indexOf?_eq_none (mt (mem_certificate_iff unmarked other.1).1 ?_)
  rw [same]
  exact other.2

private theorem unmarked_sitePart : holder.sitePart.Unmarked := by
  cases holder with
  | root => exact fun _ member => absurd member List.not_mem_nil
  | site s => exact s.unmarked
  | operator s o => exact s.unmarked
  | router s r => exact s.unmarked
  | process s r => exact s.unmarked

section
variable (rootPrefix : Name) (s part id : NamePart)

private theorem components_operator : ((operator s part).certificate rootPrefix id).components =
    rootPrefix.components ++ s.components ++ operatorMarker :: (part.components ++ keyMarker :: id.components) := by
  simp [components_certificate, path, Name.components_push, operatorMarker]

private theorem components_router : ((router s part).certificate rootPrefix id).components =
    rootPrefix.components ++ s.components ++ routerMarker :: (part.components ++ keyMarker :: id.components) := by
  simp [components_certificate, path, Name.components_push, routerMarker]

private theorem components_process : ((process s part).certificate rootPrefix id).components =
    rootPrefix.components ++ s.components ++
      routerMarker :: (part.components ++ processMarker :: keyMarker :: id.components) := by
  simp [components_certificate, path, Name.components_push, routerMarker, processMarker]

end

/-- The first of the markers of routers, of operators and of keys ends the site. -/
theorem siteStop_certificate (unmarked : rootPrefix.Unmarked) (holder : Holder) (id : NamePart) :
    let m := (holder.certificate rootPrefix id).markers
    m.router.or (m.operator.or m.key) = some (rootPrefix.components ++ holder.sitePart.components).length := by
  have ends {marker : String} {back : List String} (reserved : marker ∈ reservedMarkers)
      (split : (holder.certificate rootPrefix id).components =
        rootPrefix.components ++ holder.sitePart.components ++ marker :: back) :
      (holder.certificate rootPrefix id).indexOf? marker =
        some (rootPrefix.components ++ holder.sitePart.components).length := by
    refine Name.indexOf?_of_split split ?_
    rw [List.mem_append, not_or]
    exact ⟨unmarked.absent reserved, unmarked_sitePart.absent reserved⟩
  simp only [Name.markers]
  cases holder with
  | root =>
    rw [indexOf?_of_role unmarked .root rfl routerMarker (by decide),
      indexOf?_of_role unmarked .root rfl operatorMarker (by decide), ends (by decide) components_certificate]
    rfl
  | site s =>
    rw [indexOf?_of_role unmarked .site rfl routerMarker (by decide),
      indexOf?_of_role unmarked .site rfl operatorMarker (by decide), ends (by decide) components_certificate]
    rfl
  | operator s o =>
    rw [indexOf?_of_role unmarked .operator rfl routerMarker (by decide),
      ends (by decide) (components_operator rootPrefix s o id)]
    rfl
  | router s r =>
    rw [ends (by decide) (components_router rootPrefix s r id)]
    rfl
  | process s r =>
    rw [ends (by decide) (components_process rootPrefix s r id)]
    rfl

/-- A certificate shows the site of its holder. -/
theorem siteOf?_certificate {naming : Naming} (unmarked : naming.rootPrefix.Unmarked) (holder : Holder)
    (id : NamePart) :
    naming.siteOf? (holder.certificate naming.rootPrefix id) = some (naming.network ++ holder.sitePart) := by
  have around : ∃ back, (holder.certificate naming.rootPrefix id).components =
      naming.rootPrefix.components ++ holder.sitePart.components ++ back := by
    cases holder with
    | root => exact ⟨_, components_certificate⟩
    | site s => exact ⟨_, components_certificate⟩
    | operator s o => exact ⟨_, components_operator naming.rootPrefix s o id⟩
    | router s r => exact ⟨_, components_router naming.rootPrefix s r id⟩
    | process s r => exact ⟨_, components_process naming.rootPrefix s r id⟩
  obtain ⟨back, split⟩ := around
  exact Naming.siteOf?_of_stop split (siteStop_certificate unmarked holder id)

/-- A certificate shows the router of its holder. -/
theorem routerOf?_certificate {naming : Naming} (unmarked : naming.rootPrefix.Unmarked) (holder : Holder)
    (id : NamePart) :
    naming.routerOf? (holder.certificate naming.rootPrefix id) = holder.routerPart?.map (naming.network ++ ·) := by
  have nothing (role : Role) (same : holder.role = role)
      (other : ∀ marker ∈ [routerMarker, infoMarker, lsaMarker], marker ∉ keyMarker :: role.pathMarkers) :
      naming.routerOf? (holder.certificate naming.rootPrefix id) = none := by
    have absent (marker : String) (listed : marker ∈ [routerMarker, infoMarker, lsaMarker] ∧ marker ∈ reservedMarkers) :
        (holder.certificate naming.rootPrefix id).indexOf? marker = none :=
      indexOf?_of_role unmarked role same marker ⟨listed.2, other marker listed.1⟩
    simp only [Naming.routerOf?, Naming.advertiserOf?, Name.markers, absent routerMarker (by decide),
      absent infoMarker (by decide), absent lsaMarker (by decide), Option.map_none]
  cases holder with
  | root => exact nothing .root rfl (by decide)
  | site s => exact nothing .site rfl (by decide)
  | operator s o => exact nothing .operator rfl (by decide)
  | router s r =>
    have shown := Naming.routerOf?_of_key (components_router naming.rootPrefix s r id) (by
      simp only [List.forall_mem_append]
      exact ⟨⟨⟨unmarked, s.unmarked⟩, r.unmarked⟩, id.unmarked⟩)
    refine Name.eq_some_of_components (shown.trans ?_)
    simp only [Name.components_append, List.append_assoc]
  | process s r =>
    have shown := Naming.routerOf?_of_process (components_process naming.rootPrefix s r id) (by
      simp only [List.forall_mem_append]
      exact ⟨⟨unmarked, s.unmarked⟩, r.unmarked⟩)
    refine Name.eq_some_of_components (shown.trans ?_)
    simp only [Name.components_append, List.append_assoc]

end Holder
end

/-! ## The policy between holders -/

namespace Holder

/-- What a holder shows of its place when it signs for a role, or is signed in it. -/
def partFor? (role : Role) (holder : Holder) : Option Name :=
  match role with
  | .root => some .root
  | .site => some .root
  | .operator => some holder.sitePart
  | .router => some holder.sitePart
  | .process => holder.routerPart?

/-- Who may issue stands above the subject and agrees with it in the part that the
    subject's role asks for. -/
theorem mayIssue_iff {signer subject : Holder} :
    signer.MayIssue subject ↔
      signer.role.mayCertify subject.role = true ∧ (subject.partFor? subject.role).isSome = true ∧
        subject.partFor? subject.role = signer.partFor? subject.role := by
  constructor
  · intro may
    cases may with
    | process same => exact ⟨rfl, rfl, congrArg some same⟩
    | _ => exact ⟨rfl, rfl, rfl⟩
  · rintro ⟨above, -, same⟩
    cases subject with
    | root => cases signer with
      | root => exact .root
      | _ => cases above
    | site s => cases signer with
      | root => exact .site s
      | _ => cases above
    | operator s o => cases signer with
      | root => exact absurd (Option.some.inj same) s.toName_ne_root
      | site s' =>
        obtain rfl := NamePart.toName_injective (Option.some.inj same)
        exact .siteOperator s o
      | _ => cases above
    | router s r => cases signer with
      | root => exact absurd (Option.some.inj same) s.toName_ne_root
      | site s' =>
        obtain rfl := NamePart.toName_injective (Option.some.inj same)
        exact .siteRouter s r
      | operator s' o =>
        obtain rfl := NamePart.toName_injective (Option.some.inj same)
        exact .operatorRouter s o r
      | _ => cases above
    | process s r => cases signer with
      | router s' r' => exact .process (Option.some.inj same)
      | process s' r' => cases above
      | _ => cases same

instance (signer subject : Holder) : Decidable (signer.MayIssue subject) := decidable_of_iff' _ mayIssue_iff

/-- What stands before the part of a holder in the place that a name shows. -/
def baseFor (naming : Naming) : Role → Name
  | .root => naming.rootPrefix
  | .site => naming.rootPrefix
  | _ => naming.network

private theorem placeFor?_certificate {naming : Naming} (unmarked : naming.rootPrefix.Unmarked) (role : Role)
    (holder : Holder) (id : NamePart) :
    naming.placeFor? role (holder.certificate naming.rootPrefix id) =
      (holder.partFor? role).map (baseFor naming role ++ ·) := by
  have rootOnly : some (naming.rootOf (holder.certificate naming.rootPrefix id)) =
      (some Name.root).map (naming.rootPrefix ++ ·) := by
    rw [rootOf_certificate, Option.map_some, Option.some.injEq, Name.ext_iff, Name.components_append,
      Name.components_root, List.append_nil]
  cases role with
  | root => exact rootOnly
  | site => exact rootOnly
  | operator => exact siteOf?_certificate unmarked holder id
  | router => exact siteOf?_certificate unmarked holder id
  | process => exact routerOf?_certificate unmarked holder id

theorem checkSigner_certificate_iff {naming : Naming} (unmarked : naming.rootPrefix.Unmarked)
    (subject signer : Holder) (id other : NamePart) :
    naming.checkSigner (subject.certificate naming.rootPrefix id) (signer.certificate naming.rootPrefix other) =
      .ok () ↔ signer.MayIssue subject := by
  have sameBase : Function.Injective (Option.map (baseFor naming subject.role ++ ·)) :=
    Option.map_injective fun _ _ => Name.append_right_inj.1
  rw [Naming.checkSigner_ok_iff, roleOf_certificate unmarked, roleOf_certificate unmarked,
    placeFor?_certificate unmarked, placeFor?_certificate unmarked, Option.isSome_map, sameBase.eq_iff]
  exact mayIssue_iff.symm

/-- The policy on names of the documented shapes. Where the root prefix uses no marker, the
    roles are read as meant, and of all pairs of names those are allowed whose first holder
    may be issued a certificate by the second. -/
theorem policy_of_holders (naming : Naming) (unmarked : naming.rootPrefix.Unmarked) (subject signer : Holder)
    (id other : NamePart) :
    naming.roleOf (subject.certificate naming.rootPrefix id) = subject.role ∧
      naming.roleOf (signer.certificate naming.rootPrefix other) = signer.role ∧
      (naming.checkSigner (subject.certificate naming.rootPrefix id) (signer.certificate naming.rootPrefix other) =
        .ok () ↔ signer.MayIssue subject) :=
  ⟨roleOf_certificate unmarked subject id, roleOf_certificate unmarked signer other,
    checkSigner_certificate_iff unmarked subject signer id other⟩

/-- The key of `pollux` at the site `memphis/lab` may certify a process of the router
    `lab/pollux` at the site `memphis`, and of no router `pollux` there. -/
theorem policy_of_holders_memphis :
    let certificate (holder : Holder) : Name := holder.certificate Naming.ndn.rootPrefix .keyId
    Naming.ndn.rootPrefix.Unmarked ∧
      Naming.ndn.roleOf (certificate (.process .memphis .labPollux)) = .process ∧
      Naming.ndn.roleOf (certificate (.router .memphisLab .pollux)) = .router ∧
      Naming.ndn.checkSigner (certificate (.process .memphis .labPollux)) (certificate (.router .memphisLab .pollux)) =
        .ok () ∧
      Naming.ndn.checkSigner (certificate (.process .memphis .pollux)) (certificate (.router .memphisLab .pollux)) ≠
        .ok () := by
  have unmarked : Naming.ndn.rootPrefix.Unmarked := by decide
  obtain ⟨isProcess, isRouter, allowed⟩ :=
    policy_of_holders .ndn unmarked (.process .memphis .labPollux) (.router .memphisLab .pollux) .keyId .keyId
  obtain ⟨_, _, allowedToo⟩ :=
    policy_of_holders .ndn unmarked (.process .memphis .pollux) (.router .memphisLab .pollux) .keyId .keyId
  exact ⟨unmarked, isProcess, isRouter, allowed.2 (by decide), mt allowedToo.1 (by decide)⟩

end Holder
end RouteTrust
