import RouteTrust.Proofs.Policy
import RouteTrust.Router.Node

namespace RouteTrust

theorem LsaKind.label_injective {a b : LsaKind} (same : a.label = b.label) : a = b := by
  cases a <;> cases b <;> first | rfl | exact absurd same (by decide)

/-- The text of a number is a component. -/
theorem Text.ofList_decimal_ne_empty (value : UInt64) : String.ofList (decimal value) ≠ "" := by
  intro empty
  have none_left : decimal value = [] := by rw [← String.toList_ofList (l := decimal value), empty]; rfl
  exact Nat.toDigits_ne_nil none_left

private theorem Text.ofList_decimal_not_mem_markers (value : UInt64) :
    String.ofList (decimal value) ∉ reservedMarkers := by
  have worded : ∀ marker ∈ reservedMarkers, marker.toList.all Char.isDigit = false := by decide
  intro member
  have found := worded _ member
  rw [String.toList_ofList, List.all_eq_false] at found
  obtain ⟨c, inText, other⟩ := found
  exact other (Nat.isDigit_of_mem_toDigits (by decide) (by decide) inText)

/-- The number in the name of an advertisement of a kind; it stands between the kind
    and the segment. -/
def Name.number? (name : Name) (kind : LsaKind) : Option UInt64 :=
  match name.components.reverse with
  | _ :: number :: label :: _ => if label = kind.label then Text.decimalValue? number.toList else none
  | _ => none

namespace Name

/-- What stands before a marker tells where the marker first occurs. -/
theorem indexOf?_of_split {name : Name} {front back : List String} {marker : String}
    (split : name.components = front ++ marker :: back) (absent : marker ∉ front) :
    name.indexOf? marker = some front.length := by
  have passed : front.findIdx? (· == marker) = none := by
    rw [List.findIdx?_eq_none_iff]
    intro component member
    rw [beq_eq_false_iff_ne]
    rintro rfl
    exact absent member
  rw [indexOf?, split, List.findIdx?_append, passed]
  simp [List.findIdx?_cons]

private theorem push_eq_append (name : Name) (component : String) :
    name.push component = name ++ ofList [component] := by
  by_cases present : component = ""
  · rw [present, push_empty, ext_iff, components_append]
    exact (List.append_nil _).symm
  · rw [ext_iff, components_push present, components_append, components_ofList, List.filter_cons_of_pos (by simpa),
      List.filter_nil]

theorem eq_some_of_components {found : Option Name} {name : Name}
    (same : found.map components = some name.components) : found = some name := by
  obtain ⟨other, rfl, equal⟩ := Option.map_eq_some_iff.1 same
  rw [ext_components equal]

/-- The middle of a name, also where nothing is in it. -/
theorem components_slice_of_split {name : Name} {front middle back : List String} {start stop : Nat}
    (split : name.components = front ++ middle ++ back) (first : start = front.length)
    (last : stop = front.length + middle.length) : (name.slice start stop).components = middle := by
  subst first last
  cases middle with
  | nil =>
    -- a slice takes an empty span for one that is not there, which comes to the same
    rw [slice, if_neg (by simp), components_root]
  | cons head rest =>
    have inside : front.length < front.length + (head :: rest).length ∧
        front.length + (head :: rest).length ≤ name.length := by
      rw [length, split]
      simp only [List.length_append, List.length_cons]
      omega
    rw [components_slice inside, split, List.take_left' (by simp), List.drop_left]

end Name

/-! ## The router that a name belongs to -/

namespace Naming
variable {naming : Naming} {name : Name}

/-- The site stands between the root prefix and the marker that ends it. -/
theorem siteOf?_of_stop {site : Name} {back : List String}
    (split : name.components = naming.rootPrefix.components ++ site.components ++ back)
    (stop : name.markers.router.or (name.markers.operator.or name.markers.key) =
      some (naming.rootPrefix.components ++ site.components).length) :
    naming.siteOf? name = some (naming.network ++ site) := by
  have between : (name.slice naming.rootPrefix.length
      (naming.rootPrefix.components ++ site.components).length).components = site.components :=
    Name.components_slice_of_split split rfl List.length_append
  simp only [siteOf?, stop, Option.map_some, Name.ext_components between]

/-- The site and the router, around the router marker behind the root prefix. -/
theorem components_routerUpTo {site router back : List String}
    (split : name.components = naming.rootPrefix.components ++ site ++ routerMarker :: (router ++ back)) :
    (naming.routerUpTo name (naming.rootPrefix.components ++ site).length
        (naming.rootPrefix.components ++ site ++ routerMarker :: router).length).components =
      naming.network.components ++ site ++ router := by
  have aroundRouter : name.components =
      (naming.rootPrefix.components ++ site ++ [routerMarker]) ++ router ++ back := by
    simp only [split, List.append_assoc, List.cons_append, List.nil_append]
  have siteBetween : (name.slice naming.rootPrefix.length (naming.rootPrefix.components ++ site).length).components =
      site := Name.components_slice_of_split split rfl List.length_append
  have routerBetween : (name.slice ((naming.rootPrefix.components ++ site).length + 1)
      (naming.rootPrefix.components ++ site ++ routerMarker :: router).length).components = router := by
    refine Name.components_slice_of_split aroundRouter ?_ ?_
    · simp only [List.length_append, List.length_cons, List.length_nil]
    · simp only [List.length_append, List.length_cons, List.length_nil]
      omega
  rw [routerUpTo, Name.components_append, Name.components_append, siteBetween, routerBetween]

/-- A name with the router marker and the process marker behind the root prefix belongs
    to the router between them. -/
theorem routerOf?_of_process {site router back : List String}
    (split : name.components =
      naming.rootPrefix.components ++ site ++ routerMarker :: (router ++ processMarker :: back))
    (clear : ∀ component ∈ naming.rootPrefix.components ++ site ++ router, component ∉ reservedMarkers) :
    (naming.routerOf? name).map Name.components = some (naming.network.components ++ site ++ router) := by
  have absent (marker : String) (reserved : marker ∈ reservedMarkers) :
      marker ∉ naming.rootPrefix.components ++ site ∧ marker ∉ router := by
    rw [← not_or, ← List.mem_append]
    exact fun member => clear marker member reserved
  have upToProcess : name.components =
      (naming.rootPrefix.components ++ site ++ routerMarker :: router) ++ processMarker :: back := by
    simp only [split, List.append_assoc, List.cons_append]
  have noProcess : processMarker ∉ naming.rootPrefix.components ++ site ++ routerMarker :: router := by
    have free := absent processMarker (by decide)
    rw [List.mem_append, List.mem_cons, not_or, not_or]
    exact ⟨free.1, by decide, free.2⟩
  -- only the first occurrences count, so nothing is asked of what follows the process marker
  have atRouter := Name.indexOf?_of_split split (absent routerMarker (by decide)).1
  have atProcess := Name.indexOf?_of_split upToProcess noProcess
  simp only [routerOf?, Name.markers, atRouter, atProcess, Option.map_some, components_routerUpTo split]

/-- A name with the router marker and `KEY` behind the root prefix, and no other marker,
    belongs to the router between them. -/
theorem routerOf?_of_key {site router back : List String}
    (split : name.components = naming.rootPrefix.components ++ site ++ routerMarker :: (router ++ keyMarker :: back))
    (clear : ∀ component ∈ naming.rootPrefix.components ++ site ++ router ++ back, component ∉ reservedMarkers) :
    (naming.routerOf? name).map Name.components = some (naming.network.components ++ site ++ router) := by
  have absent (marker : String) (reserved : marker ∈ reservedMarkers) :
      marker ∉ naming.rootPrefix.components ++ site ∧ marker ∉ router ∧ marker ∉ back := by
    rw [← not_or, ← not_or, ← List.mem_append, ← List.mem_append, ← List.append_assoc]
    exact fun member => clear marker member reserved
  have other (marker : String) (reserved : marker ∈ reservedMarkers) (notRouter : marker ≠ routerMarker)
      (notKey : marker ≠ keyMarker) : name.indexOf? marker = none := by
    obtain ⟨noSite, noRouter, noBack⟩ := absent marker reserved
    rw [List.mem_append, not_or] at noSite
    refine Name.indexOf?_eq_none ?_
    simp [split, noSite, noRouter, noBack, notRouter, notKey]
  have upToKey : name.components =
      (naming.rootPrefix.components ++ site ++ routerMarker :: router) ++ keyMarker :: back := by
    simp only [split, List.append_assoc, List.cons_append]
  have noKey : keyMarker ∉ naming.rootPrefix.components ++ site ++ routerMarker :: router := by
    have free := absent keyMarker (by decide)
    rw [List.mem_append, List.mem_cons, not_or, not_or]
    exact ⟨free.1, by decide, free.2.1⟩
  have atRouter := Name.indexOf?_of_split split (absent routerMarker (by decide)).1
  have atKey := Name.indexOf?_of_split upToKey noKey
  have noProcess := other processMarker (by decide) (by decide) (by decide)
  have noInfo := other infoMarker (by decide) (by decide) (by decide)
  have noLsa := other lsaMarker (by decide) (by decide) (by decide)
  simp only [routerOf?, Name.markers, atRouter, atKey, noProcess, noInfo, noLsa, Option.isNone_none, Bool.and_self,
    if_true, Option.map_some, components_routerUpTo split]

/-- A name with the LSA marker and neither the marker of routers nor that of information
    belongs to the router between the first LSA marker and the suffix. -/
theorem routerOf?_of_advertisement {front router suffix : List String}
    (split : name.components = front ++ lsaMarker :: (router ++ suffix))
    (short : suffix.length = lsaSuffixLength) (first : lsaMarker ∉ front)
    (clear : ∀ component ∈ front ++ router ++ suffix, component ∉ [routerMarker, infoMarker]) :
    (naming.routerOf? name).map Name.components = some router := by
  have absent (marker : String) (listed : marker ∈ [routerMarker, infoMarker]) (other : marker ≠ lsaMarker) :
      name.indexOf? marker = none := by
    refine Name.indexOf?_eq_none fun member => ?_
    have inParts : marker ∈ front ++ router ++ suffix := by
      rw [split] at member
      simpa [other] using member
    exact clear marker inParts listed
  have aroundRouter : name.components = (front ++ [lsaMarker]) ++ router ++ suffix := by
    simp only [split, List.append_assoc, List.cons_append, List.nil_append]
  have atLsa := Name.indexOf?_of_split split first
  have noRouter := absent routerMarker (by decide) (by decide)
  have noInfo := absent infoMarker (by decide) (by decide)
  have stop : name.length - lsaSuffixLength = (front ++ [lsaMarker]).length + router.length := by
    rw [Name.length, aroundRouter, List.length_append, short, Nat.add_sub_cancel, List.length_append]
  simp only [routerOf?, Name.markers, noRouter, advertiserOf?, noInfo, atLsa, Option.map_some]
  rw [Name.components_slice_of_split aroundRouter (by simp) stop]

end Naming

namespace Owner

/-- The names that the owner is made of keep clear of the markers. -/
def Unmarked (owner : Owner) : Prop :=
  ∀ part ∈ [owner.network, owner.rootPrefix, owner.site, owner.router], ∀ component ∈ part.components,
    component ∉ reservedMarkers

instance (owner : Owner) : Decidable owner.Unmarked :=
  inferInstanceAs (Decidable (∀ part ∈ [owner.network, owner.rootPrefix, owner.site, owner.router],
    ∀ component ∈ part.components, component ∉ reservedMarkers))

theorem components_routerIdentity (owner : Owner) : owner.routerIdentity.components =
    owner.rootPrefix.components ++ owner.site.components ++ routerMarker :: owner.router.components := by
  rw [routerIdentity, Name.components_append, Name.components_push (by decide), Name.components_append]
  simp only [List.append_assoc, List.cons_append, List.nil_append]

theorem components_processKey (owner : Owner) (suffix : Name) :
    (owner.processIdentity.push keyMarker ++ suffix).components =
      owner.rootPrefix.components ++ owner.site.components ++
        routerMarker :: (owner.router.components ++ processMarker :: keyMarker :: suffix.components) := by
  rw [Name.components_append, Name.components_push (by decide), processIdentity, Name.components_push (by decide),
    components_routerIdentity]
  simp only [List.append_assoc, List.cons_append, List.nil_append]

theorem processCertificate_eq (owner : Owner) (key : PublicKey) :
    owner.processCertificate key = owner.processIdentity.push keyMarker ++ .ofList [PublicKey.keyId key] :=
  Name.push_eq_append _ _

private theorem components_processCertificate (owner : Owner) (key : PublicKey) :
    (owner.processCertificate key).components =
      owner.rootPrefix.components ++ owner.site.components ++ routerMarker :: (owner.router.components ++
        processMarker :: [keyMarker, PublicKey.keyId key]) := by
  have id_ne : PublicKey.keyId key ≠ "" := by
    intro empty
    have chars := congrArg String.toList empty
    rw [PublicKey.keyId, String.toList_append] at chars
    cases chars
  rw [processCertificate_eq, components_processKey, Name.components_ofList, List.filter_cons_of_pos (by simpa),
    List.filter_nil]

variable {owner : Owner}

private theorem Unmarked.routerName (unmarked : owner.Unmarked) :
    ∀ component ∈ owner.routerName.components, component ∉ reservedMarkers := by
  simp only [Owner.routerName, Name.components_append, List.forall_mem_append]
  exact ⟨⟨unmarked owner.network (by simp), unmarked owner.site (by simp)⟩, unmarked owner.router (by simp)⟩

/-- The certificate of a router's process belongs to the router. -/
theorem routerOf?_processCertificate (unmarked : owner.Unmarked) (key : PublicKey) :
    owner.naming.routerOf? (owner.processCertificate key) = some owner.routerName := by
  refine Name.eq_some_of_components (Naming.routerOf?_of_process (owner.components_processCertificate key) ?_)
  simp only [List.forall_mem_append]
  exact ⟨⟨unmarked owner.rootPrefix (by simp), unmarked owner.site (by simp)⟩, unmarked owner.router (by simp)⟩

end Owner

/-! ## Advertisements -/

namespace Node

private theorem components_lsaName (node : Node) (kind : LsaKind) (seq : UInt64) :
    (node.lsaName kind seq).components =
      node.config.owner.network.components ++ ["NLSR", lsaMarker] ++ node.keyring.owner.routerName.components ++
        [kind.label, String.ofList (Text.decimal seq), "0"] := by
  have label : kind.label ≠ "" := by cases kind <;> decide
  rw [lsaName, Name.components_push (by decide), Name.components_push (Text.ofList_decimal_ne_empty seq),
    Name.components_push label, Name.components_append, Name.components_push (by decide),
    Name.components_push (by decide)]
  simp only [List.append_assoc, List.cons_append, List.nil_append]

theorem number?_lsaName (node : Node) (kind other : LsaKind) (seq : UInt64) :
    (node.lsaName kind seq).number? other = if other = kind then some seq else none := by
  unfold Name.number?
  rw [components_lsaName, List.reverse_append]
  simp only [List.reverse_cons, List.reverse_nil, List.nil_append, List.cons_append, String.toList_ofList,
    Text.decimalValue?_decimal]
  by_cases same : other = kind
  · rw [if_pos same, same, if_pos rfl]
  · rw [if_neg same, if_neg fun label => same (LsaKind.label_injective label).symm]

/-- An advertisement belongs to the router that makes it. -/
theorem routerOf?_lsaName {node : Node} (same : node.keyring.owner = node.config.owner)
    (unmarked : node.config.owner.Unmarked) (kind : LsaKind) (seq : UInt64) (naming : Naming) :
    naming.routerOf? (node.lsaName kind seq) = some node.keyring.owner.routerName := by
  have split : (node.lsaName kind seq).components =
      (node.config.owner.network.components ++ ["NLSR"]) ++ lsaMarker :: (node.keyring.owner.routerName.components ++
        [kind.label, String.ofList (Text.decimal seq), "0"]) := by
    rw [components_lsaName]
    simp only [List.append_assoc, List.cons_append, List.nil_append]
  have clear : ∀ component ∈ (node.config.owner.network.components ++ ["NLSR"]) ++
      node.keyring.owner.routerName.components ++ [kind.label, String.ofList (Text.decimal seq), "0"],
      component ∉ reservedMarkers := by
    rw [same]
    simp only [List.forall_mem_append, List.forall_mem_cons]
    refine ⟨⟨⟨unmarked _ (by simp), by decide⟩, unmarked.routerName⟩, ?_, ?_, by decide⟩
    · cases kind <;> decide
    · exact Text.ofList_decimal_not_mem_markers seq
  refine Name.eq_some_of_components (Naming.routerOf?_of_advertisement split rfl ?_ ?_)
  · exact fun member => clear lsaMarker (List.mem_append_left _ (List.mem_append_left _ member)) (by decide)
  · have reserved : [routerMarker, infoMarker] ⊆ reservedMarkers := by decide
    exact fun component member listed => clear component member (reserved listed)

end Node
end RouteTrust
