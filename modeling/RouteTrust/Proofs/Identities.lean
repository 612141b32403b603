import RouteTrust.Proofs.Grammar

namespace RouteTrust

namespace Naming
variable {naming : Naming} {name : Name}

/-- Where more than the root prefix stands before the first `KEY`, the name is not the root's. -/
theorem roleOf_ne_root_of_lt {key : Nat} (found : name.indexOf? keyMarker = some key)
    (behind : naming.rootPrefix.length < key) : naming.roleOf name ≠ .root := by
  intro isRoot
  obtain ⟨first, foundToo, directly⟩ := roleOf_eq_root_iff.1 isRoot
  obtain rfl := Option.some.inj (found.symm.trans foundToo)
  have inside := Nat.le_of_lt (Name.indexOf?_lt found)
  have long : (name.take key).length = key := by
    rw [Name.length, Name.components_take, List.length_take]
    exact Nat.min_eq_left inside
  rw [directly] at long
  omega

/-- Where a path leads from the root prefix to `KEY`, and no marker stands on either side of the
    two, the markers on the path tell the role. -/
theorem roleOf_of_path {path back : List String}
    (split : name.components = naming.rootPrefix.components ++ path ++ keyMarker :: back)
    (clear : ∀ component ∈ naming.rootPrefix.components ++ back, component ∉ reservedMarkers)
    (first : keyMarker ∉ path) (present : path ≠ []) :
    naming.roleOf name =
      if operatorMarker ∈ path then .operator
      else if routerMarker ∈ path then if processMarker ∈ path then .process else .router
      else .site := by
  have absent (marker : String) (reserved : marker ∈ reservedMarkers) :
      marker ∉ naming.rootPrefix.components ∧ marker ∉ back := by
    rw [← not_or, ← List.mem_append]
    exact fun member => clear marker member reserved
  have atKey := Name.indexOf?_of_split split (by
    rw [List.mem_append, not_or]
    exact ⟨(absent keyMarker (by decide)).1, first⟩)
  have low : naming.roleOf name ≠ .root := by
    refine roleOf_ne_root_of_lt atKey ?_
    rw [List.length_append, Name.length]
    exact Nat.lt_add_of_pos_right (List.length_pos_iff.2 present)
  have onPath (marker : String) (other : marker ∈ reservedMarkers ∧ marker ≠ keyMarker) :
      (name.indexOf? marker).isSome = true ↔ marker ∈ path := by
    obtain ⟨noFront, noBack⟩ := absent marker other.1
    rw [Name.isSome_indexOf?_iff, split, List.mem_append, List.mem_append, List.mem_cons]
    simp only [noFront, noBack, other.2, false_or, or_false]
  rw [roleOf_of_ne_root low, Markers.role]
  simp only [Name.markers, onPath operatorMarker (by decide), onPath routerMarker (by decide),
    onPath processMarker (by decide)]

/-- The site ends where the router marker first occurs. -/
theorem siteOf?_of_router {site : Name} {back : List String}
    (split : name.components = naming.rootPrefix.components ++ site.components ++ routerMarker :: back)
    (absent : routerMarker ∉ naming.rootPrefix.components ++ site.components) :
    naming.siteOf? name = some (naming.network ++ site) := by
  refine siteOf?_of_stop split ?_
  rw [Name.markers, Name.indexOf?_of_split split absent, Option.some_or]

/-- What is read off the name of a certificate. -/
structure Reads (naming : Naming) (name : Name) (role : Role) (site router : Name) : Prop where
  role : naming.roleOf name = role
  site : naming.siteOf? name = some site
  router : naming.routerOf? name = some router

end Naming

namespace Owner
variable {owner : Owner} {suffix : Name}

private theorem components_routerKey (owner : Owner) (suffix : Name) :
    (owner.routerIdentity.push keyMarker ++ suffix).components =
      owner.rootPrefix.components ++ owner.site.components ++
        routerMarker :: (owner.router.components ++ keyMarker :: suffix.components) := by
  rw [Name.components_append, Name.components_push (by decide), components_routerIdentity]
  simp only [List.append_assoc, List.cons_append, List.nil_append]

private theorem Unmarked.absent (unmarked : owner.Unmarked) {marker : String} (reserved : marker ∈ reservedMarkers) :
    marker ∉ owner.rootPrefix.components ∧ marker ∉ owner.site.components ∧ marker ∉ owner.router.components :=
  ⟨fun member => unmarked owner.rootPrefix (by simp) marker member reserved,
    fun member => unmarked owner.site (by simp) marker member reserved,
    fun member => unmarked owner.router (by simp) marker member reserved⟩

private theorem Unmarked.aroundSite (unmarked : owner.Unmarked) :
    ∀ component ∈ owner.rootPrefix.components ++ owner.site.components ++ owner.router.components,
      component ∉ reservedMarkers := by
  simp only [List.forall_mem_append]
  exact ⟨⟨unmarked owner.rootPrefix (by simp), unmarked owner.site (by simp)⟩, unmarked owner.router (by simp)⟩

/-- Of the site and the router, only what stands around the router is a marker. -/
theorem Unmarked.mem_path_iff (unmarked : owner.Unmarked) {marker : String} (reserved : marker ∈ reservedMarkers)
    (tail : List String) :
    marker ∈ owner.site.components ++ routerMarker :: (owner.router.components ++ tail) ↔
      marker ∈ routerMarker :: tail := by
  obtain ⟨_, noSite, noRouter⟩ := unmarked.absent reserved
  simp only [List.mem_append, List.mem_cons, noSite, noRouter, false_or]

/-- What stands between the router and `KEY` tells the router's own key from that of its process. -/
theorem roleOf_of_tail (unmarked : owner.Unmarked) (plain : suffix.Unmarked) {name : Name} (tail : List String)
    (split : name.components = owner.rootPrefix.components ++ owner.site.components ++
      routerMarker :: (owner.router.components ++ tail ++ keyMarker :: suffix.components))
    (known : tail = [] ∨ tail = [processMarker]) :
    owner.naming.roleOf name = if tail = [] then .router else .process := by
  have onPath : name.components = owner.naming.rootPrefix.components ++
      (owner.site.components ++ routerMarker :: (owner.router.components ++ tail)) ++
        keyMarker :: suffix.components := by
    simp only [split, List.append_assoc, List.cons_append]
    rfl
  have clear : ∀ component ∈ owner.naming.rootPrefix.components ++ suffix.components,
      component ∉ reservedMarkers := by
    rw [List.forall_mem_append]
    exact ⟨unmarked owner.rootPrefix (by simp), plain⟩
  have first : keyMarker ∉ owner.site.components ++ routerMarker :: (owner.router.components ++ tail) := by
    rw [unmarked.mem_path_iff (by decide)]
    rcases known with rfl | rfl
    · decide
    · decide
  rw [Naming.roleOf_of_path onPath clear first (by simp)]
  simp only [unmarked.mem_path_iff (show operatorMarker ∈ reservedMarkers by decide),
    unmarked.mem_path_iff (show routerMarker ∈ reservedMarkers by decide),
    unmarked.mem_path_iff (show processMarker ∈ reservedMarkers by decide)]
  rcases known with rfl | rfl
  · rfl
  · rfl

private theorem Unmarked.routerMarker_absent (unmarked : owner.Unmarked) :
    routerMarker ∉ owner.naming.rootPrefix.components ++ owner.site.components := by
  obtain ⟨noPrefix, noSite, _⟩ := unmarked.absent (show routerMarker ∈ reservedMarkers by decide)
  rw [List.mem_append, not_or]
  exact ⟨noPrefix, noSite⟩

/-- A certificate name for the router's key shows the router. -/
theorem reads_routerKey (unmarked : owner.Unmarked) (plain : suffix.Unmarked) :
    owner.naming.Reads (owner.routerIdentity.push keyMarker ++ suffix) .router (owner.network ++ owner.site)
      owner.routerName := by
  have split := owner.components_routerKey suffix
  refine ⟨roleOf_of_tail unmarked plain [] ?_ (.inl rfl),
    Naming.siteOf?_of_router split unmarked.routerMarker_absent,
    Name.eq_some_of_components (Naming.routerOf?_of_key split ?_)⟩
  · rw [split, List.append_nil]
  · rw [List.forall_mem_append]
    exact ⟨unmarked.aroundSite, plain⟩

/-- A certificate name for the key of the router's process shows the same router. -/
theorem reads_processKey (unmarked : owner.Unmarked) (plain : suffix.Unmarked) :
    owner.naming.Reads (owner.processIdentity.push keyMarker ++ suffix) .process (owner.network ++ owner.site)
      owner.routerName := by
  have split := owner.components_processKey suffix
  refine ⟨roleOf_of_tail unmarked plain [processMarker] ?_ (.inr rfl),
    Naming.siteOf?_of_router split unmarked.routerMarker_absent,
    Name.eq_some_of_components (Naming.routerOf?_of_process split unmarked.aroundSite)⟩
  rw [split, List.append_assoc owner.router.components, List.singleton_append]

/-- Composing names and reading them are inverse. Where the four names that the owner is made
    of use no marker, every certificate name for the router's key or for that of its process,
    whatever key id it ends in, shows its role, the site and the router; and every
    advertisement of a router of this owner shows the router. -/
theorem names_read_back (unmarked : owner.Unmarked) (plain : suffix.Unmarked) :
    owner.naming.Reads (owner.routerIdentity.push keyMarker ++ suffix) .router (owner.network ++ owner.site)
      owner.routerName ∧
    owner.naming.Reads (owner.processIdentity.push keyMarker ++ suffix) .process (owner.network ++ owner.site)
      owner.routerName ∧
    ∀ node : Node, node.config.owner = owner → node.keyring.owner = owner → ∀ kind seq,
      owner.naming.routerOf? (node.lsaName kind seq) = some owner.routerName := by
  refine ⟨reads_routerKey unmarked plain, reads_processKey unmarked plain, ?_⟩
  intro node configured held kind seq
  have same : node.keyring.owner = node.config.owner := held.trans configured.symm
  rw [← held]
  exact Node.routerOf?_lsaName same (configured.symm ▸ unmarked) kind seq _

/-- The names of a router without a name of its own, at a site called like the root prefix. -/
def nameless : Owner := ⟨.ofList ["ndn"], .ofList ["ndn", "keys"], .ofList ["ndn", "keys"], .root⟩

/-- The router of these names, with nothing in its store. -/
def namelessNode : Node where
  config := ⟨nameless, none, none⟩
  keyring := ⟨nameless, .empty, .root, .root, .root, .root, .root, ⟨Octets.zero 32⟩, 1⟩
  sequence := .new ⟨"/lsa"⟩
  certificateSequence := ⟨1, ⟨"/certificate"⟩⟩

theorem names_read_back_nameless :
    let suffix := Name.ofList ["ksk-1", "v=2"]
    let shown := Name.ofList ["ndn", "ndn", "keys"]
    nameless.Unmarked ∧ suffix.Unmarked ∧ namelessNode.config.owner = nameless ∧
      namelessNode.keyring.owner = nameless ∧
      nameless.naming.Reads (nameless.processIdentity.push keyMarker ++ suffix) .process shown shown ∧
      nameless.naming.routerOf? (namelessNode.lsaName .adjacency 18446744073709551615) = some shown := by
  intro suffix shown
  have unmarked : nameless.Unmarked := by decide
  have plain : suffix.Unmarked := by decide
  obtain ⟨_, process, advertised⟩ := names_read_back unmarked plain
  have routerShown : nameless.routerName = shown := by decide
  have siteShown : nameless.network ++ nameless.site = shown := by decide
  rw [routerShown, siteShown] at process
  rw [routerShown] at advertised
  exact ⟨unmarked, plain, rfl, rfl, process, advertised namelessNode rfl rfl .adjacency _⟩

end Owner
end RouteTrust
