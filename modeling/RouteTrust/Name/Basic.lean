/-!
Hierarchical names: lists of non-empty components. Besides the list operations
there is the tolerant lookup rule: a lookup finds a stored name that equals it
or that it extends by one component (`resolvesTo_iff`). Two names overlap if
either finds the other.
-/
namespace RouteTrust

/-- A hierarchical name. No component is empty. -/
structure Name where
  components : List String
  components_ne : ∀ component ∈ components, component ≠ ""
  deriving DecidableEq

namespace Name

theorem ext_components {a b : Name} (same : a.components = b.components) : a = b := by
  cases a; cases b; simp_all

theorem ext_iff {a b : Name} : a = b ↔ a.components = b.components :=
  ⟨congrArg components, ext_components⟩

/-- The name without components. -/
def root : Name := ⟨[], by simp⟩

instance : Inhabited Name := ⟨root⟩

/-- The non-empty ones of the given components. -/
def ofList (components : List String) : Name :=
  ⟨components.filter (· ≠ ""), by simp⟩

def length (name : Name) : Nat := name.components.length

def isEmpty (name : Name) : Bool := name.components.isEmpty

def get? (name : Name) (index : Nat) : Option String := name.components[index]?

/-- The name with one more component; an empty one adds nothing. -/
def push (name : Name) (component : String) : Name :=
  if present : component = "" then name
  else ⟨name.components ++ [component], by
    simpa [or_imp, forall_and, present] using name.components_ne⟩

/-- The components of one name, then those of another. -/
def append (front back : Name) : Name :=
  ⟨front.components ++ back.components, by
    simpa [or_imp, forall_and] using ⟨front.components_ne, back.components_ne⟩⟩

instance : Append Name := ⟨append⟩

/-- The first components, or all if there are fewer. -/
def take (name : Name) (count : Nat) : Name :=
  ⟨name.components.take count, fun c member => name.components_ne c (List.mem_of_mem_take member)⟩

/-- The components from `start` up to `stop`; none if the span is inverted or
    reaches past the end. -/
def slice (name : Name) (start stop : Nat) : Name :=
  if start < stop ∧ stop ≤ name.length then
    ⟨(name.components.take stop).drop start, fun c member =>
      name.components_ne c (List.mem_of_mem_take (List.mem_of_mem_drop member))⟩
  else root

/-- The name without its last component. -/
def parent (name : Name) : Name := name.take (name.length - 1)

/-- The index of the first component equal to the given one. -/
def indexOf? (name : Name) (component : String) : Option Nat :=
  name.components.findIdx? (· == component)

def contains (name : Name) (component : String) : Bool := (name.indexOf? component).isSome

/-- The components of the first name begin the second. -/
def isPrefixOf (front name : Name) : Bool := front.components.isPrefixOf name.components

/-- A lookup finds a stored name that equals it or lacks only its last component. -/
def resolvesTo (lookup stored : Name) : Bool :=
  stored.isPrefixOf lookup && lookup.length - stored.length ≤ 1

/-- Either name finds the other. -/
def overlaps (a b : Name) : Bool := a.resolvesTo b || b.resolvesTo a

/-- Names are ordered by components, components by code points. -/
instance : Ord Name := ⟨fun a b => compare a.components b.components⟩

/-! ## The component view -/

@[simp] theorem components_root : root.components = [] := rfl

@[simp] theorem components_ofList (components : List String) :
    (ofList components).components = components.filter (· ≠ "") := rfl

theorem components_push {name : Name} {component : String} (present : component ≠ "") :
    (name.push component).components = name.components ++ [component] := by
  simp [push, present]

@[simp] theorem push_empty (name : Name) : name.push "" = name := by simp [push]

@[simp] theorem components_append (front back : Name) :
    (front ++ back).components = front.components ++ back.components := rfl

@[simp] theorem components_take (name : Name) (count : Nat) :
    (name.take count).components = name.components.take count := rfl

theorem components_slice {name : Name} {start stop : Nat} (inside : start < stop ∧ stop ≤ name.length) :
    (name.slice start stop).components = (name.components.take stop).drop start := by
  simp [slice, inside]

theorem isPrefixOf_iff {front name : Name} :
    front.isPrefixOf name = true ↔ front.components <+: name.components :=
  List.isPrefixOf_iff_prefix

/-- A lookup finds what equals it and what it extends by one component. -/
theorem resolvesTo_iff {lookup stored : Name} :
    lookup.resolvesTo stored = true ↔
      lookup = stored ∨ ∃ version, lookup.components = stored.components ++ [version] := by
  rw [resolvesTo, Bool.and_eq_true, decide_eq_true_eq, isPrefixOf_iff, ext_iff]
  unfold length
  constructor
  · rintro ⟨⟨extra, split⟩, short⟩
    rw [← split] at short ⊢
    match extra with
    | [] => exact .inl (by simp)
    | [version] => exact .inr ⟨version, rfl⟩
    | _ :: _ :: _ => simp at short
  · rintro (same | ⟨version, split⟩)
    · rw [same]; exact ⟨List.prefix_refl _, by simp⟩
    · rw [split]; exact ⟨List.prefix_append _ _, by simp⟩

@[simp] theorem resolvesTo_self (name : Name) : name.resolvesTo name = true :=
  resolvesTo_iff.2 (.inl rfl)

theorem overlaps_comm (a b : Name) : a.overlaps b = b.overlaps a := Bool.or_comm _ _

end Name
end RouteTrust
