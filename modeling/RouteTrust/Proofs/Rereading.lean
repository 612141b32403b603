import RouteTrust.Proofs.ReadingBack
import RouteTrust.Proofs.Saving
import RouteTrust.Proofs.SignedBytes
import RouteTrust.Proofs.Trimming

/-!
Names that are read again from their text forms. Reading trims the text as a whole, so it takes
blanks at the end of the last component for blanks around the name: the name comes back
without them, and without that component if nothing else is in it (`ofUri_uri`). A slash behind
the text form keeps the blanks (`ofUri_uri_slash`). So the names that end with a blank can be read but do
not survive their text forms, and neither do certificates under them (`reread_exactly`).
-/
namespace RouteTrust

namespace Text

/-- Cutting takes the slashes out of a text, and nothing else. -/
theorem flatten_pieces (text : List Char) : (pieces text).flatten = text.filter (· ≠ '/') := by
  induction text with
  | nil => rfl
  | cons c rest ih =>
    by_cases slash : c = '/'
    · rw [slash, pieces_slash, List.flatten_cons, List.nil_append, ih]
      rfl
    · cases cut : pieces rest with
      | nil => exact absurd cut (pieces_ne_nil rest)
      | cons piece others =>
        rw [cut, List.flatten_cons] at ih
        rw [pieces, if_neg slash, cut]
        simp only [List.flatten_cons, List.cons_append, ih]
        rw [List.filter_cons_of_pos (by simpa using slash)]

end Text

namespace Name
variable {name : Name} {front : List String} {last : String}

/-- The last component ends with a blank. -/
def EndsBlank (name : Name) : Prop :=
  ∃ last, name.components.getLast? = some last ∧ Text.EndsBlank last.toList

/-- The name without the blanks at the end of its last component, and without that
    component if nothing else is in it. -/
def trimmed (name : Name) : Name :=
  .ofList (name.components.dropLast ++
    (name.components.getLast?.map fun last => String.ofList (Text.trimEnd last.toList)).toList)

private theorem endsBlank_iff (split : name.components = front ++ [last]) :
    name.EndsBlank ↔ Text.EndsBlank last.toList := by
  simp [EndsBlank, split]

private theorem trimmed_eq (split : name.components = front ++ [last]) :
    name.trimmed = .ofList (front ++ [String.ofList (Text.trimEnd last.toList)]) := by
  simp [trimmed, split]

private theorem exists_split_of_ne_root (present : name ≠ .root) : ∃ front last, name.components = front ++ [last] := by
  rcases List.eq_nil_or_concat name.components with empty | ⟨front, last, split⟩
  · exact absurd (ext_components empty) present
  · exact ⟨front, last, split.trans List.concat_eq_append⟩

/-- Only the last component may become shorter, or go. -/
theorem components_trimmed (split : name.components = front ++ [last]) :
    name.trimmed.components = front ++ [String.ofList (Text.trimEnd last.toList)].filter (· ≠ "") := by
  have kept : front.filter (· ≠ "") = front := List.filter_eq_self.2 fun component member => by
    simpa using name.components_ne component (split ▸ List.mem_append_left _ member)
  rw [trimmed_eq split, components_ofList, List.filter_append, kept]

theorem trimmed_root : root.trimmed = root := rfl

private theorem trimmed_eq_self_iff : name.trimmed = name ↔ ¬ name.EndsBlank := by
  by_cases present : name = .root
  · subst present
    simp [trimmed_root, EndsBlank]
  · obtain ⟨front, last, split⟩ := exists_split_of_ne_root present
    rw [endsBlank_iff split, ← Text.trimEnd_eq_self_iff]
    constructor
    · intro same
      rw [ext_iff, components_trimmed split, split, List.append_cancel_left_eq] at same
      have inside : last ∈ [String.ofList (Text.trimEnd last.toList)] :=
        List.mem_of_mem_filter (same ▸ List.mem_singleton_self last)
      have chars := congrArg String.toList (List.mem_singleton.1 inside)
      rw [String.toList_ofList] at chars
      exact chars.symm
    · intro same
      rw [trimmed_eq split, same, String.ofList_toList, ← split, ofList_components]

/-! ## From names to texts and back -/

private theorem uriChars_of_split (split : name.components = front ++ [last]) :
    name.uriChars = componentChars front ++ '/' :: last.toList := by
  have full : name.isEmpty = false := by simp [isEmpty, split]
  rw [uriChars_of_not_isEmpty full, split, componentChars, List.flatMap_append, List.flatMap_singleton]
  rfl

/-- Trimming the text form of a name can only take blanks from the last component. -/
theorem trim_uriChars (split : name.components = front ++ [last]) :
    Text.trim name.uriChars = componentChars (front ++ [String.ofList (Text.trimEnd last.toList)]) := by
  have slash : Text.isBlank '/' = false := by decide
  obtain ⟨rest, starts⟩ := name.exists_uriChars_eq
  rw [Text.trim, starts, Text.trimStart_cons_of_not_blank slash, ← starts, uriChars_of_split split,
    Text.trimEnd_append_of_visible slash, componentChars, componentChars, List.flatMap_append,
    List.flatMap_singleton, String.toList_ofList]

private theorem unslashed_trimEnd (unslashed : name.Unslashed) (split : name.components = front ++ [last]) :
    ∀ component ∈ front ++ [String.ofList (Text.trimEnd last.toList)], '/' ∉ component.toList := by
  rw [Unslashed, split] at unslashed
  intro component member
  rcases List.mem_append.1 member with earlier | final
  · exact unslashed component (List.mem_append_left _ earlier)
  · rw [List.mem_singleton.1 final, String.toList_ofList]
    exact fun inside => unslashed last (List.mem_append_right _ (List.mem_singleton_self last))
      (Text.trimEnd_subset _ inside)

/-- Reading the text form of a name takes away the blanks at its end. -/
theorem ofUri_uri (unslashed : name.Unslashed) : ofUri name.uri = .ok name.trimmed := by
  by_cases present : name = .root
  · subst present
    rfl
  · obtain ⟨front, last, split⟩ := exists_split_of_ne_root present
    rw [ofUri, toList_uri, trim_uriChars split,
      ofChars?_componentChars (by simp) (unslashed_trimEnd unslashed split), trimmed_eq split]

private theorem Unslashed.trimmed (unslashed : name.Unslashed) : name.trimmed.Unslashed :=
  unslashed_of_ofUri (ofUri_uri unslashed)

/-- Behind a slash the blanks at the end of a name are inside the text. -/
theorem ofUri_uri_slash (unslashed : name.Unslashed) : ofUri (name.uri ++ "/") = .ok name := by
  have slash : Text.isBlank '/' = false := by decide
  obtain ⟨rest, starts⟩ := name.exists_uriChars_eq
  have text : (name.uri ++ "/").toList = name.uriChars ++ ['/'] := by
    rw [String.toList_append, toList_uri]
    rfl
  have inside : Text.trim (name.uriChars ++ ['/']) = name.uriChars ++ ['/'] := by
    rw [Text.trim, starts, List.cons_append, Text.trimStart_cons_of_not_blank slash, ← List.cons_append]
    exact Text.trimEnd_concat_of_not_blank slash
  have denoted := ofChars?_uriChars unslashed
  rw [starts, ofChars?] at denoted
  have same := Option.some.inj denoted
  rw [ext_iff, components_ofList] at same
  rw [ofUri, text, inside, starts, List.cons_append, ofChars?, ← List.cons_append, Text.pieces_append]
  refine congrArg Except.ok (ext_components ?_)
  rw [components_ofList, List.map_append, List.filter_append, same]
  exact List.append_nil _

/-! ## Which texts give names that end with a blank -/

/-- Reading takes the slashes and the blanks around it out of a text, and nothing else. -/
theorem flatten_of_ofUri {uri : String} (read : ofUri uri = .ok name) :
    (name.components.map String.toList).flatten = (Text.trim uri.toList).filter (· ≠ '/') := by
  unfold ofUri at read
  split at read
  · rename_i found
    cases read
    unfold ofChars? at found
    split at found
    · rename_i rest starts
      cases found
      rw [starts, components_ofList, ← Text.flatten_pieces]
      generalize Text.pieces ('/' :: rest) = cut
      induction cut with
      | nil => rfl
      | cons piece others ih =>
        cases piece with
        | nil => simpa using ih
        | cons c piece => simpa using ih
    · cases found
  · cases read

private theorem endsBlank_iff_flatten :
    name.EndsBlank ↔ Text.EndsBlank (name.components.map String.toList).flatten := by
  by_cases present : name = .root
  · subst present
    simp [EndsBlank, Text.EndsBlank]
  · obtain ⟨front, last, split⟩ := exists_split_of_ne_root present
    have full : last.toList ≠ [] := fun empty =>
      name.components_ne last (split ▸ List.mem_append_right _ (List.mem_singleton_self last))
        (String.toList_eq_nil_iff.1 empty)
    rw [endsBlank_iff split, split, List.map_append, List.flatten_append, Text.EndsBlank, Text.EndsBlank]
    simp [List.getLast?_append_of_ne_nil _ full]

end Name

namespace Certificate

/-- What comes back of a certificate from its bytes. -/
theorem decode_encode_of_unslashed {c : Certificate} (named : c.name.Unslashed) (signed : c.signer.Unslashed)
    (nameFits : c.name.uri.utf8ByteSize < UInt64.size) (signerFits : c.signer.uri.utf8ByteSize < UInt64.size) :
    decode c.encode = .ok { c with name := c.name.trimmed, signer := c.signer.trimmed } := by
  have key : c.publicKey.bytes.length < UInt64.size := by rw [c.publicKey.length_eq]; decide
  have signature : c.signature.bytes.length < UInt64.size := by rw [c.signature.length_eq]; decide
  have message := CertificateMessage.decode_encode (m := c.toMessage) nameFits signerFits key signature
  have first := nameOf_eq_ok_iff.2 (Name.ofUri_uri named)
  have second := nameOf_eq_ok_iff.2 (Name.ofUri_uri signed)
  rw [decode, encode, message]
  change ofMessage c.toMessage = _
  rw [ofMessage_toMessage, first, second]
  rfl

/-- What comes back says what the certificate said if no blank was lost, and only then. -/
theorem signedBytes_trimmed_iff {c : Certificate} (named : c.name.Unslashed) (signed : c.signer.Unslashed) :
    ({ c with name := c.name.trimmed, signer := c.signer.trimmed } : Certificate).signedBytes = c.signedBytes ↔
      ¬ c.name.EndsBlank ∧ ¬ c.signer.EndsBlank := by
  rw [signedBytes_eq_iff named.trimmed signed.trimmed named signed, ← Name.trimmed_eq_self_iff,
    ← Name.trimmed_eq_self_iff]
  exact ⟨fun agrees => ⟨agrees.name, agrees.signer⟩, fun ⟨name, signer⟩ => ⟨name, signer, rfl, rfl⟩⟩

end Certificate

/-- Which names survive their text forms. A name that was read from a text comes back from its
    text form without the blanks at its end, so it comes back as it was exactly if its last
    component does not end with a blank. Whether it does can be told from the text: by the
    last character before the slashes at its end. A slash behind the text form keeps the
    name, and among the names that can be read a text form belongs to one only. But
    a certificate under such a name comes back from its bytes under the shorter name, and what
    was signed is what comes back exactly if neither the name nor the signer ends with a
    blank. -/
theorem Name.reread_exactly {uri : String} {name : Name} (read : ofUri uri = .ok name) :
    ofUri name.uri = .ok name.trimmed ∧
    (ofUri name.uri = .ok name ↔ ¬ name.EndsBlank) ∧
    (name.EndsBlank ↔ Text.EndsBlank ((Text.trim uri.toList).filter (· ≠ '/'))) ∧
    ofUri (name.uri ++ "/") = .ok name ∧
    (∀ text other, ofUri text = .ok other → other.uri = name.uri → other = name) ∧
    ∀ c : Certificate, c.name = name → (∃ text, ofUri text = .ok c.signer) →
      name.uri.utf8ByteSize < UInt64.size → c.signer.uri.utf8ByteSize < UInt64.size →
      ∃ next, Certificate.decode c.encode = .ok next ∧ next.name = name.trimmed ∧
        (next.signedBytes = c.signedBytes ↔ ¬ name.EndsBlank ∧ ¬ c.signer.EndsBlank) := by
  have unslashed := unslashed_of_ofUri read
  refine ⟨ofUri_uri unslashed, ?_, ?_, ofUri_uri_slash unslashed, ?_, ?_⟩
  · rw [ofUri_uri unslashed, Except.ok.injEq, trimmed_eq_self_iff]
  · rw [endsBlank_iff_flatten, flatten_of_ofUri read]
  · intro text other found same
    exact uri_injective (unslashed_of_ofUri found) unslashed same
  · rintro c rfl ⟨text, found⟩ nameFits signerFits
    have signed := unslashed_of_ofUri found
    exact ⟨_, Certificate.decode_encode_of_unslashed unslashed signed nameFits signerFits, rfl,
      Certificate.signedBytes_trimmed_iff unslashed signed⟩

/-- A certificate under a name that ends with a blank. -/
def Certificate.sampleOfBlank : Certificate := { sampleOfZero with name := .ofList ["a "] }

/-- The text `/a /` denotes a name with one component, which ends with a blank. The name comes
    back from its text form without the blank. -/
theorem Name.reread_exactly_blank :
    ofUri "/a /" = .ok (ofList ["a "]) ∧ ofUri (ofList ["a "]).uri = .ok (ofList ["a"]) ∧
      ofUri (ofList ["a "]).uri ≠ .ok (ofList ["a "]) ∧
      ∃ next, Certificate.decode Certificate.sampleOfBlank.encode = .ok next ∧
        next.signedBytes ≠ Certificate.sampleOfBlank.signedBytes := by
  have read : ofUri "/a /" = .ok (ofList ["a "]) := by decide +kernel
  have trimmed : (ofList ["a "]).trimmed = ofList ["a"] := by decide +kernel
  have blank : (ofList ["a "]).EndsBlank := ⟨"a ", rfl, ' ', by decide, by decide⟩
  obtain ⟨back, exactly, -, -, -, certificates⟩ := reread_exactly read
  obtain ⟨next, decoded, -, agrees⟩ := certificates Certificate.sampleOfBlank rfl
    ⟨"/a/KEY/k/v", by decide +kernel⟩ (by decide +kernel) (by decide +kernel)
  exact ⟨read, trimmed ▸ back, fun same => exactly.1 same blank, next, decoded,
    fun same => (agrees.1 same).1 blank⟩

end RouteTrust
