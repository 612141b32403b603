import RouteTrust.Name.Uri

/-!
The waiting list: for each signer that is not verified yet, the certificates
that wait for it. Signers stand in the order of their first waitee, waitees in
the order of their arrival, each once. An entry goes as a whole.
-/
namespace RouteTrust

/-- A signer and the names of the certificates that wait for it. -/
structure WaitingEntry where
  signer : Name
  waitees : List Name
  deriving DecidableEq

/-- The entry with one more waitee, unless it waits already. The answer is whether it is new. -/
def WaitingEntry.register (entry : WaitingEntry) (waitee : Name) : Bool × WaitingEntry :=
  if waitee ∈ entry.waitees then (false, entry)
  else (true, { entry with waitees := entry.waitees ++ [waitee] })

/-- The signers that are waited for. -/
structure WaitingList where
  entries : List WaitingEntry
  deriving DecidableEq

namespace WaitingList

def empty : WaitingList := ⟨[]⟩

instance : Inhabited WaitingList := ⟨empty⟩

/-- The entry of a signer of exactly this name. -/
def get? (list : WaitingList) (signer : Name) : Option WaitingEntry :=
  list.entries.find? (·.signer = signer)

/-- The names that wait for a signer of exactly this name. -/
def waiteesOf (list : WaitingList) (signer : Name) : List Name :=
  match list.get? signer with
  | some entry => entry.waitees
  | none => []

/-- The waitee waits for the signer. -/
def holds (list : WaitingList) (signer waitee : Name) : Bool := waitee ∈ list.waiteesOf signer

/-- Registers a waitee in the first entry of its signer, or in a new entry at the end. -/
def registerIn (signer waitee : Name) : List WaitingEntry → Bool × List WaitingEntry
  | [] => (true, [⟨signer, [waitee]⟩])
  | entry :: rest =>
    if entry.signer = signer then
      let (isNew, changed) := entry.register waitee
      (isNew, changed :: rest)
    else
      let (isNew, others) := registerIn signer waitee rest
      (isNew, entry :: others)

/-- Makes a waitee wait for a signer. The answer is whether it did not before. -/
def register (list : WaitingList) (signer waitee : Name) : Bool × WaitingList :=
  let (isNew, entries) := registerIn signer waitee list.entries
  (isNew, ⟨entries⟩)

/-- The list in which a waitee waits for a signer, too. -/
def add (list : WaitingList) (signer waitee : Name) : WaitingList := (list.register signer waitee).2

/-- Forgets a signer and all that wait for it. The answer is whether anybody did. -/
def forget (list : WaitingList) (signer : Name) : Bool × WaitingList :=
  let kept := list.entries.filter (·.signer ≠ signer)
  (kept.length ≠ list.entries.length, ⟨kept⟩)

/-- The list in which nobody waits for a signer. -/
def remove (list : WaitingList) (signer : Name) : WaitingList := (list.forget signer).2

/-- The signers that are waited for, in order. -/
def signers (list : WaitingList) : List Name := list.entries.map (·.signer)

/-- The number of signers that are waited for. -/
def length (list : WaitingList) : Nat := list.entries.length

def isEmpty (list : WaitingList) : Bool := list.entries.isEmpty

/-- The number of pairs of a signer and a waitee. -/
def pairCount (list : WaitingList) : Nat := (list.entries.flatMap (·.waitees)).length

/-- The lines of an entry: its signer, then its waitees with an arrow. -/
def entryText (entry : WaitingEntry) : String :=
  "  " ++ entry.signer.uri ++ "\n" ++
    String.join (entry.waitees.map fun waitee => "    <- " ++ waitee.uri ++ "\n")

/-- A line with the count of signers, then the entries. -/
def text (list : WaitingList) : String :=
  s!"Waiting list ({list.length} signers)\n" ++ String.join (list.entries.map entryText)

theorem add_nil (signer waitee : Name) : add ⟨[]⟩ signer waitee = ⟨[⟨signer, [waitee]⟩]⟩ := rfl

theorem add_cons (entry : WaitingEntry) (rest : List WaitingEntry) (signer waitee : Name) :
    add ⟨entry :: rest⟩ signer waitee =
      if entry.signer = signer then ⟨(entry.register waitee).2 :: rest⟩
      else ⟨entry :: (add ⟨rest⟩ signer waitee).entries⟩ := by
  show WaitingList.mk (registerIn signer waitee (entry :: rest)).2 = _
  rw [registerIn]
  split <;> rfl

theorem remove_eq (list : WaitingList) (signer : Name) :
    list.remove signer = ⟨list.entries.filter (·.signer ≠ signer)⟩ := rfl

theorem mem_waitees_register {entry : WaitingEntry} {waitee other : Name} :
    other ∈ (entry.register waitee).2.waitees ↔ other ∈ entry.waitees ∨ other = waitee := by
  unfold WaitingEntry.register
  split
  · rename_i already
    exact ⟨.inl, fun h => h.elim id fun same => same ▸ already⟩
  · simp

@[simp] theorem signer_register (entry : WaitingEntry) (waitee : Name) :
    (entry.register waitee).2.signer = entry.signer := by
  unfold WaitingEntry.register; split <;> rfl

theorem waiteesOf_remove_self (list : WaitingList) (signer : Name) :
    (list.remove signer).waiteesOf signer = [] := by
  have gone : (list.remove signer).get? signer = none := by
    simp [get?, remove_eq]
  simp [waiteesOf, gone]

end WaitingList
end RouteTrust
