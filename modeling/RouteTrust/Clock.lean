namespace RouteTrust

/-- Milliseconds since the epoch. -/
abbrev Time := UInt64

/-- Adds two numbers, staying at the largest one where the sum does not fit. -/
def addCapped (a b : UInt64) : UInt64 :=
  if a.toNat + b.toNat < UInt64.size then a + b else UInt64.ofNat (UInt64.size - 1)

/-- An inclusive span of time. -/
structure Window where
  start : Time
  stop : Time
  deriving DecidableEq, Repr

namespace Window

def always : Window := ⟨0, UInt64.ofNat (UInt64.size - 1)⟩

/-- The window of a lifetime that starts now. -/
def startingAt (now lifetime : Time) : Window := ⟨now, addCapped now lifetime⟩

/-- The time lies in the window, ends included. -/
def contains (window : Window) (time : Time) : Bool := window.start ≤ time && time ≤ window.stop

end Window

/-- The lifetime of certificates that name no other: one year of 365 days. -/
def defaultLifetime : Time := 365 * 24 * 60 * 60 * 1000

/-- The time after a span has passed, wrapping at 2^64. -/
def Time.advance (now span : Time) : Time := now + span

theorem toNat_addCapped (a b : UInt64) : (addCapped a b).toNat = min (a.toNat + b.toNat) (UInt64.size - 1) := by
  have := a.toNat_lt
  have := b.toNat_lt
  unfold addCapped
  split
  · rename_i fits
    rw [UInt64.toNat_add, Nat.mod_eq_of_lt fits]
    simp only [UInt64.size] at fits ⊢
    omega
  · rename_i large
    have : (UInt64.ofNat (UInt64.size - 1)).toNat = UInt64.size - 1 := by decide
    omega

end RouteTrust
