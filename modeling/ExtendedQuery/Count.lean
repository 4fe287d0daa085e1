/-!
# Counts

Lengths and numbers of things are counted in 64 bits. A step of a calculation that leads out of them, over
their end or below zero, gives nothing.
-/

namespace ExtendedQuery.Count

def ofNat? (n : Nat) : Option Nat := if n < UInt64.size then some n else none

def add? (a b : Nat) : Option Nat := ofNat? (a + b)

def mul? (a b : Nat) : Option Nat := ofNat? (a * b)

def sub? (a b : Nat) : Option Nat := if b ≤ a then some (a - b) else none

theorem ofNat?_eq_some_iff {n m : Nat} : ofNat? n = some m ↔ n < UInt64.size ∧ n = m := by
  unfold ofNat?
  split <;> simp [*]

theorem ofNat?_of_lt {n : Nat} (fits : n < UInt64.size) : ofNat? n = some n := if_pos fits

theorem ofNat?_of_le {n : Nat} (large : UInt64.size ≤ n) : ofNat? n = none := if_neg (Nat.not_lt.2 large)

theorem sub?_of_le {a b : Nat} (le : b ≤ a) : sub? a b = some (a - b) := if_pos le

end ExtendedQuery.Count
