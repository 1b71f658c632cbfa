/-!
# Properties of characters as tables

A property is given by the code points at which it changes, beginning with one that has it. The data
are those of Unicode 16.
-/

namespace ContractFixture.CharTable

/-- The property whose changes are `changes` holds of `c`. -/
def holds (changes : List Nat) (c : Char) : Bool :=
  changes.countP (· ≤ c.toNat) % 2 = 1

end ContractFixture.CharTable
