/-!
# Ranges of code points

A class of characters is given by the code points it covers, as first and last member of each run.
-/

namespace Tabletop.Text

/-- Runs of code points, each by its first and its last member. -/
abbrev Ranges := List (Nat × Nat)

/-- Whether a character lies in one of the runs. -/
def Ranges.covers (ranges : Ranges) (c : Char) : Bool :=
  ranges.any fun (first, last) => first ≤ c.toNat && c.toNat ≤ last

end Tabletop.Text
