/-!
# Big fails

A rule says which faces are a critical failure. It sees the number of sides and the face, and it is asked
only about dice that count.
-/

namespace Tabletop

/-- Whether a face of a die with so many sides is a big fail. -/
abbrev BigFailRule := (sides face : Int) → Bool

namespace BigFailRule

/-- The highest face, unless it is the only one. -/
def maxFace : BigFailRule :=
  fun sides face => 1 < sides && face == sides

/-- The faces between two bounds of dice with a given number of sides; what is not given does not
restrict. -/
def between (sides? low? high? : Option Int) : BigFailRule :=
  fun sides face => sides?.all (· == sides) && low?.all (· ≤ face) && high?.all (face ≤ ·)

end BigFailRule
end Tabletop
