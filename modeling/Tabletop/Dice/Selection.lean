import Tabletop.Dice.Basic

/-!
# Which dice are dropped

A selector ranks the faces, the best for it first, and picks from the front. Equal faces keep the order
in which they were thrown, so of two equal faces the earlier counts as the higher for `highest` and as
the lower for `lowest`.
-/

namespace Tabletop

namespace Selector

/-- Whether a selector ranks the face `a` at least as well as the face `b`. -/
def ranks : Selector → Int → Int → Bool
  | highest _, a, b => b ≤ a
  | lowest _, a, b => a ≤ b

/-- The places of the faces, those that the selector ranks best in front. -/
def ranking (s : Selector) (faces : List Int) : List Nat :=
  (faces.zipIdx.mergeSort fun a b => s.ranks a.1 b.1).map (·.2)

/-- The places of the faces that the selector picks. -/
def picked (s : Selector) (faces : List Int) : List Nat :=
  (s.ranking faces).take s.count

end Selector

/-- For each face whether the modifier takes it out of the total. -/
def Modifier.dropped (m : Modifier) (faces : List Int) : List Bool :=
  let unpicked := Array.replicate faces.length m.keeps
  ((m.selector.picked faces).foldl (fun mask i => mask.setIfInBounds i !m.keeps) unpicked).toList

end Tabletop
