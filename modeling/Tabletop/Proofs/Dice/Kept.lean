import Mathlib.Data.Set.Defs
import Tabletop.Proofs.Dice.Faces

/-!
# The faces that are kept

Of the sums over so many of the faces, keeping the highest gives the greatest and keeping the lowest the least.
Dropping the others leaves the same values, though not always the same dice.

All of this is about values without places.  Up to their order, the values that a modifier leaves are the first
or the last of the sorted values (`Modifier.kept_perm_keptSorted`), and sorted values do not depend on the order
in which the dice were thrown.
-/

namespace Tabletop

/-! ## Sorted values -/

namespace Selector

/-- The values of the faces, those that the selector ranks best in front. -/
def sorted (s : Selector) (faces : List Int) : List Int :=
  (s.ranked faces).map Prod.fst

variable (s : Selector) {faces faces' : List Int}

theorem sorted_perm (faces : List Int) : (s.sorted faces).Perm faces := by
  have hperm := (s.ranked_perm faces).map Prod.fst
  rwa [List.zipIdx_map_fst] at hperm

theorem pairwise_ranks_sorted (faces : List Int) :
    (s.sorted faces).Pairwise fun a b => s.ranks a b :=
  List.pairwise_map.2 (s.pairwise_ranks_ranked faces)

theorem ranks_antisymm {a b : Int} (hab : s.ranks a b) (hba : s.ranks b a) : a = b := by
  cases s <;> simp only [ranks, decide_eq_true_eq] at * <;> omega

/-- Values in this order are the sorted ones. -/
theorem eq_sorted {values : List Int} (h : values.Pairwise fun a b => s.ranks a b)
    (hperm : values.Perm faces) : values = s.sorted faces :=
  (hperm.trans (s.sorted_perm faces).symm).eq_of_pairwise
    (fun _ _ _ _ hab hba => s.ranks_antisymm hab hba) h (s.pairwise_ranks_sorted faces)

theorem sorted_eq_of_perm (h : faces.Perm faces') : s.sorted faces = s.sorted faces' :=
  s.eq_sorted (s.pairwise_ranks_sorted faces) ((s.sorted_perm faces).trans h)

/-- The lowest first is the reverse of the highest first. -/
theorem sorted_lowest (m n : UInt32) (faces : List Int) :
    (lowest m).sorted faces = ((highest n).sorted faces).reverse := by
  symm
  apply eq_sorted
  · rw [List.pairwise_reverse]
    exact pairwise_ranks_sorted (highest n) faces
  · exact (List.reverse_perm _).trans (sorted_perm _ _)

/-- Of the sums over so many values, that over the first of the sorted ones is the best.  A value that is chosen
instead of the first one is no better. -/
theorem ranks_sum_take {values choice : List Int} (h : values.Pairwise fun a b => s.ranks a b)
    (hchoice : choice.Sublist values) : s.ranks (values.take choice.length).sum choice.sum := by
  have hadd : ∀ a b c d, s.ranks a b → s.ranks c d → s.ranks (a + c) (b + d) := by
    intro a b c d hab hcd
    cases s <;> simp only [ranks, decide_eq_true_eq] at * <;> omega
  have hrefl : ∀ a, s.ranks a a := fun a => (s.ranks_iff a a).2 (.inr rfl)
  induction values generalizing choice with
  | nil =>
    obtain rfl := List.sublist_nil.1 hchoice
    exact hrefl 0
  | cons first values ih =>
    obtain ⟨hfirst, hvalues⟩ := List.pairwise_cons.1 h
    cases choice with
    | nil => exact hrefl 0
    | cons value choice =>
      rw [List.length_cons, List.take_succ_cons, List.sum_cons, List.sum_cons]
      cases hchoice with
      | cons _ hrest =>
        -- the first value is not chosen, and the first that is chosen may be exchanged for it
        have hvalue := hfirst value (hrest.subset List.mem_cons_self)
        exact hadd _ _ _ _ hvalue (ih hvalues ((List.sublist_cons_self value choice).trans hrest))
      | cons_cons _ hrest => exact hadd _ _ _ _ (hrefl first) (ih hvalues hrest)

end Selector

/-! ## What a modifier leaves -/

namespace Modifier

/-- The faces that a modifier does not drop, in the order in which they were thrown. -/
def kept (m : Modifier) (faces : List Int) : List Int :=
  ((faces.zip (m.dropped faces)).filter (!·.2)).map Prod.fst

variable (s : Selector) (faces : List Int)

theorem kept_sublist (m : Modifier) : (m.kept faces).Sublist faces := by
  have hsub : (m.kept faces).Sublist ((faces.zip (m.dropped faces)).map Prod.fst) :=
    List.filter_sublist.map Prod.fst
  rwa [List.map_fst_zip (m.length_dropped faces).ge] at hsub

/-- If the faces that stay are those that satisfy a condition, then it can be asked for after ranking them. -/
theorem kept_perm (m : Modifier) (stays : Int × Nat → Bool)
    (h : m.dropped faces = List.ofFn fun i => !stays (Selector.placed faces i)) :
    (m.kept faces).Perm (((s.ranked faces).filter stays).map Prod.fst) := by
  have hzip : faces.zip (m.dropped faces) = faces.zipIdx.map fun a => (a.1, !stays a) := by
    apply List.ext_getElem
    · simp [h]
    · intro i hi hi'
      simp [h, Selector.placed]
  have hkept : m.kept faces = (faces.zipIdx.filter stays).map Prod.fst := by
    rw [kept, hzip, List.filter_map, List.map_map]
    simp [Function.comp_def]
  rw [hkept]
  exact ((s.ranked_perm faces).symm.filter stays).map Prod.fst

/-- What a modifier leaves of the sorted values. -/
def keptSorted (m : Modifier) (faces : List Int) : List Int :=
  match m with
  | keep s => (s.sorted faces).take s.count
  | drop s => (s.sorted faces).drop s.count

theorem kept_perm_keptSorted (m : Modifier) (faces : List Int) : (m.kept faces).Perm (m.keptSorted faces) := by
  cases m with
  | keep s =>
    have hperm := kept_perm s faces (keep s) (· ∈ (s.ranked faces).take s.count)
      (by simp [dropped_eq_ofFn, selector, keeps, Selector.selected_iff])
    rwa [filter_mem_take (s.nodup_ranked faces), List.map_take] at hperm
  | drop s =>
    have hperm := kept_perm s faces (drop s) (· ∉ (s.ranked faces).take s.count)
      (by simp [dropped_eq_ofFn, selector, keeps, Selector.selected_iff])
    rwa [filter_notMem_take (s.nodup_ranked faces), List.map_drop] at hperm

theorem keptSorted_eq_of_perm (m : Modifier) {faces faces' : List Int} (h : faces.Perm faces') :
    m.keptSorted faces = m.keptSorted faces' := by
  cases m with
  | keep s => rw [keptSorted, keptSorted, s.sorted_eq_of_perm h]
  | drop s => rw [keptSorted, keptSorted, s.sorted_eq_of_perm h]

/-- The lowest first without the last `n` are the highest first up to the `n`th, backwards, and the other way
round. -/
theorem keptSorted_dual {n rest : UInt32} {faces : List Int} (h : n.toNat + rest.toNat = faces.length) :
    ((drop (.lowest rest)).keptSorted faces).Perm ((keep (.highest n)).keptSorted faces) ∧
      ((drop (.highest rest)).keptSorted faces).Perm ((keep (.lowest n)).keptSorted faces) := by
  have hlength : ∀ s : Selector, (s.sorted faces).length = faces.length :=
    fun s => (s.sorted_perm faces).length_eq
  constructor
  · have hrest : faces.length - rest.toNat = n.toNat := by omega
    simp only [keptSorted, Selector.count, Selector.sorted_lowest rest n]
    rw [List.drop_reverse, hlength, hrest]
    exact List.reverse_perm _
  · have hrest : faces.length - n.toNat = rest.toNat := by omega
    simp only [keptSorted, Selector.count, Selector.sorted_lowest n rest]
    rw [List.take_reverse, hlength, hrest]
    exact (List.reverse_perm _).symm

/-- The order in which the dice were thrown does not matter. -/
theorem kept_perm_of_perm (m : Modifier) {faces faces' : List Int} (h : faces.Perm faces') :
    (m.kept faces).Perm (m.kept faces') := by
  have hsorted := m.kept_perm_keptSorted faces
  rw [m.keptSorted_eq_of_perm h] at hsorted
  exact hsorted.trans (m.kept_perm_keptSorted faces').symm

/-- Dropping all but `n` leaves the same values as keeping `n`. -/
theorem kept_dual {n rest : UInt32} {faces : List Int} (h : n.toNat + rest.toNat = faces.length) :
    ((drop (.lowest rest)).kept faces).Perm ((keep (.highest n)).kept faces) ∧
      ((drop (.highest rest)).kept faces).Perm ((keep (.lowest n)).kept faces) := by
  have hdual := keptSorted_dual h
  constructor
  · exact (kept_perm_keptSorted _ faces).trans (hdual.1.trans (kept_perm_keptSorted _ faces).symm)
  · exact (kept_perm_keptSorted _ faces).trans (hdual.2.trans (kept_perm_keptSorted _ faces).symm)

end Modifier

/-! ## Totals -/

/-- The sums over `count` of the faces. -/
def sumsOf (count : Nat) (faces : List Int) : Set Int :=
  {sum | ∃ choice : List Int, choice.Sublist faces ∧ choice.length = count ∧ choice.sum = sum}

namespace Modifier

variable (s : Selector) (faces : List Int)

theorem sum_keep_mem_sumsOf : ((keep s).kept faces).sum ∈ sumsOf (min s.count faces.length) faces := by
  refine ⟨_, kept_sublist faces (keep s), ?_, rfl⟩
  rw [(kept_perm_keptSorted (keep s) faces).length_eq, keptSorted, List.length_take,
    (s.sorted_perm faces).length_eq]

/-- No sum over as many of the faces as are kept is better than that over these. -/
theorem ranks_sum_keep {sum : Int} (h : sum ∈ sumsOf (min s.count faces.length) faces) :
    s.ranks ((keep s).kept faces).sum sum := by
  obtain ⟨choice, hchoice, hlength, rfl⟩ := h
  obtain ⟨choice', hperm, hsorted⟩ := (s.sorted_perm faces).symm.subperm_left.1 hchoice.subperm
  have hranks := s.ranks_sum_take (s.pairwise_ranks_sorted faces) hsorted
  have htake : (s.sorted faces).take choice'.length = (keep s).keptSorted faces := by
    rw [hperm.length_eq, hlength, ← (s.sorted_perm faces).length_eq, ← List.take_eq_take_min, keptSorted]
  rwa [htake, hperm.sum_eq, ← (kept_perm_keptSorted (keep s) faces).sum_eq] at hranks

end Modifier

/-- The values that count in a roll are those that its modifier leaves. -/
theorem DiceTerm.map_value_kept_judge {term : DiceTerm} {m : Modifier} (hm : term.modifier = some m)
    (rule : Option BigFailRule) (thrown : List UInt32) :
    (Face.kept (term.judge rule thrown)).map Face.value = m.kept (values thrown) := by
  rw [judge_eq, Face.kept, List.filter_map, List.map_map, Modifier.kept, dropped, hm]
  rfl

/-- Two dice that show the same: keeping one and dropping the other mark different dice. -/
theorem Modifier.dropped_tie :
    (drop (.lowest 1)).dropped [5, 5] ≠ (keep (.highest 1)).dropped [5, 5] ∧
      (drop (.highest 1)).dropped [5, 5] ≠ (keep (.lowest 1)).dropped [5, 5] := by
  simp only [dropped_eq_ofFn]
  decide

/-- Keeping the highest leaves the greatest sum over as many of the faces, and keeping the lowest the least.
Dropping the others leaves the same values, though where faces are equal not always the same dice.  The order in
which the dice were thrown does not change the values that are left, and it is these that a roll adds up. -/
theorem Modifier.kept_values :
    (∀ (n : UInt32) (faces : List Int),
      (((keep (.highest n)).kept faces).sum ∈ sumsOf (min n.toNat faces.length) faces ∧
        ∀ sum ∈ sumsOf (min n.toNat faces.length) faces, sum ≤ ((keep (.highest n)).kept faces).sum) ∧
      ((keep (.lowest n)).kept faces).sum ∈ sumsOf (min n.toNat faces.length) faces ∧
        ∀ sum ∈ sumsOf (min n.toNat faces.length) faces, ((keep (.lowest n)).kept faces).sum ≤ sum) ∧
    (∀ (n rest : UInt32) (faces : List Int), n.toNat + rest.toNat = faces.length →
      ((drop (.lowest rest)).kept faces).Perm ((keep (.highest n)).kept faces) ∧
      ((drop (.highest rest)).kept faces).Perm ((keep (.lowest n)).kept faces)) ∧
    (∃ (n rest : UInt32) (faces : List Int), n.toNat + rest.toNat = faces.length ∧
      (drop (.lowest rest)).dropped faces ≠ (keep (.highest n)).dropped faces ∧
      (drop (.highest rest)).dropped faces ≠ (keep (.lowest n)).dropped faces) ∧
    (∀ (m : Modifier) (faces faces' : List Int), faces.Perm faces' →
      (m.kept faces).Perm (m.kept faces')) ∧
    ∀ (term : DiceTerm) (m : Modifier) (rule : Option BigFailRule) (thrown : List UInt32),
      term.modifier = some m →
        (Face.kept (term.judge rule thrown)).map Face.value = m.kept (DiceTerm.values thrown) ∧
        ∀ total, Face.total? (term.judge rule thrown) = some total →
          total.toInt = (m.kept (DiceTerm.values thrown)).sum := by
  refine ⟨fun n faces => ⟨⟨sum_keep_mem_sumsOf (.highest n) faces, fun sum h => ?_⟩,
    sum_keep_mem_sumsOf (.lowest n) faces, fun sum h => ?_⟩, fun n rest faces => kept_dual,
    ⟨1, 1, [5, 5], rfl, dropped_tie⟩, fun m faces faces' => m.kept_perm_of_perm,
    fun term m rule thrown hm => ?_⟩
  · exact of_decide_eq_true (ranks_sum_keep (.highest n) faces h)
  · exact of_decide_eq_true (ranks_sum_keep (.lowest n) faces h)
  · have hvalues := DiceTerm.map_value_kept_judge hm rule thrown
    refine ⟨hvalues, fun total htotal => ?_⟩
    rw [← hvalues]
    exact Face.toInt_of_total? htotal

end Tabletop
