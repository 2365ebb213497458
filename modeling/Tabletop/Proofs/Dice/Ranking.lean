import Mathlib.Data.Fintype.Card
import Mathlib.Data.List.Sort
import Tabletop.Dice.Selection

/-!
# The rank of a face

A selector picks a face if fewer faces beat it than are to be picked, where a better face beats a worse one and
of two equal faces the earlier beats the later.  This is said without sorting, `Selector.Selected`.

Sorting is stable, and so it puts the faces into the one order in which each beats all that follow it
(`pairwise_beats_ranked`).  In such an order the place of a face is the number of those that beat it.
-/

namespace Tabletop

/-! ## Better faces -/

namespace Selector

/-- Whether a face with the value `a` is better for a selector than one with the value `b`. -/
def Prefers : Selector → Int → Int → Prop
  | highest _, a, b => b < a
  | lowest _, a, b => a < b

instance (s : Selector) (a b : Int) : Decidable (s.Prefers a b) :=
  match s with
  | highest _ => inferInstanceAs (Decidable (b < a))
  | lowest _ => inferInstanceAs (Decidable (a < b))

/-- Whether a face beats another one, each given by its value and its place: it is better, or it is as good and
was thrown before. -/
def Beats (s : Selector) (a b : Int × Nat) : Prop :=
  s.Prefers a.1 b.1 ∨ a.1 = b.1 ∧ a.2 < b.2

instance (s : Selector) : DecidableRel s.Beats :=
  fun a b => inferInstanceAs (Decidable (s.Prefers a.1 b.1 ∨ a.1 = b.1 ∧ a.2 < b.2))

/-- The face at a place with its place. -/
def placed (faces : List Int) (i : Fin faces.length) : Int × Nat :=
  (faces[i], i)

open scoped Finset in
/-- Fewer faces beat the one at a place than are to be picked. -/
def Selected (s : Selector) (faces : List Int) (i : Fin faces.length) : Prop :=
  #{j | s.Beats (placed faces j) (placed faces i)} < s.count

instance (s : Selector) (faces : List Int) : DecidablePred (s.Selected faces) :=
  fun _ => inferInstanceAs (Decidable (_ < _))

theorem ranks_iff (s : Selector) (a b : Int) : s.ranks a b ↔ s.Prefers a b ∨ a = b := by
  cases s <;> simp only [ranks, Prefers, decide_eq_true_eq] <;> omega

theorem Beats.asymm {s : Selector} {a b : Int × Nat} (h : s.Beats a b) : ¬s.Beats b a := by
  unfold Beats at *
  cases s <;> simp only [Prefers] at * <;> omega

/-! ## The order of the faces -/

/-- The faces with their places, those that the selector ranks best in front. -/
def ranked (s : Selector) (faces : List Int) : List (Int × Nat) :=
  faces.zipIdx.mergeSort fun a b => s.ranks a.1 b.1

variable (s : Selector) (faces : List Int)

theorem ranked_perm : (s.ranked faces).Perm faces.zipIdx :=
  List.mergeSort_perm _ _

theorem ranks_trans (a b c : Int × Nat) (hab : s.ranks a.1 b.1) (hbc : s.ranks b.1 c.1) :
    s.ranks a.1 c.1 := by
  cases s <;> simp only [ranks, decide_eq_true_eq] at * <;> omega

theorem ranks_total (a b : Int × Nat) : s.ranks a.1 b.1 || s.ranks b.1 a.1 := by
  cases s <;> simp only [ranks, Bool.or_eq_true, decide_eq_true_eq] <;> omega

theorem pairwise_ranks_ranked : (s.ranked faces).Pairwise fun a b => s.ranks a.1 b.1 :=
  List.pairwise_mergeSort s.ranks_trans s.ranks_total _

/-- Equal faces keep the order in which they were thrown. -/
theorem filter_ranked (value : Int) :
    (s.ranked faces).filter (·.1 = value) = faces.zipIdx.filter (·.1 = value) := by
  have hequal : (faces.zipIdx.filter (·.1 = value)).Pairwise fun a b => s.ranks a.1 b.1 := by
    refine List.pairwise_of_forall_mem_list fun a ha b hb => (s.ranks_iff a.1 b.1).2 (.inr ?_)
    simp only [List.mem_filter, decide_eq_true_eq] at ha hb
    rw [ha.2, hb.2]
  have hsub : (faces.zipIdx.filter (·.1 = value)).Sublist (s.ranked faces) :=
    List.sublist_mergeSort s.ranks_trans s.ranks_total hequal List.filter_sublist
  have hfilter := hsub.filter (·.1 = value)
  rw [List.filter_filter] at hfilter
  simp only [Bool.and_self] at hfilter
  exact (hfilter.eq_of_length ((s.ranked_perm faces).filter _).length_eq.symm).symm

theorem pairwise_snd_zipIdx : faces.zipIdx.Pairwise fun a b => a.2 < b.2 := by
  rw [← List.pairwise_map, List.zipIdx_map_snd]
  exact List.pairwise_lt_range' 1

/-- Each face beats those that are ranked behind it. -/
theorem pairwise_beats_ranked : (s.ranked faces).Pairwise s.Beats := by
  rw [List.pairwise_iff_forall_sublist]
  intro a b hab
  have hranks := List.pairwise_iff_forall_sublist.1 (s.pairwise_ranks_ranked faces) hab
  rcases (s.ranks_iff a.1 b.1).1 hranks with hprefers | hequal
  · exact .inl hprefers
  · -- two equal faces stand in the order of their places before sorting and therefore behind it
    have hfilter := hab.filter (·.1 = a.1)
    rw [filter_ranked] at hfilter
    have hpair : [a, b].Sublist faces.zipIdx := by
      refine List.Sublist.trans ?_ (hfilter.trans List.filter_sublist)
      simp [hequal]
    exact .inr ⟨hequal, List.pairwise_iff_forall_sublist.1 (pairwise_snd_zipIdx faces) hpair⟩

end Selector

/-! ## Places in an order -/

/-- In an order in which each element comes before all that follow it, an element is among the first `n` if
fewer than `n` come before it. -/
theorem mem_take_iff_countP_lt {α : Type} {R : α → α → Prop} [DecidableRel R]
    (hasymm : ∀ a b, R a b → ¬R b a) {l : List α} (h : l.Pairwise R) {x : α} (hx : x ∈ l) (n : Nat) :
    x ∈ l.take n ↔ l.countP (R · x) < n := by
  induction l generalizing n with
  | nil => cases hx
  | cons a l ih =>
    obtain ⟨ha, hl⟩ := List.pairwise_cons.1 h
    cases n with
    | zero => simp
    | succ n =>
      rw [List.take_succ_cons, List.mem_cons, List.countP_cons]
      rcases List.mem_cons.1 hx with rfl | hmem
      · have hnone : l.countP (R · x) = 0 := by
          rw [List.countP_eq_zero]
          intro b hb
          simpa using hasymm x b (ha b hb)
        have hself : ¬R x x := fun hxx => hasymm x x hxx hxx
        simp [hnone, hself]
      · have hne : x ≠ a := by
          rintro rfl
          exact hasymm x x (ha x hmem) (ha x hmem)
        simp [hne, ha x hmem, ih hl hmem]

section

variable {α : Type} [BEq α] [LawfulBEq α] {l : List α}

theorem filter_mem_take (h : l.Nodup) (n : Nat) : l.filter (· ∈ l.take n) = l.take n := by
  have hdisjoint := List.disjoint_take_drop h (Nat.le_refl n)
  have hfirst : (l.take n).filter (· ∈ l.take n) = l.take n := by simp
  have hrest : (l.drop n).filter (· ∈ l.take n) = [] := by
    simpa using fun a ha ha' => hdisjoint ha' ha
  calc l.filter (· ∈ l.take n)
      = (l.take n ++ l.drop n).filter (· ∈ l.take n) := by rw [List.take_append_drop]
    _ = l.take n := by rw [List.filter_append, hfirst, hrest, List.append_nil]

theorem filter_notMem_take (h : l.Nodup) (n : Nat) : l.filter (· ∉ l.take n) = l.drop n := by
  have hdisjoint := List.disjoint_take_drop h (Nat.le_refl n)
  have hfirst : (l.take n).filter (· ∉ l.take n) = [] := by simp
  have hrest : (l.drop n).filter (· ∉ l.take n) = l.drop n := by
    simpa using fun a ha ha' => hdisjoint ha' ha
  calc l.filter (· ∉ l.take n)
      = (l.take n ++ l.drop n).filter (· ∉ l.take n) := by rw [List.take_append_drop]
    _ = l.drop n := by rw [List.filter_append, hfirst, hrest, List.nil_append]

end

/-! ## The faces that are picked -/

theorem zipIdx_eq_map_placed (faces : List Int) :
    faces.zipIdx = (List.finRange faces.length).map (Selector.placed faces) := by
  apply List.ext_getElem
  · simp
  · intro i hi hi'
    simp [Selector.placed]

namespace Selector

variable (s : Selector) (faces : List Int)

theorem mem_ranked_iff (a : Int × Nat) : a ∈ s.ranked faces ↔ ∃ i, placed faces i = a := by
  rw [(s.ranked_perm faces).mem_iff, zipIdx_eq_map_placed, List.mem_map]
  simp

theorem nodup_ranked : (s.ranked faces).Nodup := by
  refine (s.pairwise_beats_ranked faces).imp ?_
  rintro a _ hbeats rfl
  exact hbeats.asymm hbeats

open scoped Finset in
/-- Among the ranked faces as many satisfy a condition as among the faces. -/
theorem countP_ranked (p : Int × Nat → Bool) :
    (s.ranked faces).countP p = #{j | p (placed faces j)} := by
  rw [(s.ranked_perm faces).countP_eq, zipIdx_eq_map_placed, List.countP_map]
  simp [Fin.univ_def, Finset.card, Finset.filter, List.countP_eq_length_filter, Function.comp_def]

/-- The selected faces are the first ones in the order. -/
theorem selected_iff (i : Fin faces.length) :
    s.Selected faces i ↔ placed faces i ∈ (s.ranked faces).take s.count := by
  have htake := mem_take_iff_countP_lt (fun _ _ h => h.asymm) (s.pairwise_beats_ranked faces)
    ((s.mem_ranked_iff faces _).2 ⟨i, rfl⟩) s.count
  rw [htake, countP_ranked]
  simp [Selected]

theorem mem_picked_iff (i : Fin faces.length) : (i : Nat) ∈ s.picked faces ↔ s.Selected faces i := by
  rw [selected_iff, picked, ranking, ← List.map_take, List.mem_map]
  constructor
  · intro ⟨a, ha, hplace⟩
    obtain ⟨j, rfl⟩ := (s.mem_ranked_iff faces a).1 (List.mem_of_mem_take ha)
    rwa [show j = i from Fin.ext hplace] at ha
  · intro h
    exact ⟨_, h, rfl⟩

open scoped Finset in
/-- As many faces are selected as are to be picked, or all of them if they are fewer. -/
theorem card_selected : #{i | s.Selected faces i} = min s.count faces.length := by
  have hcount := s.countP_ranked faces fun a => a ∈ (s.ranked faces).take s.count
  rw [List.countP_eq_length_filter, filter_mem_take (s.nodup_ranked faces), List.length_take,
    (s.ranked_perm faces).length_eq, List.length_zipIdx] at hcount
  simp [hcount, selected_iff]

/-- No face that is not selected is better than one that is. -/
theorem not_prefers_of_selected {i j : Fin faces.length} (hi : s.Selected faces i)
    (hj : ¬s.Selected faces j) : ¬s.Prefers faces[j] faces[i] := by
  rw [selected_iff] at hi hj
  have hdrop : placed faces j ∈ (s.ranked faces).drop s.count := by
    have hmem := (s.mem_ranked_iff faces _).2 ⟨j, rfl⟩
    rw [← List.take_append_drop s.count (s.ranked faces), List.mem_append] at hmem
    exact hmem.resolve_left hj
  have hbeats := (s.pairwise_beats_ranked faces).rel_of_mem_take_of_mem_drop hi hdrop
  exact fun hprefers => hbeats.asymm (.inl hprefers)

end Selector

/-! ## The faces that are dropped -/

/-- Marking places changes what is marked at these places alone. -/
theorem getElem?_foldl_setIfInBounds {α : Type} (places : List Nat) (mask : Array α) (mark : α) (i : Nat) :
    (places.foldl (fun mask i => mask.setIfInBounds i mark) mask)[i]? =
      if i ∈ places ∧ i < mask.size then some mark else mask[i]? := by
  induction places generalizing mask with
  | nil => simp
  | cons place places ih =>
    rw [List.foldl_cons, ih]
    grind

namespace Modifier

theorem dropped_eq_ofFn (m : Modifier) (faces : List Int) :
    m.dropped faces = List.ofFn fun i : Fin faces.length =>
      if m.selector.Selected faces i then !m.keeps else m.keeps := by
  apply List.ext_getElem?
  intro i
  rw [dropped, Array.getElem?_toList, getElem?_foldl_setIfInBounds, Array.size_replicate,
    List.getElem?_ofFn]
  by_cases hi : i < faces.length
  · have hpicked := m.selector.mem_picked_iff faces ⟨i, hi⟩
    by_cases hselected : m.selector.Selected faces ⟨i, hi⟩
    · simp [hi, hselected, hpicked.2 hselected]
    · have hunpicked : i ∉ m.selector.picked faces := fun h => hselected (hpicked.1 h)
      simp [hi, hselected, hunpicked]
  · simp [hi]

theorem length_dropped (m : Modifier) (faces : List Int) : (m.dropped faces).length = faces.length := by
  rw [dropped_eq_ofFn, List.length_ofFn]

end Modifier

open scoped Finset in
/-- Keeping drops exactly the faces that are not selected, and dropping exactly those that are.  As many faces
are selected as are to be picked, or all of them if they are fewer, and no other face is better than one of
them. -/
theorem Modifier.dropped_selected (s : Selector) (faces : List Int) :
    (keep s).dropped faces = List.ofFn (fun i => !decide (s.Selected faces i)) ∧
    (drop s).dropped faces = List.ofFn (fun i => decide (s.Selected faces i)) ∧
    #{i | s.Selected faces i} = min s.count faces.length ∧
    ∀ i j, s.Selected faces i → ¬s.Selected faces j → ¬s.Prefers faces[j] faces[i] := by
  refine ⟨?_, ?_, s.card_selected faces, fun i j => s.not_prefers_of_selected faces⟩
  · simp [dropped_eq_ofFn, selector, keeps]
  · simp [dropped_eq_ofFn, selector, keeps]

end Tabletop
