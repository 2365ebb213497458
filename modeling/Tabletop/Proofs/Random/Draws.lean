import Mathlib.Data.List.Basic
import Tabletop.Random.Uniform

/-!
# Which words a draw uses up

A draw passes over the words that it does not accept and stops at the first one that it does,
`Draw.exists_search`.  So dice that are thrown together show the faces of the accepted words in their order, and
the last of these words is the last one that is used up (`Draw.exists_throwMany`).

Nothing is assumed of a stream of words but that it goes on.  A draw from a stream in which no word is ever
accepted does not end, and nothing is said about it.
-/

namespace Tabletop

variable {σ : Type}

/-! ## Streams -/

namespace WordSource

/-- The first words of a stream, as many as are asked for. -/
def words (next : σ → Nat × σ) : Nat → σ → List Nat
  | 0, _ => []
  | n + 1, s => (next s).1 :: words next n (next s).2

/-- What is left of a stream without its first words. -/
def behind (next : σ → Nat × σ) : Nat → σ → σ
  | 0, s => s
  | n + 1, s => behind next n (next s).2

variable (next : σ → Nat × σ)

theorem words_add (m n : Nat) (s : σ) :
    words next (m + n) s = words next m s ++ words next n (behind next m s) := by
  induction m generalizing s with
  | zero => rw [Nat.zero_add, words, behind, List.nil_append]
  | succ m ih => rw [Nat.succ_add, words, ih, words, behind, List.cons_append]

theorem behind_add (m n : Nat) (s : σ) :
    behind next (m + n) s = behind next n (behind next m s) := by
  induction m generalizing s with
  | zero => rw [Nat.zero_add, behind]
  | succ m ih => rw [Nat.succ_add, behind, ih, behind]

/-- The words of a source are 32-bit words. -/
theorem words_nextNat_lt [WordSource σ] (n : Nat) (s : σ) :
    ∀ v ∈ words nextNat n s, v < 0x100000000 := by
  induction n generalizing s with
  | zero => nofun
  | succ n ih => exact List.forall_mem_cons.2 ⟨(WordSource.next s).1.toNat_lt, ih _⟩

end WordSource

open WordSource

namespace Draw

variable (d : Draw) {next : σ → Nat × σ} {s : σ}

/-- The face of the die that an accepted word stands for. -/
def face (v : Nat) : UInt32 :=
  faceOf (d.result v)

/-- Of the first `m` words of a stream `count` are accepted, and the last of them is, if there are any. -/
structure UsesUp (next : σ → Nat × σ) (s : σ) (count m : Nat) : Prop where
  length_filter : ((words next m s).filter d.accepts).length = count
  last : ∀ v ∈ (words next m s).getLast?, d.accepts v

theorem usesUp_zero (next : σ → Nat × σ) (s : σ) : d.UsesUp next s 0 0 :=
  ⟨rfl, by nofun⟩

variable {d}

theorem UsesUp.add {count count' m m' : Nat} (h : d.UsesUp next s count m)
    (h' : d.UsesUp next (behind next m s) count' m') :
    d.UsesUp next s (count + count') (m + m') := by
  constructor
  · rw [words_add, List.filter_append, List.length_append, h.length_filter, h'.length_filter]
  · intro v hv
    rw [words_add, List.getLast?_append] at hv
    rcases Option.or_eq_some_iff.1 hv with hlast | ⟨-, hlast⟩
    · exact h'.last v hlast
    · exact h.last v hlast

/-! ## One draw -/

theorem attempt_of_accepts (h : d.accepts (next s).1) :
    d.attempt next s = .inr (d.result (next s).1, (next s).2) :=
  if_pos h

theorem attempt_of_not_accepts (h : ¬d.accepts (next s).1) : d.attempt next s = .inl (next s).2 :=
  if_neg h

/-- If the first word is accepted, it is the only one that is drawn. -/
theorem search_of_accepts (h : d.accepts (next s).1) :
    d.search next s = some (d.result (next s).1, (next s).2) := by
  rw [search, attempt_of_accepts h]

/-- A word that is not accepted is passed over. -/
theorem search_of_not_accepts (h : ¬d.accepts (next s).1) :
    d.search next s = d.search next (next s).2 := by
  have : Nonempty (Nat × σ) := ⟨(0, s)⟩
  rw [search, attempt_of_not_accepts h, search]
  dsimp only
  rw [repeatM_eq_of_monadTail, repeatM.body]
  cases d.attempt next (next s).2 <;> rfl

/-- A draw takes the first word that is accepted, and none behind it.  The induction is on the words among which
there is one. -/
theorem exists_search {n : Nat} (h : 0 < (words next n s).countP d.accepts) :
    ∃ m ≤ n, d.UsesUp next s 1 m ∧ ∃ v, (words next m s).filter d.accepts = [v] ∧
      d.search next s = some (d.result v, behind next m s) := by
  induction n generalizing s with
  | zero => exact absurd h (Nat.lt_irrefl 0)
  | succ n ih =>
    by_cases hfirst : d.accepts (next s).1
    · have hfilter : (words next 1 s).filter d.accepts = [(next s).1] :=
        List.filter_cons_of_pos hfirst
      refine ⟨1, Nat.succ_pos n, ⟨congrArg List.length hfilter, fun v hv => ?_⟩, (next s).1, hfilter,
        search_of_accepts hfirst⟩
      exact Option.some.inj hv ▸ hfirst
    · rw [words, List.countP_cons_of_neg hfirst] at h
      obtain ⟨m, hm, huses, v, hfilter, hsearch⟩ := ih h
      refine ⟨m + 1, Nat.succ_le_succ hm, ⟨?_, ?_⟩, v, ?_, ?_⟩
      · rw [words, List.filter_cons_of_neg hfirst, huses.length_filter]
      · intro u hu
        cases hrest : words next m (next s).2 with
        | nil =>
          rw [hrest] at hfilter
          cases hfilter
        | cons w ws =>
          rw [words, hrest, List.getLast?_cons_cons, ← hrest] at hu
          exact huses.last u hu
      · rw [words, List.filter_cons_of_neg hfirst, hfilter]
      · rw [search_of_not_accepts hfirst, hsearch, behind]

end Draw

/-! ## Dice -/

section

variable [WordSource σ] (sides : Quantity)

/-- The draw for dice that are thrown together. -/
def Quantity.manyDraw : Draw :=
  .widest 0x100000000 sides.val

/-- The draw for a single die. -/
def Quantity.oneDraw : Draw :=
  .shifted 32 sides.val

theorem throwMany_succ {s later : σ} {result : Nat} (count : Nat)
    (h : sides.manyDraw.search nextNat s = some (result, later)) :
    throwMany (count + 1) sides s =
      (faceOf result :: (throwMany count sides later).1, (throwMany count sides later).2) := by
  rw [throwMany, Draw.first?, show Draw.search (.widest 0x100000000 sides.val) nextNat s = _ from h]

/-- Dice that are thrown together show the faces of the first accepted words, in the order of these words, and no
word behind the last of them is used up.  The induction is on the dice. -/
theorem exists_throwMany (count : Nat) {n : Nat} (s : σ)
    (h : count ≤ (words nextNat n s).countP sides.manyDraw.accepts) :
    ∃ m ≤ n, sides.manyDraw.UsesUp nextNat s count m ∧
      throwMany count sides s =
        (((words nextNat m s).filter sides.manyDraw.accepts).map sides.manyDraw.face,
          behind nextNat m s) := by
  induction count generalizing n s with
  | zero => exact ⟨0, Nat.zero_le n, Draw.usesUp_zero _ nextNat s, rfl⟩
  | succ count ih =>
    obtain ⟨m, hm, huses, v, hfilter, hsearch⟩ := Draw.exists_search (Nat.zero_lt_of_lt h)
    obtain ⟨l, rfl⟩ := Nat.exists_eq_add_of_le hm
    have hrest : count ≤ (words nextNat l (behind nextNat m s)).countP sides.manyDraw.accepts := by
      have hfirst := huses.length_filter
      rw [words_add, List.countP_append, List.countP_eq_length_filter, hfirst] at h
      omega
    obtain ⟨k, hk, husesRest, hthrow⟩ := ih (behind nextNat m s) hrest
    refine ⟨m + k, by omega, Nat.add_comm 1 count ▸ huses.add husesRest, ?_⟩
    rw [throwMany_succ sides count hsearch, hthrow, words_add, List.filter_append, hfilter, behind_add]
    rfl

/-- A single die shows the face of the first accepted word. -/
theorem exists_throwOne {n : Nat} (s : σ) (h : 0 < (words nextNat n s).countP sides.oneDraw.accepts) :
    ∃ m ≤ n, sides.oneDraw.UsesUp nextNat s 1 m ∧
      throwOne sides s =
        (((words nextNat m s).find? sides.oneDraw.accepts).map sides.oneDraw.face,
          behind nextNat m s) := by
  obtain ⟨m, hm, huses, v, hfilter, hsearch⟩ := Draw.exists_search h
  refine ⟨m, hm, huses, ?_⟩
  rw [throwOne, Draw.first?, show Draw.search (.shifted 32 sides.val) nextNat s = _ from hsearch,
    ← List.head?_filter, hfilter]
  rfl

end

end Tabletop
