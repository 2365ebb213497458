import Mathlib.Data.List.TakeWhile
import Tabletop.Script.Template

/-!
# How a template body splits

`Piece.Splits` says what it is for a body to consist of texts and scripts: a text is as long as it can
be, and a script ends at the first closing brace that no string literal contains, and is not blank.
Cutting a body gives the one way in which it splits, and a fault where there is none.
-/

namespace Tabletop

open Text

/-! ## Where a script ends -/

/-- The place behind some characters. -/
def Place.behind (place : Place) (cs : List Char) : Place :=
  cs.foldl Place.after place

/-- Behind some characters a closing brace ends the script, and before there is none that does. -/
def Place.Ends (place : Place) (inner : List Char) : Prop :=
  place.behind inner = .code ∧
    ∀ before after, inner = before ++ closingBrace :: after → place.behind before ≠ .code

theorem Place.ends_nil {place : Place} : place.Ends [] ↔ place = .code := by
  refine ⟨fun h => h.1, fun h => ⟨h, ?_⟩⟩
  intro before after hsplit
  cases before <;> cases hsplit

theorem Place.ends_cons {place : Place} {c : Char} {inner : List Char} :
    place.Ends (c :: inner) ↔ ¬(place = .code ∧ c = closingBrace) ∧ (place.after c).Ends inner := by
  constructor
  · rintro ⟨hbehind, hfirst⟩
    refine ⟨?_, hbehind, ?_⟩
    · rintro ⟨hplace, rfl⟩
      exact hfirst [] inner rfl hplace
    · intro before after hsplit
      exact hfirst (c :: before) after (congrArg (c :: ·) hsplit)
  · rintro ⟨hhere, hbehind, hfirst⟩
    refine ⟨hbehind, ?_⟩
    intro before after hsplit
    cases before with
    | nil =>
      intro hplace
      exact hhere ⟨hplace, (List.cons.inj hsplit).1⟩
    | cons b before =>
      obtain ⟨rfl, htail⟩ := List.cons.inj hsplit
      exact hfirst before after htail

/-- A script is cut off at the first brace that ends it. -/
theorem Place.cut?_eq_some_iff {place : Place} {cs inner rest : List Char} :
    place.cut? cs = some (inner, rest) ↔ cs = inner ++ closingBrace :: rest ∧ place.Ends inner := by
  induction cs generalizing place inner with
  | nil => simp [cut?]
  | cons c cs ih =>
    rw [cut?]
    by_cases hc : place = .code ∧ c = closingBrace
    · rw [if_pos hc]
      constructor
      · intro h
        obtain ⟨rfl, rfl⟩ := Prod.mk.inj (Option.some.inj h)
        exact ⟨by rw [hc.2]; rfl, ends_nil.2 hc.1⟩
      · rintro ⟨hsplit, hends⟩
        cases inner with
        | nil => rw [(List.cons.inj hsplit).2]
        | cons b inner =>
          obtain ⟨rfl, _⟩ := List.cons.inj hsplit
          exact absurd hc (ends_cons.1 hends).1
    · rw [if_neg hc, Option.map_eq_some_iff]
      constructor
      · rintro ⟨⟨inner', rest'⟩, hcut, hpair⟩
        obtain ⟨rfl, rfl⟩ := Prod.mk.inj hpair
        obtain ⟨rfl, hends⟩ := ih.1 hcut
        exact ⟨rfl, ends_cons.2 ⟨hc, hends⟩⟩
      · rintro ⟨hsplit, hends⟩
        cases inner with
        | nil => exact absurd ⟨ends_nil.1 hends, (List.cons.inj hsplit).1⟩ hc
        | cons b inner =>
          obtain ⟨rfl, rfl⟩ := List.cons.inj hsplit
          exact ⟨(inner, rest), ih.2 ⟨rfl, (ends_cons.1 hends).2⟩, rfl⟩

/-! ## Splitting a body -/

namespace Piece

/-- A template body, of which the first character is at the byte `start`, consists of the pieces. -/
inductive Splits : Nat → List Char → List Piece → Prop
  | nil {start : Nat} : Splits start [] []
  | text {start : Nat} {cs body : List Char} {pieces : List Piece} (hne : cs ≠ [])
    (hcs : ∀ c ∈ cs, c ≠ openingBrace) (hbody : ∀ c ∈ body.head?, c = openingBrace)
    (h : Splits (start + width cs) body pieces) : Splits start (cs ++ body) (.text cs :: pieces)
  | code {start : Nat} {inner body : List Char} {pieces : List Piece}
    (hinner : Place.code.Ends inner) (hblank : ∃ c ∈ inner, ¬isBlank c)
    (h : Splits (start + width (openingBrace :: inner ++ [closingBrace])) body pieces) :
    Splits start (openingBrace :: inner ++ closingBrace :: body)
      (.code (start + openingBrace.utf8Size) inner :: pieces)

theorem ofBody_of_noBrace {start : Nat} {body : List Char} (hbody : ∀ c ∈ body, c ≠ openingBrace) :
    ofBody start body = ofText body := by
  have hdrop : body.dropWhile (· != openingBrace) = [] :=
    List.dropWhile_eq_nil_iff.2 fun c hc => bne_iff_ne.2 (hbody c hc)
  rw [ofBody]
  split
  · rfl
  · rename_i hopen
    rw [hdrop] at hopen
    cases hopen

/-- The text before the first brace is a piece of its own, and the brace begins a script. -/
theorem ofBody_append_brace {start : Nat} {cs : List Char} (rest : List Char)
    (hcs : ∀ c ∈ cs, c ≠ openingBrace) :
    ofBody start (cs ++ openingBrace :: rest) =
      ofText cs ++
        match Place.code.cut? rest with
        | none => [unclosed (start + width cs) (openingBrace :: rest)]
        | some (inner, rest) =>
          ofInner (start + width cs) inner ::
            ofBody (start + width cs + width (openingBrace :: inner ++ [closingBrace])) rest := by
  have htext : ∀ c ∈ cs, (c != openingBrace) = true := fun c hc => bne_iff_ne.2 (hcs c hc)
  have hdrop' : (openingBrace :: rest).dropWhile (· != openingBrace) = openingBrace :: rest := rfl
  have htake' : (openingBrace :: rest).takeWhile (· != openingBrace) = [] := rfl
  have hdrop : (cs ++ openingBrace :: rest).dropWhile (· != openingBrace) = openingBrace :: rest := by
    rw [List.dropWhile_append_of_pos htext, hdrop']
  have htake : (cs ++ openingBrace :: rest).takeWhile (· != openingBrace) = cs := by
    rw [List.takeWhile_append_of_pos htext, htake', List.append_nil]
  rw [ofBody]
  split
  · rename_i hopen
    rw [hdrop] at hopen
    cases hopen
  · rename_i brace tail hopen
    rw [hdrop] at hopen
    obtain ⟨rfl, rfl⟩ := List.cons.inj hopen
    rw [htake]
    split <;> rename_i hcut <;> rw [hcut]

/-- A body has no brace, or it goes on behind its first brace: with a script that is never closed, or
with one that is closed and a shorter body behind it. -/
theorem bodyInduction {motive : List Char → Prop}
    (text : ∀ cs, (∀ c ∈ cs, c ≠ openingBrace) → motive cs)
    (unclosed : ∀ cs rest, (∀ c ∈ cs, c ≠ openingBrace) → Place.code.cut? rest = none →
      motive (cs ++ openingBrace :: rest))
    (code : ∀ cs inner rest, (∀ c ∈ cs, c ≠ openingBrace) →
      Place.code.cut? (inner ++ closingBrace :: rest) = some (inner, rest) → motive rest →
      motive (cs ++ openingBrace :: (inner ++ closingBrace :: rest)))
    (body : List Char) : motive body := by
  induction hlength : body.length using Nat.strongRecOn generalizing body with
  | ind n ih =>
    by_cases hbrace : openingBrace ∈ body
    · obtain ⟨cs, rest, rfl, hcs⟩ := List.eq_append_cons_of_mem hbrace
      have hcs' : ∀ c ∈ cs, c ≠ openingBrace := fun c hc heq => hcs (heq ▸ hc)
      cases hcut : Place.code.cut? rest with
      | none => exact unclosed cs rest hcs' hcut
      | some pair =>
        obtain ⟨inner, rest'⟩ := pair
        obtain rfl := Place.eq_append_of_cut? hcut
        simp only [List.length_append, List.length_cons] at hlength
        exact code cs inner rest' hcs' hcut (ih rest'.length (by omega) rest' rfl)
    · exact text body fun c hc heq => hbrace (heq ▸ hc)

theorem ofBody_nil (start : Nat) : ofBody start [] = [] :=
  ofBody_of_noBrace fun _ hc => absurd hc List.not_mem_nil

theorem ofBody_brace (start : Nat) (rest : List Char) :
    ofBody start (openingBrace :: rest) =
      match Place.code.cut? rest with
      | none => [unclosed start (openingBrace :: rest)]
      | some (inner, rest) =>
        ofInner start inner ::
          ofBody (start + width (openingBrace :: inner ++ [closingBrace])) rest :=
  ofBody_append_brace rest fun _ hc => absurd hc List.not_mem_nil

theorem ofInner_of_not_blank {start : Nat} {inner : List Char} (h : ∃ c ∈ inner, ¬isBlank c) :
    ofInner start inner = .code (start + openingBrace.utf8Size) inner := by
  rw [ofInner, if_neg]
  intro hall
  obtain ⟨c, hc, hblank⟩ := h
  exact hblank (List.all_eq_true.1 hall c hc)

/-- Where a body splits, cutting gives the pieces. -/
theorem Splits.ofBody_eq {start : Nat} {body : List Char} {pieces : List Piece}
    (h : Splits start body pieces) : ofBody start body = pieces := by
  induction h with
  | @nil start => exact ofBody_nil start
  | @text start cs body pieces hne hcs hbody _ ih =>
    have htext : ofText cs = [.text cs] := if_neg (by rwa [List.isEmpty_iff])
    cases body with
    | nil =>
      rw [← ih, List.append_nil, ofBody_of_noBrace hcs, ofBody_nil, htext]
    | cons brace body =>
      obtain rfl : brace = openingBrace := hbody brace rfl
      rw [ofBody_append_brace body hcs, ← ofBody_brace, ih, htext]
      rfl
  | @code start inner body pieces hinner hblank _ ih =>
    have hcut : Place.code.cut? (inner ++ closingBrace :: body) = some (inner, body) :=
      Place.cut?_eq_some_iff.2 ⟨rfl, hinner⟩
    rw [List.cons_append, ofBody_brace, hcut]
    show ofInner start inner :: ofBody _ body = _
    rw [ofInner_of_not_blank hblank, ih]

/-- Text in front of a place where a body splits, and where it ends or goes on with a brace. -/
theorem Splits.ofText_append {start : Nat} {cs body : List Char} {pieces : List Piece}
    (hcs : ∀ c ∈ cs, c ≠ openingBrace) (hbody : ∀ c ∈ body.head?, c = openingBrace)
    (h : Splits (start + width cs) body pieces) :
    Splits start (cs ++ body) (ofText cs ++ pieces) := by
  cases cs with
  | nil => exact h
  | cons c cs => exact .text (List.cons_ne_nil c cs) hcs hbody h

/-- Where cutting meets no fault, the pieces are how the body splits. -/
theorem splits_ofBody {start : Nat} {body : List Char}
    (h : ∀ why, .fault why ∉ ofBody start body) : Splits start body (ofBody start body) := by
  fun_induction ofBody start body with
  | case1 start body hopen =>
    have hbody : ∀ c ∈ body, c ≠ openingBrace := fun c hc =>
      bne_iff_ne.1 (List.dropWhile_eq_nil_iff.1 hopen c hc)
    have hsplits : Splits start (body ++ []) (ofText body ++ []) :=
      .ofText_append hbody (by intro c hc; cases hc) .nil
    rwa [List.append_nil, List.append_nil] at hsplits
  | case2 start body brace cs hopen before here hcut =>
    exact absurd (List.mem_append_right _ List.mem_cons_self) (h _)
  | case3 start body brace cs hopen before here inner rest hcut ih =>
    have hbefore : ∀ c ∈ before, c ≠ openingBrace := fun c hc =>
      bne_iff_ne.1 (List.mem_takeWhile_imp (p := (· != openingBrace)) hc)
    obtain rfl : brace = openingBrace := by
      have hhead := List.head?_dropWhile_not (· != openingBrace) body
      rw [hopen] at hhead
      simpa using hhead
    obtain ⟨rfl, hends⟩ := Place.cut?_eq_some_iff.1 hcut
    have hbody : before ++ (openingBrace :: inner ++ closingBrace :: rest) = body := by
      rw [List.cons_append, ← hopen]
      exact List.takeWhile_append_dropWhile
    have hblank : ∃ c ∈ inner, ¬isBlank c := by
      by_contra hall
      have hfault : ∃ why, ofInner here inner = .fault why := by
        rw [ofInner, if_pos]
        · exact ⟨_, rfl⟩
        · refine List.all_eq_true.2 fun c hc => ?_
          by_contra hc'
          exact hall ⟨c, hc, hc'⟩
      obtain ⟨why, hwhy⟩ := hfault
      rw [hwhy] at h
      exact h why (List.mem_append_right _ List.mem_cons_self)
    have hrest := ih fun why hwhy =>
      h why (List.mem_append_right _ (List.mem_cons_of_mem _ hwhy))
    have hafter : ∀ c ∈ (openingBrace :: inner ++ closingBrace :: rest).head?, c = openingBrace :=
      fun _ hc => (Option.some.inj hc).symm
    have hsplits := Splits.ofText_append hbefore hafter (Splits.code hends hblank hrest)
    rw [hbody] at hsplits
    rw [ofInner_of_not_blank hblank]
    exact hsplits

end Piece
end Tabletop
