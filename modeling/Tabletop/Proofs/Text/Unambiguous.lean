import Mathlib.Data.List.Basic
import Tabletop.Proofs.Text.Decimal
import Tabletop.Text.Quoted

/-!
# Texts that can be read off

Something that is written in front of other text is not lost if it tells what it is and where it stops.
`ReadsOff` says this of a way of writing without saying how to read: what is written of two things, each with
some text behind it, is the same only if the things are the same and so are the texts behind them.  What may
stand behind is limited, since a number is not told from another one by digits that follow it.

Numbers, quoted texts and lists are written in such ways.
-/

namespace Tabletop.Text

/-- Of valid things, with texts behind them that satisfy `follow`, what is written can be read off. -/
def ReadsOff {α : Type} (write : α → List Char) (valid : α → Prop) (follow : List Char → Prop) : Prop :=
  ∀ ⦃a b rest rest'⦄, valid a → valid b → follow rest → follow rest' →
    write a ++ rest = write b ++ rest' → a = b ∧ rest = rest'

/-- The text is empty or begins with a character that satisfies `p`. -/
def LeadsWith (p : Char → Prop) (cs : List Char) : Prop :=
  ∀ c ∈ cs.head?, p c

theorem leadsWith_cons {p : Char → Prop} {c : Char} {cs : List Char} : LeadsWith p (c :: cs) ↔ p c :=
  ⟨fun h => h c rfl, fun h _ hd => Option.some.inj hd ▸ h⟩

theorem LeadsWith.mono {p q : Char → Prop} {cs : List Char} (h : LeadsWith p cs) (hpq : ∀ c, p c → q c) :
    LeadsWith q cs :=
  fun c hc => hpq c (h c hc)

/-! ## Runs of characters -/

/-- A run of characters stops in front of a character that cannot belong to it. -/
theorem readsOff_run (p : Char → Prop) :
    ReadsOff (fun us => us) (fun us => ∀ c ∈ us, p c) (LeadsWith fun c => ¬p c) := by
  intro us vs rest rest' hus hvs hrest hrest' h
  induction us generalizing vs with
  | nil =>
    cases vs with
    | nil => exact ⟨rfl, h⟩
    | cons v vs =>
      change rest = v :: (vs ++ rest') at h
      rw [h, leadsWith_cons] at hrest
      exact absurd (hvs v List.mem_cons_self) hrest
  | cons u us ih =>
    cases vs with
    | nil =>
      change u :: (us ++ rest) = rest' at h
      rw [← h, leadsWith_cons] at hrest'
      exact absurd (hus u List.mem_cons_self) hrest'
    | cons v vs =>
      change u :: (us ++ rest) = v :: (vs ++ rest') at h
      obtain ⟨rfl, htail⟩ := List.cons.inj h
      obtain ⟨rfl, hrest⟩ :=
        ih (List.forall_mem_cons.1 hus).2 (List.forall_mem_cons.1 hvs).2 htail
      exact ⟨rfl, hrest⟩

/-! ## Numbers -/

/-- The decimal digits of a natural number stop in front of a character that is no digit. -/
theorem readsOff_digits :
    ReadsOff (Nat.toDigits 10) (fun _ => True) (LeadsWith fun c => ¬c.isDigit) := by
  intro m n rest rest' _ _ hrest hrest' h
  obtain ⟨hdigits, hrest⟩ := readsOff_run (fun c => c.isDigit) isDigit_of_mem_digits
    isDigit_of_mem_digits hrest hrest' h
  have hvalue := congrArg Decimal.value hdigits
  rw [Decimal.value_toDigits, Decimal.value_toDigits] at hvalue
  exact ⟨hvalue, hrest⟩

/-- A whole number stops where its digits do. -/
theorem readsOff_ofInt : ReadsOff ofInt (fun _ => True) (LeadsWith fun c => ¬c.isDigit) := by
  intro i j rest rest' _ _ hrest hrest' h
  have hminus : ¬('-' : Char).isDigit := by decide
  have hmixed : ∀ {i j : Int} {rest rest' : List Char}, i < 0 → 0 ≤ j →
      ofInt i ++ rest ≠ ofInt j ++ rest' := by
    intro i j rest rest' hi hj h
    obtain ⟨c, cs, hdigits, hc⟩ := exists_cons_toDigits j.natAbs
    rw [ofInt_of_neg hi, ofInt_of_nonneg hj, hdigits] at h
    rw [← (List.cons.inj h).1] at hc
    exact hminus hc
  rcases Int.lt_or_le i 0 with hi | hi <;> rcases Int.lt_or_le j 0 with hj | hj
  · rw [ofInt_of_neg hi, ofInt_of_neg hj] at h
    obtain ⟨habs, hrest⟩ := readsOff_digits trivial trivial hrest hrest' (List.cons.inj h).2
    exact ⟨by omega, hrest⟩
  · exact absurd h (hmixed hi hj)
  · exact absurd h.symm (hmixed hj hi)
  · rw [ofInt_of_nonneg hi, ofInt_of_nonneg hj] at h
    obtain ⟨habs, hrest⟩ := readsOff_digits trivial trivial hrest hrest' h
    exact ⟨by omega, hrest⟩

/-! ## Quoted texts -/

/-- Hexadecimal digits stand for one number only, and none of them is a closing brace. -/
theorem hexDigit_inj : ∀ m < 16, ∀ n < 16, Nat.digitChar m = Nat.digitChar n → m = n := by
  decide

theorem hexDigit_ne_brace : ∀ n < 16, Nat.digitChar n ≠ '\x7d' := by
  decide

theorem ne_brace_of_mem_toDigits {n : Nat} {c : Char} (h : c ∈ Nat.toDigits 16 n) : c ≠ '\x7d' := by
  induction n using Nat.strongRecOn with
  | ind n ih =>
    by_cases hn : n < 16
    · rw [Nat.toDigits_of_lt_base hn, List.mem_singleton] at h
      rw [h]
      exact hexDigit_ne_brace n hn
    · rw [Nat.toDigits_of_base_le (by decide) (by omega), List.mem_append, List.mem_singleton] at h
      rcases h with h | rfl
      · exact ih (n / 16) (by omega) h
      · exact hexDigit_ne_brace _ (by omega)

theorem toDigits_inj {m n : Nat} (h : Nat.toDigits 16 m = Nat.toDigits 16 n) : m = n := by
  -- with more than one digit there is a number in front of the last one
  have hmixed : ∀ {m n : Nat}, m < 16 → 16 ≤ n → Nat.toDigits 16 m ≠ Nat.toDigits 16 n := by
    intro m n hm hn h
    rw [Nat.toDigits_of_lt_base hm, Nat.toDigits_of_base_le (by decide) hn] at h
    rw [← List.nil_append [_]] at h
    exact Nat.toDigits_ne_nil (List.append_inj' h rfl).1.symm
  induction m using Nat.strongRecOn generalizing n with
  | ind m ih =>
    rcases Nat.lt_or_ge m 16 with hm | hm <;> rcases Nat.lt_or_ge n 16 with hn | hn
    · rw [Nat.toDigits_of_lt_base hm, Nat.toDigits_of_lt_base hn] at h
      exact hexDigit_inj m hm n hn (List.singleton_inj.1 h)
    · exact absurd h (hmixed hm hn)
    · exact absurd h.symm (hmixed hn hm)
    · rw [Nat.toDigits_of_base_le (by decide) hm, Nat.toDigits_of_base_le (by decide) hn] at h
      obtain ⟨hfront, hlast⟩ := List.append_inj' h rfl
      have hquotient := ih (m / 16) (by omega) hfront
      have hremainder := hexDigit_inj _ (by omega) _ (by omega) (List.singleton_inj.1 hlast)
      omega

/-- The characters that have a character of their own behind a backslash. -/
def escapes : List (Char × Char) :=
  [('\x00', '0'), ('\t', 't'), ('\n', 'n'), ('\r', 'r'), ('"', '"'), ('\\', '\\')]

/-- How a character stands between quotes: behind a backslash as a character of its own, or as its code, or, if
it is neither a quote nor a backslash, as it is. -/
inductive Encodes (c : Char) : List Char → Prop
  | escaped {d : Char} (h : (c, d) ∈ escapes) : Encodes c ['\\', d]
  | byCode : Encodes c (encodeByCode c)
  | raw (hquote : c ≠ '"') (hbackslash : c ≠ '\\') : Encodes c [c]

theorem encodes_encodeChar (c : Char) : Encodes c (encodeChar c) := by
  unfold encodeChar
  split
  case h_7 hquote hbackslash =>
    split
    · exact .byCode
    · exact .raw hquote hbackslash
  all_goals exact .escaped (by decide)

theorem escapes_inj : ∀ p ∈ escapes, ∀ q ∈ escapes, p.2 = q.2 → p.1 = q.1 := by
  decide

theorem ne_of_mem_escapes : ∀ p ∈ escapes, p.2 ≠ 'u' := by
  decide

/-- A code ends with the first closing brace. -/
theorem readsOff_encodeByCode : ReadsOff encodeByCode (fun _ => True) (fun _ => True) := by
  intro c d rest rest' _ _ _ _ h
  have hbehind : ∀ {cs : List Char}, LeadsWith (fun c => ¬c ≠ '\x7d') ('\x7d' :: cs) :=
    leadsWith_cons.2 (fun h => h rfl)
  have hdigits : Nat.toDigits 16 c.toNat ++ '\x7d' :: rest =
      Nat.toDigits 16 d.toNat ++ '\x7d' :: rest' := by
    simpa [encodeByCode] using h
  obtain ⟨hdigits, htail⟩ := readsOff_run (· ≠ '\x7d') (fun _ => ne_brace_of_mem_toDigits)
    (fun _ => ne_brace_of_mem_toDigits) hbehind hbehind hdigits
  exact ⟨Char.toNat_inj.1 (toDigits_inj hdigits), (List.cons.inj htail).2⟩

/-- A character between quotes stops whatever is behind it. -/
theorem Encodes.unique {c d : Char} {us vs rest rest' : List Char} (hc : Encodes c us)
    (hd : Encodes d vs) (h : us ++ rest = vs ++ rest') : c = d ∧ rest = rest' := by
  have hmixed : ∀ {c d e : Char} {rest rest' : List Char}, (c, e) ∈ escapes →
      '\\' :: e :: rest ≠ encodeByCode d ++ rest' := by
    intro c d e rest rest' he h
    exact ne_of_mem_escapes _ he (List.cons.inj (List.cons.inj h).2).1
  cases hc with
  | escaped hc =>
    cases hd with
    | escaped hd =>
      obtain ⟨hchar, htail⟩ := List.cons.inj (List.cons.inj h).2
      exact ⟨escapes_inj _ hc _ hd hchar, htail⟩
    | byCode => exact absurd h (hmixed hc)
    | raw _ hbackslash => exact absurd (List.cons.inj h).1.symm hbackslash
  | byCode =>
    cases hd with
    | escaped hd => exact absurd h.symm (hmixed hd)
    | byCode => exact readsOff_encodeByCode trivial trivial trivial trivial h
    | raw _ hbackslash => exact absurd (List.cons.inj h).1.symm hbackslash
  | raw _ hbackslash =>
    cases hd with
    | escaped _ => exact absurd (List.cons.inj h).1 hbackslash
    | byCode => exact absurd (List.cons.inj h).1 hbackslash
    | raw _ _ => exact List.cons.inj h

/-- No character between quotes begins with a quote. -/
theorem Encodes.exists_cons {c : Char} {us : List Char} (h : Encodes c us) :
    ∃ d ds, us = d :: ds ∧ d ≠ '"' := by
  cases h with
  | escaped _ => exact ⟨_, _, rfl, by decide⟩
  | byCode => exact ⟨_, _, rfl, by decide⟩
  | raw hquote _ => exact ⟨_, _, rfl, hquote⟩

/-- The characters between quotes stop at the first quote that is none of them.  The induction is on both
texts. -/
theorem readsOff_encoded {us vs rest rest' : List Char}
    (h : us.flatMap encodeChar ++ '"' :: rest = vs.flatMap encodeChar ++ '"' :: rest') :
    us = vs ∧ rest = rest' := by
  have hmixed : ∀ {c : Char} {cs rest rest' : List Char},
      '"' :: rest ≠ (c :: cs).flatMap encodeChar ++ '"' :: rest' := by
    intro c cs rest rest' h
    obtain ⟨d, ds, hencoded, hd⟩ := (encodes_encodeChar c).exists_cons
    rw [List.flatMap_cons, hencoded] at h
    exact hd (List.cons.inj h).1.symm
  induction us generalizing vs with
  | nil =>
    cases vs with
    | nil => exact ⟨rfl, (List.cons.inj h).2⟩
    | cons v vs => exact absurd h hmixed
  | cons u us ih =>
    cases vs with
    | nil => exact absurd h.symm hmixed
    | cons v vs =>
      rw [List.flatMap_cons, List.flatMap_cons, List.append_assoc, List.append_assoc] at h
      obtain ⟨rfl, htail⟩ := (encodes_encodeChar u).unique (encodes_encodeChar v) h
      obtain ⟨rfl, hrest⟩ := ih htail
      exact ⟨rfl, hrest⟩

theorem toList_quote (s : String) : (quote s).toList = '"' :: s.toList.flatMap encodeChar ++ ['"'] :=
  String.toList_ofList

/-- A quoted text stops at its closing quote, whatever characters it has and whatever is behind it. -/
theorem readsOff_quote : ReadsOff (fun s => (quote s).toList) (fun _ => True) (fun _ => True) := by
  intro s t rest rest' _ _ _ _ h
  simp only [toList_quote, List.append_assoc] at h
  obtain ⟨hchars, hrest⟩ := readsOff_encoded (List.cons.inj h).2
  exact ⟨String.toList_inj.1 hchars, hrest⟩

/-! ## Lists -/

section

variable {α : Type} {write : α → List Char} {valid : α → Prop} {follow stop : List Char → Prop}
  {sep : List Char}

theorem intercalate_cons (sep : List Char) (x : List Char) (xs : List (List Char)) :
    sep.intercalate (x :: xs) = x ++ xs.flatMap (sep ++ ·) := by
  induction xs generalizing x with
  | nil => simp
  | cons y ys ih =>
    rw [List.intercalate_cons_cons, ih, List.flatMap_cons, List.append_assoc, List.append_assoc]

/-- Where things are written with a separator between them that may stand behind each of them, and the text
behind the last one does not begin with a separator, the first of them tells where it stops, and so do the
others. -/
structure Separates (write : α → List Char) (valid : α → Prop) (follow : List Char → Prop)
    (sep : List Char) (stop : List Char → Prop) : Prop where
  readsOff : ReadsOff write valid follow
  follow_sep : ∀ cs, follow (sep ++ cs)
  follow_stop : ∀ cs, stop cs → follow cs
  stop_ne_sep : ∀ cs, ¬stop (sep ++ cs)
  stop_ne_write : ∀ a cs, valid a → ¬stop (write a ++ cs)

theorem Separates.follow_flatMap (h : Separates write valid follow sep stop) (as : List α)
    {rest : List Char} (hrest : stop rest) : follow (as.flatMap (fun a => sep ++ write a) ++ rest) := by
  cases as with
  | nil => exact h.follow_stop rest hrest
  | cons a as =>
    rw [List.flatMap_cons, List.append_assoc, List.append_assoc]
    exact h.follow_sep _

theorem Separates.readsOff_flatMap (h : Separates write valid follow sep stop) :
    ReadsOff (fun as : List α => as.flatMap fun a => sep ++ write a) (fun as => ∀ a ∈ as, valid a) stop := by
  intro as bs rest rest' has hbs hrest hrest' heq
  induction as generalizing bs with
  | nil =>
    cases bs with
    | nil => exact ⟨rfl, heq⟩
    | cons b bs =>
      change rest = (sep ++ write b ++ _) ++ rest' at heq
      rw [heq, List.append_assoc, List.append_assoc] at hrest
      exact absurd hrest (h.stop_ne_sep _)
  | cons a as ih =>
    cases bs with
    | nil =>
      change (sep ++ write a ++ _) ++ rest = rest' at heq
      rw [← heq, List.append_assoc, List.append_assoc] at hrest'
      exact absurd hrest' (h.stop_ne_sep _)
    | cons b bs =>
      obtain ⟨ha, hmore⟩ := List.forall_mem_cons.1 has
      obtain ⟨hb, hothers⟩ := List.forall_mem_cons.1 hbs
      simp only [List.flatMap_cons, List.append_assoc] at heq
      obtain ⟨rfl, htail⟩ := h.readsOff ha hb (h.follow_flatMap as hrest) (h.follow_flatMap bs hrest')
        (List.append_cancel_left heq)
      obtain ⟨rfl, hend⟩ := ih hmore hothers htail
      exact ⟨rfl, hend⟩

/-- A list stops where no separator follows. -/
theorem Separates.readsOff_intercalate (h : Separates write valid follow sep stop) :
    ReadsOff (fun as : List α => sep.intercalate (as.map write)) (fun as => ∀ a ∈ as, valid a) stop := by
  have hcons : ∀ (a : α) (as : List α) (rest : List Char),
      sep.intercalate ((a :: as).map write) ++ rest =
        write a ++ ((as.flatMap fun a => sep ++ write a) ++ rest) := by
    intro a as rest
    rw [List.map_cons, intercalate_cons, List.append_assoc, List.flatMap_map]
  intro as bs rest rest' has hbs hrest hrest' heq
  cases as with
  | nil =>
    cases bs with
    | nil => exact ⟨rfl, heq⟩
    | cons b bs =>
      change rest = sep.intercalate ((b :: bs).map write) ++ rest' at heq
      rw [heq, hcons] at hrest
      exact absurd hrest (h.stop_ne_write b _ (hbs b List.mem_cons_self))
  | cons a as =>
    cases bs with
    | nil =>
      change sep.intercalate ((a :: as).map write) ++ rest = rest' at heq
      rw [← heq, hcons] at hrest'
      exact absurd hrest' (h.stop_ne_write a _ (has a List.mem_cons_self))
    | cons b bs =>
      obtain ⟨ha, hmore⟩ := List.forall_mem_cons.1 has
      obtain ⟨hb, hothers⟩ := List.forall_mem_cons.1 hbs
      simp only [hcons] at heq
      obtain ⟨rfl, htail⟩ :=
        h.readsOff ha hb (h.follow_flatMap as hrest) (h.follow_flatMap bs hrest') heq
      obtain ⟨rfl, hend⟩ := h.readsOff_flatMap hmore hothers hrest hrest' htail
      exact ⟨rfl, hend⟩

end

end Tabletop.Text
