import Tabletop.Program.Source
import Tabletop.Proofs.Script.Continuation
import Tabletop.Proofs.Script.Enclosing
import Tabletop.Proofs.Token.Places

/-!
# White space between tokens

What a script is and what is compiled from it depends on its tokens, and on nothing that stands between them
(`Script.readsAlike_of_tokens`).  So white space can be put in wherever no token is cut in two, and taken out
wherever the tokens stay what they are.  Something that is no script can become another such thing: a string
that is never closed goes on through the blanks behind it.
-/

namespace Tabletop

open Text

/-- The two texts have the same tokens, kind by kind and text by text, and are read and compiled alike. -/
structure Script.ReadsAlike (source other : String) : Prop where
  tokens : (Token.scan 0 other.toList).map Token.bare = (Token.scan 0 source.toList).map Token.bare
  script : ofSource other = ofSource source
  program : Program.ofSource other = Program.ofSource source

namespace Script

/-- Texts with the same tokens are alike, if one of them is a script. -/
theorem readsAlike_of_tokens {source other : String} {script : Script} (h : ofSource source = .ok script)
    (htokens : (Token.scan 0 other.toList).map Token.bare = (Token.scan 0 source.toList).map Token.bare) :
    ReadsAlike source other := by
  have hother : ofSource other = ofSource source := by
    rw [h, ofSource_eq_ok_iff, ofTokens?_congr htokens, ← ofSource_eq_ok_iff, h]
  exact ⟨htokens, hother, congrArg (Except.map compile) hother⟩

/-- White space is put in before the first token of a script, behind the last one or between two of them, at
any place that no token lies across: the tokens, the tree and the program are the same.  They are also the same
for every other text with the same tokens, and so for one from which white space was taken out, as long as no
two tokens have become one. -/
theorem readsAlike_respaced {source : String} {script : Script} (h : ofSource source = .ok script) :
    (∀ before blanks after : List Char, source.toList = before ++ after → (∀ c ∈ blanks, isSpace c) →
      Token.IsBoundary (Token.scan 0 source.toList) (width before) →
      ReadsAlike source (String.ofList (before ++ (blanks ++ after)))) ∧
    ∀ other : String,
      (Token.scan 0 other.toList).map Token.bare = (Token.scan 0 source.toList).map Token.bare →
      ReadsAlike source other := by
  refine ⟨fun before blanks after hsource hblanks hplace => ?_, fun other => readsAlike_of_tokens h⟩
  have hproper := isProper_of_read h
  refine readsAlike_of_tokens h ?_
  rw [hsource] at hproper hplace
  rw [← Nat.zero_add (width before)] at hplace
  rw [String.toList_ofList, hsource, Token.map_bare_scan_insert hproper hblanks hplace]

/-- Behind a dice term that could go on, in front of an operator of two characters, and all over the text. -/
theorem readsAlike_respaced_operators :
    let before := ['2', 'd', '6', 'k']
    let after := "<=hp?\"a b\":x".toList
    let source := String.ofList (before ++ after)
    let spread := String.ofList (before ++ (['\r', '\n', '\t', ' '] ++ after))
    Token.IsBoundary (Token.scan 0 source.toList) (width before) ∧ ReadsAlike source spread ∧
      ReadsAlike source " 2d6k <= hp ? \"a b\" : x\n" := by
  intro before after source spread
  have hread : (ofSource source).toOption.isSome := by
    dsimp only [source, before, after]
    decide +kernel
  have hspans : (Token.scan 0 source.toList).map (fun t => (t.start, t.stop)) =
      [(0, 4), (4, 6), (6, 8), (8, 9), (9, 14), (14, 15), (15, 16)] := by
    dsimp only [source, before, after]
    decide +kernel
  have hplace : Token.IsBoundary (Token.scan 0 source.toList) (width before) := by
    have hall : ∀ span ∈ (Token.scan 0 source.toList).map fun t => (t.start, t.stop),
        span.2 ≤ width before ∨ width before ≤ span.1 := by
      rw [hspans]
      decide
    exact fun t ht => hall _ (List.mem_map_of_mem ht)
  have htokens : (Token.scan 0 " 2d6k <= hp ? \"a b\" : x\n".toList).map Token.bare =
      (Token.scan 0 source.toList).map Token.bare := by
    dsimp only [source, before, after]
    decide +kernel
  obtain ⟨script, hscript⟩ := Option.isSome_iff_exists.1 hread
  obtain ⟨hinsert, hother⟩ := readsAlike_respaced (toOption_eq_some.1 hscript)
  have hblanks : ∀ c ∈ ['\r', '\n', '\t', ' '], isSpace c := by simp [isSpace]
  have hsource : source.toList = before ++ after := String.toList_ofList
  exact ⟨hplace, hinsert before _ after hsource hblanks hplace, hother _ htokens⟩

/-- A string that is never closed takes in the blank behind it. -/
example : Token.scan 0 ['"', 'a', ' '] =
    [{ kind := .unclosedString, text := ['"', 'a', ' '], start := 0 }] := by decide +kernel

end Script
end Tabletop
