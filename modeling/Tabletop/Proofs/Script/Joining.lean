import Mathlib.Data.List.Chain
import Tabletop.Proofs.Script.Enclosing
import Tabletop.Proofs.Script.Relocation
import Tabletop.Proofs.Token.Tokenisation

/-!
# Templates written out of their parts

A template body is what its parts look like one behind the other, a text as it is and a script between
braces.  Reading a body and writing parts undo each other: the parts that reading finds make up the body,
and written parts are found again, but for texts that stand side by side or are empty
(`Segment.readBody_written`).  So one script can be put in the place of another, and the other parts are what
they were (`Segment.exists_around_code`).

Between backticks a body is a template.
-/

namespace Tabletop

open Text

/-- A part of a template body: a text, or a script. -/
inductive Part where
  | text (cs : List Char)
  | code (inner : List Char)
  deriving DecidableEq, Repr

namespace Part

/-- What a part looks like. -/
def written : Part → List Char
  | text cs => cs
  | code inner => openingBrace :: inner ++ [closingBrace]

/-- What a segment is as a part: a text of its characters, a script of a text that is read as the
script. -/
inductive Stands : Part → Segment → Prop
  | text {cs} : Stands (.text cs) (.text (String.ofList cs))
  | code {inner script} (h : Script.ofSource (String.ofList inner) = .ok script) :
    Stands (.code inner) (.code script)

/-- The parts whose place in a body is clear: a text cannot be taken for a script, and a script has no
templates of its own. -/
def Plain : Part → Prop
  | text cs => openingBrace ∉ cs
  | code inner =>
    templateMark ∉ inner ∧ ∃ script, Script.ofSource (String.ofList inner) = .ok script

/-- A text in front of parts, as one with a text that comes first, and nothing if it is empty. -/
def push (cs : List Char) : List Part → List Part
  | .text ds :: parts => .text (cs ++ ds) :: parts
  | parts => if cs.isEmpty then parts else .text cs :: parts

/-- The parts with texts that stand side by side as one text, and without empty texts. -/
def merge : List Part → List Part
  | [] => []
  | .code inner :: parts => .code inner :: merge parts
  | .text cs :: parts => push cs (merge parts)

/-- Parts as they are found in a body: no text is empty or has an opening brace, and no text follows
another one. -/
structure Merged (parts : List Part) : Prop where
  text : ∀ cs, .text cs ∈ parts → cs ≠ [] ∧ openingBrace ∉ cs
  apart : parts.IsChain fun p q => ∀ cs ds, ¬(p = .text cs ∧ q = .text ds)

/-- Every script among the parts ends where a brace closes it, and is not blank. -/
def Closed (parts : List Part) : Prop :=
  ∀ inner, .code inner ∈ parts → Place.code.Ends inner ∧ ∃ c ∈ inner, ¬isBlank c

/-- The parts as pieces, the first at the byte `start`. -/
def place (start : Nat) : List Part → List Piece
  | [] => []
  | .text cs :: parts => .text cs :: place (start + width cs) parts
  | .code inner :: parts =>
    .code (start + openingBrace.utf8Size) inner ::
      place (start + width (openingBrace :: inner ++ [closingBrace])) parts

/-! ## Merging -/

theorem merged_nil : Merged [] :=
  ⟨fun _ hmem => absurd hmem List.not_mem_nil, .nil⟩

theorem merged_code_cons {inner : List Char} {parts : List Part} :
    Merged (.code inner :: parts) ↔ Merged parts := by
  constructor
  · intro h
    exact ⟨fun cs hcs => h.text cs (List.mem_cons_of_mem _ hcs), h.apart.tail⟩
  · intro h
    refine ⟨fun cs hcs => h.text cs (by simpa using hcs), ?_⟩
    refine List.isChain_cons.2 ⟨fun q _ cs ds hpair => ?_, h.apart⟩
    cases hpair.1

/-- A text may stand in front where no other one comes first. -/
theorem merged_text_cons {cs : List Char} {parts : List Part} :
    Merged (.text cs :: parts) ↔
      cs ≠ [] ∧ openingBrace ∉ cs ∧ (∀ ds, parts.head? ≠ some (.text ds)) ∧ Merged parts := by
  constructor
  · intro h
    obtain ⟨hne, hcs⟩ := h.text cs List.mem_cons_self
    refine ⟨hne, hcs, ?_, fun ds hds => h.text ds (List.mem_cons_of_mem _ hds), h.apart.tail⟩
    intro ds hds
    exact (List.isChain_cons.1 h.apart).1 _ hds cs ds ⟨rfl, rfl⟩
  · rintro ⟨hne, hcs, hhead, h⟩
    constructor
    · intro ds hds
      rcases List.mem_cons.1 hds with heq | hds
      · cases heq
        exact ⟨hne, hcs⟩
      · exact h.text ds hds
    · refine List.isChain_cons.2 ⟨?_, h.apart⟩
      rintro q hq _ ds ⟨_, rfl⟩
      exact hhead ds hq

/-- The parts on the two sides of a script are merged for themselves. -/
theorem merged_append_code {ps qs : List Part} {inner : List Char} :
    Merged (ps ++ .code inner :: qs) ↔ Merged ps ∧ Merged qs := by
  induction ps with
  | nil => simp [merged_code_cons, merged_nil]
  | cons part ps ih =>
    rw [List.cons_append]
    cases part with
    | text cs =>
      rw [merged_text_cons, merged_text_cons, ih]
      cases ps with
      | nil => simp [merged_nil, and_assoc]
      | cons next ps => simp [and_assoc]
    | code other => rw [merged_code_cons, merged_code_cons, ih]

theorem written_push (cs : List Char) (parts : List Part) :
    (push cs parts).flatMap written = cs ++ parts.flatMap written := by
  unfold push
  split
  · simp [written]
  · split
    · rename_i hnil
      rw [List.isEmpty_iff.1 hnil, List.nil_append]
    · rfl

theorem code_mem_push {cs inner : List Char} {parts : List Part} (h : .code inner ∈ push cs parts) :
    .code inner ∈ parts := by
  unfold push at h
  split at h
  · simpa using h
  · split at h
    · exact h
    · simpa using h

theorem Merged.push {cs : List Char} {parts : List Part} (h : Merged parts)
    (hcs : openingBrace ∉ cs) : Merged (push cs parts) := by
  unfold Part.push
  split
  · rename_i ds parts
    obtain ⟨hne, hds, hhead, hparts⟩ := merged_text_cons.1 h
    exact merged_text_cons.2 ⟨by simp [hne], by simp [hcs, hds], hhead, hparts⟩
  · rename_i hhead
    split
    · exact h
    · rename_i hne
      refine merged_text_cons.2 ⟨by simpa using hne, hcs, fun ds hds => ?_, h⟩
      obtain ⟨rest, rfl⟩ := List.head?_eq_some_iff.1 hds
      exact hhead ds rest rfl

/-- Merging changes nothing about how parts look. -/
theorem written_merge (parts : List Part) :
    (merge parts).flatMap written = parts.flatMap written := by
  induction parts with
  | nil => rfl
  | cons part parts ih =>
    cases part with
    | text cs => rw [merge, written_push, ih, List.flatMap_cons, written]
    | code inner => rw [merge, List.flatMap_cons, ih, List.flatMap_cons]

theorem code_mem_merge {inner : List Char} {parts : List Part} (h : .code inner ∈ merge parts) :
    .code inner ∈ parts := by
  induction parts with
  | nil => exact h
  | cons part parts ih =>
    cases part with
    | text cs => exact List.mem_cons_of_mem _ (ih (code_mem_push h))
    | code other =>
      rcases List.mem_cons.1 h with heq | h
      · exact heq ▸ List.mem_cons_self
      · exact List.mem_cons_of_mem _ (ih h)

theorem merged_merge {parts : List Part} (h : ∀ part ∈ parts, part.Plain) : Merged (merge parts) := by
  induction parts with
  | nil => exact merged_nil
  | cons part parts ih =>
    obtain ⟨hpart, hparts⟩ := List.forall_mem_cons.1 h
    cases part with
    | text cs => exact (ih hparts).push hpart
    | code inner => exact merged_code_cons.2 (ih hparts)

/-! ## Parts and pieces -/

/-- Parts that are merged are how the body they make up splits, if they are closed. -/
theorem Merged.splits {parts : List Part} (h : Merged parts) (hclosed : Closed parts) (start : Nat) :
    Piece.Splits start (parts.flatMap written) (place start parts) := by
  induction parts generalizing start with
  | nil => exact .nil
  | cons part parts ih =>
    have hrest : Closed parts := fun inner hinner => hclosed inner (List.mem_cons_of_mem part hinner)
    rw [List.flatMap_cons]
    cases part with
    | text cs =>
      obtain ⟨hne, hcs, hhead, hparts⟩ := merged_text_cons.1 h
      refine .text hne (fun c hc heq => hcs (heq ▸ hc)) ?_ (ih hparts hrest _)
      -- behind a text there is a script, if there is anything
      cases parts with
      | nil => simp
      | cons next parts =>
        cases next with
        | text ds => exact absurd rfl (hhead ds)
        | code inner => simp [written]
    | code inner =>
      obtain ⟨hends, hblank⟩ := hclosed inner List.mem_cons_self
      have hwritten : written (.code inner) ++ parts.flatMap written =
          openingBrace :: inner ++ closingBrace :: parts.flatMap written := by simp [written]
      rw [hwritten]
      exact .code hends hblank (ih (merged_code_cons.1 h) hrest _)

/-- However a body splits, the pieces are parts that make it up. -/
theorem exists_merged_of_splits {start : Nat} {body : List Char} {pieces : List Piece}
    (h : Piece.Splits start body pieces) :
    ∃ parts, body = parts.flatMap written ∧ pieces = place start parts ∧ Merged parts ∧
      Closed parts := by
  induction h with
  | nil => exact ⟨[], rfl, rfl, merged_nil, nofun⟩
  | @text start cs body pieces hne hcs hbody _ ih =>
    obtain ⟨parts, rfl, rfl, hparts, hclosed⟩ := ih
    refine ⟨.text cs :: parts, rfl, rfl, merged_text_cons.2 ⟨hne, ?_, ?_, hparts⟩, ?_⟩
    · exact fun hbrace => hcs _ hbrace rfl
    · intro ds hds
      obtain ⟨rest, rfl⟩ := List.head?_eq_some_iff.1 hds
      obtain ⟨hne, hbrace⟩ := hparts.text ds List.mem_cons_self
      obtain ⟨d, ds, rfl⟩ := List.exists_cons_of_ne_nil hne
      exact hbrace (hbody d rfl ▸ List.mem_cons_self)
    · intro inner hinner
      exact hclosed inner (by simpa using hinner)
  | @code start inner body pieces hends hblank _ ih =>
    obtain ⟨parts, rfl, rfl, hparts, hclosed⟩ := ih
    refine ⟨.code inner :: parts, by simp [written], rfl, merged_code_cons.2 hparts, ?_⟩
    intro other hother
    rcases List.mem_cons.1 hother with heq | hother
    · cases heq
      exact ⟨hends, hblank⟩
    · exact hclosed other hother

/-- A script among the pieces is one of the parts, and the pieces tell where it begins. -/
theorem exists_append_of_code_mem_place {start here : Nat} {inner : List Char} {parts : List Part}
    (h : .code here inner ∈ place start parts) :
    ∃ ps qs, parts = ps ++ .code inner :: qs ∧
      here = start + width (ps.flatMap written ++ [openingBrace]) := by
  induction parts generalizing start with
  | nil => cases h
  | cons part parts ih =>
    cases part with
    | text cs =>
      rw [place, List.mem_cons] at h
      rcases h with heq | h
      · cases heq
      · obtain ⟨ps, qs, rfl, rfl⟩ := ih h
        refine ⟨.text cs :: ps, qs, rfl, ?_⟩
        simp only [List.flatMap_cons, written, width_append, Nat.add_assoc]
    | code other =>
      rw [place, List.mem_cons] at h
      rcases h with heq | h
      · cases heq
        exact ⟨[], parts, rfl, rfl⟩
      · obtain ⟨ps, qs, rfl, rfl⟩ := ih h
        refine ⟨.code other :: ps, qs, rfl, ?_⟩
        simp only [List.flatMap_cons, written, width_append, Nat.add_assoc]

/-- Pieces stand for segments where their parts do. -/
theorem reads_place_iff {start : Nat} {parts : List Part} {segments : List Segment} :
    Segment.Reads (place start parts) segments ↔ List.Forall₂ Stands parts segments := by
  induction parts generalizing start segments with
  | nil =>
    constructor
    · rintro ⟨⟩
      exact .nil
    · rintro ⟨⟩
      exact .nil
  | cons part parts ih =>
    cases part with
    | text cs =>
      constructor
      · intro h
        cases h with
        | text h => exact .cons .text (ih.1 h)
      · intro h
        cases h with
        | cons hpart h =>
          cases hpart
          exact .text (ih.2 h)
    | code inner =>
      constructor
      · intro h
        cases h with
        | code hscript h =>
          have hread := Script.read_eq_ok_iff.2 hscript
          exact .cons (.code ((Script.read_eq_ok_iff_ofSource _).1 hread)) (ih.1 h)
      · intro h
        cases h with
        | cons hpart h =>
          cases hpart with
          | code hscript =>
            have hread := (Script.read_eq_ok_iff_ofSource (start + openingBrace.utf8Size)).2 hscript
            exact .code (Script.read_eq_ok_iff.1 hread) (ih.2 h)

/-- Parts of which the scripts are scripts stand for segments. -/
theorem exists_stands {parts : List Part}
    (h : ∀ inner, .code inner ∈ parts → ∃ script, Script.ofSource (String.ofList inner) = .ok script) :
    ∃ segments, List.Forall₂ Stands parts segments := by
  induction parts with
  | nil => exact ⟨[], .nil⟩
  | cons part parts ih =>
    obtain ⟨segments, hsegments⟩ := ih fun inner hinner => h inner (List.mem_cons_of_mem _ hinner)
    cases part with
    | text cs => exact ⟨_, .cons .text hsegments⟩
    | code inner =>
      obtain ⟨script, hscript⟩ := h inner List.mem_cons_self
      exact ⟨_, .cons (.code hscript) hsegments⟩

/-- The list that stands for parts on the two sides of a script falls into two as well. -/
theorem exists_append_of_stands {ps qs : List Part} {inner : List Char} {segments : List Segment}
    (h : List.Forall₂ Stands (ps ++ .code inner :: qs) segments) :
    ∃ before script after, segments = before ++ .code script :: after ∧
      Script.ofSource (String.ofList inner) = .ok script ∧ List.Forall₂ Stands ps before ∧
      List.Forall₂ Stands qs after := by
  induction ps generalizing segments with
  | nil =>
    obtain ⟨segment, after, hcode, hqs, rfl⟩ := List.forall₂_cons_left_iff.1 h
    cases hcode with
    | code hscript => exact ⟨[], _, after, rfl, hscript, .nil, hqs⟩
  | cons part ps ih =>
    obtain ⟨segment, rest, hpart, hrest, rfl⟩ := List.forall₂_cons_left_iff.1 h
    obtain ⟨before, script, after, rfl, hscript, hps, hqs⟩ := ih hrest
    exact ⟨segment :: before, script, after, rfl, hscript, .cons hpart hps, hqs⟩

end Part

/-! ## Reading -/

/-- Between braces, a script without templates is all that there is in a body. -/
theorem Piece.ofBody_braced {start : Nat} {inner : List Char} {script : Script}
    (h : Script.read (start + 1) inner = .ok script) (hmark : templateMark ∉ inner) :
    ofBody start (openingBrace :: inner ++ [closingBrace]) = [.code (start + 1) inner] := by
  obtain ⟨hends, hblank⟩ := Script.code_ends_of_read h hmark
  have hsplits : Splits start (openingBrace :: inner ++ [closingBrace])
      [.code (start + 1) inner] := .code hends hblank .nil
  exact hsplits.ofBody_eq

namespace Segment

/-- A body is read where it splits into pieces that stand for segments. -/
theorem readBody_eq_ok_iff {start : Nat} {body : List Char} {segments : List Segment} :
    readBody start body = .ok segments ↔
      ∃ pieces, Piece.Splits start body pieces ∧ Segment.Reads pieces segments := by
  constructor
  · intro h
    obtain ⟨hreads, hfault⟩ :=
      Segment.reads_of_mapM (fun _ _ _ _ hread => Script.reads_of_read hread) h
    exact ⟨_, Piece.splits_ofBody hfault, hreads⟩
  · rintro ⟨pieces, hsplits, hreads⟩
    rw [readBody, hsplits.ofBody_eq]
    exact hreads.mapM_read

/-- What is read of a body are parts that make it up and what they stand for. -/
theorem exists_parts_of_readBody {start : Nat} {body : List Char} {segments : List Segment}
    (h : readBody start body = .ok segments) :
    ∃ parts, body = parts.flatMap Part.written ∧ Piece.ofBody start body = Part.place start parts ∧
      Part.Merged parts ∧ Part.Closed parts ∧ List.Forall₂ Part.Stands parts segments := by
  obtain ⟨pieces, hsplits, hreads⟩ := readBody_eq_ok_iff.1 h
  obtain ⟨parts, hbody, rfl, hmerged, hclosed⟩ := Part.exists_merged_of_splits hsplits
  exact ⟨parts, hbody, hsplits.ofBody_eq, hmerged, hclosed, Part.reads_place_iff.1 hreads⟩

/-- Merged parts that stand for segments are read as these. -/
theorem readBody_of_stands {parts : List Part} {segments : List Segment} (h : Part.Merged parts)
    (hclosed : Part.Closed parts) (hstands : List.Forall₂ Part.Stands parts segments) (start : Nat) :
    readBody start (parts.flatMap Part.written) = .ok segments :=
  readBody_eq_ok_iff.2 ⟨_, h.splits hclosed start, Part.reads_place_iff.2 hstands⟩

theorem readBody_braced {start : Nat} {inner : List Char} {script : Script}
    (h : Script.read (start + 1) inner = .ok script) (hmark : templateMark ∉ inner) :
    readBody start (openingBrace :: inner ++ [closingBrace]) = .ok [.code script] := by
  rw [readBody, Piece.ofBody_braced h hmark, List.mapM_cons, List.mapM_nil, Piece.read, h]
  rfl

/-- Reading a template body and writing parts undo each other.  What is read of a body are parts that
make it up, none of its texts empty or with an opening brace and no two of them side by side, and what
each part stands for.  Where parts without templates inside are written one behind the other, reading
the body finds them, with texts side by side as one text and without empty texts. -/
theorem readBody_written (start : Nat) :
    (∀ body segments, readBody start body = .ok segments →
      ∃ parts, body = parts.flatMap Part.written ∧ Part.Merged parts ∧
        List.Forall₂ Part.Stands parts segments) ∧
    ∀ parts : List Part, (∀ part ∈ parts, part.Plain) →
      ∃ segments, readBody start (parts.flatMap Part.written) = .ok segments ∧
        List.Forall₂ Part.Stands (Part.merge parts) segments := by
  constructor
  · intro body segments h
    obtain ⟨parts, hbody, -, hmerged, -, hstands⟩ := exists_parts_of_readBody h
    exact ⟨parts, hbody, hmerged, hstands⟩
  · intro parts hplain
    have hscript : ∀ inner, .code inner ∈ Part.merge parts →
        templateMark ∉ inner ∧ ∃ script, Script.ofSource (String.ofList inner) = .ok script :=
      fun inner hinner => hplain _ (Part.code_mem_merge hinner)
    have hclosed : Part.Closed (Part.merge parts) := by
      intro inner hinner
      obtain ⟨hmark, script, hscript⟩ := hscript inner hinner
      exact Script.code_ends_of_read ((Script.read_eq_ok_iff_ofSource 0).2 hscript) hmark
    obtain ⟨segments, hstands⟩ := Part.exists_stands fun inner hinner => (hscript inner hinner).2
    rw [← Part.written_merge]
    exact ⟨segments, readBody_of_stands (Part.merged_merge hplain) hclosed hstands start, hstands⟩

/-- In a body that is read, a script can be put in the place of a script. -/
theorem exists_around_code {start here : Nat} {body inner : List Char} {segments : List Segment}
    (h : readBody start body = .ok segments) (hcode : .code here inner ∈ Piece.ofBody start body) :
    ∃ front back before script after, body = front ++ (inner ++ back) ∧ here = start + width front ∧
      Script.read here inner = .ok script ∧ segments = before ++ .code script :: after ∧
      ∀ other script', Script.read here other = .ok script' → templateMark ∉ other →
        readBody start (front ++ (other ++ back)) = .ok (before ++ .code script' :: after) := by
  obtain ⟨parts, hbody, hpieces, hmerged, hclosed, hstands⟩ := exists_parts_of_readBody h
  rw [hpieces] at hcode
  obtain ⟨ps, qs, rfl, hhere⟩ := Part.exists_append_of_code_mem_place hcode
  obtain ⟨before, script, after, hsegments, hscript, hps, hqs⟩ := Part.exists_append_of_stands hstands
  have hwritten : ∀ cs, (ps ++ .code cs :: qs).flatMap Part.written =
      (ps.flatMap Part.written ++ [openingBrace]) ++ (cs ++ closingBrace :: qs.flatMap Part.written) := by
    simp [Part.written]
  refine ⟨_, _, before, script, after, hbody.trans (hwritten inner), hhere,
    (Script.read_eq_ok_iff_ofSource here).2 hscript, hsegments, fun other script' hread hmark => ?_⟩
  rw [← hwritten]
  refine readBody_of_stands (Part.merged_append_code.2 (Part.merged_append_code.1 hmerged)) ?_ ?_ start
  · intro cs hcs
    rcases List.mem_append.1 hcs with hcs | hcs
    · exact hclosed cs (List.mem_append_left _ hcs)
    · rcases List.mem_cons.1 hcs with heq | hcs
      · cases heq
        exact Script.code_ends_of_read hread hmark
      · exact hclosed cs (List.mem_append_right _ (List.mem_cons_of_mem _ hcs))
  · exact List.rel_append hps (.cons (.code ((Script.read_eq_ok_iff_ofSource here).1 hread)) hqs)

end Segment

/-! ## Between backticks -/

/-- A text between backticks. -/
def backticked (cs : List Char) : List Char :=
  templateMark :: cs ++ [templateMark]

/-- A text between backticks as a token. -/
def Token.backticked (start : Nat) (cs : List Char) : Token :=
  { kind := .template, text := Tabletop.backticked cs, start }

theorem backticked_mem_pattern {cs : List Char} (hcs : templateMark ∉ cs) :
    backticked cs ∈ TokenKind.template.pattern := by
  refine mem_enclosed_iff.2 ⟨cs, mem_kstar_oneChar.2 fun c hc => ?_, rfl⟩
  rintro rfl
  exact hcs hc

theorem Token.scan_backticked (start : Nat) {cs : List Char} (hcs : templateMark ∉ cs) :
    scan start (Tabletop.backticked cs) = [backticked start cs] :=
  @scan_eq_singleton (backticked start cs) (backticked_mem_pattern hcs) nofun

theorem Token.body_backticked (start : Nat) (cs : List Char) : (backticked start cs).body = cs :=
  body_of_text_eq rfl

/-- A template is what is between its backticks, and that has no backtick. -/
theorem Token.text_eq_backticked {start : Nat} {cs : List Char} {t : Token} (ht : t ∈ scan start cs)
    (hkind : t.kind = .template) : t.text = Tabletop.backticked t.body ∧ templateMark ∉ t.body := by
  obtain ⟨body, hbody, htext⟩ := mem_enclosed_iff.1 (mem_pattern_of_mem_scan ht hkind (by decide))
  obtain rfl := body_of_text_eq htext
  exact ⟨htext, fun hmark => mem_kstar_oneChar.1 hbody _ hmark rfl⟩

/-- Between backticks a body that is read is an operand. -/
theorem Expr.reads_backticked {start : Nat} {cs : List Char} {segments : List Segment}
    (h : Segment.readBody (start + 1) cs = .ok segments) :
    Expr.Reads .atom [Token.backticked start cs] (.template segments) := by
  rw [← Token.body_backticked start cs] at h
  obtain ⟨pieces, hsplits, hreads⟩ := Segment.readBody_eq_ok_iff.1 h
  exact .template rfl hsplits hreads

/-- The script that a text between backticks is. -/
theorem Script.read_backticked (start : Nat) {cs : List Char} (hcs : templateMark ∉ cs) :
    read start (backticked cs) =
      (Segment.readBody (start + 1) cs).map fun segments => .single (.template segments) := by
  rw [read_eq, Token.scan_backticked start hcs, List.map_singleton, List.foldlM_cons]
  simp only [List.foldlM_nil, Word.ofToken, Token.body_backticked]
  show Bind.bind (Bind.bind (Bind.bind (Segment.readBody (start + 1) cs) _) _) _ = _
  cases Segment.readBody (start + 1) cs <;> rfl

/-- The bytes of a template that stands between backticks are one further on. -/
theorem Script.ofSource_backticked {s : String} (hs : templateMark ∉ s.toList) :
    ofSource (String.ofList (backticked s.toList)) =
      (ofTemplate s).mapError (SyntaxError.shift 1) := by
  rw [ofSource, String.toList_ofList, read_backticked 0 hs, Segment.readBody_add, ofTemplate, mapError_map]

/-- A source text that is a single template is read piece by piece. -/
theorem Script.ofSource_of_pieces {source : String} {cs : List Char} {pieces : List Piece}
    {segments : List Segment} (hsource : source.toList = backticked cs) (hcs : templateMark ∉ cs)
    (hpieces : Piece.ofBody 1 cs = pieces) (hread : pieces.mapM Piece.read = .ok segments) :
    ofSource source = .ok (.single (.template segments)) := by
  rw [ofSource, hsource, read_backticked 0 hcs, Segment.readBody, hpieces, hread]
  rfl

end Tabletop
