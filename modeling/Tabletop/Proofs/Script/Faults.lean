import Tabletop.Proofs.Script.Placement

/-!
# Faults quote the source text

A fault that reading reports comes from a token, from a piece of a template body, or from the end of the
text that is read.  Each of them says where it stands in the text at hand, and the scripts inside
templates are read where they stand; so the bytes of a fault count in the whole source text, however
deep it lies.
-/

namespace Tabletop

open Text

/-! ## What a fault can be -/

theorem map_eq_error_iff {α β ε : Type} {f : α → β} {x : Except ε α} {e : ε} :
    x.map f = .error e ↔ x = .error e := by
  cases x <;> simp [Except.map]

theorem exists_of_foldlM_eq_error {α β ε : Type} {f : β → α → Except ε β} {xs : List α} {b : β}
    {e : ε} (h : xs.foldlM f b = .error e) : ∃ x ∈ xs, ∃ b', f b' x = .error e := by
  induction xs generalizing b with
  | nil => cases h
  | cons x xs ih =>
    rw [List.foldlM_cons] at h
    cases hx : f b x with
    | error e' =>
      rw [hx] at h
      cases h
      exact ⟨x, List.mem_cons_self, b, hx⟩
    | ok b' =>
      rw [hx] at h
      obtain ⟨y, hy, b'', hfault⟩ := ih h
      exact ⟨y, List.mem_cons_of_mem x hy, b'', hfault⟩

theorem exists_of_mapM_eq_error {α β ε : Type} {f : α → Except ε β} {xs : List α} {e : ε}
    (h : xs.mapM f = .error e) : ∃ x ∈ xs, f x = .error e := by
  induction xs with
  | nil => cases h
  | cons x xs ih =>
    rw [List.mapM_cons] at h
    cases hx : f x with
    | error e' =>
      rw [hx] at h
      cases h
      exact ⟨x, List.mem_cons_self, hx⟩
    | ok b =>
      cases hxs : xs.mapM f with
      | error e' =>
        rw [hx, hxs] at h
        cases h
        obtain ⟨y, hy, hfault⟩ := ih hxs
        exact ⟨y, List.mem_cons_of_mem x hy, hfault⟩
      | ok bs =>
        rw [hx, hxs] at h
        cases h

/-- The fault is a token. -/
def SyntaxError.Blames (e : SyntaxError) (t : Token) : Prop :=
  (∃ cause, e = atToken t cause) ∧ ¬e.IsEnd

theorem SyntaxError.blames_unexpected (t : Token) (expected : List TokenKind) :
    (unexpected t expected).Blames t := by
  refine ⟨⟨_, rfl⟩, ?_⟩
  rintro ⟨kinds, hcause⟩
  simp only [unexpected, atToken] at hcause
  split at hcause <;> cases hcause

/-- Causes for which a token is refused though its kind could stand there. -/
inductive SyntaxError.Cause.OfToken : Cause → Prop
  | integerOutOfRange : OfToken .integerOutOfRange
  | invalidDice (why : DiceFault) : OfToken (.invalidDice why)
  | invalidTarget : OfToken .invalidTarget

/-- The faults of a word where one of several kinds of token could stand: the token is refused by itself,
it is of another kind, or it is a template and the fault is inside. -/
inductive Word.Fault (w : Word) (expected : List TokenKind) : SyntaxError → Prop
  | own {cause : SyntaxError.Cause} (hcause : cause.OfToken) : Fault w expected (.atToken w.token cause)
  | unexpected : Fault w expected (.unexpected w.token expected)
  | inside {e : SyntaxError} (hkind : w.token.kind = .template) (hsegments : w.segments = .error e) :
    Fault w expected e

/-- Either the token is at fault or the body of a template. -/
theorem Word.Fault.blames_or {w : Word} {expected : List TokenKind} {e : SyntaxError}
    (h : w.Fault expected e) : e.Blames w.token ∨ w.token.kind = .template ∧ w.segments = .error e := by
  cases h with
  | own hcause =>
    refine .inl ⟨⟨_, rfl⟩, ?_⟩
    cases hcause <;> exact nofun
  | unexpected => exact .inl (SyntaxError.blames_unexpected _ _)
  | inside hkind hsegments => exact .inr ⟨hkind, hsegments⟩

namespace Pending

/-- The kinds of token that end the present expression, as a message lists them. -/
def ending (p : Pending) : List TokenKind :=
  match p.openings with
  | [] => [.semicolon]
  | (opening, _) :: _ => [opening.closer]

/-- The kinds of token that could stand next, as a message lists them. -/
def expected (p : Pending) : List TokenKind :=
  match p.operand with
  | none => operandKinds
  | some _ => p.ending

theorem readInteger_error {p : Pending} {t : Token} {e : SyntaxError} (h : p.readInteger t = .error e) :
    e = .atToken t .integerOutOfRange := by
  unfold readInteger at h
  split at h
  · cases h
    rfl
  · split at h
    · cases h
    · split at h <;> cases h
      rfl

theorem readOperand_error {p : Pending} {w : Word} {e : SyntaxError} (h : p.readOperand w = .error e) :
    w.Fault operandKinds e := by
  unfold readOperand at h
  dsimp only at h
  split at h
  · rw [readInteger_error h]
    exact .own .integerOutOfRange
  · split at h <;> cases h
    exact .own (.invalidDice _)
  · cases h
  · cases h
  · rename_i hkind
    cases hsegments : w.segments with
    | error e' =>
      rw [hsegments] at h
      cases h
      exact .inside hkind hsegments
    | ok segments =>
      rw [hsegments] at h
      cases h
  · cases h
  · split at h <;> cases h
    exact .unexpected

theorem readEnd_error {p : Pending} {x : Expr} {t : Token} {e : SyntaxError}
    (h : p.readEnd x t = .error e) : e = .unexpected t p.ending := by
  obtain ⟨before, openings, links, operand⟩ := p
  unfold readEnd at h
  cases openings with
  | nil =>
    dsimp only at h
    split at h <;> cases h
    rfl
  | cons opening openings =>
    obtain ⟨opening, outer⟩ := opening
    dsimp only at h
    split at h
    · cases opening <;> cases h
    · cases h
      rfl

theorem readConnective_error {p : Pending} {x : Expr} {w : Word} {e : SyntaxError}
    (h : p.readConnective x w.token = .error e) : w.Fault p.ending e := by
  unfold readConnective at h
  split at h
  · cases h
  · split at h
    · cases h
    · split at h <;> cases h
      exact .own .invalidTarget
    · rw [readEnd_error h]
      exact .unexpected

theorem read_error {p : Pending} {w : Word} {e : SyntaxError} (h : p.read w = .error e) :
    w.Fault p.expected e := by
  obtain ⟨before, openings, links, operand⟩ := p
  cases operand with
  | none => exact readOperand_error h
  | some x => exact readConnective_error h

theorem finish_error {p : Pending} {stop : Nat} {e : SyntaxError} (h : p.finish stop = .error e) :
    e = .atEnd stop p.expected := by
  obtain ⟨before, openings, links, operand⟩ := p
  cases operand with
  | none =>
    unfold finish at h
    dsimp only at h
    split at h <;> cases h
    rfl
  | some x =>
    cases openings with
    | nil => cases h
    | cons opening openings =>
      cases h
      rfl

end Pending

/-! ## Scripts inside a script -/

/-- In a text that is read as a script, the scripts are the text itself and, where a template stands in
it, the scripts between its braces with all that are inside them. -/
inductive Script.Within : Nat → List Char → Nat → List Char → Prop
  | self {start source} : Within start source start source
  | template {start source t here inner place text} (ht : t ∈ Token.scan start source)
    (hkind : t.kind = .template) (hcode : .code here inner ∈ Piece.ofBody (t.start + 1) t.body)
    (h : Within here inner place text) : Within start source place text

/-- In a text that is read as the body of a template, the scripts are those between its braces with all
that are inside them. -/
def Segment.Within (start : Nat) (body : List Char) (here : Nat) (text : List Char) : Prop :=
  ∃ place inner, .code place inner ∈ Piece.ofBody start body ∧ Script.Within place inner here text

/-- A script inside another one stands between braces. -/
theorem Script.Within.enclosed {start here : Nat} {source text : List Char}
    (h : Script.Within start source here text) :
    (here = start ∧ text = source) ∨ (Piece.code here text).Placed start source := by
  induction h with
  | self => exact .inl ⟨rfl, rfl⟩
  | template ht hkind hcode _ ih =>
    have hinner := (Piece.placed_of_mem_ofBody hcode).trans (Token.standsAt_body ht hkind)
    rcases ih with ⟨rfl, rfl⟩ | hplaced
    · exact .inr hinner
    · exact .inr (hplaced.trans hinner.standsAt)

theorem Segment.Within.enclosed {start here : Nat} {body text : List Char}
    (h : Segment.Within start body here text) : (Piece.code here text).Placed start body := by
  obtain ⟨place, inner, hcode, hwithin⟩ := h
  have hinner := Piece.placed_of_mem_ofBody hcode
  rcases hwithin.enclosed with ⟨rfl, rfl⟩ | hplaced
  · exact hinner
  · exact hplaced.trans hinner.standsAt

/-! ## Faults inside a text -/

/-- A fault quotes the text that is read, whose scripts are those `within`; and if it is that a text
ends too early, this is the text of one of the scripts. -/
structure SyntaxError.Points (e : SyntaxError) (start : Nat) (cs : List Char)
    (within : Nat → List Char → Prop) : Prop where
  quotes : e.Quotes start cs
  ends : e.IsEnd → ∃ here text expected, within here text ∧ Script.read here text = .error e ∧
    e = .atEnd (here + width text) expected

/-- The faults in the body of a template are those of its pieces. -/
theorem Segment.points_of_readBody {start : Nat} {body : List Char} {e : SyntaxError}
    (hscripts : ∀ here inner, .code here inner ∈ Piece.ofBody start body →
      Script.read here inner = .error e → e.Points here inner (Script.Within here inner))
    (h : readBody start body = .error e) : e.Points start body (Within start body) := by
  obtain ⟨piece, hpiece, hfault⟩ := exists_of_mapM_eq_error h
  have hplaced := Piece.placed_of_mem_ofBody hpiece
  cases piece with
  | text => cases hfault
  | fault why =>
    cases hfault
    exact ⟨hplaced.1, fun hend => absurd hend hplaced.2⟩
  | code here inner =>
    have hinner := hscripts here inner hpiece (map_eq_error_iff.1 hfault)
    refine ⟨hinner.quotes.trans hplaced.standsAt, ?_⟩
    intro hend
    obtain ⟨place, text, expected, hwithin, hfault⟩ := hinner.ends hend
    exact ⟨place, text, expected, ⟨_, inner, hpiece, hwithin⟩, hfault⟩

/-- The faults in a script are those of its tokens and of the bodies of its templates, and that it ends
too early. -/
theorem Script.points_of_read {start : Nat} {source : List Char} {e : SyntaxError}
    (h : read start source = .error e) : e.Points start source (Within start source) := by
  induction start, source using insideInduction with
  | inside start source ih =>
    have hread := h
    rw [read_eq] at h
    cases hrun : ((Token.scan start source).map Word.ofToken).foldlM Pending.read .start with
    | ok p =>
      rw [hrun] at h
      obtain rfl := Pending.finish_error h
      refine ⟨SyntaxError.quotes_atEnd start source p.expected, ?_⟩
      intro _
      exact ⟨start, source, p.expected, .self, hread, rfl⟩
    | error e' =>
      rw [hrun] at h
      cases h
      obtain ⟨w, hw, p, hfault⟩ := exists_of_foldlM_eq_error hrun
      obtain ⟨t, ht, rfl⟩ := List.mem_map.1 hw
      rcases (Pending.read_error hfault).blames_or with ⟨⟨cause, rfl⟩, hnotEnd⟩ | ⟨hkind, hsegments⟩
      · exact ⟨SyntaxError.quotes_atToken ht cause, fun hend => absurd hend hnotEnd⟩
      · have hbody := Segment.points_of_readBody (ih t ht) hsegments
        refine ⟨hbody.quotes.trans (Token.standsAt_body ht hkind), ?_⟩
        intro hend
        obtain ⟨place, text, expected, ⟨here, inner, hcode, hwithin⟩, hfault⟩ := hbody.ends hend
        exact ⟨place, text, expected, .template ht hkind hcode hwithin, hfault⟩

/-! ## Faults in a source text -/

/-- The bytes of a fault lie in the source text, between its characters, and the bytes of the text that
the fault quotes are those from the first on up to the second. -/
structure SyntaxError.PointsInto (e : SyntaxError) (source : String) : Prop where
  start_le_stop : e.start ≤ e.stop
  stop_le : e.stop ≤ source.utf8ByteSize
  start_isValid : String.Pos.Raw.IsValid source ⟨e.start⟩
  stop_isValid : String.Pos.Raw.IsValid source ⟨e.stop⟩
  bytes : source.toByteArray.extract e.start e.stop = e.slice.toByteArray

theorem SyntaxError.Quotes.pointsInto {e : SyntaxError} {source : String}
    (h : e.Quotes 0 source.toList) : e.PointsInto source := by
  obtain ⟨inside, ⟨before, after, hsplit, hstart⟩, hstop, hslice⟩ := h
  have hsource : source = String.ofList before ++ (e.slice ++ String.ofList after) := by
    rw [hslice, ← String.ofList_append, ← String.ofList_append, ← hsplit, String.ofList_toList]
  have hstart : e.start = (String.ofList before).utf8ByteSize := by
    rw [hstart, utf8ByteSize_ofList, Nat.zero_add]
  have hstop : e.stop = (String.ofList before).utf8ByteSize + e.slice.utf8ByteSize := by
    rw [hstop, hstart, hslice, utf8ByteSize_ofList inside]
  constructor
  · omega
  · rw [hsource, String.utf8ByteSize_append, String.utf8ByteSize_append]
    omega
  · rw [String.Pos.Raw.isValid_iff_exists_append]
    exact ⟨_, _, hsource, congrArg String.Pos.Raw.mk hstart⟩
  · rw [String.Pos.Raw.isValid_iff_exists_append]
    refine ⟨String.ofList before ++ e.slice, String.ofList after, ?_, ?_⟩
    · rw [String.append_assoc]
      exact hsource
    · rw [← String.utf8ByteSize_append] at hstop
      exact congrArg String.Pos.Raw.mk hstop
  · rw [hsource, String.toByteArray_append, String.toByteArray_append, hstart, hstop,
      ← String.size_toByteArray, ← String.size_toByteArray]
    conv => lhs; arg 2; rw [← Nat.add_zero (String.ofList before).toByteArray.size]
    rw [ByteArray.extract_append_size_add, ByteArray.extract_append_eq_left rfl]

/-- The fault is that the script which stands at the byte `here` of a source text ends too early. -/
structure SyntaxError.Ends (e : SyntaxError) (source : String) (here : Nat) (text : List Char) :
    Prop where
  /-- Reading this script alone gives the fault. -/
  read : Script.read here text = .error e
  /-- The fault is where the script ends, and it quotes nothing. -/
  position : e.start = here + width text ∧ e.stop = here + width text ∧ e.slice = ""
  /-- There the source text ends as well, or a brace closes the script. -/
  enclosed : (here = 0 ∧ text = source.toList) ∨
    ∃ brace, here = brace + openingBrace.utf8Size ∧
      StandsAt 0 source.toList brace (openingBrace :: text ++ [closingBrace])

/-- Whether a source text is read as a script or as the body of a template, a fault that reading reports
points at the text it quotes, at any depth.  If the fault is that a text ends too early, this is the
text of the whole or of one of the scripts inside templates, and the fault is where it ends. -/
theorem Script.fault_quotes_source (source : String) :
    (∀ e, ofSource source = .error e → e.PointsInto source ∧
      (e.IsEnd → ∃ here text, Within 0 source.toList here text ∧ e.Ends source here text)) ∧
    ∀ e, ofTemplate source = .error e → e.PointsInto source ∧
      (e.IsEnd → ∃ here text, Segment.Within 0 source.toList here text ∧ e.Ends source here text) := by
  constructor
  · intro e h
    have hpoints := points_of_read h
    refine ⟨hpoints.quotes.pointsInto, fun hend => ?_⟩
    obtain ⟨here, text, expected, hwithin, hread, rfl⟩ := hpoints.ends hend
    exact ⟨here, text, hwithin, hread, ⟨rfl, rfl, rfl⟩, hwithin.enclosed⟩
  · intro e h
    have hbody : Segment.readBody 0 source.toList = .error e := by
      cases hread : Segment.readBody 0 source.toList with
      | error e' =>
        rw [ofTemplate, hread] at h
        cases h
        rfl
      | ok segments =>
        rw [ofTemplate, hread] at h
        cases h
    have hpoints := Segment.points_of_readBody (fun _ _ _ => points_of_read) hbody
    refine ⟨hpoints.quotes.pointsInto, fun hend => ?_⟩
    obtain ⟨here, text, expected, hwithin, hread, rfl⟩ := hpoints.ends hend
    exact ⟨here, text, hwithin, hread, ⟨rfl, rfl, rfl⟩, .inr hwithin.enclosed⟩

end Tabletop
