import Tabletop.Proofs.Script.Continuation

/-!
# What a fault expects

Some faults say which kinds of token could stand where something else stands or where the text ends.  Such a
fault is where its script stops being the beginning of one: the tokens before it can go on, each of the
kinds that are listed can be next, and the tokens up to and including the one at fault begin no script.  If
it is the end that is at fault, the tokens are no script as they are.

This holds at any depth.  A script inside a template is read on its own, so its faults are where it stops by
itself, whatever stands around it.
-/

namespace Tabletop

open Text

namespace SyntaxError

/-- The kinds of token that a fault says could have stood where it is. -/
def expected? (e : SyntaxError) : Option (List TokenKind) :=
  match e.cause with
  | .unexpectedToken _ expected => some expected
  | .unexpectedText expected => some expected
  | _ => none

theorem eq_of_expected?_unexpected {t : Token} {kinds expected : List TokenKind}
    (h : (unexpected t kinds).expected? = some expected) : kinds = expected := by
  obtain ⟨kind, text, start⟩ := t
  cases kind with
  | unclosedString | unclosedTemplate => cases h
  | _ => exact Option.some.inj h

/-- In a script that stands at a byte, the tokens `before` can go on and each of the kinds that are expected
can be next, but the token that follows cannot, or there is none and they are no script. -/
structure StopsBehind (e : SyntaxError) (expected : List TokenKind) (here : Nat) (text : List Char)
    (before : List Token) : Prop where
  /-- Reading this script alone gives the fault. -/
  read : Script.read here text = .error e
  /-- The tokens before are the beginning of a script. -/
  begins : Script.Begins (before.map Token.bare)
  /-- A token of each kind that is expected is the next one of a script. -/
  next : ∀ kind ∈ expected, ∃ spelling, Script.Begins (before.map Token.bare ++ [(kind, spelling)])
  /-- The fault is the token behind them, with which no script goes on, or the end. -/
  stops :
    (∃ t after, Token.scan here text = before ++ t :: after ∧ e = .unexpected t expected ∧
      ¬Script.Begins (before.map Token.bare ++ [t.bare])) ∨
    (Token.scan here text = before ∧ e = .atEnd (here + width text) expected ∧
      ¬Script.IsWhole (before.map Token.bare))

/-- A fault that lists kinds of token stops one of the scripts `within`. -/
def Stops (e : SyntaxError) (within : Nat → List Char → Prop) : Prop :=
  ∀ expected, e.expected? = some expected →
    ∃ here text, within here text ∧ ∃ before, e.StopsBehind expected here text before

end SyntaxError

/-! ## Where reading stops -/

namespace Pending

/-- If tokens are not read, there is a first one that is not.  The induction is on the tokens. -/
theorem exists_of_run_eq_error {p : Pending} {ts : List Token} {e : SyntaxError}
    (h : p.run ts = .error e) :
    ∃ before t after q, ts = before ++ t :: after ∧ p.run before = .ok q ∧
      q.read (.ofToken t) = .error e := by
  induction ts generalizing p with
  | nil => cases h
  | cons t ts ih =>
    cases hread : p.read (.ofToken t) with
    | error e' =>
      rw [run, List.map_cons, List.foldlM_cons, hread] at h
      cases h
      exact ⟨[], t, ts, p, rfl, rfl, hread⟩
    | ok next =>
      rw [run_cons ts hread] at h
      obtain ⟨before, u, after, q, rfl, hrun, hfault⟩ := ih h
      exact ⟨t :: before, u, after, q, rfl, (run_cons before hread).trans hrun, hfault⟩

end Pending

section

variable {start : Nat} {source : List Char} {e : SyntaxError} {before : List Token} {p : Pending}

/-- The tokens that have been read are the beginning of a script, and so they are with any token of a kind
that is expected. -/
theorem Script.begins_and_next (halone : ∀ t ∈ before, t.Alone)
    (hrun : Pending.start.run before = .ok p) :
    Begins (before.map Token.bare) ∧
      ∀ kind ∈ p.expected, ∃ spelling, Begins (before.map Token.bare ++ [(kind, spelling)]) := by
  refine ⟨begins_of_run halone hrun, fun kind hkind => ⟨kind.sample, ?_⟩⟩
  obtain ⟨q, hread⟩ := p.exists_read_of_mem_expected hkind
  have hsample := Token.alone_sample (Pending.isProper_of_read hread)
  have hboth : Pending.start.run (before ++ [.sample kind]) = .ok q := by
    rw [Pending.run_append _ hrun, Pending.run_cons _ hread]
    rfl
  have hbegins := begins_of_run
    (List.forall_mem_append.2 ⟨halone, List.forall_mem_singleton.2 hsample⟩) hboth
  rwa [List.map_append] at hbegins

theorem SyntaxError.stopsBehind_token {t : Token} {after : List Token}
    (hfault : Script.read start source = .error (.unexpected t p.expected))
    (hscan : Token.scan start source = before ++ t :: after)
    (hrun : Pending.start.run before = .ok p)
    (hread : p.read (.ofToken t) = .error (.unexpected t p.expected)) :
    (unexpected t p.expected).StopsBehind p.expected start source before := by
  have hproper := Pending.isProper_of_run hrun
  have halone : ∀ u ∈ before, u.Alone := fun u hu =>
    Token.alone_of_mem_scan (hscan ▸ List.mem_append_left _ hu) (hproper u hu)
  obtain ⟨hbegins, hnext⟩ := Script.begins_and_next halone hrun
  have hstop : Pending.start.run (before ++ [t]) = .error (.unexpected t p.expected) := by
    rw [Pending.run_append _ hrun, Pending.run, List.map_singleton, List.foldlM_cons, hread]
    rfl
  have hnever := Script.not_begins_of_run hstop
  rw [List.map_append] at hnever
  exact ⟨hfault, hbegins, hnext, .inl ⟨t, after, hscan, rfl, hnever⟩⟩

theorem SyntaxError.stopsBehind_end (hrun : Pending.start.run (Token.scan start source) = .ok p)
    (hfault : Script.read start source = .error (.atEnd (start + width source) p.expected)) :
    (atEnd (start + width source) p.expected).StopsBehind p.expected start source
      (Token.scan start source) := by
  have hproper := Pending.isProper_of_run hrun
  have halone : ∀ u ∈ Token.scan start source, u.Alone := fun u hu =>
    Token.alone_of_mem_scan hu (hproper u hu)
  obtain ⟨hbegins, hnext⟩ := Script.begins_and_next halone hrun
  have hnone : Script.ofTokens? (Token.scan start source) = none := by
    rw [← Script.toOption_read, hfault]
    rfl
  exact ⟨hfault, hbegins, hnext, .inr ⟨rfl, rfl, Script.not_isWhole_of_ofTokens? hnone⟩⟩

end

/-! ## Faults inside templates -/

theorem Piece.fault_notMem_ofText {cs : List Char} {why : SyntaxError} : fault why ∉ ofText cs := by
  unfold ofText
  split <;> simp

/-- The faults at which cutting stops list no kinds of token. -/
theorem Piece.expected?_of_fault_mem_ofBody {start : Nat} {body : List Char} {why : SyntaxError}
    (h : fault why ∈ ofBody start body) : why.expected? = none := by
  induction body using bodyInduction generalizing start with
  | text cs hcs =>
    rw [ofBody_of_noBrace hcs] at h
    exact absurd h fault_notMem_ofText
  | unclosed cs rest hcs hcut =>
    rw [ofBody_append_brace rest hcs, hcut] at h
    rcases List.mem_append.1 h with h | h
    · exact absurd h fault_notMem_ofText
    · cases List.mem_singleton.1 h
      rfl
  | code cs inner rest hcs hcut ih =>
    rw [ofBody_append_brace _ hcs, hcut] at h
    rcases List.mem_append.1 h with h | h
    · exact absurd h fault_notMem_ofText
    · rcases List.mem_cons.1 h with h | h
      · unfold ofInner at h
        split at h <;> cases h
        rfl
      · exact ih h

/-- The faults in the body of a template stop the scripts in it. -/
theorem Segment.stops_of_readBody {start : Nat} {body : List Char} {e : SyntaxError}
    (hscripts : ∀ here inner, .code here inner ∈ Piece.ofBody start body →
      Script.read here inner = .error e → e.Stops (Script.Within here inner))
    (h : readBody start body = .error e) : e.Stops (Within start body) := by
  intro expected hexpected
  obtain ⟨piece, hpiece, hfault⟩ := exists_of_mapM_eq_error h
  cases piece with
  | text => cases hfault
  | fault why =>
    cases hfault
    rw [Piece.expected?_of_fault_mem_ofBody hpiece] at hexpected
    cases hexpected
  | code here inner =>
    have hread : Script.read here inner = .error e := map_eq_error_iff.1 hfault
    obtain ⟨place, text, hwithin, hstops⟩ := hscripts here inner hpiece hread expected hexpected
    exact ⟨place, text, ⟨here, inner, hpiece, hwithin⟩, hstops⟩

/-- The faults in a script stop it or one of the scripts in its templates.  The induction is on how deep
scripts are inside one another. -/
theorem Script.stops_of_read {start : Nat} {source : List Char} {e : SyntaxError}
    (h : read start source = .error e) : e.Stops (Within start source) := by
  induction start, source using insideInduction with
  | inside start source ih =>
    intro expected hexpected
    have hread := h
    rw [read_eq] at h
    change (Pending.start.run (Token.scan start source) >>= _) = _ at h
    cases hrun : Pending.start.run (Token.scan start source) with
    | ok p =>
      rw [hrun] at h
      have hfinish : p.finish (start + width source) = .error e := h
      obtain rfl := Pending.finish_error hfinish
      obtain rfl : p.expected = expected := Option.some.inj hexpected
      exact ⟨start, source, .self, _, SyntaxError.stopsBehind_end hrun hread⟩
    | error e' =>
      rw [hrun] at h
      cases h
      obtain ⟨before, t, after, p, hscan, hbefore, hfault⟩ := Pending.exists_of_run_eq_error hrun
      have ht : t ∈ Token.scan start source := hscan ▸ List.mem_append_right _ List.mem_cons_self
      generalize hword : Word.ofToken t = w at hfault
      cases Pending.read_error hfault with
      | own hcause => cases hcause <;> cases hexpected
      | unexpected =>
        subst hword
        obtain rfl := SyntaxError.eq_of_expected?_unexpected hexpected
        exact ⟨start, source, .self, before, SyntaxError.stopsBehind_token hread hscan hbefore hfault⟩
      | inside hkind hsegments =>
        subst hword
        obtain ⟨place, text, ⟨here, inner, hcode, hwithin⟩, hstops⟩ :=
          Segment.stops_of_readBody (ih t ht) hsegments expected hexpected
        exact ⟨place, text, .template ht hkind hcode hwithin, hstops⟩

/-! ## Faults in a source text -/

/-- Whether a source text is read as a script or as the body of a template, a fault that lists kinds of token
is in a script, the text itself or one inside a template, and there it is at the first token with which no
script goes on.  The tokens before it are the beginning of a script, no script begins with them and the
token at fault, and for each kind that is listed a script begins with them and a token of this kind.  If it is
the end of the script that is at fault, its tokens are not all the tokens of a script. -/
theorem Script.fault_stops_script (source : String) :
    (∀ e, ofSource source = .error e → e.Stops (Within 0 source.toList)) ∧
    ∀ e, ofTemplate source = .error e → e.Stops (Segment.Within 0 source.toList) := by
  refine ⟨fun e h => stops_of_read h, fun e h => ?_⟩
  exact Segment.stops_of_readBody (fun _ _ _ => stops_of_read) (map_eq_error_iff.1 h)

end Tabletop
