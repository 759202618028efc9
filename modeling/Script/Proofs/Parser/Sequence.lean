import Mathlib.Data.List.Forall2
import Script.Proofs.Parser.Unfinished

/-!
# Programs one after the other

A row of tokens is read the same way when it stands within a longer one: further down in the
source, and before a semicolon instead of the end. `alongside` is the simulation that says so. What
was remembered about the braces of the shorter row corresponds to what is remembered about the same
braces in the longer one. So two programs with a semicolon between them are read as their
statements in a row: `of_tokens_within_append`.
-/

namespace Script

open Grammar Cursor

/-- The tokens before a place and those after it are all tokens. -/
theorem Cursor.OnTrack.index_add_length {tokens : List Token} {c : Cursor}
    (h : OnTrack tokens c) : c.index + c.rest.length = tokens.length := by
  obtain ⟨count, rfl⟩ := h
  induction count with
  | zero => exact Nat.zero_add _
  | succ count ih =>
      rw [skip_tokens_succ]
      by_cases heof : (skipTokens count (Cursor.start tokens)).peek.kind = .eof
      · rw [advance_at_end heof]
        exact ih
      · have hlength := length_advance heof
        rw [advance_eq heof] at hlength ⊢
        dsimp only at hlength ⊢
        omega

namespace Simulation

/-- The same token, a number of lines further down. -/
structure Moved (lines : Nat) (t t' : Token) : Prop where
  kind : t.kind = t'.kind
  text : t.text = t'.text
  line : t'.line = t.line + lines

/-- Where a row stands within a longer one: how many tokens and lines lie before it, and the tokens
of the longer row from where the shorter ends. The longer row may go on with a semicolon there. -/
structure Setting where
  tokens : List Token
  ahead : Nat
  lines : Nat
  next : Token
  more : List Token
  goesOn : Prop

namespace Setting

variable (s : Setting)

/-- What is left of the two rows: tokens in common, then the end of the shorter row and what stands
there in the longer. -/
inductive Rest : List Token → List Token → Prop where
  | stop {last : Token} : last.kind = .eof → Meet (Moved s.lines) s.goesOn last s.next →
      Rest [last] (s.next :: s.more)
  | cons {t t' : Token} {rest rest' : List Token} : Moved s.lines t t' → t.kind ≠ .eof →
      Rest rest rest' → Rest (t :: rest) (t' :: rest')

/-- Places of the two rows. -/
structure Beside (c c' : Cursor) : Prop where
  track : OnTrack s.tokens c
  index : c'.index = c.index + s.ahead
  line (line : Nat) : c.previousLine = some line → c'.previousLine = some (line + s.lines)
  rest : s.Rest c.rest c'.rest

/-- What is remembered of the same brace in both rows, where `n` tokens are left of the shorter. -/
inductive Recalled (n : Nat) : Option (Except ParseError (Expr × Cursor)) →
    Option (Except ParseError (Expr × Cursor)) → Prop where
  | none : Recalled n none none
  | ok {expr : Expr} {d d' : Cursor} : s.Beside d d' → d.rest.length + 1 ≤ n →
      d.previousLine.isSome → Recalled n (some (.ok (expr, d))) (some (.ok (expr, d')))
  | wrong {t t' : Token} (detail : String) (expected : List String) : Moved s.lines t t' →
      Recalled n (some (.error ⟨detail, t.pos, t.stop, expected, t.describe⟩))
        (some (.error ⟨detail, t'.pos, t'.stop, expected, t'.describe⟩))

/-- What is remembered of the shorter row is remembered of the longer. Nothing is remembered of what
follows there. -/
structure Linked (steps : Nat) (M M' : BraceMemo) : Prop where
  faithful : Faithful s.tokens steps M
  recalled {c c' : Cursor} : s.Beside c c' →
    s.Recalled c.rest.length (M.lookup c.index) (M'.lookup c'.index)
  fresh (index : Nat) : s.tokens.length + s.ahead ≤ index → M'.lookup index = none

variable {s} {c c' : Cursor} {rest rest' : List Token} {steps : Nat} {M M' : BraceMemo}

/-- Up to its end, the shorter row corresponds to the longer. -/
theorem Rest.rows (h : s.Rest rest rest') : Rows (Moved s.lines) s.goesOn rest rest' := by
  induction h with
  | stop heof hmeet => exact .stop [] s.more heof hmeet
  | cons hmoved _ _ ih => exact .cons hmoved ih

/-- What follows in the longer row is left over. -/
theorem Rest.length_eq (h : s.Rest rest rest') :
    rest'.length = rest.length + s.more.length := by
  induction h with
  | stop _ _ => simp only [List.length_cons, List.length_nil]; omega
  | cons _ _ _ ih => simp only [List.length_cons, ih]; omega

/-- The end of the shorter row is never passed. -/
theorem Rest.length_pos (h : s.Rest rest rest') : 0 < rest.length := by
  cases h <;> exact Nat.zero_lt_succ _

/-- At the end of the shorter row, the longer goes on. -/
theorem Beside.at_end (h : s.Beside c c') (heof : c.peek.kind = .eof) :
    c'.rest = s.next :: s.more ∧ c.index + 1 = s.tokens.length := by
  have hindex := h.track.index_add_length
  have hrest := h.rest
  obtain ⟨index, line, rest⟩ := c
  obtain ⟨index', line', rest'⟩ := c'
  cases hrest with
  | stop _ _ => exact ⟨rfl, hindex⟩
  | cons _ hkind _ => exact absurd heof hkind

/-- Before the end of the shorter row. -/
theorem Beside.moved (h : s.Beside c c') (heof : c.peek.kind ≠ .eof) :
    Moved s.lines c.peek c'.peek ∧ s.Rest c.rest.tail c'.rest.tail := by
  have hrest := h.rest
  obtain ⟨index, line, rest⟩ := c
  obtain ⟨index', line', rest'⟩ := c'
  cases hrest with
  | stop hkind _ => exact absurd hkind heof
  | cons hmoved _ hrest => exact ⟨hmoved, hrest⟩

/-- Taking a token of both rows. -/
theorem Beside.advance (h : s.Beside c c') (heof : c.peek.kind ≠ .eof) :
    s.Beside c.advance c'.advance := by
  obtain ⟨hmoved, hrest⟩ := h.moved heof
  have heof' : c'.peek.kind ≠ .eof := hmoved.kind ▸ heof
  have htrack := h.track.advance
  rw [advance_eq heof] at htrack ⊢
  rw [advance_eq heof']
  refine ⟨htrack, ?_, ?_, hrest⟩
  · show c'.index + 1 = c.index + 1 + s.ahead
    rw [h.index]
    omega
  · intro line hline
    obtain rfl : c.peek.line = line := Option.some.inj hline
    exact congrArg some hmoved.line

/-- Remembering what the same brace starts in both rows. -/
theorem Linked.remember (h : s.Linked steps M M') (hplace : s.Beside c c')
    {entry entry' : Except ParseError (Expr × Cursor)}
    (hentry : s.Recalled c.rest.length (some entry) (some entry'))
    (hfound : plainBrace steps c = ofEntry entry) :
    s.Linked steps ((c.index, entry) :: M) ((c'.index, entry') :: M') where
  faithful := h.faithful.remember hplace.track entry hfound
  recalled {d d'} hother := by
    by_cases hsame : d.index = c.index
    · obtain rfl := hother.track.eq_of_index_eq hplace.track hsame
      rw [hother.index, hplace.index, List.lookup_cons_self, List.lookup_cons_self]
      exact hentry
    · have hsame' : d'.index ≠ c'.index := by
        rw [hother.index, hplace.index]
        omega
      rw [List.lookup_cons, List.lookup_cons, beq_false_of_ne hsame, beq_false_of_ne hsame']
      exact h.recalled hother
  fresh index hindex := by
    have hlength := hplace.track.index_add_length
    have hpos := hplace.rest.length_pos
    have hne : index ≠ c'.index := by
      rw [hplace.index]
      omega
    rw [List.lookup_cons, beq_false_of_ne hne]
    exact h.fresh index hindex

end Setting

/-- A row within a longer one. The parser of the shorter row may be short of levels. -/
def alongside (s : Setting) (steps : Nat) : Simulation where
  token := Moved s.lines
  place := s.Beside
  memo := s.Linked steps
  kept := Faithful s.tokens steps
  goesOn := s.goesOn
  shallow := True
  kept_of_memo h := h.faithful
  kind_eq h := h.kind
  text_eq h := h.text
  rest h := h.rest.rows
  advance h heof := h.advance heof
  same_line {c c'} h hbegun hopens := by
    have heof : c.peek.kind ≠ .eof := by
      rcases hopens with hopens | hopens <;> rw [hopens] <;> decide
    obtain ⟨line, hline⟩ := Option.isSome_iff_exists.mp hbegun
    have hmoved := (h.moved heof).1
    unfold Cursor.onSameLine
    rw [hline, h.line line hline, hmoved.line]
    show (line == c.peek.line) = (line + s.lines == c.peek.line + s.lines)
    rw [Bool.eq_iff_iff, beq_iff_eq, beq_iff_eq]
    omega
  return_line {c c'} h hword heof := by
    have hopens := kind_ne_eof_of_is_keyword hword
    have hmoved := (h.moved hopens).1
    have hnext := ((h.advance hopens).moved heof).1
    rw [hmoved.line, hnext.line]
    omega

section Alongside

variable {s : Setting} {steps steps' depth n k : Nat} {c c' : Cursor}

/-- Grammars whose deeper parsers do the same on both rows. -/
theorem similar_alongside (hsteps : n < steps) (hsteps' : n < steps')
    (ih : ∀ (nonterminal : Nonterminal) {k : Nat} {c c' : Cursor},
      (alongside s steps).Near n k c c' →
      (alongside s steps).Simulates c c' (parserOf true steps depth nonterminal)
        (parserOf true steps' depth nonterminal) ((alongside s steps).After n (k + 1))) :
    Similar (alongside s steps) n (within true steps depth) (within true steps' depth) where
  parse nonterminal _ _ _ h _ := ih nonterminal h
  lt_steps := hsteps
  lt_steps' := hsteps'
  le_depth := .inl trivial
  le_depth' := .inl (Nat.le_refl depth)
  retry hgoesOn h htried hmemo hrun hfound hmemo₁ := by
    have hbound := h.bound
    obtain ⟨error, M₂, hfound, hmemo₂, hblock⟩ | ⟨M₂, hblock⟩ :=
      block_unfinished h.place.track (by omega) htried hmemo hrun hfound hmemo₁
    · rw [hblock]
      exact .starved hgoesOn hfound hmemo₂
    · rw [hblock]
      exact .tooDeep trivial

/-- The same brace starts the same in both rows, and is remembered alike. -/
theorem braced_alongside (hplace : s.Beside c c') (hbrace : c.peek.kind = .lbrace)
    (hsimilar : Similar (alongside s steps) c.rest.length (within true steps depth)
      (within true steps' depth)) :
    (alongside s steps).Simulates c c' (braced (within true steps depth))
      (braced (within true steps' depth)) ((alongside s steps).After c.rest.length 1) := by
  intro M M' hmemo
  have hnear : (alongside s steps).Near c.rest.length 0 c c' :=
    ⟨hplace, Nat.le_refl _, fun hk => absurd hk (by decide)⟩
  have hplain {result : Except ParseFailure (Expr × Cursor)} {after : BraceMemo}
      (hrun : braceForm (within true steps depth) c M = (result, after)) :=
    plain_brace_of_run hsimilar.lt_steps hplace.track hbrace hmemo.faithful hrun
  have hends := hsimilar.brace_form hnear hbrace M M' hmemo
  have hrecalled := hmemo.recalled hplace
  show (alongside s steps).Ends _ (remembered (braceForm (within true steps depth)) c M)
    (remembered (braceForm (within true steps' depth)) c' M')
  unfold remembered
  generalize M.lookup c.index = found at hrecalled ⊢
  generalize M'.lookup c'.index = found' at hrecalled ⊢
  cases hrecalled with
  | ok hplace hlength hbegun => exact .ok ⟨rfl, hplace, hlength, fun _ => hbegun⟩ hmemo
  | wrong detail expected hmoved => exact .wrong detail expected hmoved hmemo
  | none =>
      dsimp only
      generalize braceForm (within true steps depth) c M = run at hplain hends ⊢
      generalize braceForm (within true steps' depth) c' M' = run' at hends ⊢
      cases hends with
      | ok hresult hmemo₁ =>
          obtain ⟨rfl, hnear⟩ := hresult
          have hfound := (hplain rfl).resolve_right (by simp)
          exact .ok ⟨rfl, hnear⟩ (hmemo₁.remember hplace
            (.ok hnear.place hnear.bound (hnear.begun (Nat.le_refl 1))) hfound)
      | wrong detail expected hmoved hmemo₁ =>
          have hfound := (hplain rfl).resolve_right (by simp)
          exact .wrong detail expected hmoved
            (hmemo₁.remember hplace (.wrong detail expected hmoved) hfound)
      | fails run' hfails =>
          cases hfails with
          | tooDeep hshallow => exact .fails _ (.tooDeep hshallow)
          | starved hgoesOn hdry hkept =>
              have hfound := (hplain rfl).resolve_right (by simp)
              exact .fails _ (.starved hgoesOn hdry (hkept.remember hplace.track _ hfound))

/-- All nonterminals are read the same from both rows. By induction on the levels: the braces that
are remembered were read from fewer tokens. -/
theorem parser_alongside (nonterminal : Nonterminal) (hsteps : n < steps) (hsteps' : n < steps')
    (h : (alongside s steps).Near n k c c') :
    (alongside s steps).Simulates c c' (parserOf true steps depth nonterminal)
      (parserOf true steps' depth nonterminal) ((alongside s steps).After n (k + 1)) := by
  induction depth generalizing nonterminal n k c c' with
  | zero => exact .too_deep trivial _
  | succ depth ih =>
      have hsimilar {m : Nat} (hm : m ≤ n) : Similar (alongside s steps) m
          (within true steps depth) (within true steps' depth) :=
        similar_alongside (by omega) (by omega) fun nonterminal {k c c'} =>
          ih nonterminal (by omega) (by omega)
      have hbraces : SimilarBraces (alongside s steps) n (within true steps depth)
          (within true steps' depth) :=
        { hsimilar (Nat.le_refl n) with
          braced := fun {k c c'} h hbrace => by
            have hbound := h.bound
            refine (braced_alongside h.place hbrace (hsimilar (by omega))).mono ?_
            exact fun _ _ _ _ hafter => ⟨hafter.1, hafter.2.raise (Nat.le_refl 1) h.bound⟩ }
      rw [parser_of_succ, parser_of_succ]
      exact hbraces.rule nonterminal h

end Alongside

end Simulation

/-! ## Statements up to the end of the shorter row -/

namespace Grammar

open Script.Parser

/-- Statements up to the end of the source, after semicolons. -/
def remaining (g : Grammar) (skips items : Nat) (done : List Expr) : Parser (List Expr) := do
  skipKinds [.semi] skips
  itemsUntil [.eof] (separators g) (g.parse .statement) items done

variable {g : Grammar} {c : Cursor} {M : BraceMemo} {skips items : Nat} {done : List Expr}

/-- A program is all that there is. -/
theorem program_eq_remaining (memoise : Bool) (steps depth : Nat) :
    program memoise steps depth = remaining (within memoise steps depth) steps steps [] :=
  rfl

/-- A semicolon is skipped. -/
theorem remaining_semi (h : c.peek.kind = .semi) :
    remaining g (skips + 1) items done c M = remaining g skips items done c.advance M := by
  have hskip : skipKinds [.semi] (skips + 1) c M = skipKinds [.semi] skips c.advance M := by
    show (if [TokenKind.semi].contains c.peek.kind then _ else _ : Parser Unit) c M = _
    rw [h, if_pos (by decide)]
    rfl
  rw [remaining, run_bind, hskip, remaining, run_bind]

/-- At the end of the source, all statements have been read. -/
theorem remaining_end (h : c.peek.kind = .eof) :
    remaining g skips (items + 1) done c M = (.ok (done.reverse, c), M) := by
  rw [remaining, ok_bind (skip_kinds_stays (by rw [h]; decide) skips)]
  exact Simulation.items_until_eof (by decide) _ _ _ _ h M

/-- A statement, and then what remains. -/
theorem remaining_statement (hsemi : c.peek.kind ≠ .semi) (heof : c.peek.kind ≠ .eof) :
    remaining g skips (items + 1) done c M =
      (g.parse .statement >>= fun next => remaining g g.steps items (next :: done)) c M := by
  rw [remaining, ok_bind (skip_kinds_stays (by simpa using hsemi) skips)]
  show (if [TokenKind.eof].contains c.peek.kind then _ else _ : Parser (List Expr)) c M = _
  rw [if_neg (by simpa using heof)]
  rfl

end Grammar

/-- There are more steps than tokens are left, both for semicolons and for statements. -/
structure Cursor.HasRoom (c : Cursor) (skips items : Nat) : Prop where
  skips : c.rest.length < skips
  items : c.rest.length < items

namespace Simulation.Setting

variable {s : Setting} {steps steps' depth : Nat}

/-- The place of the longer row where the shorter ends. -/
structure AtEnd (s : Setting) (c' : Cursor) (M' : BraceMemo) : Prop where
  rest : c'.rest = s.next :: s.more
  index : c'.index + 1 = s.tokens.length + s.ahead
  fresh (index : Nat) : s.tokens.length + s.ahead ≤ index → M'.lookup index = none

/-- A statement of the shorter row is read from the longer row as well. -/
theorem statement_alongside {c c' d : Cursor} {M M' M₁ : BraceMemo} {statement : Expr}
    (hplace : s.Beside c c') (hmemo : s.Linked steps M M') (hsteps : c.rest.length < steps)
    (hsteps' : c'.rest.length < steps')
    (hrun : (within true steps depth).parse .statement c M = (.ok (statement, d), M₁)) :
    ∃ d' M₁', (within true steps' depth).parse .statement c' M' = (.ok (statement, d'), M₁') ∧
      s.Beside d d' ∧ s.Linked steps M₁ M₁' ∧ d.rest.length < c.rest.length := by
  have hlong := hplace.rest.length_eq
  have hends : (alongside s steps).Ends ((alongside s steps).After c.rest.length 1)
      ((within true steps depth).parse .statement c M)
      ((within true steps' depth).parse .statement c' M') :=
    parser_alongside .statement hsteps (by omega)
      ⟨hplace, Nat.le_refl _, fun hk => absurd hk (by decide)⟩ M M' hmemo
  rw [hrun] at hends
  generalize (within true steps' depth).parse .statement c' M' = run' at hends ⊢
  cases hends with
  | fails run' hfails => cases hfails
  | @ok _ _ _ d' _ M₁' hresult hmemo₁ =>
      obtain ⟨rfl, hnear⟩ := hresult
      exact ⟨d', M₁', rfl, hnear.place, hmemo₁, hnear.bound⟩

/-- If the shorter row is a program, its statements are read from the longer row as well, up to
where the shorter ends. By induction on the tokens that are left: a semicolon or a statement is
taken from both rows. -/
theorem remaining_alongside {n skips items skips' items' : Nat} {done program : List Expr}
    (done' : List Expr) {c c' d : Cursor} {M M' M₁ : BraceMemo} (hplace : s.Beside c c')
    (hmemo : s.Linked steps M M') (hlength : c.rest.length ≤ n) (hsteps : c.rest.length < steps)
    (hsteps' : c'.rest.length < steps') (hroom : c.HasRoom skips items)
    (hroom' : c'.HasRoom skips' items')
    (hrun : remaining (within true steps depth) skips items done c M = (.ok (program, d), M₁)) :
    ∃ added e' M₂' skips₂ items₂, program = done.reverse ++ added ∧
      remaining (within true steps' depth) skips' items' done' c' M' =
        remaining (within true steps' depth) skips₂ items₂ (added.reverse ++ done') e' M₂' ∧
      s.AtEnd e' M₂' ∧ e'.HasRoom skips₂ items₂ := by
  induction n generalizing skips items skips' items' done done' c c' M M' with
  | zero =>
      have hpos := hplace.rest.length_pos
      omega
  | succ n ih =>
      obtain ⟨hskips, hitems⟩ := hroom
      obtain ⟨hskips', hitems'⟩ := hroom'
      obtain ⟨skips, rfl⟩ := Nat.exists_eq_add_one.mpr (Nat.zero_lt_of_lt hskips)
      obtain ⟨items, rfl⟩ := Nat.exists_eq_add_one.mpr (Nat.zero_lt_of_lt hitems)
      obtain ⟨skips', rfl⟩ := Nat.exists_eq_add_one.mpr (Nat.zero_lt_of_lt hskips')
      obtain ⟨items', rfl⟩ := Nat.exists_eq_add_one.mpr (Nat.zero_lt_of_lt hitems')
      by_cases heof : c.peek.kind = .eof
      · rw [remaining_end heof] at hrun
        obtain ⟨rfl, -⟩ := Prod.mk.inj (Except.ok.inj (Prod.mk.inj hrun).1)
        obtain ⟨hrest, hindex⟩ := hplace.at_end heof
        refine ⟨[], c', M', skips' + 1, items' + 1, (List.append_nil _).symm, rfl, ?_, hskips',
          hitems'⟩
        refine ⟨hrest, ?_, hmemo.fresh⟩
        rw [hplace.index]
        omega
      have hkind := (hplace.moved heof).1.kind
      by_cases hsemi : c.peek.kind = .semi
      · have hleft := length_advance heof
        have hleft' := length_advance (hkind ▸ heof)
        rw [remaining_semi hsemi] at hrun
        rw [remaining_semi (hkind ▸ hsemi)]
        exact ih done' (hplace.advance heof) hmemo (by omega) (by omega) (by omega)
          ⟨by omega, by omega⟩ ⟨by omega, by omega⟩ hrun
      · rw [remaining_statement hsemi heof] at hrun
        obtain ⟨next, f, M₂, hnext, hrun⟩ := exists_of_bind_ok hrun
        obtain ⟨f', M₂', hnext', hplace₂, hmemo₂, hfewer⟩ :=
          statement_alongside hplace hmemo hsteps hsteps' hnext
        rw [remaining_statement (hkind ▸ hsemi) (hkind ▸ heof), ok_bind hnext']
        have hlong := hplace.rest.length_eq
        have hlong₂ := hplace₂.rest.length_eq
        have hroom : f.HasRoom steps items := ⟨by omega, by omega⟩
        have hroom' : f'.HasRoom steps' items' := ⟨by omega, by omega⟩
        obtain ⟨added, e', M₃', skips₂, items₂, hprogram, hright, hend⟩ :=
          ih (next :: done') hplace₂ hmemo₂ (by omega) hroom.skips hroom'.skips hroom hroom' hrun
        refine ⟨next :: added, e', M₃', skips₂, items₂, ?_, ?_, hend⟩
        · simpa using hprogram
        · rw [List.reverse_cons, List.append_assoc]
          exact hright

/-- Rows with tokens in common up to the end of the shorter. -/
theorem Rest.append {common common' : List Token} {last : Token}
    (h : List.Forall₂ (Moved s.lines) common common') (hkinds : ∀ t ∈ common, t.kind ≠ .eof)
    (hlast : last.kind = .eof) (hmeet : Meet (Moved s.lines) s.goesOn last s.next) :
    s.Rest (common ++ [last]) (common' ++ s.next :: s.more) := by
  induction h with
  | nil => exact .stop hlast hmeet
  | cons hmoved _ ih =>
      obtain ⟨hkind, hkinds⟩ := List.forall_mem_cons.mp hkinds
      exact .cons hmoved hkind (ih hkinds)

/-- Nothing is remembered of the shorter row yet, nor of the same tokens in the longer. -/
theorem Linked.nil {M' : BraceMemo} (h : ∀ index, s.ahead ≤ index → M'.lookup index = none) :
    s.Linked steps [] M' where
  faithful := .nil s.tokens steps
  recalled {c c'} hplace := by
    rw [h c'.index (by rw [hplace.index]; omega)]
    exact .none
  fresh index hindex := h index (by omega)

/-- A row that is a program when it stands alone is read as its statements where it stands within
the longer row. -/
theorem program_alongside {limit skips' items' : Nat} {program : Program} (done' : List Expr)
    {c' : Cursor} {M' : BraceMemo}
    (hread : Program.ofTokensWithin true limit s.tokens = .ok program)
    (hindex : c'.index = s.ahead) (hrest : s.Rest s.tokens c'.rest)
    (hfresh : ∀ index, s.ahead ≤ index → M'.lookup index = none)
    (hsteps' : c'.rest.length < steps') (hroom' : c'.HasRoom skips' items') :
    ∃ e' M₂' skips₂ items₂,
      remaining (within true steps' limit) skips' items' done' c' M' =
        remaining (within true steps' limit) skips₂ items₂ (program.reverse ++ done') e' M₂' ∧
      s.AtEnd e' M₂' ∧ e'.HasRoom skips₂ items₂ := by
  have hplace : s.Beside (Cursor.start s.tokens) c' := by
    refine ⟨.start s.tokens, ?_, ?_, hrest⟩
    · exact hindex.trans (Nat.zero_add s.ahead).symm
    · exact fun _ hline => absurd hline (Option.some_ne_none _).symm
  have hroom : (Cursor.start s.tokens).HasRoom (s.tokens.length + 1) (s.tokens.length + 1) :=
    ⟨Nat.lt_succ_self _, Nat.lt_succ_self _⟩
  rw [Program.of_tokens_within_run, program_eq_remaining] at hread
  generalize hrun : remaining (within true (s.tokens.length + 1) limit) (s.tokens.length + 1)
    (s.tokens.length + 1) [] (Cursor.start s.tokens) [] = run at hread
  obtain ⟨_ | ⟨result, d⟩, M₁⟩ := run
  · cases hread
  · obtain rfl : result = program := Except.ok.inj hread
    obtain ⟨added, e', M₂', skips₂, items₂, rfl, hright, hend⟩ :=
      remaining_alongside done' hplace (.nil hfresh) (Nat.le_refl _) hroom.skips hsteps' hroom
        hroom' hrun
    exact ⟨e', M₂', skips₂, items₂, hright, hend⟩

end Simulation.Setting

namespace Program

open Simulation

/-- Two programs with a semicolon between them, the second any number of lines further down, are
read as the statements of both. -/
theorem of_tokens_within_append {limit lines : Nat} {first second second' : List Token}
    {last semi last₂ last₂' : Token} {program program₂ : Program}
    (hfirst : ∀ t ∈ first, t.kind ≠ .eof) (hlast : last.kind = .eof) (hsemi : semi.kind = .semi)
    (hsecond : ∀ t ∈ second, t.kind ≠ .eof) (hlast₂ : last₂.kind = .eof)
    (hmoved : List.Forall₂ (Moved lines) second second') (hmoved₂ : Moved lines last₂ last₂')
    (hread : ofTokensWithin true limit (first ++ [last]) = .ok program)
    (hread₂ : ofTokensWithin true limit (second ++ [last₂]) = .ok program₂) :
    ofTokensWithin true limit (first ++ semi :: (second' ++ [last₂'])) =
      .ok (program ++ program₂) := by
  -- The first program is followed by the semicolon.
  let before : Setting := ⟨first ++ [last], 0, 0, semi, second' ++ [last₂'], True⟩
  have hbefore : before.Rest (first ++ [last]) (first ++ semi :: (second' ++ [last₂'])) := by
    refine .append ?_ hfirst hlast (.ended trivial hlast hsemi)
    exact List.forall₂_same.2 fun t _ => ⟨rfl, rfl, rfl⟩
  let row := first ++ semi :: (second' ++ [last₂'])
  have hstart : (Cursor.start row).HasRoom (row.length + 1) (row.length + 1) :=
    ⟨Nat.lt_succ_self _, Nat.lt_succ_self _⟩
  obtain ⟨d, M, skips, items, hrun, hend, hroom⟩ :=
    before.program_alongside [] hread (show (Cursor.start row).index = 0 from rfl) hbefore
      (fun _ _ => List.lookup_nil) hstart.skips hstart
  obtain ⟨hskips, hitems⟩ := hroom
  have hkind : d.peek.kind = .semi := by rw [Cursor.peek, hend.rest]; exact hsemi
  have heof : d.peek.kind ≠ .eof := by rw [hkind]; decide
  have hleft := length_advance heof
  obtain ⟨skips, rfl⟩ := Nat.exists_eq_add_one.mpr (Nat.zero_lt_of_lt hskips)
  have hskip := hrun.trans (remaining_semi hkind)
  -- The second program is followed by the end of the source.
  let beyond : Setting := ⟨second ++ [last₂], first.length + 1, lines, last₂', [], False⟩
  have hbeyond : beyond.Rest (second ++ [last₂]) d.advance.rest := by
    rw [advance_eq heof, hend.rest]
    exact .append hmoved hsecond hlast₂ (.same hmoved₂)
  have hahead : beyond.ahead = before.tokens.length + before.ahead := by
    simp [before, beyond]
  have hshort : d.rest.length ≤ row.length := by
    rw [hend.rest]
    simp [before, row]
  have hroom : d.advance.HasRoom skips items := ⟨by omega, by omega⟩
  have hsteps : d.advance.rest.length < row.length + 1 := by omega
  obtain ⟨e, M₂, skips₂, items₂, hrun₂, hend₂, -, hitems₂⟩ :=
    beyond.program_alongside (program.reverse ++ []) hread₂
      (by rw [advance_eq heof, hahead]; exact hend.index) hbeyond
      (fun index hle => hend.fresh index (hahead ▸ hle)) hsteps hroom
  obtain ⟨items₂, rfl⟩ := Nat.exists_eq_add_one.mpr (Nat.zero_lt_of_lt hitems₂)
  have hlastKind : e.peek.kind = .eof := by
    rw [Cursor.peek, hend₂.rest]
    exact hmoved₂.kind ▸ hlast₂
  have hall := (hskip.trans hrun₂).trans (remaining_end hlastKind)
  rw [of_tokens_within_run, program_eq_remaining, hall]
  simp [Except.map]

end Program

end Script
