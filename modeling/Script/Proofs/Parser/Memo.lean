import Script.Proofs.Parser.Rules

/-!
# What is remembered about braces changes nothing

Reading a brace is tried more than once and at different depths, and what it turned out to be is
remembered by its place. The invariant `Faithful` says that every remembered entry is what the
parser without a memory finds at that place. It is kept by all rules, and a parser that may
descend as deeply as there are tokens never fails for want of levels. So remembering braces, and
any limit on the depth beyond the number of tokens, change no result: `of_tokens_within_eq`.
-/

namespace Script

namespace Grammar

/-- The grammar of the parsers that may descend a given number of levels. -/
def within (memoise : Bool) (steps depth : Nat) : Grammar :=
  ⟨parserOf memoise steps depth, depth, steps, memoise⟩

/-- One level of descent is one use of a rule. -/
theorem parser_of_succ (memoise : Bool) (steps depth : Nat) (nonterminal : Nonterminal) :
    parserOf memoise steps (depth + 1) nonterminal =
      rule (within memoise steps depth) nonterminal :=
  rfl

/-- What an opening brace starts, as found without a memory by a parser that may descend as
deeply as tokens are left. -/
def plainBrace (steps : Nat) (cursor : Cursor) : Except ParseFailure (Expr × Cursor) :=
  (braceForm (within false steps cursor.rest.length) cursor []).1

/-- What an opening brace starts, as it is remembered. -/
def ofEntry : Except ParseError (Expr × Cursor) → Except ParseFailure (Expr × Cursor)
  | .ok found => .ok found
  | .error error => .error (.wrong error)

end Grammar

namespace Cursor

open Grammar

/-- The place is reached by taking tokens one after the other. -/
def OnTrack (tokens : List Token) (cursor : Cursor) : Prop :=
  ∃ count, cursor = skipTokens count (start tokens)

/-- The first place is on track. -/
theorem OnTrack.start (tokens : List Token) : OnTrack tokens (start tokens) :=
  ⟨0, rfl⟩

/-- Taking tokens one by one from the front is taking the last of them last. -/
theorem skip_tokens_succ (count : Nat) (cursor : Cursor) :
    skipTokens (count + 1) cursor = (skipTokens count cursor).advance := by
  induction count generalizing cursor with
  | zero => rfl
  | succ count ih => exact ih cursor.advance

/-- The next place is on track. -/
theorem OnTrack.advance {tokens : List Token} {cursor : Cursor} (h : OnTrack tokens cursor) :
    OnTrack tokens cursor.advance := by
  obtain ⟨count, rfl⟩ := h
  exact ⟨count + 1, (skip_tokens_succ count _).symm⟩

/-- Advancing stays at the end of the source or goes on by one. -/
theorem advance_cases (cursor : Cursor) :
    cursor.advance = cursor ∨ cursor.advance.index = cursor.index + 1 := by
  by_cases h : cursor.peek.kind = .eof
  · exact .inl (advance_at_end h)
  · exact .inr (by rw [advance_eq h])

/-- Places only get later. -/
theorem index_le_skip_tokens (count : Nat) (cursor : Cursor) :
    cursor.index ≤ (skipTokens count cursor).index := by
  induction count generalizing cursor with
  | zero => exact Nat.le_refl _
  | succ count ih =>
      have hnext := ih cursor.advance
      rcases cursor.advance_cases with h | h
      · rw [h] at hnext
        simpa only [skipTokens, h] using hnext
      · rw [h] at hnext
        exact Nat.le_trans (Nat.le_succ _) hnext

/-- A later place with the same number is the same place. -/
theorem skip_tokens_eq_self {count : Nat} {cursor : Cursor}
    (h : (skipTokens count cursor).index = cursor.index) : skipTokens count cursor = cursor := by
  induction count with
  | zero => rfl
  | succ count ih =>
      rw [skip_tokens_succ] at h ⊢
      have hle := index_le_skip_tokens count cursor
      rcases (skipTokens count cursor).advance_cases with hstay | hmove
      · rw [hstay] at h ⊢
        exact ih h
      · omega

/-- Taking tokens in two goes. -/
theorem skip_tokens_add (first second : Nat) (cursor : Cursor) :
    skipTokens (first + second) cursor = skipTokens second (skipTokens first cursor) := by
  induction second with
  | zero => rfl
  | succ second ih => rw [← Nat.add_assoc, skip_tokens_succ, skip_tokens_succ, ih]

/-- The number of a place determines it. -/
theorem OnTrack.eq_of_index_eq {tokens : List Token} {cursor other : Cursor}
    (h : OnTrack tokens cursor) (hother : OnTrack tokens other)
    (hindex : cursor.index = other.index) : cursor = other := by
  -- One of the places is reached from the other, and no token lies between them.
  obtain ⟨first, rfl⟩ := h
  obtain ⟨second, rfl⟩ := hother
  rcases Nat.le_total first second with hle | hle
  · obtain ⟨more, rfl⟩ := Nat.exists_eq_add_of_le hle
    rw [skip_tokens_add] at hindex ⊢
    exact (skip_tokens_eq_self hindex.symm).symm
  · obtain ⟨more, rfl⟩ := Nat.exists_eq_add_of_le hle
    rw [skip_tokens_add] at hindex ⊢
    exact skip_tokens_eq_self hindex

end Cursor

open Grammar Cursor

/-- Every remembered entry is what is found at its place without a memory. -/
def Faithful (tokens : List Token) (steps : Nat) (memo : BraceMemo) : Prop :=
  ∀ index entry, memo.lookup index = some entry → ∀ cursor, OnTrack tokens cursor →
    cursor.index = index → cursor.peek.kind = .lbrace → plainBrace steps cursor = ofEntry entry

/-- A memory without entries. -/
theorem Faithful.nil (tokens : List Token) (steps : Nat) : Faithful tokens steps [] := by
  intro _ _ hfound
  simp at hfound

/-- Remembering what is found without a memory keeps a memory faithful. -/
theorem Faithful.remember {tokens : List Token} {steps : Nat} {memo : BraceMemo}
    {cursor : Cursor} (hmemo : Faithful tokens steps memo) (htrack : OnTrack tokens cursor)
    (entry : Except ParseError (Expr × Cursor))
    (hentry : plainBrace steps cursor = ofEntry entry) :
    Faithful tokens steps ((cursor.index, entry) :: memo) := by
  intro index found hfound other hother hindex hbrace
  by_cases hsame : index = cursor.index
  · obtain rfl := hother.eq_of_index_eq htrack (hindex.trans hsame)
    rw [hsame, List.lookup_cons_self, Option.some.injEq] at hfound
    rw [← hfound, hentry]
  · rw [List.lookup_cons, beq_false_of_ne hsame] at hfound
    exact hmemo index found hfound other hother hindex hbrace

namespace Simulation

/-- The parser that may remember braces and the one that does not, on the same tokens. The first
may be short of levels. -/
def overTokens (tokens : List Token) (steps : Nat) (shallow : Prop) : Simulation where
  token t t' := t = t'
  place c c' := c = c' ∧ OnTrack tokens c
  memo M M' := Faithful tokens steps M ∧ M' = []
  kept := Faithful tokens steps
  goesOn := False
  shallow := shallow
  kept_of_memo h := h.1
  kind_eq h := by rw [h]
  text_eq h := by rw [h]
  rest := by
    rintro c _ ⟨rfl, -⟩
    exact Rows.refl (fun _ => rfl) c.rest
  advance h _ := ⟨by rw [h.1], h.2.advance⟩
  same_line h _ _ := by rw [h.1]
  return_line h _ _ := by rw [h.1]

variable {tokens : List Token} {steps n k : Nat} {shallow : Prop} {c : Cursor}

/-- The first place of a run over the same tokens. -/
theorem near_over_tokens (htrack : OnTrack tokens c) :
    (overTokens tokens steps shallow).Near c.rest.length 0 c c :=
  ⟨⟨rfl, htrack⟩, Nat.le_refl _, fun hk => absurd hk (by decide)⟩

/-- On the same tokens, ending alike is ending in the same way, unless there are too few levels. -/
theorem Ends.over_tokens {α : Type} {run run' : Except ParseFailure (α × Cursor) × BraceMemo}
    (h : (overTokens tokens steps shallow).Ends ((overTokens tokens steps shallow).After n k)
      run run') :
    (∃ after, run = (run'.1, after) ∧ Faithful tokens steps after ∧ run'.2 = []) ∨
      shallow ∧ ∃ after, run = (.error .tooDeep, after) := by
  cases h with
  | ok hresult hmemo => exact .inl ⟨_, by rw [hresult.1, hresult.2.place.1], hmemo⟩
  | wrong detail expected htoken hmemo => exact .inl ⟨_, by rw [htoken], hmemo⟩
  | fails run' hfails =>
      cases hfails with
      | starved hgoesOn _ _ => exact hgoesOn.elim
      | tooDeep hshallow => exact .inr ⟨hshallow, _, rfl⟩

/-- Runs over the same tokens that do not want levels end alike in every simulation of a row with
itself, whatever is remembered on the two sides. -/
theorem Ends.with_memo {α : Type} {run run' : Except ParseFailure (α × Cursor) × BraceMemo}
    {S : Simulation} (hsame : ∀ t, S.token t t) (hplace : ∀ c, OnTrack tokens c → S.place c c)
    {M M' : BraceMemo} (hmemo : S.memo M M') (h : (overTokens tokens steps False).Ends
      ((overTokens tokens steps False).After n k) run run') :
    S.Ends (S.After n k) (run.1, M) (run'.1, M') := by
  cases h with
  | ok hresult _ =>
      obtain ⟨heq, ⟨rfl, htrack⟩, hbound, hbegun⟩ := hresult
      exact .ok ⟨heq, hplace _ htrack, hbound, hbegun⟩ hmemo
  | wrong detail expected htoken _ =>
      obtain rfl : _ = _ := htoken
      exact .wrong detail expected (hsame _) hmemo
  | fails run' hfails =>
      cases hfails with
      | starved hgoesOn _ _ => exact hgoesOn.elim
      | tooDeep hshallow => exact hshallow.elim

/-- The parsers of all nonterminals, on at most `n` tokens. -/
def UpTo (tokens : List Token) (steps n : Nat) : Prop :=
  ∀ (shallow : Prop) (c : Cursor) (nonterminal : Nonterminal) (memoise : Bool)
    (depth depth' : Nat), OnTrack tokens c → c.rest.length ≤ n → shallow ∨ n < depth →
    n < depth' →
    (overTokens tokens steps shallow).Simulates c c (parserOf memoise steps depth nonterminal)
      (parserOf false steps depth' nonterminal) ((overTokens tokens steps shallow).After n 1)

/-- A bound on what is left that is met exactly may be replaced by a larger one. -/
theorem Near.raise {S : Simulation} {m j : Nat} {c c' : Cursor} (h : S.Near m j c c')
    (hj : 1 ≤ j) (hle : m + k ≤ n) : S.Near n (k + j) c c' :=
  ⟨h.place, by have := h.bound; omega, fun _ => h.begun hj⟩

/-- Grammars whose deeper parsers do the same on fewer tokens. -/
theorem similar_within (ih : ∀ m < n, UpTo tokens steps m) (hsteps : n < steps) (memoise : Bool)
    {depth depth' : Nat} (hdepth : shallow ∨ n ≤ depth) (hdepth' : n ≤ depth') :
    Similar (overTokens tokens steps shallow) n (within memoise steps depth)
      (within false steps depth') where
  lt_steps := hsteps
  lt_steps' := hsteps
  le_depth := hdepth
  le_depth' := .inr hdepth'
  parse nonterminal k c c' h hk := by
    obtain ⟨⟨rfl, htrack⟩, hbound⟩ := h
    have hsmall := ih (n - k) (by omega) shallow c nonterminal memoise depth depth' htrack
      (by omega) (hdepth.imp_right fun hle => by omega) (by omega)
    exact hsmall.mono fun _ _ _ _ hafter =>
      ⟨hafter.1, hafter.2.raise (Nat.le_refl 1) (by omega)⟩
  -- Neither row goes on where the other ends.
  retry hgoesOn := hgoesOn.elim

section Brace

variable (ih : ∀ m < c.rest.length, UpTo tokens steps m) (hsteps : c.rest.length < steps)
  (htrack : OnTrack tokens c) (hbrace : c.peek.kind = .lbrace) {depth : Nat}
include ih hsteps htrack hbrace

/-- Without a memory, the number of levels below does not matter, and there is no want of them. -/
theorem plain_brace_run (hdepth : c.rest.length ≤ depth) :
    braceForm (within false steps depth) c [] = (plainBrace steps c, []) ∧
      (overTokens tokens steps False).Ends ((overTokens tokens steps False).After c.rest.length 1)
        (plainBrace steps c, []) (plainBrace steps c, []) := by
  have hends {depth : Nat} (hdepth : c.rest.length ≤ depth) :
      (overTokens tokens steps False).Ends ((overTokens tokens steps False).After c.rest.length 1)
        (braceForm (within false steps c.rest.length) c [])
        (braceForm (within false steps depth) c []) :=
    (similar_within ih hsteps false (.inr (Nat.le_refl _)) hdepth).brace_form
      (near_over_tokens htrack) hbrace [] [] ⟨Faithful.nil tokens steps, rfl⟩
  have hplain : braceForm (within false steps c.rest.length) c [] = (plainBrace steps c, []) := by
    obtain ⟨-, -, -, hmemo⟩ | ⟨hshallow, -⟩ := (hends (Nat.le_refl _)).over_tokens
    · exact Prod.ext rfl hmemo
    · exact hshallow.elim
  obtain ⟨after, hrun, -, hmemo⟩ | ⟨hshallow, -⟩ := (hends hdepth).over_tokens
  · rw [hplain, Prod.mk.injEq] at hrun
    exact ⟨Prod.ext hrun.1.symm hmemo, hplain ▸ hends (Nat.le_refl _)⟩
  · exact hshallow.elim

/-- With a faithful memory, reading a brace afresh finds what is found without one, and the memory
stays faithful, unless there are too few levels. -/
theorem brace_form_run (hdepth : shallow ∨ c.rest.length ≤ depth) (memoise : Bool)
    {memo : BraceMemo} (hmemo : Faithful tokens steps memo) :
    (∃ after, braceForm (within memoise steps depth) c memo = (plainBrace steps c, after) ∧
        Faithful tokens steps after) ∨
      shallow ∧ ∃ after,
        braceForm (within memoise steps depth) c memo = (.error .tooDeep, after) := by
  have hgrammars := similar_within ih hsteps memoise hdepth (Nat.le_refl _)
  have hends := hgrammars.brace_form (near_over_tokens htrack) hbrace memo [] ⟨hmemo, rfl⟩
  refine hends.over_tokens.imp_left ?_
  rintro ⟨after, hrun, hafter, -⟩
  exact ⟨after, hrun, hafter⟩

/-- With a faithful memory, a brace is found to start what it does without one, and the memory
stays faithful, unless there are too few levels. -/
theorem braced_run (hdepth : shallow ∨ c.rest.length ≤ depth) (memoise : Bool)
    {memo : BraceMemo} (hmemo : Faithful tokens steps memo) :
    (∃ after, braced (within memoise steps depth) c memo = (plainBrace steps c, after) ∧
        Faithful tokens steps after) ∨
      shallow ∧ ∃ after, braced (within memoise steps depth) c memo = (.error .tooDeep, after) := by
  have hform := brace_form_run ih hsteps htrack hbrace hdepth memoise hmemo
  cases memoise with
  | false => exact hform
  | true =>
      show (∃ after, remembered (braceForm (within true steps depth)) c memo = _ ∧ _) ∨
        shallow ∧ ∃ after, remembered (braceForm (within true steps depth)) c memo = _
      cases hlookup : memo.lookup c.index with
      | some entry =>
          -- The entry is what reading afresh would find, so nothing need be said of that run.
          have hentry := hmemo c.index entry hlookup c htrack rfl hbrace
          refine .inl ⟨memo, ?_, hmemo⟩
          rw [hentry]
          cases entry <;> simp only [remembered, hlookup, ofEntry]
      | none =>
          simp only [remembered, hlookup]
          obtain ⟨after, hrun, hafter⟩ | ⟨hshallow, after, hrun⟩ := hform
          · rw [hrun]
            cases hfound : plainBrace steps c with
            | ok found =>
                exact .inl ⟨_, rfl, Faithful.remember hafter htrack (.ok found) hfound⟩
            | error failure =>
                cases failure with
                -- Running out of levels would not be remembered.
                | tooDeep => exact .inl ⟨after, rfl, hafter⟩
                | wrong error =>
                    exact .inl ⟨_, rfl, Faithful.remember hafter htrack (.error error) hfound⟩
          · rw [hrun]
            exact .inr ⟨hshallow, after, rfl⟩

end Brace

/-- Grammars in which braces start the same as well. -/
theorem similar_braces_within (ih : ∀ m < n, UpTo tokens steps m) (hsteps : n < steps)
    (memoise : Bool) {depth depth' : Nat} (hdepth : shallow ∨ n ≤ depth) (hdepth' : n ≤ depth') :
    SimilarBraces (overTokens tokens steps shallow) n (within memoise steps depth)
      (within false steps depth') where
  toSimilar := similar_within ih hsteps memoise hdepth hdepth'
  braced {k c c'} h hbrace := by
    obtain ⟨⟨rfl, htrack⟩, hbound⟩ := h
    rintro M _ ⟨hmemo, rfl⟩
    have hfewer : ∀ m < c.rest.length, UpTo tokens steps m := fun m hm => ih m (by omega)
    obtain ⟨hplain, hends⟩ :=
      plain_brace_run hfewer (by omega) htrack hbrace (show _ ≤ depth' by omega)
    rw [show braced (within false steps depth') c [] = _ from hplain]
    obtain ⟨after, hrun, hafter⟩ | ⟨hshallow, after, hrun⟩ := braced_run hfewer (by omega) htrack
      hbrace (hdepth.imp_right fun hle => show _ ≤ depth by omega) memoise hmemo
    · rw [hrun]
      have hsame := hends.with_memo (S := overTokens tokens steps shallow) (fun _ => rfl)
        (fun _ htrack => ⟨rfl, htrack⟩) ⟨hafter, rfl⟩
      exact hsame.mono fun _ _ _ _ hresult => ⟨hresult.1, hresult.2.raise (Nat.le_refl 1) hbound⟩
    · rw [hrun]
      exact .fails _ (.tooDeep hshallow)

/-- The parsers of all nonterminals do the same on any number of tokens. By induction on the
number of tokens left: whatever is read one level deeper is read from fewer tokens. -/
theorem up_to (hsteps : n < steps) : UpTo tokens steps n := by
  induction n using Nat.strongRecOn with
  | ind n ih =>
      intro shallow c nonterminal memoise depth depth' htrack hlength hdepth hdepth'
      obtain ⟨depth', rfl⟩ := Nat.exists_eq_add_one.mpr (show 0 < depth' by omega)
      cases depth with
      | zero =>
          obtain hshallow | hdepth := hdepth
          · exact .too_deep hshallow _
          · omega
      | succ depth =>
          rw [parser_of_succ, parser_of_succ]
          have hgrammars := similar_braces_within (fun m hm => ih m hm (by omega)) hsteps memoise
            (hdepth.imp_right fun hlt => show n ≤ depth by omega) (show n ≤ depth' by omega)
          exact hgrammars.rule nonterminal
            ⟨⟨rfl, htrack⟩, hlength, fun hk => absurd hk (by decide)⟩

/-- A parser with any number of levels and a faithful memory finds what is found without a memory
and without a limit, and the memory stays faithful, unless there are too few levels. -/
theorem parser_of_run (hsteps : c.rest.length < steps) (htrack : OnTrack tokens c)
    (memoise : Bool) (depth : Nat) (nonterminal : Nonterminal) {memo : BraceMemo}
    (hmemo : Faithful tokens steps memo) :
    (∃ after, parserOf memoise steps depth nonterminal c memo =
        ((parserOf false steps (c.rest.length + 1) nonterminal c []).1, after) ∧
          Faithful tokens steps after) ∨
      ∃ after, parserOf memoise steps depth nonterminal c memo = (.error .tooDeep, after) := by
  have hends := up_to hsteps True c nonterminal memoise depth (c.rest.length + 1) htrack
    (Nat.le_refl _) (.inl trivial) (Nat.lt_succ_self _) memo [] ⟨hmemo, rfl⟩
  refine hends.over_tokens.imp ?_ And.right
  rintro ⟨after, hrun, hafter, -⟩
  exact ⟨after, hrun, hafter⟩

/-- With any number of levels and a faithful memory, reading a brace afresh finds what is found
without a memory and without a limit, unless there are too few levels. -/
theorem plain_brace_of_run (hsteps : c.rest.length < steps) (htrack : OnTrack tokens c)
    (hbrace : c.peek.kind = .lbrace) {memoise : Bool} {depth : Nat} {memo after : BraceMemo}
    (hmemo : Faithful tokens steps memo) {result : Except ParseFailure (Expr × Cursor)}
    (hrun : braceForm (within memoise steps depth) c memo = (result, after)) :
    plainBrace steps c = result ∨ result = .error .tooDeep := by
  have hdepth : True ∨ c.rest.length ≤ depth := .inl trivial
  obtain ⟨_, hfound, -⟩ | ⟨-, _, hdeep⟩ := brace_form_run
    (fun m hm => up_to (Nat.lt_trans hm hsteps)) hsteps htrack hbrace hdepth memoise hmemo
  · exact .inl (congrArg Prod.fst (hfound.symm.trans hrun))
  · exact .inr (congrArg Prod.fst (hrun.symm.trans hdeep))

/-- Whole programs, if neither row goes on where the other ends. -/
theorem Similar.program {S : Simulation} {memoise memoise' : Bool} {steps' depth depth' : Nat}
    {c c' : Cursor} (hg : Similar S n (within memoise steps depth) (within memoise' steps' depth'))
    (hstops : ¬ S.goesOn) (h : S.Near n 0 c c')
    (hstatement : ∀ j d d', S.Near n j d d' →
      S.Simulates d d' (parserOf memoise steps depth .statement)
        (parserOf memoise' steps' depth' .statement) (S.After n (j + 1))) :
    S.Simulates c c' (program memoise steps depth) (program memoise' steps' depth')
      (S.After n 0) := by
  refine .bind (hg.separators h) ?_
  intro _ _ d d' hd M M' hmemo
  obtain hd | ⟨hgoesOn, -⟩ := hd
  · obtain hends | ⟨_, _, _, ⟨hgoesOn, -⟩, -⟩ := items_until (show .eof ∈ [TokenKind.eof] by decide)
      [] hd hg.lt_add hg.lt_add' (fun _ _ _ _ hj => hg.separators hj)
      (fun j d d' _ => hstatement j d d') hmemo
    · exact hends
    · exact absurd hgoesOn hstops
  · exact absurd hgoesOn hstops

/-! ## Without a memory

Without a memory, every brace is read afresh, so an induction on the levels suffices. -/

/-- What is kept of the first memory where there is none on either side. -/
theorem kept_nothing {M M' : BraceMemo} (h : M = [] ∧ M' = []) : M = [] :=
  h.1

section Plain

variable {S : Simulation} {steps' depth depth' : Nat} {c c' : Cursor} (hshallow : S.shallow)
  (hstops : ¬ S.goesOn) (hsteps : n < steps) (hsteps' : n < steps') (hdepth : depth ≤ depth')
include hshallow hstops hsteps hsteps' hdepth

/-- Grammars whose deeper parsers do the same. -/
theorem similar_plain
    (h : ∀ (nonterminal : Nonterminal) {k : Nat} {c c' : Cursor}, S.Near n k c c' →
      S.Simulates c c' (parserOf false steps depth nonterminal)
        (parserOf false steps' depth' nonterminal) (S.After n (k + 1))) :
    Similar S n (within false steps depth) (within false steps' depth') where
  parse nonterminal _ _ _ hnear _ := h nonterminal hnear
  lt_steps := hsteps
  lt_steps' := hsteps'
  le_depth := .inl hshallow
  le_depth' := .inl hdepth
  retry hgoesOn := absurd hgoesOn hstops

/-- All nonterminals are read the same from corresponding places, if the first parser may be short
of levels. -/
theorem parser_of_plain (nonterminal : Nonterminal) (h : S.Near n k c c') :
    S.Simulates c c' (parserOf false steps depth nonterminal)
      (parserOf false steps' depth' nonterminal) (S.After n (k + 1)) := by
  induction depth generalizing depth' nonterminal k c c' with
  | zero => exact .too_deep hshallow _
  | succ depth ih =>
      obtain ⟨depth', rfl⟩ := Nat.exists_eq_add_one.mpr (show 0 < depth' by omega)
      have hfewer : depth ≤ depth' := Nat.le_of_succ_le_succ hdepth
      have hsimilar := similar_plain hshallow hstops hsteps hsteps' hfewer
        fun nonterminal {_ _ _} => ih hfewer nonterminal
      have hbraces : SimilarBraces S n (within false steps depth) (within false steps' depth') :=
        { hsimilar with braced := hsimilar.brace_form }
      rw [parser_of_succ, parser_of_succ]
      exact hbraces.rule nonterminal h

/-- Whole programs are read the same from corresponding places. -/
theorem program_plain (h : S.Near n 0 c c') :
    S.Simulates c c' (program false steps depth) (program false steps' depth') (S.After n 0) :=
  (similar_plain hshallow hstops hsteps hsteps' hdepth fun nonterminal {_ _ _} =>
    parser_of_plain hshallow hstops hsteps hsteps' hdepth nonterminal).program hstops h
      fun _ _ _ => parser_of_plain hshallow hstops hsteps hsteps' hdepth .statement

end Plain

/-- Whole programs: whether braces are remembered and how far beyond the number of tokens the
parser may descend makes no difference, and there is no want of levels. -/
theorem program_simulates (memoise : Bool) {limit limit' : Nat} (h : tokens.length < limit)
    (h' : tokens.length < limit') :
    (overTokens tokens (tokens.length + 1) False).Simulates (Cursor.start tokens)
      (Cursor.start tokens) (program memoise (tokens.length + 1) limit)
      (program false (tokens.length + 1) limit')
      ((overTokens tokens (tokens.length + 1) False).After tokens.length 0) := by
  have hupTo : ∀ m ≤ tokens.length, UpTo tokens (tokens.length + 1) m :=
    fun m hm => up_to (by omega)
  have hgrammars : Similar (overTokens tokens (tokens.length + 1) False) tokens.length
      (within memoise (tokens.length + 1) limit) (within false (tokens.length + 1) limit') :=
    similar_within (fun m hm => hupTo m (by omega)) (Nat.lt_succ_self _) memoise
      (.inr (Nat.le_of_lt h)) (Nat.le_of_lt h')
  refine hgrammars.program id (near_over_tokens (.start tokens)) ?_
  rintro j c _ ⟨⟨rfl, htrack⟩, hbound⟩
  have hfewer := hupTo (tokens.length - j) (by omega) False c .statement memoise limit limit'
    htrack (by omega) (.inr (by omega)) (by omega)
  exact hfewer.mono fun _ _ _ _ hafter =>
    ⟨hafter.1, hafter.2.raise (Nat.le_refl 1) (by omega)⟩

end Simulation

namespace Program

/-- The program of a row of tokens is what is read from its first place with nothing remembered. -/
theorem of_tokens_within_run (memoise : Bool) (limit : Nat) (tokens : List Token) :
    ofTokensWithin memoise limit tokens =
      (program memoise (tokens.length + 1) limit (Cursor.start tokens) []).1.map (·.1) :=
  rfl

/-- For any row of tokens, remembering braces changes neither the program that is read nor the
error: what would have been expected, where, and what was found. Nor does a limit on the depth,
as long as it exceeds the number of tokens; so the source is never nested too deeply. -/
theorem of_tokens_within_eq (memoise : Bool) (limit : Nat) (tokens : List Token)
    (h : tokens.length < limit) :
    ofTokensWithin memoise limit tokens = ofTokensWithin false (tokens.length + 1) tokens ∧
      ofTokensWithin memoise limit tokens ≠ .error .tooDeep := by
  have hends := Simulation.program_simulates memoise h (Nat.lt_succ_self tokens.length) [] []
    ⟨Faithful.nil tokens _, rfl⟩
  have hdeep := hends.ne_too_deep id
  obtain ⟨after, hrun, -⟩ | ⟨hshallow, -⟩ := hends.over_tokens
  · simp only [of_tokens_within_run, hrun, true_and]
    rw [hrun] at hdeep
    generalize (program false (tokens.length + 1) (tokens.length + 1) (Cursor.start tokens) []).1 =
      result at hdeep ⊢
    cases result with
    | ok result => simp [Except.map]
    | error failure => simpa [Except.map] using hdeep
  · exact hshallow.elim

/-- The parser that remembers braces and the one that reads every brace afresh give the same
program, or refuse the same token with the same message. -/
theorem brace_memo_transparent (tokens : List Token) (limit : Nat) (h : tokens.length < limit) :
    (∃ program, ofTokensWithin true limit tokens = .ok program ∧
        ofTokensWithin false limit tokens = .ok program) ∨
      ∃ error, ofTokensWithin true limit tokens = .error (.wrong error) ∧
        ofTokensWithin false limit tokens = .error (.wrong error) := by
  obtain ⟨hmemo, hdeep⟩ := of_tokens_within_eq true limit tokens h
  obtain ⟨hplain, -⟩ := of_tokens_within_eq false limit tokens h
  rw [hplain, ← hmemo]
  cases hresult : ofTokensWithin true limit tokens with
  | ok program => exact .inl ⟨program, rfl, rfl⟩
  | error failure =>
      cases failure with
      | wrong error => exact .inr ⟨error, rfl, rfl⟩
      | tooDeep => exact absurd hresult hdeep

/-- An unclosed brace inside another, which is read as a set, as a block and again as a block. -/
theorem brace_memo_transparent_unclosed :
    let tokens : List Token :=
      [⟨.lbrace, "\x7b", 0, 1, 1⟩, ⟨.lbrace, "\x7b", 1, 2, 1⟩, ⟨.int, "1", 2, 3, 1⟩,
       ⟨.semi, ";", 3, 4, 1⟩, ⟨.rbrace, "\x7d", 4, 5, 1⟩, ⟨.eof, "", 5, 5, 1⟩]
    tokens.length < 7 ∧
      ((∃ program, ofTokensWithin true 7 tokens = .ok program ∧
          ofTokensWithin false 7 tokens = .ok program) ∨
        ∃ error, ofTokensWithin true 7 tokens = .error (.wrong error) ∧
          ofTokensWithin false 7 tokens = .error (.wrong error)) :=
  ⟨by decide, brace_memo_transparent _ 7 (by decide)⟩

end Program

end Script
