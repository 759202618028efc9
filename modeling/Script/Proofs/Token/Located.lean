import Mathlib.Logic.Relation
import Script.Proofs.Token.Cover
import Script.Proofs.Token.Front

/-!
# Where the lexer fails

Cutting a source goes on in steps (`Scan.Step`), each of which leaves a blank or a comment out or
cuts a token off, until nothing is left or no token can be cut off (`Scan.Stuck`). A step does not
see what stands behind the place that it leads to, so a source that ends where the lexer has failed
is scanned with the same steps. What is left of it then is nothing, or the `b` of bytes that are not
closed, and so it has the tokens that were cut off before the failure: `tokenize_error_located`.
-/

namespace Script.Token

open Relation

/-- How far a source has been cut: the tokens that have been cut off, in reverse, the place and the
line that have been reached, and what is left of the source. -/
structure Scan where
  done : List Token
  pos : Nat
  line : Nat
  rest : List Char

namespace Scan

/-- Nothing has been cut off. -/
def start (source : String) : Scan :=
  ⟨[], 0, 1, source.toList⟩

/-- The tokens that have been cut off and those of what is left. -/
def result (scan : Scan) : Except LexError (List Token) :=
  tokensFrom scan.done scan.pos scan.line scan.rest

/-- The same scan of a source that ends at a place. -/
def upTo (scan : Scan) (stop : Nat) : Scan :=
  { scan with rest := scan.rest.take (stop - scan.pos) }

/-- One step: a blank or a comment is left out, or a token is cut off. -/
inductive Step : Scan → Scan → Prop where
  | blank {done : List Token} {pos line : Nat} {c : Char} {rest : List Char}
      (h : Text.isBlank c = true) :
      Step ⟨done, pos, line, c :: rest⟩ ⟨done, pos + 1, line + [c].count '\n', rest⟩
  | comment {done : List Token} {pos line : Nat} {rest : List Char} :
      Step ⟨done, pos, line, '#' :: rest⟩
        ⟨done, pos + 1 + (rest.takeWhile (· ≠ '\n')).length, line,
          rest.drop (rest.takeWhile (· ≠ '\n')).length⟩
  | token {done : List Token} {pos line : Nat} {c : Char} {rest : List Char} {found : Lexeme}
      (hstarts : StartsToken c) (h : lexeme c rest = .ok found) :
      Step ⟨done, pos, line, c :: rest⟩
        ⟨⟨found.kind, String.ofList found.text, pos, pos + found.width, line⟩ :: done,
          pos + found.width, line + found.text.count '\n', rest.drop (found.width - 1)⟩

/-- No token can be cut off what is left. -/
inductive Stuck : Scan → LexError → Prop where
  | intro {done : List Token} {pos line : Nat} {c : Char} {rest : List Char} {fault : LexFault}
      {offset : Nat} (hstarts : StartsToken c) (h : lexeme c rest = .error (fault, offset)) :
      Stuck ⟨done, pos, line, c :: rest⟩ ⟨fault, pos + offset⟩

/-- The tokens that are found behind those that have been cut off if the source ends at the place of
the error: none, or the name `b` where bytes are not closed. -/
inductive Pending : Scan → LexError → List Token → Prop where
  | none {scan : Scan} {fault : LexFault} : Pending scan ⟨fault, scan.pos⟩ []
  | bytes {done : List Token} {pos line : Nat} {body : List Char} (h : '"' ∉ body) :
      Pending ⟨done, pos, line, 'b' :: '"' :: body⟩ ⟨.unterminatedString, pos + 1⟩
        [⟨.name, "b", pos, pos + 1, line⟩]

/-- What has been cut off a source are tokens of it, and what is left is the rest of it. -/
structure Sound (source : String) (scan : Scan) : Prop where
  cut : CutUpTo source scan.pos scan.line scan.rest
  tokens (t : Token) (h : t ∈ scan.done) : CutAt source t ∧ t.stop ≤ scan.pos

variable {source : String} {scan next last other : Scan} {error error' : LexError} {stop : Nat}

/-! ## Steps and results -/

/-- A step leads to the same tokens. -/
theorem Step.result_eq (h : Step scan next) : scan.result = next.result := by
  cases h with
  | blank hblank => exact tokens_from_blank hblank _ _ _ _
  | comment => exact tokens_from_comment _ _ _ _
  | token hstarts hfound => exact tokens_from_found hstarts hfound _ _ _

theorem result_eq_of_steps (h : ReflTransGen Step scan last) : scan.result = last.result := by
  induction h with
  | refl => rfl
  | tail _ hstep ih => exact ih.trans hstep.result_eq

theorem Stuck.result_eq (h : Stuck scan error) : scan.result = .error error := by
  cases h with
  | intro hstarts hfault => exact tokens_from_fault hstarts hfault _ _ _

/-- A scan goes on, unless nothing is left or no token can be cut off. -/
theorem progress (scan : Scan) :
    scan.rest = [] ∨ (∃ next, Step scan next) ∨ ∃ error, Stuck scan error := by
  obtain ⟨done, pos, line, rest⟩ := scan
  cases rest with
  | nil => exact .inl rfl
  | cons c rest =>
      by_cases hblank : Text.isBlank c = true
      · exact .inr (.inl ⟨_, .blank hblank⟩)
      by_cases hcomment : c = '#'
      · subst hcomment
        exact .inr (.inl ⟨_, .comment⟩)
      have hstarts : StartsToken c := ⟨Bool.eq_false_iff.mpr hblank, hcomment⟩
      cases hlexeme : lexeme c rest with
      | ok found => exact .inr (.inl ⟨_, .token hstarts hlexeme⟩)
      | error fault => exact .inr (.inr ⟨_, .intro hstarts hlexeme⟩)

theorem Step.length_lt (h : Step scan next) : next.rest.length < scan.rest.length := by
  cases h with
  | blank => exact Nat.lt_succ_self _
  | comment | token =>
      rw [List.length_drop, List.length_cons]
      omega

/-- The lexer fails where a scan gets stuck. -/
theorem result_eq_error_iff :
    scan.result = .error error ↔ ∃ last, ReflTransGen Step scan last ∧ Stuck last error := by
  constructor
  · intro h
    -- What is left gets shorter with every step.
    induction hlength : scan.rest.length using Nat.strongRecOn generalizing scan with
    | ind length ih =>
        obtain hnil | ⟨next, hstep⟩ | ⟨other, hstuck⟩ := scan.progress
        · rw [result, hnil, tokensFrom] at h
          cases h
        · rw [hstep.result_eq] at h
          obtain ⟨last, hsteps, hstuck⟩ := ih _ (hlength ▸ hstep.length_lt) h rfl
          exact ⟨last, hsteps.head hstep, hstuck⟩
        · rw [hstuck.result_eq] at h
          cases h
          exact ⟨scan, .refl, hstuck⟩
  · rintro ⟨last, hsteps, hstuck⟩
    rw [result_eq_of_steps hsteps, hstuck.result_eq]

/-! ## There is one scan -/

theorem Step.unique (h : Step scan next) (h' : Step scan other) : next = other := by
  cases h with
  | blank hblank =>
      cases h' with
      | blank => rfl
      | comment => exact absurd hblank (by decide)
      | token hstarts => exact absurd hblank hstarts.not_blank
  | comment =>
      cases h' with
      | blank hblank => exact absurd hblank (by decide)
      | comment => rfl
      | token hstarts => exact absurd rfl hstarts.noComment
  | token hstarts hfound =>
      cases h' with
      | blank hblank => exact absurd hblank hstarts.not_blank
      | comment => exact absurd rfl hstarts.noComment
      | token _ hfound' =>
          obtain rfl := Except.ok.inj (hfound.symm.trans hfound')
          rfl

theorem Stuck.no_step (h : Stuck scan error) : ¬Step scan next := by
  cases h with
  | intro hstarts hfault =>
      intro hstep
      cases hstep with
      | blank hblank => exact absurd hblank hstarts.not_blank
      | comment => exact absurd rfl hstarts.noComment
      | token _ hfound => exact nomatch hfault.symm.trans hfound

/-- A scan can get stuck in one state only. -/
theorem stuck_unique (h : ReflTransGen Step scan last) (hlast : Stuck last error)
    (h' : ReflTransGen Step scan other) (hother : Stuck other error') : other = last := by
  have heq {first final : Scan} {fault : LexError} (hsteps : ReflTransGen Step first final)
      (hstuck : Stuck first fault) : first = final := by
    obtain rfl | ⟨next, hstep, -⟩ := hsteps.cases_head
    · rfl
    · exact absurd hstep hstuck.no_step
  have hunique : Relator.RightUnique Step := fun _ _ _ => Step.unique
  obtain hmore | hmore := ReflTransGen.total_of_right_unique hunique h h'
  · exact (heq hmore hlast).symm
  · exact heq hmore hother

/-! ## What has been cut off -/

theorem Step.sound (h : Step scan next) (hscan : scan.Sound source) : next.Sound source := by
  obtain ⟨hcut, htokens⟩ := hscan
  cases h with
  | @blank done pos line c rest _ =>
      refine ⟨CutUpTo.skip [c] hcut, fun t ht => ?_⟩
      exact ⟨(htokens t ht).1, Nat.le_succ_of_le (htokens t ht).2⟩
  | @comment done pos line rest =>
      refine ⟨hcut.comment, fun t ht => ?_⟩
      exact ⟨(htokens t ht).1, Nat.le_add_right_of_le (Nat.le_succ_of_le (htokens t ht).2)⟩
  | token hstarts hfound =>
      obtain ⟨htoken, hmore⟩ := hcut.token hstarts hfound
      refine ⟨hmore, List.forall_mem_cons.mpr ⟨⟨htoken, Nat.le_refl _⟩, fun t ht => ?_⟩⟩
      exact ⟨(htokens t ht).1, Nat.le_add_right_of_le (htokens t ht).2⟩

theorem sound_of_steps (h : ReflTransGen Step (start source) scan) : scan.Sound source := by
  induction h with
  | refl => exact ⟨⟨rfl, Nat.zero_le _, rfl⟩, List.forall_mem_nil _⟩
  | tail _ hstep ih => exact hstep.sound ih

/-! ## A source that ends earlier -/

theorem Step.pos_le (h : Step scan next) : scan.pos ≤ next.pos := by
  cases h with
  | blank => exact Nat.le_succ _
  | comment => exact Nat.le_trans (Nat.le_succ _) (Nat.le_add_right _ _)
  | token => exact Nat.le_add_right _ _

theorem up_to_add (done : List Token) (pos line : Nat) (rest : List Char) (more : Nat) :
    upTo ⟨done, pos, line, rest⟩ (pos + more) = ⟨done, pos, line, rest.take more⟩ := by
  unfold upTo
  rw [Nat.add_sub_cancel_left]

theorem up_to_cons {done : List Token} {pos line : Nat} {c : Char} {rest : List Char} (more : Nat)
    (h : stop = pos + (more + 1)) :
    upTo ⟨done, pos, line, c :: rest⟩ stop = ⟨done, pos, line, c :: rest.take more⟩ := by
  rw [h, up_to_add, List.take_succ_cons]

/-- A step does not see what stands behind the place that it leads to. -/
theorem Step.up_to (h : Step scan next) (hstop : next.pos ≤ stop) :
    Step (scan.upTo stop) (next.upTo stop) := by
  obtain ⟨more, rfl⟩ := Nat.exists_eq_add_of_le hstop
  cases h with
  | @blank done pos line c rest hblank =>
      rw [up_to_add, up_to_cons more (Nat.add_right_comm pos 1 more)]
      exact .blank hblank
  | @comment done pos line rest =>
      generalize hbody : rest.takeWhile (· ≠ '\n') = body
      have hsame : (rest.take (body.length + more)).takeWhile (· ≠ '\n') = body := by
        rw [← List.take_takeWhile, hbody, List.take_of_length_le (Nat.le_add_right _ _)]
      have hstep := @comment done pos line (rest.take (body.length + more))
      rw [hsame, List.drop_take, Nat.add_sub_cancel_left] at hstep
      rw [up_to_add, up_to_cons (body.length + more) (by dsimp only; omega)]
      exact hstep
  | @token done pos line c rest found hstarts hfound =>
      have hpos := lexeme_width_pos hfound
      obtain ⟨-, hwidth, -⟩ := lexeme_break [] hfound
      have hsame : lexeme c (rest.take (found.width - 1 + more)) = .ok found := by
        have hwhole := hfound
        rw [← List.take_append_drop (found.width - 1 + more) rest] at hwhole
        refine lexeme_front hwhole ?_
        rw [List.length_take]
        omega
      have hstep := @token done pos line c _ found hstarts hsame
      rw [List.drop_take, Nat.add_sub_cancel_left] at hstep
      rw [up_to_add, up_to_cons (found.width - 1 + more) (by dsimp only; omega)]
      exact hstep

theorem steps_up_to (h : ReflTransGen Step scan last) (hstop : last.pos ≤ stop) :
    ReflTransGen Step (scan.upTo stop) (last.upTo stop) := by
  induction h with
  | refl => exact .refl
  | tail _ hstep ih => exact (ih (Nat.le_trans hstep.pos_le hstop)).tail (hstep.up_to hstop)

theorem start_up_to (source : String) (stop : Nat) :
    (start source).upTo stop = start (String.ofList (source.toList.take stop)) := by
  rw [start, start, String.toList_ofList]
  rfl

/-! ## The place of the error -/

theorem Stuck.exists_pending (h : Stuck scan error) : ∃ pending, Pending scan error pending := by
  cases h with
  | intro hstarts hfault =>
      obtain rfl | ⟨rfl, rfl, rfl, body, rfl, hbody⟩ := fault_offset_cases hfault
      · exact ⟨[], .none⟩
      · exact ⟨_, .bytes hbody⟩

theorem Pending.result_eq {pending : List Token} (h : Pending scan error pending) :
    (scan.upTo error.pos).result =
      .ok (scan.done.reverse ++ pending ++ [⟨.eof, "", error.pos, error.pos, scan.line⟩]) := by
  cases h with
  | none =>
      show tokensFrom _ _ _ (scan.rest.take (scan.pos - scan.pos)) = _
      rw [Nat.sub_self, List.take_zero, tokensFrom, List.append_nil]
      rfl
  | @bytes done pos line body _ =>
      have hb : lexeme 'b' [] = .ok ⟨.name, ['b'], 1⟩ := by decide +kernel
      show tokensFrom _ _ _ (('b' :: '"' :: body).take (pos + 1 - pos)) = _
      rw [Nat.add_sub_cancel_left]
      show tokensFrom _ _ _ ['b'] = _
      rw [tokens_from_found ⟨by decide, by decide⟩ hb, List.drop_nil, tokensFrom,
        List.reverse_cons]
      rfl

theorem Pending.before {pending : List Token} (h : Pending scan error pending) :
    scan.pos ≤ error.pos ∧ ∀ t ∈ pending, t.kind ≠ .eof ∧ t.stop ≤ error.pos := by
  cases h with
  | none => exact ⟨Nat.le_refl _, List.forall_mem_nil _⟩
  | bytes =>
      exact ⟨Nat.le_succ _, List.forall_mem_singleton.mpr ⟨nofun, Nat.le_refl _⟩⟩

theorem Stuck.rest_ne_nil (h : Stuck scan error) : scan.rest ≠ [] := by
  cases h with
  | intro => exact List.cons_ne_nil _ _

/-- The place of the error is a place of the source. -/
theorem Pending.lt_length {pending : List Token} (h : Pending scan error pending)
    (hrest : scan.rest ≠ []) (hscan : scan.Sound source) : error.pos < source.length := by
  have hlength := congrArg List.length hscan.cut.rest
  rw [List.length_drop, String.length_toList] at hlength
  cases h with
  | none =>
      have hpos := List.length_pos_iff.mpr hrest
      dsimp only
      omega
  | bytes =>
      rw [List.length_cons, List.length_cons] at hlength
      dsimp only at hlength ⊢
      omega

end Scan

open Scan

/-- An error is located where the scan of a source gets stuck, with the tokens that have been cut
off before. -/
structure Located (source : String) (error : LexError) (scan : Scan) (pending : List Token) :
    Prop where
  arrives : ReflTransGen Step (start source) scan
  stuck : scan.Stuck error
  /-- No other scan of the source gets stuck. -/
  only (other : Scan) (error' : LexError) (h : ReflTransGen Step (start source) other)
    (hstuck : other.Stuck error') : other = scan
  /-- The place of the error is a place of the source. -/
  lt_length : error.pos < source.length
  is_pending : scan.Pending error pending
  /-- A source that ends there has the tokens that have been cut off, and those that are pending. -/
  front : tokenize (String.ofList (source.toList.take error.pos)) =
    .ok (scan.done.reverse ++ pending ++ [⟨.eof, "", error.pos, error.pos, scan.line⟩])
  /-- These end before the place of the error. -/
  before (t : Token) (h : t ∈ scan.done.reverse ++ pending) : t.kind ≠ .eof ∧ t.stop ≤ error.pos

/-- The place of an error is where the source has been cut up to, or the quotation mark after a `b`
there. A source that ends at that place has the tokens that have been cut off before the error. -/
theorem tokenize_error_located {source : String} {error : LexError}
    (h : tokenize source = .error error) : ∃ scan pending, Located source error scan pending := by
  have hresult : (start source).result = .error error := h
  obtain ⟨scan, hsteps, hstuck⟩ := result_eq_error_iff.mp hresult
  obtain ⟨pending, hpending⟩ := hstuck.exists_pending
  have hsound := sound_of_steps hsteps
  obtain ⟨hle, hbefore⟩ := hpending.before
  refine ⟨scan, pending, ?_⟩
  exact
    { arrives := hsteps
      stuck := hstuck
      only _ _ hother hother' := stuck_unique hsteps hstuck hother hother'
      lt_length := hpending.lt_length hstuck.rest_ne_nil hsound
      is_pending := hpending
      front := by
        have hfront := result_eq_of_steps (steps_up_to hsteps hle)
        rw [start_up_to, hpending.result_eq] at hfront
        exact hfront
      before t ht := by
        obtain hdone | hlast := List.mem_append.mp ht
        · obtain ⟨htoken, hstop⟩ := hsound.tokens t (List.mem_reverse.mp hdone)
          exact ⟨htoken.kind_ne_eof, Nat.le_trans hstop hle⟩
        · exact hbefore t hlast }

/-- Bytes that are not closed behind two tokens: up to the quotation mark, the source ends with a
name. -/
theorem tokenize_error_located_bytes :
    let source := "x =b\"c"
    let tokens : List Token :=
      [⟨.name, "x", 0, 1, 1⟩, ⟨.op, "=", 2, 3, 1⟩, ⟨.name, "b", 3, 4, 1⟩, ⟨.eof, "", 4, 4, 1⟩]
    tokenize source = .error ⟨.unterminatedString, 4⟩ ∧ tokenize "x =b" = .ok tokens ∧
      ∃ scan pending, Located source ⟨.unterminatedString, 4⟩ scan pending := by
  intro source tokens
  have herror : tokenize source = .error ⟨.unterminatedString, 4⟩ := by decide +kernel
  exact ⟨herror, by decide +kernel, tokenize_error_located herror⟩

end Script.Token
