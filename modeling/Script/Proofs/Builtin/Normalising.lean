import Script.Proofs.Builtin.TextSearch
import Script.Proofs.Heap.Equality
import Script.Proofs.Text.Expansion
import Script.Proofs.Text.Words

/-!
# Stripping and splitting once and for all

Without an argument, a text is stripped and split as if its escapes were the blanks that they stand
for. What comes out has no escape in it, so that doing it again changes nothing: a stripped text
stays as it is, and the pieces of a text, joined with spaces, are split into the same pieces
(`Builtin.strip_and_split_normalise`).
-/

namespace Script

open Script.Action Builtin

theorem Heap.equal_texts (heap : Heap) (s : String) : heap.equal (.str s) (.str s) = .ok true := by
  have hatom : heap.equalWithin 1 (.str s) (.str s) = .ok (s == s) := rfl
  rw [equal_of_within hatom (by decide), beq_self_eq_true]

/-- Lists of the same texts are equal. -/
theorem Heap.equal_text_lists {heap : Heap} {a b : ListId} {texts : List (List Char)}
    (ha : (heap.list a).toList = texts.map textValue)
    (hb : (heap.list b).toList = texts.map textValue) :
    heap.equal (.list a) (.list b) = .ok true := by
  have hequal : heap.equalWithin 2 (.list a) (.list b) = .ok true := by
    have hshapes : heap.equalWithin 2 (.list a) (.list b) =
        (Shape.list (heap.list a).toList).compare (heap.agree 1) (.list (heap.list b).toList) :=
      heap.equal_within_succ _ _ _
    rw [hshapes, ha, hb, Shape.compare_eq_true_iff]
    refine .list (List.forall₂_same.mpr fun value hvalue => ?_)
    obtain ⟨text, -, rfl⟩ := List.mem_map.mp hvalue
    have hatom : heap.agree 1 (textValue text) (textValue text) =
        .ok (String.ofList text == String.ofList text) := rfl
    rw [hatom, beq_self_eq_true]
  exact equal_of_within hequal (by decide)

namespace Builtin

variable {heap : Heap} {s : String}

/-- A stripped text is stripped once more, and compared with the text that is stripped once. -/
def stripTwice (s : String) : Action Value := do
  let once ← callMethod (.str s) "strip" []
  let twice ← callMethod once "strip" []
  let other ← callMethod (.str s) "strip" []
  BinaryOperator.equal.apply twice other

/-- The pieces of a text are joined with spaces and split once more, and compared with the pieces
of the text. -/
def splitTwice (s : String) : Action Value := do
  let once ← callMethod (.str s) "split" []
  let joined ← callMethod (.str " ") "join" [once]
  let twice ← callMethod joined "split" []
  let other ← callMethod (.str s) "split" []
  BinaryOperator.equal.apply twice other

/-- A text that is left when a text is split: there is something in it, but neither a blank nor an
escape that stands for one. -/
structure IsPiece (piece : String) : Prop where
  nonempty : piece ≠ ""
  no_blank : ∀ c ∈ piece.toList, Text.isBlank c = false
  no_escape : ∀ mark ∈ Text.escapeMarks, ∀ place,
    ¬Text.OccursAt ['\\', mark] piece.toList place

/-- Stripping and splitting a text without an argument leaves nothing to be done again. Splitting is
about texts that have more than blanks in them when their escapes are expanded. -/
structure Normalises (heap : Heap) (s : String) : Prop where
  strip : ∃ stripped, heap.Returns (callMethod (.str s) "strip" []) (.str stripped) ∧
    heap.Returns (callMethod (.str stripped) "strip" []) (.str stripped)
  strip_twice : heap.Returns (stripTwice s) (.bool true)
  split (h : ∃ c ∈ Text.expandEscapes s.toList, Text.isBlank c = false) :
    ∃ id after pieces, callMethod (.str s) "split" [] heap = .ok (.list id, after) ∧
      (after.list id).toList = pieces.map .str ∧ pieces ≠ [] ∧ ∀ piece ∈ pieces, IsPiece piece
  split_twice (h : ∃ c ∈ Text.expandEscapes s.toList, Text.isBlank c = false) :
    heap.Returns (splitTwice s) (.bool true)

/-! ## Stripping -/

/-- The characters of a text that are left when it is stripped. -/
def strippedChars (s : String) : List Char :=
  Text.trimBy Text.isBlank (Text.expandEscapes s.toList)

theorem call_strip_run (heap : Heap) (s : String) :
    callMethod (.str s) "strip" [] heap = .ok (textValue (strippedChars s), heap) :=
  rfl

/-- No escape is left, so what is stripped again is trimmed again. -/
theorem stripped_chars_idempotent (s : String) :
    strippedChars (String.ofList (strippedChars s)) = strippedChars s := by
  have hfree : Text.EscapeFree Text.escapeMarks (strippedChars s) :=
    (Text.expand_escapes_free _).stretch (Text.trim_by_stretch _ _)
  have hexpanded := Text.expand_escapes_eq_self hfree
  have htrimmed : Text.trimBy Text.isBlank (strippedChars s) = strippedChars s :=
    Text.trim_by_idempotent _ _
  rw [strippedChars, String.toList_ofList, hexpanded, htrimmed]

theorem strip_twice_run (heap : Heap) (s : String) :
    stripTwice s heap = .ok (.bool true, heap) := by
  have htwice := call_strip_run heap (String.ofList (strippedChars s))
  rw [stripped_chars_idempotent] at htwice
  have hequal := BinaryOperator.equal_apply (heap.equal_texts (String.ofList (strippedChars s)))
  rw [stripTwice, bind_run (call_strip_run heap s)]
  show (callMethod (.str (String.ofList (strippedChars s))) "strip" [] >>= _) heap = _
  rw [bind_run htwice, bind_run (call_strip_run heap s)]
  exact hequal

/-! ## Splitting -/

/-- The words of a text whose escapes are expanded. -/
def pieceChars (s : String) : List (List Char) :=
  Text.words (Text.expandEscapes s.toList)

theorem call_split_blank_run {pieces : List (List Char)} (h : pieceChars s = pieces)
    (hne : pieces ≠ []) (heap : Heap) :
    callMethod (.str s) "split" [] heap =
      .ok (.list heap.lists.next,
        { heap with lists := heap.lists.push (pieces.map textValue).toArray }) := by
  have hmethod : method? heap (.str s) "split" = some (.optional (textSplit s)) := rfl
  have hnonempty : s.isEmpty = false := by
    rw [Bool.eq_false_iff, Ne, String.isEmpty_iff]
    rintro rfl
    exact hne h.symm
  rw [call_default_run hmethod, ← h]
  show (if s.isEmpty then _ else newTextList _ : Action Value) heap = _
  rw [hnonempty]
  rfl

theorem is_piece {piece : List Char} (h : piece ∈ pieceChars s) :
    IsPiece (String.ofList piece) := by
  obtain ⟨hword, hstretch⟩ := Text.mem_words h
  have hfree := (Text.expand_escapes_free s.toList).stretch hstretch
  exact
    { nonempty := by simpa using hword.ne_nil
      no_blank := by simpa using hword.no_blank
      no_escape := by simpa using Text.escape_free_iff.mp hfree }

/-- Joined with spaces, the pieces have no escapes between them, and are the words of the result. -/
theorem piece_chars_join (s : String) :
    pieceChars (String.ofList (Text.join " ".toList (pieceChars s))) = pieceChars s := by
  have hfree : Text.EscapeFree Text.escapeMarks (Text.join [' '] (pieceChars s)) :=
    .join (fun piece hpiece => (Text.expand_escapes_free _).stretch (Text.mem_words hpiece).2)
      (by decide) (by decide)
  have hexpanded := Text.expand_escapes_eq_self hfree
  show Text.words (Text.expandEscapes (String.ofList (Text.join [' '] (pieceChars s))).toList) = _
  rw [String.toList_ofList, hexpanded]
  exact Text.words_join (by decide) fun piece hpiece => (Text.mem_words hpiece).1

/-- Three lists are made of the same pieces: the one that is joined, and the two that are
compared. -/
theorem split_twice_run (hpieces : pieceChars s ≠ []) (heap : Heap) :
    heap.Returns (splitTwice s) (.bool true) := by
  let items := ((pieceChars s).map textValue).toArray
  let first : Heap := { heap with lists := heap.lists.push items }
  let second : Heap := { first with lists := first.lists.push items }
  let third : Heap := { second with lists := second.lists.push items }
  let joined := String.ofList (Text.join " ".toList (pieceChars s))
  have honce : callMethod (.str s) "split" [] heap = .ok (.list heap.lists.next, first) :=
    call_split_blank_run rfl hpieces heap
  have hjoined : callMethod (.str " ") "join" [.list heap.lists.next] first =
      .ok (.str joined, first) := call_join_run (heap.list_push _) " "
  have htwice : callMethod (.str joined) "split" [] first = .ok (.list first.lists.next, second) :=
    call_split_blank_run (piece_chars_join s) hpieces first
  have hother : callMethod (.str s) "split" [] second = .ok (.list second.lists.next, third) :=
    call_split_blank_run rfl hpieces second
  have hnew : first.lists.next ≠ second.lists.next := by
    have hnext : second.lists.next = first.lists.next + 1 := Store.next_push _ _
    omega
  have hitems : (third.list first.lists.next).toList = (pieceChars s).map textValue := by
    rw [second.list_push_of_ne items hnew]
    exact first.list_push _
  have hequal := Heap.equal_text_lists hitems (second.list_push _)
  refine ⟨third, ?_⟩
  rw [splitTwice, bind_run honce, bind_run hjoined, bind_run htwice, bind_run hother]
  exact BinaryOperator.equal_apply hequal

/-- Whatever text is stripped or split without an argument, doing so again changes nothing. -/
theorem strip_and_split_normalise (heap : Heap) (s : String) : Normalises heap s where
  strip := by
    have hagain := call_strip_run heap (String.ofList (strippedChars s))
    rw [stripped_chars_idempotent] at hagain
    exact ⟨_, ⟨heap, call_strip_run heap s⟩, ⟨heap, hagain⟩⟩
  strip_twice := ⟨heap, strip_twice_run heap s⟩
  split h := by
    have hpieces : pieceChars s ≠ [] := Text.words_ne_nil h
    refine ⟨_, _, (pieceChars s).map String.ofList,
      call_split_blank_run rfl hpieces heap, ?_, by simpa using hpieces, ?_⟩
    · rw [heap.list_push, List.map_map]
      rfl
    · intro piece hpiece
      obtain ⟨chars, hchars, rfl⟩ := List.mem_map.mp hpiece
      exact is_piece hchars
  split_twice h := split_twice_run (Text.words_ne_nil h) heap

/-- Of two backslashes before an `n`, the first is left over, and makes no escape with what
follows. -/
theorem strip_and_split_normalise_backslashes :
    (∃ c ∈ Text.expandEscapes "\\\\nt\\t".toList, Text.isBlank c = false) ∧
      pieceChars "\\\\nt\\t" = [['\\'], ['t']] ∧
      strippedChars "\\\\nt\\t" = ['\\', '\n', 't'] ∧
      Normalises (Heap.empty 1000) "\\\\nt\\t" :=
  ⟨⟨'t', by decide +kernel, rfl⟩, by decide +kernel, by decide +kernel,
    strip_and_split_normalise (Heap.empty 1000) "\\\\nt\\t"⟩

end Builtin

end Script
