import Script.Proofs.Builtin.Run
import Script.Proofs.Text.Search

/-!
# Methods that search texts

Cutting a text at a separator, counting the separator, finding it, replacing it and asking for it
with `in` are five ways to look at the same occurrences (`Builtin.search_agrees`).
-/

namespace Script.Builtin

open Script.Action

variable {heap : Heap} {s separator : String}

/-- The pieces of a text that is cut at a separator, with a text between them. -/
def rejoin (glue s separator : String) : Action Value := do
  let pieces ← callMethod (.str s) "split" [.str separator]
  callMethod (.str glue) "join" [pieces]

/-- What the methods and operators that search a text for a separator have to do with each other:
the pieces of the text, how often the separator is counted, where it is found, and whether it is
present. -/
structure SearchAgrees (heap : Heap) (s separator : String) (pieces : List String) (count : Nat)
    (place : Int) (present : Bool) : Prop where
  /-- The text is cut into the pieces, from one occurrence of the separator to the next. -/
  split : ∃ id after, callMethod (.str s) "split" [.str separator] heap = .ok (.list id, after) ∧
    (after.list id).toList = pieces.map .str
  cut : Text.Cut separator.toList s.toList (pieces.map String.toList)
  /-- The pieces with the separator between them are the text. -/
  rejoined : heap.Returns (rejoin separator s separator) (.str s)
  counted : heap.Returns (callMethod (.str s) "count" [.str separator]) (.int count)
  length_pieces : pieces.length = count + 1
  /-- No piece contains the separator. -/
  not_within : ∀ piece ∈ pieces,
    heap.Returns (BinaryOperator.within.apply (.str separator) (.str piece)) (.bool false)
  /-- Replacing the separator is putting the other text between the pieces. -/
  replaced (new : String) : ∃ result : String,
    heap.Returns (callMethod (.str s) "replace" [.str separator, .str new]) (.str result) ∧
    heap.Returns (rejoin new s separator) (.str result)
  found : heap.Returns (callMethod (.str s) "find" [.str separator]) (.int place)
  /-- What is found is the first place at which the separator occurs, and `-1` if there is none. -/
  first : (∃ index : Nat, place = index ∧ Text.FirstAt separator.toList s.toList index) ∨
    place = -1 ∧ ∀ index, ¬Text.OccursAt separator.toList s.toList index
  within : heap.Returns (BinaryOperator.within.apply (.str separator) (.str s)) (.bool present)
  present_iff_found : present = true ↔ place ≠ -1
  present_iff_counted : present = true ↔ 0 < count

/-! ## What each method does -/

theorem to_list_ne_nil (h : separator ≠ "") : separator.toList ≠ [] := by
  simpa using h

/-- Cutting a text at a separator makes a list of the pieces. -/
theorem call_split_run (h : separator ≠ "") (heap : Heap) (s : String) :
    ∃ id after, callMethod (.str s) "split" [.str separator] heap = .ok (.list id, after) ∧
      (after.list id).toList = (Text.split separator.toList s.toList).map textValue := by
  have hmethod : method? heap (.str s) "split" = some (.optional (textSplit s)) := rfl
  have hnonempty : separator.isEmpty = false := by
    simpa using h
  refine ⟨_, _, ?_, heap.list_push _⟩
  rw [call_optional_run hmethod]
  show (if separator.isEmpty then _ else newTextList _ : Action Value) heap = _
  rw [hnonempty]
  rfl

theorem join_texts_run (texts : List (List Char)) (place : Nat) :
    joinTexts place (texts.map textValue) heap = .ok (texts, heap) := by
  induction texts generalizing place with
  | nil => rfl
  | cons text texts ih =>
      show (joinTexts (place + 1) (texts.map textValue) >>= fun rest =>
        pure ((String.ofList text).toList :: rest)) heap = _
      rw [bind_run (ih (place + 1)), String.toList_ofList]
      rfl

theorem call_join_run {id : ListId} {texts : List (List Char)}
    (h : (heap.list id).toList = texts.map textValue) (glue : String) :
    callMethod (.str glue) "join" [.list id] heap =
      .ok (textValue (Text.join glue.toList texts), heap) := by
  have hmethod : method? heap (.str glue) "join" = some (.unary (textJoin glue)) := rfl
  rw [call_unary_run hmethod]
  show (joinTexts 0 (heap.list id).toList >>= fun texts =>
    pure (textValue (Text.join glue.toList texts))) heap = _
  rw [h, bind_run (join_texts_run texts 0)]
  rfl

theorem rejoin_run (h : separator ≠ "") (heap : Heap) (glue s : String) :
    heap.Returns (rejoin glue s separator)
      (textValue (Text.join glue.toList (Text.split separator.toList s.toList))) := by
  obtain ⟨id, after, hsplit, hitems⟩ := call_split_run h heap s
  refine ⟨after, ?_⟩
  rw [rejoin, bind_run hsplit, call_join_run hitems]

theorem call_find_run (heap : Heap) (s separator : String) :
    ∃ place : Int, heap.Returns (callMethod (.str s) "find" [.str separator]) (.int place) ∧
      ((∃ index : Nat, place = index ∧ Text.FirstAt separator.toList s.toList index) ∨
        place = -1 ∧ ∀ index, ¬Text.OccursAt separator.toList s.toList index) := by
  obtain ⟨index, hfound, hfirst⟩ | ⟨hnone, habsent⟩ := Text.find_spec separator.toList s.toList
  · refine ⟨index, ⟨heap, (call_unary_run rfl).trans ?_⟩, .inl ⟨index, rfl, hfirst⟩⟩
    simp only [requireText, pure_bind, hfound]
    rfl
  · refine ⟨-1, ⟨heap, (call_unary_run rfl).trans ?_⟩, .inr ⟨rfl, habsent⟩⟩
    simp only [requireText, pure_bind, hnone]
    rfl

theorem within_run (heap : Heap) (separator s : String) :
    heap.Returns (BinaryOperator.within.apply (.str separator) (.str s))
      (.bool (Text.occursIn separator.toList s.toList)) :=
  ⟨heap, rfl⟩

/-- The methods and operators that look for a separator in a text agree, whatever the text and
whatever separator that is not empty. -/
theorem search_agrees (h : separator ≠ "") (heap : Heap) (s : String) :
    ∃ pieces count place present, SearchAgrees heap s separator pieces count place present := by
  have hseparator := to_list_ne_nil h
  have hcut := Text.cut_split hseparator s.toList
  have hpieces : ((Text.split separator.toList s.toList).map String.ofList).map String.toList =
      Text.split separator.toList s.toList := by
    simp
  have hpresent := Text.occurs_in_iff separator.toList s.toList
  obtain ⟨place, hfound, hplace⟩ := call_find_run heap s separator
  refine ⟨(Text.split separator.toList s.toList).map String.ofList,
    Text.count separator.toList s.toList, place, Text.occursIn separator.toList s.toList, ?_⟩
  exact
    { split := by
        obtain ⟨id, after, hsplit, hitems⟩ := call_split_run h heap s
        refine ⟨id, after, hsplit, hitems.trans ?_⟩
        rw [List.map_map]
        rfl
      cut := hpieces.symm ▸ hcut
      rejoined := by
        have hjoined := rejoin_run h heap separator s
        rwa [hcut.join_eq, textValue, String.ofList_toList] at hjoined
      counted := ⟨heap, rfl⟩
      length_pieces := by
        rw [List.length_map, Text.length_split hseparator]
      not_within := by
        intro piece hpiece
        obtain ⟨text, htext, rfl⟩ := List.mem_map.mp hpiece
        have habsent : Text.occursIn separator.toList text = false := by
          rw [Bool.eq_false_iff, Ne, Text.occurs_in_iff, not_exists]
          exact hcut.not_occurs hseparator htext
        have hasked := within_run heap separator (String.ofList text)
        rwa [String.toList_ofList, habsent] at hasked
      replaced := by
        intro new
        have hreplaced : heap.Returns (callMethod (.str s) "replace" [.str separator, .str new])
            (textValue (Text.replace separator.toList new.toList none s.toList)) := ⟨heap, rfl⟩
        rw [Text.replace_eq_join hseparator] at hreplaced
        exact ⟨_, hreplaced, rejoin_run h heap new s⟩
      found := hfound
      first := hplace
      within := within_run heap separator s
      present_iff_found := by
        rw [hpresent]
        obtain ⟨index, rfl, hfirst⟩ | ⟨rfl, habsent⟩ := hplace
        · exact ⟨fun _ => by omega, fun _ => ⟨index, hfirst.occurs⟩⟩
        · exact ⟨fun hoccurs => absurd hoccurs (not_exists.mpr habsent), fun hne => absurd rfl hne⟩
      present_iff_counted := hpresent.trans (Text.count_pos_iff hseparator).symm }

/-- In `ababa` the separator `aba` overlaps itself: it counts once, and the pieces are the empty
text and `ba`. -/
theorem search_agrees_on_overlaps :
    "aba" ≠ "" ∧ (∃ pieces count place present,
      SearchAgrees (Heap.empty 1000) "ababa" "aba" pieces count place present) ∧
    Text.split "aba".toList "ababa".toList = ["".toList, "ba".toList] :=
  ⟨by decide, search_agrees (by decide) (Heap.empty 1000) "ababa", by decide⟩

end Script.Builtin
