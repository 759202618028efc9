import Mathlib.Data.List.DropRight
import Mathlib.Data.List.Infix
import Script.Proofs.Text.Search
import Script.Text.Blank

/-!
# Trimming and words

Trimming a text leaves a stretch of it, at whose ends there is nothing more to trim; there is one
such stretch with nothing but trimmed characters around it (`Trims.eq`). The words of a text are the
stretches between its blanks: a blank ends the words before it and begins those after it
(`words_append_blank`), and everything else about words follows from that. So words with a blank
between them are read back as they are (`words_join`).
-/

namespace Script.Text

variable {drop : Char → Bool} {blank : Char} {current text word : List Char}

/-- Without the characters at its ends that satisfy a test, the text is the other one. -/
structure Trims (drop : Char → Bool) (text trimmed : List Char) : Prop where
  around : ∃ before behind, text = before ++ trimmed ++ behind ∧
    (∀ c ∈ before, drop c = true) ∧ ∀ c ∈ behind, drop c = true
  first (c : Char) (rest : List Char) (h : trimmed = c :: rest) : drop c = false
  last (front : List Char) (c : Char) (h : trimmed = front ++ [c]) : drop c = false

/-- The text is a word: it is not empty and has no blank in it. -/
structure IsWord (word : List Char) : Prop where
  ne_nil : word ≠ []
  no_blank : ∀ c ∈ word, isBlank c = false

/-! ## Trimming -/

theorem trim_by_eq (drop : Char → Bool) (text : List Char) :
    trimBy drop text = (text.dropWhile drop).rdropWhile drop :=
  rfl

theorem trim_by_stretch (drop : Char → Bool) (text : List Char) : trimBy drop text <:+: text :=
  (List.rdropWhile_prefix drop _).isInfix.trans (List.dropWhile_suffix drop).isInfix

/-- What is left of a text begins with a character that is kept, also without its end. -/
theorem drop_while_rdrop_while (drop : Char → Bool) (text : List Char) :
    ((text.dropWhile drop).rdropWhile drop).dropWhile drop =
      (text.dropWhile drop).rdropWhile drop := by
  rw [List.dropWhile_eq_self_iff]
  intro hlong hdropped
  have hfront := List.rdropWhile_prefix drop (text.dropWhile drop)
  rw [hfront.getElem hlong] at hdropped
  exact List.dropWhile_get_zero_not drop text _ hdropped

theorem trim_by_idempotent (drop : Char → Bool) (text : List Char) :
    trimBy drop (trimBy drop text) = trimBy drop text := by
  rw [trim_by_eq drop text, trim_by_eq, drop_while_rdrop_while, List.rdropWhile_idempotent]

theorem trims_trim_by (drop : Char → Bool) (text : List Char) :
    Trims drop text (trimBy drop text) where
  around := by
    refine ⟨text.takeWhile drop, (text.dropWhile drop).rtakeWhile drop, ?_,
      fun _ => List.mem_takeWhile_imp, fun _ => List.mem_rtakeWhile_imp⟩
    rw [List.append_assoc, trim_by_eq, List.rdropWhile_append_rtakeWhile,
      List.takeWhile_append_dropWhile]
  first c rest h := by
    have hkept := drop_while_rdrop_while drop text
    rw [← trim_by_eq, h, List.dropWhile_eq_self_iff] at hkept
    exact Bool.eq_false_iff.mpr (hkept (Nat.succ_pos rest.length))
  last front c h := by
    have hkept := List.rdropWhile_idempotent drop (text.dropWhile drop)
    rw [← trim_by_eq, h, List.rdropWhile_eq_self_iff] at hkept
    simpa using hkept (by simp)

/-- What is left of a text is determined by what there is at its ends. -/
theorem Trims.eq {trimmed : List Char} (h : Trims drop text trimmed) :
    trimBy drop text = trimmed := by
  obtain ⟨⟨before, behind, rfl, hbefore, hbehind⟩, hfirst, hlast⟩ := h
  rw [trim_by_eq, List.append_assoc, List.dropWhile_append_of_pos hbefore]
  cases trimmed with
  | nil =>
      rw [List.nil_append, List.dropWhile_eq_nil_iff.mpr hbehind]
      rfl
  | cons c rest =>
      have hc : ¬drop c = true := by simp [hfirst c rest rfl]
      have hbehind' : ∀ d ∈ behind.reverse, drop d = true := by simpa using hbehind
      rw [List.cons_append, List.dropWhile_cons_of_neg hc, ← List.cons_append, List.rdropWhile,
        List.reverse_append, List.dropWhile_append_of_pos hbehind']
      refine List.rdropWhile_eq_self_iff.mpr fun hne => ?_
      simp [hlast _ _ (List.dropLast_append_getLast hne).symm]

/-! ## Words -/

/-- A blank ends the words before it and begins those after it. -/
theorem words_from_append_blank (h : isBlank blank = true) (current text rest : List Char) :
    wordsFrom current (text ++ blank :: rest) = wordsFrom current text ++ words rest := by
  induction text generalizing current with
  | nil =>
      rw [List.nil_append, wordsFrom, wordsFrom, if_pos h]
      cases current <;> rfl
  | cons c text ih =>
      rw [List.cons_append, wordsFrom, wordsFrom]
      split_ifs
      · exact ih []
      · rw [ih [], List.cons_append]
      · exact ih (c :: current)

theorem words_append_blank (h : isBlank blank = true) (text rest : List Char) :
    words (text ++ blank :: rest) = words text ++ words rest :=
  words_from_append_blank h [] text rest

/-- Without a blank the word that has been begun goes on to the end. -/
theorem words_from_no_blank (h : ∀ c ∈ text, isBlank c = false) (current : List Char) :
    wordsFrom current text = wordsFrom (text.reverse ++ current) [] := by
  induction text generalizing current with
  | nil => rfl
  | cons c text ih =>
      obtain ⟨hc, htext⟩ := List.forall_mem_cons.mp h
      have hread : wordsFrom current (c :: text) = wordsFrom (c :: current) text := by
        rw [wordsFrom, hc, if_neg Bool.false_ne_true]
      rw [hread, ih htext, List.reverse_cons, List.append_assoc, List.singleton_append]

theorem words_of_is_word (h : IsWord word) : words word = [word] := by
  rw [words, words_from_no_blank h.no_blank, List.append_nil, wordsFrom,
    if_neg (by simpa using h.ne_nil), List.reverse_reverse]

/-- Words with a blank between them are read back as they are. -/
theorem words_join (h : isBlank blank = true) {pieces : List (List Char)}
    (hpieces : ∀ piece ∈ pieces, IsWord piece) : words (join [blank] pieces) = pieces := by
  induction pieces with
  | nil => rfl
  | cons piece pieces ih =>
      obtain ⟨hpiece, hrest⟩ := List.forall_mem_cons.mp hpieces
      by_cases hlast : pieces = []
      · subst hlast
        exact words_of_is_word hpiece
      · rw [join_cons _ _ hlast, List.append_assoc, List.singleton_append, words_append_blank h,
          words_of_is_word hpiece, ih hrest, List.singleton_append]

theorem is_word_reverse (hne : ¬current.isEmpty = true) (h : ∀ c ∈ current, isBlank c = false) :
    IsWord current.reverse :=
  ⟨by simpa using hne, fun c hc => h c (List.mem_reverse.mp hc)⟩

/-- What is found is a word, and a stretch of the text. -/
theorem mem_words_from (hcurrent : ∀ c ∈ current, isBlank c = false)
    (h : word ∈ wordsFrom current text) : IsWord word ∧ word <:+: current.reverse ++ text := by
  induction text generalizing current with
  | nil =>
      rw [wordsFrom] at h
      split_ifs at h with hempty
      · cases h
      · obtain rfl := List.mem_singleton.mp h
        exact ⟨is_word_reverse hempty hcurrent, (List.prefix_append _ _).isInfix⟩
  | cons c text ih =>
      have hlater (hword : word ∈ wordsFrom [] text) :
          IsWord word ∧ word <:+: current.reverse ++ c :: text := by
        obtain ⟨hisword, hstretch⟩ := ih (List.forall_mem_nil _) hword
        exact ⟨hisword, hstretch.trans ⟨current.reverse ++ [c], [], by simp⟩⟩
      rw [wordsFrom] at h
      split_ifs at h with hblank hempty
      · exact hlater h
      · obtain rfl | hrest := List.mem_cons.mp h
        · exact ⟨is_word_reverse hempty hcurrent, (List.prefix_append _ _).isInfix⟩
        · exact hlater hrest
      · have hc : isBlank c = false := Bool.eq_false_iff.mpr hblank
        have hword := ih (List.forall_mem_cons.mpr ⟨hc, hcurrent⟩) h
        rwa [List.reverse_cons, List.append_assoc, List.singleton_append] at hword

theorem mem_words (h : word ∈ words text) : IsWord word ∧ word <:+: text :=
  mem_words_from (List.forall_mem_nil _) h

/-- A word is found if one has been begun, or if there is more than blanks. -/
theorem words_from_ne_nil (h : current ≠ [] ∨ ∃ c ∈ text, isBlank c = false) :
    wordsFrom current text ≠ [] := by
  induction text generalizing current with
  | nil =>
      have hbegun : current ≠ [] := by simpa using h
      rw [wordsFrom, if_neg (by simpa using hbegun)]
      exact List.cons_ne_nil _ _
  | cons c text ih =>
      rw [wordsFrom]
      split_ifs with hblank hempty
      · obtain hbegun | ⟨d, hmem, hd⟩ := h
        · exact absurd (List.isEmpty_iff.mp hempty) hbegun
        obtain rfl | hrest := List.mem_cons.mp hmem
        · rw [hblank] at hd
          cases hd
        · exact ih (.inr ⟨d, hrest, hd⟩)
      · exact List.cons_ne_nil _ _
      · exact ih (.inl (List.cons_ne_nil _ _))

theorem words_ne_nil (h : ∃ c ∈ text, isBlank c = false) : words text ≠ [] :=
  words_from_ne_nil (.inr h)

end Script.Text
