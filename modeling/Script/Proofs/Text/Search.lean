import Mathlib.Data.List.Basic
import Script.Text.Search

/-!
# What a search finds

A text occurs at a place of another if the other goes on with it from there (`OccursAt`). Finding
gives the first such place (`find_spec`), and cutting a text at a separator goes from one first
occurrence to the next (`Cut`). So no piece has the separator in it, the pieces with the separator
between them are the text again, and there is one piece more than there are occurrences.
-/

namespace Script.Text

variable {sub separator text piece : List Char} {pieces : List (List Char)} {place : Nat}

/-- The text occurs at a place of the other. -/
def OccursAt (sub text : List Char) (place : Nat) : Prop :=
  sub <+: text.drop place

/-- The place is the first at which the text occurs. -/
structure FirstAt (sub text : List Char) (place : Nat) : Prop where
  occurs : OccursAt sub text place
  first : ∀ earlier < place, ¬OccursAt sub text earlier

/-- A text is cut at the first occurrence of a separator, and what follows it is cut likewise. -/
inductive Cut (separator : List Char) : List Char → List (List Char) → Prop where
  | last {text : List Char} (h : ∀ place, ¬OccursAt separator text place) :
      Cut separator text [text]
  | next {before after : List Char} {pieces : List (List Char)}
      (hfirst : FirstAt separator (before ++ separator ++ after) before.length)
      (hrest : Cut separator after pieces) :
      Cut separator (before ++ separator ++ after) (before :: pieces)

/-! ## Finding -/

theorem OccursAt.lt_length (h : OccursAt sub text place) (hsub : sub ≠ []) :
    place < text.length := by
  by_contra hlast
  rw [OccursAt, List.drop_eq_nil_of_le (Nat.le_of_not_lt hlast), List.prefix_nil] at h
  exact hsub h

/-- What occurs in the front of a text occurs in the text. -/
theorem OccursAt.append (h : OccursAt sub text place) (hsub : sub ≠ []) (rest : List Char) :
    OccursAt sub (text ++ rest) place := by
  have hdrop : (text ++ rest).drop place = text.drop place ++ rest :=
    List.drop_append_of_le_length (Nat.le_of_lt (h.lt_length hsub))
  rw [OccursAt, hdrop]
  exact h.trans (List.prefix_append _ _)

theorem not_occurs_at_nil (hsub : sub ≠ []) : ¬OccursAt sub [] place :=
  fun h => absurd (h.lt_length hsub) (Nat.not_lt_zero place)

/-- The first place at which a text occurs further on. -/
theorem FirstAt.cons {c : Char} (h : FirstAt sub text place) (hhere : ¬OccursAt sub (c :: text) 0) :
    FirstAt sub (c :: text) (place + 1) := by
  refine ⟨h.occurs, fun earlier hearlier => ?_⟩
  cases earlier with
  | zero => exact hhere
  | succ earlier => exact h.first earlier (Nat.lt_of_succ_lt_succ hearlier)

theorem find_from_spec (sub text : List Char) (start : Nat) :
    (∃ place, findFrom sub start text = some (start + place) ∧ FirstAt sub text place) ∨
      findFrom sub start text = none ∧ ∀ place, ¬OccursAt sub text place := by
  induction text generalizing start with
  | nil =>
      by_cases hempty : sub = []
      · subst hempty
        exact .inl ⟨0, rfl, List.prefix_refl [], nofun⟩
      · have hnone : findFrom sub start [] = none := by
          simp [findFrom, hempty]
        exact .inr ⟨hnone, fun _ => not_occurs_at_nil hempty⟩
  | cons c text ih =>
      unfold findFrom
      split
      · rename_i hprefix
        exact .inl ⟨0, rfl, List.isPrefixOf_iff_prefix.mp hprefix, nofun⟩
      · rename_i hprefix
        have hhere : ¬OccursAt sub (c :: text) 0 :=
          fun h => hprefix (List.isPrefixOf_iff_prefix.mpr h)
        obtain ⟨place, hfound, hfirst⟩ | ⟨hnone, habsent⟩ := ih (start + 1)
        · refine .inl ⟨place + 1, ?_, hfirst.cons hhere⟩
          rw [hfound, Nat.add_right_comm, Nat.add_assoc]
        · refine .inr ⟨hnone, fun place => ?_⟩
          cases place with
          | zero => exact hhere
          | succ place => exact habsent place

/-- Finding gives the first place, and nothing only if there is none. -/
theorem find_spec (sub text : List Char) :
    (∃ place, find? sub text = some place ∧ FirstAt sub text place) ∨
      find? sub text = none ∧ ∀ place, ¬OccursAt sub text place := by
  obtain ⟨place, hfound, hfirst⟩ | hnone := find_from_spec sub text 0
  · exact .inl ⟨place, Nat.zero_add place ▸ hfound, hfirst⟩
  · exact .inr hnone

theorem occurs_in_iff (sub text : List Char) :
    occursIn sub text = true ↔ ∃ place, OccursAt sub text place := by
  rw [occursIn]
  obtain ⟨place, hfound, hfirst⟩ | ⟨hnone, habsent⟩ := find_spec sub text
  · rw [hfound]
    exact ⟨fun _ => ⟨place, hfirst.occurs⟩, fun _ => rfl⟩
  · rw [hnone]
    refine ⟨nofun, ?_⟩
    rintro ⟨place, h⟩
    exact absurd h (habsent place)

/-! ## Cutting -/

/-- The characters of a separator that has been met are passed over. -/
theorem split_from_skip (separator current : List Char) (skip : Nat) (text : List Char) :
    splitFrom separator none skip current text =
      splitFrom separator none 0 current (text.drop skip) := by
  induction text generalizing skip with
  | nil => cases skip <;> rfl
  | cons c text ih =>
      cases skip with
      | zero => rfl
      | succ skip => exact ih skip

/-- A separator that is met ends the piece that has been read. -/
theorem split_from_met (hseparator : separator ≠ []) (current after : List Char) :
    splitFrom separator none 0 current (separator ++ after) =
      current.reverse :: splitFrom separator none 0 [] after := by
  cases separator with
  | nil => exact absurd rfl hseparator
  | cons c rest =>
      have hmet : (c :: rest).isPrefixOf (c :: (rest ++ after)) = true :=
        List.isPrefixOf_iff_prefix.mpr (List.prefix_append (c :: rest) after)
      show splitFrom (c :: rest) none 0 current (c :: (rest ++ after)) = _
      rw [splitFrom, hmet]
      show current.reverse :: splitFrom (c :: rest) none rest.length [] (rest ++ after) = _
      rw [split_from_skip, List.drop_left]

theorem split_from_passed {c : Char} (current : List Char)
    (h : ¬OccursAt separator (c :: text) 0) :
    splitFrom separator none 0 current (c :: text) =
      splitFrom separator none 0 (c :: current) text := by
  have hmissed : separator.isPrefixOf (c :: text) = false :=
    Bool.eq_false_iff.mpr fun hmet => h (List.isPrefixOf_iff_prefix.mp hmet)
  rw [splitFrom, hmissed]
  rfl

/-- The scan carries on with a piece in which the separator has not begun. -/
theorem cut_split_from (hseparator : separator ≠ []) (current text : List Char)
    (h : ∀ place < current.length, ¬OccursAt separator (current.reverse ++ text) place) :
    Cut separator (current.reverse ++ text) (splitFrom separator none 0 current text) := by
  have hdrop : (current.reverse ++ text).drop current.length = text := by
    rw [← List.length_reverse, List.drop_left]
  by_cases hmet : OccursAt separator text 0
  · obtain ⟨after, hafter⟩ := hmet
    rw [List.drop_zero] at hafter
    subst hafter
    have hfirst : FirstAt separator (current.reverse ++ separator ++ after)
        current.reverse.length := by
      rw [List.length_reverse, List.append_assoc]
      refine ⟨?_, h⟩
      rw [OccursAt, hdrop]
      exact List.prefix_append separator after
    have hshorter : after.length < (separator ++ after).length := by
      have := List.length_pos_iff.mpr hseparator
      rw [List.length_append]
      omega
    rw [split_from_met hseparator, ← List.append_assoc]
    exact .next hfirst (cut_split_from hseparator [] after nofun)
  · cases text with
    | nil =>
        rw [List.append_nil] at h ⊢
        refine .last fun place hoccurs => h place ?_ hoccurs
        exact List.length_reverse ▸ hoccurs.lt_length hseparator
    | cons c text =>
        have hmoved : current.reverse ++ c :: text = (c :: current).reverse ++ text := by
          simp
        rw [split_from_passed current hmet, hmoved]
        refine cut_split_from hseparator (c :: current) text fun place hplace => ?_
        rw [← hmoved]
        obtain hbefore | rfl := Nat.lt_succ_iff_lt_or_eq.mp hplace
        · exact h place hbefore
        · rwa [OccursAt, hdrop]
termination_by text.length

theorem cut_split (hseparator : separator ≠ []) (text : List Char) :
    Cut separator text (split separator text) :=
  cut_split_from hseparator [] text nofun

theorem split_from_ne_nil (separator : List Char) (cuts : Option Nat) (skip : Nat)
    (current text : List Char) : splitFrom separator cuts skip current text ≠ [] := by
  induction text generalizing cuts skip current with
  | nil => cases skip <;> exact List.cons_ne_nil _ _
  | cons c text ih =>
      cases skip with
      | succ skip => exact ih cuts skip current
      | zero =>
          rw [splitFrom]
          split
          · exact List.cons_ne_nil _ _
          · exact ih cuts 0 (c :: current)

theorem Cut.ne_nil (h : Cut separator text pieces) : pieces ≠ [] := by
  cases h <;> exact List.cons_ne_nil _ _

theorem join_cons (separator : List Char) (piece : List Char) (h : pieces ≠ []) :
    join separator (piece :: pieces) = piece ++ separator ++ join separator pieces := by
  cases pieces with
  | nil => exact absurd rfl h
  | cons => rfl

/-- The pieces with the separator between them are the text that was cut. -/
theorem Cut.join_eq (h : Cut separator text pieces) : join separator pieces = text := by
  induction h with
  | last => rfl
  | next _ hrest ih => rw [join_cons _ _ hrest.ne_nil, ih]

/-- A piece ends where the separator is met first, so the separator is not in it. -/
theorem Cut.not_occurs (h : Cut separator text pieces) (hseparator : separator ≠ [])
    (hpiece : piece ∈ pieces) (place : Nat) : ¬OccursAt separator piece place := by
  induction h with
  | last h =>
      obtain rfl := List.mem_singleton.mp hpiece
      exact h place
  | @next before after pieces hfirst _ ih =>
      obtain rfl | hlater := List.mem_cons.mp hpiece
      · intro hoccurs
        refine hfirst.first place (hoccurs.lt_length hseparator) ?_
        rw [List.append_assoc]
        exact hoccurs.append hseparator _
      · exact ih hlater

/-- Counting goes over a text as cutting does: there is a piece for each occurrence, and a last
one. -/
theorem length_split_from (separator : List Char) (skip : Nat) (current text : List Char) :
    (splitFrom separator none skip current text).length = countFrom separator skip text + 1 := by
  induction text generalizing skip current with
  | nil => cases skip <;> rfl
  | cons c text ih =>
      cases skip with
      | succ skip => exact ih skip current
      | zero =>
          rw [splitFrom, countFrom]
          by_cases hmet : separator.isPrefixOf (c :: text)
          · rw [if_pos hmet]
            simpa [hmet] using ih (separator.length - 1) []
          · rw [if_neg hmet]
            simpa [hmet] using ih 0 (c :: current)

/-- Replacing goes over a text as cutting does: it puts the new text where the pieces end. -/
theorem join_split_from (old new : List Char) (times : Option Nat) (skip : Nat)
    (current text : List Char) :
    join new (splitFrom old times skip current text) =
      current.reverse ++ replaceFrom old new times skip text := by
  induction text generalizing times skip current with
  | nil => cases skip <;> exact (List.append_nil current.reverse).symm
  | cons c text ih =>
      cases skip with
      | succ skip => exact ih times skip current
      | zero =>
          rw [splitFrom, replaceFrom]
          by_cases hmet : times ≠ some 0 && old.isPrefixOf (c :: text)
          · rw [if_pos hmet, if_pos hmet, join_cons _ _ (split_from_ne_nil _ _ _ _ _), ih,
              List.append_assoc]
            rfl
          · rw [if_neg hmet, if_neg hmet, ih, List.reverse_cons, List.append_assoc]
            rfl

/-- There is more than one piece if the separator occurs. -/
theorem Cut.one_lt_length_iff (h : Cut separator text pieces) :
    1 < pieces.length ↔ ∃ place, OccursAt separator text place := by
  cases h with
  | last h =>
      refine ⟨fun hmore => absurd hmore (Nat.lt_irrefl 1), ?_⟩
      rintro ⟨place, hoccurs⟩
      exact absurd hoccurs (h place)
  | next hfirst hrest =>
      refine ⟨fun _ => ⟨_, hfirst.occurs⟩, fun _ => ?_⟩
      exact Nat.succ_lt_succ (List.length_pos_iff.mpr hrest.ne_nil)

theorem length_split (hseparator : separator ≠ []) (text : List Char) :
    (split separator text).length = count separator text + 1 := by
  rw [count, if_neg (by simpa using hseparator)]
  exact length_split_from separator 0 [] text

theorem count_pos_iff (hseparator : separator ≠ []) :
    0 < count separator text ↔ ∃ place, OccursAt separator text place := by
  rw [← (cut_split hseparator text).one_lt_length_iff, length_split hseparator]
  omega

theorem replace_eq_join (hseparator : separator ≠ []) (new text : List Char) :
    replace separator new none text = join new (split separator text) := by
  rw [replace, if_neg (by simpa using hseparator)]
  exact (join_split_from separator new none 0 [] text).symm

end Script.Text
