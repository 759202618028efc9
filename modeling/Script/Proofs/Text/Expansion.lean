import Mathlib.Data.List.Chain
import Script.Proofs.Text.Search

/-!
# Expanding escapes

An escape is a backslash with a mark behind it. A text is free of escapes if no backslash has one of
their marks behind it (`EscapeFree`), and so is then every stretch of it, and such stretches put
together again with another character between them. Replacing one sort of escapes does just that:
it cuts the text at them. So it makes no escapes of a sort that was not there, and after the three
sorts have been replaced there is none (`expand_escapes_free`), whatever backslashes stand in a row.
-/

namespace Script.Text

variable {marks text part separator piece old : List Char} {pieces : List (List Char)}
  {c mark : Char}

/-- The characters that make an escape when they follow a backslash. -/
def escapeMarks : List Char :=
  ['r', 't', 'n']

/-- No backslash is followed by one of the marks. -/
def EscapeFree (marks text : List Char) : Prop :=
  text.IsChain fun c next => ¬(c = '\\' ∧ next ∈ marks)

/-- A text is free of escapes if none occurs in it. -/
theorem escape_free_iff :
    EscapeFree marks text ↔ ∀ mark ∈ marks, ∀ place, ¬OccursAt ['\\', mark] text place := by
  rw [EscapeFree, List.isChain_iff_forall_rel_of_append_cons_cons]
  constructor
  · rintro h mark hmark place ⟨after, hafter⟩
    have hcut : text = text.take place ++ '\\' :: mark :: after := by
      conv_lhs => rw [← List.take_append_drop place text, ← hafter]
      rfl
    exact h hcut ⟨rfl, hmark⟩
  · rintro h c next before after rfl ⟨rfl, hmark⟩
    refine h next hmark before.length ⟨after, ?_⟩
    rw [List.drop_left]
    rfl

theorem EscapeFree.stretch (h : EscapeFree marks text) (hpart : part <:+: text) :
    EscapeFree marks part :=
  List.IsChain.infix h hpart

/-- Texts that are free of escapes stay so with a character between them that is in none. -/
theorem EscapeFree.join (h : ∀ piece ∈ pieces, EscapeFree marks piece) (hc : c ≠ '\\')
    (hmark : c ∉ marks) : EscapeFree marks (join [c] pieces) := by
  induction pieces with
  | nil => exact .nil
  | cons piece pieces ih =>
      obtain ⟨hpiece, hrest⟩ := List.forall_mem_cons.mp h
      by_cases hlast : pieces = []
      · subst hlast
        exact hpiece
      · rw [join_cons _ _ hlast, List.append_assoc]
        refine List.IsChain.append hpiece ((ih hrest).cons ?_) ?_
        · rintro next - ⟨hbackslash, -⟩
          exact hc hbackslash
        · rintro last - next hnext ⟨-, hescape⟩
          obtain rfl : c = next := Option.some.inj hnext
          exact hmark hescape

/-- A piece is a stretch of the text that was cut. -/
theorem Cut.stretch (h : Cut separator text pieces) (hpiece : piece ∈ pieces) :
    piece <:+: text := by
  induction h with
  | last =>
      obtain rfl := List.mem_singleton.mp hpiece
      exact List.infix_refl piece
  | @next before after pieces _ _ ih =>
      obtain rfl | hlater := List.mem_cons.mp hpiece
      · exact ⟨[], separator ++ after, by simp⟩
      · exact (ih hlater).trans (List.suffix_append _ _).isInfix

/-- When the escapes with one mark are replaced, there are none of them any more, and none with
another mark that was not there. -/
theorem EscapeFree.replace (h : EscapeFree marks text) (hc : c ≠ '\\') (hmark : c ∉ mark :: marks) :
    EscapeFree (mark :: marks) (replace ['\\', mark] [c] none text) := by
  have hescape : ['\\', mark] ≠ [] := List.cons_ne_nil _ _
  have hcut := cut_split hescape text
  rw [replace_eq_join hescape]
  refine .join (fun piece hpiece => escape_free_iff.mpr fun other hother => ?_) hc hmark
  obtain rfl | hother := List.mem_cons.mp hother
  · exact hcut.not_occurs hescape hpiece
  · exact escape_free_iff.mp (h.stretch (hcut.stretch hpiece)) other hother

theorem expand_escapes_free (text : List Char) : EscapeFree escapeMarks (expandEscapes text) := by
  have hnone : EscapeFree [] text := escape_free_iff.mpr (List.forall_mem_nil _)
  have hn : EscapeFree ['n'] (Text.replace ['\\', 'n'] ['\n'] none text) :=
    hnone.replace (by decide) (by decide)
  have ht : EscapeFree ['t', 'n']
      (Text.replace ['\\', 't'] ['\t'] none (Text.replace ['\\', 'n'] ['\n'] none text)) :=
    hn.replace (by decide) (by decide)
  exact ht.replace (by decide) (by decide)

/-- A text is left as it is if what is to be replaced is not in it. -/
theorem replace_eq_self (hold : old ≠ []) (h : ∀ place, ¬OccursAt old text place)
    (new : List Char) : replace old new none text = text := by
  have hsingle : split old text = [text] := by
    have hcut := cut_split hold text
    generalize split old text = pieces at hcut
    cases hcut with
    | last => rfl
    | next hfirst => exact absurd hfirst.occurs (h _)
  rw [replace_eq_join hold, hsingle]
  rfl

/-- Expanding changes nothing where there is nothing to expand. -/
theorem expand_escapes_eq_self (h : EscapeFree escapeMarks text) : expandEscapes text = text := by
  have hkept {mark : Char} (hmark : mark ∈ escapeMarks) (new : List Char) :
      Text.replace ['\\', mark] new none text = text :=
    replace_eq_self (List.cons_ne_nil _ _) (escape_free_iff.mp h mark hmark) new
  unfold expandEscapes
  rw [hkept (by decide), hkept (by decide), hkept (by decide)]

end Script.Text
