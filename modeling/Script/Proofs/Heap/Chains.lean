import Mathlib.Data.List.Perm.Subperm
import Mathlib.Logic.Relation
import Script.Interpreter
import Script.Proofs.Heap.Faults

/-!
# Chains of errors

An error is shown after the error that it is linked to, and that one after another in turn.
`Heap.Leads` is the link that is followed. The machine takes a frame for each error, so showing an
error fails if there are as many errors before it as there are frames
(`Heap.chain_lines_too_long_iff`), whatever their number is if the links lead into a cycle
(`Heap.chain_lines_endless_iff`). It fails otherwise only at a note that is no text.
-/

namespace Script.Heap

open Relation

/-- The error that is shown before an error. -/
def previous? (heap : Heap) (id : ErrorId) : Option ErrorId :=
  match (heap.error id).cause, (heap.error id).context with
  | some cause, _ => some cause
  | none, some context => if (heap.error id).suppressContext then none else some context
  | none, none => none

/-- The second error is shown before the first. -/
def Leads (heap : Heap) (id next : ErrorId) : Prop :=
  heap.previous? id = some next

/-- The error that is so many links before an error. -/
def before? (heap : Heap) : Nat → ErrorId → Option ErrorId
  | 0, id => some id
  | steps + 1, id => (heap.previous? id).bind (heap.before? steps)

/-- The links of an error lead into a cycle. -/
def Endless (heap : Heap) (id : ErrorId) : Prop :=
  ∃ other, ReflTransGen heap.Leads id other ∧ TransGen heap.Leads other other

/-- The first error is linked to the second, as to its cause or its context. -/
def Linked (heap : Heap) (id next : ErrorId) : Prop :=
  (heap.error id).cause = some next ∨ (heap.error id).context = some next

/-- The links between errors form no cycle. -/
def LinksEnd (heap : Heap) : Prop :=
  ∀ id, ¬TransGen heap.Linked id id

/-- The error exists, and so do all errors that are shown before it, up to a first one. -/
inductive HasChain (heap : Heap) : ErrorId → Prop where
  | first {id : ErrorId} (hid : id < heap.errors.next) (h : heap.previous? id = none) :
      HasChain heap id
  | after {id next : ErrorId} (hid : id < heap.errors.next) (h : heap.Leads id next)
      (hnext : HasChain heap next) : HasChain heap id

/-- All notes of an error are texts. -/
def NotesAreTexts (heap : Heap) (id : ErrorId) : Prop :=
  ∀ note ∈ heap.list (heap.error id).notes, ∃ text, note = .str text

variable {heap other : Heap} {id next : ErrorId} {steps : Nat} {fault : ChainFault}

/-- The sentence between an error and the one that is shown before it. -/
def separator (heap : Heap) (id : ErrorId) : String :=
  if (heap.error id).cause.isSome then
    "The above exception was the direct cause of the following exception:"
  else "During handling of the above exception, another exception occurred:"

/-- The lines that stand before those of an error itself: the error before it and a sentence. -/
def linesBefore (heap : Heap) (steps : Nat) (id : ErrorId) : Except ChainFault (List String) :=
  match heap.previous? id with
  | some next => do
    let lines ← heap.chainLines steps next
    return lines ++ [heap.separator id]
  | none => return []

theorem chain_lines_succ (heap : Heap) (steps : Nat) (id : ErrorId) :
    heap.chainLines (steps + 1) id = (do
      let before ← heap.linesBefore steps id
      match noteTexts? (heap.list (heap.error id).notes).toList with
      | some notes => return before ++ (heap.error id).format :: notes
      | none => throw .badNote) := by
  unfold linesBefore previous? separator
  rw [chainLines]
  cases hcause : (heap.error id).cause with
  | some cause =>
      dsimp only
      cases heap.chainLines steps cause <;> rfl
  | none =>
      cases hcontext : (heap.error id).context with
      | none => rfl
      | some context =>
          dsimp only
          split
          · rfl
          · dsimp only
            cases heap.chainLines steps context <;> rfl

/-- Showing an error fails where showing the one before it does, or at its notes. -/
theorem chain_lines_error (h : heap.chainLines (steps + 1) id = .error fault) :
    (∃ next, heap.Leads id next ∧ heap.chainLines steps next = .error fault) ∨
      fault = .badNote ∧ noteTexts? (heap.list (heap.error id).notes).toList = none := by
  rw [chain_lines_succ] at h
  obtain hbefore | ⟨before, -, hnotes⟩ := bind_eq_error h
  · unfold linesBefore at hbefore
    split at hbefore
    · rename_i next hleads
      obtain hlines | ⟨lines, -, hdone⟩ := bind_eq_error hbefore
      · exact .inl ⟨next, hleads, hlines⟩
      · cases hdone
    · cases hbefore
  · split at hnotes
    · cases hnotes
    · cases hnotes
      exact .inr ⟨rfl, ‹_›⟩

theorem chain_lines_of_leads (hleads : heap.Leads id next)
    (h : heap.chainLines steps next = .error fault) :
    heap.chainLines (steps + 1) id = .error fault := by
  have hbefore : heap.linesBefore steps id = .error fault := by
    unfold linesBefore
    rw [show heap.previous? id = some next from hleads]
    dsimp only
    rw [h]
    rfl
  rw [chain_lines_succ, hbefore]
  rfl

/-- An error that leads to another exists. -/
theorem Leads.lt_next (h : heap.Leads id next) : id < heap.errors.next := by
  by_contra hout
  have hnone : heap.error id = default := by
    unfold error Store.get
    rw [Array.getD_eq_getD_getElem?, Array.getElem?_eq_none (Nat.le_of_not_lt hout)]
    rfl
  unfold Leads previous? at h
  rw [hnone] at h
  cases h

/-- Showing an error takes more than some steps exactly if there are so many errors before it. -/
theorem chain_lines_too_long_iff :
    heap.chainLines steps id = .error .tooLong ↔ (heap.before? steps id).isSome := by
  induction steps generalizing id with
  | zero => exact ⟨fun _ => rfl, fun _ => rfl⟩
  | succ steps ih =>
      rw [before?]
      constructor
      · intro h
        obtain ⟨next, hleads, hrest⟩ | ⟨hnote, -⟩ := chain_lines_error h
        · rw [show heap.previous? id = some next from hleads]
          exact ih.mp hrest
        · cases hnote
      · intro h
        cases hprevious : heap.previous? id with
        | none =>
            rw [hprevious] at h
            cases h
        | some next =>
            rw [hprevious] at h
            exact chain_lines_of_leads hprevious (ih.mpr h)

/-- If showing an error takes more than some steps, its links go on for as many. -/
theorem exists_path (h : heap.chainLines steps id = .error .tooLong) :
    ∃ path : List ErrorId, path.length = steps ∧ path.Pairwise (TransGen heap.Leads) ∧
      ∀ other ∈ path, ReflTransGen heap.Leads id other ∧ other < heap.errors.next := by
  induction steps generalizing id with
  | zero => exact ⟨[], rfl, .nil, fun _ hmem => nomatch hmem⟩
  | succ steps ih =>
      obtain ⟨next, hleads, hrest⟩ | ⟨hnote, -⟩ := chain_lines_error h
      · obtain ⟨path, hlength, hpairs, hpath⟩ := ih hrest
        refine ⟨id :: path, congrArg (· + 1) hlength, ?_, ?_⟩
        · exact .cons (fun other hmem => .head' hleads (hpath other hmem).1) hpairs
        · rw [List.forall_mem_cons]
          exact ⟨⟨.refl, hleads.lt_next⟩, fun other hmem =>
            ⟨.head hleads (hpath other hmem).1, (hpath other hmem).2⟩⟩
      · cases hnote

/-- The links of an error that leads into a cycle never end. -/
theorem Endless.exists_next (h : heap.Endless id) :
    ∃ next, heap.Leads id next ∧ heap.Endless next := by
  obtain ⟨other, hreaches, hcycle⟩ := h
  rcases ReflTransGen.cases_head hreaches with rfl | ⟨next, hleads, hrest⟩
  · obtain ⟨next, hleads, hback⟩ := TransGen.head'_iff.mp hcycle
    exact ⟨next, hleads, id, hback, hcycle⟩
  · exact ⟨next, hleads, other, hrest, hcycle⟩

theorem Endless.chain_lines (h : heap.Endless id) (steps : Nat) :
    heap.chainLines steps id = .error .tooLong := by
  induction steps generalizing id with
  | zero => rfl
  | succ steps ih =>
      obtain ⟨next, hleads, hnext⟩ := h.exists_next
      exact chain_lines_of_leads hleads (ih hnext)

theorem format_chain_error_iff :
    heap.formatChainWithin steps id = .error fault ↔ heap.chainLines steps id = .error fault := by
  unfold formatChainWithin
  generalize heap.chainLines steps id = lines
  cases lines with
  | ok lines => exact ⟨nofun, nofun⟩
  | error other =>
      constructor
      · intro h
        cases h
        rfl
      · intro h
        cases h
        rfl

/-- More steps than there are errors are too few exactly if the links lead into a cycle. -/
theorem chain_lines_endless_iff (hsteps : heap.errors.next < steps) :
    heap.chainLines steps id = .error .tooLong ↔ heap.Endless id := by
  refine ⟨fun h => ?_, fun h => h.chain_lines _⟩
  obtain ⟨path, hlength, hpairs, hpath⟩ := exists_path h
  by_contra hends
  -- Without a cycle the path would pass more errors than there are.
  have hnodup : path.Nodup := by
    refine hpairs.imp_of_mem fun {first second} hfirst _ hleads heq => ?_
    subst heq
    exact hends ⟨first, (hpath first hfirst).1, hleads⟩
  have hsubset : path ⊆ List.range heap.errors.next := fun other hmem =>
    List.mem_range.mpr (hpath other hmem).2
  have hle := (List.subperm_of_subset hnodup hsubset).length_le
  rw [List.length_range, hlength] at hle
  exact Nat.not_le_of_lt hsteps hle

theorem note_texts_eq_none_iff {notes : List Value} :
    noteTexts? notes = none ↔ ∃ note ∈ notes, ∀ text, note ≠ .str text := by
  induction notes with
  | nil => exact ⟨nofun, fun ⟨_, hmem, _⟩ => nomatch hmem⟩
  | cons note notes ih =>
      cases note with
      | str text =>
          rw [noteTexts?, Option.map_eq_none_iff, ih]
          simp
      | _ =>
          exact ⟨fun _ => ⟨_, List.mem_cons_self, nofun⟩, fun _ => rfl⟩

theorem not_notes_are_texts (h : noteTexts? (heap.list (heap.error id).notes).toList = none) :
    ¬heap.NotesAreTexts id := by
  obtain ⟨note, hmem, hnotext⟩ := note_texts_eq_none_iff.mp h
  intro htexts
  obtain ⟨text, heq⟩ := htexts note (Array.mem_toList_iff.mp hmem)
  exact hnotext text heq

/-- Otherwise it fails only at a note that is no text. -/
theorem exists_of_bad_note (h : heap.chainLines steps id = .error .badNote) :
    ∃ other, ReflTransGen heap.Leads id other ∧ ¬heap.NotesAreTexts other := by
  induction steps generalizing id with
  | zero => cases h
  | succ steps ih =>
      obtain ⟨next, hleads, hrest⟩ | ⟨-, hnote⟩ := chain_lines_error h
      · obtain ⟨other, hreaches, hnotes⟩ := ih hrest
        exact ⟨other, .head hleads hreaches, hnotes⟩
      · exact ⟨id, .refl, not_notes_are_texts hnote⟩

/-! ## Links that end -/

theorem Leads.linked (h : heap.Leads id next) : heap.Linked id next := by
  unfold Leads previous? at h
  split at h
  · rename_i hcause
    exact .inl (hcause.trans h)
  · rename_i hcontext
    split at h
    · cases h
    · exact .inr (hcontext.trans h)
  · cases h

/-- No chain is endless if the links end. -/
theorem LinksEnd.not_endless (h : heap.LinksEnd) (id : ErrorId) : ¬heap.Endless id := by
  rintro ⟨first, -, hcycle⟩
  exact h first (TransGen.mono (fun _ _ hleads => hleads.linked) first first hcycle)

/-- With more frames than there are errors, every error is shown to its end if the links end. -/
theorem LinksEnd.chain_lines_ne_too_long (h : heap.LinksEnd) (hsteps : heap.errors.next < steps)
    (id : ErrorId) : heap.chainLines steps id ≠ .error .tooLong :=
  fun heq => h.not_endless id ((chain_lines_endless_iff hsteps).mp heq)

/-- With one more link, a path either was there before, or it passes over the new link. -/
theorem trans_gen_linked {source target first last : ErrorId}
    (hlinked : ∀ id next, other.Linked id next →
      heap.Linked id next ∨ id = source ∧ next = target)
    (h : TransGen other.Linked first last) :
    TransGen heap.Linked first last ∨
      ReflTransGen heap.Linked first source ∧ ReflTransGen heap.Linked target last := by
  induction h with
  | single hlink =>
      obtain hold | ⟨rfl, rfl⟩ := hlinked _ _ hlink
      · exact .inl (.single hold)
      · exact .inr ⟨.refl, .refl⟩
  | tail _ hlink ih =>
      obtain hold | ⟨rfl, rfl⟩ := hlinked _ _ hlink
      · exact ih.imp (·.tail hold) fun ⟨hfirst, hlast⟩ => ⟨hfirst, hlast.tail hold⟩
      · obtain hpath | ⟨hfirst, -⟩ := ih
        · exact .inr ⟨hpath.to_reflTransGen, .refl⟩
        · exact .inr ⟨hfirst, .refl⟩

/-- A new link makes a cycle only if its end led back to its start already. -/
theorem LinksEnd.link {source target : ErrorId} (h : heap.LinksEnd)
    (hlinked : ∀ id next, other.Linked id next →
      heap.Linked id next ∨ id = source ∧ next = target)
    (hback : ¬ReflTransGen heap.Linked target source) : other.LinksEnd := by
  intro id hcycle
  obtain hold | ⟨hsource, htarget⟩ := trans_gen_linked hlinked hcycle
  · exact h id hold
  · exact hback (htarget.trans hsource)

theorem LinksEnd.of_linked (h : heap.LinksEnd)
    (hlinked : ∀ id next, other.Linked id next → heap.Linked id next) : other.LinksEnd :=
  fun id hcycle => h id (TransGen.mono hlinked id id hcycle)

/-! ## Chains of errors that exist -/

/-- An error that has a chain is shown if the chain is not too long and all notes are texts. -/
theorem HasChain.exists_format_chain (h : heap.HasChain id)
    (hshort : heap.before? steps id = none)
    (hnotes : ∀ id < heap.errors.next, heap.NotesAreTexts id) :
    ∃ text, heap.formatChainWithin steps id = .ok text := by
  have hexists {other : ErrorId} (hreaches : ReflTransGen heap.Leads id other) :
      other < heap.errors.next := by
    -- All errors on the way have a chain of their own.
    have hchain : heap.HasChain other := by
      induction hreaches with
      | refl => exact h
      | tail _ hleads ih =>
          cases ih with
          | first _ hfirst => cases hfirst.symm.trans hleads
          | after _ hother hnext =>
              cases hother.symm.trans hleads
              exact hnext
    cases hchain with
    | first hid => exact hid
    | after hid => exact hid
  cases hformat : heap.formatChainWithin steps id with
  | ok text => exact ⟨text, rfl⟩
  | error fault =>
      cases fault with
      | tooLong =>
          have hlong := chain_lines_too_long_iff.mp (format_chain_error_iff.mp hformat)
          rw [hshort] at hlong
          cases hlong
      | badNote =>
          obtain ⟨other, hreaches, hbad⟩ := exists_of_bad_note (format_chain_error_iff.mp hformat)
          exact (hbad (hnotes other (hexists hreaches))).elim

end Script.Heap
