import Script.Proofs.Eval.Histories
import Script.Proofs.Heap.Chains

/-!
# Notes of errors

The notes of an error are a list that a program can get hold of. Only texts get into it as notes,
but anything can be put into it as into any other list. All notes are texts, and every error with a
chain that the machine can follow can be shown, unless that has been done
(`Interpreter.notes_stay_texts`). Each error has a list of its own, which is made with it, so
nothing else is ever found there.
-/

namespace Script

/-- The application works on an object that it can change. -/
inductive Application.WorksOn : Application → Value → Prop where
  | method (receiver : Value) (name : String) (items : List Value) :
      WorksOn (.method receiver name items) receiver
  | setItem (collection index value : Value) : WorksOn (.setItem collection index value) collection

/-- The application is one of a list method or an assignment to the list of the notes of an error,
and leaves a note that is no text. -/
def Application.SpoilsNotes (application : Application) (heap : Heap) : Prop :=
  ∃ after id, application.effect heap = .ok after ∧ id < after.errors.next ∧
    application.WorksOn (.list (after.error id).notes) ∧ ¬after.NotesAreTexts id

namespace Heap

variable {heap after : Heap} {limits : Limits} {except : Value → Prop}

/-- Every error has a list for its notes, and all notes are texts, but for those in some lists. -/
def NotesKept (except : Value → Prop) (heap : Heap) : Prop :=
  ∀ id < heap.errors.next, (heap.error id).notes < heap.lists.next ∧
    (¬except (.list (heap.error id).notes) → heap.NotesAreTexts id)

theorem NotesKept.mono {more : Value → Prop} (h : heap.NotesKept except)
    (hmore : ∀ value, except value → more value) : heap.NotesKept more :=
  fun id hid => ⟨(h id hid).1, fun hnot => (h id hid).2 (mt (hmore _) hnot)⟩

theorem NotesKept.congr {other : Heap} (h : heap.NotesKept except)
    (hlists : other.lists = heap.lists) (herrors : other.errors = heap.errors) :
    other.NotesKept except := by
  unfold NotesKept NotesAreTexts error list at h ⊢
  rwa [hlists, herrors]

/-- Changing lists keeps the notes if it keeps all lists that hold them. -/
theorem NotesKept.of_lists {lists : Store (Array Value)} (h : heap.NotesKept except)
    (hnext : heap.lists.next ≤ lists.next)
    (hlists : ∀ id < heap.lists.next, ¬except (.list id) →
      (∀ note ∈ heap.list id, ∃ text, note = .str text) →
        ∀ note ∈ lists.get id, ∃ text, note = .str text) :
    NotesKept except { heap with lists } := by
  intro id hid
  obtain ⟨hlist, htexts⟩ := h id hid
  exact ⟨Nat.lt_of_lt_of_le hlist hnext, fun hnot => hlists _ hlist hnot (htexts hnot)⟩

/-- Changing an error keeps the notes if it has the same list for them. -/
theorem NotesKept.modify_error (h : heap.NotesKept except) (changed : ErrorId)
    {change : ErrorObject → ErrorObject} (hchange : ∀ error, (change error).notes = error.notes) :
    NotesKept except { heap with errors := heap.errors.modify changed change } := by
  have hnotes (id : ErrorId) :
      ((heap.errors.modify changed change).get id).notes = (heap.error id).notes := by
    by_cases hexists : changed < heap.errors.next
    · rw [Store.get_modify _ _ _ _ hexists]
      split
      · rename_i heq
        rw [hchange, heq]
        rfl
      · rfl
    · rw [Store.get_modify_of_le _ _ _ _ (Nat.le_of_not_lt hexists)]
      rfl
  intro id hid
  change id < (heap.errors.modify changed change).next at hid
  rw [Store.next_modify] at hid
  unfold NotesAreTexts error
  dsimp only
  rw [hnotes]
  exact h id hid

/-- Changing a list keeps the notes if it makes none in it that is no text. -/
theorem NotesKept.modify_list {changed : ListId} {change : Array Value → Array Value}
    (h : heap.NotesKept except)
    (hchange : ¬except (.list changed) →
      (∀ note ∈ heap.list changed, ∃ text, note = .str text) →
        ∀ note ∈ change (heap.list changed), ∃ text, note = .str text) :
    NotesKept except { heap with lists := heap.lists.modify changed change } := by
  refine h.of_lists (Nat.le_of_eq (Store.next_modify _ _ _).symm) fun id _ hnot htexts => ?_
  by_cases hexists : changed < heap.lists.next
  · rw [Store.get_modify _ _ _ _ hexists]
    split
    · rename_i heq
      subst heq
      exact hchange hnot htexts
    · exact htexts
  · rw [Store.get_modify_of_le _ _ _ _ (Nat.le_of_not_lt hexists)]
    exact htexts

/-- A new list is not one that holds notes. -/
theorem NotesKept.push_list (h : heap.NotesKept except) (items : Array Value) :
    NotesKept except { heap with lists := heap.lists.push items } := by
  refine h.of_lists ?_ fun id hid _ htexts => ?_
  · rw [Store.next_push]
    exact Nat.le_succ _
  · rw [Store.get_push, if_neg (Nat.ne_of_lt hid)]
    exact htexts

theorem NotesKept.new_error (h : heap.NotesKept except) (kind : ErrorKind)
    (arguments : List String) :
    NotesKept except
      { heap with
        lists := heap.lists.push #[]
        errors := heap.errors.push ⟨kind, arguments, heap.lists.next, none, none, false⟩ } := by
  intro id hid
  change id < (heap.errors.push _).next at hid
  rw [Store.next_push] at hid
  unfold NotesAreTexts error list
  dsimp only
  rw [Store.get_push]
  split
  · -- The list of the new error is the one that has just been made, and it is empty.
    rw [Store.get_push, if_pos rfl, Store.next_push]
    exact ⟨Nat.lt_succ_self _, fun _ note hmem => (Array.not_mem_empty note hmem).elim⟩
  · rename_i hold
    exact h.push_list #[] id (Nat.lt_of_le_of_ne (Nat.le_of_lt_succ hid) hold)

/-- Within limits, notes are lost only in lists that may be changed. -/
theorem Changes.notes_kept (h : heap.Changes limits after)
    (hheap : heap.NotesKept limits.objects) : after.NotesKept limits.objects := by
  induction h with
  | trans _ _ ihfirst ihsecond => exact ihsecond (ihfirst hheap)
  | newList _ items => exact hheap.push_list items
  | newError _ kind arguments => exact hheap.new_error kind arguments
  | setList _ hallowed change => exact hheap.modify_list fun hnot => (hnot hallowed).elim
  | addNote heap _ note =>
      refine hheap.modify_list fun _ htexts other hmem => ?_
      obtain hmem | rfl := Array.mem_push.mp hmem
      · exact htexts other hmem
      · exact ⟨note, rfl⟩
  | setCause _ _ cause => exact hheap.modify_error _ fun _ => rfl
  | _ => exact hheap.congr rfl rfl

/-- Nothing but an application can put something else than a text among notes. -/
theorem notes_kept_guarded : Guarded (NotesKept fun _ => False) where
  empty _ := fun _ hid => (Nat.not_lt_zero _ hid).elim
  congr hheap hlists herrors := hheap.congr hlists herrors
  changes hchanges hheap := hchanges.notes_kept hheap

end Heap

namespace Application

variable {application : Application} {heap after : Heap}

/-- Only the object that an application works on may be changed. -/
theorem works_on_of_objects {object : Value} (h : application.limits.objects object) :
    application.WorksOn object := by
  cases application with
  | method receiver name items =>
      cases h
      exact .method _ name items
  | setItem collection index value =>
      cases h
      exact .setItem _ index value
  | _ => exact h.elim

/-- An application that does not spoil notes keeps them. -/
theorem notes_kept_of_effect (hheap : heap.NotesKept fun _ => False)
    (h : application.effect heap = .ok after) (hspoils : ¬application.SpoilsNotes heap) :
    after.NotesKept fun _ => False := by
  by_cases hcontext : ∃ inner caught, application = .context inner caught
  · obtain ⟨inner, caught, rfl⟩ := hcontext
    cases h
    exact hheap.modify_error inner fun _ => rfl
  · have hchanges : heap.Changes application.limits after :=
      changes_of_effect h fun inner caught heq => hcontext ⟨inner, caught, heq⟩
    have hafter := hchanges.notes_kept (hheap.mono fun _ => False.elim)
    refine fun id hid => ⟨(hafter id hid).1, fun _ => ?_⟩
    -- A note that is lost is in the list that the application works on.
    by_cases hlist : application.limits.objects (.list (after.error id).notes)
    · by_contra hbad
      exact hspoils ⟨after, id, h, hid, works_on_of_objects hlist, hbad⟩
    · exact (hafter id hid).2 hlist

end Application

namespace Interpreter

/-- What is the case of the run of a source if notes are texts: that they are in all states that the
run passes through, and that every error with a chain can be shown there, if there are fewer errors
before it than the machine has frames left, whatever number that is; such an error that ends the run
gives the exit code one. -/
structure ShowsNotes (interpreter : Interpreter) (fuel : Nat) (source : String) : Prop where
  texts {state : EvalState} : interpreter.Passes fuel source state →
    ∀ id < state.world.heap.errors.next, state.world.heap.NotesAreTexts id
  shown {state : EvalState} : interpreter.Passes fuel source state →
    ∀ id frames, state.world.heap.HasChain id → state.world.heap.before? frames id = none →
      ∃ text, state.world.heap.formatChainWithin frames id = .ok text
  code {id : ErrorId} {after : Interpreter} (frames : Nat) :
    interpreter.run fuel source = (.failed (.thrown id), after) → after.world.heap.HasChain id →
      after.world.heap.before? frames id = none →
        (interpreter.runScriptWithin frames fuel source).ending = .code 1

/-- Whatever programs have been run and whatever source is run then: a method of the list of the
notes of an error or an assignment to an item of it has left a note that is no text; or all notes of
all errors are texts. -/
theorem notes_stay_texts {interpreter : Interpreter} {made : Application → Heap → Prop}
    (hhistory : interpreter.History made) (fuel : Nat) (source : String) :
    (∃ application heap,
      (made application heap ∨ interpreter.SourceApplies fuel source application heap) ∧
        application.SpoilsNotes heap) ∨
    interpreter.ShowsNotes fuel source := by
  obtain ⟨application, heap, hmade, hloses⟩ | hkept :=
    hhistory.lost_or_kept Heap.notes_kept_guarded fuel source
  · refine .inl ⟨application, heap, hmade, ?_⟩
    obtain ⟨hheap, after, heffect, hlost⟩ := hloses
    by_contra hspoils
    exact hlost (Application.notes_kept_of_effect hheap heffect hspoils)
  · have htexts {state : EvalState} (hpasses : interpreter.Passes fuel source state) :
        ∀ id < state.world.heap.errors.next, state.world.heap.NotesAreTexts id :=
      fun id hid => (hkept state hpasses id hid).2 False.elim
    refine .inr ⟨htexts, ?_, fun {id after} frames hrun hchain hshort => ?_⟩
    · exact fun hpasses id frames hchain hshort =>
        hchain.exists_format_chain hshort (htexts hpasses)
    · have hpasses : interpreter.Passes fuel source (interpreter.run fuel source).2.state := .after
      have hafter := htexts hpasses
      rw [hrun] at hafter
      obtain ⟨text, hformat⟩ := hchain.exists_format_chain hshort hafter
      exact run_script_of_format_chain hrun hformat

/-- After a program that has given a caught error a note. -/
theorem notes_stay_texts_after_note :
    let program := [Expr.tryCatch [.throwError (.string "a") none] (some "e")
      [.methodCall (.name "e") "add_note" [.string "n"]]]
    let start := fresh 1000 (Console.ofInput "")
    let interpreter := (start.runProgram 10 program).2
    let made application heap := False ∨ start.Applies 10 program application heap
    let notes := (interpreter.world.heap.error 0).notes
    interpreter.History made ∧
      Heap.noteTexts? (interpreter.world.heap.list notes).toList = some ["n"] ∧
      ((∃ application heap,
        (made application heap ∨ interpreter.SourceApplies 10 "throw e" application heap) ∧
          application.SpoilsNotes heap) ∨
      interpreter.ShowsNotes 10 "throw e") := by
  intro program start interpreter made notes
  have hhistory : interpreter.History made := (History.fresh 1000 (Console.ofInput "")).runProgram
    10 program
  exact ⟨hhistory, by decide +kernel, notes_stay_texts hhistory 10 _⟩

/-- A number that is appended to the notes of an error is a note that is no text, and the run that
throws the error has no exit code, although the error is linked to no other. -/
theorem note_no_text :
    let interpreter := fresh 1000 (Console.ofInput "")
    let source := "let e = ValueError(\"a\")\ne.notes.append(5)\nthrow e"
    let heap := (interpreter.run 10 source).2.world.heap
    0 < heap.errors.next ∧ ¬heap.NotesAreTexts 0 ∧ heap.previous? 0 = none ∧
      (interpreter.runScript 10 source).ending = .chainFault .badNote := by
  intro interpreter source heap
  have hnote : Heap.noteTexts? (heap.list (heap.error 0).notes).toList = none := by
    decide +kernel
  refine ⟨?_, Heap.not_notes_are_texts hnote, ?_, ?_⟩
  · decide +kernel
  · decide +kernel
  · decide +kernel

end Interpreter

end Script
