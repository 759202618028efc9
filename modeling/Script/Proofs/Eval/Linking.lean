import Script.Proofs.Eval.Histories
import Script.Proofs.Heap.Chains

/-!
# Links between errors

An error is linked to another as to its cause, or, in a handler, to the error that is being handled.
The links form no cycle, and every error can be shown with those it is linked to if the machine can
follow the links, unless an application has linked an error to one that already led to it
(`Interpreter.chains_end`). A handler does not look further than one link, so it can do that.
-/

namespace Script

open Relation

/-- The application links the first error to the second. -/
inductive Application.Links : Application → ErrorId → ErrorId → Prop where
  | context (inner caught : ErrorId) : Links (.context inner caught) inner caught
  | cause (error cause : ErrorId) : Links (.cause error (some cause)) error cause
  | withCause (error cause : ErrorId) :
      Links (.method (.error error) "with_cause" [.error cause]) error cause

/-- The application links an error to one that leads to it. -/
def Application.ClosesCycle (application : Application) (heap : Heap) : Prop :=
  ∃ error next, application.Links error next ∧ ReflTransGen heap.Linked next error

namespace Heap

variable {heap after : Heap} {limits : Limits} {id next : ErrorId}

/-- A link after an error has been changed was there before, or it is one of the changed error. -/
theorem linked_of_modify {changed : ErrorId} {change : ErrorObject → ErrorObject}
    (h : Linked { heap with errors := heap.errors.modify changed change } id next) :
    heap.Linked id next ∨
      id = changed ∧ ((change (heap.error id)).cause = some next ∨
        (change (heap.error id)).context = some next) := by
  change ((heap.errors.modify changed change).get id).cause = some next ∨
    ((heap.errors.modify changed change).get id).context = some next at h
  by_cases hexists : changed < heap.errors.next
  · rw [Store.get_modify _ _ _ _ hexists] at h
    split at h
    · rename_i heq
      subst heq
      exact .inr ⟨rfl, h⟩
    · exact .inl h
  · rw [Store.get_modify_of_le _ _ _ _ (Nat.le_of_not_lt hexists)] at h
    exact .inl h

/-- Where no error gets a cause, there are no new links. -/
theorem Changes.linked (h : heap.Changes limits after) (hlinked : ∀ id, ¬limits.linked id)
    (hlink : after.Linked id next) : heap.Linked id next := by
  induction h with
  | trans _ _ ihfirst ihsecond => exact ihfirst (ihsecond hlink)
  | newError heap kind arguments =>
      unfold Linked error at hlink
      dsimp only at hlink
      rw [Store.get_push] at hlink
      split at hlink
      · simp at hlink
      · exact hlink
  | setCause _ hallowed => exact (hlinked _ hallowed).elim
  | _ => exact hlink

end Heap

namespace Application

variable {application : Application} {heap after : Heap} {id next : ErrorId}

theorem Links.unique {other target : ErrorId} (h : application.Links id next)
    (hother : application.Links other target) : id = other ∧ next = target := by
  cases h <;> cases hother <;> exact ⟨rfl, rfl⟩

/-- The method that gives an error a cause makes no other link. -/
theorem linked_of_with_cause {error : ErrorId} {items : List Value}
    (h : (Builtin.callMethod (.error error) "with_cause" items).effect heap = .ok after)
    (hlink : after.Linked id next) :
    heap.Linked id next ∨ Links (.method (.error error) "with_cause" items) id next := by
  match items with
  | [] | _ :: _ :: _ => cases h
  | [value] =>
      cases value with
      | null =>
          cases h
          obtain hold | ⟨-, hcause | hcontext⟩ := Heap.linked_of_modify hlink
          · exact .inl hold
          · cases hcause
          · exact .inl (.inr hcontext)
      | error target =>
          cases h
          obtain hold | ⟨rfl, hcause | hcontext⟩ := Heap.linked_of_modify hlink
          · exact .inl hold
          · cases hcause
            exact .inr (.withCause _ _)
          · exact .inl (.inr hcontext)
      | _ => cases h

/-- A link after an application was there before, or the application has made it. -/
theorem linked_of_effect (h : application.effect heap = .ok after)
    (hlink : after.Linked id next) : heap.Linked id next ∨ application.Links id next := by
  have hquiet (hcontext : ∀ error caught, application ≠ .context error caught)
      (hlinked : ∀ id, ¬application.limits.linked id) : heap.Linked id next :=
    (changes_of_effect h hcontext).linked hlinked hlink
  cases application with
  | operator | function | getItem | setItem => exact .inl (hquiet nofun fun _ hallowed => hallowed)
  | method receiver name items =>
      by_cases hmethod : ∃ error, receiver = .error error ∧ name = "with_cause"
      · obtain ⟨error, rfl, rfl⟩ := hmethod
        exact linked_of_with_cause h hlink
      · exact .inl (hquiet nofun fun error hallowed => hmethod ⟨error, hallowed⟩)
  | cause error linked =>
      cases h
      obtain hold | ⟨rfl, hcause | hcontext⟩ := Heap.linked_of_modify hlink
      · exact .inl hold
      · dsimp only at hcause
        subst hcause
        exact .inr (.cause _ _)
      · exact .inl (.inr hcontext)
  | context inner caught =>
      cases h
      obtain hold | ⟨rfl, hcause | hcontext⟩ := Heap.linked_of_modify hlink
      · exact .inl hold
      · exact .inl (.inl hcause)
      · cases hcontext
        exact .inr (.context _ _)

/-- The links still end after an application that does not close a cycle. -/
theorem links_end_of_effect (hheap : heap.LinksEnd) (h : application.effect heap = .ok after)
    (hcloses : ¬application.ClosesCycle heap) : after.LinksEnd := by
  by_cases hlinks : ∃ error target, application.Links error target
  · -- All new links are the same one.
    obtain ⟨error, target, hlinks⟩ := hlinks
    refine hheap.link (fun id next hlink => ?_) fun hback => hcloses ⟨error, target, hlinks, hback⟩
    exact (linked_of_effect h hlink).imp_right fun hnew => hnew.unique hlinks
  · refine hheap.of_linked fun id next hlink => ?_
    exact (linked_of_effect h hlink).resolve_right fun hnew => hlinks ⟨id, next, hnew⟩

end Application

/-- Nothing but an application can close a cycle. -/
theorem Heap.links_end_guarded : Heap.Guarded LinksEnd where
  empty maxDepth := by
    intro id hcycle
    obtain ⟨next, hlink, -⟩ := TransGen.head'_iff.mp hcycle
    cases hlink with
    | inl hcause => cases hcause
    | inr hcontext => cases hcontext
  congr {heap other} hheap _ herrors := by
    refine hheap.of_linked fun id next hlink => ?_
    unfold Linked error at hlink ⊢
    rwa [herrors] at hlink
  changes hchanges hheap := hheap.of_linked fun _ _ hlink => hchanges.linked (fun _ => id) hlink

namespace Interpreter

/-- What is the case of the run of a source if links end: in no state that it passes through do
links form a cycle, and a machine with more frames than there are errors shows every error to its
end; and if the run ends with an error, its exit code is one, unless there are as many errors before
that error as the machine has frames left, all of them different, or an error that is shown has a
note that is no text. -/
structure ShowsErrors (interpreter : Interpreter) (fuel : Nat) (source : String) : Prop where
  links {state : EvalState} : interpreter.Passes fuel source state → state.world.heap.LinksEnd
  ends {state : EvalState} : interpreter.Passes fuel source state →
    ∀ id frames, state.world.heap.errors.next < frames →
      state.world.heap.chainLines frames id ≠ .error .tooLong
  code {error : ProgramError} {after : Interpreter} (frames : Nat) :
    interpreter.run fuel source = (.failed error, after) →
      (interpreter.runScriptWithin frames fuel source).ending = .code 1 ∨
        ∃ id, error = .thrown id ∧ (frames ≤ after.world.heap.errors.next ∧
            (after.world.heap.before? frames id).isSome ∨
          ∃ other, ReflTransGen after.world.heap.Leads id other ∧
            ¬after.world.heap.NotesAreTexts other)

variable {interpreter after : Interpreter} {frames fuel : Nat} {source : String}

theorem run_script_code {error : ProgramError}
    (hrun : interpreter.run fuel source = (.failed error, after))
    (hafter : after.world.heap.LinksEnd) :
    (interpreter.runScriptWithin frames fuel source).ending = .code 1 ∨
      ∃ id, error = .thrown id ∧ (frames ≤ after.world.heap.errors.next ∧
          (after.world.heap.before? frames id).isSome ∨
        ∃ other, ReflTransGen after.world.heap.Leads id other ∧
          ¬after.world.heap.NotesAreTexts other) := by
  cases hformat : error.formatChainWithin after.world.heap frames with
  | ok chain => exact .inl (run_script_of_format_chain hrun hformat)
  | error fault =>
      cases error with
      | lex | parse => cases hformat
      | thrown id =>
          cases fault with
          | tooLong =>
              have hlines := Heap.format_chain_error_iff.mp hformat
              have hmany : frames ≤ after.world.heap.errors.next :=
                Nat.le_of_not_lt fun hfew => hafter.chain_lines_ne_too_long hfew id hlines
              exact .inr ⟨id, rfl, .inl ⟨hmany, Heap.chain_lines_too_long_iff.mp hlines⟩⟩
          | badNote =>
              have hlines := Heap.format_chain_error_iff.mp hformat
              exact .inr ⟨id, rfl, .inr (Heap.exists_of_bad_note hlines)⟩

/-- Whatever programs have been run and whatever source is run then: an application has linked an
error to one that led to it already, which only a handler can do if no error is given a cause; or
the links between errors form no cycle, and errors are shown. -/
theorem chains_end {made : Application → Heap → Prop} (hhistory : interpreter.History made)
    (fuel : Nat) (source : String) :
    (∃ application heap,
      (made application heap ∨ interpreter.SourceApplies fuel source application heap) ∧
        application.ClosesCycle heap) ∨
    interpreter.ShowsErrors fuel source := by
  obtain ⟨application, heap, hmade, hloses⟩ | hkept :=
    hhistory.lost_or_kept Heap.links_end_guarded fuel source
  · refine .inl ⟨application, heap, hmade, ?_⟩
    obtain ⟨hheap, after, heffect, hlost⟩ := hloses
    by_contra hcloses
    exact hlost (Application.links_end_of_effect hheap heffect hcloses)
  · refine .inr ⟨fun hpasses => hkept _ hpasses, fun hpasses id frames hframes => ?_,
      fun {error after} frames hrun => ?_⟩
    · exact (hkept _ hpasses).chain_lines_ne_too_long hframes id
    · have hpasses : interpreter.Passes fuel source (interpreter.run fuel source).2.state := .after
      have hafter := hkept _ hpasses
      rw [hrun] at hafter
      exact run_script_code hrun hafter

/-- After a handler has thrown another error, which is linked to the one that it was handling. -/
theorem chains_end_after_handler :
    let program := [Expr.tryCatch [.throwError (.string "a") none] none
      [.throwError (.string "b") none]]
    let start := fresh 1000 (Console.ofInput "")
    let interpreter := (start.runProgram 10 program).2
    let made application heap := False ∨ start.Applies 10 program application heap
    interpreter.History made ∧ (interpreter.world.heap.error 1).context = some 0 ∧
      ((∃ application heap,
        (made application heap ∨ interpreter.SourceApplies 10 "throw \"c\"" application heap) ∧
          application.ClosesCycle heap) ∨
      interpreter.ShowsErrors 10 "throw \"c\"") := by
  intro program start interpreter made
  have hhistory : interpreter.History made := (History.fresh 1000 (Console.ofInput "")).runProgram
    10 program
  exact ⟨hhistory, rfl, chains_end hhistory 10 _⟩

/-- If more frames than there are errors are too few to show the error that ends a run, then so is
every number of frames. -/
theorem run_script_too_long {many : Nat}
    (hmany : (interpreter.run fuel source).2.world.heap.errors.next < many)
    (h : (interpreter.runScriptWithin many fuel source).ending = .chainFault .tooLong)
    (frames : Nat) :
    (interpreter.runScriptWithin frames fuel source).ending = .chainFault .tooLong := by
  rcases hrun : interpreter.run fuel source with ⟨result, after⟩
  unfold runScriptWithin at h ⊢
  rw [hrun] at hmany h ⊢
  cases result with
  | value | fault | outOfFuel => cases h
  | failed error =>
      cases error with
      | lex | parse => cases h
      | thrown id =>
          unfold ProgramError.formatChainWithin at h ⊢
          dsimp only at h ⊢
          cases hformat : after.world.heap.formatChainWithin many id with
          | ok chain =>
              rw [hformat] at h
              cases h
          | error fault =>
              rw [hformat] at h
              cases h
              have hendless := (Heap.chain_lines_endless_iff hmany).mp
                (Heap.format_chain_error_iff.mp hformat)
              rw [Heap.format_chain_error_iff.mpr (hendless.chain_lines frames)]

/-- Errors that are thrown in handlers of each other are linked in a cycle, without any causes, and
the run has no exit code, however many frames the machine has left. -/
theorem contexts_form_cycle :
    let interpreter := fresh 1000 (Console.ofInput "")
    let source := "let a = ValueError(\"a\")\nlet b = ValueError(\"b\")\n" ++
      "try \x7b try \x7b throw b \x7d catch e \x7b throw a \x7d \x7d catch e \x7b throw b \x7d"
    let heap := (interpreter.run 10 source).2.world.heap
    (heap.error 0).context = some 1 ∧ (heap.error 1).context = some 0 ∧
      (heap.error 0).cause = none ∧ (heap.error 1).cause = none ∧
      ∀ frames, (interpreter.runScriptWithin frames 10 source).ending = .chainFault .tooLong := by
  intro interpreter source heap
  have hrun : ((heap.error 0).context = some 1 ∧ (heap.error 1).context = some 0 ∧
      (heap.error 0).cause = none ∧ (heap.error 1).cause = none) ∧
      heap.errors.next < 3 ∧
      (interpreter.runScriptWithin 3 10 source).ending = .chainFault .tooLong := by
    decide +kernel
  obtain ⟨⟨hfirst, hsecond, hcause, hcause'⟩, hfew, hending⟩ := hrun
  exact ⟨hfirst, hsecond, hcause, hcause', run_script_too_long hfew hending⟩

end Interpreter

end Script
