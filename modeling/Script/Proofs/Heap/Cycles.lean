import Script.Proofs.Heap.Room

/-!
# Values without texts

A value that leads into a cycle of the parts that it shows has no text. Any other value is nested to
some depth only (`Heap.exists_shown_within`), because the heap is finite, and within this depth it
has a text if no integer in it has too many digits (`Heap.exists_text_iff`). What a value refers to
(`Heap.Refers`) is more than what it shows: instances of classes, methods, classes and errors keep
what they refer to out of their texts, so that a cycle through one of them does no harm
(`Heap.CyclesHidden.not_leads_into_cycle`).
-/

namespace Script.Heap

open Relation

variable {heap : Heap} {limit more : Nat} {whole part value : Value} {text : String}

/-! ## Parts that are shown -/

/-- Every way along the parts that a value shows ends after fewer steps than the limit. -/
def ShownWithin (heap : Heap) (limit : Nat) (value : Value) : Prop :=
  EndsWithin heap.Shows limit value

/-- A way along the parts that a value shows leads into a cycle of such parts. -/
def LeadsIntoCycle (heap : Heap) (value : Value) : Prop :=
  ∃ part, ReflTransGen heap.Shows value part ∧ TransGen heap.Shows part part

/-- The values that lists, dictionaries, sets and instances hold. -/
def Held (heap : Heap) (value : Value) : Prop :=
  heap.Stored value ∨ ∃ id, value ∈ (heap.instanceOf id).fields.entries.map (·.2)

theorem finite_held (heap : Heap) : {value | heap.Held value}.Finite := by
  have hfields :=
    heap.instances.finite_values (fun contents => contents.fields.entries.map (·.2)) rfl
  exact heap.finite_stored.union hfields

/-- A part that is shown lies inside the value, or is held by an object. -/
theorem Shows.cases (h : heap.Shows whole part) : Inside part whole ∨ heap.Held part := by
  cases h with
  | item hmem => exact .inr (.inl (.item (Array.mem_toList_iff.mpr hmem)))
  | component hmem => exact .inl (.tuple hmem .self)
  | key hmem => exact .inr (.inl (.entry (List.mem_append_left _ (List.mem_map_of_mem hmem))))
  | value hmem => exact .inr (.inl (.entry (List.mem_append_right _ (List.mem_map_of_mem hmem))))
  | member hmem => exact .inr (.inl (.member hmem))
  | frozen hmem => exact .inl (.frozenset hmem .self)
  | field hstruct hmem => exact .inr (.inr ⟨_, List.mem_map_of_mem hmem⟩)

/-- A value that does not lead into a cycle is nested to some depth only. -/
theorem exists_shown_within (h : ¬heap.LeadsIntoCycle value) :
    ∃ limit, heap.ShownWithin limit value := by
  -- Along parts that are shown, what lies outside of the value is held by an object of the heap.
  have hfinite : {part | ReflTransGen heap.Shows value part}.Finite :=
    finite_reached_along heap.finite_held (fun _ _ => Shows.cases) value
  exact exists_ends_within hfinite fun part hpart hcycle => h ⟨part, hpart, hcycle⟩

theorem ShownWithin.not_leads_into_cycle (h : heap.ShownWithin limit value) :
    ¬heap.LeadsIntoCycle value :=
  fun ⟨_, hpart, hcycle⟩ => EndsWithin.acyclic h hpart hcycle

/-! ## Which values have a text -/

/-- A value with a text is nested within the limit. -/
theorem shown_within_of_text (h : heap.displayWithin limit value = .ok text) :
    heap.ShownWithin limit value := by
  induction limit generalizing value text with
  | zero => cases h
  | succ limit ih =>
      rw [display_within_succ] at h
      intro part hpart
      obtain ⟨text, hshown⟩ := Layout.exists_text_of_render h (shows_iff_mem_parts.mp hpart)
      exact ih hshown

/-- Within the limit, only an integer with too many digits keeps a value from having a text. -/
theorem ShownWithin.exists_text (h : heap.ShownWithin limit value)
    (hshort : ¬heap.ShowsLong value) : ∃ text, heap.displayWithin limit value = .ok text := by
  induction limit generalizing value with
  | zero => exact h.elim
  | succ limit ih =>
      cases hrun : heap.displayWithin (limit + 1) value with
      | ok text => exact ⟨text, rfl⟩
      | error fault =>
          exfalso
          rw [display_within_succ] at hrun
          obtain hplain | ⟨part, hmem, hfault⟩ := Layout.render_error hrun
          · exact hshort ⟨value, .refl, (has_long_of_plain hplain).2⟩
          · have hpart : heap.Shows value part := shows_iff_mem_parts.mpr hmem
            obtain ⟨text, htext⟩ := ih (h part hpart) fun hlong => hshort (hlong.of_part hpart)
            cases hfault.symm.trans htext

/-- Without integers that are too long, the values with a text are those nested within the limit. -/
theorem exists_text_iff (hshort : ¬heap.ShowsLong value) :
    (∃ text, heap.displayWithin limit value = .ok text) ↔ heap.ShownWithin limit value :=
  ⟨fun ⟨_, htext⟩ => shown_within_of_text htext, fun h => h.exists_text hshort⟩

theorem display_within_recursion (hshort : ¬heap.ShowsLong value)
    (h : ¬heap.ShownWithin limit value) : heap.displayWithin limit value = .error .recursion := by
  cases hrun : heap.displayWithin limit value with
  | ok text => exact absurd (shown_within_of_text hrun) h
  | error fault =>
      obtain rfl | ⟨-, hlong⟩ := display_within_fault hrun
      · rfl
      · exact absurd hlong hshort

/-! ## References that are not shown -/

/-- The second value is one that the first refers to, whether or not its text shows it. -/
inductive Refers (heap : Heap) : Value → Value → Prop where
  | shown {whole part : Value} (h : heap.Shows whole part) : Refers heap whole part
  | field {id : InstanceId} {field : String × Value}
      (h : field ∈ (heap.instanceOf id).fields.entries) : Refers heap (.object id) field.2
  | classOf (id : InstanceId) :
      Refers heap (.object id) (.classObject (heap.instanceOf id).classId)
  | receiver (mark : Nat) (id : InstanceId) (function : FunctionId) :
      Refers heap (.boundMethod mark id function) (.object id)
  | method (mark : Nat) (id : InstanceId) (function : FunctionId) :
      Refers heap (.boundMethod mark id function) (.function function)
  | owner (mark : Nat) (object : Value) (method : String) :
      Refers heap (.builtinMethod mark object method) object
  | default {id : ClassId} {field : String × Value}
      (h : field ∈ (heap.classDef id).fields.entries) : Refers heap (.classObject id) field.2
  | defined {id : ClassId} {method : String × FunctionId}
      (h : method ∈ (heap.classDef id).methods.entries) :
      Refers heap (.classObject id) (.function method.2)
  | base {id base : ClassId} (h : (heap.classDef id).base = some base) :
      Refers heap (.classObject id) (.classObject base)
  | notes (id : ErrorId) : Refers heap (.error id) (.list (heap.error id).notes)
  | cause {id cause : ErrorId} (h : (heap.error id).cause = some cause) :
      Refers heap (.error id) (.error cause)
  | context {id context : ErrorId} (h : (heap.error id).context = some context) :
      Refers heap (.error id) (.error context)

/-- The value is an instance of a class, a method, a class or an error. -/
def Hides (heap : Heap) : Value → Prop
  | .object id => (heap.classOf id).kind ≠ .struct
  | .boundMethod _ _ _ | .builtinMethod _ _ _ | .classObject _ | .error _ => True
  | _ => False

/-- Every cycle of references that the value leads into goes through an instance of a class, a
method, a class or an error. -/
def CyclesHidden (heap : Heap) (value : Value) : Prop :=
  ∀ part, ReflTransGen heap.Refers value part →
    ¬TransGen (fun whole part => heap.Refers whole part ∧ ¬heap.Hides whole) part part

/-- A value that hides what it refers to shows no parts. -/
theorem Shows.not_hides (h : heap.Shows whole part) : ¬heap.Hides whole := by
  intro hhides
  cases h with
  | field hstruct => exact hhides hstruct
  | _ => exact hhides

theorem CyclesHidden.not_leads_into_cycle (h : heap.CyclesHidden value) :
    ¬heap.LeadsIntoCycle value := by
  rintro ⟨part, hpart, hcycle⟩
  have hreached : ReflTransGen heap.Refers value part :=
    ReflTransGen.mono (fun _ _ => Refers.shown) _ _ hpart
  refine h part hreached (TransGen.mono (fun _ _ hshows => ?_) _ _ hcycle)
  exact ⟨.shown hshows, hshows.not_hides⟩

/-! ## Main results -/

/-- A value in which no integer has too many digits has no text if it leads into a cycle of parts
that it shows, whatever the limit on how deep values are nested. Any other value is nested to some
depth only, and has a text if the limit is no lower than this depth, which is the same for all such
limits. Cycles of references that go through an instance of a class, a method, a class or an error
do not matter. -/
theorem display_fails_only_on_cycles (hshort : ¬heap.ShowsLong value) :
    (heap.LeadsIntoCycle value → ∀ limit, heap.displayWithin limit value = .error .recursion) ∧
    (¬heap.LeadsIntoCycle value →
      ∃ depth text, (∀ limit, heap.ShownWithin limit value ↔ depth ≤ limit) ∧
        ∀ limit, heap.displayWithin limit value =
          if depth ≤ limit then .ok text else .error .recursion) ∧
    (heap.CyclesHidden value → ¬heap.LeadsIntoCycle value) := by
  classical
  refine ⟨fun hcycle limit => ?_, fun hacyclic => ?_, CyclesHidden.not_leads_into_cycle⟩
  · exact display_within_recursion hshort fun hwithin => hwithin.not_leads_into_cycle hcycle
  · -- The depth of the value is the least limit that it is nested within.
    have hexists := exists_shown_within hacyclic
    let depth := Nat.find hexists
    have hdepth : heap.ShownWithin depth value := Nat.find_spec hexists
    have hleast (limit : Nat) : heap.ShownWithin limit value ↔ depth ≤ limit :=
      ⟨Nat.find_min' hexists, EndsWithin.mono hdepth⟩
    obtain ⟨text, htext⟩ := (exists_text_iff hshort).mpr hdepth
    refine ⟨depth, text, hleast, fun limit => ?_⟩
    split
    · rename_i hle
      exact display_within_mono htext hle
    · rename_i hlt
      exact display_within_recursion hshort (mt (hleast limit).mp hlt)

/-- A list that is its own item, and a list that is a field of its item, an instance of a class. -/
theorem display_fails_only_on_cycles_of_lists :
    let heap : Heap :=
      { Heap.empty 1000 with
        lists := ⟨#[#[.list 0], #[.object 0]]⟩
        classes := ⟨#[⟨"Node", .regular, none, .empty, .empty, []⟩]⟩
        instances := ⟨#[⟨0, ⟨[("home", .list 1)]⟩⟩]⟩ }
    ¬heap.ShowsLong (.list 0) ∧ heap.LeadsIntoCycle (.list 0) ∧
      heap.display (.list 0) = .error .recursion ∧
    ¬heap.ShowsLong (.list 1) ∧ heap.CyclesHidden (.list 1) ∧
      ∃ text, heap.display (.list 1) = .ok text := by
  intro heap
  have hself {part : Value} (h : ReflTransGen heap.Shows (.list 0) part) : part = .list 0 := by
    induction h with
    | refl => rfl
    | tail _ hlast ih =>
        subst ih
        exact List.mem_singleton.mp (shows_iff_mem_parts.mp hlast)
  have hnode {part : Value} (h : ReflTransGen heap.Shows (.list 1) part) :
      part = .list 1 ∨ part = .object 0 := by
    induction h with
    | refl => exact .inl rfl
    | tail _ hlast ih =>
        obtain rfl | rfl := ih
        · exact .inr (List.mem_singleton.mp (shows_iff_mem_parts.mp hlast))
        · cases shows_iff_mem_parts.mp hlast
  have hshort : ¬heap.ShowsLong (.list 0) := by
    rintro ⟨part, hpart, hlong⟩
    obtain rfl := hself hpart
    cases hlong
  have hshort' : ¬heap.ShowsLong (.list 1) := by
    rintro ⟨part, hpart, hlong⟩
    obtain rfl | rfl := hnode hpart <;> cases hlong
  have hcycle : heap.LeadsIntoCycle (.list 0) :=
    ⟨.list 0, .refl, .single (shows_iff_mem_parts.mpr List.mem_cons_self)⟩
  have hhides : heap.Hides (.object 0) := by
    intro hstruct
    cases hstruct
  have hreached {part : Value} (h : ReflTransGen heap.Refers (.list 1) part) :
      part = .list 1 ∨ part = .object 0 ∨ part = .classObject 0 := by
    induction h with
    | refl => exact .inl rfl
    | tail _ hlast ih =>
        obtain rfl | rfl | rfl := ih
        · cases hlast with
          | shown h => exact .inr (.inl (List.mem_singleton.mp (shows_iff_mem_parts.mp h)))
        · cases hlast with
          | shown h => cases shows_iff_mem_parts.mp h
          | field h => exact .inl (List.mem_singleton.mp h ▸ rfl)
          | classOf => exact .inr (.inr rfl)
        · cases hlast with
          | shown h => cases shows_iff_mem_parts.mp h
          | default h => cases h
          | defined h => cases h
          | base h => cases h
  have hhidden : heap.CyclesHidden (.list 1) := by
    intro part hpart hcycle
    obtain ⟨next, ⟨hfirst, hopen⟩, hback⟩ := TransGen.head'_iff.mp hcycle
    obtain rfl | rfl | rfl := hreached hpart
    · obtain ⟨hnext⟩ := hfirst
      obtain rfl := List.mem_singleton.mp (shows_iff_mem_parts.mp hnext)
      obtain heq | ⟨_, ⟨-, hopen⟩, -⟩ := hback.cases_head
      · cases heq
      · exact hopen hhides
    · exact hopen hhides
    · exact hopen trivial
  obtain ⟨hfails, -⟩ := display_fails_only_on_cycles hshort
  obtain ⟨-, hshown, hacyclic⟩ := display_fails_only_on_cycles hshort'
  obtain ⟨depth, text, hdepth, htext⟩ := hshown (hacyclic hhidden)
  have hnests : heap.ShownWithin 2 (.list 1) := by
    intro part hpart inner hinner
    obtain rfl := List.mem_singleton.mp (shows_iff_mem_parts.mp hpart)
    cases shows_iff_mem_parts.mp hinner
  have hwithin : heap.ShownWithin heap.nestingLimit (.list 1) := hnests.mono (by decide)
  refine ⟨hshort, hcycle, hfails hcycle heap.nestingLimit, hshort', hhidden, text, ?_⟩
  exact (htext heap.nestingLimit).trans (if_pos ((hdepth heap.nestingLimit).mp hwithin))

end Script.Heap
