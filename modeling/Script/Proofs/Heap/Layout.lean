import Mathlib.Data.List.Monad
import Script.Heap.Display

/-!
# How texts are laid out

The text of a value is put together from the texts of the parts that it shows: the layout of a value
(`Heap.layout`) says how. Showing a value is rendering its layout with the parts shown in less depth
(`Heap.display_within_succ`), so what there is to say about texts is said of the four layouts.
-/

namespace Script

/-! ## Rows of computations -/

/-- A computation that goes on after another fails where the other does, or after it. -/
theorem bind_eq_error {ε α β : Type} {first : Except ε α} {next : α → Except ε β} {error : ε}
    (h : first >>= next = .error error) :
    first = .error error ∨ ∃ result, first = .ok result ∧ next result = .error error := by
  cases first with
  | error failure =>
      cases h
      exact .inl rfl
  | ok result => exact .inr ⟨result, rfl, h⟩

/-- A computation that goes on after another gives a result if both do. -/
theorem bind_eq_ok {ε α β : Type} {first : Except ε α} {next : α → Except ε β} {result : β}
    (h : first >>= next = .ok result) :
    ∃ middle, first = .ok middle ∧ next middle = .ok result := by
  cases first with
  | error failure => cases h
  | ok middle => exact ⟨middle, rfl, h⟩

/-- The first failure of a row of computations. -/
theorem exists_of_mapM_error {ε α β : Type} {f : α → Except ε β} {items : List α} {error : ε}
    (h : items.mapM f = .error error) : ∃ item ∈ items, f item = .error error := by
  induction items with
  | nil => cases h
  | cons item items ih =>
      rw [List.mapM_cons] at h
      obtain hitem | ⟨result, -, h⟩ := bind_eq_error h
      · exact ⟨item, List.mem_cons_self, hitem⟩
      obtain hrest | ⟨results, -, h⟩ := bind_eq_error h
      · obtain ⟨other, hmem, herror⟩ := ih hrest
        exact ⟨other, List.mem_cons_of_mem item hmem, herror⟩
      · cases h

/-- A row of computations gives results only if each of them gives one. -/
theorem exists_of_mapM_ok {ε α β : Type} {f : α → Except ε β} {items : List α}
    {results : List β} {item : α} (h : items.mapM f = .ok results) (hitem : item ∈ items) :
    ∃ result, f item = .ok result := by
  induction items generalizing results with
  | nil => cases hitem
  | cons first items ih =>
      rw [List.mapM_cons] at h
      obtain ⟨result, hfirst, h⟩ := bind_eq_ok h
      obtain ⟨rest, hrest, -⟩ := bind_eq_ok h
      obtain rfl | hitem := List.mem_cons.mp hitem
      · exact ⟨result, hfirst⟩
      · exact ih hrest hitem

theorem mapM_congr {m : Type → Type} [Monad m] [LawfulMonad m] {α β : Type} {f g : α → m β}
    {items : List α} (h : ∀ item ∈ items, f item = g item) : items.mapM f = items.mapM g := by
  induction items with
  | nil => rfl
  | cons item items ih =>
      obtain ⟨hitem, hrest⟩ := List.forall_mem_cons.mp h
      rw [List.mapM_cons, List.mapM_cons, hitem, ih hrest]

/-! ## Layouts -/

open Heap (commaSeparated sortTexts)

/-- How the text of a value is put together from the texts of its parts. -/
inductive Layout where
  /-- No parts are shown. -/
  | plain (text : Except Fault String)
  /-- Parts in a row. -/
  | row (finish : List String → String) (items : List Value)
  /-- Keys with what is bound to them. -/
  | pairs (entries : List (Value × Value))
  /-- The fields of a struct with a given name. -/
  | record (name : String) (fields : List (String × Value))

namespace Layout

/-- The parts that are shown. -/
def parts : Layout → List Value
  | .plain _ => []
  | .row _ items => items
  | .pairs entries => entries.map (·.1) ++ entries.map (·.2)
  | .record _ fields => fields.map (·.2)

/-- A key with what is bound to it. -/
def entryText (shown : Value → Except Fault String) (entry : Value × Value) :
    Except Fault String := do
  let key ← shown entry.1
  let value ← shown entry.2
  return key ++ ": " ++ value

/-- A field with its value. -/
def fieldText (shown : Value → Except Fault String) (field : String × Value) :
    Except Fault String := do
  return field.1 ++ ": " ++ (← shown field.2)

/-- The text, for parts that are shown in some way. -/
def render (shown : Value → Except Fault String) : Layout → Except Fault String
  | .plain text => text
  | .row finish items => do return finish (← items.mapM shown)
  | .pairs entries => do
    return "\x7b" ++ commaSeparated (← entries.mapM (entryText shown)) ++ "\x7d"
  | .record name fields => do
    return name ++ " \x7b " ++ commaSeparated (← fields.mapM (fieldText shown)) ++ " \x7d"

/-- The text of a list. -/
def listText (texts : List String) : String :=
  "[" ++ commaSeparated texts ++ "]"

/-- The text of a tuple; after a single item stands a comma. -/
def tupleText : List String → String
  | [text] => "(" ++ text ++ ",)"
  | texts => "(" ++ commaSeparated texts ++ ")"

/-- The text of a set or frozen set: one for the empty set, and else what stands before and after
the texts of the members, in order. -/
def setText (empty before after : String) (texts : List String) : String :=
  if texts.isEmpty then empty else before ++ commaSeparated (sortTexts texts) ++ after

variable {shown other : Value → Except Fault String} {layout : Layout} {part : Value}
  {text : String} {fault : Fault}

theorem render_congr (h : ∀ part ∈ layout.parts, shown part = other part) :
    layout.render shown = layout.render other := by
  cases layout with
  | plain => rfl
  | row finish items => exact congrArg (· >>= _) (mapM_congr h)
  | pairs entries =>
      refine congrArg (· >>= _) (mapM_congr fun entry hmem => ?_)
      unfold entryText
      rw [h entry.1 (List.mem_append_left _ (List.mem_map_of_mem hmem)),
        h entry.2 (List.mem_append_right _ (List.mem_map_of_mem hmem))]
  | record name fields =>
      refine congrArg (· >>= _) (mapM_congr fun field hmem => ?_)
      unfold fieldText
      rw [h field.2 (List.mem_map_of_mem hmem)]

/-- There is a text only if all the parts have one. -/
theorem exists_text_of_render (h : layout.render shown = .ok text) (hpart : part ∈ layout.parts) :
    ∃ text, shown part = .ok text := by
  cases layout with
  | plain => cases hpart
  | row finish items =>
      obtain ⟨texts, htexts, -⟩ := bind_eq_ok h
      exact exists_of_mapM_ok htexts hpart
  | pairs entries =>
      obtain ⟨texts, htexts, -⟩ := bind_eq_ok h
      obtain hkey | hvalue := List.mem_append.mp hpart
      · obtain ⟨entry, hmem, rfl⟩ := List.mem_map.mp hkey
        obtain ⟨entryText, hentry⟩ := exists_of_mapM_ok htexts hmem
        obtain ⟨key, hkey, -⟩ := bind_eq_ok hentry
        exact ⟨key, hkey⟩
      · obtain ⟨entry, hmem, rfl⟩ := List.mem_map.mp hvalue
        obtain ⟨entryText, hentry⟩ := exists_of_mapM_ok htexts hmem
        obtain ⟨key, -, hentry⟩ := bind_eq_ok hentry
        obtain ⟨value, hvalue, -⟩ := bind_eq_ok hentry
        exact ⟨value, hvalue⟩
  | record name fields =>
      obtain ⟨texts, htexts, -⟩ := bind_eq_ok h
      obtain ⟨field, hmem, rfl⟩ := List.mem_map.mp hpart
      obtain ⟨fieldText, hfield⟩ := exists_of_mapM_ok htexts hmem
      obtain ⟨value, hvalue, -⟩ := bind_eq_ok hfield
      exact ⟨value, hvalue⟩

/-- A text is missing because a part has none, or because a value without parts has none. -/
theorem render_error (h : layout.render shown = .error fault) :
    layout = .plain (.error fault) ∨ ∃ part ∈ layout.parts, shown part = .error fault := by
  cases layout with
  | plain result => exact .inl (congrArg plain h)
  | row finish items =>
      obtain hitems | ⟨texts, -, h⟩ := bind_eq_error h
      · exact .inr (exists_of_mapM_error hitems)
      · cases h
  | pairs entries =>
      obtain hentries | ⟨texts, -, h⟩ := bind_eq_error h
      · obtain ⟨entry, hmem, hentry⟩ := exists_of_mapM_error hentries
        obtain hkey | ⟨key, -, hentry⟩ := bind_eq_error hentry
        · exact .inr ⟨entry.1, List.mem_append_left _ (List.mem_map_of_mem hmem), hkey⟩
        obtain hvalue | ⟨value, -, hentry⟩ := bind_eq_error hentry
        · exact .inr ⟨entry.2, List.mem_append_right _ (List.mem_map_of_mem hmem), hvalue⟩
        · cases hentry
      · cases h
  | record name fields =>
      obtain hfields | ⟨texts, -, h⟩ := bind_eq_error h
      · obtain ⟨field, hmem, hfield⟩ := exists_of_mapM_error hfields
        obtain hvalue | ⟨value, -, hfield⟩ := bind_eq_error hfield
        · exact .inr ⟨field.2, List.mem_map_of_mem hmem, hvalue⟩
        · cases hfield
      · cases h

end Layout

namespace Heap

open Layout

/-- The layout of a value. -/
def layout (heap : Heap) : Value → Layout
  | .list id => .row listText (heap.list id).toList
  | .tuple _ items => .row tupleText items
  | .dict id => .pairs (heap.dict id).entries
  | .frozenset _ keys => .row (setText "frozenset()" "frozenset(\x7b" "\x7d)") keys
  | .set id => .row (setText "set()" "\x7b" "\x7d") (heap.set id)
  | .object id =>
    if (heap.classOf id).kind = .struct then
      .record (heap.classOf id).name (heap.instanceOf id).fields.entries
    else .plain (.ok s!"<{(heap.classOf id).name} instance>")
  | .int n => .plain (intText n)
  | .range range => .plain (rangeText range)
  | value => .plain (heap.displayWithin 1 value)

theorem layout_object (heap : Heap) (id : InstanceId) :
    heap.layout (.object id) =
      if (heap.classOf id).kind = .struct then
        .record (heap.classOf id).name (heap.instanceOf id).fields.entries
      else .plain (.ok s!"<{(heap.classOf id).name} instance>") :=
  rfl

theorem render_members (shown : Value → Except Fault String) (keys : List Value)
    (empty before after : String) :
    render shown (.row (setText empty before after) keys) =
      if keys.isEmpty then .ok empty
      else do return before ++ commaSeparated (sortTexts (← keys.mapM shown)) ++ after := by
  cases keys with
  | nil => rfl
  | cons key keys =>
      dsimp only [render, List.isEmpty_cons]
      rw [if_neg Bool.false_ne_true, List.mapM_cons]
      cases shown key with
      | error fault => rfl
      | ok text => cases keys.mapM shown <;> rfl

/-- Showing a value is rendering its layout. -/
theorem display_within_succ (heap : Heap) (depth : Nat) (value : Value) :
    heap.displayWithin (depth + 1) value =
      render (heap.displayWithin depth) (heap.layout value) := by
  cases value with
  | tuple mark items =>
      refine congrArg ((items.mapM (heap.displayWithin depth)) >>= ·) (funext fun texts => ?_)
      rcases texts with _ | ⟨first, _ | ⟨second, rest⟩⟩ <;> rfl
  | set id => exact (render_members _ _ _ _ _).symm
  | frozenset mark keys => exact (render_members _ _ _ _ _).symm
  | object id =>
      rw [layout_object]
      unfold displayWithin
      dsimp only
      split <;> rfl
  | int | range => simp only [layout, render, displayWithin]
  | _ => rfl

end Heap

end Script
