import Script.Proofs.Builtin.Application

/-!
# Faults without an error of their own

Two faults are no errors of the language: that a power of complex numbers cannot be computed, and
that an integer has too many digits for a text. `Application.no_power` and
`Application.long_operand` say what an application is applied to that stops with one of them.
-/

namespace Script

namespace Action

variable {α β : Type} {action : Action α} {heap : Heap}

/-- An operation that goes on after another fails where the other does, or after it. -/
theorem eq_error_of_bind {next : α → Action β} {failure : Failure}
    (h : (action >>= next) heap = .error failure) :
    action heap = .error failure ∨
      ∃ result after, action heap = .ok (result, after) ∧ next result after = .error failure := by
  obtain hfirst | ⟨⟨result, after⟩, hok, hnext⟩ := bind_eq_error h
  · exact .inl hfirst
  · exact .inr ⟨result, after, hok, hnext⟩

/-- An operation that goes on after another succeeds where both do. -/
theorem eq_ok_of_bind {next : α → Action β} {final : β} {last : Heap}
    (h : (action >>= next) heap = .ok (final, last)) :
    ∃ result after, action heap = .ok (result, after) ∧ next result after = .ok (final, last) := by
  change (action heap >>= fun pair => next pair.1 pair.2) = _ at h
  rcases hrun : action heap with failure | ⟨result, after⟩
  · rw [hrun] at h
    cases h
  · rw [hrun] at h
    exact ⟨result, after, rfl, h⟩

theorem get_bind_run (next : Heap → Action β) :
    ((get : Action Heap) >>= next) heap = next heap heap :=
  rfl

/-- Within limits that do not allow it, the fault is not met. -/
theorem Within.no_fault {limits : Limits} {fault : Fault} (h : action.Within limits)
    (hfault : fault.hasError = false) (hlimits : ¬limits.faults fault) :
    action heap ≠ .error (.fault fault) :=
  fun hrun => hlimits (h.allows hrun hfault)

theorem Within.no_long (h : action.Within .none) : action heap ≠ .error (.fault .longInteger) :=
  h.no_fault rfl id

/-- Showing a value changes nothing. -/
theorem display_run (value : Value) (heap : Heap) :
    display value heap =
      match heap.display value with
      | .ok text => .ok (text, heap)
      | .error fault => .error (.fault fault) := by
  show (ofFault (heap.display value)) heap = _
  cases heap.display value <;> rfl

theorem display_long {value : Value} (h : display value heap = .error (.fault .longInteger)) :
    heap.ShowsLong value := by
  rw [display_run] at h
  split at h
  · cases h
  · rename_i fault hfault
    cases h
    exact ((Heap.display_fault hfault).resolve_left nofun).2

/-- A value whose text an error would tell. -/
theorem raise_display_long {kind : ErrorKind} {value : Value}
    (h : (do raise kind (← display value) : Action α) heap = .error (.fault .longInteger)) :
    heap.ShowsLong value := by
  obtain hdisplay | ⟨text, after, -, hraise⟩ := eq_error_of_bind h
  · exact display_long hdisplay
  · cases hraise

/-- The first failure of a row of operations that change nothing. -/
theorem exists_of_map_error {step : α → Action β} {items : List α} {failure : Failure}
    (hstep : ∀ item result after, step item heap = .ok (result, after) → after = heap)
    (h : items.mapM step heap = .error failure) :
    ∃ item ∈ items, step item heap = .error failure := by
  induction items with
  | nil => cases h
  | cons item items ih =>
      rw [List.mapM_cons] at h
      obtain hitem | ⟨result, after, hitem, hrest⟩ := eq_error_of_bind h
      · exact ⟨item, List.mem_cons_self, hitem⟩
      · obtain rfl := hstep item result after hitem
        obtain hitems | ⟨results, last, -, hdone⟩ := eq_error_of_bind hrest
        · obtain ⟨other, hmem, hother⟩ := ih hitems
          exact ⟨other, List.mem_cons_of_mem item hmem, hother⟩
        · cases hdone

theorem display_ok {value : Value} {text : String} {after : Heap}
    (h : display value heap = .ok (text, after)) : after = heap := by
  rw [display_run] at h
  split at h
  · cases h
    rfl
  · cases h

/-- A value together with its text. -/
theorem keyed_display_ok {value : Value} {keyed : String × Value} {after : Heap}
    (h : (do return (← display value, value) : Action (String × Value)) heap = .ok (keyed, after)) :
    after = heap := by
  obtain ⟨text, middle, hdisplay, hpair⟩ := eq_ok_of_bind h
  cases hpair
  exact display_ok hdisplay

theorem map_display_long {items : List Value}
    (h : items.mapM display heap = .error (.fault .longInteger)) :
    ∃ value ∈ items, heap.ShowsLong value := by
  obtain ⟨value, hmem, hdisplay⟩ := exists_of_map_error (fun _ _ _ => display_ok) h
  exact ⟨value, hmem, display_long hdisplay⟩

end Action

namespace Builtin

open Action

variable {heap : Heap}

/-! ## Integers that are too long -/

theorem ensure_hashable_ok {key : Value} {result : Unit} {after : Heap}
    (h : ensureHashable key heap = .ok (result, after)) : after = heap := by
  unfold ensureHashable at h
  split at h
  · cases h
  · cases h
    rfl

theorem require_int_ok {owner : String} {value : Value} {n : Int} {after : Heap}
    (h : requireInt owner value heap = .ok (n, after)) : value = .int n := by
  unfold requireInt at h
  split at h
  · cases h
    rfl
  · cases h

/-- Apart from those that make texts, functions that only compute do not meet such an integer. -/
theorem within_compute_none {function : BuiltinFunction} (hstr : function ≠ .str)
    (hint : function ≠ .int) (herror : ∀ kind, function ≠ .error kind) (items : List Value) :
    (compute function items).Within .none := by
  cases function with
  | str | int => contradiction
  | error kind => exact (herror kind rfl).elim
  | _ =>
      unfold compute
      grind

theorem int_of_text_long {s : String} {base : Int}
    (h : intOfText s base heap = .error (.fault .longInteger)) : Heap.IsLong base := by
  unfold intOfText at h
  cases hread : Number.readInt? base (Text.trimBy Text.isBlank s.toList) with
  | some n =>
      rw [hread] at h
      cases h
  | none =>
      rw [hread] at h
      obtain htext | ⟨text, after, -, h⟩ := eq_error_of_bind h
      · cases hbase : Heap.intText base with
        | ok text =>
            rw [hbase] at htext
            cases htext
        | error fault => exact (Heap.int_text_fault hbase).2
      · cases h

theorem not_is_long_ten : ¬Heap.IsLong 10 := by
  have h : 10 ^ 1 < 10 ^ Number.maxTextDigits :=
    Nat.pow_lt_pow_right (by decide) (by decide)
  unfold Heap.IsLong
  omega

theorem make_int_long {items : List Value}
    (h : makeInt items heap = .error (.fault .longInteger)) :
    ∃ value ∈ items, heap.ShowsLong value := by
  obtain hcheck | ⟨_, checked, hcheck, hread⟩ := eq_error_of_bind h
  · exact ((within_check_count _ _ _ _).no_long hcheck).elim
  obtain ⟨hcount, rfl⟩ := check_count_ok hcheck
  rcases items with _ | ⟨value, _ | ⟨base, _ | ⟨third, rest⟩⟩⟩
  · cases hread
  · cases value with
    | str s => exact (not_is_long_ten (int_of_text_long hread)).elim
    | float x =>
        have hwithin : (makeInt [.float x]).Within .none := by
          unfold makeInt
          grind
        exact (hwithin.no_long h).elim
    | _ => cases hread
  · cases value with
    | str s =>
        obtain hbase | ⟨n, after, hbase, htext⟩ := eq_error_of_bind hread
        · exact ((within_require_int _ base).no_long hbase).elim
        · cases require_int_ok hbase
          exact ⟨.int n, by simp, .int n, .refl, .int (int_of_text_long htext)⟩
    | _ => cases hread
  · simp at hcount

theorem compute_long {function : BuiltinFunction} {items : List Value}
    (h : compute function items heap = .error (.fault .longInteger)) :
    ∃ value ∈ items, heap.ShowsLong value := by
  have hother (hstr : function ≠ .str) (hint : function ≠ .int)
      (herror : ∀ kind, function ≠ .error kind) : ∃ value ∈ items, heap.ShowsLong value :=
    ((within_compute_none hstr hint herror items).no_long h).elim
  cases function with
  | str =>
      obtain hcheck | ⟨_, checked, hcheck, htext⟩ := eq_error_of_bind h
      · exact ((within_check_count _ _ _ _).no_long hcheck).elim
      obtain ⟨-, rfl⟩ := check_count_ok hcheck
      cases items with
      | nil => cases htext
      | cons value items =>
          obtain hdisplay | ⟨text, after, -, hdone⟩ := eq_error_of_bind htext
          · exact ⟨value, List.mem_cons_self, display_long hdisplay⟩
          · cases hdone
  | int => exact make_int_long h
  | error kind =>
      obtain htexts | ⟨texts, after, -, hnew⟩ := eq_error_of_bind h
      · exact map_display_long htexts
      · cases hnew
  | _ => exact hother nofun nofun nofun

theorem dict_pop_long {id : DictId} {key : Value} {default : Option Value}
    (h : dictPop id key default heap = .error (.fault .longInteger)) : heap.ShowsLong key := by
  obtain hkey | ⟨_, checked, hkey, hpop⟩ := eq_error_of_bind h
  · exact ((within_ensure_hashable key).no_long hkey).elim
  obtain rfl := ensure_hashable_ok hkey
  rw [get_bind_run] at hpop
  cases hfound : (checked.dict id).get? key with
  | some value =>
      rw [hfound] at hpop
      cases hpop
  | none =>
      rw [hfound] at hpop
      cases default with
      | some value => cases hpop
      | none => exact raise_display_long hpop

theorem set_remove_long {id : SetId} {key : Value}
    (h : setRemove id key heap = .error (.fault .longInteger)) : heap.ShowsLong key := by
  obtain hkey | ⟨_, checked, hkey, hremove⟩ := eq_error_of_bind h
  · exact ((within_ensure_hashable key).no_long hkey).elim
  obtain rfl := ensure_hashable_ok hkey
  rw [get_bind_run] at hremove
  split at hremove
  · cases hremove
  · exact raise_display_long hremove

/-- A heap with an emptied list shows nothing that it did not show before. -/
theorem shows_long_of_cleared {id : ListId} {value : Value}
    (h : Heap.ShowsLong { heap with lists := heap.lists.modify id fun _ => #[] } value) :
    heap.ShowsLong value := by
  obtain ⟨part, hshows, hlong⟩ := h
  have hle : Heap.Shows { heap with lists := heap.lists.modify id fun _ => #[] } ≤ heap.Shows := by
    intro whole part hpart
    cases hpart with
    | @item other part hmem =>
        refine .item ?_
        change part ∈ (heap.lists.modify id fun _ => #[]).get other at hmem
        by_cases hexists : id < heap.lists.next
        · rw [Store.get_modify _ _ _ _ hexists] at hmem
          split at hmem
          · exact (Array.not_mem_empty part hmem).elim
          · exact hmem
        · rwa [Store.get_modify_of_le _ _ _ _ (Nat.le_of_not_lt hexists)] at hmem
    | component hmem => exact .component hmem
    | key hmem => exact .key hmem
    | value hmem => exact .value hmem
    | member hmem => exact .member hmem
    | frozen hmem => exact .frozen hmem
    | field hstruct hmem => exact .field hstruct hmem
  exact ⟨part, Relation.ReflTransGen.mono hle _ _ hshows, hlong⟩

theorem list_sort_long {id : ListId}
    (h : listSort id heap = .error (.fault .longInteger)) : heap.ShowsLong (.list id) := by
  unfold listSort at h
  rw [get_bind_run] at h
  obtain hclear | ⟨_, cleared, hclear, hsort⟩ := eq_error_of_bind h
  · cases hclear
  cases hclear
  -- The texts are made while the list is empty.
  obtain htexts | ⟨keyed, after, -, hstore⟩ := eq_error_of_bind hsort
  · obtain ⟨item, hmem, hitem⟩ := exists_of_map_error (fun _ _ _ => keyed_display_ok) htexts
    obtain hdisplay | ⟨text, after, -, hpair⟩ := eq_error_of_bind hitem
    · exact (shows_long_of_cleared (display_long hdisplay)).of_part
        (.item (Array.mem_toList_iff.mp hmem))
    · cases hpair
  · cases hstore

/-- Only three methods make texts. -/
theorem method_long {receiver : Value} {name : String} {method : Method} {items : List Value}
    (hmethod : method? heap receiver name = some method)
    (h : method.run items heap = .error (.fault .longInteger)) :
    (∃ id, receiver = .list id ∧ name = "sort") ∨ (∃ id, receiver = .dict id ∧ name = "pop") ∨
      ∃ id, receiver = .set id ∧ name = "remove" := by
  let limits : Limits :=
    ⟨fun _ => True, fun _ => True, fun _ => True, fun _ =>
      (∃ id, receiver = .list id ∧ name = "sort") ∨ (∃ id, receiver = .dict id ∧ name = "pop") ∨
        ∃ id, receiver = .set id ∧ name = "remove"⟩
  -- Everything else is allowed, so what is left of the limits is the fault.
  have hallows : AllowsMethod limits receiver name :=
    ⟨trivial, fun _ => trivial, fun _ _ => trivial,
      fun hreceiver hname => .inl ⟨_, hreceiver, hname⟩,
      fun hreceiver hname => .inr (.inl ⟨_, hreceiver, hname⟩),
      fun hreceiver hname => .inr (.inr ⟨_, hreceiver, hname⟩)⟩
  exact (within_method hallows hmethod items).allows h rfl

theorem call_method_long {receiver : Value} {name : String} {items : List Value}
    (h : callMethod receiver name items heap = .error (.fault .longInteger)) :
    ∃ value ∈ receiver :: items, heap.ShowsLong value := by
  unfold callMethod at h
  rw [get_bind_run] at h
  cases hmethod : method? heap receiver name with
  | none =>
      rw [hmethod] at h
      cases h
  | some method =>
      rw [hmethod] at h
      dsimp only at h
      split at h
      · cases h
      rename_i hcount
      simp only [Bool.or_eq_true, decide_eq_true_eq, not_or, Nat.not_lt] at hcount
      obtain ⟨id, rfl, rfl⟩ | ⟨id, rfl, rfl⟩ | ⟨id, rfl, rfl⟩ := method_long hmethod h
      · cases hmethod
        exact ⟨.list id, List.mem_cons_self, list_sort_long h⟩
      · cases hmethod
        rcases items with _ | ⟨key, _ | ⟨default, _ | ⟨third, rest⟩⟩⟩
        · cases h
        · exact ⟨key, by simp, dict_pop_long h⟩
        · exact ⟨key, by simp, dict_pop_long h⟩
        · cases h
      · cases hmethod
        cases items with
        | nil => exact (Nat.not_succ_le_zero 0 hcount.1).elim
        | cons key rest => exact ⟨key, by simp, set_remove_long h⟩

theorem get_item_long {collection index : Value}
    (h : getItem collection index heap = .error (.fault .longInteger)) : heap.ShowsLong index := by
  cases collection with
  | dict id =>
      unfold getItem at h
      rw [get_bind_run] at h
      obtain hkey | ⟨_, checked, hkey, hget⟩ := eq_error_of_bind h
      · exact ((within_ensure_hashable index).no_long hkey).elim
      obtain rfl := ensure_hashable_ok hkey
      cases hfound : (checked.dict id).get? index with
      | some value =>
          rw [hfound] at hget
          cases hget
      | none =>
          rw [hfound] at hget
          exact raise_display_long hget
  | _ =>
      refine absurd h (Within.no_long ?_)
      unfold getItem
      grind

end Builtin

/-! ## Powers that cannot be computed -/

namespace Number.Complex

/-- The angle of a power of complex numbers. -/
def powerAngle (base exponent : Complex) : Float :=
  let angle := Float.atan2 base.im base.re * exponent.re
  if exponent.im != 0 then angle + exponent.im * (hypotenuse base.re base.im).log else angle

/-- Why a power of complex numbers cannot be computed. -/
inductive NoPower (base exponent : Complex) : Prop where
  /-- The exponent is an integer, and the power with the opposite exponent has no inverse. -/
  | inverse {n : Int} (hexponent : truncate? exponent.re = some n) (hpositive : ¬0 < n)
      (hinverse : one.div? (base.powNat (-n).toNat) = none)
  /-- The base is zero, and the exponent is negative or not real. -/
  | zero (hbase : base.re == 0 && base.im == 0)
      (hexponent : exponent.im != 0 || exponent.re < 0)
  /-- The angle of the power is infinite. -/
  | angle (h : (base.powerAngle exponent).isInf)

variable {base exponent : Complex}

theorem no_power_of_int {n : Int} (hexponent : truncate? exponent.re = some n)
    (h : base.powInt n = .error .zeroBase) : base.NoPower exponent := by
  unfold powInt at h
  split at h
  · cases h
  · rename_i hpositive
    split at h
    · cases h
    · exact .inverse hexponent hpositive ‹_›

theorem no_power_of_polar (h : base.powPolar exponent = .error .zeroBase) :
    base.NoPower exponent := by
  unfold powPolar at h
  split at h
  · cases h
  split at h
  · split at h
    · exact .zero ‹_› ‹_›
    · cases h
  · refine .angle ?_
    unfold powerAngle
    dsimp only at h ⊢
    by_cases hreal : exponent.im != 0
    · rw [if_pos hreal] at h ⊢
      split at h
      · assumption
      · cases h
    · rw [if_neg hreal] at h ⊢
      split at h
      · assumption
      · cases h

theorem no_power (h : base.pow exponent = .error .zeroBase) : base.NoPower exponent := by
  have hfinite {power : Complex} :
      (if power.isInfinite then throw .tooLarge else pure power : Except PowerFault Complex) ≠
        .error .zeroBase := by
    split <;> nofun
  unfold pow at h
  dsimp only at h
  split at h
  · obtain hpower | ⟨power, -, hlast⟩ := bind_eq_error h
    · exact no_power_of_int ‹_› hpower
    · exact (hfinite hlast).elim
  · obtain hpower | ⟨power, -, hlast⟩ := bind_eq_error h
    · exact no_power_of_polar hpower
    · exact (hfinite hlast).elim

end Number.Complex

/-- The number as a complex number, if its parts are doubles. -/
def Number.Numeric.complex? : Number.Numeric → Option Number.Complex
  | .int n => (Number.floatOfInt? n).map fun x => ⟨x, 0.0⟩
  | .float x => some ⟨x, 0.0⟩
  | .complex re im => some ⟨re, im⟩

/-- The number is complex. -/
def Number.Numeric.IsComplex : Number.Numeric → Prop
  | .complex _ _ => True
  | _ => False

/-- The values are numbers, one of them complex, whose power cannot be computed. -/
inductive Value.NoPower (left right : Value) : Prop where
  | intro {a b : Number.Numeric} {base exponent : Number.Complex}
      (hleft : left.arithmetic? = some a) (hright : right.arithmetic? = some b)
      (hcomplex : a.IsComplex ∨ b.IsComplex) (hbase : a.complex? = some base)
      (hexponent : b.complex? = some exponent) (h : base.NoPower exponent)

namespace Arithmetic

open Number (Numeric)

variable {heap : Heap}

theorem to_complex_ok {a : Numeric} {z : Number.Complex} {after : Heap}
    (h : toComplex a heap = .ok (z, after)) : a.complex? = some z := by
  cases a with
  | int n =>
      obtain ⟨x, middle, hdouble, hdone⟩ := Action.eq_ok_of_bind h
      unfold floatOfInt at hdouble
      cases hx : Number.floatOfInt? n with
      | some y =>
          rw [hx] at hdouble
          cases hdouble
          cases hdone
          rw [Numeric.complex?, hx]
          rfl
      | none =>
          rw [hx] at hdouble
          cases hdouble
  | float x | complex re im =>
      cases h
      rfl

theorem complex_power_fault {base exponent : Number.Complex}
    (h : complexPower base exponent heap = .error (.fault .zeroPower)) : base.NoPower exponent := by
  unfold complexPower at h
  cases hpower : base.pow exponent with
  | ok power =>
      rw [hpower] at h
      have hwithin : (complexResult power).Within .none := within_complex_result power
      exact (hwithin.no_fault rfl id h).elim
  | error fault =>
      rw [hpower] at h
      cases fault with
      | zeroBase => exact Number.Complex.no_power hpower
      | tooLarge => cases h

theorem power_fault {a b : Numeric} (h : power a b heap = .error (.fault .zeroPower)) :
    (a.IsComplex ∨ b.IsComplex) ∧
      ∃ base exponent, a.complex? = some base ∧ b.complex? = some exponent ∧
        base.NoPower exponent := by
  have hquiet (c : Numeric) {heap : Heap} : toComplex c heap ≠ .error (.fault .zeroPower) :=
    have hwithin : (toComplex c).Within .none := within_to_complex c
    hwithin.no_fault rfl id
  have hreal (hwithin : (power a b).Within .none) : False := hwithin.no_fault rfl id h
  have hcomplex (hpower : (do complexPower (← toComplex a) (← toComplex b)) heap =
      .error (.fault .zeroPower)) :
      ∃ base exponent, a.complex? = some base ∧ b.complex? = some exponent ∧
        base.NoPower exponent := by
    obtain hbase | ⟨base, middle, hbase, hrest⟩ := Action.eq_error_of_bind hpower
    · exact (hquiet a hbase).elim
    obtain hexponent | ⟨exponent, after, hexponent, hlast⟩ := Action.eq_error_of_bind hrest
    · exact (hquiet b hexponent).elim
    exact ⟨base, exponent, to_complex_ok hbase, to_complex_ok hexponent,
      complex_power_fault hlast⟩
  cases a with
  | complex re im => exact ⟨.inl trivial, hcomplex (by cases b <;> exact h)⟩
  | int n | float x =>
      cases b with
      | complex re im => exact ⟨.inr trivial, hcomplex h⟩
      | int m | float y =>
          refine (hreal ?_).elim
          unfold power promote
          grind

end Arithmetic

theorem Operand.power_fault {left right : Value} {heap : Heap}
    (h : onNumbers "**" Arithmetic.power left right heap = .error (.fault .zeroPower)) :
    left.NoPower right := by
  unfold onNumbers at h
  cases hleft : left.arithmetic? with
  | none =>
      rw [hleft] at h
      cases h
  | some a =>
      cases hright : right.arithmetic? with
      | none =>
          rw [hleft, hright] at h
          cases h
      | some b =>
          rw [hleft, hright] at h
          obtain ⟨hcomplex, base, exponent, hbase, hexponent, hpower⟩ := Arithmetic.power_fault h
          exact ⟨hleft, hright, hcomplex, hbase, hexponent, hpower⟩

namespace Application

variable {application : Application} {heap : Heap}

/-- The values that an application is applied to. -/
def operands : Application → List Value
  | .operator _ left right => [left, right]
  | .function _ items => items
  | .method receiver _ items => receiver :: items
  | .getItem collection index => [collection, index]
  | .setItem collection index value => [collection, index, value]
  | .cause _ _ | .context _ _ => []

/-- An application that meets an integer with too many digits is applied to a value that shows
it. -/
theorem long_operand (h : application.effect heap = .error (.fault .longInteger)) :
    ∃ value ∈ application.operands, heap.ShowsLong value := by
  cases application with
  | operator symbol left right => exact nomatch (allows_of_effect h rfl).2
  | function callee items =>
      cases callee with
      | print => exact Action.map_display_long (Action.effect_eq_error_iff.mp h)
      | input =>
          cases items with
          | nil => cases h
          | cons prompt items =>
              exact ⟨prompt, List.mem_cons_self,
                Action.display_long (Action.effect_eq_error_iff.mp h)⟩
      | _ => exact Builtin.compute_long (Action.effect_eq_error_iff.mp h)
  | method receiver name items => exact Builtin.call_method_long (Action.effect_eq_error_iff.mp h)
  | getItem collection index =>
      exact ⟨index, by simp [operands], Builtin.get_item_long (Action.effect_eq_error_iff.mp h)⟩
  | setItem | cause | context => exact (allows_of_effect h rfl).elim

/-- An application that meets a power that cannot be computed computes that power. -/
theorem no_power (h : application.effect heap = .error (.fault .zeroPower)) :
    ∃ left right, application = .operator .power left right ∧ left.NoPower right := by
  have hallows := allows_of_effect h rfl
  cases application with
  | operator symbol left right =>
      obtain ⟨rfl, -⟩ := hallows
      refine ⟨left, right, rfl, ?_⟩
      have hrun : BinaryOperator.power.apply left right heap = .error (.fault .zeroPower) :=
        Action.effect_eq_error_iff.mp h
      unfold BinaryOperator.apply at hrun
      split at hrun
      · cases hrun
      · exact Operand.power_fault hrun
  | function | method | getItem => cases hallows
  | setItem | cause | context => exact hallows.elim

end Application

end Script
