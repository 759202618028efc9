import Script.Eval.Object
import Script.Proofs.Operator.Sound

/-!
# Built-in methods and functions keep the heap sound

Every method and function of the language gives sound values and leaves a sound heap, given that
the receiver and the arguments are sound. A key is checked before it is put into a dictionary or a
set, or it comes out of one.
-/

namespace Script

variable [KnownClasses]

open Script.Action

/-! ## Methods and arguments -/

namespace Method

/-- The method gives sound results for sound arguments. -/
def Keeps (method : Method) : Prop :=
  ∀ items : List Value, (∀ item ∈ items, item.Sound) → (method.run items).Keeps Value.Sound

theorem keeps_nullary {run : Action Value} (h : run.Keeps Value.Sound) : (nullary run).Keeps :=
  fun _ _ => h

/-- The only argument is sound, or null if it is left out. -/
theorem sound_head {items : List Value} (h : ∀ item ∈ items, item.Sound) :
    (items.headD .null).Sound := by
  cases items with
  | nil => trivial
  | cons item items => exact h item List.mem_cons_self

theorem keeps_unary {run : Value → Action Value}
    (h : ∀ value : Value, value.Sound → (run value).Keeps Value.Sound) : (unary run).Keeps :=
  fun _ hitems => h _ (sound_head hitems)

theorem keeps_optional {run : Value → Action Value}
    (h : ∀ value : Value, value.Sound → (run value).Keeps Value.Sound) : (optional run).Keeps :=
  fun _ hitems => h _ (sound_head hitems)

end Method

namespace Builtin

theorem keeps_require_text (owner : String) (value : Value) :
    (requireText owner value).Keeps fun _ => True := by
  unfold requireText
  split
  · exact keeps_pure trivial
  · exact (keeps_type_name _).bind fun _ _ => keeps_raise _ _

theorem keeps_require_int (owner : String) (value : Value) :
    (requireInt owner value).Keeps fun _ => True := by
  unfold requireInt
  split
  · exact keeps_pure trivial
  · exact (keeps_type_name _).bind fun _ _ => keeps_raise _ _

theorem keeps_require_size (n : Int) : (requireSize n).Keeps fun _ => True := by
  unfold requireSize
  split
  · exact keeps_stop _
  · exact keeps_pure trivial

theorem keeps_require_byte (value : Value) : (requireByte value).Keeps fun _ => True :=
  (keeps_require_int _ value).bind fun _ _ => keeps_unless (keeps_pure trivial)

theorem keeps_check_count (name : String) (count low high : Nat) :
    (checkCount name count low high).Keeps fun _ => True := by
  unfold checkCount
  split
  · exact keeps_raise _ _
  · exact keeps_pure trivial

theorem keeps_check_encoding (name : String) : (checkEncoding name).Keeps fun _ => True := by
  unfold checkEncoding
  dsimp only
  split
  · exact keeps_raise _ _
  · exact keeps_pure trivial

theorem keeps_range_items (range : Range) :
    (rangeItems range).Keeps fun items => ∀ item ∈ items, item.Sound := by
  refine (keeps_of_fault _).bind fun length _ => ?_
  split
  · exact keeps_stop_then _
  · refine keeps_pure fun item hitem => ?_
    obtain ⟨n, -, rfl⟩ := List.mem_map.mp hitem
    trivial

/-- The items of a sound value are sound. -/
theorem keeps_items_of {value : Value} (h : value.Sound) :
    (itemsOf value).Keeps fun items => ∀ item ∈ items, item.Sound := by
  refine keeps_get.bind fun heap hheap => ?_
  split
  · rename_i id
    exact keeps_pure fun item hitem => hheap.list id item (Array.mem_toList_iff.mp hitem)
  · exact keeps_pure ((Value.sound_tuple_iff _ _).mp h)
  · exact keeps_range_items _
  · refine keeps_pure fun item hitem => ?_
    obtain ⟨byte, -, rfl⟩ := List.mem_map.mp hitem
    trivial
  · refine keeps_pure fun item hitem => ?_
    obtain ⟨byte, -, rfl⟩ := List.mem_map.mp hitem
    trivial
  · exact keeps_pure (hheap.set _).sound
  · exact keeps_pure ((Value.sound_frozenset_iff _ _).mp h).2
  · refine keeps_pure fun item hitem => ?_
    obtain ⟨c, -, rfl⟩ := List.mem_map.mp hitem
    trivial
  · exact keeps_pure (hheap.dict _).keys.sound
  · exact (keeps_type_name value).bind fun _ _ => keeps_raise _ _

/-- The items of a value that have been checked can be keys. -/
theorem keeps_keys_of {value : Value} (h : value.Sound) : (keysOf value).Keeps Keys.Fit := by
  refine (keeps_items_of h).bind fun items hitems => ?_
  refine (keeps_ensure_all_hashable items).bind fun _ hhashable => ?_
  exact keeps_pure fun item hitem => ⟨hhashable item hitem, hitems item hitem⟩

/-! ## Methods of texts -/

theorem keeps_new_text_list (texts : List (List Char)) :
    (newTextList texts).Keeps Value.Sound := by
  refine keeps_new_list (.of_list fun item hitem => ?_)
  obtain ⟨text, -, rfl⟩ := List.mem_map.mp hitem
  trivial

theorem keeps_text_strip (s : String) (chars : Value) :
    (textStrip s chars).Keeps Value.Sound := by
  unfold textStrip
  split
  · exact keeps_pure trivial
  · exact (keeps_require_text _ _).bind fun _ _ => keeps_pure trivial

theorem keeps_text_split (s : String) (separator : Value) :
    (textSplit s separator).Keeps Value.Sound := by
  unfold textSplit
  split
  · split
    · exact keeps_new_text_list _
    · exact keeps_new_text_list _
  · exact (keeps_require_text _ _).bind fun _ _ => keeps_unless (keeps_new_text_list _)

theorem keeps_join_texts (place : Nat) (items : List Value) :
    (joinTexts place items).Keeps fun _ => True := by
  induction items generalizing place with
  | nil => exact keeps_pure trivial
  | cons value rest ih =>
      cases value with
      | str s => exact (ih (place + 1)).bind fun _ _ => keeps_pure trivial
      | _ => exact (keeps_type_name _).bind fun _ _ => keeps_raise _ _

theorem keeps_text_join (s : String) (items : Value) : (textJoin s items).Keeps Value.Sound := by
  unfold textJoin
  split
  · refine keeps_get.bind fun heap _ => ?_
    exact (keeps_join_texts _ _).bind fun _ _ => keeps_pure trivial
  · exact (keeps_join_texts _ _).bind fun _ _ => keeps_pure trivial
  · exact (keeps_type_name items).bind fun _ _ => keeps_raise _ _

theorem keeps_text_replace (s : String) (old new count : Value) :
    (textReplace s old new count).Keeps Value.Sound := by
  refine (keeps_require_text _ _).bind fun _ _ => (keeps_require_text _ _).bind fun _ _ => ?_
  refine (keeps_require_int _ _).bind fun _ _ => (keeps_require_size _).bind fun _ _ => ?_
  exact keeps_pure trivial

theorem keeps_text_affix (owner : String) (test : List Char → Bool) (affix : Value) :
    (textAffix owner test affix).Keeps Value.Sound := by
  have hsingle : (do return .bool (test (← requireText owner affix).toList) :
      Action Value).Keeps Value.Sound :=
    (keeps_require_text _ _).bind fun _ _ => keeps_pure trivial
  unfold textAffix
  dsimp only
  split
  · split
    · exact keeps_pure trivial
    · exact hsingle
  · exact hsingle

theorem keeps_text_method {s name : String} {method : Method}
    (h : textMethod? s name = some method) : method.Keeps := by
  unfold textMethod? at h
  split at h
  all_goals cases h
  case h_4 => exact Method.keeps_optional fun chars _ => keeps_text_strip s chars
  case h_5 => exact Method.keeps_optional fun separator _ => keeps_text_split s separator
  case h_6 => exact Method.keeps_unary fun items _ => keeps_text_join s items
  case h_7 =>
    intro items _
    dsimp only
    split
    · exact keeps_text_replace s _ _ _
    · exact keeps_text_replace s _ _ _
    · exact keeps_pure trivial
  case h_8 =>
    refine Method.keeps_unary fun sub _ => (keeps_require_text _ sub).bind fun _ _ => ?_
    split
    · exact keeps_pure trivial
    · exact keeps_pure trivial
  case h_9 =>
    exact Method.keeps_unary fun sub _ =>
      (keeps_require_text _ sub).bind fun _ _ => keeps_pure trivial
  case h_10 => exact Method.keeps_unary fun affix _ => keeps_text_affix _ _ affix
  case h_11 => exact Method.keeps_unary fun affix _ => keeps_text_affix _ _ affix
  -- All others take no argument and give a number, a text or a truth value.
  all_goals exact Method.keeps_nullary (keeps_pure trivial)

/-! ## Methods of lists and tuples -/

theorem keeps_place_of (value : Value) (place : Nat) (items : List Value) :
    (placeOf value place items).Keeps fun _ => True := by
  induction items generalizing place with
  | nil => exact keeps_pure trivial
  | cons item items ih =>
      refine (keeps_same_or_equal item value).bind fun same _ => ?_
      split
      · exact keeps_pure trivial
      · exact ih (place + 1)

theorem keeps_count_of (value : Value) (items : List Value) :
    (countOf value items).Keeps fun _ => True := by
  induction items with
  | nil => exact keeps_pure trivial
  | cons item items ih =>
      refine (keeps_same_or_equal item value).bind fun same _ => ?_
      split
      · exact ih.bind fun _ _ => keeps_pure trivial
      · exact ih

theorem keeps_index_of (kind : String) (items : List Value) (value : Value) :
    (indexOf kind items value).Keeps Value.Sound := by
  refine (keeps_place_of value 0 items).bind fun place _ => ?_
  split
  · exact keeps_pure trivial
  · exact keeps_raise _ _

theorem keeps_list_pop (id : ListId) (place : Value) : (listPop id place).Keeps Value.Sound := by
  refine keeps_get.bind fun heap hheap => keeps_unless ?_
  have herase (place : Nat) : (do
      setList id fun items => items.eraseIdxIfInBounds place
      return (heap.list id).getD place .null : Action Value).Keeps Value.Sound := by
    refine (keeps_set_list id fun items hitems => hitems.erase_place place).bind fun _ _ => ?_
    exact keeps_pure ((hheap.list id).getD place)
  split
  · exact herase _
  · refine (keeps_require_int _ place).bind fun n _ => ?_
    exact keeps_unless (herase _)

theorem keeps_list_insert (id : ListId) (place : Value) {value : Value} (h : value.Sound) :
    (listInsert id place value).Keeps Value.Sound := by
  refine (keeps_require_int _ place).bind fun n _ => (keeps_require_size n).bind fun n _ => ?_
  refine Keeps.bind (keeps_set_list id ?_) fun _ _ => keeps_pure trivial
  exact fun items hitems => hitems.insert_place _ h

theorem keeps_list_remove (id : ListId) (value : Value) :
    (listRemove id value).Keeps Value.Sound := by
  refine keeps_get.bind fun heap _ => (keeps_place_of value 0 _).bind fun place _ => ?_
  split
  · refine Keeps.bind (keeps_set_list id ?_) fun _ _ => keeps_pure trivial
    exact fun items hitems => hitems.erase_place _
  · exact keeps_raise _ _

omit [KnownClasses] in
/-- Sorting gives the items that were there. -/
theorem mem_of_mem_sort {items : List (String × Value)} {item : Value}
    (h : item ∈ sortByText items) : ∃ pair ∈ items, pair.2 = item := by
  obtain ⟨pair, hpair, rfl⟩ := List.mem_map.mp h
  exact ⟨pair, List.mem_mergeSort.mp hpair, rfl⟩

theorem keeps_list_sort (id : ListId) : (listSort id).Keeps Value.Sound := by
  refine keeps_get.bind fun heap hheap => ?_
  refine (keeps_set_list id fun _ _ => .empty).bind fun _ _ => ?_
  have hkeyed : ∀ item ∈ (heap.list id).toList,
      (do return (← display item, item) : Action (String × Value)).Keeps
        fun pair => pair.2.Sound := by
    intro item hitem
    refine (keeps_display item).bind fun _ _ => keeps_pure ?_
    exact hheap.list id item (Array.mem_toList_iff.mp hitem)
  refine (keeps_map_m hkeyed).bind fun keyed hkeyed => ?_
  refine Keeps.bind (keeps_set_list id fun _ _ => .of_list ?_) fun _ _ => keeps_pure trivial
  intro item hitem
  obtain ⟨pair, hpair, rfl⟩ := mem_of_mem_sort hitem
  exact hkeyed pair hpair

theorem keeps_list_method {id : ListId} {name : String} {method : Method}
    (h : listMethod? id name = some method) : method.Keeps := by
  unfold listMethod? at h
  split at h
  all_goals cases h
  case h_1 => exact Method.keeps_nullary (keeps_get.bind fun _ _ => keeps_pure trivial)
  case h_2 =>
    refine Method.keeps_unary fun value hvalue => ?_
    refine Keeps.bind (keeps_set_list id ?_) fun _ _ => keeps_pure trivial
    exact fun items hitems => hitems.push hvalue
  case h_3 => exact Method.keeps_optional fun place _ => keeps_list_pop id place
  case h_4 =>
    refine Method.keeps_unary fun other hother => ?_
    refine (keeps_items_of hother).bind fun added hadded => ?_
    refine Keeps.bind (keeps_set_list id ?_) fun _ _ => keeps_pure trivial
    exact fun items hitems => hitems.append (.of_list hadded)
  case h_5 =>
    intro items hitems
    dsimp only
    split
    · exact keeps_list_insert id _ (hitems _ (List.mem_cons_of_mem _ List.mem_cons_self))
    · exact keeps_pure trivial
  case h_6 => exact Method.keeps_unary fun value _ => keeps_list_remove id value
  case h_7 =>
    exact Method.keeps_nullary
      ((keeps_set_list id fun _ _ => .empty).bind fun _ _ => keeps_pure trivial)
  case h_8 =>
    exact Method.keeps_nullary (keeps_get.bind fun _ hheap => keeps_new_list (hheap.list id))
  case h_9 =>
    exact Method.keeps_unary fun value _ => keeps_get.bind fun _ _ => keeps_index_of _ _ value
  case h_10 =>
    refine Method.keeps_unary fun value _ => keeps_get.bind fun _ _ => ?_
    exact (keeps_count_of value _).bind fun _ _ => keeps_pure trivial
  case h_11 =>
    refine Method.keeps_nullary ?_
    refine Keeps.bind (keeps_set_list id ?_) fun _ _ => keeps_pure trivial
    exact fun items hitems item hitem => hitems item (Array.mem_reverse.mp hitem)
  case h_12 => exact Method.keeps_nullary (keeps_list_sort id)

theorem keeps_tuple_method {items : List Value} {name : String} {method : Method}
    (h : tupleMethod? items name = some method) : method.Keeps := by
  unfold tupleMethod? at h
  split at h
  all_goals cases h
  · exact Method.keeps_nullary (keeps_pure trivial)
  · exact Method.keeps_unary fun value _ =>
      (keeps_count_of value items).bind fun _ _ => keeps_pure trivial
  · exact Method.keeps_unary fun value _ => keeps_index_of _ items value

/-! ## Methods of dictionaries and sets -/

theorem keeps_dict_pop (id : DictId) (key : Value) {default : Option Value}
    (hdefault : ∀ value ∈ default, value.Sound) : (dictPop id key default).Keeps Value.Sound := by
  refine (keeps_ensure_hashable key).bind fun _ _ => keeps_get.bind fun heap hheap => ?_
  split
  · rename_i value hfound
    refine Keeps.bind (keeps_set_dict id ?_) fun _ _ => keeps_pure ((hheap.dict id).get hfound)
    exact fun dict hdict => hdict.erase key
  · exact keeps_pure (hdefault _ rfl)
  · exact (keeps_display key).bind fun _ _ => keeps_raise _ _

theorem keeps_dict_items {entries : List (Value × Value)}
    (h : ∀ entry ∈ entries, entry.1.Sound ∧ entry.2.Sound) :
    (dictItems entries).Keeps fun items => ∀ item ∈ items, item.Sound := by
  induction entries with
  | nil => exact keeps_pure nofun
  | cons entry entries ih =>
      obtain ⟨hentry, hrest⟩ := List.forall_mem_cons.mp h
      have hpair : ∀ item ∈ [entry.1, entry.2], item.Sound :=
        List.forall_mem_cons.mpr ⟨hentry.1, List.forall_mem_singleton.mpr hentry.2⟩
      refine (keeps_new_tuple hpair).bind fun item hitem => ?_
      refine (ih hrest).bind fun items hitems => ?_
      exact keeps_pure (List.forall_mem_cons.mpr ⟨hitem, hitems⟩)

theorem keeps_dict_update (id : DictId) (other : Value) :
    (dictUpdate id other).Keeps Value.Sound := by
  unfold dictUpdate
  split
  · rename_i source
    refine keeps_get.bind fun heap hheap => ?_
    refine Keeps.bind (keeps_set_dict id ?_) fun _ _ => keeps_pure trivial
    exact fun dict hdict => hdict.insert_all (hheap.dict source)
  · exact (keeps_type_name other).bind fun _ _ => keeps_raise _ _

theorem keeps_dict_get (id : DictId) (key : Value) {default : Value} (hdefault : default.Sound) :
    (dictGet id key default).Keeps Value.Sound := by
  refine (keeps_ensure_hashable key).bind fun _ _ => keeps_get.bind fun heap hheap => ?_
  refine keeps_pure ?_
  cases hfound : (heap.dict id).get? key with
  | none => exact hdefault
  | some value => exact (hheap.dict id).get hfound

theorem keeps_dict_method {id : DictId} {name : String} {method : Method}
    (h : dictMethod? id name = some method) : method.Keeps := by
  unfold dictMethod? at h
  split at h
  all_goals cases h
  case h_1 => exact Method.keeps_nullary (keeps_get.bind fun _ _ => keeps_pure trivial)
  case h_2 =>
    refine Method.keeps_nullary (keeps_get.bind fun heap hheap => keeps_new_list (.of_list ?_))
    exact (hheap.dict id).keys.sound
  case h_3 =>
    refine Method.keeps_nullary (keeps_get.bind fun heap hheap => keeps_new_list (.of_list ?_))
    exact List.forall_mem_map.mpr (hheap.dict id).values
  case h_4 =>
    refine Method.keeps_nullary (keeps_get.bind fun heap hheap => ?_)
    refine (keeps_dict_items fun entry hentry => ?_).bind fun items hitems => ?_
    · exact ⟨(hheap.dict id).keys.sound _ (List.mem_map_of_mem hentry),
        (hheap.dict id).values entry hentry⟩
    · exact keeps_new_list (.of_list hitems)
  case h_5 =>
    intro items hitems
    dsimp only
    split
    · exact keeps_dict_get id _ trivial
    · exact keeps_dict_get id _ (hitems _ (List.mem_cons_of_mem _ List.mem_cons_self))
    · exact keeps_pure trivial
  case h_6 =>
    intro items hitems
    dsimp only
    split
    · exact keeps_dict_pop id _ nofun
    · refine keeps_dict_pop id _ fun value hvalue => ?_
      cases hvalue
      exact hitems _ (List.mem_cons_of_mem _ List.mem_cons_self)
    · exact keeps_pure trivial
  case h_7 => exact Method.keeps_unary fun other _ => keeps_dict_update id other
  case h_8 =>
    exact Method.keeps_nullary
      ((keeps_set_dict id fun _ _ => .empty).bind fun _ _ => keeps_pure trivial)
  case h_9 =>
    exact Method.keeps_nullary (keeps_get.bind fun _ hheap => keeps_new_dict (hheap.dict id))

/-- The other operand of a method of sets has been checked, whatever it is. -/
theorem keeps_common_set_method {self : Value} {keys : List Value} {name : String}
    {method : Method} (hkeys : Keys.Sound keys)
    (h : commonSetMethod? self keys name = some method) : method.Keeps := by
  unfold commonSetMethod? at h
  split at h
  all_goals cases h
  case h_1 => exact Method.keeps_nullary (keeps_pure trivial)
  case h_2 =>
    refine Method.keeps_unary fun other hother => (keeps_keys_of hother).bind fun items hitems => ?_
    exact Operand.keeps_like_set self (hkeys.insert_all hitems)
  case h_3 =>
    refine Method.keeps_unary fun other hother => (keeps_keys_of hother).bind fun items hitems => ?_
    exact Operand.keeps_like_set self (hitems.filter _).of_list
  case h_4 =>
    refine Method.keeps_unary fun other hother => (keeps_keys_of hother).bind fun items _ => ?_
    exact Operand.keeps_like_set self (hkeys.diff items)
  case h_5 =>
    refine Method.keeps_unary fun other hother => (keeps_keys_of hother).bind fun items hitems => ?_
    exact Operand.keeps_like_set self (hkeys.symm_diff hitems.of_list)
  all_goals
    exact Method.keeps_unary fun other hother =>
      (keeps_keys_of hother).bind fun _ _ => keeps_pure trivial

theorem keeps_frozenset_method {mark : Nat} {keys : List Value} {name : String} {method : Method}
    (hself : (Value.frozenset mark keys).Sound)
    (h : frozensetMethod? mark keys name = some method) : method.Keeps := by
  obtain ⟨hproper, hkeys⟩ := (Value.sound_frozenset_iff mark keys).mp hself
  unfold frozensetMethod? at h
  split at h
  · cases h
    exact Method.keeps_nullary (keeps_pure hself)
  · exact keeps_common_set_method ⟨hproper, hkeys⟩ h

theorem keeps_set_remove (id : SetId) (key : Value) : (setRemove id key).Keeps Value.Sound := by
  refine (keeps_ensure_hashable key).bind fun _ _ => keeps_get.bind fun heap _ => ?_
  split
  · refine Keeps.bind (keeps_set_set id ?_) fun _ _ => keeps_pure trivial
    exact fun keys hkeys => hkeys.erase key
  · exact (keeps_display key).bind fun _ _ => keeps_raise _ _

theorem keeps_set_pop (id : SetId) : (setPop id).Keeps Value.Sound := by
  refine keeps_get.bind fun heap hheap => ?_
  have hkeys := hheap.set id
  split
  · exact keeps_raise _ _
  · rename_i key rest hset
    rw [hset] at hkeys
    refine Keeps.bind (keeps_set_set id fun _ _ => ?_) fun _ _ => keeps_pure ?_
    · exact hkeys.sublist (List.sublist_cons_self key rest)
    · exact hkeys.sound key List.mem_cons_self

theorem keeps_set_method {id : SetId} {keys : List Value} {name : String} {method : Method}
    (hkeys : Keys.Sound keys) (h : setMethod? id keys name = some method) : method.Keeps := by
  unfold setMethod? at h
  split at h
  case h_1 =>
    cases h
    exact Method.keeps_nullary (keeps_new_set hkeys)
  case h_2 =>
    cases h
    refine Method.keeps_unary fun key hkey => ?_
    refine (keeps_ensure_hashable key).bind fun _ hhashable => ?_
    refine Keeps.bind (keeps_set_set id ?_) fun _ _ => keeps_pure trivial
    exact fun keys hkeys => hkeys.insert hhashable hkey
  case h_3 =>
    cases h
    exact Method.keeps_unary fun key _ => keeps_set_remove id key
  case h_4 =>
    cases h
    refine Method.keeps_unary fun key _ => (keeps_ensure_hashable key).bind fun _ _ => ?_
    refine Keeps.bind (keeps_set_set id ?_) fun _ _ => keeps_pure trivial
    exact fun keys hkeys => hkeys.erase key
  case h_5 =>
    cases h
    exact Method.keeps_nullary (keeps_set_pop id)
  case h_6 =>
    cases h
    exact Method.keeps_nullary
      ((keeps_set_set id fun _ _ => .nil).bind fun _ _ => keeps_pure trivial)
  case h_7 => exact keeps_common_set_method hkeys h

/-! ## Methods of bytes and errors -/

theorem keeps_bytes_decode (bytes : List UInt8) (encoding : Value) :
    (bytesDecode bytes encoding).Keeps Value.Sound := by
  refine (keeps_require_text _ encoding).bind fun name _ => ?_
  refine (keeps_check_encoding name).bind fun _ _ => ?_
  split
  · exact keeps_pure trivial
  · exact keeps_raise _ _

theorem keeps_bytes_method {bytes : List UInt8} {name : String} {method : Method}
    (h : bytesMethod? bytes name = some method) : method.Keeps := by
  unfold bytesMethod? at h
  split at h
  all_goals cases h
  · exact Method.keeps_nullary (keeps_pure trivial)
  · exact Method.keeps_nullary (keeps_pure trivial)
  · exact fun items _ => keeps_bytes_decode bytes _

theorem keeps_bytearray_pop (id : ByteArrayId) : (bytearrayPop id).Keeps Value.Sound := by
  refine keeps_get.bind fun heap _ => ?_
  split
  · exact keeps_raise _ _
  · exact (keeps_set_bytearray id _).bind fun _ _ => keeps_pure trivial

theorem keeps_bytearray_method {id : ByteArrayId} {bytes : List UInt8} {name : String}
    {method : Method} (h : bytearrayMethod? id bytes name = some method) : method.Keeps := by
  unfold bytearrayMethod? at h
  split at h
  · cases h
    refine Method.keeps_unary fun value _ => (keeps_require_byte value).bind fun byte _ => ?_
    exact (keeps_set_bytearray id _).bind fun _ _ => keeps_pure trivial
  · cases h
    exact Method.keeps_nullary (keeps_bytearray_pop id)
  · exact keeps_bytes_method h

theorem keeps_error_with_cause (id : ErrorId) (cause : Value) :
    (errorWithCause id cause).Keeps Value.Sound := by
  have hlink (cause : Option ErrorId) : (do
      setError id fun error => { error with cause := cause, suppressContext := true }
      return .error id : Action Value).Keeps Value.Sound :=
    (keeps_set_error id _).bind fun _ _ => keeps_pure trivial
  unfold errorWithCause
  split
  · exact hlink none
  · exact hlink _
  · exact keeps_raise_then _ _

theorem keeps_error_method {id : ErrorId} {name : String} {method : Method}
    (h : errorMethod? id name = some method) : method.Keeps := by
  unfold errorMethod? at h
  split at h
  all_goals cases h
  · refine Method.keeps_unary fun note _ => (keeps_require_text _ note).bind fun note _ => ?_
    refine keeps_get.bind fun heap _ => ?_
    refine Keeps.bind (keeps_set_list _ fun items hitems => ?_) fun _ _ => keeps_pure trivial
    exact hitems.push trivial
  · exact Method.keeps_unary fun cause _ => keeps_error_with_cause id cause

theorem sound_link_value (link : Option ErrorId) : (linkValue link).Sound := by
  cases link with
  | none => trivial
  | some id => trivial

theorem keeps_error_attribute (id : ErrorId) (name : String) :
    (errorAttribute? id name).Keeps fun found => ∀ value ∈ found, value.Sound := by
  refine keeps_get.bind fun heap _ => ?_
  dsimp only
  have hfound {value : Value} (h : value.Sound) :
      (pure (some value) : Action (Option Value)).Keeps fun found => ∀ value ∈ found, value.Sound :=
    keeps_pure (by rintro _ ⟨⟩; exact h)
  split
  case h_2 =>
    refine (keeps_new_tuple fun item hitem => ?_).bind fun value hvalue => hfound hvalue
    obtain ⟨text, -, rfl⟩ := List.mem_map.mp hitem
    trivial
  case h_5 => exact hfound (sound_link_value _)
  case h_6 => exact hfound (sound_link_value _)
  case h_8 => exact keeps_pure nofun
  all_goals exact hfound trivial

/-! ## Methods and attributes of all values -/

theorem keeps_method {heap : Heap} (hheap : heap.Sound) {receiver : Value}
    (hreceiver : receiver.Sound) {name : String} {method : Method}
    (h : method? heap receiver name = some method) : method.Keeps := by
  unfold method? at h
  split at h
  · exact keeps_text_method h
  · exact keeps_list_method h
  · exact keeps_tuple_method h
  · exact keeps_dict_method h
  · exact keeps_set_method (hheap.set _) h
  · exact keeps_frozenset_method hreceiver h
  · exact keeps_bytearray_method h
  · exact keeps_bytes_method h
  · exact keeps_error_method h
  · cases h

theorem keeps_call_method {receiver : Value} (hreceiver : receiver.Sound) (name : String)
    {items : List Value} (hitems : ∀ item ∈ items, item.Sound) :
    (callMethod receiver name items).Keeps Value.Sound := by
  refine keeps_get.bind fun heap hheap => ?_
  split
  · exact (keeps_type_name receiver).bind fun _ _ => keeps_raise _ _
  · rename_i method hmethod
    split
    · exact (keeps_type_name receiver).bind fun _ _ => keeps_raise_then _ _
    · exact keeps_method hheap hreceiver hmethod items hitems

theorem keeps_get_attribute {object : Value} (h : object.Sound) (name : String) :
    (getAttribute object name).Keeps Value.Sound := by
  have hmethod : (do return .builtinMethod (← newMark) object name : Action Value).Keeps
      Value.Sound :=
    keeps_new_mark.bind fun _ _ => keeps_pure h
  unfold getAttribute
  split
  · refine (keeps_error_attribute _ name).bind fun found hfound => ?_
    cases found with
    | none => exact hmethod
    | some value => exact keeps_pure (hfound value rfl)
  · exact hmethod

/-! ## Functions -/

theorem keeps_make_range (items : List Value) : (makeRange items).Keeps Value.Sound := by
  refine (keeps_check_count _ _ _ _).bind fun _ _ => ?_
  refine (keeps_map_m fun item _ => keeps_require_int _ item).bind fun bounds _ => ?_
  split
  rename_i start stop step _
  split
  · exact keeps_raise _ _
  · exact keeps_pure trivial

/-- A collection that is made of what a source gives. -/
theorem keeps_make_collection (name : String) {gather : Value → Action (List Value)}
    {build : List Value → Action Value} {fit : List Value → Prop}
    (hgather : ∀ source : Value, source.Sound → (gather source).Keeps fit) (hempty : fit [])
    (hbuild : ∀ items, fit items → (build items).Keeps Value.Sound) {items : List Value}
    (hitems : ∀ item ∈ items, item.Sound) :
    (makeCollection name gather build items).Keeps Value.Sound := by
  refine (keeps_check_count _ _ _ _).bind fun _ _ => ?_
  cases items with
  | nil => exact hbuild [] hempty
  | cons source _ => exact (hgather source (hitems source List.mem_cons_self)).bind hbuild

theorem sound_pair {heap : Heap} (hheap : heap.Sound) {item key value : Value} (hitem : item.Sound)
    (h : pair? heap item = some (key, value)) : key.Sound ∧ value.Sound := by
  unfold pair? at h
  split at h
  · rename_i id
    have hitems : ∀ part ∈ (heap.list id).toList, part.Sound :=
      fun part hpart => hheap.list id part (Array.mem_toList_iff.mp hpart)
    split at h
    · rename_i hpair
      cases h
      rw [hpair] at hitems
      exact ⟨hitems key List.mem_cons_self,
        hitems value (List.mem_cons_of_mem _ List.mem_cons_self)⟩
    · cases h
  · cases h
    rw [Value.sound_tuple_iff] at hitem
    exact ⟨hitem key List.mem_cons_self, hitem value (List.mem_cons_of_mem _ List.mem_cons_self)⟩
  · cases h

theorem keeps_dict_of_pairs {dict : Dict} (hdict : dict.Sound) {items : List Value}
    (hitems : ∀ item ∈ items, item.Sound) : (dictOfPairs dict items).Keeps Dict.Sound := by
  induction items generalizing dict with
  | nil => exact keeps_pure hdict
  | cons item items ih =>
      obtain ⟨hitem, hrest⟩ := List.forall_mem_cons.mp hitems
      refine keeps_get.bind fun heap hheap => ?_
      split
      · exact keeps_raise _ _
      · rename_i key value hpair
        obtain ⟨hkey, hvalue⟩ := sound_pair hheap hitem hpair
        refine (keeps_ensure_hashable key).bind fun _ hhashable => ?_
        exact ih (hdict.insert hhashable hkey hvalue) hrest

theorem keeps_make_dict {items : List Value} (hitems : ∀ item ∈ items, item.Sound) :
    (makeDict items).Keeps Value.Sound := by
  refine (keeps_check_count _ _ _ _).bind fun _ _ => ?_
  split
  · exact keeps_new_dict .empty
  · exact keeps_get.bind fun heap hheap => keeps_new_dict (hheap.dict _)
  · rename_i source _ _
    refine (keeps_items_of (hitems source List.mem_cons_self)).bind fun pairs hpairs => ?_
    exact (keeps_dict_of_pairs .empty hpairs).bind fun dict hdict => keeps_new_dict hdict

theorem keeps_byte_values (name : String) {items : List Value}
    (hitems : ∀ item ∈ items, item.Sound) : (byteValues name items).Keeps fun _ => True := by
  refine (keeps_check_count _ _ _ _).bind fun _ _ => ?_
  split
  · exact keeps_pure trivial
  · split
    · refine (keeps_require_text _ _).bind fun encoding _ => ?_
      exact (keeps_check_encoding encoding).bind fun _ _ => keeps_pure trivial
    · exact keeps_pure trivial
  · dsimp only
    split
    · exact keeps_raise_then _ _
    · split
      · exact keeps_stop_then _
      · split
        · exact keeps_stop_then _
        · exact keeps_pure trivial
  · rename_i source _ _ _
    refine (keeps_items_of (hitems source List.mem_cons_self)).bind fun bytes _ => ?_
    exact (keeps_map_m fun byte _ => keeps_require_byte byte).mono fun _ _ => trivial

theorem keeps_int_of_text (s : String) (base : Int) : (intOfText s base).Keeps Value.Sound := by
  unfold intOfText
  split
  · exact keeps_pure trivial
  · exact (keeps_of_fault _).bind fun _ _ => keeps_raise _ _

theorem keeps_make_int (items : List Value) : (makeInt items).Keeps Value.Sound := by
  refine (keeps_check_count _ _ _ _).bind fun _ _ => ?_
  split
  · exact keeps_pure trivial
  · exact (keeps_require_int _ _).bind fun base _ => keeps_int_of_text _ base
  · exact keeps_raise _ _
  · split
    · exact keeps_int_of_text _ _
    · split
      · exact keeps_pure trivial
      · split
        · exact keeps_raise _ _
        · exact keeps_raise _ _
    · exact keeps_pure trivial
    · exact keeps_pure trivial
    · exact (keeps_type_name _).bind fun _ _ => keeps_raise _ _

theorem keeps_float_from_int (n : Int) : (floatFromInt n).Keeps Value.Sound := by
  unfold floatFromInt
  split
  · exact keeps_new_float _
  · exact keeps_raise _ _

theorem keeps_make_float (items : List Value) : (makeFloat items).Keeps Value.Sound := by
  refine (keeps_check_count _ _ _ _).bind fun _ _ => ?_
  split
  · exact keeps_new_float _
  · split
    · split
      · exact keeps_new_float _
      · exact keeps_raise _ _
    · exact keeps_pure trivial
    · exact keeps_float_from_int _
    · exact keeps_new_float _
    · exact (keeps_type_name _).bind fun _ _ => keeps_raise _ _

theorem keeps_complex_part (value : Value) : (complexPart value).Keeps fun _ => True := by
  unfold complexPart
  split
  · exact keeps_pure trivial
  · exact (keeps_type_name value).bind fun _ _ => keeps_raise _ _

theorem keeps_make_complex (items : List Value) : (makeComplex items).Keeps Value.Sound := by
  refine (keeps_check_count _ _ _ _).bind fun _ _ => ?_
  refine (keeps_map_m fun item _ => keeps_complex_part item).bind fun parts _ => ?_
  split
  · exact keeps_pure trivial
  · exact (Arithmetic.keeps_to_complex _).bind fun z _ => keeps_new_complex _ _
  · refine (Arithmetic.keeps_to_complex _).bind fun re _ => ?_
    exact (Arithmetic.keeps_to_complex _).bind fun im _ => keeps_new_complex _ _
  · exact keeps_new_complex _ _

theorem keeps_compute (function : BuiltinFunction) {items : List Value}
    (hitems : ∀ item ∈ items, item.Sound) : (compute function items).Keeps Value.Sound := by
  cases function with
  | print => exact keeps_pure trivial
  | input => exact keeps_pure trivial
  | range => exact keeps_make_range items
  | list =>
      show (makeCollection "list" itemsOf (fun items => newList items.toArray)
        items).Keeps Value.Sound
      refine keeps_make_collection _ (fun source => keeps_items_of) nofun ?_ hitems
      exact fun items hitems => keeps_new_list (.of_list hitems)
  | tuple =>
      refine keeps_make_collection _ (fun source => keeps_items_of) nofun ?_ hitems
      exact fun items hitems => keeps_new_tuple hitems
  | set =>
      show (makeCollection "set" keysOf (fun items => newSet (Keys.ofList items))
        items).Keeps Value.Sound
      refine keeps_make_collection _ (fun source => keeps_keys_of) nofun ?_ hitems
      exact fun items hitems => keeps_new_set hitems.of_list
  | frozenset =>
      show (makeCollection "frozenset" keysOf (fun items => newFrozenset (Keys.ofList items))
        items).Keeps Value.Sound
      refine keeps_make_collection _ (fun source => keeps_keys_of) nofun ?_ hitems
      exact fun items hitems => keeps_new_frozenset hitems.of_list
  | dict => exact keeps_make_dict hitems
  | bytes => exact (keeps_byte_values _ hitems).bind fun _ _ => keeps_pure trivial
  | bytearray => exact (keeps_byte_values _ hitems).bind fun _ _ => keeps_new_bytearray _
  | str =>
      refine (keeps_check_count _ _ _ _).bind fun _ _ => ?_
      split
      · exact keeps_pure trivial
      · exact (keeps_display _).bind fun _ _ => keeps_pure trivial
  | int => exact keeps_make_int items
  | float => exact keeps_make_float items
  | bool =>
      refine (keeps_check_count _ _ _ _).bind fun _ _ => ?_
      split
      · exact keeps_pure trivial
      · exact (keeps_is_truthy _).bind fun _ _ => keeps_pure trivial
  | complex => exact keeps_make_complex items
  | error kind =>
      refine (keeps_map_m fun item _ => keeps_display item).bind fun texts _ => ?_
      exact (keeps_new_error kind texts).bind fun _ _ => keeps_pure trivial

/-! ## Items and thrown values -/

theorem keeps_require_place (collection index : Value) {length : Action Nat}
    (hlength : length.Keeps fun _ => True) (complaint : String) :
    (requirePlace collection index length complaint).Keeps fun _ => True := by
  unfold requirePlace
  split
  · dsimp only
    split
    · exact ((keeps_type_name _).bind fun _ _ => keeps_raise _ _ :
        Keeps (fun _ => False) _).bind fun _ h => h.elim
    · refine hlength.bind fun size _ => ?_
      split
      · exact ((keeps_type_name _).bind fun _ _ => keeps_raise _ _ :
          Keeps (fun _ => False) _).bind fun _ h => h.elim
      · exact keeps_pure trivial
  · refine (keeps_type_name collection).bind fun _ _ => ?_
    exact (keeps_type_name index).bind fun _ _ => keeps_raise _ _

theorem keeps_get_item {collection : Value} (hcollection : collection.Sound) (index : Value) :
    (getItem collection index).Keeps Value.Sound := by
  refine keeps_get.bind fun heap hheap => ?_
  have hplace (length : Nat) (complaint : String) :
      (requirePlace collection index (pure length) complaint).Keeps fun _ => True :=
    keeps_require_place collection index (keeps_pure trivial) complaint
  dsimp only
  split
  · rename_i id
    refine (keeps_ensure_hashable index).bind fun _ _ => ?_
    split
    · rename_i value hfound
      exact keeps_pure ((hheap.dict id).get hfound)
    · exact (keeps_display index).bind fun _ _ => keeps_raise _ _
  · rename_i id
    exact (hplace _ _).bind fun place _ => keeps_pure ((hheap.list id).getD place)
  · rename_i mark items
    refine (hplace _ _).bind fun place _ => keeps_pure ?_
    rw [Value.sound_tuple_iff] at hcollection
    rw [List.getD_eq_getElem?_getD]
    cases hitem : items[place]? with
    | none => trivial
    | some item => exact hcollection item (List.mem_of_getElem? hitem)
  · exact (hplace _ _).bind fun place _ => keeps_pure trivial
  · exact (hplace _ _).bind fun place _ => keeps_pure trivial
  · exact (hplace _ _).bind fun place _ => keeps_pure trivial
  · exact (keeps_require_place _ _ (keeps_of_fault _) _).bind fun place _ => keeps_pure trivial
  · exact (keeps_type_name collection).bind fun _ _ => keeps_raise _ _

theorem keeps_set_item (collection : Value) {index value : Value} (hindex : index.Sound)
    (hvalue : value.Sound) : (setItem collection index value).Keeps fun _ => True := by
  refine keeps_get.bind fun heap hheap => ?_
  have hplace (length : Nat) (complaint : String) :
      (requirePlace collection index (pure length) complaint).Keeps fun _ => True :=
    keeps_require_place collection index (keeps_pure trivial) complaint
  dsimp only
  split
  · refine (keeps_ensure_hashable index).bind fun _ hhashable => keeps_set_dict _ ?_
    exact fun dict hdict => hdict.insert hhashable hindex hvalue
  · refine (hplace _ _).bind fun place _ => keeps_set_list _ ?_
    exact fun items hitems => hitems.set_place place hvalue
  · refine (hplace _ _).bind fun place _ => ?_
    split
    · exact keeps_unless (keeps_set_bytearray _ _)
    · exact keeps_raise _ _
  · exact (keeps_type_name collection).bind fun _ _ => keeps_raise _ _

theorem keeps_to_error (value : Value) : (toError value).Keeps fun _ => True := by
  unfold toError
  split
  · exact keeps_pure trivial
  · exact keeps_new_error _ _
  · exact keeps_new_error _ _
  · exact keeps_raise _ _

theorem keeps_to_cause (value : Value) : (toCause value).Keeps fun _ => True := by
  unfold toCause
  split
  · exact keeps_pure trivial
  · exact keeps_pure trivial
  · exact keeps_raise _ _

end Builtin

end Script
