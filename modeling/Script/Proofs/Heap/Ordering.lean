import Script.Proofs.Heap.Equality

/-!
# The order of numbers, texts, bytes, lists and tuples

Rows of values are ordered at the first place where they are not equal, so how two values compare is
a third thing beside equality and the order itself: they may be ordered one way, not be ordered at
all, or be nested too deeply to tell. `Heap.rankWithin` says which, once for the four ways to ask
(`Comparison.Tells`). Its laws hold within any depth: swapping the values swaps the answer
(`Heap.rank_within_swap`), equal values have the same place in the order
(`Heap.rank_within_congr`), values that are ordered are equal only if neither comes first
(`Heap.equal_of_rank`), and what comes first is transitive (`Heap.rank_within_trans`).
-/

namespace Script

/-! ## What ordinary values are made of -/

/-- A value without parts, by what it is compared as. A truth value counts as a number. -/
inductive Leaf where
  | null
  | number (n : Int)
  | text (s : String)
  | bytes (contents : List UInt8)
  deriving DecidableEq

/-- What a value is made of. -/
inductive Makeup where
  | leaf (leaf : Leaf)
  | list (items : List Value)
  | tuple (items : List Value)

namespace Leaf

/-- How two values without parts are ordered, if they are of one kind. -/
def rank : Leaf → Leaf → Option Ordering
  | .number m, .number n => some (compare m n)
  | .text s, .text t => some (compare s t)
  | .bytes xs, .bytes ys => some (compare (xs.map (·.toNat)) (ys.map (·.toNat)))
  | _, _ => none

variable {k l m : Leaf}

theorem rank_swap (k l : Leaf) : l.rank k = (k.rank l).map Ordering.swap := by
  cases k <;> cases l <;>
    first
    | rfl
    | exact congrArg some Std.OrientedCmp.eq_swap

theorem eq_of_rank (h : k.rank l = some .eq) : k = l := by
  unfold rank at h
  split at h
  · rw [Std.LawfulEqOrd.eq_of_compare (Option.some.inj h)]
  · rw [Std.LawfulEqOrd.eq_of_compare (Option.some.inj h)]
  · have hbytes := Std.LawfulEqOrd.eq_of_compare (Option.some.inj h)
    rw [List.map_injective_iff.mpr (fun _ _ => UInt8.toNat_inj.mp) hbytes]
  · cases h

theorem rank_self {order : Ordering} (h : l.rank l = some order) : order = .eq := by
  cases l with
  | null => cases h
  | _ =>
      rw [← Option.some.inj h]
      exact Std.ReflOrd.compare_self

theorem rank_trans (h : k.rank l = some .lt) (h' : l.rank m = some .lt) :
    k.rank m = some .lt := by
  cases k <;> cases l <;> try cases h
  all_goals
    cases m <;> try cases h'
    exact congrArg some (Std.TransCmp.lt_trans (Option.some.inj h) (Option.some.inj h'))

theorem decide_eq_of_rank {order : Ordering} (h : k.rank l = some order) :
    decide (k = l) = decide (order = .eq) := by
  rw [decide_eq_decide]
  constructor
  · rintro rfl
    exact rank_self h
  · rintro rfl
    exact eq_of_rank h

end Leaf

namespace Makeup

/-- The parts of a value. -/
def parts : Makeup → List Value
  | .leaf _ => []
  | .list items | .tuple items => items

/-- Whether two values are equal, for parts that are compared in some way. -/
def compare (agree : Value → Value → Except Fault Bool) : Makeup → Makeup → Except Fault Bool
  | .leaf k, .leaf l => .ok (decide (k = l))
  | .list xs, .list ys => if xs.length ≠ ys.length then .ok false else Heap.allAgree agree xs ys
  | .tuple xs, .tuple ys => Heap.allAgree agree xs ys
  | _, _ => .ok false

/-- How two rows are ordered: as the parts at the first place where they do not agree, or by their
lengths. -/
def rankItems (agree : Value → Value → Except Fault Bool)
    (rank : Value → Value → Except Fault (Option Ordering)) :
    List Value → List Value → Except Fault (Option Ordering)
  | x :: xs, y :: ys => do
    if ← agree x y then rankItems agree rank xs ys else rank x y
  | xs, ys => .ok (some (Ord.compare xs.length ys.length))

/-- How two values are ordered, for parts that are compared and ordered in some way. -/
def rank (agree : Value → Value → Except Fault Bool)
    (rank : Value → Value → Except Fault (Option Ordering)) :
    Makeup → Makeup → Except Fault (Option Ordering)
  | .leaf k, .leaf l => .ok (k.rank l)
  | .list xs, .list ys | .tuple xs, .tuple ys => rankItems agree rank xs ys
  | _, _ => .ok none

end Makeup

namespace Heap

/-- Numbers, truth values, texts, bytes and null, and the lists and tuples over them, nested to any
finite depth. -/
inductive Ordinary (heap : Heap) : Value → Prop where
  | null : Ordinary heap .null
  | bool (b : Bool) : Ordinary heap (.bool b)
  | int (n : Int) : Ordinary heap (.int n)
  | str (s : String) : Ordinary heap (.str s)
  | bytes (contents : List UInt8) : Ordinary heap (.bytes contents)
  | list {id : ListId} (h : ∀ item ∈ (heap.list id).toList, Ordinary heap item) :
      Ordinary heap (.list id)
  | tuple {mark : Nat} {items : List Value} (h : ∀ item ∈ items, Ordinary heap item) :
      Ordinary heap (.tuple mark items)

/-- What a value is made of, if it is an ordinary one. -/
def makeup? (heap : Heap) : Value → Option Makeup
  | .null => some (.leaf .null)
  | .bool b => some (.leaf (.number (if b then 1 else 0)))
  | .int n => some (.leaf (.number n))
  | .str s => some (.leaf (.text s))
  | .bytes contents => some (.leaf (.bytes contents))
  | .list id => some (.list (heap.list id).toList)
  | .tuple _ items => some (.tuple items)
  | _ => none

/-- How two values are ordered that are nested at most to a given depth; nothing if they are not
ordered. -/
def rankWithin (heap : Heap) : Nat → Value → Value → Except Fault (Option Ordering)
  | 0, _, _ => .error .recursion
  | depth + 1, a, b =>
    match heap.makeup? a, heap.makeup? b with
    | some m, some n => m.rank (heap.agree depth) (heap.rankWithin depth) n
    | _, _ => .ok none

variable {heap : Heap} {depth : Nat} {a b c x y z : Value} {m n : Makeup}

theorem Ordinary.exists_makeup (h : heap.Ordinary a) :
    ∃ m, heap.makeup? a = some m ∧ ∀ part ∈ m.parts, heap.Ordinary part := by
  cases h with
  | list h => exact ⟨_, rfl, h⟩
  | tuple h => exact ⟨_, rfl, h⟩
  | _ => exact ⟨_, rfl, nofun⟩

theorem parts_eq (h : heap.makeup? a = some m) : heap.parts a = m.parts := by
  unfold makeup? at h
  split at h
  case h_8 => cases h
  all_goals
    cases h
    rfl

theorem Ordinary.floating (h : heap.Ordinary a) : a.isFloating = false := by
  cases h <;> rfl

theorem numbers_equal (k l : Int) :
    (Number.Numeric.int k).equal (.int l) = decide (Leaf.number k = .number l) := by
  rw [Bool.eq_iff_iff, decide_eq_true_iff, Leaf.number.injEq]
  simp [Number.Numeric.equal, Number.Numeric.compare?]

/-- Ordinary values are compared by what they are made of. -/
theorem equal_within_makeup (ha : heap.makeup? a = some m) (hb : heap.makeup? b = some n) :
    heap.equalWithin (depth + 1) a b = m.compare (heap.agree depth) n := by
  rw [equal_within_succ]
  cases a <;> try cases ha
  all_goals cases b <;> try cases hb
  all_goals
    first
    | rfl
    | exact congrArg Except.ok (numbers_equal _ _)
    | simp [shape, Shape.compare, Makeup.compare, Value.atomEqual, Bool.beq_eq_decide_eq]

theorem rank_within_makeup (ha : heap.makeup? a = some m) (hb : heap.makeup? b = some n) :
    heap.rankWithin (depth + 1) a b = m.rank (heap.agree depth) (heap.rankWithin depth) n := by
  simp only [rankWithin, ha, hb]

end Heap

/-! ## Equality of ordinary values -/

namespace Makeup

variable {good : Value → Prop} {agree : Value → Value → Except Fault Bool} {k m n : Makeup}
  {x y : Value} {xs ys zs : List Value} {same result : Bool}

theorem all_agree_cons (h : agree x y = .ok same) :
    Heap.allAgree agree (x :: xs) (y :: ys) =
      if same then Heap.allAgree agree xs ys else .ok false := by
  show (agree x y >>= _) = _
  rw [h]
  rfl

theorem all_agree_cases (h : Heap.allAgree agree (x :: xs) (y :: ys) = .ok result) :
    agree x y = .ok true ∧ Heap.allAgree agree xs ys = .ok result ∨
      agree x y = .ok false ∧ result = false := by
  obtain ⟨same, hsame, h⟩ := bind_eq_ok h
  cases same with
  | true => exact .inl ⟨hsame, h⟩
  | false => exact .inr ⟨hsame, (Except.ok.inj h).symm⟩

/-- Rows agree either way if their parts do. -/
theorem all_agree_comm (hxs : ∀ x ∈ xs, good x) (hys : ∀ y ∈ ys, good y)
    (h : ∀ {x y}, good x → good y → agree y x = agree x y) :
    Heap.allAgree agree ys xs = Heap.allAgree agree xs ys := by
  induction xs generalizing ys with
  | nil => cases ys <;> rfl
  | cons x xs ih =>
      cases ys with
      | nil => rfl
      | cons y ys =>
          obtain ⟨hx, hxs⟩ := List.forall_mem_cons.mp hxs
          obtain ⟨hy, hys⟩ := List.forall_mem_cons.mp hys
          show (agree y x >>= _) = (agree x y >>= _)
          rw [h hx hy, ih hxs hys]

/-- A row agrees with itself if its parts do. -/
theorem all_agree_self (hxs : ∀ x ∈ xs, good x)
    (h : ∀ {x same}, good x → agree x x = .ok same → same = true)
    (hself : Heap.allAgree agree xs xs = .ok result) : result = true := by
  induction xs with
  | nil => exact (Except.ok.inj hself).symm
  | cons x xs ih =>
      obtain ⟨hx, hxs⟩ := List.forall_mem_cons.mp hxs
      obtain ⟨-, hrest⟩ | ⟨hsame, -⟩ := all_agree_cases hself
      · exact ih hxs hrest
      · cases h hx hsame

/-- A row agrees with what another one agrees with, if that holds of the parts. -/
theorem all_agree_congr (hxs : ∀ x ∈ xs, good x) (hys : ∀ y ∈ ys, good y)
    (hzs : ∀ z ∈ zs, good z)
    (h : ∀ {x y z same}, good x → good y → good z → agree y z = .ok true →
      agree x y = .ok same → agree x z = .ok same)
    (hequal : Heap.allAgree agree ys zs = .ok true)
    (hfirst : Heap.allAgree agree xs ys = .ok result) :
    Heap.allAgree agree xs zs = .ok result := by
  induction xs generalizing ys zs with
  | nil =>
      cases ys <;> cases zs <;> first | exact hfirst | cases hequal
  | cons x xs ih =>
      obtain ⟨hx, hxs⟩ := List.forall_mem_cons.mp hxs
      cases ys with
      | nil => cases zs <;> first | exact hfirst | cases hequal
      | cons y ys =>
          obtain ⟨hy, hys⟩ := List.forall_mem_cons.mp hys
          cases zs with
          | nil => cases hequal
          | cons z zs =>
              obtain ⟨hz, hzs⟩ := List.forall_mem_cons.mp hzs
              obtain ⟨hyz, hequal⟩ | ⟨-, hfalse⟩ := all_agree_cases hequal
              · obtain ⟨hxy, hfirst⟩ | ⟨hxy, rfl⟩ := all_agree_cases hfirst
                · rw [all_agree_cons (h hx hy hz hyz hxy)]
                  exact ih hxs hys hzs hequal hfirst
                · rw [all_agree_cons (h hx hy hz hyz hxy)]
                  rfl
              · cases hfalse

theorem compare_lists (h : (list xs).compare agree (.list ys) = .ok true) :
    xs.length = ys.length ∧ Heap.allAgree agree xs ys = .ok true := by
  dsimp only [compare] at h
  split at h
  · cases h
  · rename_i hlength
    exact ⟨not_not.mp hlength, h⟩

theorem compare_comm (hm : ∀ part ∈ m.parts, good part) (hn : ∀ part ∈ n.parts, good part)
    (h : ∀ {x y}, good x → good y → agree y x = agree x y) :
    n.compare agree m = m.compare agree n := by
  cases m with
  | leaf k =>
      cases n with
      | leaf l => simp only [compare, eq_comm]
      | _ => rfl
  | list xs =>
      cases n with
      | list ys =>
          have hitems : Heap.allAgree agree ys xs = Heap.allAgree agree xs ys :=
            all_agree_comm hm hn h
          simp only [compare, hitems, ne_comm]
      | _ => rfl
  | tuple xs =>
      cases n with
      | tuple ys => exact all_agree_comm hm hn h
      | _ => rfl

theorem compare_self (hm : ∀ part ∈ m.parts, good part)
    (h : ∀ {x same}, good x → agree x x = .ok same → same = true)
    (hself : m.compare agree m = .ok result) : result = true := by
  cases m with
  | leaf k => exact (Except.ok.inj hself).symm.trans (decide_eq_true rfl)
  | list xs =>
      dsimp only [compare] at hself
      rw [if_neg (not_not.mpr rfl)] at hself
      exact all_agree_self hm h hself
  | tuple xs => exact all_agree_self hm h hself

theorem compare_congr (hm : ∀ part ∈ m.parts, good part) (hn : ∀ part ∈ n.parts, good part)
    (hk : ∀ part ∈ k.parts, good part)
    (h : ∀ {x y z same}, good x → good y → good z → agree y z = .ok true →
      agree x y = .ok same → agree x z = .ok same)
    (hequal : n.compare agree k = .ok true) (hfirst : m.compare agree n = .ok result) :
    m.compare agree k = .ok result := by
  cases n with
  | leaf l =>
      cases k with
      | leaf other =>
          rw [← of_decide_eq_true (Except.ok.inj hequal)]
          exact hfirst
      | _ => cases hequal
  | list ys =>
      cases k with
      | list zs =>
          obtain ⟨hlength, hequal⟩ := compare_lists hequal
          cases m with
          | list xs =>
              dsimp only [compare] at hfirst ⊢
              rw [← hlength]
              split
              · rename_i hdiffer
                rwa [if_pos hdiffer] at hfirst
              · rename_i hsame
                rw [if_neg hsame] at hfirst
                exact all_agree_congr hm hn hk h hequal hfirst
          | _ => exact hfirst
      | _ => cases hequal
  | tuple ys =>
      cases k with
      | tuple zs =>
          cases m with
          | tuple xs => exact all_agree_congr hm hn hk h hequal hfirst
          | _ => exact hfirst
      | _ => cases hequal

end Makeup

namespace Heap

variable {heap : Heap} {depth : Nat} {a b c x y z : Value} {result : Bool}

/-- Parts agree, or not, as one and the same value or as the comparison says. -/
theorem Ordinary.agree_cases (hx : heap.Ordinary x) (h : heap.agree depth x y = .ok result) :
    x = y ∧ result = true ∨ heap.equalWithin depth x y = .ok result := by
  unfold agree at h
  split at h
  · rename_i hidentical
    exact .inl ⟨Value.eq_of_identical hx.floating hidentical, (Except.ok.inj h).symm⟩
  · exact .inr h

theorem agree_comm (hx : heap.Ordinary x) (hy : heap.Ordinary y)
    (h : heap.equalWithin depth y x = heap.equalWithin depth x y) :
    heap.agree depth y x = heap.agree depth x y := by
  have hidentical : y.isIdentical x = x.isIdentical y := by
    rw [Bool.eq_iff_iff]
    constructor
    · intro hyx
      obtain rfl := Value.eq_of_identical hy.floating hyx
      exact hyx
    · intro hxy
      obtain rfl := Value.eq_of_identical hx.floating hxy
      exact hxy
  rw [agree, agree, h, hidentical]

theorem equal_within_comm (ha : heap.Ordinary a) (hb : heap.Ordinary b) :
    heap.equalWithin depth b a = heap.equalWithin depth a b := by
  induction depth generalizing a b with
  | zero => rfl
  | succ depth ih =>
      obtain ⟨m, hm, hmparts⟩ := ha.exists_makeup
      obtain ⟨n, hn, hnparts⟩ := hb.exists_makeup
      rw [equal_within_makeup hm hn, equal_within_makeup hn hm]
      exact Makeup.compare_comm hmparts hnparts fun hx hy => agree_comm hx hy (ih hx hy)

/-- A value is not found different from itself. -/
theorem equal_within_self (ha : heap.Ordinary a) (h : heap.equalWithin depth a a = .ok result) :
    result = true := by
  induction depth generalizing a result with
  | zero => cases h
  | succ depth ih =>
      obtain ⟨m, hm, hmparts⟩ := ha.exists_makeup
      rw [equal_within_makeup hm hm] at h
      refine Makeup.compare_self hmparts (fun hx hsame => ?_) h
      obtain ⟨-, htrue⟩ | hsame := hx.agree_cases hsame
      · exact htrue
      · exact ih hx hsame

theorem Ordinary.agree_of_equal (hx : heap.Ordinary x)
    (h : heap.equalWithin depth x y = .ok result) : heap.agree depth x y = .ok result := by
  unfold agree
  split
  · rename_i hidentical
    obtain rfl := Value.eq_of_identical hx.floating hidentical
    rw [equal_within_self hx h]
  · exact h

/-- Parts agree with what agrees with them in the same way, if that holds of equality. -/
theorem agree_congr_of_equal (hx : heap.Ordinary x) (hy : heap.Ordinary y)
    (h : heap.equalWithin depth y z = .ok true → heap.equalWithin depth x y = .ok result →
      heap.equalWithin depth x z = .ok result)
    (hyz : heap.agree depth y z = .ok true) (hxy : heap.agree depth x y = .ok result) :
    heap.agree depth x z = .ok result := by
  obtain ⟨rfl, -⟩ | hyz := hy.agree_cases hyz
  · exact hxy
  obtain ⟨rfl, rfl⟩ | hxy := hx.agree_cases hxy
  · exact hx.agree_of_equal hyz
  · exact hx.agree_of_equal (h hyz hxy)

/-- What is equal to a value is equal to the same values. -/
theorem equal_within_congr (ha : heap.Ordinary a) (hb : heap.Ordinary b) (hc : heap.Ordinary c)
    (hequal : heap.equalWithin depth b c = .ok true)
    (h : heap.equalWithin depth a b = .ok result) : heap.equalWithin depth a c = .ok result := by
  induction depth generalizing a b c result with
  | zero => cases h
  | succ depth ih =>
      obtain ⟨m, hm, hmparts⟩ := ha.exists_makeup
      obtain ⟨n, hn, hnparts⟩ := hb.exists_makeup
      obtain ⟨k, hk, hkparts⟩ := hc.exists_makeup
      rw [equal_within_makeup hn hk] at hequal
      rw [equal_within_makeup hm hn] at h
      rw [equal_within_makeup hm hk]
      exact Makeup.compare_congr hmparts hnparts hkparts
        (fun hx hy hz => agree_congr_of_equal hx hy (ih hx hy hz)) hequal h

theorem agree_congr (hx : heap.Ordinary x) (hy : heap.Ordinary y) (hz : heap.Ordinary z)
    (hyz : heap.agree depth y z = .ok true) (hxy : heap.agree depth x y = .ok result) :
    heap.agree depth x z = .ok result :=
  agree_congr_of_equal hx hy (equal_within_congr hx hy hz) hyz hxy

/-! ## The order of ordinary values -/

/-- How two rows of parts are ordered that are nested at most to a given depth. -/
abbrev rankItems (heap : Heap) (depth : Nat) :
    List Value → List Value → Except Fault (Option Ordering) :=
  Makeup.rankItems (heap.agree depth) (heap.rankWithin depth)

section Rows

variable {xs ys zs : List Value} {found : Option Ordering} {order : Ordering}

theorem rank_items_cons {same : Bool} (h : heap.agree depth x y = .ok same) :
    heap.rankItems depth (x :: xs) (y :: ys) =
      if same then heap.rankItems depth xs ys else heap.rankWithin depth x y := by
  show (heap.agree depth x y >>= _) = _
  rw [h]
  rfl

theorem rank_items_cases (h : heap.rankItems depth (x :: xs) (y :: ys) = .ok found) :
    heap.agree depth x y = .ok true ∧ heap.rankItems depth xs ys = .ok found ∨
      heap.agree depth x y = .ok false ∧ heap.rankWithin depth x y = .ok found := by
  obtain ⟨same, hsame, h⟩ := bind_eq_ok h
  cases same with
  | true => exact .inl ⟨hsame, h⟩
  | false => exact .inr ⟨hsame, h⟩

theorem rank_items_nil : heap.rankItems depth [] ys = .ok (some (compare 0 ys.length)) := by
  cases ys <;> rfl

/-- Swapping two rows swaps their order if that holds of the parts. -/
theorem rank_items_swap (hxs : ∀ x ∈ xs, heap.Ordinary x) (hys : ∀ y ∈ ys, heap.Ordinary y)
    (h : ∀ {x y}, heap.Ordinary x → heap.Ordinary y →
      heap.rankWithin depth y x = (heap.rankWithin depth x y).map (Option.map Ordering.swap)) :
    heap.rankItems depth ys xs =
      (heap.rankItems depth xs ys).map (Option.map Ordering.swap) := by
  have hends (m n : Nat) : (.ok (some (compare n m)) : Except Fault (Option Ordering)) =
      (Except.ok (some (compare m n))).map (Option.map Ordering.swap) :=
    congrArg (Except.ok ∘ some) Std.OrientedCmp.eq_swap
  induction xs generalizing ys with
  | nil => cases ys <;> exact hends 0 _
  | cons x xs ih =>
      cases ys with
      | nil => exact hends (xs.length + 1) 0
      | cons y ys =>
          obtain ⟨hx, hxs⟩ := List.forall_mem_cons.mp hxs
          obtain ⟨hy, hys⟩ := List.forall_mem_cons.mp hys
          show (heap.agree depth y x >>= _) = Except.map _ (heap.agree depth x y >>= _)
          rw [agree_comm hx hy (equal_within_comm hx hy)]
          cases heap.agree depth x y with
          | error fault => rfl
          | ok same =>
              cases same with
              | true => exact ih hxs hys
              | false => exact h hx hy

/-- Swapping two values swaps their order. -/
theorem rank_within_swap (ha : heap.Ordinary a) (hb : heap.Ordinary b) :
    heap.rankWithin depth b a = (heap.rankWithin depth a b).map (Option.map Ordering.swap) := by
  induction depth generalizing a b with
  | zero => rfl
  | succ depth ih =>
      obtain ⟨m, hm, hmparts⟩ := ha.exists_makeup
      obtain ⟨n, hn, hnparts⟩ := hb.exists_makeup
      rw [rank_within_makeup hm hn, rank_within_makeup hn hm]
      cases m with
      | leaf k =>
          cases n with
          | leaf l => exact congrArg Except.ok (Leaf.rank_swap k l)
          | _ => rfl
      | list xs =>
          cases n with
          | list ys => exact rank_items_swap hmparts hnparts ih
          | _ => rfl
      | tuple xs =>
          cases n with
          | tuple ys => exact rank_items_swap hmparts hnparts ih
          | _ => rfl

/-- Rows that are ordered agree only if neither comes first. -/
theorem all_agree_of_rank (hxs : ∀ x ∈ xs, heap.Ordinary x) (hys : ∀ y ∈ ys, heap.Ordinary y)
    (hequal : ∀ {x y order}, heap.Ordinary x → heap.Ordinary y →
      heap.rankWithin depth x y = .ok (some order) →
        heap.equalWithin depth x y = .ok (decide (order = .eq)))
    (h : heap.rankItems depth xs ys = .ok (some order)) :
    allAgree (heap.agree depth) xs ys = .ok (decide (order = .eq)) := by
  induction xs generalizing ys with
  | nil =>
      cases ys <;>
        · cases h
          rfl
  | cons x xs ih =>
      cases ys with
      | nil =>
          cases h
          rfl
      | cons y ys =>
          obtain ⟨hx, hxs⟩ := List.forall_mem_cons.mp hxs
          obtain ⟨hy, hys⟩ := List.forall_mem_cons.mp hys
          obtain ⟨hsame, hrest⟩ | ⟨hsame, hfirst⟩ := rank_items_cases h
          · rw [Makeup.all_agree_cons hsame]
            exact ih hxs hys hrest
          · have hdiffer := hsame.symm.trans (hx.agree_of_equal (hequal hx hy hfirst))
            rw [Makeup.all_agree_cons hsame]
            exact hdiffer

/-- Values that are ordered are equal only if neither comes first. -/
theorem equal_of_rank (ha : heap.Ordinary a) (hb : heap.Ordinary b)
    (h : heap.rankWithin depth a b = .ok (some order)) :
    heap.equalWithin depth a b = .ok (decide (order = .eq)) := by
  induction depth generalizing a b order with
  | zero => cases h
  | succ depth ih =>
      obtain ⟨m, hm, hmparts⟩ := ha.exists_makeup
      obtain ⟨n, hn, hnparts⟩ := hb.exists_makeup
      rw [rank_within_makeup hm hn] at h
      rw [equal_within_makeup hm hn]
      cases m with
      | leaf k =>
          cases n with
          | leaf l => exact congrArg Except.ok (Leaf.decide_eq_of_rank (Except.ok.inj h))
          | _ => cases h
      | list xs =>
          cases n with
          | list ys =>
              have hagree := all_agree_of_rank hmparts hnparts ih h
              dsimp only [Makeup.compare]
              split
              · rename_i hlength
                refine congrArg Except.ok (decide_eq_false ?_).symm
                rintro rfl
                exact hlength (Shape.all_agree_iff.mp hagree).length_eq
              · exact hagree
          | _ => cases h
      | tuple xs =>
          cases n with
          | tuple ys => exact all_agree_of_rank hmparts hnparts ih h
          | _ => cases h

/-- A row is ordered against a second as against any row that agrees with the second. -/
theorem rank_items_congr (hxs : ∀ x ∈ xs, heap.Ordinary x) (hys : ∀ y ∈ ys, heap.Ordinary y)
    (hzs : ∀ z ∈ zs, heap.Ordinary z)
    (hrank : ∀ {x y z found}, heap.Ordinary x → heap.Ordinary y → heap.Ordinary z →
      heap.agree depth y z = .ok true → heap.rankWithin depth x y = .ok found →
        heap.rankWithin depth x z = .ok found)
    (hequal : allAgree (heap.agree depth) ys zs = .ok true)
    (h : heap.rankItems depth xs ys = .ok found) : heap.rankItems depth xs zs = .ok found := by
  induction xs generalizing ys zs with
  | nil =>
      rw [rank_items_nil] at h ⊢
      rwa [← (Shape.all_agree_iff.mp hequal).length_eq]
  | cons x xs ih =>
      obtain ⟨hx, hxs⟩ := List.forall_mem_cons.mp hxs
      cases ys with
      | nil => cases zs <;> first | exact h | cases hequal
      | cons y ys =>
          obtain ⟨hy, hys⟩ := List.forall_mem_cons.mp hys
          cases zs with
          | nil => cases hequal
          | cons z zs =>
              obtain ⟨hz, hzs⟩ := List.forall_mem_cons.mp hzs
              obtain ⟨hyz, hequal⟩ | ⟨-, hfalse⟩ := Makeup.all_agree_cases hequal
              · obtain ⟨hxy, h⟩ | ⟨hxy, h⟩ := rank_items_cases h
                · rw [rank_items_cons (agree_congr hx hy hz hyz hxy)]
                  exact ih hxs hys hzs hequal h
                · rw [rank_items_cons (agree_congr hx hy hz hyz hxy)]
                  exact hrank hx hy hz hyz h
              · cases hfalse

/-- Equal values have the same place in the order. -/
theorem rank_within_congr (ha : heap.Ordinary a) (hb : heap.Ordinary b) (hc : heap.Ordinary c)
    (hequal : heap.agree depth b c = .ok true) (h : heap.rankWithin depth a b = .ok found) :
    heap.rankWithin depth a c = .ok found := by
  induction depth generalizing a b c found with
  | zero => cases h
  | succ depth ih =>
      obtain ⟨rfl, -⟩ | hequal := hb.agree_cases hequal
      · exact h
      obtain ⟨m, hm, hmparts⟩ := ha.exists_makeup
      obtain ⟨n, hn, hnparts⟩ := hb.exists_makeup
      obtain ⟨k, hk, hkparts⟩ := hc.exists_makeup
      rw [equal_within_makeup hn hk] at hequal
      rw [rank_within_makeup hm hn] at h
      rw [rank_within_makeup hm hk]
      cases n with
      | leaf l =>
          cases k with
          | leaf other =>
              rw [← of_decide_eq_true (Except.ok.inj hequal)]
              exact h
          | _ => cases hequal
      | list ys =>
          cases k with
          | list zs =>
              cases m with
              | list xs =>
                  have hagree := (Makeup.compare_lists hequal).2
                  exact rank_items_congr hmparts hnparts hkparts ih hagree h
              | _ => exact h
          | _ => cases hequal
      | tuple ys =>
          cases k with
          | tuple zs =>
              cases m with
              | tuple xs => exact rank_items_congr hmparts hnparts hkparts ih hequal h
              | _ => exact h
          | _ => cases hequal

theorem rank_within_congr_left (ha : heap.Ordinary a) (hb : heap.Ordinary b) (hc : heap.Ordinary c)
    (hequal : heap.agree depth a b = .ok true) (h : heap.rankWithin depth b c = .ok found) :
    heap.rankWithin depth a c = .ok found := by
  have hback : heap.agree depth b a = .ok true := by
    rw [agree_comm ha hb (equal_within_comm ha hb), hequal]
  have hswapped : heap.rankWithin depth c a = .ok (found.map Ordering.swap) := by
    refine rank_within_congr hc hb ha hback ?_
    rw [rank_within_swap hb hc, h]
    rfl
  rw [rank_within_swap hc ha, hswapped]
  cases found with
  | none => rfl
  | some order => cases order <;> rfl

theorem agree_of_rank {order : Ordering} (hx : heap.Ordinary x) (hy : heap.Ordinary y)
    (h : heap.rankWithin depth x y = .ok (some order)) :
    heap.agree depth x y = .ok (decide (order = .eq)) :=
  hx.agree_of_equal (equal_of_rank hx hy h)

/-- What comes first is transitive for rows if it is for the parts. -/
theorem rank_items_trans (hxs : ∀ x ∈ xs, heap.Ordinary x) (hys : ∀ y ∈ ys, heap.Ordinary y)
    (hzs : ∀ z ∈ zs, heap.Ordinary z)
    (htrans : ∀ {x y z}, heap.Ordinary x → heap.Ordinary y → heap.Ordinary z →
      heap.rankWithin depth x y = .ok (some .lt) → heap.rankWithin depth y z = .ok (some .lt) →
        heap.rankWithin depth x z = .ok (some .lt))
    (h : heap.rankItems depth xs ys = .ok (some .lt))
    (h' : heap.rankItems depth ys zs = .ok (some .lt)) :
    heap.rankItems depth xs zs = .ok (some .lt) := by
  induction xs generalizing ys zs with
  | nil =>
      cases zs with
      | nil => cases ys <;> cases h'
      | cons z zs => rfl
  | cons x xs ih =>
      obtain ⟨hx, hxs⟩ := List.forall_mem_cons.mp hxs
      cases ys with
      | nil => cases h
      | cons y ys =>
          obtain ⟨hy, hys⟩ := List.forall_mem_cons.mp hys
          cases zs with
          | nil => cases h'
          | cons z zs =>
              obtain ⟨hz, hzs⟩ := List.forall_mem_cons.mp hzs
              -- Where the first two rows or the last two differ, the outer ones do.
              have hdiffer (hxz : heap.rankWithin depth x z = .ok (some .lt)) :
                  heap.rankItems depth (x :: xs) (z :: zs) = .ok (some .lt) := by
                rw [rank_items_cons (agree_of_rank hx hz hxz)]
                exact hxz
              obtain ⟨hxy, h⟩ | ⟨-, h⟩ := rank_items_cases h
              · obtain ⟨hyz, h'⟩ | ⟨-, h'⟩ := rank_items_cases h'
                · rw [rank_items_cons (agree_congr hx hy hz hyz hxy)]
                  exact ih hxs hys hzs h h'
                · exact hdiffer (rank_within_congr_left hx hy hz hxy h')
              · obtain ⟨hyz, -⟩ | ⟨-, h'⟩ := rank_items_cases h'
                · exact hdiffer (rank_within_congr hx hy hz hyz h)
                · exact hdiffer (htrans hx hy hz h h')

theorem rank_within_trans (ha : heap.Ordinary a) (hb : heap.Ordinary b) (hc : heap.Ordinary c)
    (h : heap.rankWithin depth a b = .ok (some .lt))
    (h' : heap.rankWithin depth b c = .ok (some .lt)) :
    heap.rankWithin depth a c = .ok (some .lt) := by
  induction depth generalizing a b c with
  | zero => cases h
  | succ depth ih =>
      obtain ⟨m, hm, hmparts⟩ := ha.exists_makeup
      obtain ⟨n, hn, hnparts⟩ := hb.exists_makeup
      obtain ⟨k, hk, hkparts⟩ := hc.exists_makeup
      rw [rank_within_makeup hm hn] at h
      rw [rank_within_makeup hn hk] at h'
      rw [rank_within_makeup hm hk]
      cases n with
      | leaf l =>
          cases m with
          | leaf first =>
              cases k with
              | leaf last =>
                  have hrank := Leaf.rank_trans (Except.ok.inj h) (Except.ok.inj h')
                  exact congrArg Except.ok hrank
              | _ => cases h'
          | _ => cases h
      | list ys =>
          cases m with
          | list xs =>
              cases k with
              | list zs => exact rank_items_trans hmparts hnparts hkparts ih h h'
              | _ => cases h'
          | _ => cases h
      | tuple ys =>
          cases m with
          | tuple xs =>
              cases k with
              | tuple zs => exact rank_items_trans hmparts hnparts hkparts ih h h'
              | _ => cases h'
          | _ => cases h

end Rows

/-! ## Limits of the machine -/

theorem rank_items_error {fault : Fault} {xs ys : List Value}
    (h : heap.rankItems depth xs ys = .error fault) :
    ∃ x ∈ xs, ∃ y ∈ ys,
      heap.equalWithin depth x y = .error fault ∨ heap.rankWithin depth x y = .error fault := by
  induction xs generalizing ys with
  | nil =>
      rw [rank_items_nil] at h
      cases h
  | cons x xs ih =>
      cases ys with
      | nil => cases h
      | cons y ys =>
          obtain hagree | ⟨same, -, hrest⟩ := bind_eq_error h
          · refine ⟨x, List.mem_cons_self, y, List.mem_cons_self, .inl ?_⟩
            unfold agree at hagree
            split at hagree
            · cases hagree
            · exact hagree
          · cases same with
            | true =>
                obtain ⟨x', hx, y', hy, herror⟩ := ih hrest
                exact ⟨x', List.mem_cons_of_mem _ hx, y', List.mem_cons_of_mem _ hy, herror⟩
            | false => exact ⟨x, List.mem_cons_self, y, List.mem_cons_self, .inr hrest⟩

/-- If the order of two values cannot be told, both are nested too deeply. -/
theorem rank_within_error {fault : Fault} (h : heap.rankWithin depth a b = .error fault) :
    fault = .recursion ∧ ¬heap.NestsWithin depth a ∧ ¬heap.NestsWithin depth b := by
  induction depth generalizing a b with
  | zero =>
      cases h
      exact ⟨rfl, id, id⟩
  | succ depth ih =>
      have hrows {m n : Makeup} (hm : heap.makeup? a = some m) (hn : heap.makeup? b = some n)
          (hitems : heap.rankItems depth m.parts n.parts = .error fault) :
          fault = .recursion ∧ ¬heap.NestsWithin (depth + 1) a ∧
            ¬heap.NestsWithin (depth + 1) b := by
        obtain ⟨x, hx, y, hy, herror⟩ := rank_items_error hitems
        obtain ⟨hfault, hxdeep, hydeep⟩ := herror.elim equal_within_error ih
        rw [← parts_eq hm] at hx
        rw [← parts_eq hn] at hy
        exact ⟨hfault, fun ha => hxdeep (ha x hx), fun hb => hydeep (hb y hy)⟩
      unfold rankWithin at h
      split at h
      · rename_i m n hm hn
        cases m with
        | leaf k => cases n <;> cases h
        | list xs =>
            cases n with
            | list ys => exact hrows hm hn h
            | _ => cases h
        | tuple xs =>
            cases n with
            | tuple ys => exact hrows hm hn h
            | _ => cases h
      · cases h

end Heap

end Script
