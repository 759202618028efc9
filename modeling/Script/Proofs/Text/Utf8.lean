import Mathlib.Data.List.Basic
import Script.Text.Utf8

/-!
# Decoding reads what encoding writes

The number of a character is written in one of four forms, of one to four bytes (`Form`). Encoding
writes the form of each character, and decoding reads a character from the front of some bytes
exactly if they begin with its form. Hence some bytes are decoded to a text exactly if the text is
encoded to them (`decode_eq_ok_iff`), and to nothing if no text is.
-/

namespace Script.Text.Utf8

variable {n width : Nat} {a b : UInt8} {c : Char} {bytes tails rest : List UInt8}
  {text done : List Char}

/-- The bytes are the form of a number: which of the four depends on how large it is. -/
inductive Form (n : Nat) : List UInt8 → Prop where
  | one {a : UInt8} (hn : n < 0x80) (ha : a.toNat = n) : Form n [a]
  | two {a b : UInt8} (hn : 0x80 ≤ n ∧ n < 0x800) (ha : a.toNat = 0xC0 + n / 64)
      (hb : b.toNat = 0x80 + n % 64) : Form n [a, b]
  | three {a b c : UInt8} (hn : 0x800 ≤ n ∧ n < 0x10000) (ha : a.toNat = 0xE0 + n / 4096)
      (hb : b.toNat = 0x80 + n / 64 % 64) (hc : c.toNat = 0x80 + n % 64) : Form n [a, b, c]
  | four {a b c d : UInt8} (hn : 0x10000 ≤ n ∧ n < 0x110000) (ha : a.toNat = 0xF0 + n / 262144)
      (hb : b.toNat = 0x80 + n / 4096 % 64) (hc : c.toNat = 0x80 + n / 64 % 64)
      (hd : d.toNat = 0x80 + n % 64) : Form n [a, b, c, d]

theorem Form.unique {others : List UInt8} (h : Form n bytes) (h' : Form n others) :
    bytes = others := by
  cases h <;> cases h' <;> first | omega | simp_all [← UInt8.toNat_inj]

/-! ## Encoding -/

theorem to_nat_of_nat (h : n < 256) : (UInt8.ofNat n).toNat = n := by
  rw [UInt8.toNat_ofNat', Nat.mod_eq_of_lt h]

theorem to_nat_tail (n : Nat) : (tail n).toNat = 0x80 + n % 64 :=
  to_nat_of_nat (by omega)

theorem form_encode_char (c : Char) : Form c.toNat (encodeChar c) := by
  have hlimit : c.toNat < 0x110000 := by
    have hvalid : c.toNat.isValidChar := c.valid
    obtain h | ⟨-, h⟩ := hvalid <;> omega
  unfold encodeChar
  dsimp only
  split
  · exact .one ‹_› (to_nat_of_nat (by omega))
  split
  · exact .two ⟨by omega, ‹_›⟩ (to_nat_of_nat (by omega)) (to_nat_tail _)
  split
  · exact .three ⟨by omega, ‹_›⟩ (to_nat_of_nat (by omega)) (to_nat_tail _) (to_nat_tail _)
  · exact .four ⟨by omega, hlimit⟩ (to_nat_of_nat (by omega)) (to_nat_tail _) (to_nat_tail _)
      (to_nat_tail _)

/-! ## Decoding one character -/

theorem is_tail_iff (byte : UInt8) :
    isTail byte = true ↔ 0x80 ≤ byte.toNat ∧ byte.toNat < 0xC0 := by
  rw [isTail, Bool.and_eq_true, decide_eq_true_iff, decide_eq_true_iff, UInt8.le_iff_toNat_le,
    UInt8.lt_iff_toNat_lt]
  rfl

theorem second_fits_iff (first second : UInt8) :
    secondFits first second = true ↔
      (0x80 ≤ second.toNat ∧ second.toNat < 0xC0) ∧
      (first.toNat = 0xE0 → 0xA0 ≤ second.toNat) ∧ (first.toNat = 0xED → second.toNat < 0xA0) ∧
      (first.toNat = 0xF0 → 0x90 ≤ second.toNat) ∧ (first.toNat = 0xF4 → second.toNat < 0x90) := by
  rw [← is_tail_iff]
  simp [secondFits, UInt8.le_iff_toNat_le, UInt8.lt_iff_toNat_lt, ← UInt8.toNat_inj]
  tauto

theorem announced_eq (first : UInt8) :
    announced first =
      if first.toNat < 0x80 then some 1
      else if first.toNat < 0xC2 then none
      else if first.toNat < 0xE0 then some 2
      else if first.toNat < 0xF0 then some 3
      else if first.toNat < 0xF5 then some 4
      else none := by
  simp [announced, UInt8.lt_iff_toNat_lt]

theorem to_nat_char (h : n.isValidChar) : (Char.ofNat n).toNat = n := by
  rw [Char.ofNat, dif_pos h]
  rfl

/-- A form of the number of a character is read as that character. -/
theorem decode_first_of_form (h : Form n (a :: tails)) (hvalid : n.isValidChar)
    (rest : List UInt8) :
    decodeFirst a (tails ++ rest) = .ok (Char.ofNat n, tails.length + 1) := by
  unfold decodeFirst
  cases h with
  | one hn ha =>
      have hfirst : announced a = some 1 := by
        rw [announced_eq, if_pos (by omega)]
      simp [hfirst, ha]
  | @two _ b hn ha hb =>
      have hfirst : announced a = some 2 := by
        rw [announced_eq, if_neg (by omega), if_neg (by omega), if_pos (by omega)]
      have hsecond : secondFits a b = true := by
        rw [second_fits_iff]
        omega
      have hnumber : a.toNat % 32 * 64 + bits b = n := by
        unfold bits
        omega
      simp [hfirst, hsecond, hnumber]
  | @three _ b c hn ha hb hc =>
      have hfirst : announced a = some 3 := by
        rw [announced_eq, if_neg (by omega), if_neg (by omega), if_neg (by omega),
          if_pos (by omega)]
      have hsecond : secondFits a b = true := by
        rw [second_fits_iff]
        unfold Nat.isValidChar at hvalid
        omega
      have hthird : isTail c = true := (is_tail_iff c).mpr (by omega)
      have hnumber : a.toNat % 16 * 4096 + bits b * 64 + bits c = n := by
        unfold bits
        omega
      simp [hfirst, hsecond, hthird, hnumber]
  | @four _ b c d hn ha hb hc hd =>
      have hfirst : announced a = some 4 := by
        rw [announced_eq, if_neg (by omega), if_neg (by omega), if_neg (by omega),
          if_neg (by omega), if_pos (by omega)]
      have hsecond : secondFits a b = true := by
        rw [second_fits_iff]
        omega
      have hthird : isTail c = true := (is_tail_iff c).mpr (by omega)
      have hfourth : isTail d = true := (is_tail_iff d).mpr (by omega)
      have hnumber : a.toNat % 8 * 262144 + bits b * 4096 + bits c * 64 + bits d = n := by
        unfold bits
        omega
      simp [hfirst, hsecond, hthird, hfourth, hnumber]

theorem form_of_two (ha : 0xC2 ≤ a.toNat ∧ a.toNat < 0xE0) (hb : secondFits a b = true) :
    Form (Char.ofNat (a.toNat % 32 * 64 + bits b)).toNat [a, b] := by
  rw [second_fits_iff] at hb
  unfold bits
  rw [to_nat_char (.inl (by omega))]
  exact .two (by omega) (by omega) (by omega)

theorem form_of_three {c : UInt8} (ha : 0xE0 ≤ a.toNat ∧ a.toNat < 0xF0)
    (hb : secondFits a b = true) (hc : isTail c = true) :
    Form (Char.ofNat (a.toNat % 16 * 4096 + bits b * 64 + bits c)).toNat [a, b, c] := by
  rw [second_fits_iff] at hb
  rw [is_tail_iff] at hc
  unfold bits
  rw [to_nat_char (by unfold Nat.isValidChar; omega)]
  exact .three (by omega) (by omega) (by omega) (by omega)

theorem form_of_four {c d : UInt8} (ha : 0xF0 ≤ a.toNat ∧ a.toNat < 0xF5)
    (hb : secondFits a b = true) (hc : isTail c = true) (hd : isTail d = true) :
    Form (Char.ofNat (a.toNat % 8 * 262144 + bits b * 4096 + bits c * 64 + bits d)).toNat
      [a, b, c, d] := by
  rw [second_fits_iff] at hb
  rw [is_tail_iff] at hc hd
  unfold bits
  rw [to_nat_char (by unfold Nat.isValidChar; omega)]
  exact .four (by omega) (by omega) (by omega) (by omega) (by omega)

theorem of_checked {ε α : Type} {test : Bool} {failure : ε} {next : Except ε α} {result : α}
    (h : (if !test then .error failure else next) = .ok result) :
    test = true ∧ next = .ok result := by
  cases test with
  | false => cases h
  | true => exact ⟨rfl, h⟩

/-- The character that is read is the one whose form the bytes begin with. -/
theorem form_of_decode_first (h : decodeFirst a rest = .ok (c, width)) :
    ∃ tails after, rest = tails ++ after ∧ width = tails.length + 1 ∧
      Form c.toNat (a :: tails) := by
  have hannounced := announced_eq a
  unfold decodeFirst at h
  split at hannounced
  · rw [hannounced] at h
    cases h
    refine ⟨[], rest, rfl, rfl, .one ?_ ?_⟩
    · rwa [to_nat_char (.inl (by omega))]
    · rw [to_nat_char (.inl (by omega))]
  split at hannounced
  · rw [hannounced] at h
    cases h
  split at hannounced
  · rw [hannounced] at h
    rcases rest with _ | ⟨b, rest⟩
    · cases h
    obtain ⟨hb, h⟩ := of_checked h
    rw [if_pos rfl] at h
    cases h
    exact ⟨[b], rest, rfl, rfl, form_of_two (by omega) hb⟩
  split at hannounced
  · rw [hannounced] at h
    rcases rest with _ | ⟨b, rest⟩
    · cases h
    obtain ⟨hb, h⟩ := of_checked h
    rw [if_neg (by decide)] at h
    rcases rest with _ | ⟨c, rest⟩
    · cases h
    obtain ⟨hc, h⟩ := of_checked h
    rw [if_pos rfl] at h
    cases h
    exact ⟨[b, c], rest, rfl, rfl, form_of_three (by omega) hb hc⟩
  split at hannounced
  · rw [hannounced] at h
    rcases rest with _ | ⟨b, rest⟩
    · cases h
    obtain ⟨hb, h⟩ := of_checked h
    rw [if_neg (by decide)] at h
    rcases rest with _ | ⟨c, rest⟩
    · cases h
    obtain ⟨hc, h⟩ := of_checked h
    rw [if_neg (by decide)] at h
    rcases rest with _ | ⟨d, rest⟩
    · cases h
    obtain ⟨hd, h⟩ := of_checked h
    cases h
    exact ⟨[b, c, d], rest, rfl, rfl, form_of_four (by omega) hb hc hd⟩
  · rw [hannounced] at h
    cases h

/-! ## Decoding texts -/

/-- The form of a character at the front of some bytes is read first. -/
theorem decode_from_char (c : Char) (done : List Char) (place : Nat) (rest : List UInt8) :
    ∃ next, decodeFrom done place (encodeChar c ++ rest) = decodeFrom (c :: done) next rest := by
  have hform := form_encode_char c
  cases hbytes : encodeChar c with
  | nil =>
      rw [hbytes] at hform
      cases hform
  | cons first tails =>
      rw [hbytes] at hform
      have hread := decode_first_of_form hform c.valid rest
      refine ⟨place + (tails.length + 1), ?_⟩
      rw [List.cons_append, decodeFrom, hread, Char.ofNat_toNat]
      dsimp only
      rw [Nat.add_sub_cancel, List.drop_left]

theorem decode_from_encode (text done : List Char) (place : Nat) :
    decodeFrom done place (encode text) = .ok (done.reverse ++ text) := by
  induction text generalizing done place with
  | nil =>
      rw [List.append_nil]
      exact decodeFrom.eq_1 done place
  | cons c text ih =>
      obtain ⟨next, hnext⟩ := decode_from_char c done place (encode text)
      rw [encode, List.flatMap_cons, ← encode, hnext, ih, List.reverse_cons, List.append_assoc]
      rfl

/-- What is read from some bytes is what they encode. -/
theorem encode_of_decode_from {place : Nat} (h : decodeFrom done place bytes = .ok text) :
    ∃ more, text = done.reverse ++ more ∧ encode more = bytes := by
  induction done, place, bytes using decodeFrom.induct with
  | case1 done place =>
      rw [decodeFrom] at h
      cases h
      exact ⟨[], (List.append_nil _).symm, rfl⟩
  | case2 done place first rest c width hread ih =>
      rw [decodeFrom, hread] at h
      obtain ⟨tails, after, rfl, rfl, hform⟩ := form_of_decode_first hread
      rw [Nat.add_sub_cancel, List.drop_left] at ih
      dsimp only at h
      rw [Nat.add_sub_cancel, List.drop_left] at h
      obtain ⟨more, rfl, rfl⟩ := ih h
      refine ⟨c :: more, by simp, ?_⟩
      rw [encode, List.flatMap_cons, (form_encode_char c).unique hform]
      rfl
  | case3 done place first rest reason width hread =>
      rw [decodeFrom, hread] at h
      cases h

theorem decode_encode (text : List Char) : decode (encode text) = .ok text :=
  decode_from_encode text [] 0

/-- Some bytes are decoded to a text exactly if the text is encoded to them. -/
theorem decode_eq_ok_iff : decode bytes = .ok text ↔ encode text = bytes := by
  constructor
  · intro h
    obtain ⟨more, rfl, hbytes⟩ := encode_of_decode_from h
    exact hbytes
  · rintro rfl
    exact decode_encode text

/-! ## Lengths -/

theorem length_encode_char (c : Char) : (encodeChar c).length = c.utf8Size := by
  have hsize : c.utf8Size =
      if c.toNat < 0x80 then 1 else if c.toNat < 0x800 then 2
      else if c.toNat < 0x10000 then 3 else 4 := by
    simp only [Char.utf8Size, UInt32.le_iff_toNat_le, ← Nat.lt_succ_iff]
    rfl
  rw [hsize]
  unfold encodeChar
  dsimp only
  split_ifs <;> rfl

/-- A text has as many bytes as it says. -/
theorem length_encode (text : List Char) :
    (encode text).length = (String.ofList text).utf8ByteSize := by
  induction text with
  | nil => rfl
  | cons c text ih =>
      rw [encode, List.flatMap_cons, ← encode, List.length_append, ih, length_encode_char,
        String.ofList_cons, String.utf8ByteSize_append, String.utf8ByteSize_singleton]

end Script.Text.Utf8
