import Script.Interpreter
import Script.Proofs.Builtin.Run
import Script.Proofs.Number.Reading
import Script.Proofs.Parser.Room
import Script.Proofs.Token.Integers

/-!
# Integers as texts and as sources

Three readers and writers of decimal numbers agree: an integer that is turned into text is read back
from it, and the text of a number that fits in 64 bits is a source with this number as its value,
whatever zeros stand in front. Larger numbers are no sources (`Interpreter.integer_texts`).
-/

namespace Script

open Script.Action

/-- The decimal text of a number with zeros in front of it. -/
def Number.padded (zeros n : Nat) : String :=
  String.ofList (List.replicate zeros '0') ++ decimalText n

namespace Builtin

variable {heap : Heap} {n : Int}

/-- The integer that is read from the text of an integer. -/
def reread (n : Int) : Action Value := do
  let text ← compute .str [.int n]
  compute .int [text]

theorem int_text_run (h : (Number.decimalDigits n.natAbs).length ≤ Number.maxTextDigits) :
    Heap.intText n = .ok (Number.decimalText n) := by
  have htext := Number.text_eq h
  unfold Heap.intText
  split
  · rename_i text hfound
    exact congrArg _ (Option.some.inj (hfound.symm.trans htext))
  · rename_i hnone
    cases hnone.symm.trans htext

theorem display_int_run (h : (Number.decimalDigits n.natAbs).length ≤ Number.maxTextDigits) :
    heap.display (.int n) = .ok (Number.decimalText n) := by
  have hdisplay : heap.display (.int n) = Heap.intText n := by
    obtain ⟨depth, hdepth⟩ := Nat.exists_eq_add_one.mpr heap.nesting_limit_pos
    rw [Heap.display, hdepth, Heap.displayWithin]
  exact hdisplay.trans (int_text_run h)

theorem compute_int_run (h : (Number.decimalDigits n.natAbs).length ≤ Number.maxTextDigits) :
    compute .int [.str (Number.decimalText n)] heap = .ok (.int n, heap) := by
  show intOfText (Number.decimalText n) 10 heap = _
  unfold intOfText
  rw [Text.trim_by_eq_self (Number.decimal_text_solid n), Number.read_decimal_text h]
  rfl

end Builtin

namespace Interpreter

variable {interpreter : Interpreter} {zeros n : Nat}

/-- What becomes of integers that are written and read, and of the sources that they are written
as. -/
structure IntegerTexts (interpreter : Interpreter) : Prop where
  written (n : Int) (h : (Number.decimalDigits n.natAbs).length ≤ Number.maxTextDigits) :
    Builtin.compute .str [.int n] interpreter.world.heap =
      .ok (.str (Number.decimalText n), interpreter.world.heap)
  reread (n : Int) (h : (Number.decimalDigits n.natAbs).length ≤ Number.maxTextDigits) :
    interpreter.world.heap.Returns (Builtin.reread n) (.int n)
  /-- A number that fits in 64 bits is one token, with zeros in front as long as there are not too
  many digits. -/
  lexed (zeros n : Nat) (hbound : n < Token.integerBound)
      (hlength : (Number.padded zeros n).length ≤ Number.maxTextDigits) :
    ∃ stop, Token.tokenize (Number.padded zeros n) =
      .ok [⟨.int, Number.padded zeros n, 0, stop, 1⟩, ⟨.eof, "", stop, stop, 1⟩]
  evaluated (zeros n fuel : Nat) (hbound : n < Token.integerBound)
      (hlength : (Number.padded zeros n).length ≤ Number.maxTextDigits)
      (hdepth : interpreter.depthFault? = none) :
    (interpreter.run (fuel + 1) (Number.padded zeros n)).1 = .value (.int n)
  /-- A larger number is at fault from its first digit on. -/
  refused (n : Nat) (hbound : Token.integerBound ≤ n) : ∃ fault : LexFault,
    fault.kind = .valueError ∧ Token.tokenize (Number.decimalText n) = .error ⟨fault, 0⟩ ∧
    ∀ fuel, interpreter.depthFault? = none →
      (interpreter.run fuel (Number.decimalText n)).1 = .failed (.lex ⟨fault, 0⟩)

/-! ## Sources -/

theorem padded_eq (zeros n : Nat) : Number.padded zeros n =
    String.ofList (List.replicate zeros '0' ++ Number.decimalDigits n) :=
  String.ofList_append.symm

/-- A number with zeros in front is one token, and the token has its value. -/
theorem tokenize_padded (hbound : n < Token.integerBound)
    (hlength : (Number.padded zeros n).length ≤ Number.maxTextDigits) :
    ∃ stop, Token.tokenize (Number.padded zeros n) =
        .ok [⟨.int, Number.padded zeros n, 0, stop, 1⟩, ⟨.eof, "", stop, stop, 1⟩] ∧
      Number.ofDigits (Number.padded zeros n).toList = n := by
  rw [padded_eq] at hlength ⊢
  have hall : ∀ c ∈ List.replicate zeros '0' ++ Number.decimalDigits n,
      Token.isAsciiDigit c = true := by
    refine List.forall_mem_append.mpr ⟨fun c hc => ?_, Number.all_digits n⟩
    rw [List.eq_of_mem_replicate hc]
    decide
  have hne : List.replicate zeros '0' ++ Number.decimalDigits n ≠ [] :=
    List.append_ne_nil_of_right_ne_nil _ (Number.decimal_digits_ne_nil n)
  have hvalue : Number.ofDigits (List.replicate zeros '0' ++ Number.decimalDigits n) = n := by
    rw [Number.of_digits_zeros, Number.of_digits_decimal_digits]
  rw [String.length_ofList] at hlength
  refine ⟨(List.replicate zeros '0' ++ Number.decimalDigits n).length, ?_, ?_⟩
  · rw [Token.tokenize_digits hall hne, hvalue, if_neg (Nat.not_lt.mpr hlength),
      if_neg (Nat.not_le.mpr hbound)]
  · rw [String.toList_ofList, hvalue]

/-- The program of one number, which is not nested too deeply under any limit. -/
theorem of_tokens_number (maxDepth : Nat) (text : String) (stop : Nat) :
    Program.ofTokensWithin true (sourceNestingLimit maxDepth)
        [⟨.int, text, 0, stop, 1⟩, ⟨.eof, "", stop, stop, 1⟩] =
      .ok [.int (Number.ofDigits text.toList)] :=
  (Program.of_tokens_within_deepens true (source_nesting_limit_mono maxDepth.zero_le) _).ok rfl

theorem run_number (hdepth : interpreter.depthFault? = none) {source : String} {stop : Nat}
    (htokens : Token.tokenize source =
      .ok [⟨.int, source, 0, stop, 1⟩, ⟨.eof, "", stop, stop, 1⟩])
    (hvalue : Number.ofDigits source.toList = n) (fuel : Nat) :
    (interpreter.run (fuel + 1) source).1 = .value (.int n) := by
  unfold run runSource
  rw [hdepth]
  dsimp only
  rw [htokens]
  dsimp only
  rw [of_tokens_number, hvalue]
  rfl

theorem run_refused (hdepth : interpreter.depthFault? = none) {source : String} {error : LexError}
    (htokens : Token.tokenize source = .error error) (fuel : Nat) :
    (interpreter.run fuel source).1 = .failed (.lex error) := by
  unfold run runSource
  rw [hdepth]
  dsimp only
  rw [htokens]

/-- A number that does not fit in 64 bits has too many digits or is out of range. -/
theorem tokenize_large (hbound : Token.integerBound ≤ n) : ∃ fault : LexFault,
    fault.kind = .valueError ∧ Token.tokenize (Number.decimalText n) = .error ⟨fault, 0⟩ := by
  have htokens := Token.tokenize_digits (Number.all_digits n) (Number.decimal_digits_ne_nil n)
  rw [Number.of_digits_decimal_digits, if_pos hbound] at htokens
  by_cases hlong : Number.maxTextDigits < (Number.decimalDigits n).length
  · rw [if_pos hlong] at htokens
    exact ⟨_, rfl, htokens⟩
  · rw [if_neg hlong] at htokens
    exact ⟨_, rfl, htokens⟩

/-- Integers are read back from their texts, and numbers of 64 bits from their sources. -/
theorem integer_texts (interpreter : Interpreter) : interpreter.IntegerTexts where
  written n h := Builtin.compute_str_run (Builtin.display_int_run h)
  reread n h := by
    refine ⟨interpreter.world.heap, ?_⟩
    rw [Builtin.reread, bind_run (Builtin.compute_str_run (Builtin.display_int_run h)),
      Builtin.compute_int_run h]
  lexed zeros n hbound hlength := by
    obtain ⟨stop, htokens, -⟩ := tokenize_padded hbound hlength
    exact ⟨stop, htokens⟩
  evaluated zeros n fuel hbound hlength hdepth := by
    obtain ⟨stop, htokens, hvalue⟩ := tokenize_padded hbound hlength
    exact run_number hdepth htokens hvalue fuel
  refused n hbound := by
    obtain ⟨fault, hkind, htokens⟩ := tokenize_large hbound
    exact ⟨fault, hkind, htokens, fun fuel hdepth => run_refused hdepth htokens fuel⟩

end Interpreter

end Script
