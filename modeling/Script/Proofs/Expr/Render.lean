import Script.Expr
import Script.Proofs.Token.Spelling

/-!
# Writing expressions

How an expression of operators, calls, indices and attributes is written with as few parentheses
as its operators allow: `Expr.render` is its text on one line. `Expr.Formula` says which
expressions these are.
-/

namespace Script

open Token

namespace Piece

/-- An opening parenthesis. -/
def openParen : Piece := ⟨.lparen, "("⟩

/-- A closing parenthesis. -/
def closeParen : Piece := ⟨.rparen, ")"⟩

/-- An opening bracket. -/
def openBracket : Piece := ⟨.lbrack, "["⟩

/-- A closing bracket. -/
def closeBracket : Piece := ⟨.rbrack, "]"⟩

/-- A comma. -/
def comma : Piece := ⟨.comma, ","⟩

/-- A dot. -/
def dot : Piece := ⟨.dot, "."⟩

end Piece

open Piece (openParen closeParen openBracket closeBracket comma dot)

/-- A unary operator is known by its symbol. -/
theorem UnaryOperator.of_symbol_symbol (operator : UnaryOperator) :
    ofSymbol? operator.symbol = some operator := by
  cases operator <;> rfl

/-! ## Levels -/

namespace BinaryOperator

/-- A binary operator is known by its symbol. -/
theorem of_symbol_symbol (operator : BinaryOperator) :
    ofSymbol? operator.symbol = some operator := by
  cases operator <;> rfl

/-- How tightly an operator binds; the loosest has the level 1. -/
def level : BinaryOperator → Nat
  | .or => 1
  | .and => 2
  | .equal | .notEqual => 3
  | .less | .greater | .lessEqual | .greaterEqual | .is | .isNot | .within | .notWithin => 4
  | .bitOr => 5
  | .bitXor => 6
  | .bitAnd => 7
  | .shiftLeft | .shiftRight => 8
  | .add | .subtract => 9
  | .multiply | .divide | .remainder | .floorDivide => 10
  | .power => 11

/-- Operators are looser than unary ones, and none is looser than the first level. -/
theorem level_bounds (operator : BinaryOperator) : 1 ≤ operator.level ∧ operator.level ≤ 11 := by
  cases operator <;> decide

/-- Only powers bind more tightly than products. -/
theorem eq_power_or_le (operator : BinaryOperator) : operator = .power ∨ operator.level ≤ 10 := by
  cases operator <;> decide

/-- How tightly the left operand has to bind. A power has a unary expression there. -/
def leftLevel : BinaryOperator → Nat
  | .power => 12
  | operator => operator.level

/-- How tightly the right operand has to bind. Only powers group to the right. -/
def rightLevel : BinaryOperator → Nat
  | .power => 11
  | operator => operator.level + 1

/-- Below the powers, only the right operand has to bind more tightly than the operator. -/
theorem levels_of_le {operator : BinaryOperator} (h : operator.level ≤ 10) :
    operator.leftLevel = operator.level ∧ operator.rightLevel = operator.level + 1 := by
  cases operator with
  | power => exact absurd h (by decide)
  | _ => exact ⟨rfl, rfl⟩

/-- The pieces that write an operator; some are written by keywords. -/
def pieces : BinaryOperator → List Piece
  | .isNot => [⟨.keyword, "is"⟩, ⟨.keyword, "not"⟩]
  | .notWithin => [⟨.keyword, "not"⟩, ⟨.keyword, "in"⟩]
  | .or => [⟨.keyword, "or"⟩]
  | .and => [⟨.keyword, "and"⟩]
  | .is => [⟨.keyword, "is"⟩]
  | .within => [⟨.keyword, "in"⟩]
  | operator => [⟨.op, operator.symbol⟩]

/-- Every operator is written by something. -/
theorem pieces_length_pos (operator : BinaryOperator) : 0 < operator.pieces.length := by
  cases operator <;> decide

end BinaryOperator

/-- The piece that writes a unary operator; `not` is written as an exclamation mark. -/
def UnaryOperator.piece : UnaryOperator → Piece
  | .negate => ⟨.op, "-"⟩
  | .invert => ⟨.op, "~"⟩
  | .not => ⟨.op, "!"⟩

namespace Expr

/-- How tightly the outermost construct binds. -/
def level : Expr → Nat
  | .binary operator _ _ => operator.level
  | .unary _ _ => 12
  | _ => 13

/-- How tightly what is called has to bind: an attribute would turn the call into one of a
method. -/
def calleeLevel : Expr → Nat
  | .getAttribute _ _ => 14
  | _ => 13

/-- The pieces of an expression where it has to bind with a given level. -/
def enclose (least : Nat) (expr : Expr) (bare : List Piece) : List Piece :=
  if expr.level < least then openParen :: (bare ++ [closeParen]) else bare

mutual

/-- The pieces of an expression where nothing stands around it. -/
def bare : Expr → List Piece
  | .int n => [numberPiece n]
  | .name word => [wordPiece word]
  | .unary operator operand => operator.piece :: enclose 12 operand operand.bare
  | .binary operator left right =>
    enclose operator.leftLevel left left.bare ++
      (operator.pieces ++ enclose operator.rightLevel right right.bare)
  | .call callee items =>
    enclose callee.calleeLevel callee callee.bare ++
      openParen :: (argumentPieces items ++ [closeParen])
  | .index collection place =>
    enclose 13 collection collection.bare ++ openBracket :: (place.bare ++ [closeBracket])
  | .getAttribute object word =>
    enclose 13 object object.bare ++ [dot, wordPiece word]
  | .methodCall object method items =>
    enclose 13 object object.bare ++
      dot :: wordPiece method :: openParen :: (argumentPieces items ++ [closeParen])
  | _ => []

/-- The pieces of arguments, with commas between them. -/
def argumentPieces : List Expr → List Piece
  | [] => []
  | [item] => item.bare
  | item :: items => item.bare ++ comma :: argumentPieces items

end

/-- The pieces of an expression where it has to bind with a given level. -/
def pieces (least : Nat) (expr : Expr) : List Piece :=
  expr.enclose least expr.bare

/-- The text of an expression, on one line and with single spaces between its tokens. -/
def render (expr : Expr) : String :=
  Piece.joined expr.bare

/-- The expressions made of numbers, names, operators, calls, indices and attributes. -/
inductive Formula : Expr → Prop where
  | int {n : Nat} (h : n < 2 ^ 63) : Formula (.int n)
  | name {word : String} (hword : isWord word = true) (hkeyword : word ∉ keywords)
      (hself : word ≠ "self") : Formula (.name word)
  | unary {operand : Expr} (operator : UnaryOperator) :
      Formula operand → Formula (.unary operator operand)
  | binary {left right : Expr} (operator : BinaryOperator) :
      Formula left → Formula right → Formula (.binary operator left right)
  | call {callee : Expr} {items : List Expr} :
      Formula callee → (∀ item ∈ items, Formula item) → Formula (.call callee items)
  | index {collection place : Expr} :
      Formula collection → Formula place → Formula (.index collection place)
  | getAttribute {object : Expr} {word : String} (hword : isWord word = true) :
      Formula object → Formula (.getAttribute object word)
  | methodCall {object : Expr} {method : String} {items : List Expr}
      (hword : isWord method = true) :
      Formula object → (∀ item ∈ items, Formula item) →
        Formula (.methodCall object method items)

end Expr

/-! ## The pieces of an expression -/

/-- The piece can be written, does not end the source and is no assignment. -/
structure Piece.Proper (piece : Piece) : Prop where
  writable : piece.Writable
  inside : piece.kind ≠ .eof
  noAssignment : piece ≠ ⟨.op, "="⟩

namespace Token

/-- Symbols other than the sign of an assignment. -/
theorem proper_symbol {piece : Piece} (h : isSymbol piece = true) (hkind : piece.kind ≠ .eof)
    (hassign : piece ≠ ⟨.op, "="⟩) : piece.Proper :=
  ⟨writable_symbol h, hkind, hassign⟩

/-- Punctuation marks are proper pieces. -/
theorem proper_mark :
    ∀ mark ∈ [openParen, closeParen, openBracket, closeBracket, comma, dot], mark.Proper := by
  have hmarks :
      ∀ mark ∈ [openParen, closeParen, openBracket, closeBracket, comma, dot],
        isSymbol mark = true ∧ mark.kind ≠ .eof ∧ mark ≠ ⟨.op, "="⟩ := by
    decide
  intro mark hmark
  obtain ⟨hsymbol, hkind, hassign⟩ := hmarks mark hmark
  exact proper_symbol hsymbol hkind hassign

/-- A word is a keyword or a name and nothing else. -/
theorem kind_word_piece (text : String) :
    (wordPiece text).kind = .keyword ∨ (wordPiece text).kind = .name := by
  unfold wordPiece
  dsimp only
  split
  · exact .inl rfl
  · exact .inr rfl

/-- Words are proper pieces. -/
theorem proper_word {text : String} (h : isWord text = true) : (wordPiece text).Proper := by
  refine ⟨writable_word h, ?_, ?_⟩
  · rcases kind_word_piece text with hkind | hkind <;> rw [hkind] <;> decide
  · intro hassign
    have hop : (wordPiece text).kind = .op := congrArg Piece.kind hassign
    rcases kind_word_piece text with hkind | hkind <;> rw [hkind] at hop <;> cases hop

/-- Numbers are proper pieces. -/
theorem proper_number {n : Nat} (h : n < integerBound) : (numberPiece n).Proper :=
  ⟨writable_number h, nofun, fun hassign => nomatch congrArg Piece.kind hassign⟩

end Token

/-- The pieces of a binary operator are proper. -/
theorem BinaryOperator.proper_pieces (operator : BinaryOperator) :
    ∀ piece ∈ operator.pieces, piece.Proper := by
  have hkeyword (word : String) (hword : isWord word = true)
      (hmem : keywords.contains word = true) : Piece.Proper ⟨.keyword, word⟩ := by
    have hproper := proper_word hword
    unfold wordPiece at hproper
    rwa [if_pos hmem] at hproper
  have hor := hkeyword "or" (by decide) (by decide)
  have hand := hkeyword "and" (by decide) (by decide)
  have his := hkeyword "is" (by decide) (by decide)
  have hnot := hkeyword "not" (by decide) (by decide)
  have hin := hkeyword "in" (by decide) (by decide)
  cases operator with
  | or => exact List.forall_mem_singleton.mpr hor
  | and => exact List.forall_mem_singleton.mpr hand
  | is => exact List.forall_mem_singleton.mpr his
  | within => exact List.forall_mem_singleton.mpr hin
  | isNot => exact List.forall_mem_cons.mpr ⟨his, List.forall_mem_singleton.mpr hnot⟩
  | notWithin => exact List.forall_mem_cons.mpr ⟨hnot, List.forall_mem_singleton.mpr hin⟩
  | _ =>
      exact List.forall_mem_singleton.mpr (proper_symbol (by decide) (by decide) (by decide))

/-- The piece of a unary operator is proper. -/
theorem UnaryOperator.proper_piece (operator : UnaryOperator) : operator.piece.Proper := by
  cases operator <;> exact proper_symbol (by decide) (by decide) (by decide)

namespace Expr

/-- Parentheses are proper. -/
theorem proper_enclose {pieces : List Piece} (h : ∀ piece ∈ pieces, piece.Proper) (least : Nat)
    (expr : Expr) : ∀ piece ∈ expr.enclose least pieces, piece.Proper := by
  unfold enclose
  split
  · intro piece hpiece
    simp only [List.mem_cons, List.mem_append, List.not_mem_nil, or_false] at hpiece
    rcases hpiece with rfl | hpiece | rfl
    · exact proper_mark openParen (by decide)
    · exact h piece hpiece
    · exact proper_mark closeParen (by decide)
  · exact h

/-- The pieces of arguments are proper if those of each argument are. -/
theorem proper_argument_pieces {items : List Expr}
    (h : ∀ item ∈ items, ∀ piece ∈ item.bare, piece.Proper) :
    ∀ piece ∈ argumentPieces items, piece.Proper := by
  induction items with
  | nil => exact fun piece hpiece => nomatch hpiece
  | cons item items ih =>
      have hitem := h item List.mem_cons_self
      have hitems := ih fun other hother => h other (List.mem_cons_of_mem item hother)
      cases items with
      | nil => exact hitem
      | cons next items =>
          intro piece hpiece
          rw [argumentPieces, List.mem_append, List.mem_cons] at hpiece
          rcases hpiece with hpiece | rfl | hpiece
          · exact hitem piece hpiece
          · exact proper_mark comma (by decide)
          · exact hitems piece hpiece
          · exact nofun

/-- All the pieces of an expression are proper. -/
theorem Formula.proper {expr : Expr} (h : expr.Formula) : ∀ piece ∈ expr.bare, piece.Proper := by
  have hmark := proper_mark
  simp only [List.forall_mem_cons] at hmark
  obtain ⟨hopen, hclose, hopenBracket, hcloseBracket, -, hdot, -⟩ := hmark
  induction h with
  | int hbound => exact List.forall_mem_singleton.mpr (proper_number hbound)
  | name hword _ _ => exact List.forall_mem_singleton.mpr (proper_word hword)
  | unary operator _ ih =>
      exact List.forall_mem_cons.mpr ⟨operator.proper_piece, proper_enclose ih _ _⟩
  | binary operator _ _ ihleft ihright =>
      rw [bare, List.forall_mem_append, List.forall_mem_append]
      exact ⟨proper_enclose ihleft _ _, operator.proper_pieces, proper_enclose ihright _ _⟩
  | call _ _ ih ihitems =>
      rw [bare, List.forall_mem_append, List.forall_mem_cons, List.forall_mem_append,
        List.forall_mem_singleton]
      exact ⟨proper_enclose ih _ _, hopen, proper_argument_pieces ihitems, hclose⟩
  | index _ _ ih ihplace =>
      rw [bare, List.forall_mem_append, List.forall_mem_cons, List.forall_mem_append,
        List.forall_mem_singleton]
      exact ⟨proper_enclose ih _ _, hopenBracket, ihplace, hcloseBracket⟩
  | getAttribute hword _ ih =>
      rw [bare, List.forall_mem_append, List.forall_mem_cons, List.forall_mem_singleton]
      exact ⟨proper_enclose ih _ _, hdot, proper_word hword⟩
  | methodCall hword _ _ ih ihitems =>
      rw [bare, List.forall_mem_append, List.forall_mem_cons, List.forall_mem_cons,
        List.forall_mem_cons, List.forall_mem_append, List.forall_mem_singleton]
      exact ⟨proper_enclose ih _ _, hdot, proper_word hword, hopen,
        proper_argument_pieces ihitems, hclose⟩

/-! ## How expressions start -/

/-- The piece starts an expression to which no operator is applied. -/
def Opens (piece : Piece) : Prop :=
  piece.kind = .int ∨ piece.kind = .name ∨ piece.kind = .lparen

/-- Parentheses open an expression, and what is not in parentheses opens as it is. -/
theorem opens_enclose {expr : Expr} {least : Nat}
    (h : least ≤ expr.level → ∃ first rest, expr.bare = first :: rest ∧ Opens first) :
    ∃ first rest, expr.pieces least = first :: rest ∧ Opens first := by
  unfold pieces enclose
  split
  · exact ⟨openParen, expr.bare ++ [closeParen], rfl, .inr (.inr rfl)⟩
  · exact h (by omega)

/-- An expression that binds most tightly starts with a number, a name or a parenthesis. -/
theorem Formula.opens_bare {expr : Expr} (h : expr.Formula) (hlevel : 13 ≤ expr.level) :
    ∃ first rest, expr.bare = first :: rest ∧ Opens first := by
  -- What follows an operand does not matter for how it starts.
  have happend {operand : Expr} {least : Nat} (hleast : 13 ≤ least) (after : List Piece)
      (ih : 13 ≤ operand.level → ∃ first rest, operand.bare = first :: rest ∧ Opens first) :
      ∃ first rest, operand.enclose least operand.bare ++ after = first :: rest ∧ Opens first := by
    obtain ⟨first, rest, heq, hopens⟩ := opens_enclose fun hle => ih (Nat.le_trans hleast hle)
    exact ⟨first, rest ++ after, congrArg (· ++ after) heq, hopens⟩
  induction h with
  | int _ => exact ⟨_, [], rfl, .inl rfl⟩
  | name _ hkeyword _ =>
      refine ⟨_, [], rfl, .inr (.inl ?_)⟩
      exact if_neg fun hcontains => hkeyword (List.contains_iff_mem.mp hcontains)
  | unary => exact absurd hlevel (by decide : ¬13 ≤ 12)
  | binary operator =>
      have hbounds := operator.level_bounds
      have hoperator : 13 ≤ operator.level := hlevel
      omega
  | call _ _ ih _ =>
      refine happend ?_ _ ih
      unfold calleeLevel
      split <;> decide
  | index _ _ ih _ => exact happend (Nat.le_refl 13) _ ih
  | getAttribute _ _ ih => exact happend (Nat.le_refl 13) _ ih
  | methodCall _ _ _ ih _ => exact happend (Nat.le_refl 13) _ ih

/-- An operand that has to bind most tightly starts with a number, a name or a parenthesis. -/
theorem Formula.opens {expr : Expr} (h : expr.Formula) {least : Nat} (hleast : 13 ≤ least) :
    ∃ first rest, expr.pieces least = first :: rest ∧ Opens first :=
  opens_enclose fun hle => h.opens_bare (Nat.le_trans hleast hle)

/-- Every expression starts with a number, a name, a parenthesis or a unary operator. -/
theorem Formula.starts {expr : Expr} (h : expr.Formula) (least : Nat) :
    ∃ first rest, expr.pieces least = first :: rest ∧ (Opens first ∨ first.kind = .op) := by
  have hopens {expr : Expr} (h : expr.Formula) (hlevel : 13 ≤ expr.level) :
      ∃ first rest, expr.bare = first :: rest ∧ (Opens first ∨ first.kind = .op) := by
    obtain ⟨first, rest, heq, hopens⟩ := h.opens_bare hlevel
    exact ⟨first, rest, heq, .inl hopens⟩
  have hbare : ∃ first rest, expr.bare = first :: rest ∧ (Opens first ∨ first.kind = .op) := by
    induction h with
    | unary operator => exact ⟨operator.piece, _, rfl, .inr (by cases operator <;> rfl)⟩
    | @binary left right operator _ _ ih _ =>
        obtain ⟨first, rest, heq, hstarts⟩ := ih
        rw [bare, enclose, heq]
        split
        · exact ⟨openParen, _, rfl, .inl (.inr (.inr rfl))⟩
        · exact ⟨first, _, rfl, hstarts⟩
    | int hbound => exact hopens (.int hbound) (Nat.le_refl 13)
    | name hword hkeyword hself => exact hopens (.name hword hkeyword hself) (Nat.le_refl 13)
    | call h hitems => exact hopens (.call h hitems) (Nat.le_refl 13)
    | index h hplace => exact hopens (.index h hplace) (Nat.le_refl 13)
    | getAttribute hword h => exact hopens (.getAttribute hword h) (Nat.le_refl 13)
    | methodCall hword h hitems => exact hopens (.methodCall hword h hitems) (Nat.le_refl 13)
  unfold pieces enclose
  split
  · exact ⟨openParen, expr.bare ++ [closeParen], rfl, .inl (.inr (.inr rfl))⟩
  · exact hbare

end Expr

end Script
