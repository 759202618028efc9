import Script.Expr
import Script.Number.Binary64
import Script.Token.Lexer

/-!
# Reading expressions

`Program.ofTokens` builds the tree of a program from its tokens by recursive descent. The grammar
is written with its own recursion as a parameter: `Grammar.parse` stands for the parser of a
nonterminal that is one level deeper in the source. `parserOf` ties the knot a given number of
times, so that number bounds how deeply a source may be nested.

An opening brace is read first as a dictionary or a set and then, if that fails, as a block. What
a brace turned out to be is remembered by its place, so no brace is read twice.
-/

namespace Script

/-- A token that does not fit, with what would have fitted. -/
structure ParseError where
  detail : String
  start : Nat
  stop : Nat
  expected : List String
  found : String
  deriving DecidableEq, Repr

/-- The text of the message. -/
def ParseError.message (error : ParseError) : String :=
  let expected :=
    if error.expected.isEmpty then "" else "; expected " ++ ", ".intercalate error.expected
  s!"{error.detail} at span [{error.start}, {error.stop}){expected}; found {error.found}"

/-- Why no tree can be built. -/
inductive ParseFailure where
  /-- A token does not fit. -/
  | wrong (error : ParseError)
  /-- The source is nested more deeply than the parser may descend. -/
  | tooDeep
  deriving DecidableEq, Repr

/-- A place between two tokens: how many tokens lie before it, the line of the last of them, and
the tokens that follow. -/
structure Cursor where
  index : Nat
  previousLine : Option Nat
  rest : List Token

namespace Cursor

/-- The place before the first token. -/
def start (tokens : List Token) : Cursor :=
  ⟨0, none, tokens⟩

/-- The next token. -/
def peek (cursor : Cursor) : Token :=
  cursor.rest.headD default

/-- The token after the next. -/
def peekSecond (cursor : Cursor) : Token :=
  cursor.rest.tail.headD default

/-- The place after the next token; the end of the source is never passed. -/
def advance (cursor : Cursor) : Cursor :=
  match cursor.rest with
  | [] => cursor
  | token :: rest =>
    if token.kind = .eof then cursor else ⟨cursor.index + 1, some token.line, rest⟩

/-- The next token stands on the line on which the last token starts. -/
def onSameLine (cursor : Cursor) : Bool :=
  cursor.previousLine.all (· == cursor.peek.line)

end Cursor

/-- What the braces read so far turned out to be, by place. -/
abbrev BraceMemo := List (Nat × Except ParseError (Expr × Cursor))

/-- A parser moves a cursor and may fail; what it learns about braces outlives its failure. -/
abbrev Parser := StateT Cursor (ExceptT ParseFailure (StateM BraceMemo))

namespace Parser

/-- The next token. -/
def peek : Parser Token := do
  return (← get).peek

/-- Takes the next token. -/
def advance : Parser Token := do
  let cursor ← get
  set cursor.advance
  return cursor.peek

/-- Fails at a token. -/
def failAt {α : Type} (token : Token) (detail : String) (expected : List String) : Parser α :=
  throw (.wrong ⟨detail, token.pos, token.stop, expected, token.describe⟩)

/-- Fails at a token that is not one of those expected. -/
def unexpected {α : Type} (token : Token) (expected : List String) : Parser α :=
  failAt token "Unexpected token" expected

/-- Takes a token of a given class. -/
def expect (kind : TokenKind) : Parser Token := do
  let token ← peek
  if token.kind = kind then advance else unexpected token [kind.label]

/-- Takes a given operator. -/
def expectOp (symbol : String) : Parser Token := do
  let token ← peek
  if token.isOp symbol then advance else unexpected token [Text.quoted symbol]

/-- Takes a given keyword. -/
def expectKeyword (word : String) : Parser Token := do
  let token ← peek
  if token.isKeyword word then advance else unexpected token [Text.quoted word]

/-- Takes a name. -/
def expectName : Parser String := do
  return (← expect .name).text

/-- Takes the next token if it is of a given class, and tells whether it was. -/
def accept (kind : TokenKind) : Parser Bool := do
  if (← peek).kind = kind then
    let _ ← advance
    return true
  else return false

/-- Takes the next token if it is a given keyword, and tells whether it was. -/
def acceptKeyword (word : String) : Parser Bool := do
  if (← peek).isKeyword word then
    let _ ← advance
    return true
  else return false

/-- The result of a parser, or nothing and the old place if a token does not fit. -/
def attempt {α : Type} (parser : Parser α) : Parser (Option α) := fun cursor memo =>
  match parser cursor memo with
  | (.ok (result, after), memo) => (.ok (some result, after), memo)
  | (.error (.wrong _), memo) => (.ok (none, cursor), memo)
  | (.error .tooDeep, memo) => (.error .tooDeep, memo)

/-- Takes tokens while they are of one of the given classes, at most `steps` of them. -/
def skipKinds (kinds : List TokenKind) : Nat → Parser Unit
  | 0 => return
  | steps + 1 => do
    if kinds.contains (← peek).kind then
      let _ ← advance
      skipKinds kinds steps

/-- Items until one of the closing classes is next, each followed by what `separate` takes. -/
def itemsUntil (closing : List TokenKind) (separate : Parser Unit) {α : Type} (item : Parser α) :
    Nat → List α → Parser (List α)
  | 0, _ => throw .tooDeep
  | steps + 1, done => do
    if closing.contains (← peek).kind then return done.reverse
    let next ← item
    separate
    itemsUntil closing separate item steps (next :: done)

/-- Items with commas between them, until the closing class is next or a comma is missing. A
comma may stand before the closing token. -/
def commaItems (closing : TokenKind) {α : Type} (item : Parser α) :
    Nat → List α → Parser (List α)
  | 0, _ => throw .tooDeep
  | steps + 1, done => do
    if (← peek).kind = closing then return done.reverse
    let next ← item
    if ← accept .comma then commaItems closing item steps (next :: done)
    else return (next :: done).reverse

/-- Items each preceded by a comma. A comma may stand before a closing token of the given
class. -/
def commaTail (closing : Option TokenKind) {α : Type} (item : Parser α) :
    Nat → List α → Parser (List α)
  | 0, _ => throw .tooDeep
  | steps + 1, done => do
    if ← accept .comma then
      if closing = some (← peek).kind then return done.reverse
      let next ← item
      commaTail closing item steps (next :: done)
    else return done.reverse

/-- Operands joined to the left by operators of one level. -/
def leftChain (operator? : Parser (Option BinaryOperator)) (operand : Parser Expr) :
    Nat → Expr → Parser Expr
  | 0, _ => throw .tooDeep
  | steps + 1, left => do
    match ← operator? with
    | none => return left
    | some operator =>
      let right ← operand
      leftChain operator? operand steps (.binary operator left right)

end Parser

/-- The parts of the grammar that are reached again from deeper in a source. -/
inductive Nonterminal where
  | statement
  | expression
  | disjunction
  | power
  | unary
  | conditional
  deriving DecidableEq, Repr

/-- What the rules of the grammar are built from: the parsers of the nonterminals one level
deeper, how many levels lie below, a bound on the length of any row of items, and whether braces
are remembered. -/
structure Grammar where
  parse : Nonterminal → Parser Expr
  depth : Nat
  steps : Nat
  memoise : Bool

namespace Grammar

open Parser

/-- Refuses what the language has reserved but does not have. -/
def rejectReserved : Parser Unit := do
  let token ← peek
  if token.kind = .atSign then failAt token "Decorators are not supported" []
  else if token.isKeyword "async" || token.isKeyword "await" then
    failAt token s!"'{token.text}' is not supported" []

/-- Takes any number of semicolons. -/
def separators (g : Grammar) : Parser Unit :=
  skipKinds [.semi] g.steps

/-- The name of a type, with parameters in brackets, to a given depth. -/
def typeName (g : Grammar) : Nat → Parser String
  | 0 => throw .tooDeep
  | depth + 1 => do
    let token ← peek
    if token.kind ≠ .name && token.kind ≠ .keyword then
      failAt token "Expected a type name" [TokenKind.name.label]
    let name := (← advance).text
    if ← accept .lbrack then
      let first ← typeName g depth
      let parameters ← commaTail none (typeName g depth) g.steps [first]
      let _ ← expect .rbrack
      return name ++ "[" ++ ", ".intercalate parameters ++ "]"
    else return name

/-- The type after a colon, if there is one. -/
def typeAfterColon? (g : Grammar) : Parser (Option String) := do
  if ← accept .colon then return some (← typeName g g.depth) else return none

/-- Statements between braces. -/
def block (g : Grammar) : Parser (List Expr) := do
  let _ ← expect .lbrace
  separators g
  let body ← itemsUntil [.rbrace, .eof] (separators g) (g.parse .statement) g.steps []
  let _ ← expect .rbrace
  return body

/-- `let name = value`, with or without a type. -/
def letBind (g : Grammar) : Parser Expr := do
  let _ ← expectKeyword "let"
  let name ← expectName
  let declared ← typeAfterColon? g
  let _ ← expectOp "="
  let value ← g.parse .expression
  match declared with
  | some typeName => return .typedLet name typeName value
  | none => return .letBind name value

/-- `const name = value`; a type is read and dropped. -/
def constBind (g : Grammar) : Parser Expr := do
  let _ ← expectKeyword "const"
  let name ← expectName
  let _ ← typeAfterColon? g
  let _ ← expectOp "="
  return .constBind name (← g.parse .expression)

/-- `if condition { … }`, with an optional `else` that leads to a block or to another `if`. -/
def conditional (g : Grammar) : Parser Expr := do
  let _ ← expectKeyword "if"
  let condition ← g.parse .disjunction
  let thenBody ← block g
  if ← acceptKeyword "else" then
    if (← peek).isKeyword "if" then
      return .ifThen condition thenBody (some (← g.parse .conditional))
    else return .ifThen condition thenBody (some (.block (← block g)))
  else return .ifThen condition thenBody none

/-- `while condition { … }`. -/
def whileLoop (g : Grammar) : Parser Expr := do
  let _ ← expectKeyword "while"
  let condition ← g.parse .disjunction
  return .whileLoop condition (← block g)

/-- `for name in iterable { … }`. -/
def forLoop (g : Grammar) : Parser Expr := do
  let _ ← expectKeyword "for"
  let binder ← expectName
  let _ ← expectKeyword "in"
  let iterable ← g.parse .disjunction
  return .forLoop binder iterable (← block g)

/-- Distinct parameter names with commas between them; their types are read and dropped. -/
def parameters (g : Grammar) : Nat → List String → Parser (List String)
  | 0, _ => throw .tooDeep
  | steps + 1, done => do
    if (← peek).kind = .rparen then return done.reverse
    let token ← expect .name
    if done.contains token.text then
      failAt token s!"Duplicate parameter {Text.quoted token.text}" []
    let _ ← typeAfterColon? g
    if ← accept .comma then parameters g steps (token.text :: done)
    else return (token.text :: done).reverse

/-- `fn name(parameters) -> type { … }`; the types are read and dropped. -/
def functionDefinition (g : Grammar) : Parser Expr := do
  let _ ← expectKeyword "fn"
  let name ← expectName
  let _ ← expect .lparen
  let names ← parameters g g.steps []
  let _ ← expect .rparen
  if (← peek).isOp "->" then
    let _ ← advance
    let _ ← typeName g g.depth
  separators g
  return .defineFunction name names (← block g)

/-- `return`, with a value only if one starts on the same line. -/
def returnStatement (g : Grammar) : Parser Expr := do
  let keyword ← expectKeyword "return"
  let token ← peek
  if [TokenKind.semi, .rbrace, .eof].contains token.kind || token.line ≠ keyword.line then
    return .returnValue none
  else return .returnValue (some (← g.parse .expression))

/-- `pattern => result`. -/
def matchArm (g : Grammar) : Parser (Expr × Expr) := do
  let pattern ← g.parse .disjunction
  let _ ← expectOp "=>"
  return (pattern, ← g.parse .statement)

/-- `match subject { pattern => result, … }`. -/
def matchStatement (g : Grammar) : Parser Expr := do
  let _ ← expectKeyword "match"
  let subject ← g.parse .disjunction
  let _ ← expect .lbrace
  let separate := skipKinds [.comma, .semi] g.steps
  let arms ← itemsUntil [.rbrace, .eof] separate (matchArm g) g.steps []
  let _ ← expect .rbrace
  return .matchOn subject arms

/-- `try { … } catch name { … }`; the name may be missing. -/
def tryCatch (g : Grammar) : Parser Expr := do
  let _ ← expectKeyword "try"
  let body ← block g
  let _ ← expectKeyword "catch"
  if (← peek).kind = .name then
    let binder := (← advance).text
    return .tryCatch body (some binder) (← block g)
  else return .tryCatch body none (← block g)

/-- `throw value`, with or without `from cause`. -/
def throwStatement (g : Grammar) : Parser Expr := do
  let _ ← expectKeyword "throw"
  let value ← g.parse .disjunction
  if ← acceptKeyword "from" then return .throwError value (some (← g.parse .disjunction))
  else return .throwError value none

/-- Names each preceded by a dot. -/
def dottedNames : Nat → List String → Parser (List String)
  | 0, _ => throw .tooDeep
  | steps + 1, done => do
    if ← accept .dot then dottedNames steps ((← expectName) :: done) else return done.reverse

/-- `import "path"` or `import dotted.name`. -/
def importStatement (g : Grammar) : Parser Expr := do
  let _ ← expectKeyword "import"
  if (← peek).kind = .string then return .importModule (← advance).text
  let parts ← dottedNames g.steps [← expectName]
  return .importModule (".".intercalate parts)

/-- A method, a `let`, or a field with its default. -/
def classMember (g : Grammar) : Parser Expr := do
  let token ← peek
  if token.isKeyword "fn" then functionDefinition g
  else if token.isKeyword "let" then letBind g
  else if token.kind = .name then
    let _ ← advance
    let _ ← typeAfterColon? g
    let _ ← expectOp "="
    return .assign token.text (← g.parse .expression)
  else
    failAt token "Class body may only contain methods and field defaults"
      ["fn", TokenKind.name.label]

/-- The bases of a class: one after `extends`, or any number in parentheses. -/
def classBases (g : Grammar) : Parser (List String) := do
  if ← acceptKeyword "extends" then return [← expectName]
  else if ← accept .lparen then
    let bases ← commaItems .rparen expectName g.steps []
    let _ ← expect .rparen
    return bases
  else return []

/-- `class Name extends Base { … }`. -/
def classDefinition (g : Grammar) : Parser Expr := do
  let _ ← expectKeyword "class"
  let name ← expectName
  let bases ← classBases g
  let _ ← expect .lbrace
  separators g
  let members ← itemsUntil [.rbrace, .eof] (separators g) (classMember g) g.steps []
  let _ ← expect .rbrace
  return .defineClass name bases members

/-- Names with commas between them, as long as names follow; their types are read and dropped. -/
def memberNames (g : Grammar) : Nat → List String → Parser (List String)
  | 0, _ => throw .tooDeep
  | steps + 1, done => do
    if (← peek).kind ≠ .name then return done.reverse
    let name := (← advance).text
    let _ ← typeAfterColon? g
    if ← accept .comma then memberNames g steps (name :: done)
    else return (name :: done).reverse

/-- Names between braces. -/
def nameList (g : Grammar) : Parser (List String) := do
  let _ ← expect .lbrace
  let names ← memberNames g g.steps []
  let _ ← expect .rbrace
  return names

/-- `struct Name { fields }`. -/
def structDefinition (g : Grammar) : Parser Expr := do
  let _ ← expectKeyword "struct"
  let name ← expectName
  return .defineStruct name (← nameList g)

/-- `enum Name { variants }`. -/
def enumDefinition (g : Grammar) : Parser Expr := do
  let _ ← expectKeyword "enum"
  let name ← expectName
  return .defineEnum name (← nameList g)

/-- Arguments in parentheses. -/
def callArguments (g : Grammar) : Parser (List Expr) := do
  let _ ← expect .lparen
  let items ← commaItems .rparen (g.parse .expression) g.steps []
  let _ ← expect .rparen
  return items

/-- `name: value` in a record. -/
def recordField (g : Grammar) : Parser (String × Expr) := do
  let name ← expectName
  let _ ← expect .colon
  return (name, ← g.parse .expression)

/-- `new Name(arguments)` or `new Name { fields }`. -/
def newExpression (g : Grammar) : Parser Expr := do
  let _ ← expectKeyword "new"
  let name ← expectName
  if (← peek).kind = .lparen then return .newObject name (← callArguments g)
  let _ ← expect .lbrace
  let fields ← commaItems .rbrace (recordField g) g.steps []
  let _ ← expect .rbrace
  return .newRecord name fields

/-- An expression in parentheses, or a tuple. -/
def parenthesised (g : Grammar) : Parser Expr := do
  let _ ← expect .lparen
  if ← accept .rparen then return .tuple []
  let first ← g.parse .expression
  if ← accept .comma then
    let items ← commaItems .rparen (g.parse .expression) g.steps [first]
    let _ ← expect .rparen
    return .tuple items
  else
    let _ ← expect .rparen
    return first

/-- A list in brackets, or a comprehension. -/
def bracketed (g : Grammar) : Parser Expr := do
  let _ ← expect .lbrack
  if ← accept .rbrack then return .list []
  let first ← g.parse .expression
  if ← acceptKeyword "for" then
    let binder ← expectName
    let _ ← expectKeyword "in"
    let iterable ← g.parse .disjunction
    let _ ← expect .rbrack
    return .comprehension first binder iterable
  else
    let items ← commaTail (some .rbrack) (g.parse .expression) g.steps [first]
    let _ ← expect .rbrack
    return .list items

/-- The keywords after which an opening brace can only start a block. -/
def statementKeywords : List String :=
  ["let", "const", "if", "while", "for", "fn", "return", "break", "continue", "match", "try",
   "throw", "import", "class", "struct", "enum"]

/-- `key: value` in a dictionary. -/
def dictPair (g : Grammar) : Parser (Expr × Expr) := do
  let key ← g.parse .disjunction
  let _ ← expect .colon
  return (key, ← g.parse .expression)

/-- What follows the first expression after an opening brace, if it shows a dictionary or a set. -/
def collectionTail? (g : Grammar) (first : Expr) : Parser (Option Expr) := do
  if ← accept .colon then
    let value ← g.parse .expression
    let pairs ← commaTail (some .rbrace) (dictPair g) g.steps [(first, value)]
    let _ ← expect .rbrace
    return some (.dict pairs)
  else if ← accept .comma then
    let items ← commaItems .rbrace (g.parse .disjunction) g.steps [first]
    let _ ← expect .rbrace
    return some (.set items)
  else return none

/-- A dictionary, a set or a block. Once a colon or a comma after the first expression has shown
a dictionary or a set, it is not read as a block any more. -/
def braceForm (g : Grammar) : Parser Expr := do
  let start ← get
  let second := start.peekSecond
  if second.kind = .rbrace then
    let _ ← advance
    let _ ← advance
    return .dict []
  else if second.kind = .keyword && statementKeywords.contains second.text then
    return .block (← block g)
  else
    let _ ← advance
    match ← attempt (g.parse .disjunction) with
    | none =>
      set start
      return .block (← block g)
    | some first =>
      match ← collectionTail? g first with
      | some collection => return collection
      | none =>
        set start
        return .block (← block g)

/-- A brace form, looked up by its place if it has been read before. -/
def remembered (form : Parser Expr) : Parser Expr := fun cursor memo =>
  match memo.lookup cursor.index with
  | some (.ok (expr, after)) => (.ok (expr, after), memo)
  | some (.error error) => (.error (.wrong error), memo)
  | none =>
    match form cursor memo with
    | (.ok (expr, after), memo) =>
      (.ok (expr, after), (cursor.index, .ok (expr, after)) :: memo)
    | (.error (.wrong error), memo) =>
      (.error (.wrong error), (cursor.index, .error error) :: memo)
    | (.error .tooDeep, memo) => (.error .tooDeep, memo)

/-- What an opening brace starts. -/
def braced (g : Grammar) : Parser Expr :=
  if g.memoise then remembered (braceForm g) else braceForm g

/-- The names that follow, each after a comma, and what comes after them. -/
def commaNames : List Token → List String × List Token
  | comma :: name :: rest =>
    if comma.kind = .comma && name.kind = .name then
      let (names, after) := commaNames rest
      (name.text :: names, after)
    else ([], comma :: name :: rest)
  | tokens => ([], tokens)

/-- The place after the given number of tokens. -/
def skipTokens : Nat → Cursor → Cursor
  | 0, cursor => cursor
  | count + 1, cursor => skipTokens count cursor.advance

/-- Two or more names before an equals sign, which are then assigned the items of one value. -/
def destructureNames? : Parser (Option (List String)) := fun cursor memo =>
  let (names, after) := commaNames cursor.rest.tail
  if !names.isEmpty && (after.headD default).isOp "=" then
    (.ok (some (cursor.peek.text :: names), skipTokens (2 * names.length + 2) cursor), memo)
  else (.ok (none, cursor), memo)

/-- The classes of token with which an expression can start, as listed in messages. -/
def expressionStarts : List String :=
  [TokenKind.int, .float, .imag, .string, .bytes, .name, .lparen, .lbrack, .lbrace].map
    TokenKind.label

/-- The number written in a source, exactly rounded. -/
def floatValue (text : String) : Float :=
  let whole := text.toList.takeWhile Token.isAsciiDigit
  let fraction := text.toList.drop (whole.length + 1)
  Number.floatOfDecimal false (Number.ofDigits (whole ++ fraction)) (-(fraction.length : Int))

/-- An expression with no operator around it. -/
def primary (g : Grammar) : Parser Expr := do
  rejectReserved
  let token ← peek
  match token.kind with
  | .int =>
    let _ ← advance
    return .int (Number.ofDigits token.text.toList)
  | .float =>
    let _ ← advance
    return .float (floatValue token.text)
  | .imag =>
    let _ ← advance
    return .imaginary (floatValue token.text)
  | .string =>
    let _ ← advance
    return .string token.text
  | .bytes =>
    let _ ← advance
    return .bytes (token.text.toList.map (·.toNat.toUInt8))
  | .name =>
    match ← destructureNames? with
    | some names => return .destructure names (← g.parse .expression)
    | none =>
      let _ ← advance
      return .name token.text
  | .keyword =>
    match token.text with
    | "true" =>
      let _ ← advance
      return .bool true
    | "false" =>
      let _ ← advance
      return .bool false
    | "null" =>
      let _ ← advance
      return .null
    | "new" => newExpression g
    | "if" => conditional g
    | "match" => matchStatement g
    | "try" => tryCatch g
    | _ => unexpected token expressionStarts
  | .lparen => parenthesised g
  | .lbrack => bracketed g
  | .lbrace => braced g
  | _ => unexpected token expressionStarts

/-- What follows a dot: a method call, a field of the receiver of a method, or an attribute. -/
def attributeAccess (g : Grammar) (object : Expr) : Parser Expr := do
  let token ← peek
  if token.kind ≠ .name && token.kind ≠ .keyword then
    unexpected token [TokenKind.name.label]
  let _ ← advance
  if (← peek).kind = .lparen && (← get).onSameLine then
    return .methodCall object token.text (← callArguments g)
  else
    match object with
    | .name "self" => return .ownField object token.text
    | _ => return .getAttribute object token.text

/-- Calls, indices, attributes and variants after an expression. A call or an index has to start
on the line of the token before it. -/
def postfixChain (g : Grammar) : Nat → Expr → Parser Expr
  | 0, _ => throw .tooDeep
  | steps + 1, expr => do
    let token ← peek
    let sameLine := (← get).onSameLine
    if token.kind = .lparen && sameLine then
      let items ← callArguments g
      postfixChain g steps (.call expr items)
    else if token.kind = .lbrack && sameLine then
      let _ ← advance
      let index ← g.parse .expression
      let _ ← expect .rbrack
      postfixChain g steps (.index expr index)
    else if token.kind = .dot then
      let _ ← advance
      let next ← attributeAccess g expr
      postfixChain g steps next
    else if token.isOp "::" then
      match expr with
      | .name enumName =>
        let _ ← advance
        let variant ← expectName
        postfixChain g steps (.enumVariant enumName variant)
      | _ => return expr
    else return expr

/-- An expression with what follows it directly. -/
def postfixed (g : Grammar) : Parser Expr := do
  postfixChain g g.steps (← primary g)

/-- The unary operator that a token writes; an exclamation mark negates as `not` does. -/
def unaryOperator? (token : Token) : Option UnaryOperator :=
  if token.isKeyword "not" || token.isOp "!" then some .not
  else if token.isOp "-" then some .negate
  else if token.isOp "~" then some .invert
  else none

/-- An expression after any number of unary operators. -/
def unary (g : Grammar) : Parser Expr := do
  match unaryOperator? (← peek) with
  | some operator =>
    let _ ← advance
    return .unary operator (← g.parse .unary)
  | none => postfixed g

/-- Powers, which group to the right. -/
def power (g : Grammar) : Parser Expr := do
  let base ← unary g
  if (← peek).isOp "**" then
    let _ ← advance
    return .binary .power base (← g.parse .power)
  else return base

/-- Takes the next token if it writes one of the given operators. -/
def operatorAmong (operators : List BinaryOperator) : Parser (Option BinaryOperator) := do
  let token ← peek
  match operators.find? fun operator => token.isOp operator.symbol with
  | some operator =>
    let _ ← advance
    return some operator
  | none => return none

/-- Takes the next token if it is the keyword that writes an operator. -/
def keywordOperator (operator : BinaryOperator) : Parser (Option BinaryOperator) := do
  if ← acceptKeyword operator.symbol then return some operator else return none

/-- The levels of the arithmetic and bitwise operators, loosest binding first. -/
def arithmeticLevels : List (List BinaryOperator) :=
  [[.bitOr], [.bitXor], [.bitAnd], [.shiftLeft, .shiftRight], [.add, .subtract],
   [.multiply, .divide, .remainder, .floorDivide]]

/-- Operands of the given levels, each of which groups to the left. -/
def arithmetic (g : Grammar) : List (List BinaryOperator) → Parser Expr
  | [] => power g
  | operators :: tighter => do
    let first ← arithmetic g tighter
    leftChain (operatorAmong operators) (arithmetic g tighter) g.steps first

/-- The operator of a comparison, which may be written by two keywords. -/
def comparisonOperator? : Parser (Option BinaryOperator) := do
  match ← operatorAmong [.less, .greater, .lessEqual, .greaterEqual] with
  | some operator => return some operator
  | none =>
    if ← acceptKeyword "is" then
      if ← acceptKeyword "not" then return some .isNot else return some .is
    else if ← acceptKeyword "in" then return some .within
    else if (← peek).isKeyword "not" && (← get).peekSecond.isKeyword "in" then
      let _ ← advance
      let _ ← advance
      return some .notWithin
    else return none

/-- Comparisons, memberships and identities. -/
def comparison (g : Grammar) : Parser Expr := do
  let first ← arithmetic g arithmeticLevels
  leftChain comparisonOperator? (arithmetic g arithmeticLevels) g.steps first

/-- Equalities. -/
def equality (g : Grammar) : Parser Expr := do
  let first ← comparison g
  leftChain (operatorAmong [.equal, .notEqual]) (comparison g) g.steps first

/-- Conjunctions. -/
def conjunction (g : Grammar) : Parser Expr := do
  let first ← equality g
  leftChain (keywordOperator .and) (equality g) g.steps first

/-- Disjunctions, the loosest level of operators. -/
def disjunction (g : Grammar) : Parser Expr := do
  let first ← conjunction g
  leftChain (keywordOperator .or) (conjunction g) g.steps first

/-- An expression or an assignment to one that can be assigned to. -/
def expression (g : Grammar) : Parser Expr := do
  let left ← disjunction g
  let token ← peek
  if token.isOp "=" then
    let _ ← advance
    let value ← g.parse .expression
    match left with
    | .name name => return .assign name value
    | .index collection index => return .assignIndex collection index value
    | .getAttribute object name => return .assignAttribute object name value
    | .ownField object name => return .assignAttribute object name value
    | _ => failAt token "Invalid assignment target" []
  else return left

/-- A statement: one that a keyword starts, or an expression. -/
def statement (g : Grammar) : Parser Expr := do
  rejectReserved
  let token ← peek
  if token.kind = .keyword then
    match token.text with
    | "let" => letBind g
    | "const" => constBind g
    | "if" => conditional g
    | "while" => whileLoop g
    | "for" => forLoop g
    | "fn" => functionDefinition g
    | "return" => returnStatement g
    | "match" => matchStatement g
    | "try" => tryCatch g
    | "throw" => throwStatement g
    | "import" => importStatement g
    | "class" => classDefinition g
    | "struct" => structDefinition g
    | "enum" => enumDefinition g
    | "break" =>
      let _ ← advance
      return .breakLoop
    | "continue" =>
      let _ ← advance
      return .continueLoop
    | _ => expression g
  else expression g

/-- The rule of a nonterminal. -/
def rule (g : Grammar) : Nonterminal → Parser Expr
  | .statement => statement g
  | .expression => expression g
  | .disjunction => disjunction g
  | .power => power g
  | .unary => unary g
  | .conditional => conditional g

/-- The parser of a nonterminal that may descend a given number of levels. -/
def parserOf (memoise : Bool) (steps : Nat) : Nat → Nonterminal → Parser Expr
  | 0, _ => throw .tooDeep
  | depth + 1, nonterminal =>
    rule ⟨parserOf memoise steps depth, depth, steps, memoise⟩ nonterminal

/-- The statements of a program, up to the end of the source. -/
def program (memoise : Bool) (steps depth : Nat) : Parser Program := do
  let g : Grammar := ⟨parserOf memoise steps depth, depth, steps, memoise⟩
  separators g
  itemsUntil [.eof] (separators g) (g.parse .statement) steps []

end Grammar

namespace Program

/-- The program that tokens make up, if it is nested no more deeply than a limit. -/
def ofTokensWithin (memoise : Bool) (limit : Nat) (tokens : List Token) :
    Except ParseFailure Program :=
  let (result, _) := (Grammar.program memoise (tokens.length + 1) limit) (Cursor.start tokens) []
  result.map (·.1)

/-- The program that tokens make up. No source is nested more deeply than it has tokens. -/
def ofTokens (tokens : List Token) : Except ParseFailure Program :=
  ofTokensWithin true (tokens.length + 1) tokens

end Program

end Script
