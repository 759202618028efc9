/-!
# Kinds of error

Every error that a program can raise, throw or catch has a kind. The kinds form a tree under
`baseException`; a kind counts as each of its ancestors.
-/

namespace Script

/-- The kinds of error, in the order in which they are listed to a user. -/
inductive ErrorKind where
  | baseException
  | exception
  | arithmeticError
  | assertionError
  | attributeError
  | bufferError
  | eofError
  | floatingPointError
  | generatorExit
  | importError
  | moduleNotFoundError
  | lookupError
  | indexError
  | keyError
  | keyboardInterrupt
  | memoryError
  | nameError
  | notImplementedError
  | osError
  | overflowError
  | recursionError
  | referenceError
  | runtimeError
  | stopIteration
  | stopAsyncIteration
  | syntaxError
  | indentationError
  | tabError
  | systemError
  | systemExit
  | typeError
  | unboundLocalError
  | unicodeError
  | unicodeEncodeError
  | unicodeDecodeError
  | unicodeTranslateError
  | valueError
  | zeroDivisionError
  | warning
  | userWarning
  | deprecationWarning
  | pendingDeprecationWarning
  | syntaxWarning
  | runtimeWarning
  | futureWarning
  | importWarning
  | unicodeWarning
  | bytesWarning
  | resourceWarning
  | encodingWarning
  | blockingIOError
  | childProcessError
  | connectionError
  | brokenPipeError
  | connectionAbortedError
  | connectionRefusedError
  | connectionResetError
  | fileExistsError
  | fileNotFoundError
  | interruptedError
  | isADirectoryError
  | notADirectoryError
  | permissionError
  | processLookupError
  | timeoutError
  deriving DecidableEq, Repr, Inhabited

namespace ErrorKind

/-- The name of a kind, which is also the name of the built-in constructor of such errors. -/
def name : ErrorKind → String
  | .baseException => "BaseException"
  | .exception => "Exception"
  | .arithmeticError => "ArithmeticError"
  | .assertionError => "AssertionError"
  | .attributeError => "AttributeError"
  | .bufferError => "BufferError"
  | .eofError => "EOFError"
  | .floatingPointError => "FloatingPointError"
  | .generatorExit => "GeneratorExit"
  | .importError => "ImportError"
  | .moduleNotFoundError => "ModuleNotFoundError"
  | .lookupError => "LookupError"
  | .indexError => "IndexError"
  | .keyError => "KeyError"
  | .keyboardInterrupt => "KeyboardInterrupt"
  | .memoryError => "MemoryError"
  | .nameError => "NameError"
  | .notImplementedError => "NotImplementedError"
  | .osError => "OSError"
  | .overflowError => "OverflowError"
  | .recursionError => "RecursionError"
  | .referenceError => "ReferenceError"
  | .runtimeError => "RuntimeError"
  | .stopIteration => "StopIteration"
  | .stopAsyncIteration => "StopAsyncIteration"
  | .syntaxError => "SyntaxError"
  | .indentationError => "IndentationError"
  | .tabError => "TabError"
  | .systemError => "SystemError"
  | .systemExit => "SystemExit"
  | .typeError => "TypeError"
  | .unboundLocalError => "UnboundLocalError"
  | .unicodeError => "UnicodeError"
  | .unicodeEncodeError => "UnicodeEncodeError"
  | .unicodeDecodeError => "UnicodeDecodeError"
  | .unicodeTranslateError => "UnicodeTranslateError"
  | .valueError => "ValueError"
  | .zeroDivisionError => "ZeroDivisionError"
  | .warning => "Warning"
  | .userWarning => "UserWarning"
  | .deprecationWarning => "DeprecationWarning"
  | .pendingDeprecationWarning => "PendingDeprecationWarning"
  | .syntaxWarning => "SyntaxWarning"
  | .runtimeWarning => "RuntimeWarning"
  | .futureWarning => "FutureWarning"
  | .importWarning => "ImportWarning"
  | .unicodeWarning => "UnicodeWarning"
  | .bytesWarning => "BytesWarning"
  | .resourceWarning => "ResourceWarning"
  | .encodingWarning => "EncodingWarning"
  | .blockingIOError => "BlockingIOError"
  | .childProcessError => "ChildProcessError"
  | .connectionError => "ConnectionError"
  | .brokenPipeError => "BrokenPipeError"
  | .connectionAbortedError => "ConnectionAbortedError"
  | .connectionRefusedError => "ConnectionRefusedError"
  | .connectionResetError => "ConnectionResetError"
  | .fileExistsError => "FileExistsError"
  | .fileNotFoundError => "FileNotFoundError"
  | .interruptedError => "InterruptedError"
  | .isADirectoryError => "IsADirectoryError"
  | .notADirectoryError => "NotADirectoryError"
  | .permissionError => "PermissionError"
  | .processLookupError => "ProcessLookupError"
  | .timeoutError => "TimeoutError"

/-- All kinds, in the order in which they are listed. -/
def all : List ErrorKind :=
  [.baseException, .exception, .arithmeticError, .assertionError, .attributeError, .bufferError,
   .eofError, .floatingPointError, .generatorExit, .importError, .moduleNotFoundError,
   .lookupError, .indexError, .keyError, .keyboardInterrupt, .memoryError, .nameError,
   .notImplementedError, .osError, .overflowError, .recursionError, .referenceError,
   .runtimeError, .stopIteration, .stopAsyncIteration, .syntaxError, .indentationError, .tabError,
   .systemError, .systemExit, .typeError, .unboundLocalError, .unicodeError, .unicodeEncodeError,
   .unicodeDecodeError, .unicodeTranslateError, .valueError, .zeroDivisionError, .warning,
   .userWarning, .deprecationWarning, .pendingDeprecationWarning, .syntaxWarning, .runtimeWarning,
   .futureWarning, .importWarning, .unicodeWarning, .bytesWarning, .resourceWarning,
   .encodingWarning, .blockingIOError, .childProcessError, .connectionError, .brokenPipeError,
   .connectionAbortedError, .connectionRefusedError, .connectionResetError, .fileExistsError,
   .fileNotFoundError, .interruptedError, .isADirectoryError, .notADirectoryError,
   .permissionError, .processLookupError, .timeoutError]

/-- The kind with a given name. -/
def ofName? (text : String) : Option ErrorKind :=
  all.find? fun kind => kind.name == text

/-- The kind just above; only the root has none. -/
def parent : ErrorKind → Option ErrorKind
  | .baseException => none
  | .exception | .generatorExit | .keyboardInterrupt | .systemExit => some .baseException
  | .arithmeticError | .assertionError | .attributeError | .bufferError | .eofError
  | .importError | .lookupError | .memoryError | .nameError | .osError | .referenceError
  | .runtimeError | .stopIteration | .stopAsyncIteration | .syntaxError | .systemError
  | .typeError | .valueError | .warning => some .exception
  | .floatingPointError | .overflowError | .zeroDivisionError => some .arithmeticError
  | .moduleNotFoundError => some .importError
  | .indexError | .keyError => some .lookupError
  | .notImplementedError | .recursionError => some .runtimeError
  | .indentationError => some .syntaxError
  | .tabError => some .indentationError
  | .unboundLocalError => some .nameError
  | .unicodeError => some .valueError
  | .unicodeEncodeError | .unicodeDecodeError | .unicodeTranslateError => some .unicodeError
  | .userWarning | .deprecationWarning | .pendingDeprecationWarning | .syntaxWarning
  | .runtimeWarning | .futureWarning | .importWarning | .unicodeWarning | .bytesWarning
  | .resourceWarning | .encodingWarning => some .warning
  | .blockingIOError | .childProcessError | .connectionError | .fileExistsError
  | .fileNotFoundError | .interruptedError | .isADirectoryError | .notADirectoryError
  | .permissionError | .processLookupError | .timeoutError => some .osError
  | .brokenPipeError | .connectionAbortedError | .connectionRefusedError
  | .connectionResetError => some .connectionError

/-- A kind followed by at most `steps` of the kinds above it. -/
def lineageFrom : Nat → ErrorKind → List ErrorKind
  | 0, kind => [kind]
  | steps + 1, kind =>
    match kind.parent with
    | none => [kind]
    | some above => kind :: lineageFrom steps above

/-- A kind and all the kinds above it, nearest first. No chain is longer than the list of kinds. -/
def lineage (kind : ErrorKind) : List ErrorKind :=
  lineageFrom all.length kind

/-- The first kind is the second or lies below it. -/
def isSubkind (kind ancestor : ErrorKind) : Bool :=
  kind.lineage.contains ancestor

/-- The kinds of outside failure that keep a kind of their own inside the language, most
specific first. -/
def recognised : List ErrorKind :=
  [.recursionError, .zeroDivisionError, .overflowError, .memoryError, .unicodeDecodeError,
   .unicodeEncodeError, .fileNotFoundError, .permissionError, .isADirectoryError, .eofError,
   .osError]

end ErrorKind

/-- The text of an error that reports too deep a recursion, of calls or of nested values. -/
def recursionMessage : String :=
  "maximum recursion depth exceeded"

/-- What an outside failure of some kind and text becomes inside the language: the nearest
recognised kind above it, with its text if it has one, or else a system error that names it. -/
def ErrorKind.ofOutside (kind : ErrorKind) (text : String) : ErrorKind × Option String :=
  match recognised.find? (kind.isSubkind ·) with
  | some .recursionError => (.recursionError, some recursionMessage)
  | some known => (known, if text.isEmpty then none else some text)
  | none => (.systemError, some s!"{kind.name}: {text}")

end Script
