import Dartlet.Value

/-!
# Why programs fail

Failures of the host's own operations, and the errors of the language with their kinds and
messages.
-/

namespace Dartlet

/-- Failures outside the language. Inside a built-in member they become an error of the language;
elsewhere they end the whole run. -/
inductive HostFailure where
  /-- An index into something empty. -/
  | emptyRange (index : Int)
  /-- A number that is not within bounds. -/
  | outsideRange (low high index : Int)
  | negativeCount (count : Int)
  | badMaximum (shown : String)
  | badInteger (text : String)
  | badDouble (text : String)
  | noElement
  /-- Bounds in the wrong order. -/
  | crossedBounds (high low : String)
  | notFinite (shown : String)
  | badCharCode
  | hugeCharCode
  | intTooLarge
  | quotientTooLarge
  | countTooLarge
  | textTooLong
  | noRoom
  | tooManyDigits
  | unhashable (kind : String)
  | notCallable (kind : String)
  | sortedListChanged
  /-- A whole number with too many digits to be written. -/
  | lengthyNumber (limit : Nat)
  /-- A text with too many digits to be read as a whole number. -/
  | lengthyNumeral (limit digits : Nat)
  /-- Nesting without an end, or too deep. -/
  | endlessNesting
  /-- A failure that an object of the host reports by itself. -/
  | reported (kind text : String)
  deriving DecidableEq, Repr

namespace HostFailure

/-- The name of a failure's kind. -/
def kind : HostFailure → String
  | emptyRange .. | outsideRange .. | negativeCount .. | badMaximum .. => "RangeError"
  | badInteger .. | badDouble .. => "FormatException"
  | noElement => "StateError"
  | crossedBounds .. | notFinite .. | badCharCode | sortedListChanged | lengthyNumber .. | lengthyNumeral .. =>
    "ValueError"
  | hugeCharCode | intTooLarge | quotientTooLarge | countTooLarge | textTooLong => "OverflowError"
  | noRoom => "MemoryError"
  | tooManyDigits => "InvalidOperation"
  | unhashable .. | notCallable .. => "TypeError"
  | endlessNesting => "RecursionError"
  | reported kind _ => kind

/-- How a failure ends that has to do with too many digits. -/
def digitAdvice : String := "; use sys.set_int_max_str_digits() to increase the limit"

/-- What a failure says. -/
def text : HostFailure → String
  | emptyRange index => "Invalid value: Valid value range is empty: " ++ toString index
  | outsideRange low high index =>
    "Invalid value: Not in inclusive range " ++ toString low ++ ".." ++ toString high ++ ": " ++ toString index
  | negativeCount count => "Invalid value: Must be non-negative: " ++ toString count
  | badMaximum shown => "max must be in range 0 < max ≤ 2^32, was " ++ shown
  | badInteger text => "Invalid radix-10 number: " ++ text
  | badDouble text => "Invalid double: " ++ text
  | noElement => "No element"
  | crossedBounds high low => "Invalid argument(s): " ++ high ++ " is less than " ++ low
  | notFinite shown => "Unsupported operation: " ++ shown
  | badCharCode => "chr() arg not in range(0x110000)"
  | hugeCharCode => "Python int too large to convert to C int"
  | intTooLarge => "int too large to convert to float"
  | quotientTooLarge => "integer division result too large for a float"
  | countTooLarge => "cannot fit 'int' into an index-sized integer"
  | textTooLong => "repeated string is too long"
  | noRoom => ""
  | tooManyDigits => "[<class 'decimal.InvalidOperation'>]"
  | unhashable kind => "unhashable type: '" ++ kind ++ "'"
  | notCallable kind => "'" ++ kind ++ "' object is not callable"
  | sortedListChanged => "list modified during sort"
  | lengthyNumber limit => "Exceeds the limit (" ++ toString limit ++ " digits) for integer string conversion" ++ digitAdvice
  | lengthyNumeral limit digits =>
    "Exceeds the limit (" ++ toString limit ++ " digits) for integer string conversion: value has " ++ toString digits ++
      " digits" ++ digitAdvice
  | endlessNesting => "maximum recursion depth exceeded"
  | reported _ text => text

end HostFailure

/-- Ways in which a value has the wrong type. Types are given by their names. -/
inductive Mismatch where
  | undefinedOperator (op left right : String)
  | unknownUnary (op : String)
  | notBool (context got : String)
  | notNum (context got : String)
  | badArgument (method expected got : String)
  | badCallbackResult (method got : String)
  | notIterable (got : String)
  | spreadOfNull
  | cannotSpread (got : String)
  | entryInList
  | elementInMap
  | entryInSet
  | throwOfNull
  | notFunction (got shown : String)
  | notComparable (left right : String)
  deriving DecidableEq, Repr

def Mismatch.message : Mismatch → String
  | undefinedOperator op left right => "operator '" ++ op ++ "' is not defined for " ++ left ++ " and " ++ right
  | unknownUnary op => "unknown unary operator '" ++ op ++ "'"
  | notBool context got => context ++ " must be a bool; got " ++ got
  | notNum context got => context ++ " must be a num; got " ++ got
  | badArgument method expected got => method ++ " expects " ++ expected ++ " argument; got " ++ got
  | badCallbackResult method got => method ++ " callback must return a bool; got " ++ got
  | notIterable got => got ++ " is not iterable"
  | spreadOfNull => "cannot spread null; use '...?' for a nullable source"
  | cannotSpread got => "cannot spread a " ++ got
  | entryInList => "map entries are not allowed in a list literal"
  | elementInMap => "cannot mix set elements into a map literal"
  | entryInSet => "cannot mix map entries into a set literal"
  | throwOfNull => "Throw of null."
  | notFunction got shown => "'" ++ got ++ "' value " ++ shown ++ " is not a function"
  | notComparable left right => "Cannot compare " ++ left ++ " with " ++ right

/-- Parts of the language that are read but not run. -/
inductive Unsupported where
  | statement (kind : String)
  | expression (kind : String)
  | functionBody (kind : String)
  | assignment (kind : String)
  | parameter (kind name : String) (function : Option String)
  | namedArgument (name : String)
  | typedCatch (type : String)
  | collectionFor
  deriving DecidableEq, Repr

def Unsupported.message : Unsupported → String
  | statement kind => "unsupported statement kind " ++ kind
  | expression kind => "unsupported expression kind " ++ kind
  | functionBody kind => "unsupported function body kind " ++ kind
  | assignment kind => "cannot assign to " ++ kind
  | parameter kind name function =>
    let owner := match function with
      | some f => if f.isEmpty then "function literal" else "'" ++ f ++ "'"
      | none => "function literal"
    kind ++ " parameter '" ++ name ++ "' in " ++ owner ++ " is not supported"
  | namedArgument name => "named argument '" ++ name ++ "' is not supported"
  | typedCatch type => "typed catch clause 'on " ++ type ++ "' is not supported"
  | collectionFor => "collection 'for' elements are not supported"

/-- The errors of the language. -/
inductive Fault where
  | unbound (name : String)
  | noMember (receiver : Value) (typeName name : String)
  | mismatch (m : Mismatch)
  | wrongCount (label : Option String) (low high count : Nat)
  | mainParameters (count : Nat)
  | unsupported (u : Unsupported)
  | host (f : HostFailure)
  | divisionByZero
  | stackOverflow
  | missingMain
  | thrown (value : Value) (shown : String)
  | rethrowOutsideCatch
  | jumpOutsideLoop (keyword : String)
  | notFiniteToInt
  | message (text : String)

namespace Fault

/-- The name of an error's kind. -/
def kind : Fault → String
  | unbound .. => "UnboundNameError"
  | noMember .. => "MemberNotFoundError"
  | mismatch .. => "TypeMismatchError"
  | wrongCount .. | mainParameters .. => "ArityError"
  | unsupported .. => "UnsupportedFeatureError"
  | host .. => "HostDelegationError"
  | divisionByZero => "IntegerDivisionByZeroError"
  | stackOverflow => "StackOverflowError"
  | missingMain => "MissingEntryPointError"
  | thrown .. => "ThrownValue"
  | rethrowOutsideCatch | jumpOutsideLoop .. | notFiniteToInt | message .. => "DartiRuntimeError"

/-- What an error says. -/
def text : Fault → String
  | unbound name => "unbound identifier " ++ name
  | noMember _ typeName name => typeName ++ " has no member '" ++ name ++ "'"
  | mismatch m => m.message
  | wrongCount label low high count =>
    let owner := match label with
      | some l => if l.isEmpty then "" else l ++ ": "
      | none => ""
    let expected := if low == high then toString low else toString low ++ " to " ++ toString high
    let noun := if high == 1 then "argument" else "arguments"
    owner ++ "expected " ++ expected ++ " " ++ noun ++ " but got " ++ toString count
  | mainParameters count => "'main' must take zero or one parameter; it declares " ++ toString count
  | unsupported u => u.message
  | host f => f.kind ++ ": " ++ f.text
  | divisionByZero => "IntegerDivisionByZeroException"
  | stackOverflow => "Stack Overflow"
  | missingMain => "Missing 'main' function"
  | thrown _ shown => "Uncaught exception: " ++ shown
  | rethrowOutsideCatch => "rethrow outside of catch"
  | jumpOutsideLoop keyword => keyword ++ " outside of a loop"
  | notFiniteToInt => "Unsupported operation: Infinity or NaN toInt"
  | message text => text

end Fault

/-- What stops a computation that has no effects: an error of the language, or a failure outside
it. -/
inductive Trouble where
  | fault (f : Fault)
  | failure (f : HostFailure)

end Dartlet
