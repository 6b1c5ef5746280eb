import Dartlet.Value

/-!
# Built-in members

The names of the getters and methods of built-in values, how many arguments each method takes, and
which value has which member.
-/

namespace Dartlet

/-- How many arguments a function takes. -/
structure Arity where
  low : Nat
  high : Nat
  deriving DecidableEq, Repr

/-- Exactly `n` arguments. -/
def Arity.exactly (n : Nat) : Arity := ⟨n, n⟩

/-- Whether a number of arguments is accepted. -/
def Arity.accepts (a : Arity) (count : Nat) : Bool := a.low ≤ count && count ≤ a.high

/-- Getters of texts. -/
inductive TextGetter where
  | length | isEmpty | isNotEmpty | codeUnits
  deriving DecidableEq, Repr

/-- Methods of texts. -/
inductive TextMethod where
  | substring | toUpperCase | toLowerCase | trim | trimLeft | trimRight | contains | startsWith
  | endsWith | indexOf | lastIndexOf | split | replaceAll | padLeft | padRight | codeUnitAt
  | charAt | compareTo
  deriving DecidableEq, Repr

/-- Getters of numbers. -/
inductive NumberGetter where
  | isEven | isOdd | isNegative | isNaN | isInfinite | sign
  deriving DecidableEq, Repr

/-- Methods of numbers. -/
inductive NumberMethod where
  | abs | toInt | toDouble | round | floor | ceil | truncate | toStringAsFixed | compareTo | clamp
  | remainder
  deriving DecidableEq, Repr

/-- Getters that lists, sets and iterables share. -/
inductive SequenceGetter where
  | length | isEmpty | isNotEmpty | first | last
  deriving DecidableEq, Repr

/-- Methods that lists, sets and iterables share. -/
inductive SequenceMethod where
  | contains | elementAt | join | map | where_ | forEach | any | every | fold | reduce | skip | take
  | toList | toSet
  deriving DecidableEq, Repr

/-- Methods of lists alone. -/
inductive ListMethod where
  | getAt | setAt | add | addAll | insert | remove | removeAt | removeLast | clear | indexOf | sublist
  | sort
  deriving DecidableEq, Repr

/-- Methods of sets alone. -/
inductive SetMethod where
  | add | remove | clear
  deriving DecidableEq, Repr

/-- Getters of maps. -/
inductive MapGetter where
  | length | isEmpty | isNotEmpty | keys | values
  deriving DecidableEq, Repr

/-- Methods of maps. -/
inductive MapMethod where
  | getAt | setAt | containsKey | containsValue | remove | putIfAbsent | addAll | forEach | clear
  deriving DecidableEq, Repr

/-- Getters of types. -/
inductive TypeGetter where
  | infinity | negativeInfinity | nan | maxFinite
  deriving DecidableEq, Repr

/-- Methods of types. -/
inductive TypeMethod where
  | parse | tryParse | fromCharCode | filled | generate | from_
  deriving DecidableEq, Repr

/-- Getters of built-in values. -/
inductive Getter where
  | text (g : TextGetter)
  | number (g : NumberGetter)
  | sequence (g : SequenceGetter)
  | reversed
  | map (g : MapGetter)
  | type (g : TypeGetter)
  deriving DecidableEq, Repr

/-- Methods of built-in values. -/
inductive Method where
  | text (m : TextMethod)
  | number (m : NumberMethod)
  | sequence (m : SequenceMethod)
  | list (m : ListMethod)
  | set (m : SetMethod)
  | map (m : MapMethod)
  | type (m : TypeMethod)
  deriving DecidableEq, Repr

/-- The entry of a name in a table. -/
def tableFind? {α : Type} (table : List (String × α)) (name : String) : Option α :=
  match table.find? (fun entry => entry.1 == name) with
  | some entry => some entry.2
  | none => none

namespace Getter

def textTable : List (String × TextGetter) :=
  [("length", .length), ("isEmpty", .isEmpty), ("isNotEmpty", .isNotEmpty), ("codeUnits", .codeUnits)]

/-- Getters of both kinds of numbers. -/
def numberTable : List (String × NumberGetter) :=
  [("isNegative", .isNegative), ("isNaN", .isNaN), ("isInfinite", .isInfinite), ("sign", .sign)]

/-- Getters of whole numbers. -/
def intTable : List (String × NumberGetter) := [("isEven", .isEven), ("isOdd", .isOdd)] ++ numberTable

def sequenceTable : List (String × SequenceGetter) :=
  [("length", .length), ("isEmpty", .isEmpty), ("isNotEmpty", .isNotEmpty), ("first", .first),
    ("last", .last)]

def mapTable : List (String × MapGetter) :=
  [("length", .length), ("isEmpty", .isEmpty), ("isNotEmpty", .isNotEmpty), ("keys", .keys),
    ("values", .values)]

def doubleTable : List (String × TypeGetter) :=
  [("infinity", .infinity), ("negativeInfinity", .negativeInfinity), ("nan", .nan),
    ("maxFinite", .maxFinite)]

/-- The getter with a name that a value has. -/
def find? (receiver : Value) (name : String) : Option Getter :=
  match receiver with
  | .string _ => (tableFind? textTable name).map .text
  | .int _ => (tableFind? intTable name).map .number
  | .double _ => (tableFind? numberTable name).map .number
  | .list _ => if name == "reversed" then some .reversed else (tableFind? sequenceTable name).map .sequence
  | .set _ | .iterable _ => (tableFind? sequenceTable name).map .sequence
  | .map _ => (tableFind? mapTable name).map .map
  | .type .double => (tableFind? doubleTable name).map .type
  | _ => none

end Getter

namespace Method

def textTable : List (String × TextMethod) :=
  [("substring", .substring), ("toUpperCase", .toUpperCase), ("toLowerCase", .toLowerCase),
    ("trim", .trim), ("trimLeft", .trimLeft), ("trimRight", .trimRight), ("contains", .contains),
    ("startsWith", .startsWith), ("endsWith", .endsWith), ("indexOf", .indexOf),
    ("lastIndexOf", .lastIndexOf), ("split", .split), ("replaceAll", .replaceAll),
    ("padLeft", .padLeft), ("padRight", .padRight), ("codeUnitAt", .codeUnitAt), ("[]", .charAt),
    ("compareTo", .compareTo)]

def numberTable : List (String × NumberMethod) :=
  [("abs", .abs), ("toInt", .toInt), ("toDouble", .toDouble), ("round", .round), ("floor", .floor),
    ("ceil", .ceil), ("truncate", .truncate), ("toStringAsFixed", .toStringAsFixed),
    ("compareTo", .compareTo), ("clamp", .clamp), ("remainder", .remainder)]

def sequenceTable : List (String × SequenceMethod) :=
  [("contains", .contains), ("elementAt", .elementAt), ("join", .join), ("map", .map),
    ("where", .where_), ("forEach", .forEach), ("any", .any), ("every", .every), ("fold", .fold),
    ("reduce", .reduce), ("skip", .skip), ("take", .take), ("toList", .toList), ("toSet", .toSet)]

def listTable : List (String × ListMethod) :=
  [("[]", .getAt), ("[]=", .setAt), ("add", .add), ("addAll", .addAll), ("insert", .insert),
    ("remove", .remove), ("removeAt", .removeAt), ("removeLast", .removeLast), ("clear", .clear),
    ("indexOf", .indexOf), ("sublist", .sublist), ("sort", .sort)]

def setTable : List (String × SetMethod) := [("add", .add), ("remove", .remove), ("clear", .clear)]

def mapTable : List (String × MapMethod) :=
  [("[]", .getAt), ("[]=", .setAt), ("containsKey", .containsKey), ("containsValue", .containsValue),
    ("remove", .remove), ("putIfAbsent", .putIfAbsent), ("addAll", .addAll), ("forEach", .forEach),
    ("clear", .clear)]

/-- The methods of a type. -/
def typeTable : BuiltinType → List (String × TypeMethod)
  | .int | .double | .num => [("parse", .parse), ("tryParse", .tryParse)]
  | .string => [("fromCharCode", .fromCharCode)]
  | .list => [("filled", .filled), ("generate", .generate), ("from", .from_)]
  | .set => [("from", .from_)]
  | .bool | .map => []

/-- The method with a name that a value has. -/
def find? (receiver : Value) (name : String) : Option Method :=
  match receiver with
  | .string _ => (tableFind? textTable name).map .text
  | .int _ | .double _ => (tableFind? numberTable name).map .number
  | .list _ =>
    match tableFind? listTable name with
    | some m => some (.list m)
    | none => (tableFind? sequenceTable name).map .sequence
  | .set _ =>
    match tableFind? setTable name with
    | some m => some (.set m)
    | none => (tableFind? sequenceTable name).map .sequence
  | .iterable _ => (tableFind? sequenceTable name).map .sequence
  | .map _ => (tableFind? mapTable name).map .map
  | .type t => (tableFind? (typeTable t) name).map .type
  | _ => none

/-- How many arguments a method takes. -/
def arity : Method → Arity
  | .text m => match m with
    | .substring | .padLeft | .padRight => ⟨1, 2⟩
    | .toUpperCase | .toLowerCase | .trim | .trimLeft | .trimRight => .exactly 0
    | .replaceAll => .exactly 2
    | .contains | .startsWith | .endsWith | .indexOf | .lastIndexOf | .split | .codeUnitAt | .charAt
    | .compareTo => .exactly 1
  | .number m => match m with
    | .abs | .toInt | .toDouble | .round | .floor | .ceil | .truncate => .exactly 0
    | .toStringAsFixed | .compareTo | .remainder => .exactly 1
    | .clamp => .exactly 2
  | .sequence m => match m with
    | .contains | .elementAt | .map | .where_ | .forEach | .any | .every | .reduce | .skip | .take =>
      .exactly 1
    | .join => ⟨0, 1⟩
    | .fold => .exactly 2
    | .toList | .toSet => .exactly 0
  | .list m => match m with
    | .getAt | .add | .addAll | .remove | .removeAt | .indexOf => .exactly 1
    | .setAt | .insert => .exactly 2
    | .removeLast | .clear => .exactly 0
    | .sublist => ⟨1, 2⟩
    | .sort => ⟨0, 1⟩
  | .set m => match m with
    | .add | .remove => .exactly 1
    | .clear => .exactly 0
  | .map m => match m with
    | .getAt | .containsKey | .containsValue | .remove | .addAll | .forEach => .exactly 1
    | .setAt | .putIfAbsent => .exactly 2
    | .clear => .exactly 0
  | .type m => match m with
    | .parse | .tryParse | .fromCharCode | .from_ => .exactly 1
    | .filled | .generate => .exactly 2

end Method
end Dartlet
