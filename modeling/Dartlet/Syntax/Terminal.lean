/-!
# Terminals of the grammar

A terminal is a kind of token: an identifier, a literal, a keyword or a symbol.
-/

namespace Dartlet.Syntax

/-- The kinds of tokens. -/
inductive Terminal where
  | identifier | integer | double | string
  | or | and | eq | ne | lt | le | gt | ge | plus | minus | star | slash | tildeSlash | percent
  | bang | inc | dec | assign | plusAssign | minusAssign | starAssign | slashAssign | truncAssign
  | percentAssign | question | colon | comma | dot | semicolon | arrow | spread | spreadQuestion
  | leftParen | rightParen | leftBracket | rightBracket | leftBrace | rightBrace
  | kwIf | kwElse | kwWhile | kwFor | kwReturn | kwBreak | kwContinue | kwRethrow | kwDo | kwTry
  | kwOn | kwCatch | kwFinally | kwIn | kwThrow | kwNull | kwTrue | kwFalse | kwConst | kwVoid
  | kwVar | kwFinal | kwLate | kwRequired | kwImport | kwExport | kwLibrary | kwPart
  deriving DecidableEq, Repr

namespace Terminal

/-- The keywords. A word spelled like one is never an identifier. -/
def keywords : List (String × Terminal) := [
    ("if", .kwIf), ("else", .kwElse), ("while", .kwWhile), ("for", .kwFor), ("return", .kwReturn),
    ("break", .kwBreak), ("continue", .kwContinue), ("rethrow", .kwRethrow), ("do", .kwDo),
    ("try", .kwTry), ("on", .kwOn), ("catch", .kwCatch), ("finally", .kwFinally), ("in", .kwIn),
    ("throw", .kwThrow), ("null", .kwNull), ("true", .kwTrue), ("false", .kwFalse),
    ("const", .kwConst), ("void", .kwVoid), ("var", .kwVar), ("final", .kwFinal),
    ("late", .kwLate), ("required", .kwRequired), ("import", .kwImport), ("export", .kwExport),
    ("library", .kwLibrary), ("part", .kwPart)]

/-- The symbols, longer ones first, so that the first that fits is the longest. -/
def symbols : List (String × Terminal) := [
    ("...?", .spreadQuestion), ("~/=", .truncAssign), ("...", .spread), ("||", .or), ("&&", .and),
    ("==", .eq), ("!=", .ne), ("<=", .le), (">=", .ge), ("~/", .tildeSlash), ("++", .inc),
    ("--", .dec), ("+=", .plusAssign), ("-=", .minusAssign), ("*=", .starAssign),
    ("/=", .slashAssign), ("%=", .percentAssign), ("=>", .arrow), ("<", .lt), (">", .gt),
    ("+", .plus), ("-", .minus), ("*", .star), ("/", .slash), ("%", .percent), ("!", .bang),
    ("=", .assign), ("?", .question), (":", .colon), (",", .comma), (".", .dot),
    (";", .semicolon), ("(", .leftParen), (")", .rightParen), ("[", .leftBracket),
    ("]", .rightBracket), ("\x7b", .leftBrace), ("\x7d", .rightBrace)]

/-- The terminal of a word: its keyword, or else an identifier. -/
def ofWord (word : String) : Terminal :=
  match keywords.find? (fun entry => entry.1 == word) with
  | some entry => entry.2
  | none => .identifier

end Terminal
end Dartlet.Syntax
