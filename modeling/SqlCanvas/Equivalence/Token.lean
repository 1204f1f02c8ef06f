import SqlCanvas.Dialect
import SqlCanvas.Text.LetterCase
import SqlCanvas.Text.Word

/-!
# Tokens

The words, numbers, quoted literals and signs of an SQL text. Keywords are written in capital
letters and names in small letters, save in a dialect whose names keep their case. A text has no
tokens to compare when it is empty, when a quote or parenthesis is left open, or when its last word
is `WHERE`.
-/

namespace SqlCanvas.Equivalence

open Text

/-- The words that are not names. -/
def keywords : List String :=
  ["SELECT", "DISTINCT", "FROM", "AS", "JOIN", "INNER", "LEFT", "RIGHT", "FULL", "OUTER", "CROSS",
    "ON", "WHERE", "AND", "OR", "NOT", "IN", "IS", "NULL", "LIKE", "BETWEEN", "TRUE", "FALSE",
    "GROUP", "BY", "HAVING", "ORDER", "ASC", "DESC", "LIMIT", "OFFSET", "ROW", "ROWS", "FETCH",
    "NEXT", "FIRST", "ONLY", "UNION", "ALL", "INTERSECT", "EXCEPT", "COUNT", "SUM", "AVG", "MIN",
    "MAX"]

/-- Signs of two characters. -/
def doubleSigns : List String := ["<=", ">=", "<>", "!=", "||", "::"]

/-- Whether the case of a name means nothing in a dialect. -/
def foldsNames : Dialect → Bool
  | .mysql => false
  | _ => true

def canonicalWord (d : Dialect) (w : Text) : Text :=
  let capital := upper w
  if String.ofList capital ∈ keywords then capital
  else if foldsNames d then lower w
  else w

/-- A quoted literal with its quotes and what follows it; inside, a doubled quote is no end. -/
def splitQuoted (quote : Char) : Text → Option (Text × Text)
  | [] => none
  | [c] => if c = quote then some ([c], []) else none
  | c :: d :: t =>
    if c = quote then
      if d = quote then (splitQuoted quote t).map fun (body, rest) => (c :: d :: body, rest)
      else some ([c], d :: t)
    else (splitQuoted quote (d :: t)).map fun (body, rest) => (c :: body, rest)

def isNumberPart (c : Char) : Bool :=
  isWord c || c == '.'

/-- The first token of a text without blanks in front, and what follows it. -/
def nextToken? (d : Dialect) : Text → Option (Text × Text)
  | [] => none
  | c :: t =>
    if c = '\'' ∨ c = '"' then
      (splitQuoted c t).map fun (body, rest) => (c :: body, rest)
    else if isDecimal c then some (c :: t.takeWhile isNumberPart, t.dropWhile isNumberPart)
    else if isWord c then
      some (canonicalWord d (c :: t.takeWhile isWord), t.dropWhile isWord)
    else
      match t with
      | e :: t' =>
        if String.ofList [c, e] ∈ doubleSigns then
          some (if [c, e] = ['<', '>'] then ['!', '='] else [c, e], t')
        else some ([c], t)
      | [] => some ([c], [])

/-- The tokens of a text, or nothing where a quote is left open. Each token takes a character, so as
many steps as there are characters are enough. -/
def tokensWithin (d : Dialect) : Nat → Text → Option (List Text)
  | 0, _ => some []
  | steps + 1, t =>
    match t.dropWhile isBlank with
    | [] => some []
    | c :: t =>
      match nextToken? d (c :: t) with
      | none => none
      | some (token, rest) => (tokensWithin d steps rest).map (token :: ·)

def tokens? (d : Dialect) (t : Text) : Option (List Text) :=
  tokensWithin d (t.length + 1) t

/-- The parentheses open behind some tokens, unless one was closed that had not been opened. -/
def openParens? (tokens : List Text) : Option Nat :=
  tokens.foldlM (fun n token =>
    if token = ['('] then some (n + 1)
    else if token = [')'] then if n = 0 then none else some (n - 1)
    else some n) 0

/-- The tokens of a text that can be compared. -/
def readable? (d : Dialect) (sql : Text) : Option (List Text) := do
  let tokens ← tokens? d sql
  if tokens.isEmpty || openParens? tokens != some 0 || tokens.getLast? == some "WHERE".toList then
    none
  else return tokens

end SqlCanvas.Equivalence
