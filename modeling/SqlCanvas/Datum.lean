import SqlCanvas.Moment
import SqlCanvas.Number.Shortest
import SqlCanvas.Text.Printable

/-!
# Data

`Scalar` is a single value that a condition may hold. `Datum` is a document: scalars, lists and
records, in which models are exchanged. Two texts are written for a datum: `displayed`, which shows
a string as it is, and `quoted`, which puts strings in quotes and is used for everything inside a
list.
-/

namespace SqlCanvas

open Text

inductive Scalar where
  | null
  | bool (value : Bool)
  | int (value : Int)
  | float (value : Binary64)
  | string (value : String)
  | date (value : Date)
  | moment (value : Moment)
  | clock (value : Clock)
  deriving DecidableEq

inductive Datum where
  | scalar (value : Scalar)
  | list (items : List Datum)
  | record (fields : List (String × Datum))

namespace Datum

def string (s : String) : Datum := .scalar (.string s)
def bool (b : Bool) : Datum := .scalar (.bool b)
def int (n : Int) : Datum := .scalar (.int n)
def null : Datum := .scalar .null

instance : Inhabited Datum := ⟨null⟩

def strings (ss : List String) : Datum := .list (ss.map .string)

def option (write : α → Datum) : Option α → Datum
  | none => null
  | some x => write x

end Datum

/-- The whole numbers in the text of a value. -/
def Scalar.numerals : Scalar → List Int
  | .int n => [n]
  | _ => []

namespace Datum

mutual

/-- The whole numbers in the text of a datum, in order. -/
def numerals : Datum → List Int
  | .scalar x => x.numerals
  | .list items => numeralsAll items
  | .record fields => numeralsFields fields

def numeralsAll : List Datum → List Int
  | [] => []
  | d :: ds => d.numerals ++ numeralsAll ds

def numeralsFields : List (String × Datum) → List Int
  | [] => []
  | (_, d) :: fields => d.numerals ++ numeralsFields fields

end

end Datum

/-- Hexadecimal digits in small letters, `width` wide at least. -/
def hexPadded (width n : Nat) : Text :=
  let digits := Nat.toDigits 16 n
  List.replicate (width - digits.length) '0' ++ digits

/-- One character of a string that stands between `quote`s. Unprintable characters are written by
their code, in two, four or eight hexadecimal digits. -/
def escapeChar (quote c : Char) : Text :=
  if c = quote ∨ c = '\\' then ['\\', c]
  else if c = '\n' then ['\\', 'n']
  else if c = '\r' then ['\\', 'r']
  else if c = '\t' then ['\\', 't']
  else if isPrintable c then [c]
  else
    let n := c.toNat
    if n < 0x100 then '\\' :: 'x' :: hexPadded 2 n
    else if n < 0x10000 then '\\' :: 'u' :: hexPadded 4 n
    else '\\' :: 'U' :: hexPadded 8 n

/-- A string in single quotes, or in double quotes when it has a single quote and no double one. -/
def quoteText (t : Text) : Text :=
  let quote := if t.contains '\'' && !t.contains '"' then '"' else '\''
  quote :: t.flatMap (escapeChar quote) ++ [quote]

namespace Scalar

def quoted : Scalar → Text
  | .null => "None".toList
  | .bool true => "True".toList
  | .bool false => "False".toList
  | .int n => Numeral.ofInt n
  | .float x => x.text
  | .string s => quoteText s.toList
  | .date d => d.constructorForm
  | .moment m => m.constructorForm
  | .clock c => c.constructorForm

def displayed : Scalar → Text
  | .string s => s.toList
  | .date d => d.iso
  | .moment m => m.isoWith ' '
  | .clock c => c.iso
  | x => x.quoted

end Scalar

namespace Datum

mutual

def quoted : Datum → Text
  | .scalar x => x.quoted
  | .list items => '[' :: [',', ' '].intercalate (quotedAll items) ++ [']']
  | .record fields => '\x7b' :: [',', ' '].intercalate (quotedFields fields) ++ ['\x7d']

def quotedAll : List Datum → List Text
  | [] => []
  | d :: ds => d.quoted :: quotedAll ds

def quotedFields : List (String × Datum) → List Text
  | [] => []
  | (name, d) :: fields => (quoteText name.toList ++ ':' :: ' ' :: d.quoted) :: quotedFields fields

end

def displayed : Datum → Text
  | .scalar x => x.displayed
  | d => d.quoted

end Datum

end SqlCanvas
