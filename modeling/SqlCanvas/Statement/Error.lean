import SqlCanvas.Datum
import SqlCanvas.Query.Vocabulary
import SqlCanvas.Text.LetterCase

/-!
# Why a statement cannot be read

Reading leaves out what it does not understand, so few texts fail. A whole number can be too long,
and a keyword can be written with a letter, such as a dotted capital I, that is recognised in place
of the plain one and yet stays itself in capital letters.
-/

namespace SqlCanvas

open Text

/-- A keyword, in capital letters, that is not among the choices for a field of a model. -/
structure VocabularyFault where
  model : String
  field : String
  choices : String
  keyword : String
  deriving DecidableEq

namespace VocabularyFault

def expectation (f : VocabularyFault) : String :=
  "Input should be " ++ f.choices

/-- The fault in one line, without the keyword. -/
def line (f : VocabularyFault) : String :=
  f.field ++ ": " ++ f.expectation

/-- What this kind of fault is called in a report. -/
def kindName : String :=
  "literal_error"

/-- Where this kind of fault is explained. -/
def helpAddress : String :=
  "https://errors.pydantic.dev/2.14/v/" ++ kindName

/-- The fault in full, over several lines. -/
def report (f : VocabularyFault) : String :=
  "1 validation error for " ++ f.model ++ "\n" ++ f.field ++ "\n  " ++ f.expectation ++
    " [type=" ++ kindName ++ ", input_value=" ++ String.ofList (quoteText f.keyword.toList) ++
    ", input_type=str]\n    For further information visit " ++ helpAddress

end VocabularyFault

inductive ReadError where
  /-- A whole number with more digits than may be read. -/
  | numeralTooLong (digits : Nat)
  /-- The first keyword, in capital letters, is that of no kind of statement. -/
  | unknownStatement (keyword : String)
  | outsideVocabulary (fault : VocabularyFault)
  deriving DecidableEq

def ReadError.message : ReadError → String
  | .numeralTooLong digits =>
    "Exceeds the limit (" ++ toString Numeral.digitLimit ++
      " digits) for integer string conversion: value has " ++ toString digits ++
      " digits; use sys.set_int_max_str_digits() to increase the limit"
  | .unknownStatement keyword => String.ofList (quoteText keyword.toList)
  | .outsideVocabulary fault => fault.report

/-- A keyword as vocabularies spell it: capital letters, one space between words. -/
def canonicalKeyword (t : Text) : String :=
  String.ofList (upper t).collapseBlanks

/-- The error of a keyword that a field of a model, which holds members of `α`, cannot hold. -/
def ReadError.foreign (α : Type) [Vocabulary α] (model field keyword : String) : ReadError :=
  .outsideVocabulary ⟨model, field, Vocabulary.choices α, keyword⟩

/-- The member of a vocabulary that a captured keyword stands for, to be held by a field of a
model. -/
def readKeyword {α : Type} [Vocabulary α] (model field : String) (t : Text) :
    Except ReadError α :=
  match Vocabulary.read? (canonicalKeyword t) with
  | some a => .ok a
  | none => .error (.foreign α model field (canonicalKeyword t))

/-- The whole number with the given decimal digits. -/
def readWhole (digits : Text) : Except ReadError Nat :=
  if digits.length ≤ Numeral.digitLimit then .ok (Numeral.value digits)
  else .error (.numeralTooLong digits.length)

end SqlCanvas
