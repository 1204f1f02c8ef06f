import SqlCanvas.Datum
import SqlCanvas.Query.Vocabulary
import SqlCanvas.Number.Reading

/-!
# Checking documents

A document is checked part by part, and all faults are collected in the order of the parts. A fault
names the way to the part it is about, with each field as the document spells it. The readers here
are those of the basic fields: strings, truth values, row counts, vocabularies, lists and records.
-/

namespace SqlCanvas

open Text

structure Fault where
  path : List String
  message : String
  deriving DecidableEq

/-- The way, with points between its steps, and the message. -/
def Fault.text (f : Fault) : String :=
  if f.path.isEmpty then f.message else ".".intercalate f.path ++ ": " ++ f.message

inductive Checked (α : Type) where
  | ok (value : α)
  | faulty (faults : List Fault)

namespace Checked

variable {α β : Type}

def fault (message : String) : Checked α :=
  .faulty [⟨[], message⟩]

def map (f : α → β) : Checked α → Checked β
  | .ok a => .ok (f a)
  | .faulty faults => .faulty faults

/-- Both parts are checked, whatever the first one gives. -/
def apply (f : Checked (α → β)) (x : Checked α) : Checked β :=
  match f, x with
  | .ok f, .ok a => .ok (f a)
  | .ok _, .faulty faults => .faulty faults
  | .faulty faults, .ok _ => .faulty faults
  | .faulty faults, .faulty more => .faulty (faults ++ more)

instance : Applicative Checked where
  pure := .ok
  map := map
  seq f x := apply f (x ())

@[simp] theorem map_ok (f : α → β) (a : α) : f <$> (Checked.ok a) = .ok (f a) := rfl

@[simp] theorem seq_ok (f : α → β) (a : α) : Checked.ok f <*> Checked.ok a = .ok (f a) := rfl

/-- Puts a step in front of the way of each fault. -/
def under (step : String) : Checked α → Checked α
  | .ok a => .ok a
  | .faulty faults => .faulty (faults.map fun f => { f with path := step :: f.path })

@[simp] theorem under_ok (step : String) (a : α) : (Checked.ok a).under step = .ok a := rfl

end Checked

abbrev Fields := List (String × Datum)

/-- A name in words joined by capitals, in the spelling with underscores. -/
def underscored (name : String) : String :=
  String.ofList (name.toList.flatMap fun c => if c.isUpper then ['_', c.toLower] else [c])

namespace Fields

def lookup? (fields : Fields) (name : String) : Option Datum :=
  (fields.find? (·.1 == name)).map (·.2)

/-- A field under its name, or else under the name with underscores. -/
def get? (fields : Fields) (name : String) : Option Datum :=
  (fields.lookup? name).or (fields.lookup? (underscored name))

/-- The spelling under which `get?` finds a field. A missing field goes by its name. -/
def spellingOf (fields : Fields) (name : String) : String :=
  if (fields.lookup? name).isNone && (fields.lookup? (underscored name)).isSome then
    underscored name
  else name

theorem sizeOf_lt_of_lookup? {fields : Fields} {name : String} {d : Datum}
    (h : fields.lookup? name = some d) : sizeOf d < sizeOf fields := by
  obtain ⟨p, hp, rfl⟩ := Option.map_eq_some_iff.1 h
  have hm := List.sizeOf_lt_of_mem (List.mem_of_find?_eq_some hp)
  have : sizeOf p = 1 + sizeOf p.1 + sizeOf p.2 := by cases p; rfl
  omega

theorem sizeOf_lt_of_get? {fields : Fields} {name : String} {d : Datum}
    (h : fields.get? name = some d) : sizeOf d < sizeOf fields := by
  rcases Option.or_eq_some_iff.1 h with h | ⟨_, h⟩ <;> exact sizeOf_lt_of_lookup? h

end Fields

namespace Check

variable {α : Type}

/-- A field that has to be there. The reader may use that the field is smaller than the record. -/
def requiredBy (fields : Fields) (name : String)
    (load : (d : Datum) → sizeOf d < sizeOf fields → Checked α) : Checked α :=
  (match h : fields.get? name with
    | some d => load d (Fields.sizeOf_lt_of_get? h)
    | none => .fault "Field required").under (fields.spellingOf name)

/-- A field that has a value when it is not there. -/
def defaultedBy (fields : Fields) (name : String) (default : α)
    (load : (d : Datum) → sizeOf d < sizeOf fields → Checked α) : Checked α :=
  match h : fields.get? name with
  | some d => (load d (Fields.sizeOf_lt_of_get? h)).under (fields.spellingOf name)
  | none => .ok default

def required (fields : Fields) (name : String) (load : Datum → Checked α) : Checked α :=
  requiredBy fields name fun d _ => load d

def defaulted (fields : Fields) (name : String) (default : α) (load : Datum → Checked α) :
    Checked α :=
  defaultedBy fields name default fun d _ => load d

/-- Null stands for absence. -/
def nullableBy (d : Datum) (load : Unit → Checked α) : Checked (Option α) :=
  match d with
  | .scalar .null => .ok none
  | _ => some <$> load ()

def nullable (load : Datum → Checked α) (d : Datum) : Checked (Option α) :=
  nullableBy d fun _ => load d

def optional (fields : Fields) (name : String) (load : Datum → Checked α) : Checked (Option α) :=
  defaulted fields name none (nullable load)

def items (index : Nat) : (ds : List Datum) → ((d : Datum) → d ∈ ds → Checked α) →
    Checked (List α)
  | [], _ => .ok []
  | d :: ds, load =>
    List.cons <$> (load d List.mem_cons_self).under (toString index) <*>
      items (index + 1) ds fun e h => load e (List.mem_cons_of_mem d h)

/-- A list. The reader may use that an item is smaller than the list. -/
def listBy (d : Datum) (load : (x : Datum) → sizeOf x < sizeOf d → Checked α) :
    Checked (List α) :=
  match d with
  | .list ds => items 0 ds fun x h => load x (by
      have := List.sizeOf_lt_of_mem h
      simp only [Datum.list.sizeOf_spec]
      omega)
  | _ => .fault "Input should be a valid list"

def list (load : Datum → Checked α) (d : Datum) : Checked (List α) :=
  listBy d fun x _ => load x

/-- A model of the named kind. The reader may use that the fields are smaller than the record. -/
def modelBy (kind : String) (d : Datum)
    (load : (fields : Fields) → sizeOf fields < sizeOf d → Checked α) : Checked α :=
  match d with
  | .record fields => load fields (by simp only [Datum.record.sizeOf_spec]; omega)
  | _ => .fault ("Input should be a valid dictionary or instance of " ++ kind)

def model (kind : String) (load : Fields → Checked α) (d : Datum) : Checked α :=
  modelBy kind d fun fields _ => load fields

def string : Datum → Checked String
  | .scalar (.string s) => .ok s
  | _ => .fault "Input should be a valid string"

def expected (choices : String) : String :=
  "Input should be " ++ choices

/-- The exact spelling of a member. -/
def spelled (α : Type) [Vocabulary α] : Datum → Checked α
  | .scalar (.string s) =>
    match Vocabulary.read? s with
    | some a => .ok a
    | none => .fault (expected (Vocabulary.choices α))
  | _ => .fault (expected (Vocabulary.choices α))

def literal (word : String) : Datum → Checked Unit
  | .scalar (.string s) => if s = word then .ok () else .fault (expected ("'" ++ word ++ "'"))
  | _ => .fault (expected ("'" ++ word ++ "'"))

def falseWords : List String := ["0", "off", "f", "false", "n", "no"]

def trueWords : List String := ["1", "on", "t", "true", "y", "yes"]

def uninterpretable : String :=
  "Input should be a valid boolean, unable to interpret input"

def notBool : String :=
  "Input should be a valid boolean"

def boolOfInt (n : Int) : Checked Bool :=
  if n = 0 then .ok false else if n = 1 then .ok true else .fault uninterpretable

/-- The whole number that a float stands for, if that lies between `-2 ^ 63` and `2 ^ 63`, both
excluded. -/
def wordOfFloat? (x : Binary64) : Option Int :=
  x.toInt?.filter fun n => n.natAbs < twoTo 63

/-- Whether a number fits in a machine word of 64 bits. -/
def fitsWord (n : Int) : Bool :=
  -(twoTo 63 : Int) ≤ n && n < twoTo 63

/-- A truth value, also as one of the numbers 0 and 1 or as one of the usual words in any case.
Numbers beyond a machine word are not taken for truth values at all. -/
def bool : Datum → Checked Bool
  | .scalar (.bool b) => .ok b
  | .scalar (.int n) => if fitsWord n then boolOfInt n else .fault notBool
  | .scalar (.float x) =>
    match wordOfFloat? x with
    | some n => boolOfInt n
    | none => .fault notBool
  | .scalar (.string s) =>
    let word := String.ofList (lower s.toList)
    if word ∈ falseWords then .ok false
    else if word ∈ trueWords then .ok true
    else .fault uninterpretable
  | _ => .fault notBool

/-- Blanks that may stand around a number in a string: all but the four separators. -/
def isMargin (c : Char) : Bool :=
  isBlank c && !(28 ≤ c.toNat && c.toNat ≤ 31)

def isAsciiDigit (c : Char) : Bool :=
  48 ≤ c.toNat && c.toNat ≤ 57

/-- Why a string does not give a whole number. -/
inductive NumeralFault where
  | malformed
  /-- More digits than `Numeral.digitLimit`. -/
  | tooLong
  deriving DecidableEq

def NumeralFault.message : NumeralFault → String
  | .malformed => "Input should be a valid integer, unable to parse string as an integer"
  | .tooLong => "Unable to parse input string as an integer, exceeded maximum size"

/-- Zeros in front of a numeral that begins with a digit, with underscores among them, are left out.
The last zero is kept where nothing or a fraction follows it, and a minus sign may follow zeros. -/
def dropLeadingZeros? (t : Text) : Option Text :=
  let isFiller (c : Char) : Bool := c == '0' || c == '_'
  match t with
  | '0' :: rest =>
    let lastFiller := ('0' :: rest.takeWhile isFiller).getLast?
    match rest.dropWhile isFiller with
    | [] => if lastFiller = some '0' then some ['0'] else none
    | c :: rest =>
      if c = '.' then if lastFiller = some '0' then some ('0' :: c :: rest) else none
      else if c = '-' || isAsciiDigit c then some (c :: rest)
      else none
  | c :: rest => if isAsciiDigit c then some (c :: rest) else none
  | [] => none

/-- The numeral without zeros in front, behind its minus sign if it has one. A plus sign is left
out. -/
def dropPadding? : Text → Option Text
  | '-' :: rest => (dropLeadingZeros? rest).map ('-' :: ·)
  | '+' :: rest => dropLeadingZeros? rest
  | t => dropLeadingZeros? t

/-- A fraction of zeros is left out; it has one zero at least. -/
def dropZeroFraction (t : Text) : Text :=
  match cutAtFirst? '.' t with
  | some (whole, fraction) =>
    if !fraction.isEmpty && fraction.all (· == '0') then whole else t
  | none => t

/-- Underscores are left out where each has a neighbour on both sides that is none. -/
def dropUnderscores (t : Text) : Text :=
  let groups := t.splitOn '_'
  if groups.all (!·.isEmpty) then groups.flatten else t

/-- A whole number in plain form: a minus sign or none, and digits of which the first is no zero
unless it is the only one. -/
def readPlainInt (t : Text) : Except NumeralFault Int :=
  let (negative, rest) :=
    match t with
    | '-' :: rest => (true, rest)
    | _ => (false, t)
  let digits := rest.takeWhile isAsciiDigit
  if digits.isEmpty || (digits.head? == some '0' && 1 < digits.length) then .error .malformed
  else if Numeral.digitLimit < digits.length then .error .tooLong
  else if digits.length < rest.length then .error .malformed
  else
    let n : Int := Numeral.value digits
    .ok (if negative then -n else n)

/-- The plain form of a numeral, in which margins, a plus sign, zeros in front of the digits, a
fraction of zeros and underscores between digits are left out. -/
def plainForm? (t : Text) : Option Text :=
  let trimmed := dropEndWhile isMargin (t.dropWhile isMargin)
  (dropPadding? trimmed).map fun t => dropUnderscores (dropZeroFraction t)

/-- A whole number in a string. It may have a plain form that differs from it, but a fault that is
about length is found in the string as it stands only. -/
def readInt (t : Text) : Except NumeralFault Int :=
  match readPlainInt t with
  | .error .malformed =>
    match (plainForm? t).map readPlainInt with
    | some (.ok n) => .ok n
    | _ => .error .malformed
  | result => result

/-- A whole number, also as a truth value, a float without a fraction or a numeral in a string. A
float stands for a whole number within a machine word only. -/
def int : Datum → Checked Int
  | .scalar (.bool b) => .ok (if b then 1 else 0)
  | .scalar (.int n) => .ok n
  | .scalar (.float x) =>
    if !x.isFinite then .fault "Input should be a finite number"
    else if x.toInt?.isNone then
      .fault "Input should be a valid integer, got a number with a fractional part"
    else
      match wordOfFloat? x with
      | some n => .ok n
      | none => .fault NumeralFault.tooLong.message
  | .scalar (.string s) =>
    match readInt s.toList with
    | .ok n => .ok n
    | .error fault => .fault fault.message
  | _ => .fault "Input should be a valid integer"

def notNegative : Checked Int → Checked Nat
  | .ok n => if 0 ≤ n then .ok n.toNat else .fault "Input should be greater than or equal to 0"
  | .faulty faults => .faulty faults

def rowCount (d : Datum) : Checked Nat :=
  notNegative (int d)

end Check

end SqlCanvas
