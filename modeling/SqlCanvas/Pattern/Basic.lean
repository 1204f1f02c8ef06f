import SqlCanvas.Text.Word

/-!
# Patterns

A pattern describes stretches of a text. `Pattern.ends` lists, best first, the places where a
stretch that starts at a given place may stop: alternatives in the order written, runs longest first
or shortest first. `Pattern.run` looks for the first of these places from which the rest of a search
succeeds, without listing them all; `run_eq_findSome?` says that this is what it does.
-/

namespace SqlCanvas

/-- A stretch of text that a pattern has marked: the text from its start on, and its length. -/
structure Capture where
  tail : Text
  length : Nat

def Capture.text (c : Capture) : Text :=
  c.tail.take c.length

/-- A place in a text: the character in front of it, the text behind it, its index, and the
stretches marked on the way to it, latest first. -/
structure Cursor where
  before : Option Char
  rest : Text
  index : Nat
  captures : List (Nat × Capture)

namespace Cursor

def start (t : Text) : Cursor :=
  ⟨none, t, 0, []⟩

/-- A place at a word boundary has a word character on exactly one side. -/
def atBoundary (c : Cursor) : Bool :=
  c.before.any Text.isWord != c.rest.head?.any Text.isWord

/-- The end of a text, or the place before a line break that ends it. -/
def atEnd (c : Cursor) : Bool :=
  c.rest.isEmpty || c.rest == ['\n']

/-- The places reached over 0, 1, 2, … accepted characters. -/
def stopsFrom (accepts : Char → Bool) (captures : List (Nat × Capture)) :
    Option Char → Text → Nat → List Cursor
  | before, [], index => [⟨before, [], index, captures⟩]
  | before, c :: rest, index =>
    ⟨before, c :: rest, index, captures⟩ ::
      if accepts c then stopsFrom accepts captures (some c) rest (index + 1) else []

def stops (accepts : Char → Bool) (c : Cursor) : List Cursor :=
  stopsFrom accepts c.captures c.before c.rest c.index

/-- Marks the stretch from `first` to the cursor. -/
def mark (slot : Nat) (first c : Cursor) : Cursor :=
  { c with captures := (slot, ⟨first.rest, c.index - first.index⟩) :: c.captures }

end Cursor

inductive Pattern where
  /-- The empty stretch. -/
  | skip
  /-- One accepted character. -/
  | char (accepts : Char → Bool)
  /-- A stretch of the first pattern and then one of the second. -/
  | seq (first second : Pattern)
  /-- A stretch of the first pattern, or else one of the second. -/
  | alt (first second : Pattern)
  /-- Any number of accepted characters, as many as possible. -/
  | many (accepts : Char → Bool)
  /-- Any number of accepted characters, as few as possible. -/
  | few (accepts : Char → Bool)
  /-- A stretch of the pattern, marked under a number. -/
  | capture (slot : Nat) (body : Pattern)
  /-- The empty stretch at a word boundary. -/
  | boundary
  /-- The empty stretch at the start of the whole text. -/
  | textStart
  /-- The empty stretch at the end of the text. -/
  | textEnd
  /-- The empty stretch at a place where the pattern does not match. -/
  | notAhead (body : Pattern)

namespace Pattern

/-- The places where a stretch from `c` on may stop, best first. -/
def ends : Pattern → Cursor → List Cursor
  | skip, c => [c]
  | char accepts, c =>
    match c.rest with
    | [] => []
    | x :: rest =>
      if accepts x then [⟨some x, rest, c.index + 1, c.captures⟩] else []
  | seq first second, c => (first.ends c).flatMap second.ends
  | alt first second, c => first.ends c ++ second.ends c
  | many accepts, c => (c.stops accepts).reverse
  | few accepts, c => c.stops accepts
  | capture slot body, c => (body.ends c).map (Cursor.mark slot c)
  | boundary, c => if c.atBoundary then [c] else []
  | textStart, c => if c.index = 0 then [c] else []
  | textEnd, c => if c.atEnd then [c] else []
  | notAhead body, c => if (body.ends c).isEmpty then [c] else []

/-- The best stop from which `next` succeeds. -/
def run : Pattern → Cursor → (Cursor → Option Cursor) → Option Cursor
  | skip, c, next => next c
  | char accepts, c, next =>
    match c.rest with
    | [] => none
    | x :: rest =>
      if accepts x then next ⟨some x, rest, c.index + 1, c.captures⟩ else none
  | seq first second, c, next => first.run c fun d => second.run d next
  | alt first second, c, next =>
    match first.run c next with
    | some found => some found
    | none => second.run c next
  | many accepts, c, next => (c.stops accepts).reverse.findSome? next
  | few accepts, c, next => (c.stops accepts).findSome? next
  | capture slot body, c, next => body.run c fun d => next (Cursor.mark slot c d)
  | boundary, c, next => if c.atBoundary then next c else none
  | textStart, c, next => if c.index = 0 then next c else none
  | textEnd, c, next => if c.atEnd then next c else none
  | notAhead body, c, next =>
    match body.run c some with
    | some _ => none
    | none => next c

theorem findSome?_flatMap {α β γ : Type _} (f : α → List β) (g : β → Option γ) (xs : List α) :
    (xs.flatMap f).findSome? g = xs.findSome? fun x => (f x).findSome? g := by
  induction xs with
  | nil => rfl
  | cons x xs ih =>
    rw [List.flatMap_cons, List.findSome?_append, ih, List.findSome?_cons]
    cases (f x).findSome? g <;> rfl

theorem run_eq_findSome? (p : Pattern) (c : Cursor) (next : Cursor → Option Cursor) :
    p.run c next = (p.ends c).findSome? next := by
  induction p generalizing c next with
  | skip => simp [run, ends]
  | char accepts =>
    simp only [run, ends]
    split
    · rfl
    · split <;> simp
  | seq first second ih₁ ih₂ =>
    simp only [run, ends, ih₁, ih₂, findSome?_flatMap]
  | alt first second ih₁ ih₂ =>
    simp only [run, ends, ih₁, ih₂, List.findSome?_append]
    cases (first.ends c).findSome? next <;> rfl
  | many => rfl
  | few => rfl
  | capture slot body ih =>
    simp only [run, ends, ih, List.findSome?_map, Function.comp_def]
  | boundary => simp only [run, ends]; split <;> simp
  | textStart => simp only [run, ends]; split <;> simp
  | textEnd => simp only [run, ends]; split <;> simp
  | notAhead body ih =>
    simp only [run, ends, ih]
    cases body.ends c <;> simp

def all (ps : List Pattern) : Pattern :=
  ps.foldr seq skip

/-- The first of the patterns that leads to success. -/
def oneOf : List Pattern → Pattern
  | [] => char fun _ => false
  | [p] => p
  | p :: ps => alt p (oneOf ps)

/-- A stretch of the pattern where there is one, else the empty stretch. -/
def maybe (p : Pattern) : Pattern :=
  alt p skip

def exactly (c : Char) : Pattern :=
  char (· == c)

/-- At least one accepted character, as many as possible. -/
def many1 (accepts : Char → Bool) : Pattern :=
  seq (char accepts) (many accepts)

/-- At least one accepted character, as few as possible. -/
def few1 (accepts : Char → Bool) : Pattern :=
  seq (char accepts) (few accepts)

def anything (_ : Char) : Bool := true

def blanks : Pattern := many Text.isBlank
def blank : Pattern := many1 Text.isBlank
def name : Pattern := many1 Text.isWord
def digits : Pattern := many1 Text.isDecimal

/-- Whether a character stands for the capital letter `l` in a keyword: either case of it, and the
letters that Unicode folds with it, long s, dotless and dotted i, and the Kelvin sign. -/
def isLetter (l c : Char) : Bool :=
  c == l || (l.isUpper && c.toNat == l.toNat + 32) ||
    (l == 'S' && c.toNat == 0x17F) || (l == 'I' && (c.toNat == 0x130 || c.toNat == 0x131)) ||
    (l == 'K' && c.toNat == 0x212A)

def letters : Text → Pattern
  | [] => skip
  | l :: ls => seq (char (isLetter l)) (letters ls)

/-- A keyword, written here in capital letters, in any case. -/
def word (keyword : String) : Pattern :=
  letters keyword.toList

/-- Keywords with blanks between them. -/
def phrase : List String → Pattern
  | [] => skip
  | [w] => word w
  | w :: ws => all [word w, blank, phrase ws]

end Pattern

end SqlCanvas
