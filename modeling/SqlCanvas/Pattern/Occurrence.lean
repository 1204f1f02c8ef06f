import SqlCanvas.Pattern.Basic

/-!
# Occurrences

Where a pattern occurs in a text. `Pattern.match?` looks at one place only; `Pattern.occurrences`
goes through the text from left to right and takes up the search behind each occurrence it finds, so
that no two of them overlap. Empty occurrences are not reported.
-/

namespace SqlCanvas

structure Occurrence where
  start : Nat
  stop : Nat
  captures : List (Nat × Capture)
  start_lt_stop : start < stop

/-- A match at a given place, which may be empty. -/
structure Match where
  stop : Nat
  captures : List (Nat × Capture)

def findCapture? (captures : List (Nat × Capture)) (slot : Nat) : Option Text :=
  (captures.find? (·.1 == slot)).map (·.2.text)

def Occurrence.capture? (o : Occurrence) (slot : Nat) : Option Text :=
  findCapture? o.captures slot

def Match.capture? (m : Match) (slot : Nat) : Option Text :=
  findCapture? m.captures slot

/-- The stretch marked under a number, or the empty text. -/
def Occurrence.captured (o : Occurrence) (slot : Nat) : Text :=
  (o.capture? slot).getD []

def Match.captured (m : Match) (slot : Nat) : Text :=
  (m.capture? slot).getD []

namespace Pattern

/-- The best match at the start of a text. -/
def match? (p : Pattern) (t : Text) : Option Match :=
  (p.run (.start t) some).map fun c => ⟨c.index, c.captures⟩

/-- The occurrence that starts at a cursor, unless there is none or only an empty one. -/
def occurrenceAt? (p : Pattern) (c : Cursor) : Option Occurrence :=
  match p.run c some with
  | none => none
  | some d => if h : c.index < d.index then some ⟨c.index, d.index, d.captures, h⟩ else none

/-- Occurrences in `rest`, the text behind position `index`, of which the first `covered` characters
belong to an occurrence already found. -/
def occurrencesFrom (p : Pattern) :
    (before : Option Char) → (rest : Text) → (index covered : Nat) → List Occurrence
  | _, [], _, _ => []
  | _, c :: rest, index, covered + 1 => occurrencesFrom p (some c) rest (index + 1) covered
  | before, c :: rest, index, 0 =>
    match p.occurrenceAt? ⟨before, c :: rest, index, []⟩ with
    | none => occurrencesFrom p (some c) rest (index + 1) 0
    | some o => o :: occurrencesFrom p (some c) rest (index + 1) (o.stop - o.start - 1)

def occurrences (p : Pattern) (t : Text) : List Occurrence :=
  occurrencesFrom p none t 0 0

/-- The occurrences between two positions. The text counts as cut off at `stop`, but the character
in front of `start` is still seen. -/
def occurrencesIn (p : Pattern) (t : Text) (start stop : Nat) : List Occurrence :=
  let before := if start = 0 then none else t[start - 1]?
  occurrencesFrom p before (t.slice start stop) start 0

def occursIn (p : Pattern) (t : Text) : Bool :=
  !(p.occurrences t).isEmpty

end Pattern

end SqlCanvas
