import SqlCanvas.Text.Basic
import SqlCanvas.Text.Interval
import SqlCanvas.Text.Table.LetterCase

/-!
# Letter case

Lower and upper case of whole texts by the Unicode mappings. Two of them are not character by
character: a capital sigma at the end of a word becomes the final sigma, and some letters (ß,
ligatures) have a capital form of several characters.
-/

namespace SqlCanvas.Text

def CaseRun.apply? (runs : Array Table.CaseRun) (n : Nat) : Option Nat :=
  (runs.find? fun run =>
    run.first ≤ n && n ≤ run.last && (n - run.first) % run.step == 0).map
      fun run => ((n : Int) + run.offset).toNat

def lowerChar (c : Char) : Text :=
  let n := c.toNat
  if n < 128 then [if 65 ≤ n ∧ n ≤ 90 then Char.ofNat (n + 32) else c]
  else if n = 0x130 then ['i', Char.ofNat 0x307]
  else
    match CaseRun.apply? Table.lowerRuns n with
    | some m => [Char.ofNat m]
    | none => [c]

def upperChar (c : Char) : Text :=
  let n := c.toNat
  if n < 128 then [if 97 ≤ n ∧ n ≤ 122 then Char.ofNat (n - 32) else c]
  else
    match Table.upperLong.find? (·.1 == n) with
    | some (_, ms) => ms.map Char.ofNat
    | none =>
      match CaseRun.apply? Table.upperRuns n with
      | some m => [Char.ofNat m]
      | none => [c]

def isCased (c : Char) : Bool :=
  let n := c.toNat
  if n < 128 then (65 ≤ n && n ≤ 90) || (97 ≤ n && n ≤ 122)
  else Interval.contains Table.cased n

/-- Characters that do not separate a sigma from the letters of its word. -/
def isCaseTransparent (c : Char) : Bool :=
  let n := c.toNat
  if n < 128 then n == 39 || n == 46 || n == 58 || n == 94 || n == 96
  else Interval.contains Table.caseTransparent n

/-- Whether the first character that is not transparent is a letter with case. -/
def startsCased (t : Text) : Bool :=
  match t.dropWhile isCaseTransparent with
  | [] => false
  | c :: _ => isCased c

/-- Lower case of `rest`, where `before` holds the characters in front of it, nearest first. -/
def lowerFrom (before : Text) : Text → Text
  | [] => []
  | c :: rest =>
    (if c.toNat = 0x3A3 then
      [Char.ofNat (if startsCased before && !startsCased rest then 0x3C2 else 0x3C3)]
    else lowerChar c) ++ lowerFrom (c :: before) rest

def lower (t : Text) : Text :=
  lowerFrom [] t

def upper (t : Text) : Text :=
  t.flatMap upperChar

@[simp] theorem upper_nil : upper [] = [] := rfl

@[simp] theorem upper_append (s t : Text) : upper (s ++ t) = upper s ++ upper t := by
  simp [upper]

end SqlCanvas.Text
