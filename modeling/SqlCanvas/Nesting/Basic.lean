import SqlCanvas.Text.Basic

/-!
# Quotes and parentheses

Reading a text from left to right, a place is inside quotes, inside parentheses or at the top level.
A quote ends at the next character of its kind. A closing parenthesis without a partner changes
nothing. `topLevelMask` tells for each character whether it stands at the top level, and
`closingParen?` finds the partner of a parenthesis that starts a text.
-/

namespace SqlCanvas

structure Nesting where
  /-- Open parentheses. -/
  depth : Nat
  /-- The quote that is open. -/
  quote : Option Char
  deriving DecidableEq

namespace Nesting

def outside : Nesting := ⟨0, none⟩

def isQuote (c : Char) : Bool :=
  c == '\'' || c == '"'

def isSpecial (c : Char) : Bool :=
  isQuote c || c == '(' || c == ')'

def step (n : Nesting) (c : Char) : Nesting :=
  match n.quote with
  | some q => if c = q then { n with quote := none } else n
  | none =>
    if isQuote c then { n with quote := some c }
    else if c = '(' then { n with depth := n.depth + 1 }
    else if c = ')' then { n with depth := n.depth - 1 }
    else n

/-- Whether `c`, read in this state, stands outside quotes and parentheses and is neither itself. -/
def seesTopLevel (n : Nesting) (c : Char) : Bool :=
  n.quote.isNone && !isSpecial c && n.depth == 0

def after (n : Nesting) (t : Text) : Nesting :=
  t.foldl step n

@[simp] theorem after_nil (n : Nesting) : n.after [] = n := rfl

@[simp] theorem after_cons (n : Nesting) (c : Char) (t : Text) :
    n.after (c :: t) = (n.step c).after t := rfl

@[simp] theorem after_append (n : Nesting) (s t : Text) :
    n.after (s ++ t) = (n.after s).after t := by
  simp [after]

def maskFrom (n : Nesting) : Text → List Bool
  | [] => []
  | c :: t => n.seesTopLevel c :: maskFrom (n.step c) t

@[simp] theorem length_maskFrom (n : Nesting) (t : Text) : (n.maskFrom t).length = t.length := by
  induction t generalizing n with
  | nil => rfl
  | cons c t ih => simp [maskFrom, ih]

theorem maskFrom_append (n : Nesting) (s t : Text) :
    n.maskFrom (s ++ t) = n.maskFrom s ++ (n.after s).maskFrom t := by
  induction s generalizing n with
  | nil => rfl
  | cons c s ih => simp [maskFrom, ih]

/-- The position of the first closing parenthesis outside quotes that brings the depth to zero. -/
def closingFrom (n : Nesting) : Text → Option Nat
  | [] => none
  | c :: t =>
    if n.quote = none ∧ c = ')' ∧ n.depth ≤ 1 then some 0
    else ((n.step c).closingFrom t).map (· + 1)

theorem closingFrom_lt {n : Nesting} {t : Text} {i : Nat} (h : n.closingFrom t = some i) :
    i < t.length := by
  induction t generalizing n i with
  | nil => simp [closingFrom] at h
  | cons c t ih =>
    simp only [closingFrom] at h
    split at h
    · simp at h; simp [← h]
    · obtain ⟨j, hj, rfl⟩ := Option.map_eq_some_iff.1 h
      simpa using ih hj

end Nesting

namespace Text

open Nesting

def topLevelMask (t : Text) : List Bool :=
  outside.maskFrom t

/-- The position of the parenthesis that closes the one at the start of the text. -/
def closingParen? : Text → Option Nat
  | '(' :: t => ((⟨1, none⟩ : Nesting).closingFrom t).map (· + 1)
  | _ => none

/-- Whether one pair of parentheses encloses the whole text. -/
def isWrapped (t : Text) : Bool :=
  match t.closingParen? with
  | some i => i + 1 == t.length
  | none => false

theorem closingParen?_lt {t : Text} {i : Nat} (h : t.closingParen? = some i) :
    0 < i ∧ i < t.length := by
  unfold closingParen? at h
  split at h
  · obtain ⟨j, hj, rfl⟩ := Option.map_eq_some_iff.1 h
    exact ⟨Nat.succ_pos j, by simpa using closingFrom_lt hj⟩
  · simp at h

theorem length_pos_of_isWrapped {t : Text} (h : t.isWrapped = true) : 0 < t.length := by
  unfold isWrapped at h
  split at h
  · rename_i i hi
    have := (closingParen?_lt hi).2
    omega
  · simp at h

/-- The text without blanks at its ends and without the pairs of parentheses around all of it. -/
def stripParens (t : Text) : Text :=
  let trimmed := t.trim
  if trimmed.isWrapped then stripParens trimmed.tail.dropLast else trimmed
termination_by t.length
decreasing_by
  rename_i h
  have := length_pos_of_isWrapped h
  have := length_trim_le t
  simp only [trimmed, List.length_dropLast, List.length_tail] at *
  omega

theorem length_stripParens_le (t : Text) : t.stripParens.length ≤ t.length := by
  fun_induction stripParens t with
  | case1 t trimmed h ih =>
    have : trimmed.length ≤ t.length := length_trim_le t
    simp only [List.length_dropLast, List.length_tail] at ih
    omega
  | case2 t => exact length_trim_le t

end Text

end SqlCanvas
