import SqlCanvas.Text.Basic

/-!
# Doubled quotes

Inside a quoted literal the quote itself is written twice. `undoubleQuotes` undoes `doubleQuotes`;
on text that is no written form it halves each pair it meets from the left and keeps single quotes.
-/

namespace SqlCanvas.Text

def doubleQuotes (quote : Char) : Text → Text
  | [] => []
  | c :: t =>
    if c = quote then quote :: quote :: doubleQuotes quote t else c :: doubleQuotes quote t

def undoubleQuotes (quote : Char) : Text → Text
  | [] => []
  | [c] => [c]
  | c :: d :: t =>
    if c = quote ∧ d = quote then quote :: undoubleQuotes quote t
    else c :: undoubleQuotes quote (d :: t)

theorem undoubleQuotes_cons_of_ne {quote c : Char} (h : c ≠ quote) (t : Text) :
    undoubleQuotes quote (c :: t) = c :: undoubleQuotes quote t := by
  cases t <;> simp [undoubleQuotes, h]

theorem undoubleQuotes_doubleQuotes (quote : Char) (t : Text) :
    undoubleQuotes quote (doubleQuotes quote t) = t := by
  induction t with
  | nil => rfl
  | cons c t ih =>
    by_cases h : c = quote
    · simp [doubleQuotes, undoubleQuotes, h, ih]
    · rw [doubleQuotes, if_neg h, undoubleQuotes_cons_of_ne h, ih]

end SqlCanvas.Text
