import SqlCanvas.Number.Numeral

/-!
# Why a query cannot be written

Writing leaves out what it cannot resolve, so it seldom fails: for want of a table, since there is
then nothing to put behind `FROM`, and for a whole number that has more digits than a text may hold.
All numbers that are too long fail alike, so it does not matter which of them is met first.
-/

namespace SqlCanvas

inductive GenerationError where
  /-- A query, common table or branch has no tables. -/
  | noTables
  /-- A whole number has more digits than may be written. -/
  | numeralTooLong
  deriving DecidableEq

def GenerationError.message : GenerationError → String
  | .noTables => "No tables specified in query"
  | .numeralTooLong =>
    "Exceeds the limit (" ++ toString Numeral.digitLimit ++
      " digits) for integer string conversion; " ++
      "use sys.set_int_max_str_digits() to increase the limit"

/-- What is written, given the whole numbers in it. -/
def writing {α : Type} (numerals : List Int) (written : α) : Except GenerationError α :=
  if ∀ n ∈ numerals, Numeral.IsWritable n then .ok written else .error .numeralTooLong

section Writing

variable {α : Type} {numerals : List Int} {written : α}

theorem writing_of_forall (h : ∀ n ∈ numerals, Numeral.IsWritable n) :
    writing numerals written = .ok written :=
  if_pos h

theorem writing_eq_ok_iff {a : α} :
    writing numerals written = .ok a ↔ (∀ n ∈ numerals, Numeral.IsWritable n) ∧ written = a := by
  rw [writing]
  split
  · rename_i h
    rw [Except.ok.injEq, and_iff_right h]
  · rename_i h
    exact iff_of_false nofun fun hok => h hok.1

theorem writing_eq_error_iff {e : GenerationError} : writing numerals written = .error e ↔
    (∃ n ∈ numerals, ¬ Numeral.IsWritable n) ∧ .numeralTooLong = e := by
  rw [writing]
  split
  · rename_i h
    refine iff_of_false nofun ?_
    rintro ⟨⟨n, hn, hlong⟩, -⟩
    exact hlong (h n hn)
  · rename_i h
    rw [Except.error.injEq]
    exact (and_iff_right (by simpa using h)).symm

end Writing

end SqlCanvas
