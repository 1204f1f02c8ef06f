import SqlCanvas.Number.Numeral
import SqlCanvas.Datum

/-!
# Sources of ids

Reading a statement makes up ids for the tables and joins it finds. A source of ids is a step that
takes the stem of an id, such as `table`, and a state; how it avoids repetition is its own affair.
Two sources are given: one that counts for each stem, and one that counts for all stems together.
-/

namespace SqlCanvas

structure IdSource (σ : Type) where
  next : (stem : String) → σ → String × σ

/-- Counters by stem; a stem not yet asked for starts at `start`. -/
structure StemCounters where
  start : Int
  counts : List (String × Int)

namespace StemCounters

def fresh (start : Int) : StemCounters := ⟨start, []⟩

def count (c : StemCounters) (stem : String) : Int :=
  match c.counts.find? (·.1 == stem) with
  | some (_, n) => n
  | none => c.start

def advance (c : StemCounters) (stem : String) : StemCounters :=
  { c with counts := (stem, c.count stem + 1) :: c.counts.filter (·.1 != stem) }

@[simp] theorem count_fresh (start : Int) (stem : String) : (fresh start).count stem = start := rfl

@[simp] theorem count_advance_self (c : StemCounters) (stem : String) :
    (c.advance stem).count stem = c.count stem + 1 := by
  simp [advance, count]

theorem count_advance_of_ne (c : StemCounters) {stem other : String} (h : other ≠ stem) :
    (c.advance stem).count other = c.count other := by
  have hne : (stem == other) = false := by simpa using h.symm
  have : (c.counts.filter (·.1 != stem)).find? (·.1 == other) =
      c.counts.find? (·.1 == other) := by
    rw [List.find?_filter]
    congr 1
    funext p
    by_cases hp : p.1 = other
    · simp [hp, h]
    · simp [hp]
  simp only [advance, count, List.find?_cons, hne]
  rw [this]

end StemCounters

/-- `table_1`, `table_2`, … and, separately, `join_1`, `join_2`, …. -/
def IdSource.sequential : IdSource StemCounters where
  next stem c := (stem ++ "_" ++ String.ofList (Numeral.ofInt (c.count stem)), c.advance stem)

/-- One counter for all stems, shown in twelve hexadecimal digits. -/
def IdSource.shared : IdSource Nat where
  next stem n := (stem ++ "_" ++ String.ofList (hexPadded 12 n), n + 1)

namespace IdSource

/-- The ids for a list of stems, in order. -/
def nextAll (ids : IdSource σ) : List String → σ → List String × σ
  | [], s => ([], s)
  | stem :: stems, s =>
    let (id, s) := ids.next stem s
    let (rest, s) := ids.nextAll stems s
    (id :: rest, s)

end IdSource

end SqlCanvas
