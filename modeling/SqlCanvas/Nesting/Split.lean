import SqlCanvas.Nesting.Basic
import SqlCanvas.Pattern.Occurrence

/-!
# Splitting at the top level

A text is cut at those occurrences of a pattern that start at the top level. Occurrences inside
quotes or parentheses are passed over, together with the characters they cover.
-/

namespace SqlCanvas.Text

/-- The occurrences between two positions that start at the top level of the whole text. -/
def topLevelIn (p : Pattern) (t : Text) (start stop : Nat) : List Occurrence :=
  let mask := t.topLevelMask.toArray
  (p.occurrencesIn t start stop).filter fun o => mask.getD o.start false

def topLevelOccurrences (p : Pattern) (t : Text) : List Occurrence :=
  t.topLevelIn p 0 t.length

def findTopLevel? (p : Pattern) (t : Text) : Option Occurrence :=
  (t.topLevelOccurrences p).head?

/-- The stretches of the text from `start` on that lie between the given occurrences. -/
def between (t : Text) (start : Nat) : List Occurrence → List Text
  | [] => [t.drop start]
  | o :: os => t.slice start o.start :: between t o.stop os

/-- The parts of a text around the separators at its top level, trimmed, without the blank ones. -/
def splitTopLevel (p : Pattern) (t : Text) : List Text :=
  ((t.between 0 (t.topLevelOccurrences p)).map trim).filter (!·.isEmpty)

def comma : Pattern := .exactly ','

def splitCommas (t : Text) : List Text :=
  t.splitTopLevel comma

theorem trimmed_of_mem_splitTopLevel {p : Pattern} {t s : Text} (h : s ∈ t.splitTopLevel p) :
    s ≠ [] ∧ ∃ u ∈ t.between 0 (t.topLevelOccurrences p), s = u.trim := by
  simp only [splitTopLevel, List.mem_filter, List.mem_map, Bool.not_eq_true',
    List.isEmpty_eq_false_iff] at h
  obtain ⟨⟨u, hu, rfl⟩, hne⟩ := h
  exact ⟨hne, u, hu, rfl⟩

end SqlCanvas.Text
