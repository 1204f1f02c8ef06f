import SqlCanvas.Proofs.Structure.Joined

/-!
# The structure of a written filter

Read with `AND` before `OR`, and with parentheses before both, a text has a formula over its
predicates. The text of a filter tree has the formula of the tree from which the conditions on
unknown tables, and the groups in which nothing is left, have been taken away.
-/

namespace SqlCanvas

open Text Nesting Pattern

inductive Formula where
  | atom (t : Text)
  | join (operator : Connective) (parts : List Formula)

/-- A formula of several parts, or the one part. -/
def Formula.join? (operator : Connective) : List Formula → Option Formula
  | [] => none
  | [f] => some f
  | fs => some (.join operator fs)

mutual

/-- The text, in parentheses or not, is a disjunction, a conjunction or a predicate. -/
inductive Structured : Text → Formula → Prop
  | any {t : Text} {fs : List Formula} (several : 1 < (Filter.splitOr t.stripParens).length)
      (parts : StructuredAll (Filter.splitOr t.stripParens) fs) : Structured t (.join .or fs)
  | all {t : Text} {fs : List Formula} (noOr : (Filter.splitOr t.stripParens).length ≤ 1)
      (several : 1 < (Filter.splitConjuncts t.stripParens).length)
      (parts : StructuredAll (Filter.splitConjuncts t.stripParens) fs) :
        Structured t (.join .and fs)
  | atom {t : Text} (atomic : Filter.isAtomic t.stripParens = true) :
    Structured t (.atom t.stripParens)

inductive StructuredAll : List Text → List Formula → Prop
  | nil : StructuredAll [] []
  | cons {t : Text} {f : Formula} {ts : List Text} {fs : List Formula} (head : Structured t f)
      (tail : StructuredAll ts fs) : StructuredAll (t :: ts) (f :: fs)

end

theorem Filter.isAtomic_iff {t : Text} :
    isAtomic t = true ↔ (splitOr t).length ≤ 1 ∧ (splitConjuncts t).length ≤ 1 := by
  simp [isAtomic]

mutual

theorem Structured.unique {t : Text} {f f' : Formula} : Structured t f → Structured t f' → f = f'
  | .any _ parts, .any _ parts' => by rw [parts.unique parts']
  | .any several _, .all noOr _ _ => absurd several (not_lt.mpr noOr)
  | .any several _, .atom atomic => absurd several (not_lt.mpr (Filter.isAtomic_iff.mp atomic).1)
  | .all noOr _ _, .any several _ => absurd several (not_lt.mpr noOr)
  | .all _ _ parts, .all _ _ parts' => by rw [parts.unique parts']
  | .all _ several _, .atom atomic => absurd several (not_lt.mpr (Filter.isAtomic_iff.mp atomic).2)
  | .atom atomic, .any several _ => absurd several (not_lt.mpr (Filter.isAtomic_iff.mp atomic).1)
  | .atom atomic, .all _ several _ => absurd several (not_lt.mpr (Filter.isAtomic_iff.mp atomic).2)
  | .atom _, .atom _ => rfl

theorem StructuredAll.unique {ts : List Text} {fs fs' : List Formula} :
    StructuredAll ts fs → StructuredAll ts fs' → fs = fs'
  | .nil, .nil => rfl
  | .cons head tail, .cons head' tail' => by rw [head.unique head', tail.unique tail']

end

/-- Only what stands inside the outer parentheses matters. -/
theorem Structured.congr {s t : Text} {f : Formula} (hs : Structured s f)
    (h : s.stripParens = t.stripParens) : Structured t f := by
  cases hs with
  | any several parts => exact .any (h ▸ several) (h ▸ parts)
  | all noOr several parts => exact .all (h ▸ noOr) (h ▸ several) (h ▸ parts)
  | atom atomic =>
    rw [h]
    exact .atom (h ▸ atomic)

theorem Structured.wrapped {t : Text} {f : Formula} (h : Structured t f) (hclosed : Closed t) :
    Structured ('(' :: (t ++ [')'])) f :=
  h.congr (stripParens_of_closed hclosed).symm

theorem StructuredAll.append {ss ts : List Text} {fs gs : List Formula} (hs : StructuredAll ss fs)
    (ht : StructuredAll ts gs) : StructuredAll (ss ++ ts) (fs ++ gs) := by
  match ss, fs, hs with
  | [], [], .nil => exact ht
  | _ :: _, _ :: _, .cons head tail => exact .cons head (tail.append ht)

section Joined

variable {ps : List FilterPart} {fs : List Formula}

theorem FilterPart.isAtomic_text (p : FilterPart) : Filter.isAtomic p.text = true := by
  have branches := Filter.splitOr_joined (List.cons_ne_nil p [])
  have conjuncts := Filter.splitConjuncts_joined (List.cons_ne_nil p [])
  rw [Filter.joined_singleton] at branches conjuncts
  rw [Filter.isAtomic_iff, branches, conjuncts]
  exact ⟨le_refl 1, le_refl 1⟩

theorem FilterPart.structured_text (p : FilterPart) (h : p.text.head? ≠ some '(') :
    Structured p.text (.atom p.text) := by
  have bare : p.text.stripParens = p.text := p.solid.stripParens h
  have := Structured.atom (t := p.text) (by rw [bare]; exact p.isAtomic_text)
  rwa [bare] at this

/-- Parts joined by a connective have the formulas of the parts, joined by the connective. -/
theorem structured_joined (operator : Connective) (h : ps ≠ [])
    (hs : StructuredAll (ps.map FilterPart.text) fs) :
    ∃ f, Formula.join? operator fs = some f ∧ Structured (Filter.joined operator ps) f := by
  obtain ⟨p, ps, rfl⟩ := List.exists_cons_of_ne_nil h
  obtain ⟨⟩ := hs
  rename_i f fs head tail
  cases ps with
  | nil =>
    obtain ⟨⟩ := tail
    exact ⟨f, rfl, by rwa [Filter.joined_singleton]⟩
  | cons q ps =>
    obtain ⟨⟩ := tail
    rename_i g fs head' tail
    refine ⟨.join operator (f :: g :: fs), rfl, ?_⟩
    have bare : (Filter.joined operator (p :: q :: ps)).stripParens =
        Filter.joined operator (p :: q :: ps) :=
      Filter.stripParens_joined operator
    cases operator with
    | or =>
      refine .any ?_ ?_
      all_goals rw [bare, Filter.splitOr_joined h]
      · simp
      · exact .cons head (.cons head' tail)
    | and =>
      refine .all ?_ ?_ ?_
      · rw [bare, Filter.splitOr_joined_and h]
        exact le_refl 1
      all_goals rw [bare, Filter.splitConjuncts_joined h]
      · simp
      · exact .cons head (.cons head' tail)

end Joined

end SqlCanvas
