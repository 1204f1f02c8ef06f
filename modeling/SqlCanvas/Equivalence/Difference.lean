import SqlCanvas.Equivalence.Canonical

/-!
# Differences between selections

Two texts are equivalent when their canonical selections agree, whatever the case of letters.
Otherwise the differences are named clause by clause, in a fixed order. The conditions of the filter
are told apart by the case of literals here.
-/

namespace SqlCanvas.Equivalence

inductive Difference where
  /-- One of the texts cannot be compared. -/
  | unreadable
  | columnCount (first second : Nat)
  | source
  | joinCount (first second : Nat)
  | filterPresence
  | filterConditions
  | groupPresence
  | havingPresence
  | orderPresence
  | limitPresence
  /-- A difference that none of the others names. -/
  | other
  deriving DecidableEq

def Difference.message : Difference → String
  | .unreadable => "Parse error"
  | .columnCount first second =>
    "SELECT column count differs: " ++ toString first ++ " vs " ++ toString second
  | .source => "FROM clause differs"
  | .joinCount first second =>
    "JOIN count differs: " ++ toString first ++ " vs " ++ toString second
  | .filterPresence => "WHERE clause presence differs"
  | .filterConditions => "WHERE conditions differ"
  | .groupPresence => "GROUP BY presence differs"
  | .havingPresence => "HAVING presence differs"
  | .orderPresence => "ORDER BY presence differs"
  | .limitPresence => "LIMIT presence differs"
  | .other => "SQL statements differ"

def sourceDiffers (s t : Option Named) : Bool :=
  match s, t with
  | some s, some t => s != t
  | _, _ => false

def filterDifference (ps qs : Option (List Phrase)) : List Difference :=
  match ps, qs with
  | none, none => []
  | some ps, some qs => if ps.isPerm qs then [] else [.filterConditions]
  | _, _ => [.filterPresence]

def presenceDifference (d : Difference) (first second : Option α) : List Difference :=
  if first.isSome = second.isSome then [] else [d]

/-- The differences that have a name of their own. -/
def namedDifferences (s t : Selection) : List Difference :=
  (if s.columns.length = t.columns.length then []
    else [.columnCount s.columns.length t.columns.length]) ++
  (if sourceDiffers s.source t.source then [.source] else []) ++
  (if s.joins.length = t.joins.length then []
    else [.joinCount s.joins.length t.joins.length]) ++
  filterDifference s.filter t.filter ++
  presenceDifference .groupPresence s.groupBy t.groupBy ++
  presenceDifference .havingPresence s.having t.having ++
  presenceDifference .orderPresence s.orderBy t.orderBy ++
  presenceDifference .limitPresence s.limit t.limit

def selectionDifferences (s t : Selection) : List Difference :=
  if s.fold.same t.fold then []
  else
    match namedDifferences s t with
    | [] => [.other]
    | ds => ds

/-- The differences between two texts in a dialect; equivalent texts have none. -/
def differences (d : Dialect) (sql₁ sql₂ : Text) : List Difference :=
  match readable? d sql₁, readable? d sql₂ with
  | some tokens₁, some tokens₂ => selectionDifferences (.of tokens₁) (.of tokens₂)
  | _, _ => [.unreadable]

theorem selectionDifferences_eq_nil_iff (s t : Selection) :
    selectionDifferences s t = [] ↔ s.fold.same t.fold = true := by
  unfold selectionDifferences
  split
  · simp [*]
  · split <;> simp_all

end SqlCanvas.Equivalence
