import SqlCanvas.Nesting.Split
import SqlCanvas.Query.Vocabulary
import SqlCanvas.Text.LetterCase

/-!
# Outlines

The coarse cut of a statement, before any clause is read: the named queries of its `WITH` clause,
its first keyword, the text of its body, and the branches of its set operations. The parts that are
statements themselves are cut in the same way, and each of them is shorter than the whole.
-/

namespace SqlCanvas

open Text Pattern

/-- `WITH`, the mark for recursion under 1. -/
def withHead : Pattern :=
  .all [.textStart, blanks, word "WITH", blank, .maybe (.capture 1 (.seq (word "RECURSIVE") blank))]

/-- The name of a common table under 1, up to the parenthesis that opens its query. -/
def commonTableHead : Pattern :=
  .all [blanks, .capture 1 name, blanks,
    .maybe (.all [.exactly '(', .many fun c => c != '(' && c != ')', .exactly ')', blanks]),
    word "AS", blanks,
    .maybe (.all [.maybe (.seq (word "NOT") blank), word "MATERIALIZED", blanks]),
    .exactly '(']

def leadingComma : Pattern :=
  .seq blanks (.exactly ',')

/-- The first keyword of a statement under 1. -/
def statementHead : Pattern :=
  .all [.textStart, blanks,
    .capture 1 (.oneOf ((Vocabulary.members (α := StatementKind)).map
      fun kind => word (Vocabulary.spelling kind))),
    .boundary]

/-- The keywords of a set operation under 1. -/
def setOperation : Pattern :=
  .all [.boundary,
    .capture 1 (.oneOf [phrase ["UNION", "ALL"], word "UNION", word "INTERSECT", word "EXCEPT"]),
    .boundary]

/-- The names and texts of the common tables at the start of a text, and what follows them. Reading
stops at the first entry without a closing parenthesis. -/
def splitCommonTables (t : Text) : List (Text × Text) × Text :=
  match commonTableHead.match? t with
  | none => ([], t)
  | some m =>
    let opening := m.stop - 1
    match _hl : closingParen? (t.drop opening) with
    | none => ([], t)
    | some length =>
      let entry := (m.captured 1, t.slice (opening + 1) (opening + length))
      let rest := t.drop (opening + length + 1)
      match leadingComma.match? rest with
      | none => ([entry], rest)
      | some comma =>
        let (entries, rest) := splitCommonTables (rest.drop comma.stop)
        (entry :: entries, rest)
termination_by t.length
decreasing_by
  have := (closingParen?_lt _hl).2
  simp only [List.length_drop] at *
  omega

/-- A leading `WITH` clause taken apart: its tables, whether it is recursive, and what follows. -/
structure WithClause where
  tables : List (Text × Text)
  recursive : Bool
  rest : Text

def splitWith (t : Text) : WithClause :=
  match withHead.match? t with
  | none => ⟨[], false, t⟩
  | some m =>
    let (tables, rest) := splitCommonTables (t.drop m.stop)
    ⟨tables, (m.capture? 1).isSome, rest⟩

/-- The first operand of the set operations at the top level, and each operation's keywords with the
operand behind them. -/
def splitSetOperations (t : Text) : Text × List (Text × Text) :=
  let os := t.topLevelOccurrences setOperation
  match t.between 0 os with
  | [] => (t, [])
  | head :: branches => (head, (os.map (·.captured 1)).zip branches)

/-- Skips the parentheses and the plain blanks in front of a statement. -/
def skipOpenings (t : Text) : Text :=
  t.dropWhile fun c => c == '(' || c == ' ' || c == '\t' || c == '\r' || c == '\n'

/-- The first keyword of a statement, in capital letters, if it starts like one. -/
def firstKeyword? (t : Text) : Option Text :=
  (statementHead.match? (skipOpenings t)).map fun m => upper (m.captured 1)

/-- The kind of a statement by its first keyword behind a `WITH` clause: the keyword in capital
letters, or `SELECT` when there is nothing but the tables of that clause. -/
def classify (sql : Text) : Option Text :=
  let withClause := splitWith sql.trim
  match firstKeyword? withClause.rest with
  | some keyword => some keyword
  | none => if withClause.tables.isEmpty then none else some "SELECT".toList

/-- A statement without blanks and semicolons at its end. -/
def stripTerminator (sql : Text) : Text :=
  (sql.trim.dropEndWhile (· == ';')).trim

theorem length_slice_lt {t : Text} {start : Nat} (stop : Nat) (ht : 0 < t.length)
    (hs : 0 < start) : (t.slice start stop).length < t.length := by
  have := length_slice_le t start stop
  omega

theorem length_lt_of_mem_splitCommonTables {t : Text} {entry : Text × Text}
    (h : entry ∈ (splitCommonTables t).1) : entry.2.length < t.length := by
  fun_induction splitCommonTables t with
  | case1 => simp at h
  | case2 => simp at h
  | case3 t m hm opening length hl own rest hc =>
    have := (closingParen?_lt hl).2
    simp only [List.length_drop] at this
    simp only [List.mem_singleton] at h
    subst h
    exact length_slice_lt _ (by omega) (Nat.succ_pos _)
  | case4 t m hm opening length hl own rest comma hc entries rest' heq ih =>
    have := (closingParen?_lt hl).2
    simp only [List.length_drop] at this
    rcases List.mem_cons.1 h with rfl | h
    · exact length_slice_lt _ (by omega) (Nat.succ_pos _)
    · have := ih (by rw [heq]; exact h)
      simp only [rest, List.length_drop] at this
      omega

theorem length_rest_splitCommonTables_le (t : Text) :
    (splitCommonTables t).2.length ≤ t.length := by
  fun_induction splitCommonTables t with
  | case1 => exact Nat.le_refl _
  | case2 => exact Nat.le_refl _
  | case3 t m hm opening length hl own rest hc =>
    simp only [rest, List.length_drop]
    omega
  | case4 t m hm opening length hl own rest comma hc entries rest' heq ih =>
    rw [heq] at ih
    simp only [rest, List.length_drop] at ih
    simp only
    omega

theorem length_lt_of_mem_splitWith {t : Text} {entry : Text × Text}
    (h : entry ∈ (splitWith t).tables) : entry.2.length < t.length := by
  unfold splitWith at h
  split at h
  · simp at h
  · have := length_lt_of_mem_splitCommonTables h
    simp only [List.length_drop] at this
    omega

theorem length_rest_splitWith_le (t : Text) : (splitWith t).rest.length ≤ t.length := by
  unfold splitWith
  split
  · exact Nat.le_refl _
  · refine Nat.le_trans (length_rest_splitCommonTables_le _) ?_
    simp only [List.length_drop]
    omega

theorem length_stripTerminator_le (t : Text) : (stripTerminator t).length ≤ t.length :=
  Nat.le_trans (length_trim_le _)
    (Nat.le_trans (length_dropEndWhile_le _ _) (length_trim_le t))

theorem length_lt_of_mem_between {t s : Text} {start : Nat} {os : List Occurrence}
    (ht : 0 < t.length) (hs : 0 < start) (h : s ∈ t.between start os) : s.length < t.length := by
  induction os generalizing start with
  | nil =>
    simp only [between, List.mem_singleton] at h
    subst h
    simp only [List.length_drop]
    omega
  | cons o os ih =>
    rcases List.mem_cons.1 h with rfl | h
    · exact length_slice_lt _ ht hs
    · exact ih (Nat.lt_of_le_of_lt (Nat.zero_le _) o.start_lt_stop) h

theorem occurrences_nil (p : Pattern) : p.occurrencesIn [] 0 0 = [] := rfl

theorem length_lt_of_mem_splitSetOperations {t : Text} {branch : Text × Text}
    (h : branch ∈ (splitSetOperations t).2) : branch.2.length < t.length := by
  simp only [splitSetOperations] at h
  split at h
  · simp at h
  · rename_i head branches heq
    have hb := (List.of_mem_zip h).2
    cases hos : t.topLevelOccurrences setOperation with
    | nil =>
      rw [hos] at h
      simp at h
    | cons o os =>
      rw [hos, between] at heq
      simp only [List.cons.injEq] at heq
      have ht : 0 < t.length := by
        cases t with
        | nil => simp [topLevelOccurrences, topLevelIn, occurrences_nil] at hos
        | cons => simp
      rw [← heq.2] at hb
      exact length_lt_of_mem_between ht (Nat.lt_of_le_of_lt (Nat.zero_le _) o.start_lt_stop) hb

inductive Outline where
  /-- `keyword` is the first keyword in capital letters, and `SELECT` where there is none. -/
  | mk (tables : List (Text × Outline)) (recursive : Bool) (keyword body : Text)
      (branches : List (Text × Outline))

namespace Outline

/-- The outline of a statement. Set operations are looked for in `SELECT` statements only. -/
def of (sql : Text) : Outline :=
  let text := stripTerminator sql
  let withClause := splitWith text
  let tables := withClause.tables.attach.map fun ⟨entry, _⟩ => (entry.1, of entry.2)
  let keyword := (firstKeyword? withClause.rest).getD "SELECT".toList
  if keyword = "SELECT".toList then
    let split := splitSetOperations withClause.rest
    let branches := split.2.attach.map fun ⟨branch, _⟩ => (branch.1, of branch.2.stripParens)
    .mk tables withClause.recursive keyword split.1.stripParens branches
  else .mk tables withClause.recursive keyword withClause.rest []
termination_by sql.length
decreasing_by
  · have h := length_lt_of_mem_splitWith ‹entry ∈ withClause.tables›
    exact Nat.lt_of_lt_of_le h (length_stripTerminator_le sql)
  · have h := length_lt_of_mem_splitSetOperations ‹branch ∈ split.2›
    have h₁ := length_stripParens_le branch.2
    have h₂ := length_rest_splitWith_le text
    have h₃ : text.length ≤ sql.length := length_stripTerminator_le sql
    simp only [withClause] at h
    omega

end Outline

end SqlCanvas
