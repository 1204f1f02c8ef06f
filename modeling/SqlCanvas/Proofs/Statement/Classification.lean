import SqlCanvas.Proofs.Statement.Reading
import SqlCanvas.Proofs.Statement.Terminator

/-!
# The kind of a statement

The kind of a statement is told twice by its first keyword, in the text as it is given and in the
text without terminator. The reader takes a statement without a keyword for a `SELECT`, the
classification answers only where there are the tables of a `WITH` clause; where it answers, the two
agree.
-/

namespace SqlCanvas

open Text

theorem classify_trim (sql : Text) : classify sql.trim = classify sql := by
  rw [classify, trim_trim, classify]

theorem classify_getD (sql : Text) : (classify sql).getD "SELECT".toList =
    (firstKeyword? (splitWith (stripTerminator sql)).rest).getD "SELECT".toList := by
  rw [classify, firstKeyword?_splitWith_trim]
  cases firstKeyword? (splitWith (stripTerminator sql)).rest with
  | some keyword => rfl
  | none =>
    simp only
    split <;> rfl

namespace Statement

variable {σ : Type} {ids : IdSource σ}

theorem kind_of_read {kind : StatementKind} {t : Text} {s : Statement}
    (h : Change.read kind t = .ok s) :
    s.kind = kind ∧ (s.updateTable.isSome → kind = .update) ∧
    (s.deleteFrom.isSome → kind = .delete) := by
  cases kind with
  | select | insert | create | alter | drop | truncate =>
    cases h
    exact ⟨rfl, nofun, nofun⟩
  | update =>
    obtain ⟨x, -, h⟩ := exists_of_bind_eq_ok h
    cases h
    exact ⟨rfl, fun _ => rfl, nofun⟩
  | delete =>
    obtain ⟨x, -, h⟩ := exists_of_bind_eq_ok h
    cases h
    exact ⟨rfl, nofun, fun _ => rfl⟩

/-- The first keyword is the one of the statement's kind, and a fragment is there for its own kind
only. -/
theorem kind_of_ofOutline {tables branches : List (Text × Outline)} {recursive : Bool}
    {keyword body : Text} {a b : σ} {s : Statement}
    (h : (ofOutline ids (.mk tables recursive keyword body branches)).run a = (.ok s, b)) :
    keyword = (Vocabulary.spelling s.kind).toList ∧ (s.updateTable.isSome → s.kind = .update) ∧
      (s.deleteFrom.isSome → s.kind = .delete) := by
  rw [ofOutline] at h
  obtain ⟨ctes, a₁, -, h⟩ := Reading.exists_of_run_bind h
  obtain ⟨kind, a₂, hkind, h⟩ := Reading.exists_of_run_bind h
  obtain ⟨hkind, rfl⟩ := Prod.mk.inj hkind
  have known : keyword = (Vocabulary.spelling kind).toList := by
    rw [readKind] at hkind
    split at hkind
    · rename_i found hread
      cases hkind
      rw [Vocabulary.spelling_of_read? hread, String.toList_ofList]
    · cases hkind
  split at h
  · obtain ⟨own, a₃, -, h⟩ := Reading.exists_of_run_bind h
    obtain ⟨unions, a₄, -, h⟩ := Reading.exists_of_run_bind h
    cases h
    exact ⟨known, nofun, nofun⟩
  · obtain ⟨changed, a₃, hchange, h⟩ := Reading.exists_of_run_bind h
    obtain ⟨hok, rfl⟩ := Prod.mk.inj hchange
    obtain ⟨rfl, hupdate, hdelete⟩ := kind_of_read hok
    cases h
    exact ⟨known, hupdate, hdelete⟩

theorem kind_of_run {sql : Text} {a b : σ} {s : Statement} (h : (read ids sql).run a = (.ok s, b)) :
    (classify sql).getD "SELECT".toList = (Vocabulary.spelling s.kind).toList ∧
      (s.updateTable.isSome → s.kind = .update) ∧ (s.deleteFrom.isSome → s.kind = .delete) := by
  rw [classify_getD]
  rw [read, Outline.of] at h
  split at h
  · exact kind_of_ofOutline h
  · exact kind_of_ofOutline h

theorem run_of_parse {sql : String} {start : Int} {s : Statement} (h : parse sql start = .ok s) :
    (read IdSource.sequential sql.toList).run (.fresh start) =
      (.ok s, ((read IdSource.sequential sql.toList).run (.fresh start)).2) :=
  Prod.ext h rfl

/-- Only a `SELECT` is read where there is no classification. -/
theorem classify_of_run {sql : Text} {a b : σ} {s : Statement}
    (h : (read ids sql).run a = (.ok s, b)) (hkind : s.kind ≠ .select) :
    classify sql = some (Vocabulary.spelling s.kind).toList := by
  have keyword := (kind_of_run h).1
  cases hclass : classify sql with
  | some found => rw [← keyword, hclass, Option.getD_some]
  | none =>
    rw [hclass, Option.getD_none] at keyword
    have known := StatementKind.read?_spelling s.kind
    rw [← String.toList_inj.mp keyword] at known
    have same : StatementKind.select = s.kind := Option.some.inj known
    exact absurd same.symm hkind

/-- A statement is read as what its text is classified as, and as a `SELECT` where it is not
classified. -/
theorem kind_as_classified {sql : Text} {a b : σ} {s : Statement}
    (h : (read ids sql).run a = (.ok s, b)) :
    Vocabulary.spelling s.kind = ((classify sql).map String.ofList).getD "SELECT" := by
  have keyword := congrArg String.ofList (kind_of_run h).1
  rw [String.ofList_toList] at keyword
  rw [← keyword]
  cases classify sql <;> rfl

/-- A `WITH` clause that is complete, one that breaks off, one with a comma at its end, and one of
nothing but a blank, which is not part of the statement. -/
theorem kind_as_classified_behind_clause :
    (∃ s, parse "WITH a AS (SELECT b FROM t) DELETE FROM t" 1 = .ok s ∧
      Vocabulary.spelling s.kind = "DELETE") ∧
    (∃ s, parse "WITH a AS (SELECT b), c AS UPDATE t SET b = 1" 1 = .ok s ∧
      Vocabulary.spelling s.kind = "SELECT") ∧
    (∃ s, parse "WITH a AS (SELECT b FROM t), UPDATE t SET b = 1" 1 = .ok s ∧
      Vocabulary.spelling s.kind = "UPDATE") ∧
    ∃ s, parse "WITH ;" 1 = .ok s ∧ classify "WITH ;".toList = none ∧
      Vocabulary.spelling s.kind = "SELECT" := by
  refine ⟨?complete, ?broken, ?comma, ?blank⟩
  case complete =>
    have readable : (parse "WITH a AS (SELECT b FROM t) DELETE FROM t" 1).toOption.isSome := by
      decide +kernel
    obtain ⟨s, hread⟩ := exists_eq_ok readable
    refine ⟨s, hread, (kind_as_classified (run_of_parse hread)).trans ?_⟩
    decide +kernel
  case broken =>
    have readable : (parse "WITH a AS (SELECT b), c AS UPDATE t SET b = 1" 1).toOption.isSome := by
      decide +kernel
    obtain ⟨s, hread⟩ := exists_eq_ok readable
    refine ⟨s, hread, (kind_as_classified (run_of_parse hread)).trans ?_⟩
    decide +kernel
  case comma =>
    have readable :
        (parse "WITH a AS (SELECT b FROM t), UPDATE t SET b = 1" 1).toOption.isSome := by
      decide +kernel
    obtain ⟨s, hread⟩ := exists_eq_ok readable
    refine ⟨s, hread, (kind_as_classified (run_of_parse hread)).trans ?_⟩
    decide +kernel
  case blank =>
    have readable : (parse "WITH ;" 1).toOption.isSome := by decide +kernel
    have unclassified : classify "WITH ;".toList = none := by decide +kernel
    obtain ⟨s, hread⟩ := exists_eq_ok readable
    refine ⟨s, hread, unclassified, (kind_as_classified (run_of_parse hread)).trans ?_⟩
    rw [unclassified]
    rfl

end Statement

end SqlCanvas
