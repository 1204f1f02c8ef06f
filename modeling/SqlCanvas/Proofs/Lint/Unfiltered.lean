import SqlCanvas.Proofs.Lint.Remark
import SqlCanvas.Proofs.Statement.Classification

/-!
# Changes of all rows

The lint takes the kind of a statement from its first keyword and looks for `WHERE` anywhere in its
text. It sees the kind that a reader of the statement sees, so of an update or a deletion it says
whether the word `WHERE` stands in the text, and no more: a `WHERE` in a literal silences the
remark.
-/

namespace SqlCanvas

open Text Pattern

namespace Lint

theorem kindRemarks_change {kind : StatementKind} (hkind : kind = .update ∨ kind = .delete)
    (t : Text) : kindRemarks t (some (Vocabulary.spelling kind)) =
      remarkIf (!hasWord ["WHERE"] t) (.unfiltered (Vocabulary.spelling kind)) := by
  rcases hkind with rfl | rfl <;> rfl

theorem unfiltered_mem_messages_iff {kind : StatementKind} (hkind : kind = .update ∨ kind = .delete)
    {sql : Text} (h : classify sql = some (Vocabulary.spelling kind).toList) :
    (Remark.unfiltered (Vocabulary.spelling kind)).message ∈ messages sql ↔
    hasWord ["WHERE"] sql.trim = false := by
  rw [messages, List.mem_map_of_injective Remark.message_injective, warnings, List.mem_filter,
    remarks, classify_trim, h, Option.map_some, String.ofList_toList, kindRemarks_change hkind,
      List.mem_append, mem_remarkIf, mem_remarkIf]
  simp [Remark.isError]

/-- An update or a deletion is remarked on just when the word `WHERE` stands nowhere in its text. -/
theorem unfiltered_iff_no_where {sql : String} {start : Int} {s : Statement}
    (hread : Statement.parse sql start = .ok s) (hfragment : s.updateTable.isSome ∨
      s.deleteFrom.isSome) :
    (Remark.unfiltered (Vocabulary.spelling s.kind)).message ∈ messages sql.toList ↔
      ¬ HasWord "WHERE".toList sql.toList := by
  have hrun := Statement.run_of_parse hread
  obtain ⟨-, hupdate, hdelete⟩ := Statement.kind_of_run hrun
  have hkind : s.kind = .update ∨ s.kind = .delete := hfragment.imp hupdate hdelete
  have change : s.kind ≠ .select := by
    intro h
    rw [h] at hkind
    simp at hkind
  have hwhere : IsKeyword "WHERE".toList := by decide
  have single : ∀ k ∈ ["WHERE"], IsKeyword k.toList := List.forall_mem_singleton.mpr hwhere
  have found := hasWord_iff single (Text.trim sql.toList)
  rw [unfiltered_mem_messages_iff hkind (Statement.classify_of_run hrun change), ← Bool.not_eq_true,
    found]
  simp only [List.mem_singleton, exists_eq_left, hasWord_trim hwhere]

/-- Whether a text is read as an update or a deletion of all rows, and of which of the two kinds. -/
def allRows? (sql : String) (start : Int) : Option StatementKind :=
  match Statement.parse sql start with
  | .ok s =>
    if (s.updateTable.isSome || s.deleteFrom.isSome) &&
      s.query.filters.isNone then some s.kind else none
  | .error _ => none

theorem exists_of_allRows? {sql : String} {start : Int} {kind : StatementKind}
    (h : allRows? sql start = some kind) :
    ∃ s, Statement.parse sql start = .ok s ∧ (s.updateTable.isSome ∨ s.deleteFrom.isSome) ∧
      s.query.filters = none ∧ s.kind = kind := by
  rw [allRows?] at h
  split at h
  · rename_i s hread
    split at h
    · rename_i hrows
      obtain ⟨hfragment, hfilters⟩ := (Bool.and_eq_true _ _).mp hrows
      exact ⟨s, hread, (Bool.or_eq_true _ _).mp hfragment, Option.isNone_iff_eq_none.mp hfilters,
        Option.some.inj h⟩
    · cases h
  · cases h

/-- The letters of `WHERE` in a name are no word, and the `WHERE` of a common table is one. -/
theorem unfiltered_iff_no_where_deletion :
    (∃ s, Statement.parse "DELETE FROM nowhere" 1 = .ok s ∧
      (s.updateTable.isSome ∨ s.deleteFrom.isSome) ∧ s.query.filters = none ∧
      (Remark.unfiltered (Vocabulary.spelling s.kind)).message ∈
        messages "DELETE FROM nowhere".toList ∧
      ¬ HasWord "WHERE".toList "DELETE FROM nowhere".toList) ∧
    (∃ s, Statement.parse "WITH a AS (SELECT b FROM u WHERE b = 1) DELETE FROM t" 1 = .ok s ∧
      (s.updateTable.isSome ∨ s.deleteFrom.isSome) ∧ s.query.filters = none ∧
      (Remark.unfiltered (Vocabulary.spelling s.kind)).message ∉
        messages "WITH a AS (SELECT b FROM u WHERE b = 1) DELETE FROM t".toList ∧
      HasWord "WHERE".toList "WITH a AS (SELECT b FROM u WHERE b = 1) DELETE FROM t".toList) := by
  constructor
  · have all : allRows? "DELETE FROM nowhere" 1 = some .delete := by decide +kernel
    obtain ⟨s, hread, hfragment, hfilters, hkind⟩ := exists_of_allRows? all
    have remarked : (Remark.unfiltered (Vocabulary.spelling s.kind)).message ∈
        messages "DELETE FROM nowhere".toList := by
      rw [hkind]
      decide +kernel
    exact ⟨s, hread, hfragment, hfilters, remarked,
      (unfiltered_iff_no_where hread hfragment).mp remarked⟩
  · have all : allRows? "WITH a AS (SELECT b FROM u WHERE b = 1) DELETE FROM t" 1 =
        some .delete := by decide +kernel
    obtain ⟨s, hread, hfragment, hfilters, hkind⟩ := exists_of_allRows? all
    have silent : (Remark.unfiltered (Vocabulary.spelling s.kind)).message ∉
        messages "WITH a AS (SELECT b FROM u WHERE b = 1) DELETE FROM t".toList := by
      rw [hkind]
      decide +kernel
    refine ⟨s, hread, hfragment, hfilters, silent, ?_⟩
    by_contra absent
    exact silent ((unfiltered_iff_no_where hread hfragment).mpr absent)

/-- A `WHERE` in a literal silences the remark on an update of all rows. -/
theorem silenced_by_literal :
    ∃ s, Statement.parse "UPDATE t SET a = 'where'" 1 = .ok s ∧ s.kind = .update ∧
    (s.updateTable.isSome ∨ s.deleteFrom.isSome) ∧ s.query.filters = none ∧
    (Remark.unfiltered "UPDATE").message ∉ messages "UPDATE t SET a = 'where'".toList := by
  have all : allRows? "UPDATE t SET a = 'where'" 1 = some .update := by decide +kernel
  obtain ⟨s, hread, hfragment, hfilters, hkind⟩ := exists_of_allRows? all
  have silent : (Remark.unfiltered "UPDATE").message ∉
      messages "UPDATE t SET a = 'where'".toList := by
    decide +kernel
  exact ⟨s, hread, hkind, hfragment, hfilters, silent⟩

end Lint

end SqlCanvas
