import SqlCanvas.Proofs.Lint.Remark
import SqlCanvas.Proofs.Statement.Body
import SqlCanvas.Proofs.Statement.ClauseWord

/-!
# Remarks on what is missing

The lint says that a part of a statement is missing only where the keywords of the part stand
nowhere in the text. The reader finds the part behind such a keyword. So what was read of a
statement is never said to be missing.
-/

namespace SqlCanvas

open Text

namespace Statement

variable {σ : Type} {ids : IdSource σ} {sql : Text} {a b : σ} {s : Statement}

theorem hasWord_from_of_run (h : (read ids sql).run a = (.ok s, b)) (hkind : s.kind = .select)
    (htables : s.query.tables.length = s.query.joins.length + 1) : HasWord "FROM".toList sql := by
  obtain ⟨body, hbody, ctes, unions, own, a₁, b₁, hown, rfl⟩ := exists_body_of_select h hkind
  exact hbody.hasWord (by decide) (Select.hasWord_from_of_read hown htables)

theorem hasWord_limit_of_run (h : (read ids sql).run a = (.ok s, b)) (hkind : s.kind = .select)
    (hlimit : s.query.limit.isSome) : HasWord "LIMIT".toList sql ∨ HasWord "FETCH".toList sql := by
  obtain ⟨body, hbody, ctes, unions, own, a₁, b₁, hown, rfl⟩ := exists_body_of_select h hkind
  exact (Select.hasWord_limit_of_read hown hlimit).imp (hbody.hasWord (by decide))
    (hbody.hasWord (by decide))

theorem hasWord_where_of_run (h : (read ids sql).run a = (.ok s, b)) (hkind : s.kind ≠ .select)
    (hfilters : s.query.filters.isSome) : HasWord "WHERE".toList sql := by
  obtain ⟨body, hbody, ctes, changed, hchanged, hs⟩ := exists_body_of_change h hkind
  rw [hs] at hfilters
  exact hbody.hasWord (by decide) (Change.holdsWhere_of_read hchanged hfilters).hasWord

end Statement

namespace Lint

/-- A remark whose keyword stands in the text is not made, neither as an error nor as a warning. -/
theorem message_not_mem_of_hasWord {r : Remark} {sql : Text}
    (h : ∃ k ∈ r.wanted, HasWord k.toList sql) :
    r.message ∉ (errors sql).map (·.message) ∧ r.message ∉ messages sql := by
  obtain ⟨k, hk, hword⟩ := h
  have silent : r ∉ remarks sql := fun hmem => wanted_of_mem_remarks hmem k hk hword
  rw [messages, List.mem_map_of_injective Remark.message_injective,
    List.mem_map_of_injective Remark.message_injective]
  exact ⟨fun hmem => silent (List.mem_of_mem_filter hmem),
    fun hmem => silent (List.mem_of_mem_filter hmem)⟩

/-- What was read of a statement is not said to be missing: the table of a `SELECT`, its limit of
rows, or the filter of an update or a deletion. -/
theorem silent_of_run {σ : Type} {ids : IdSource σ} {sql : Text} {a b : σ} {s : Statement}
    (h : (Statement.read ids sql).run a = (.ok s, b)) :
    (s.kind = .select → s.query.tables.length = s.query.joins.length + 1 →
      Remark.missingFrom.message ∉ (errors sql).map (·.message)) ∧
    (s.kind = .select → s.query.limit.isSome → Remark.noRowLimit.message ∉ messages sql) ∧
    (s.kind = .update ∨ s.kind = .delete → s.query.filters.isSome →
      ∀ keyword, (Remark.unfiltered keyword).message ∉ messages sql) := by
  refine ⟨fun hkind htables => ?_, fun hkind hlimit => ?_, fun hkind hfilters keyword => ?_⟩
  · have found := Statement.hasWord_from_of_run h hkind htables
    exact (message_not_mem_of_hasWord ⟨"FROM", by decide, found⟩).1
  · rcases Statement.hasWord_limit_of_run h hkind hlimit with found | found
    · exact (message_not_mem_of_hasWord ⟨"LIMIT", by decide, found⟩).2
    · exact (message_not_mem_of_hasWord ⟨"FETCH", by decide, found⟩).2
  · have change : s.kind ≠ .select := by
      intro hselect
      rw [hselect] at hkind
      simp at hkind
    have found := Statement.hasWord_where_of_run h change hfilters
    exact (message_not_mem_of_hasWord ⟨"WHERE", List.mem_singleton_self _, found⟩).2

/-- A page behind common tables and in parentheses, and a deletion with a filter. -/
theorem silent_of_run_enclosed :
    (∃ s, Statement.parse "WITH x AS (SELECT 1) (SELECT a FROM t JOIN u ON t.a = u.a LIMIT 3);" 1 =
      .ok s ∧
      s.kind = .select ∧ s.query.tables.length = s.query.joins.length + 1 ∧ s.query.limit.isSome ∧
      Remark.missingFrom.message ∉
        (errors "WITH x AS (SELECT 1) (SELECT a FROM t JOIN u ON t.a = u.a LIMIT 3);".toList).map
        (·.message) ∧
      Remark.noRowLimit.message ∉
        messages "WITH x AS (SELECT 1) (SELECT a FROM t JOIN u ON t.a = u.a LIMIT 3);".toList) ∧
    ∃ s, Statement.parse "DELETE FROM t WHERE a = 1" 1 = .ok s ∧ s.kind = .delete ∧
    s.query.filters.isSome ∧
      (Remark.unfiltered "DELETE").message ∉ messages "DELETE FROM t WHERE a = 1".toList := by
  have page :
      (Statement.parse "WITH x AS (SELECT 1) (SELECT a FROM t JOIN u ON t.a = u.a LIMIT 3);"
        1).toOption.map
        (fun s => (s.kind, s.query.tables.length, s.query.joins.length, s.query.limit)) =
          some (.select, 2, 1, some 3) := by
    decide +kernel
  have deletion : (Statement.parse "DELETE FROM t WHERE a = 1" 1).toOption.map
      (fun s => (s.kind, s.query.filters.isSome)) = some (.delete, true) := by
    decide +kernel
  obtain ⟨s, hs, hfound⟩ := Option.map_eq_some_iff.mp page
  obtain ⟨s', hs', hfound'⟩ := Option.map_eq_some_iff.mp deletion
  simp only [Prod.mk.injEq] at hfound hfound'
  obtain ⟨hkind, htables, hjoins, hlimit⟩ := hfound
  obtain ⟨hkind', hfilters⟩ := hfound'
  have count : s.query.tables.length = s.query.joins.length + 1 := by rw [htables, hjoins]
  have limited : s.query.limit.isSome := by
    rw [hlimit]
    rfl
  obtain ⟨quiet, quiet', -⟩ := silent_of_run (Statement.run_of_parse (eq_ok_of_toOption hs))
  obtain ⟨-, -, quiet''⟩ := silent_of_run (Statement.run_of_parse (eq_ok_of_toOption hs'))
  exact ⟨⟨s, eq_ok_of_toOption hs, hkind, count, limited, quiet hkind count, quiet' hkind limited⟩,
    s', eq_ok_of_toOption hs', hkind', hfilters, quiet'' (.inr hkind') hfilters "DELETE"⟩

end Lint

end SqlCanvas
