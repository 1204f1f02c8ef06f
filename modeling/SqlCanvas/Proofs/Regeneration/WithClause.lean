import SqlCanvas.Proofs.Nesting.Balance
import SqlCanvas.Proofs.Regeneration.Nested
import SqlCanvas.Proofs.Statement.Terminator

/-!
# Peeling a `WITH` clause

The queries of a `WITH` clause are found again in the clause that is written of them, whatever
stands in them and whatever statement is behind. In any other text the reader of the clause stops as
well: each entry takes characters, and the statement is what is left at the end of the text.
-/

namespace SqlCanvas

open Text Nesting

theorem length_splitCommonTables_le (t : Text) :
    (splitCommonTables t).1.length + (splitCommonTables t).2.length ≤ t.length := by
  fun_induction splitCommonTables t with
  | case1 => simp
  | case2 => simp
  | case3 t m hm opening length hl own rest hc =>
    have := (closingParen?_lt hl).2
    simp only [rest, List.length_drop, List.length_singleton] at *
    omega
  | case4 t m hm opening length hl own rest comma hc entries rest' heq ih =>
    have := (closingParen?_lt hl).2
    rw [heq] at ih
    simp only [rest, List.length_drop, List.length_cons] at *
    omega

theorem length_splitWith_le (t : Text) :
    (splitWith t).tables.length + (splitWith t).rest.length ≤ t.length := by
  rw [splitWith]
  split
  · simp
  · rename_i m hm
    have := length_splitCommonTables_le (t.drop m.stop)
    rw [List.length_drop] at this
    simp only
    omega

namespace Query

/-- A `WITH` clause by the names and the texts of its queries. -/
def withClauseSql (recursive : Bool) (entries : List (String × String)) : String :=
  (if recursive then "WITH RECURSIVE " else "WITH ") ++
    ",\n".intercalate (entries.map fun x => commonTableSql x.1 x.2)

theorem tablesSql_eq_map {d : Dialect} {cs : List (CommonTable Query)} {bodies : List String}
    (h : tablesSql d cs = .ok bodies) : ∃ entries : List (String × String),
      List.Forall₂ (fun c x => x.1 = c.name ∧ c.query.sql d = .ok x.2) cs entries ∧
        bodies = entries.map fun x => commonTableSql x.1 x.2 := by
  induction cs generalizing bodies with
  | nil =>
    cases h
    exact ⟨[], .nil, rfl⟩
  | cons c cs ih =>
    obtain ⟨name, query, recursive⟩ := c
    rw [tablesSql] at h
    obtain ⟨body, hbody, h⟩ := exists_of_bind_eq_ok h
    obtain ⟨rest, hrest, h⟩ := exists_of_bind_eq_ok h
    cases h
    obtain ⟨entries, hentries, rfl⟩ := ih hrest
    exact ⟨(name, body) :: entries, .cons ⟨rfl, hbody⟩ hentries, rfl⟩

/-- What is written in front of a query with common tables is such a clause. -/
theorem exists_withClauseSql {d : Dialect} {cs : List (CommonTable Query)} {lines : List String}
    (hne : cs ≠ []) (h : optionalTables d (some cs) = .ok lines) :
    ∃ entries : List (String × String),
      List.Forall₂ (fun c x => x.1 = c.name ∧ c.query.sql d = .ok x.2) cs entries ∧
        lines = [withClauseSql (cs.any (·.recursive)) entries] := by
  rw [optionalTables] at h
  obtain ⟨bodies, hbodies, h⟩ := exists_of_bind_eq_ok h
  cases h
  obtain ⟨entries, hentries, rfl⟩ := tablesSql_eq_map hbodies
  have some_entry : entries ≠ [] := by
    rintro rfl
    exact hne (List.forall₂_nil_right_iff.mp hentries)
  refine ⟨entries, hentries, ?_⟩
  rw [if_neg (by simpa using some_entry)]
  rfl

def writtenEntry (x : String × String) (h : IsName x.1.toList ∧ Closed x.2.toList) : Entry where
  name := x.1.toList
  isName := h.1
  inside := '\n' :: (x.2.toList ++ ['\n'])
  closed := .plain (by decide) (h.2.append (.plain (by decide) .nil))
  before := .space
  keyword := .capital "AS" WrittenAlias.isKeyword_as
  after := .space
  apart := .line

theorem text_writtenEntry (x : String × String) (h : IsName x.1.toList ∧ Closed x.2.toList) :
    (writtenEntry x h).text = (commonTableSql x.1 x.2).toList := by
  rw [toList_commonTableSql]
  simp [writtenEntry, Entry.text, Entry.front, Spelling.capital, Gap.space]

/-- The clause with the gap behind its last entry, as the text that the reader of entries is
about. -/
theorem withText_writtenEntries (recursive : Bool) {x : String × String}
    {xs : List (String × String)} (hx : IsName x.1.toList ∧ Closed x.2.toList)
    (hxs : ∀ x ∈ xs, IsName x.1.toList ∧ Closed x.2.toList) (last : Gap) :
    withText recursive (writtenEntry x hx) (xs.pmap writtenEntry hxs) { last := last } =
      (withClauseSql recursive (x :: xs)).toList ++ last.text := by
  have apart : ∀ e ∈ xs.pmap writtenEntry hxs, e.apart = .line := by
    intro e he
    obtain ⟨x', -, -, rfl⟩ := List.mem_pmap.mp he
    rfl
  have texts : (xs.pmap writtenEntry hxs).map Entry.text =
      xs.map fun x => (commonTableSql x.1 x.2).toList := by
    rw [List.map_pmap, ← List.pmap_eq_map hxs]
    exact List.pmap_congr_left xs fun x _ h _ => text_writtenEntry x h
  rw [withText, entriesText_lines _ apart, List.map_cons, text_writtenEntry, texts, withClauseSql,
    String.toList_append, String.toList_intercalate, List.map_map]
  cases recursive <;> simp [recursionTokens, Spelling.capital, Gap.space, Function.comp_def]

/-- Peeling off a `WITH` clause undoes writing it, such a clause is what is written of common
tables, and peeling comes to an end on every text. -/
theorem splitWith_withClauseSql :
    (∀ (recursive : Bool) (entries : List (String × String)) (r : Text), entries ≠ [] →
      (∀ x ∈ entries, IsName x.1.toList ∧ ¬ Spells "RECURSIVE".toList x.1.toList ∧
        Closed x.2.toList) →
      r.trimStart.head? ≠ some ',' →
      splitWith ((withClauseSql recursive entries).toList ++ '\n' :: r) =
        ⟨entries.map fun x => (x.1.toList, '\n' :: (x.2.toList ++ ['\n'])), recursive, '\n' :: r⟩) ∧
    (∀ (d : Dialect) (cs : List (CommonTable Query)) (lines : List String), cs ≠ [] →
      optionalTables d (some cs) = .ok lines → ∃ entries : List (String × String),
        List.Forall₂ (fun c x => x.1 = c.name ∧ c.query.sql d = .ok x.2) cs entries ∧
          lines = [withClauseSql (cs.any (·.recursive)) entries]) ∧
    ∀ t, (splitWith t).rest <:+ t ∧ (splitWith t).tables.length + (splitWith t).rest.length ≤
      t.length := by
  refine ⟨fun recursive entries r hne hentries hcomma => ?_, fun d cs lines => exists_withClauseSql,
    fun t => ⟨rest_splitWith_isSuffix t, length_splitWith_le t⟩⟩
  obtain ⟨x, xs, rfl⟩ := List.exists_cons_of_ne_nil hne
  have hx : IsName x.1.toList ∧ Closed x.2.toList :=
    (hentries x List.mem_cons_self).imp_right And.right
  have hxs : ∀ x ∈ xs, IsName x.1.toList ∧ Closed x.2.toList :=
    fun x hx => (hentries x (List.mem_cons_of_mem _ hx)).imp_right And.right
  have free := (hentries x List.mem_cons_self).2.1
  -- The blanks in front of the statement are the end of the gap behind the last entry.
  have blank : ∀ c ∈ '\n' :: r.takeWhile isBlank, isBlank c = true :=
    List.forall_mem_cons.mpr ⟨by decide, fun c hc => List.all_eq_true.mp List.all_takeWhile c hc⟩
  let last : Gap := ⟨'\n' :: r.takeWhile isBlank, List.cons_ne_nil _ _, blank⟩
  have whole : (withClauseSql recursive (x :: xs)).toList ++ '\n' :: r =
      withText recursive (writtenEntry x hx) (xs.pmap writtenEntry hxs) { last := last } ++
        r.trimStart := by
    rw [withText_writtenEntries, List.append_assoc, List.cons_append, trimStart,
      List.takeWhile_append_dropWhile]
  have rest : last.text ++ r.trimStart = '\n' :: r := by
    rw [List.cons_append, trimStart, List.takeWhile_append_dropWhile]
  have cuts : (xs.pmap writtenEntry hxs).map Entry.cut =
      xs.map fun x => (x.1.toList, '\n' :: (x.2.toList ++ ['\n'])) := by
    rw [List.map_pmap, ← List.pmap_eq_map hxs]
    rfl
  rw [whole, splitWith_withText (fun _ => free) _ _ (halts_trimStart r) hcomma, rest,
    List.map_cons, cuts]
  rfl

/-- Parentheses in quotes, a `WITH` clause of its own and an empty text are peeled off as they
are. -/
theorem splitWith_withClauseSql_nested :
    let entries := [("a", "WITH b AS (\nSELECT ')' FROM t\n)\nSELECT * FROM b"), ("c", "")]
    splitWith ((withClauseSql true entries).toList ++ '\n' :: " SELECT x FROM a, c".toList) =
        ⟨entries.map fun x => (x.1.toList, '\n' :: (x.2.toList ++ ['\n'])), true,
          '\n' :: " SELECT x FROM a, c".toList⟩ ∧
      (splitWith "WITH a AS (SELECT 1), ".toList).rest <:+ "WITH a AS (SELECT 1), ".toList := by
  refine ⟨splitWith_withClauseSql.1 true _ _ (List.cons_ne_nil _ _) ?_ (by decide),
    (splitWith_withClauseSql.2.2 _).1⟩
  refine List.forall_mem_cons.mpr ⟨?_, List.forall_mem_singleton.mpr ?_⟩
  · exact ⟨⟨by decide, by decide⟩, fun h => absurd h.length_eq (by decide), by decide⟩
  · exact ⟨⟨by decide, by decide⟩, fun h => absurd h.length_eq (by decide), by decide⟩

end Query

end SqlCanvas
