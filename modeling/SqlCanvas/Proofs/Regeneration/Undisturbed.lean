import SqlCanvas.Proofs.Regeneration.Lines

/-!
# Undisturbed queries

Names and expressions are written as they are, so any of them may hold a word that starts a clause.
A query is undisturbed when none does: its own text is then a `SELECT` of which the head, the table
behind `FROM` and the clauses are found again, and so are the limits of rows. Which words these are
depends on the place: in the select list those of `columnKeywords`, everywhere behind it those of
`bodyKeywords`.
-/

namespace SqlCanvas

open Text Nesting Pattern

/-- No piece of the query holds a word at its top level at which the text would be cut, and quotes
and parentheses are closed in each. Of the common tables only the latter is asked, and of the
operands of set operations nothing. -/
structure Query.Undisturbed (q : Query) (d : Dialect) : Prop where
  anchor : ∀ t ∈ q.tables.head?, IsQuietFor bodyKeywords t.name.toList ∧
    ∀ a ∈ t.aliasName, IsQuietFor bodyKeywords a.toList
  columns : ∀ c ∈ q.selectedColumns, IsQuietFor columnKeywords (c.sql q.tables).toList
  joins : ∀ j ∈ q.joins, ∀ s ∈ j.sql? q.tables, IsQuietFor bodyKeywords s.toList
  filters : ∀ f ∈ q.filters, ∀ s ∈ f.sql? q.tables, IsQuietFor bodyKeywords s.toList
  groups : ∀ g ∈ q.groupBy, ∀ c ∈ g.columns,
    IsQuietFor bodyKeywords (qualifiedColumn q.tables c.tableId c.columnName).toList
  having : ∀ g ∈ q.groupBy, ∀ s ∈ g.havingSql? q.tables, IsQuietFor bodyKeywords s.toList
  orders : ∀ os ∈ q.orderBy, ∀ o ∈ os, IsQuietFor bodyKeywords (o.sql q.tables).toList
  ctes : ∀ cs ∈ q.ctes, ∀ c ∈ cs,
    IsIdentifier c.name ∧ ∀ body, c.query.sql d = .ok body → Closed body.toList

theorem IsQuietFor.commaList {keywords : List String} {items : List String} (hne : items ≠ [])
    (h : ∀ s ∈ items, IsQuietFor keywords s.toList) :
    IsQuietFor keywords (commaList items).toList := by
  rw [toList_commaList]
  refine intercalate_comma (by simpa using hne) (List.forall_mem_map.mpr h)

/-- The table has a name in one or two parts and a word for its alias, as every table that is read
has. -/
structure TableRef.IsWorded (t : TableRef) : Prop where
  name : Filter.IsReference t.name.toList
  aliasName : ∀ a ∈ t.aliasName, IsName a.toList

theorem TableRef.IsWorded.exists_quiet {t : TableRef} (h : t.IsWorded)
    (hname : IsQuietFor bodyKeywords t.name.toList)
    (halias : ∀ a ∈ t.aliasName, IsQuietFor bodyKeywords a.toList) :
    ∃ w : QuietTable, textOf w.tokens = t.sql.toList := by
  obtain ⟨name, aliasName⟩ := h
  obtain ⟨ts, hts, quiet⟩ := hname
  cases ha : t.aliasName with
  | none =>
    refine ⟨⟨ts, quiet, hts ▸ name, none, nofun, nofun⟩, ?_⟩
    simp [QuietTable.tokens, QuietTable.aliasTokens, TableRef.sql, withAlias, ha, nonempty?, hts]
  | some a =>
    have isName := aliasName a ha
    obtain ⟨us, hus, quietAlias⟩ := halias a ha
    refine ⟨⟨ts, quiet, hts ▸ name, some us, by rintro _ ⟨⟩; exact quietAlias,
      by rintro _ ⟨⟩; exact hus ▸ isName⟩, ?_⟩
    have hne : a ≠ "" := by
      rintro rfl
      exact isName.1 rfl
    simp [QuietTable.tokens, QuietTable.aliasTokens, QuietTable.asToken, TableRef.sql, withAlias,
      ha, nonempty?, hts, hus, hne, Spelling.capital, Gap.space]

/-- The line of a join starts with a word that is no alias of the table in front of it. -/
theorem Join.exists_lead {j : Join} {tables : List TableRef} {s : String}
    (h : j.sql? tables = some s) :
    ∃ k ∈ continuations, ∃ w v, s.toList = w ++ ' ' :: v ∧ Spells k.toList w := by
  have lead : ∃ k ∈ continuations, (Vocabulary.spelling j.kind ++ " JOIN ").toList =
      k.toList ++
        ' ' :: (Vocabulary.spelling j.kind ++ " JOIN ").toList.drop (k.toList.length + 1) := by
    cases j.kind <;> decide
  obtain ⟨k, hk, hlead⟩ := lead
  obtain ⟨source, -, h⟩ := Option.bind_eq_some_iff.mp h
  obtain ⟨target, -, h⟩ := Option.bind_eq_some_iff.mp h
  obtain ⟨rest, rfl⟩ : ∃ rest, s = Vocabulary.spelling j.kind ++ " JOIN " ++ rest := by
    obtain rfl := Option.some.inj h
    exact ⟨_, String.append_assoc⟩
  refine ⟨k, hk, k.toList,
    (Vocabulary.spelling j.kind ++ " JOIN ").toList.drop (k.toList.length + 1) ++ rest.toList,
    ?_, spells_self⟩
  rw [String.toList_append]
  exact (congrArg (· ++ rest.toList) hlead).trans (List.append_assoc k.toList (_ :: _) rest.toList)

namespace Query.Undisturbed

variable {q : Query} {d : Dialect} (h : q.Undisturbed d)
include h

theorem exists_columns : ∃ ts, Quiet columnKeywords ts ∧ q.selectLine.toList =
    "SELECT ".toList ++
      (if q.distinct && !q.selectedColumns.isEmpty then "DISTINCT ".toList else []) ++
      textOf ts := by
  by_cases hne : q.selectedColumns = []
  · have star : IsMark '*' := by decide
    refine ⟨[.mark '*' star], .singleton rfl (by decide : '*' ≠ ';'), ?_⟩
    simp [selectLine, hne, Token.text]
  · obtain ⟨ts, hts, hquiet⟩ := IsQuietFor.commaList (List.map_eq_nil_iff.not.mpr hne)
      (List.forall_mem_map.mpr h.columns)
    refine ⟨ts, hquiet, ?_⟩
    rw [selectLine, if_neg (by simpa using hne), hts]
    cases q.distinct <;> simp [hne]

theorem exists_join_lines : ∃ ls : List (List Token),
    textOf (lineTokens ls) = textOfLines (q.joins.filterMap (·.sql? q.tables)) ∧
      (∀ l ∈ ls, Quiet bodyKeywords l) ∧
        ∀ l ∈ ls, ∃ k ∈ continuations, ∃ w v, textOf l = w ++ ' ' :: v ∧ Spells k.toList w := by
  have line (s : String) (hs : s ∈ q.joins.filterMap (·.sql? q.tables)) : ∃ l : List Token,
      textOf l = s.toList ∧ Quiet bodyKeywords l ∧
        ∃ k ∈ continuations, ∃ w v, textOf l = w ++ ' ' :: v ∧ Spells k.toList w := by
    obtain ⟨j, hj, hs⟩ := List.mem_filterMap.mp hs
    obtain ⟨l, htext, hquiet⟩ := h.joins j hj s hs
    refine ⟨l, htext, hquiet, ?_⟩
    rw [htext]
    exact Join.exists_lead hs
  obtain ⟨ls, hls⟩ := exists_forall₂ line
  have texts := map_eq_map_of_forall₂ hls (f := String.toList) (g := textOf) fun s l hl => hl.1.symm
  refine ⟨ls, ?_, ?_, ?_⟩
  · rw [textOf_lineTokens, textOfLines, ← List.flatMap_map, ← texts, List.flatMap_map]
  · intro l hl
    obtain ⟨s, -, -, hquiet, -⟩ := exists_of_forall₂_right hls l hl
    exact hquiet
  · intro l hl
    obtain ⟨s, -, -, -, hled⟩ := exists_of_forall₂_right hls l hl
    exact hled

omit h in
theorem exists_clause (words : List String) (hwords : IsPhrase words)
    (mem : words ∈ Select.clausePhrases) {text : Option String}
    (htext : ∀ s ∈ text, IsQuietFor bodyKeywords s.toList) : ∃ cs : WrittenClauses,
      textOf cs.tokens = textOfLines (text.map (" ".intercalate words ++ " " ++ ·)).toList ∧
        ∀ k, " ".intercalate words ≠ k → cs.body? k = none := by
  cases text with
  | none => exact ⟨[], rfl, fun _ _ => rfl⟩
  | some s =>
    obtain ⟨ts, hts, hquiet⟩ := htext s rfl
    refine ⟨[(.line, ⟨words, mem, .capital words hwords, .space, ts, hquiet.solid, hquiet.avoids⟩)],
      ?_, fun k hk => by rw [WrittenClauses.body?_cons, if_neg hk, WrittenClauses.body?_nil]⟩
    simp [WrittenClauses.tokens, WrittenClauses.blocks, WrittenClause.headTokens,
      WrittenClause.bodyTokens, Phrase.textOf_capital, textOfLines, Gap.line, Gap.space, hts]

theorem exists_group_clauses : ∃ cs : WrittenClauses, textOf cs.tokens = textOfLines q.groupLines ∧
    ∀ k ∈ ["LIMIT", "OFFSET", "FETCH"], cs.body? k = none := by
  cases hgroup : q.groupBy with
  | none =>
    exact ⟨[], by simp [groupLines, hgroup, textOfLines, WrittenClauses.tokens], fun _ _ => rfl⟩
  | some g =>
    have columns : ∀ s ∈ if g.columns.isEmpty then none else some (g.columnsSql q.tables),
        IsQuietFor bodyKeywords s.toList := by
      intro s hs
      split at hs
      · cases hs
      · rename_i hne
        obtain rfl := Option.some.inj hs
        exact .commaList (by simpa using hne) (List.forall_mem_map.mpr (h.groups g hgroup))
    obtain ⟨groups, hgroups, found⟩ := exists_clause ["GROUP", "BY"] (by decide) (by decide) columns
    obtain ⟨having, hhaving, found'⟩ := exists_clause ["HAVING"] (by decide) (by decide)
      (h.having g hgroup)
    refine ⟨groups ++ having, ?_, fun k hk => ?_⟩
    · rw [textOf_clauses_append, hgroups, hhaving, ← textOfLines_append, groupLines, hgroup]
      congr 1
      cases hne : g.columns.isEmpty <;> simp [GroupClause.lines, hne]
    · have : " ".intercalate ["GROUP", "BY"] ≠ k ∧ " ".intercalate ["HAVING"] ≠ k := by
        revert k
        decide
      rw [WrittenClauses.body?_append, found k this.1, found' k this.2]
      rfl

theorem exists_plain_clauses : ∃ cs : WrittenClauses,
    textOf cs.tokens = textOfLines (q.whereLine ++ q.groupLines ++ q.orderLine) ∧
      ∀ k ∈ ["LIMIT", "OFFSET", "FETCH"], cs.body? k = none := by
  have filter : ∀ s ∈ q.filters.bind (·.sql? q.tables), IsQuietFor bodyKeywords s.toList := by
    intro s hs
    obtain ⟨f, hf, hs⟩ := Option.bind_eq_some_iff.mp hs
    exact h.filters f hf s hs
  obtain ⟨order, horder, hline⟩ : ∃ order : Option String,
      (∀ s ∈ order, IsQuietFor bodyKeywords s.toList) ∧
        q.orderLine = (order.map ("ORDER BY " ++ ·)).toList := by
    cases ho : q.orderBy with
    | none => exact ⟨none, nofun, by simp [orderLine, ho]⟩
    | some os =>
      cases os with
      | nil => exact ⟨none, nofun, by simp [orderLine, ho]⟩
      | cons o os =>
        refine ⟨some (SqlCanvas.commaList ((o :: os).map (·.sql q.tables))), ?_,
          by simp [orderLine, ho]⟩
        rintro s ⟨⟩
        exact .commaList (by simp) (List.forall_mem_map.mpr (h.orders _ ho))
  obtain ⟨wheres, hwheres, found⟩ := exists_clause ["WHERE"] (by decide) (by decide) filter
  obtain ⟨groups, hgroups, foundGroups⟩ := h.exists_group_clauses
  obtain ⟨orders, horders, found'⟩ := exists_clause ["ORDER", "BY"] (by decide) (by decide) horder
  refine ⟨wheres ++ groups ++ orders, ?_, fun k hk => ?_⟩
  · rw [textOf_clauses_append, textOf_clauses_append, hwheres, hgroups, horders, textOfLines_append,
      textOfLines_append, hline]
    rfl
  · have : " ".intercalate ["WHERE"] ≠ k ∧ " ".intercalate ["ORDER", "BY"] ≠ k := by
      revert k
      decide
    rw [WrittenClauses.body?_append, WrittenClauses.body?_append, found k this.1, foundGroups k hk,
      found' k this.2]
    rfl

/-- The query by itself is a `SELECT` whose clauses about rows are those of its limits. -/
theorem exists_lined {anchor : TableRef} (hanchor : q.tables.head? = some anchor)
    (hworded : anchor.IsWorded) (hlimit : ∀ n ∈ q.limit, IsReadable n)
    (hoffset : ∀ n ∈ q.offset, IsReadable n) :
    ∃ (s : LinedSelect) (l : Option WrittenLimits),
      s.text = ("\n".intercalate (q.ownLines d anchor)).toList ∧
        s.distinct = (q.distinct && !q.selectedColumns.isEmpty) ∧
        (∀ k ∈ ["LIMIT", "OFFSET", "FETCH"],
          s.clauses.body? k = WrittenClauses.body? ((l.map WrittenLimits.clauses).getD []) k) ∧
        ((l.map WrittenLimits.value).getD ⟨none, none⟩).limit = q.limit ∧
        ((l.map WrittenLimits.value).getD ⟨none, none⟩).offset.filter (· ≠ 0) =
          (q.limit.bind fun _ => q.offset).filter (· ≠ 0) := by
  obtain ⟨columns, quiet, hselect⟩ := h.exists_columns
  obtain ⟨hname, halias⟩ := h.anchor anchor hanchor
  obtain ⟨table, htable⟩ := hworded.exists_quiet hname halias
  obtain ⟨ls, hls, hquiet, hled⟩ := h.exists_join_lines
  obtain ⟨cs, hcs, hplain⟩ := h.exists_plain_clauses
  obtain ⟨l, hl, hvalue, hvalue'⟩ := q.exists_row_limits d hlimit hoffset
  refine ⟨⟨q.distinct && !q.selectedColumns.isEmpty, columns, quiet, table, ls, hquiet, hled,
    cs ++ (l.map WrittenLimits.clauses).getD []⟩, l, ?_, rfl, fun k hk => ?_, hvalue, hvalue'⟩
  · have lines : q.ownLines d anchor = q.selectLine :: ("FROM " ++ anchor.sql) ::
        (q.joins.filterMap (·.sql? q.tables) ++
          ((q.whereLine ++ q.groupLines ++ q.orderLine) ++ q.limitLine d)) := by
      simp [ownLines]
    have source : '\n' :: ("FROM " ++ anchor.sql).toList = "\nFROM ".toList ++
        anchor.sql.toList := by
      rw [String.toList_append]
      rfl
    rw [LinedSelect.text_eq, htable, hls, textOf_clauses_append, hcs, ← hl, ← textOfLines_append,
      ← textOfLines_append, lines, toList_lines, hselect, List.flatMap_cons, source,
        List.append_assoc]
    rfl
  · rw [WrittenClauses.body?_append, hplain k hk]
    rfl

end Query.Undisturbed

end SqlCanvas
