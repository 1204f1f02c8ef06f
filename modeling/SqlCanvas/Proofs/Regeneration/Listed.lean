import SqlCanvas.Proofs.Nesting.Unbroken
import SqlCanvas.Proofs.Query.Writing
import SqlCanvas.Proofs.Regeneration.Part
import SqlCanvas.Proofs.Statement.Remainder

/-!
# Lists in front of one table

A `SELECT` that consists of a list and of a table behind `FROM`. Of the list no more is asked than
that no word at its top level cuts it; there may be semicolons in it, and what its items are is left
open. `ListedSelect.parse_text` says what is read, once it is known what the list is read as.
-/

namespace SqlCanvas

open Text Nesting Pattern

def listKeywords : List String :=
  ["FROM", "UNION", "INTERSECT", "EXCEPT"]

theorem Outline.of_clear {ts : List Token} (hts : Clear setKeywords ts) (s : Spelling "SELECT")
    {r : Text} (htext : textOf ts = s.text ++ r) (hr : Halts Text.isWord r)
    (hlast : ∀ c ∈ (textOf ts).getLast?, c ≠ ';') :
    Outline.of (textOf ts) = .mk [] false "SELECT".toList (textOf ts) [] := by
  have start : (textOf ts).trimStart = textOf ts := by
    have := hts.solid.halts_isBlank []
    rw [List.append_nil] at this
    exact trimStart_of_halts this
  have stripped : stripTerminator (textOf ts) = textOf ts := by
    have := stripTerminator_append hts.solid.textOf_ne_nil
      (fun c hc => ⟨hts.solid.last_not_isBlank c hc, hlast c hc⟩) []
    rw [List.append_nil, start] at this
    exact this.trans (List.append_nil _)
  have uncut : splitSetOperations (textOf ts) = (textOf ts, []) := by
    have skipped :=
      skips_of_misses (b := none) isSearchable_setOperation.shy startsWith_setOperation.ledBy
        hts.solid.chain hts.solid.last (fun a ha => (hts.misses a ha).mono (by decide))
          (halts_nil _)
    have none := findTopLevel?_of_skips skipped
    rw [findTopLevel?, List.head?_eq_none_iff] at none
    rw [splitSetOperations, none]
    rfl
  have whole : (textOf ts).stripParens = textOf ts := by
    refine hts.solid.stripParens ?_
    rw [htext]
    exact WrittenStatement.head_ne_paren s.isName r
  have keyword : firstKeyword? (textOf ts) = some "SELECT".toList := by
    rw [htext]
    exact firstKeyword?_select (g := []) (List.forall_mem_nil _) s hr
  have unled : splitWith (textOf ts) = ⟨[], false, textOf ts⟩ := by
    rw [htext, splitWith_select]
  rw [Outline.of_eq, stripped, unled]
  simp only [keyword, Option.getD_some, if_true, uncut, whole, List.map_nil]

structure ListedSelect where
  mark : Option (Spelling "DISTINCT" × Gap)
  columns : List Token
  clear : Clear listKeywords columns
  /-- Without the mark the list does not start like one. -/
  unmarked : mark = none → ∀ b r, Halts Text.isWord r →
    ((word "DISTINCT").seq blank).Refuses b (textOf columns ++ r)
  table : Ident

namespace ListedSelect

def select : Spelling "SELECT" :=
  .capital "SELECT" isKeyword_select

def source : Spelling "FROM" :=
  .capital "FROM" isKeyword_from

def tableName (s : ListedSelect) : Dotted :=
  ⟨s.table, []⟩

theorem short_tableName (s : ListedSelect) : s.tableName.rest.length ≤ 1 :=
  Nat.zero_le 1

def writtenTable (s : ListedSelect) : WrittenTable :=
  ⟨s.tableName, s.short_tableName, none⟩

def headTokens (s : ListedSelect) : List Token :=
  select.token :: Gap.space.token :: Select.markTokens s.mark

def sourceTokens (s : ListedSelect) : List Token :=
  [source.token, Gap.space.token, s.table.token]

def tokens (s : ListedSelect) : List Token :=
  s.headTokens ++ s.columns ++ Gap.space.token :: s.sourceTokens

def text (s : ListedSelect) : Text :=
  textOf s.tokens

theorem solid_listed (s : ListedSelect) : Solid (s.headTokens ++ s.columns) := by
  obtain ⟨mark, columns, clear, -⟩ := s
  cases mark with
  | none => exact select.solid.spaced clear.solid .space
  | some d => exact select.solid.spaced (d.1.solid.spaced clear.solid d.2) .space

theorem misses_listed (s : ListedSelect) :
    ∀ a ∈ s.headTokens ++ s.columns, a.Misses listKeywords := by
  obtain ⟨mark, columns, clear, -⟩ := s
  refine List.forall_mem_append.mpr
    ⟨List.forall_mem_cons.mpr ⟨?_, List.forall_mem_cons.mpr ⟨trivial, ?_⟩⟩, clear.misses⟩
  · exact (select.avoids (by decide)).misses
  · cases mark with
    | none => exact List.forall_mem_nil _
    | some d =>
      exact List.forall_mem_cons.mpr ⟨(d.1.avoids (by decide)).misses,
        List.forall_mem_singleton.mpr trivial⟩

theorem clear_tokens (s : ListedSelect) : Clear setKeywords s.tokens where
  solid := s.solid_listed.spaced (source.solid.spaced s.table.solid .space) .space
  misses := by
    refine List.forall_mem_append.mpr ⟨fun a ha => (s.misses_listed a ha).mono (by decide), ?_⟩
    refine List.forall_mem_cons.mpr ⟨trivial,
      List.forall_mem_cons.mpr ⟨?_, List.forall_mem_cons.mpr ⟨trivial, ?_⟩⟩⟩
    · exact (source.avoids (by decide)).misses
    · exact List.forall_mem_singleton.mpr (s.table.avoids (by decide)).misses

theorem text_eq (s : ListedSelect) :
    s.text = textOf (s.headTokens ++ s.columns) ++ Gap.space.text ++
    (source.text ++ (Gap.space.text ++ textOf s.writtenTable.tokens)) := by
  simp [text, tokens, sourceTokens, writtenTable, tableName, WrittenTable.tokens,
    WrittenTable.aliasTokens, Dotted.tokens]

theorem text_spelled (s : ListedSelect) :
    s.text = "SELECT ".toList ++ (textOf (Select.markTokens s.mark) ++
    textOf s.columns ++ (" FROM ".toList ++ s.table.text)) := by
  have spaced : s.text = select.text ++
    (Gap.space.text ++ (textOf (Select.markTokens s.mark) ++ textOf s.columns ++
      (Gap.space.text ++ (source.text ++ (Gap.space.text ++ s.table.text))))) := by
    simp [text, tokens, headTokens, sourceTokens]
  exact spaced

theorem outline_text (s : ListedSelect) :
    Outline.of s.text = .mk [] false "SELECT".toList s.text [] := by
  refine Outline.of_clear s.clear_tokens select
    (r := Gap.space.text ++
      textOf (Select.markTokens s.mark ++ s.columns ++ Gap.space.token :: s.sourceTokens))
    ?_ (Gap.space.isGap.halts_isWord _) ?_
  · simp [tokens, headTokens]
  · have last : s.text =
      textOf (s.headTokens ++ s.columns ++ [Gap.space.token, source.token, Gap.space.token]) ++
        s.table.text := by
      simp [text, tokens, sourceTokens]
    rintro c hc rfl
    change _ ∈ s.text.getLast? at hc
    rw [last, List.getLast?_append_of_ne_nil _ s.table.isName.1] at hc
    exact absurd (s.table.isName.2 _ (List.mem_of_mem_getLast? hc)) (by decide)

/-- The names in the list stand for the one table. -/
def scope (s : ListedSelect) (id : String) : Scope where
  lookup := Scope.empty.lookup.register s.table.text none id
  anchor := some id

def tables (s : ListedSelect) (id : String) : List TableRef :=
  [Select.newTable id s.table.text none]

def query (s : ListedSelect) (id : String) (columns : List SelectedColumn) : Query :=
  { Query.empty with
    tables := s.tables id
    selectedColumns := columns
    distinct := s.mark.isSome }

theorem table_scope (s : ListedSelect) (id : String) (q : Text) :
    (s.scope id).table q = some id := by
  change (((Scope.empty.lookup.register s.table.text none id).find? q).or (some id)) = some id
  cases h : (Scope.empty.lookup.register s.table.text none id).find? q with
  | none => rfl
  | some id' =>
    have : id' = id := by
      simp only [Lookup.register, Lookup.insert, Lookup.find?, Scope.empty] at h
      obtain ⟨x, hx, rfl⟩ := Option.map_eq_some_iff.mp h
      rcases List.mem_pair.mp (List.mem_of_find?_eq_some hx) with rfl | rfl <;> rfl
    rw [this]
    rfl

variable {σ : Type} (ids : IdSource σ)

theorem topLevelIn_end (t : Text) (p : Pattern) : t.topLevelIn p t.length t.length = [] := by
  have := Text.topLevelIn_eq p t [] []
  simpa [topLevelFrom] using this

/-- The list stands between the head of the statement and the place where its table is found. -/
theorem columnsText?_eq (s : ListedSelect) {m : Match} {o : Occurrence}
    (hstop : m.stop = (textOf s.headTokens).length)
    (hstart : o.start = (textOf (s.headTokens ++ s.columns) ++ Gap.space.text).length) :
    Select.columnsText? s.text (some m) (some o) = some (textOf s.columns) := by
  have sliced :=
    Text.slice_append (textOf s.headTokens) (textOf s.columns ++ Gap.space.text)
      (textOf s.sourceTokens)
  have whole : s.text = textOf s.headTokens ++
      (textOf s.columns ++ Gap.space.text ++ textOf s.sourceTokens) := by
    simp [text, tokens]
  have start : o.start =
      (textOf s.headTokens).length + (textOf s.columns ++ Gap.space.text).length := by
    rw [hstart]
    simp
  change some (s.text.slice m.stop o.start).trim = _
  rw [hstop, start, whole, sliced]
  exact congrArg some (s.clear.solid.trim (g := []) (List.forall_mem_nil _) Gap.space.isGap.2)

theorem exists_head (s : ListedSelect) : ∃ m, Select.selectHead.match? s.text = some m ∧
    m.stop = (textOf s.headTokens).length ∧ (m.capture? 1).isSome = s.mark.isSome := by
  have behind : Halts Text.isWord (Gap.space.text ++ textOf s.sourceTokens) :=
    Gap.space.isGap.halts_isWord _
  obtain ⟨m, hm, hstop, hmark⟩ := Select.exists_head select .space s.mark
    (s.clear.solid.halts_isBlank (Gap.space.text ++ textOf s.sourceTokens)) fun hnone b =>
      s.unmarked hnone b _ behind
  refine ⟨m, ?_, ?_, hmark⟩
  · rw [← hm]
    congr 1
    simp [text, tokens, headTokens]
  · rw [hstop]
    simp [headTokens]

theorem readAnchor_eq (s : ListedSelect) {o : Occurrence}
    (h₁ : o.captured 1 = s.writtenTable.name.text) (h₂ : o.capture? 2 = s.writtenTable.aliasText)
    (st : σ) :
    (Select.readAnchor ids (some o)).run st =
      (.ok ⟨s.tables (ids.next "table" st).1, [], s.scope (ids.next "table" st).1⟩,
        (ids.next "table" st).2) := by
  have name : s.writtenTable.name.text = s.table.text := by
    simp [writtenTable, tableName, Dotted.text, Dotted.tokens]
  simp only [Select.readAnchor, h₁, h₂, name]
  rfl

theorem readRest_eq (s : ListedSelect) {id : String} {columns : List SelectedColumn}
    (hstar : textOf s.columns ≠ ['*'])
    (h : Select.readColumns (s.scope id) (some (textOf s.columns)) = .ok columns)
    {o : Occurrence}
    (hstart : o.start = (textOf (s.headTokens ++ s.columns) ++ Gap.space.text).length) :
    Select.readRest s.text (some o) ⟨[], s.text.length⟩ ⟨s.tables id, [], s.scope id⟩ =
      .ok (s.query id columns) := by
  obtain ⟨m, head, hstop, hmark⟩ := s.exists_head
  have parts : Select.readParts (s.scope id) (some (textOf s.columns)) ⟨[], s.text.length⟩ =
      .ok ⟨columns, none, none, ⟨none, none⟩⟩ := by
    rw [Select.readParts, h]
    rfl
  have all : Select.tickedTables (some (textOf s.columns)) (s.tables id) = s.tables id :=
    if_neg (by simpa using hstar)
  rw [Select.readRest_eq, head]
  simp only [s.columnsText?_eq hstop hstart, parts, Except.map, Select.assemble, all,
    Option.bind_some, hmark]
  rfl

theorem read_text (s : ListedSelect) {columns : List SelectedColumn}
    (hstar : textOf s.columns ≠ ['*']) (st : σ)
    (h : Select.readColumns (s.scope (ids.next "table" st).1) (some (textOf s.columns)) =
      .ok columns) :
    (Select.read ids s.text).run st =
      (.ok (s.query (ids.next "table" st).1 columns), (ids.next "table" st).2) := by
  obtain ⟨o, ho, hstart, hstop, h₁, h₂⟩ := Select.exists_anchor s.solid_listed
    (fun a ha => (s.misses_listed a ha).mono (by decide)) .space source .space s.writtenTable .nil
  rw [List.append_nil, ← s.text_eq] at ho
  rw [← s.text_eq] at hstop
  have clauses : Select.splitClauses s.text s.text.length = ⟨[], s.text.length⟩ := by
    rw [Select.splitClauses, topLevelIn_end]
    rfl
  rw [Select.read, ho]
  simp only [Option.map_some, Option.getD_some, hstop, clauses, topLevelIn_end]
  rw [Reading.run_bind_ok (s.readAnchor_eq ids h₁ h₂ st)]
  change (Select.readRest _ _ _ _, _) = _
  rw [s.readRest_eq hstar h hstart]

theorem parse_text (s : ListedSelect) (hstar : textOf s.columns ≠ ['*']) (start : Int) :
    ∃ id, ∀ columns, Select.readColumns (s.scope id) (some (textOf s.columns)) = .ok columns →
      Statement.parse (String.ofList s.text) start =
        .ok (.ofQuery .select (Statement.complete .select [] [] (s.query id columns))) := by
  refine ⟨(IdSource.sequential.next "table" (.fresh start)).1, fun columns h => ?_⟩
  have own := s.read_text .sequential hstar (.fresh start) h
  have tables : (Statement.readTables IdSource.sequential false []).run (.fresh start) =
      (.ok [], .fresh start) :=
    rfl
  rw [Statement.parse, Statement.read, String.toList_ofList, s.outline_text,
    Statement.ofOutline_select, Reading.run_bind_ok tables, Reading.run_bind_ok own,
      Statement.readBranches]
  rfl

theorem sql_query (s : ListedSelect) (id : String) {columns : List SelectedColumn}
    (hne : columns ≠ []) (d : Dialect) :
    ∃ sql, (Statement.complete .select [] [] (s.query id columns)).sql d = .ok sql ∧ sql.toList =
      "SELECT ".toList ++ ((if s.mark.isSome then "DISTINCT ".toList else []) ++
        (", ".toList.intercalate (columns.map fun c => (c.sql (s.tables id)).toList) ++
          ("\nFROM ".toList ++ s.table.text))) := by
  have written : (Statement.complete .select [] [] (s.query id columns)).sql d =
      .ok ("\n".intercalate [(s.query id columns).selectLine,
        "FROM " ++ String.ofList s.table.text]) := by
    rw [Query.sql_eq]
    rfl
  refine ⟨_, written, ?_⟩
  have line : (s.query id columns).selectLine =
    (if s.mark.isSome then "SELECT DISTINCT " else "SELECT ") ++
      commaList (columns.map (·.sql (s.tables id))) :=
    if_neg (by simpa [query] using hne)
  rw [line, String.toList_intercalate]
  cases s.mark <;> simp [toList_commaList, List.map_map, Function.comp_def]

theorem exists_sql_column (s : ListedSelect) {id : String} {c : SelectedColumn}
    (htable : c.tableId = id) (hplain : c.expression = none) (hcall : c.aggregate = none) :
    ∃ r, (c.sql (s.tables id)).toList = s.table.text ++ r := by
  have found : findTable? (s.tables id) c.tableId =
      some (Select.newTable id s.table.text none) := by
    rw [htable]
    simp [findTable?, tables, Select.newTable]
  have body : c.bodySql (s.tables id) =
      (Select.newTable id s.table.text none).column c.columnName := by
    rw [SelectedColumn.bodySql, hplain, found, hcall]
    rfl
  have reference : (Select.newTable id s.table.text none).reference = String.ofList s.table.text :=
    rfl
  rw [SelectedColumn.sql, body, withAlias, TableRef.column, reference]
  cases nonempty? c.aliasName <;> simp

end ListedSelect

end SqlCanvas
