import SqlCanvas.Proofs.Change.Lead
import SqlCanvas.Proofs.Structure.Membership

/-!
# Insertions

Rows of values behind `INSERT INTO`, with or without the names of their columns. Each row is
sheltered by its parentheses and each string by its quotes, so the text comes apart into the cells
that were written.
-/

namespace SqlCanvas

open Text Nesting Pattern

def namesText (ns : List Name) : Text :=
  ", ".toList.intercalate (ns.map Name.text)

theorem exists_namesSeries {ns : List Name} (h : ns ≠ []) : ∃ x : Series CommaGap Name,
    textOf (x.tokens CommaGap.tokens fun n => [n.token]) = namesText ns ∧ x.items = ns := by
  refine ⟨.ofList .standard ns h, ?_, Series.items_ofList _ h⟩
  rw [textOf_ofList, CommaGap.textOf_standard, namesText]
  simp

theorem splitCommas_namesText (ns : List Name) : (namesText ns).splitCommas = ns.map Name.text := by
  by_cases h : ns = []
  · subst h
    rfl
  · obtain ⟨x, htext, hitems⟩ := exists_namesSeries h
    have part (n : Name) : Part Text.comma [n.token] :=
      part_comma n.solid (List.forall_mem_singleton.mpr trivial)
    rw [← htext, splitCommas, splitTopLevel_series shy_comma (fun s _ => s.separates) fun n _ =>
      part n, hitems]
    simp

theorem mem_namesText {ns : List Name} {c : Char} (h : c ∈ namesText ns) :
    isWord c = true ∨ c = ',' ∨ c = ' ' := by
  induction ns with
  | nil => cases h
  | cons n ns ih =>
    have first (hc : c ∈ n.text) : isWord c = true := n.isName.2 c hc
    cases ns with
    | nil => exact .inl (first (by simpa [namesText] using h))
    | cons n' ns =>
      rw [namesText, List.map_cons, List.map_cons, List.intercalate_cons_cons] at h
      rcases List.mem_append.mp h with h | h
      · rcases List.mem_append.mp h with h | h
        · exact .inl (first h)
        · exact .inr (by simpa using h)
      · exact ih h

theorem closed_namesText (ns : List Name) : Closed (namesText ns) := by
  refine closed_of_plain fun c hc => ?_
  rcases mem_namesText hc with hc | rfl | rfl
  · exact not_isSpecial_of_isWord hc
  · decide
  · decide

structure Row where
  values : List Scalar
  ne_nil : values ≠ []
  literals : ∀ v ∈ values, v.IsLiteral

namespace Row

variable (row : Row)

def text : Text :=
  '(' :: (listText row.values ++ [')'])

def token : Token :=
  .shelter row.text (.parens (closed_listText row.values))

@[simp] theorem token_text : row.token.text = row.text := rfl

theorem part : Part Text.comma [row.token] :=
  part_comma (.singleton rfl) (List.forall_mem_singleton.mpr trivial)

def cells : List Text :=
  row.values.map Scalar.sql

theorem splitCommas_text : row.text.stripParens.splitCommas = row.cells := by
  rw [text, stripParens_of_closed (closed_listText row.values), stripParens_listText,
    splitCommas_listText row.literals, cells]

theorem read_cells : row.cells.mapM Literal.read = .ok row.values := by
  rw [cells, ← splitCommas_listText row.literals]
  exact read_listText row.literals

end Row

def rowsTokens (rows : List Row) (h : rows ≠ []) : List Token :=
  (Series.ofList CommaGap.standard rows h).tokens CommaGap.tokens fun row => [row.token]

section Rows

variable {rows : List Row} (h : rows ≠ [])

theorem textOf_rowsTokens :
    textOf (rowsTokens rows h) = ", ".toList.intercalate (rows.map Row.text) := by
  rw [rowsTokens, textOf_ofList, CommaGap.textOf_standard]
  simp

theorem solid_rowsTokens : Solid (rowsTokens rows h) :=
  Series.solid (fun s _ _ _ hts hus => s.solid hts hus) fun row _ => row.part.solid

theorem avoids_rowsTokens : ∀ a ∈ rowsTokens rows h, a.Avoids [] := by
  intro a ha
  rcases Series.mem_tokens ha with ⟨s, -, ha⟩ | ⟨row, -, ha⟩
  · exact s.avoids [] a ha
  · rw [List.mem_singleton.mp ha]
    trivial

theorem splitCommas_rowsTokens : (textOf (rowsTokens rows h)).splitCommas = rows.map Row.text := by
  rw [rowsTokens, splitCommas,
    splitTopLevel_series shy_comma (fun s _ => s.separates) fun row _ => row.part,
      Series.items_ofList]
  simp

end Rows

structure WrittenInsertion where
  table : TableName
  columns : List Name
  rows : List Row
  rows_ne_nil : rows ≠ []

namespace WrittenInsertion

variable (w : WrittenInsertion)

def columnsText : Text :=
  if w.columns = [] then [] else ' ' :: '(' :: (namesText w.columns ++ [')'])

def sql : Text :=
  "INSERT INTO ".toList ++ w.table.text ++ w.columnsText ++ " VALUES ".toList ++
    ", ".toList.intercalate (w.rows.map Row.text)

/-- What is to be read: the names as they are, and the text of each cell. -/
def fragment : InsertFragment where
  table := String.ofList w.table.text
  columns := w.columns.map fun n => String.ofList n.text
  values := w.rows.map fun row => row.values.map fun v => String.ofList v.sql

def keyword : Spelling (Vocabulary.spelling StatementKind.insert) :=
  .capital "INSERT" (by decide)

def into : Spelling "INTO" :=
  .capital "INTO" (by decide)

def valuesKeyword : Spelling "VALUES" :=
  .capital "VALUES" (by decide)

def columnsTokens : List Token :=
  if w.columns = [] then []
  else [Gap.space.token,
    .shelter ('(' :: (namesText w.columns ++ [')'])) (.parens (closed_namesText w.columns))]

def tokens : List Token :=
  keyword.token :: Gap.space.token :: into.token :: Gap.space.token ::
    (w.table.tokens ++ (w.columnsTokens ++
    Gap.space.token :: valuesKeyword.token :: Gap.space.token :: rowsTokens w.rows w.rows_ne_nil))

theorem textOf_columnsTokens : textOf w.columnsTokens = w.columnsText := by
  rw [columnsTokens, columnsText]
  split
  · rfl
  · simp [Gap.space]

theorem textOf_tokens : textOf w.tokens = w.sql := by
  have front : "INSERT INTO ".toList = keyword.text ++ (' ' :: (into.text ++ [' '])) := by decide
  have middle : " VALUES ".toList = ' ' :: (valuesKeyword.text ++ [' ']) := by decide
  have space : Gap.space.text = [' '] := rfl
  unfold sql
  rw [front, middle, ← textOf_columnsTokens, ← textOf_rowsTokens w.rows_ne_nil, TableName.text]
  simp only [tokens, textOf_cons, textOf_append, Spelling.token_text, Gap.token_text, space,
    List.append_assoc, List.cons_append, List.nil_append]

theorem solid_behind_table {ts : List Token} (hts : Solid ts) :
    Solid (w.table.tokens ++ (w.columnsTokens ++ Gap.space.token :: ts)) := by
  rw [columnsTokens]
  split
  · exact w.table.solid.spaced hts .space
  · have list : Solid [Token.shelter _ (.parens (closed_namesText w.columns))] := .singleton rfl
    exact w.table.solid.spaced (list.spaced hts .space) .space

theorem solid : Solid w.tokens := by
  have values : Solid (valuesKeyword.token :: Gap.space.token :: rowsTokens w.rows w.rows_ne_nil) :=
    valuesKeyword.solid.spaced (solid_rowsTokens w.rows_ne_nil) .space
  exact keyword.solid.spaced (into.solid.spaced (w.solid_behind_table values) .space) .space

theorem avoids_nothing : ∀ a ∈ w.tokens, a.Avoids [] := by
  have word {k : String} (s : Spelling k) : s.token.Avoids [] := List.forall_mem_nil _
  have columns : ∀ a ∈ w.columnsTokens, a.Avoids [] := by
    rw [columnsTokens]
    split
    · exact List.forall_mem_nil _
    · exact List.forall_mem_cons.mpr ⟨trivial, List.forall_mem_singleton.mpr trivial⟩
  simp only [tokens, List.forall_mem_cons, List.forall_mem_append]
  exact ⟨word keyword, trivial, word into, trivial, w.table.avoids_nothing, columns, trivial,
    word valuesKeyword, trivial, avoids_rowsTokens w.rows_ne_nil⟩

/-- Between the table and the values stand the names of the columns, if there are any. -/
def columnsPattern : Pattern :=
  all [blanks, .maybe (all [.exactly '(', .capture 2 (.many (· != ')')), .exactly ')']), blanks]

theorem takes_columns {b : Option Char} {r : Text} (hr : Halts isBlank r)
    (hparen : r.head? ≠ some '(') :
    ∃ m : Marking, columnsPattern.Takes b (w.columnsText ++ [' ']) r m ∧
      m.find? 1 = none ∧ (m.find? 2).getD [] = namesText w.columns ∧ m.find? 3 = none := by
  have space {b : Option Char} {r : Text} (hr : Halts isBlank r) : blanks.Takes b [' '] r [] :=
    takes_blanks (List.forall_mem_singleton.mpr (by decide)) hr
  rw [columnsText]
  split
  · rename_i h
    have none {b : Option Char} : (Pattern.maybe (all [.exactly '(', .capture 2 (.many (· != ')')),
        .exactly ')'])).Takes b [] r [] :=
      takes_maybe_nothing ((refuses_exactly hparen).seq_left _)
    have last {b : Option Char} : (all [blanks]).Takes b [] r [] :=
      (takes_blanks (List.forall_mem_nil _) hr).all_last
    have whole : columnsPattern.Takes b ([' '] ++ ([] ++ [])) r [] :=
      .all_pass (space hr) (.all_pass none last)
    exact ⟨[], whole, rfl, by rw [h]; rfl, rfl⟩
  · have names : ∀ c ∈ namesText w.columns, (c != ')') = true := by
      intro c hc
      rcases mem_namesText hc with hc | rfl | rfl
      · rw [bne_iff_ne]
        rintro rfl
        exact absurd hc (by decide)
      · decide
      · decide
    have names {b : Option Char} :
        (Pattern.capture 2 (.many (· != ')'))).Takes b (namesText w.columns) (')' :: ' ' :: r)
          [(2, namesText w.columns)] :=
      (takes_many names (halts_cons.mpr (by decide))).capture 2
    have list {b : Option Char} :
        (all [.exactly '(', .capture 2 (.many (· != ')')), .exactly ')']).Takes b
          (['('] ++ (namesText w.columns ++ [')'])) (' ' :: r) [(2, namesText w.columns)] :=
      .all_pass (takes_exactly '(') (Takes.all_cons names (takes_exactly ')').all_last)
    have last {b : Option Char} : (all [blanks]).Takes b [' '] r [] := (space hr).all_last
    have whole : columnsPattern.Takes b ([' '] ++
      (['('] ++ (namesText w.columns ++ [')']) ++ [' '])) r
        [(2, namesText w.columns)] :=
      .all_pass (space (halts_cons.mpr (by decide))) (Takes.all_cons list.maybe last)
    exact ⟨_, whole.congr (by simp) rfl, rfl, rfl, rfl⟩

theorem takes_values {b : Option Char} {t : Text} (ht : Halts isBlank t) :
    (Pattern.maybe (all [word "VALUES", blanks, .capture 3 (.many anything)])).Takes b
      (valuesKeyword.text ++ ([' '] ++ t)) [] [(3, t)] := by
  have space {b : Option Char} : blanks.Takes b [' '] (t ++ []) [] :=
    takes_blanks (List.forall_mem_singleton.mpr (by decide)) (by simpa using ht)
  have rest {b : Option Char} : (Pattern.capture 3 (.many anything)).Takes b t [] [(3, t)] :=
    (takes_many (fun _ _ => rfl) (halts_nil _)).capture 3
  exact (Takes.all_pass (takes_word valuesKeyword.spells) (.all_pass space rest.all_last)).maybe

theorem takes_lead {r : Text} (hr : Halts Text.isWord r) (hdot : r.head? ≠ some '.') :
    (all [blanks, word "INSERT", blank, word "INTO", blank, .capture 1 identifier]).Takes none
      ([] ++ (keyword.text ++ ([' '] ++ (into.text ++ ([' '] ++ w.table.text))))) r
      [(1, w.table.text)] := by
  have space {b : Option Char} {t : Text} (ht : Halts isBlank t) : blank.Takes b [' '] t [] :=
    takes_blank Gap.space.isGap ht
  have start (t : Text) : blanks.Takes none [] (keyword.text ++ t) [] :=
    takes_blanks (List.forall_mem_nil _) (keyword.isName.halts_isBlank t)
  have intoHalts (t : Text) : Halts isBlank (into.text ++ t) := into.isName.halts_isBlank t
  have tableHalts : Halts isBlank (w.table.text ++ r) := w.table.solid.halts_isBlank r
  refine .all_pass (by simpa using start _) (.all_pass (takes_word keyword.spells) ?_)
  refine .all_pass (space (by simpa using intoHalts _)) (.all_pass (takes_word into.spells) ?_)
  exact .all_pass (space tableHalts) ((w.table.takes_identifier hr hdot).capture 1).all_last

theorem exists_columnsText : ∃ t, w.columnsText ++ [' '] = ' ' :: t := by
  rw [columnsText]
  split
  · exact ⟨[], rfl⟩
  · exact ⟨_, rfl⟩

theorem exists_match : ∃ m, Change.insertion.match? w.sql = some m ∧ m.captured 1 = w.table.text ∧
    m.captured 2 = namesText w.columns ∧
    m.captured 3 = textOf (rowsTokens w.rows w.rows_ne_nil) := by
  let rows := textOf (rowsTokens w.rows w.rows_ne_nil)
  let lead := [] ++ (keyword.text ++ ([' '] ++ (into.text ++ ([' '] ++ w.table.text))))
  let values := valuesKeyword.text ++ ([' '] ++ rows)
  have rowsHalt : Halts isBlank rows := by
    have := (solid_rowsTokens w.rows_ne_nil).halts_isBlank []
    rwa [List.append_nil] at this
  obtain ⟨t, ht⟩ := w.exists_columnsText
  obtain ⟨m, columns, h₁, h₂, h₃⟩ := w.takes_columns (b := lastChar none lead) (r := values ++ [])
    (valuesKeyword.isName.halts_isBlank _) (WrittenStatement.head_ne_paren valuesKeyword.isName _)
  have behind := columns.all_append (takes_values rowsHalt).all_last
  have front := w.takes_lead (r := w.columnsText ++ [' '] ++ values ++ [])
    (by rw [ht]; exact halts_cons.mpr (by decide)) (by rw [ht]; simp)
  have text : w.sql = lead ++ (w.columnsText ++ [' '] ++ values) ++ [] := by
    rw [← textOf_tokens]
    simp [tokens, textOf_columnsTokens, lead, values, rows, TableName.text, Gap.space]
  obtain ⟨found, hfound, -, hcapture⟩ := match?_start_of_takes (w := Change.insertion) rfl text
    (front.all_append behind)
  refine ⟨found, hfound, ?_, ?_, ?_⟩
  · simp [Match.captured, hcapture, h₁]
  · simpa [Match.captured, hcapture] using h₂
  · simp [Match.captured, hcapture, rows]

theorem readInsert?_sql : Change.readInsert? w.sql = some w.fragment := by
  obtain ⟨m, hm, h₁, h₂, h₃⟩ := w.exists_match
  rw [Change.readInsert?, hm]
  simp only [Option.pure_def, Option.bind_eq_bind, Option.bind_some, h₁, h₂, h₃,
    splitCommas_namesText, splitCommas_rowsTokens, Change.strings, List.map_map]
  congr 1
  rw [fragment]
  congr 1
  refine List.map_congr_left fun row _ => ?_
  rw [Function.comp_apply, row.splitCommas_text, Row.cells, List.map_map]
  rfl

/-- What is inserted comes back cell by cell: the statement has the table, the columns and as many
rows with as many cells as were written, each cell with the text of its value, and that text stands
for the value. -/
theorem parse_insertion (start : Int) :
    ∃ s, Statement.parse (String.ofList w.sql) start = .ok s ∧ s.kind = .insert ∧
    s.insertInto = some w.fragment ∧
      (w.fragment.values.mapM fun row => row.mapM fun cell => Literal.read cell.toList) =
        .ok (w.rows.map Row.values) := by
  refine ⟨{ Statement.ofQuery .insert (Statement.complete .insert [] [] .empty) with
      insertInto := some w.fragment }, ?_, rfl, rfl, ?_⟩
  · have text : w.sql = keyword.text ++ textOf (Gap.space.token :: into.token :: Gap.space.token ::
        (w.table.tokens ++
          (w.columnsTokens ++ Gap.space.token :: valuesKeyword.token :: Gap.space.token ::
          rowsTokens w.rows w.rows_ne_nil))) := w.textOf_tokens.symm
    have := Statement.parse_change .insert (by decide) keyword w.solid w.avoids_nothing
      (w.textOf_tokens.trans text) (Gap.space.isGap.halts_isWord _) start
    rw [textOf_tokens] at this
    rw [this, Change.read, readInsert?_sql]
    rfl
  · rw [fragment, List.mapM_map]
    refine mapM_of_forall₂ (R := Eq) (List.forall₂_same.mpr fun _ _ => rfl) ?_
    rintro row _ rfl
    rw [← row.read_cells, Row.cells, Function.comp_apply, List.mapM_map, List.mapM_map]
    simp only [Function.comp_def, String.toList_ofList]

def hardInsertion : WrittenInsertion where
  table := ⟨⟨"notes".toList, by decide⟩, none⟩
  columns := [⟨"id".toList, by decide⟩, ⟨"note".toList, by decide⟩]
  rows :=
    [⟨[.int (-3), .string "it's, ('"], by simp, by simpa using ⟨.int _ (by decide), .string _⟩⟩,
    ⟨[.null, .string ") VALUES (1"], by simp, by simpa using ⟨.null, .string _⟩⟩]
  rows_ne_nil := by simp

example : hardInsertion.sql =
    "INSERT INTO notes (id, note) VALUES (-3, 'it''s, ('''), (NULL, ') VALUES (1')".toList := by
  decide +kernel

end WrittenInsertion

end SqlCanvas
