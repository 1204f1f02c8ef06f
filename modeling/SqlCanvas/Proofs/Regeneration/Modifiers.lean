import SqlCanvas.Proofs.Regeneration.Restorable
import SqlCanvas.Proofs.Regeneration.Undisturbed
import SqlCanvas.Proofs.Statement.Body
import SqlCanvas.Proofs.Statement.Writable

/-!
# Limits and distinct rows of generated text

The text of an undisturbed query is cut into its common tables, its own `SELECT` and whatever
operands follow, and its own `SELECT` has the limits of the query again. An offset is written behind
a limit only.
-/

namespace SqlCanvas

open Text Nesting Pattern

namespace Select

variable {σ : Type} {ids : IdSource σ} {st st' : σ} {sources sources' : Sources}

theorem isWorded_newTable {id : String} {name : Text} {aliasName : Option Text}
    (hname : identifier.Covers name) (halias : ∀ a ∈ aliasName, Pattern.name.Covers a) :
    (newTable id name aliasName).IsWorded where
  name := by
    rw [newTable, String.toList_ofList]
    exact Filter.covers_identifier.mp hname
  aliasName := by
    intro a ha
    obtain ⟨w, hw, rfl⟩ := Option.map_eq_some_iff.mp ha
    rw [String.toList_ofList]
    exact covers_many1.mp (halias w hw)

/-- The name and the alias of a table that is found are of the forms that the pattern asks for. -/
theorem covers_of_mem_topLevelIn {p : Pattern} (slot : Nat)
    (hp : p.marks.filter (·.1 == slot) = [(slot, identifier)])
    (hp' : p.marks.filter (·.1 == slot + 1) = [(slot + 1, name)]) (hsets : p.sets slot = true)
    {t : Text} {start stop : Nat} {o : Occurrence} (ho : o ∈ t.topLevelIn p start stop) :
    identifier.Covers (o.captured slot) ∧ ∀ a ∈ o.capture? (slot + 1), name.Covers a := by
  obtain ⟨before, hmem⟩ := mem_occurrencesFrom_of_mem_topLevelIn ho
  have only {slot : Nat} {q body : Pattern} (hq : p.marks.filter (·.1 == slot) = [(slot, q)])
      (hbody : (slot, body) ∈ p.marks) : body = q := by
    have : (slot, body) ∈ p.marks.filter (·.1 == slot) :=
      List.mem_filter.mpr ⟨hbody, beq_self_eq_true slot⟩
    rw [hq] at this
    exact (Prod.mk.inj (List.mem_singleton.mp this)).2
  constructor
  · obtain ⟨-, body, hbody, hcovers⟩ := captured_of_mem_occurrencesFrom slot hmem hsets
    exact only hp hbody ▸ hcovers
  · intro a ha
    obtain ⟨-, body, hbody, hcovers⟩ := marks_of_mem_occurrencesFrom hmem ha
    exact only hp' hbody ▸ hcovers

theorem isWorded_readJoins {t : Text} {start stop : Nat} {segments : List (Occurrence × Text)}
    (hsegments : ∀ x ∈ segments, x.1 ∈ t.topLevelIn joinTable start stop)
    (h : ∀ u ∈ sources.tables, u.IsWorded) (hread : (readJoins ids sources segments).run st =
      (.ok sources', st')) : ∀ u ∈ sources'.tables, u.IsWorded := by
  induction segments generalizing sources st with
  | nil =>
    cases hread
    exact h
  | cons x segments ih =>
    obtain ⟨hx, hsegments⟩ := List.forall_mem_cons.mp hsegments
    obtain ⟨next, st₁, hfirst, hread⟩ := Reading.exists_of_run_bind hread
    refine ih hsegments ?_ hread
    obtain ⟨id, kind, -, rfl⟩ := readJoin_cases hfirst
    obtain ⟨hname, halias⟩ := covers_of_mem_topLevelIn 2 rfl rfl rfl hx
    exact List.forall_mem_append.mpr ⟨h,
      List.forall_mem_singleton.mpr (isWorded_newTable hname halias)⟩

theorem isWorded_of_read {t : Text} {q : Query} (hread : (read ids t).run st = (.ok q, st')) :
    ∀ u ∈ q.tables, u.IsWorded := by
  obtain ⟨sources, st₁, hanchor, hbody⟩ := Reading.exists_of_run_bind hread
  obtain ⟨sources', st₂, hjoins, hend⟩ := Reading.exists_of_run_bind hbody
  have anchor : ∀ u ∈ sources.tables, u.IsWorded := by
    cases ho : t.findTopLevel? fromTable with
    | none =>
      rw [ho] at hanchor
      cases hanchor
      exact List.forall_mem_nil _
    | some o =>
      rw [ho] at hanchor
      cases hanchor
      obtain ⟨hname, halias⟩ := covers_of_mem_topLevelIn 1 rfl rfl rfl (List.mem_of_mem_head? ho)
      exact List.forall_mem_singleton.mpr (isWorded_newTable hname halias)
  have tables := isWorded_readJoins (fun x hx => mem_of_mem_joinSegments hx) anchor hjoins
  obtain ⟨hrest, -⟩ := Prod.mk.inj hend
  obtain ⟨columnsText, rest, -, rfl⟩ := readRest_cases hrest
  change ∀ u ∈ tickedTables columnsText sources'.tables, u.IsWorded
  rw [tickedTables]
  split
  · exact List.forall_mem_map.mpr fun u hu => ⟨(tables u hu).name, (tables u hu).aliasName⟩
  · exact tables

end Select

theorem head_splitSetOperations {ts : List Token} (hts : Solid ts)
    (h : ∀ a ∈ ts, a.Avoids setKeywords) {g : Text} (hg : ∀ c ∈ g, isBlank c = true) (gap : Gap)
    (o : WrittenOperation) (r : Text) :
    (splitSetOperations (g ++ textOf ts ++ gap.text ++
      (textOf o.phrase.tokens ++ (textOf o.operand.tokens ++ r)))).1 =
      g ++ textOf ts ++ gap.text := by
  have front := WrittenOperations.skips_gap (b := none)
    (r := textOf ts ++ (gap.text ++ (textOf o.phrase.tokens ++ (textOf o.operand.tokens ++ r)))) hg
  have first := WrittenOperations.skips_tokens hts h (lastChar none g)
    (gap.isGap.halts_isWord (textOf o.phrase.tokens ++ (textOf o.operand.tokens ++ r)))
  have skipped := (front.append first).append
    (WrittenOperations.skips_gap (r := textOf o.phrase.tokens ++ (textOf o.operand.tokens ++ r))
      gap.isGap.2)
  obtain ⟨first, hfirst, hstart, -⟩ := findTopLevel?_of_takes isSearchable_setOperation.shy skipped
    o.phrase.solid.textOf_ne_nil
    (o.takes_setOperation (by simpa using not_isWord_lastChar_gap gap.isGap))
  obtain ⟨rest, hrest⟩ := List.head?_eq_some_iff.mp hfirst
  rw [splitSetOperations, hrest, between, hstart]
  exact List.take_left' (by simp)

theorem exists_opening (kind : SetOperation) {opener : String} (h : opener ∈ openers) :
    ∃ o : WrittenOperation, textOf o.phrase.tokens = (Vocabulary.spelling kind).toList ∧
      textOf o.operand.tokens = '\n' :: opener.toList := by
  have known : ∀ k ∈ openers, IsKeyword k.toList ∧ ∀ k' ∈ setKeywords, IsKeyword k'.toList ∧
      k' ≠ k := by
    decide
  obtain ⟨hkeyword, hset⟩ := known opener h
  have phrase : textOf (Phrase.capital _ (isPhrase_operationWords kind)).tokens = _ :=
    (Phrase.textOf_capital _).trans (congrArg _ (intercalate_operationWords kind))
  refine ⟨⟨_, operationWords_mem kind, .capital _ (isPhrase_operationWords kind),
    .bare .line opener h (.capital opener hkeyword) [] (.singleton rfl)
      (List.forall_mem_singleton.mpr ((Spelling.capital opener hkeyword).avoids hset))⟩, phrase, ?_⟩
  simp [WrittenOperand.tokens, WrittenOperand.gapTokens, WrittenOperand.ownTokens, Spelling.capital,
    Gap.line]

def openingTokens (o : Option WrittenOperation) : List Token :=
  o.elim [] fun o => Gap.line.token :: (o.phrase.tokens ++ o.operand.tokens)

namespace LinedSelect

theorem exists_head_text (s : LinedSelect) :
    ∃ r, s.text = select.text ++ (Gap.space.text ++ r) := by
  refine ⟨textOf (Select.markTokens s.mark ++ s.columns) ++ textOf (Gap.line.token ::
    (s.sourceTokens ++ (lineTokens s.joins ++ s.clauses.tokens))), ?_⟩
  simp [text, tokens, listTokens]

theorem head_ne_paren (s : LinedSelect) : s.text.head? ≠ some '(' := by
  obtain ⟨r, hr⟩ := s.exists_head_text
  rw [hr]
  exact WrittenStatement.head_ne_paren select.isName _

theorem solid_opening (s : LinedSelect) (recursive : Bool) (es : List WrittenEntry)
    (o : Option WrittenOperation) :
    Solid (withTokens recursive es ++ (s.tokens ++ openingTokens o)) := by
  refine solid_withTokens recursive es ?_ {}
  cases o with
  | none => simpa [openingTokens] using s.solid
  | some o => exact s.solid.spaced o.solid .line

theorem noSemicolon_opening (s : LinedSelect) (recursive : Bool) (es : List WrittenEntry)
    (o : Option WrittenOperation) :
    ∀ a ∈ withTokens recursive es ++ (s.tokens ++ openingTokens o), a.Avoids [] := by
  refine List.forall_mem_append.mpr ⟨fun a ha =>
    (WrittenStatement.avoids_withTokens recursive es {} a ha).mono (by simp),
    List.forall_mem_append.mpr ⟨fun a ha => (s.avoids a ha).mono (by simp), ?_⟩⟩
  cases o with
  | none => exact List.forall_mem_nil _
  | some o =>
    refine List.forall_mem_cons.mpr ⟨trivial, o.avoids_tokens (by simp) fun a ha => ?_⟩
    exact (o.operand.avoids_ownTokens a ha).mono (by simp)

theorem head_split (s : LinedSelect) {g : Text} (hg : ∀ c ∈ g, isBlank c = true)
    (o : Option WrittenOperation) {x : Text} (hx : o = none → x = []) :
    (splitSetOperations (g ++ (s.text ++ (textOf (openingTokens o) ++ x)))).1.stripParens =
      s.text := by
  cases o with
  | none =>
    obtain rfl := hx rfl
    have gap : WrittenOperations.blocks.nextGap [] = [] := rfl
    have := WrittenOperations.splitSetOperations_text [] hg s.solid s.avoids
    simp only [WrittenOperations.tokens, Blocks.tokens_nil, textOf_nil, List.append_nil] at this
    simp only [openingTokens, Option.elim_none, textOf_nil, List.append_nil, text, this, gap]
    have := WrittenStatement.stripParens_padded s.solid s.head_ne_paren hg (List.forall_mem_nil _)
    simpa using this
  | some o =>
    have := head_splitSetOperations s.solid s.avoids hg .line o x
    have whole : g ++ (s.text ++ (textOf (openingTokens (some o)) ++ x)) =
        g ++ textOf s.tokens ++ Gap.line.text ++
          (textOf o.phrase.tokens ++ (textOf o.operand.tokens ++ x)) := by
      simp [text, openingTokens]
    rw [whole, this, List.append_assoc]
    exact WrittenStatement.stripParens_padded s.solid s.head_ne_paren hg Gap.line.isGap.2

/-- In a text with common tables in front and operands behind, the `SELECT` is cut out as it
stands. -/
theorem exists_outline (s : LinedSelect) (recursive : Bool) (es : List WrittenEntry)
    (o : Option WrittenOperation) {x : Text} (hx : o = none → x = []) :
    ∃ tables recursive' branches,
      Outline.of (textOf (withTokens recursive es) ++ (s.text ++ (textOf (openingTokens o) ++ x))) =
        .mk tables recursive' "SELECT".toList s.text branches := by
  obtain ⟨x', hx', hstrip⟩ := (s.solid_opening recursive es o).exists_stripTerminator
    (s.noSemicolon_opening recursive es o) x
  have whole (x : Text) : textOf (withTokens recursive es ++ (s.tokens ++ openingTokens o)) ++ x =
      textOf (withTokens recursive es) ++ (s.text ++ (textOf (openingTokens o) ++ x)) := by
    simp [text]
  rw [whole, whole] at hstrip
  have none : o = none → x' = [] := fun ho => List.prefix_nil.mp (hx ho ▸ hx')
  obtain ⟨r, hr⟩ := s.exists_head_text
  have start : s.text ++ (textOf (openingTokens o) ++ x') =
      select.text ++ (Gap.space.text ++ (r ++ (textOf (openingTokens o) ++ x'))) := by
    rw [hr]
    simp
  have cut :=
    splitWith_front recursive es select (Gap.space.text ++ (r ++ (textOf (openingTokens o) ++ x')))
  have keyword := firstKeyword?_front es select
    (Gap.space.isGap.halts_isWord (r ++ (textOf (openingTokens o) ++ x')))
  rw [← start] at cut keyword
  have head := s.head_split (isBlank_withLead es) o none
  rw [Outline.of_eq, hstrip]
  simp only [cut, keyword, Option.getD_some, if_true, head]
  exact ⟨_, _, _, rfl⟩

end LinedSelect

namespace Query

variable {d : Dialect}

theorem exists_opener {q : Query} {sql : String} (h : q.sql d = .ok sql) :
    ∃ opener ∈ openers, ∃ x, sql.toList = opener.toList ++ x := by
  obtain ⟨anchor, withLine, branchLines, -, hwith, -, rfl⟩ := exists_lines_of_sql h
  have select : ∃ x, q.selectLine.toList = "SELECT".toList ++ x := by
    rw [selectLine]
    split
    · exact ⟨" *".toList, rfl⟩
    · rw [String.toList_append]
      split
      · exact ⟨" DISTINCT ".toList ++ _, rfl⟩
      · exact ⟨" ".toList ++ _, rfl⟩
  obtain ⟨ls, hls⟩ : ∃ ls, q.ownLines d anchor ++ branchLines = q.selectLine :: ls := ⟨_, rfl⟩
  obtain ⟨x, hx⟩ := select
  rw [List.append_assoc, hls]
  cases withLine with
  | nil =>
    exact ⟨"SELECT", by decide, _, by rw [List.nil_append, toList_lines, hx, List.append_assoc]⟩
  | cons l withLine =>
    obtain ⟨y, hy⟩ : ∃ y, l.toList = "WITH".toList ++ y := by
      cases hc : q.ctes with
      | none =>
        rw [hc] at hwith
        cases hwith
      | some cs =>
        rw [hc, optionalTables] at hwith
        obtain ⟨bodies, -, hwith⟩ := exists_of_bind_eq_ok hwith
        split at hwith
        · cases hwith
        · cases hwith
          rw [String.toList_append, withKeyword]
          split
          · exact ⟨" RECURSIVE ".toList ++ _, rfl⟩
          · exact ⟨" ".toList ++ _, rfl⟩
    exact ⟨"WITH", by decide, _, by rw [List.cons_append, toList_lines, hy, List.append_assoc]⟩

theorem exists_opening_of_branches {q : Query} {lines : List String}
    (h : optionalBranches d q.unions = .ok lines) :
    ∃ (o : Option WrittenOperation) (x : Text), (o = none → x = []) ∧
      textOfLines lines = textOf (openingTokens o) ++ x := by
  cases hu : q.unions with
  | none =>
    rw [hu] at h
    cases h
    exact ⟨none, [], fun _ => rfl, rfl⟩
  | some us =>
    rw [hu, optionalBranches] at h
    cases us with
    | nil =>
      cases h
      exact ⟨none, [], fun _ => rfl, rfl⟩
    | cons u us =>
      obtain ⟨kind, query⟩ := u
      rw [branchesSql] at h
      obtain ⟨body, hbody, h⟩ := exists_of_bind_eq_ok h
      obtain ⟨rest, -, h⟩ := exists_of_bind_eq_ok h
      cases h
      obtain ⟨opener, hopener, x, hx⟩ := exists_opener hbody
      obtain ⟨o, hphrase, hoperand⟩ := exists_opening kind hopener
      refine ⟨some o, x ++ textOfLines rest, by simp, ?_⟩
      simp [textOfLines, openingTokens, hphrase, hoperand, hx, Gap.line]

theorem exists_entry_texts {cs : List (CommonTable Query)} (h : ∀ c ∈ cs, IsIdentifier c.name ∧
      ∀ body, c.query.sql d = .ok body → Closed body.toList) {bodies : List String}
    (hbodies : tablesSql d cs = .ok bodies) :
    ∃ es : List WrittenEntry, bodies.map String.toList = es.map WrittenEntry.text ∧
    ∀ e ∈ es, e.apart = .line := by
  induction cs generalizing bodies with
  | nil =>
    cases hbodies
    exact ⟨[], rfl, by simp⟩
  | cons c cs ih =>
    obtain ⟨⟨⟨name, hname⟩, hclosed⟩, hcs⟩ := List.forall_mem_cons.mp h
    obtain ⟨cname, query, recursive⟩ := c
    rw [tablesSql] at hbodies
    obtain ⟨body, hbody, hbodies⟩ := exists_of_bind_eq_ok hbodies
    obtain ⟨rest, hrest, hbodies⟩ := exists_of_bind_eq_ok hbodies
    cases hbodies
    obtain ⟨es, hes, hapart⟩ := ih hcs hrest
    refine ⟨{ name := name, body := body.toList, closed := hclosed body hbody } :: es, ?_,
      List.forall_mem_cons.mpr ⟨rfl, hapart⟩⟩
    rw [List.map_cons, List.map_cons, hes, toList_commonTableSql, WrittenEntry.text_eq]
    simp [WrittenEntry.front, WrittenEntry.inside, Spelling.capital, Gap.space, Gap.line, hname]

theorem Undisturbed.exists_with {q : Query} (h : q.Undisturbed d) {withLine : List String}
    (hwith : optionalTables d q.ctes = .ok withLine) :
    ∃ (recursive : Bool) (es : List WrittenEntry),
      ∀ ls, ls ≠ [] → ("\n".intercalate (withLine ++ ls)).toList =
        textOf (withTokens recursive es) ++ ("\n".intercalate ls).toList := by
  cases hc : q.ctes with
  | none =>
    rw [hc] at hwith
    cases hwith
    exact ⟨false, [], fun ls _ => rfl⟩
  | some cs =>
    rw [hc, optionalTables] at hwith
    obtain ⟨bodies, hbodies, hwith⟩ := exists_of_bind_eq_ok hwith
    obtain ⟨es, hes, hapart⟩ := exists_entry_texts (h.ctes cs hc) hbodies
    split at hwith
    · cases hwith
      exact ⟨false, [], fun ls _ => rfl⟩
    · rename_i hne
      cases hwith
      have es_ne : es ≠ [] := by
        rintro rfl
        exact hne (by simpa using hes)
      exact ⟨_, es, fun ls hls => toList_with_lines cs hes es_ne hapart hls⟩

/-- What is read again of the text of an undisturbed query: the limit, the offset if there is a
limit, and distinct rows if there are columns. -/
theorem Undisturbed.kept {q : Query} (h : q.Undisturbed d) (hworded : ∀ t ∈ q.tables, t.IsWorded)
    (hlimit : ∀ n ∈ q.limit, IsReadable n) (hoffset : ∀ n ∈ q.offset, IsReadable n) {sql : String}
    (hsql : q.sql d = .ok sql) {σ : Type} {ids : IdSource σ}
    {s s' : σ} {p : Statement} (hread : (Statement.read ids sql.toList).run s = (.ok p, s')) :
    p.kind = .select ∧ p.query.limit = q.limit ∧
      p.query.offset.filter (· ≠ 0) = (q.limit.bind fun _ => q.offset).filter (· ≠ 0) ∧
      p.query.distinct = (q.distinct && !q.selectedColumns.isEmpty) := by
  obtain ⟨anchor, withLine, branchLines, hanchor, hwith, hbranches, rfl⟩ := exists_lines_of_sql hsql
  obtain ⟨recursive, es, hfront⟩ := h.exists_with hwith
  obtain ⟨o, x, hx, hbehind⟩ := exists_opening_of_branches hbranches
  obtain ⟨lined, limits, htext, hdistinct, hclauses, hvalue, hvalue'⟩ := h.exists_lined hanchor
    (hworded anchor (List.mem_of_mem_head? hanchor)) hlimit hoffset
  have own_ne : q.ownLines d anchor ≠ [] := List.cons_ne_nil _ _
  have text : ("\n".intercalate (withLine ++ q.ownLines d anchor ++ branchLines)).toList =
      textOf (withTokens recursive es) ++ (lined.text ++ (textOf (openingTokens o) ++ x)) := by
    rw [List.append_assoc, hfront _ (List.append_ne_nil_of_left_ne_nil own_ne _),
      toList_lines_append own_ne, ← htext, hbehind]
  obtain ⟨tables, recursive', branches, houtline⟩ := lined.exists_outline recursive es o hx
  rw [text, Statement.read, houtline] at hread
  obtain ⟨ctes, unions, own, s₁, s₂, hown, rfl⟩ := Statement.exists_of_run_select hread
  obtain ⟨start, found, hfound, hown, hown', hdistinct'⟩ := LinedSelect.exists_limits_of_read hown
  have rows : Select.readRowLimits ⟨lined.clauses.map (·.2.entry), start⟩ = _ :=
    WrittenEnding.readRowLimits_eq ⟨none, none, none, none, limits⟩ hclauses
  obtain rfl := Except.ok.inj (hfound.symm.trans rows)
  exact ⟨rfl, hown.trans hvalue, (congrArg _ hown').trans hvalue', hdistinct'.trans hdistinct⟩

end Query

/-- A statement read with any ids, written in any dialect and read again with any other ids,
undisturbed by its pieces: reading succeeds on tractable text, and gives the same limit, the same
offset where there is a limit and none otherwise. Distinct rows are asked for again if they are
asked of columns; of all columns, they are not. -/
theorem Statement.modifiers_kept {σ τ : Type} {ids : IdSource σ} {text : Text} {s s' : σ}
    {p : Statement} (hread : (read ids text).run s = (.ok p, s')) (hselect : p.kind = .select)
    {d : Dialect} {sql : String} (hsql : p.query.sql d = .ok sql) (hq : p.query.Undisturbed d)
    (again : IdSource τ) :
    (Tractable sql.toList → ∀ t, ∃ p' t', (read again sql.toList).run t = (.ok p', t')) ∧
      ∀ t t' p', (read again sql.toList).run t = (.ok p', t') →
        p'.kind = p.kind ∧ p'.query.limit = p.query.limit ∧
        (p.query.limit.isSome → p'.query.offset.filter (· ≠ 0) = p.query.offset.filter (· ≠ 0)) ∧
        (p.query.limit = none → p'.query.offset.filter (· ≠ 0) = none) ∧
        p'.query.distinct = (p.query.distinct && !p.query.selectedColumns.isEmpty) := by
  obtain ⟨hlimit, hoffset⟩ := limits_of_read hread .refl
  have worded : ∀ t ∈ p.query.tables, t.IsWorded := by
    obtain ⟨body, -, ctes, unions, own, s₁, s₂, hown, rfl⟩ := exists_body_of_select hread hselect
    exact Select.isWorded_of_read (q := own) hown
  refine ⟨fun htractable t => ?_, fun t t' p' hagain => ?_⟩
  · obtain ⟨p', t', hagain, -⟩ := yields_of_tractable again htractable t
    exact ⟨p', t', hagain⟩
  · obtain ⟨hkind, hkept, hoffsets, hdistinct⟩ := hq.kept worded hlimit hoffset hsql hagain
    refine ⟨hkind.trans hselect.symm, hkept, fun hsome => ?_, fun hnone => ?_, hdistinct⟩
    · obtain ⟨n, hn⟩ := Option.isSome_iff_exists.mp hsome
      rw [hoffsets, hn]
      rfl
    · rw [hoffsets, hnone]
      rfl

/-- A page of distinct rows of a table whose name starts with a digit, written with `OFFSET` and
`FETCH` and read again. -/
theorem Statement.page_kept :
    ∃ p ∈ (parse "SELECT DISTINCT a FROM 2020_sales LIMIT 5, 10" 1).toOption,
    ∃ sql ∈ (p.query.sql .sqlserver).toOption,
      sql =
        "SELECT DISTINCT 2020_sales.a\nFROM 2020_sales\nOFFSET 5 ROWS FETCH NEXT 10 ROWS ONLY" ∧
        ∃ p' s', (read .sequential sql.toList).run (.fresh 1) = (.ok p', s') ∧ p'.kind = .select ∧
          p'.query.limit = some 10 ∧ p'.query.offset.filter (· ≠ 0) = some 5 ∧
          p'.query.distinct = true := by
  have facts : ∃ p ∈ (parse "SELECT DISTINCT a FROM 2020_sales LIMIT 5, 10" 1).toOption,
      ∃ sql ∈ (p.query.sql .sqlserver).toOption,
        sql =
          "SELECT DISTINCT 2020_sales.a\nFROM 2020_sales\nOFFSET 5 ROWS FETCH NEXT 10 ROWS ONLY" ∧
          p.kind = .select ∧
          p.query.tables.map (fun t => (t.name, t.aliasName)) = [("2020_sales", none)] ∧
          p.query.selectedColumns.map (·.sql p.query.tables) = ["2020_sales.a"] ∧
          p.query.joins.isEmpty ∧ p.query.filters.isNone ∧ p.query.groupBy.isNone ∧
          p.query.orderBy.isNone ∧ p.query.ctes.isNone ∧ p.query.limit = some 10 ∧
          p.query.offset = some 5 ∧ p.query.distinct = true := by
    decide +kernel
  obtain ⟨p, hp, sql, hsql, htext, hselect, htables, hcolumns, hjoins, hfilters, hgroup, horder,
    hctes, hlimit, hoffset, hdistinct⟩ := facts
  have hread : ((read .sequential "SELECT DISTINCT a FROM 2020_sales LIMIT 5, 10".toList).run
      (.fresh 1)).1 = .ok p :=
    eq_ok_of_toOption hp
  have quiet {keywords : List String} {s : String} (hne : s ≠ "")
      (hunbroken : ∀ c ∈ s.toList, IsUnbroken c)
      (hfree : (keywords.all fun k => k.toList.any fun l => s.toList.all fun c =>
        !Pattern.isLetter l c) = true) :
      IsQuietFor keywords s.toList :=
    exists_quiet_of_unbroken (String.toList_eq_nil_iff.not.mpr hne) hunbroken (freeOf_of_all hfree)
  have columns : ∀ s ∈ ["2020_sales.a"], IsQuietFor columnKeywords s.toList :=
    List.forall_mem_singleton.mpr (quiet (by decide) (by decide) (by decide))
  have undisturbed : p.query.Undisturbed .sqlserver := {
    anchor := fun t ht => by
      have named : (t.name, t.aliasName) = ("2020_sales", none) := by
        have := congrArg List.head? htables
        rw [List.head?_map, Option.mem_def.mp ht] at this
        exact Option.some.inj this
      obtain ⟨name, aliasName⟩ := Prod.mk.inj named
      rw [name, aliasName]
      exact ⟨quiet (by decide) (by decide) (by decide), nofun⟩
    columns := fun c hc => columns _ (hcolumns ▸ List.mem_map_of_mem hc)
    joins := by simp [List.isEmpty_iff.mp hjoins]
    filters := by simp [Option.isNone_iff_eq_none.mp hfilters]
    groups := by simp [Option.isNone_iff_eq_none.mp hgroup]
    having := by simp [Option.isNone_iff_eq_none.mp hgroup]
    orders := by simp [Option.isNone_iff_eq_none.mp horder]
    ctes := by simp [Option.isNone_iff_eq_none.mp hctes] }
  obtain ⟨total, kept⟩ :=
    modifiers_kept (Prod.ext hread rfl) hselect (eq_ok_of_toOption hsql) undisturbed .sequential
  have readable : Readable sql.toList := by
    rw [htext]
    exact .of_short (by decide) (by decide)
  obtain ⟨p', s', hagain⟩ := total readable.tractable (.fresh 1)
  obtain ⟨hkind, hlimit', hoffset', -, hdistinct'⟩ := kept _ _ _ hagain
  refine ⟨p, hp, sql, hsql, htext, p', s', hagain, hkind.trans hselect,
    hlimit'.trans hlimit, ?_, ?_⟩
  · rw [hoffset' (by simp [hlimit]), hoffset]
    rfl
  · have some : p.query.selectedColumns ≠ [] := by
      intro hnil
      simp [hnil] at hcolumns
    simp [hdistinct', hdistinct, some]

/-- Limit, offset and distinct rows of a query, where an offset of zero counts as none. -/
structure RowModifiers where
  limit : Option Nat
  offset : Option Nat
  distinct : Bool
deriving DecidableEq, Repr

def Query.modifiers (q : Query) : RowModifiers :=
  ⟨q.limit, q.offset.filter (· ≠ 0), q.distinct⟩

/-- The modifiers of a text, and those of what is written for it. -/
def Statement.modifiersTwice (d : Dialect) (text : String) :
    Option (RowModifiers × RowModifiers) := do
  let p ← (parse text 1).toOption
  let sql ← (p.query.sql d).toOption
  let p' ← (parse sql 1).toOption
  return (p.query.modifiers, p'.query.modifiers)

/-- An offset without a limit is lost. So are distinct rows of all columns, and a limit behind a
piece that disturbs it: a column of a table called `limit`, or a quote that is cut in two at a
point. -/
theorem Statement.offset_lost_without_limit :
    modifiersTwice .postgresql "SELECT a FROM t OFFSET 5" =
      some (⟨none, some 5, false⟩, ⟨none, none, false⟩) ∧
      modifiersTwice .postgresql "SELECT DISTINCT * FROM t" =
        some (⟨none, none, true⟩, ⟨none, none, false⟩) ∧
      modifiersTwice .postgresql "SELECT a FROM limit ORDER BY b LIMIT 5" =
        some (⟨some 5, none, false⟩, ⟨none, none, false⟩) ∧
      modifiersTwice .postgresql "SELECT a FROM t GROUP BY 'x.y' LIMIT 5" =
        some (⟨some 5, none, false⟩, ⟨none, none, false⟩) := by
  decide +kernel

end SqlCanvas
