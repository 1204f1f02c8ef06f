import SqlCanvas.Proofs.Regeneration.Own
import SqlCanvas.Proofs.Query.Writing

/-!
# Reading nested queries back

The text of a query with common tables and set operations. Operands are written one after another
without parentheses, so the operations of an operand come to stand on the level of the operation
itself, and it is the flattened query that is read back.
-/

namespace SqlCanvas

open Text Nesting Pattern

namespace Query

mutual

/-- The query with all operands on one level: behind each operand come those of its own
operations. -/
def flattened : Query → Query
  | q@⟨_, _, _, _, _, _, _, _, _, _, _, ctes, unions⟩ =>
    { q with
      ctes := flattenedTables ctes
      unions := flattenedBranches unions }

def flattenedTables : Option (List (CommonTable Query)) → Option (List (CommonTable Query))
  | none => none
  | some cs => some (flattenedEach cs)

def flattenedEach : List (CommonTable Query) → List (CommonTable Query)
  | [] => []
  | ⟨name, query, recursive⟩ :: cs => ⟨name, query.flattened, recursive⟩ :: flattenedEach cs

def flattenedBranches : Option (List (SetBranch Query)) → Option (List (SetBranch Query))
  | none => none
  | some us => some (flattenedAll us)

def flattenedAll : List (SetBranch Query) → List (SetBranch Query)
  | [] => []
  | ⟨kind, query⟩ :: us =>
    ⟨kind, { query.flattened with unions := none }⟩ ::
      (query.flattened.unions.getD [] ++ flattenedAll us)

end

/-- Queries hold queries, so this is no definitional equation. -/
theorem eta (q : Query) : (⟨q.name, q.description, q.tables, q.joins, q.selectedColumns, q.filters,
    q.groupBy, q.orderBy, q.limit, q.offset, q.distinct, q.ctes, q.unions⟩ : Query) = q := by
  cases q
  rfl

theorem flattened_eq (q : Query) : q.flattened =
    { q with
      ctes := flattenedTables q.ctes
      unions := flattenedBranches q.unions } := by
  cases q
  rw [flattened]

theorem flattenedEach_eq_map (cs : List (CommonTable Query)) :
    flattenedEach cs = cs.map fun c => { c with query := c.query.flattened } := by
  induction cs with
  | nil => rw [flattenedEach, List.map_nil]
  | cons c cs ih =>
    obtain ⟨name, query, recursive⟩ := c
    rw [flattenedEach, ih, List.map_cons]

theorem flattenedAll_eq_flatMap (us : List (SetBranch Query)) :
    flattenedAll us = us.flatMap fun u =>
    { u with query := { u.query.flattened with unions := none } } :: u.query.flattened.unions.getD
    [] := by
  induction us with
  | nil => rw [flattenedAll, List.flatMap_nil]
  | cons u us ih =>
    obtain ⟨kind, query⟩ := u
    rw [flattenedAll, ih, List.flatMap_cons, List.cons_append]

theorem flattened_of_level (q : Query)
    (h : ∀ r, q.Reaches r → ∀ us ∈ r.unions, ∀ u ∈ us, u.query.unions = none) :
    q.flattened = q := by
  induction q using nestedInduction with
  | step q ih =>
    have held (r : Query) (hr : q.Holds r) : r.flattened = r :=
      ih r hr fun s hs => h s (.head hr hs)
    have ctes : flattenedTables q.ctes = q.ctes := by
      cases hc : q.ctes with
      | none => rw [flattenedTables]
      | some cs =>
        rw [flattenedTables, flattenedEach_eq_map]
        refine congrArg some (List.map_congr_left (g := id) (fun c hc' => ?_) |>.trans
          (List.map_id _))
        rw [held _ (.commonTable hc hc')]
        rfl
    have unions : flattenedBranches q.unions = q.unions := by
      cases hu : q.unions with
      | none => rw [flattenedBranches]
      | some us =>
        rw [flattenedBranches, flattenedAll_eq_flatMap]
        refine congrArg some (List.flatMap_congr (g := fun u => [u]) (fun u hu' => ?_) |>.trans
          (List.flatMap_singleton' us))
        rw [held _ (.branch hu hu'), h q .refl us hu u hu',
          Option.getD_none, ← h q .refl us hu u hu', eta]
    rw [flattened_eq, ctes, unions, eta]

end Query

namespace Query

theorem withoutIds_eq (q : Query) : q.withoutIds =
    { q.own (position q.tables) with
      ctes := withoutIdsTables q.ctes
      unions := withoutIdsBranches q.unions } := by
  cases q
  rw [withoutIds]

theorem withoutIdsEach_eq_map (cs : List (CommonTable Query)) :
    withoutIdsEach cs = cs.map fun c => { c with query := c.query.withoutIds } := by
  induction cs with
  | nil => rw [withoutIdsEach, List.map_nil]
  | cons c cs ih =>
    obtain ⟨name, query, recursive⟩ := c
    rw [withoutIdsEach, ih, List.map_cons]

theorem withoutIdsAll_eq_map (us : List (SetBranch Query)) :
    withoutIdsAll us = us.map fun u => { u with query := u.query.withoutIds } := by
  induction us with
  | nil => rw [withoutIdsAll, List.map_nil]
  | cons u us ih =>
    obtain ⟨kind, query⟩ := u
    rw [withoutIdsAll, ih, List.map_cons]

theorem withoutIdsTables_of_each {cs : List (CommonTable Query)}
    {found : Option (List (CommonTable Query))}
    (h : withoutIdsEach cs = withoutIdsEach (found.getD [])) (hne : found ≠ some []) :
    withoutIdsTables (if cs.isEmpty then none else some cs) = withoutIdsTables found := by
  have length := congrArg List.length h
  simp only [withoutIdsEach_eq_map, List.length_map] at length
  cases found with
  | none => rw [List.length_eq_zero_iff.mp length, List.isEmpty_nil, if_pos rfl]
  | some found =>
    have some : cs ≠ [] := by
      rintro rfl
      exact hne (congrArg _ (List.length_eq_zero_iff.mp length.symm))
    rw [if_neg (by simpa using some), withoutIdsTables, withoutIdsTables, h, Option.getD_some]

theorem withoutIdsBranches_of_all {us : List (SetBranch Query)}
    {found : Option (List (SetBranch Query))} (h : withoutIdsAll us = withoutIdsAll (found.getD []))
    (hne : found ≠ some []) :
    withoutIdsBranches (if us.isEmpty then none else some us) = withoutIdsBranches found := by
  have length := congrArg List.length h
  simp only [withoutIdsAll_eq_map, List.length_map] at length
  cases found with
  | none => rw [List.length_eq_zero_iff.mp length, List.isEmpty_nil, if_pos rfl]
  | some found =>
    have some : us ≠ [] := by
      rintro rfl
      exact hne (congrArg _ (List.length_eq_zero_iff.mp length.symm))
    rw [if_neg (by simpa using some), withoutIdsBranches, withoutIdsBranches, h, Option.getD_some]

end Query

namespace Statement

variable {σ : Type} {ids : IdSource σ}

/-- From every state of a source that gives no id twice, and none in use, the text is read as the
query. -/
def ReadsAs (t : Text) (q : Query) : Prop :=
  ∀ (σ : Type) (ids : IdSource σ) (used : List String) (st : σ), ids.Fresh used st → "" ∈ used →
    ∃ r st', (read ids t).run st = (.ok (.ofQuery .select r), st') ∧ ids.Fresh used st' ∧
      r.withoutIds = q.withoutIds

theorem run_ofOutline {tables : List (Text × Outline)} {recursive : Bool} {body : Text}
    {branches : List (Text × Outline)} {st st₁ st₂ st₃ : σ} {ctes : List (CommonTable Query)}
    {own : Query} {unions : List (SetBranch Query)}
    (htables : (readTables ids recursive tables).run st = (.ok ctes, st₁))
    (hown : (Select.read ids body).run st₁ = (.ok own, st₂))
    (hunions : (readBranches ids branches).run st₂ = (.ok unions, st₃)) :
    (ofOutline ids (.mk tables recursive "SELECT".toList body branches)).run st =
      (.ok (.ofQuery .select (complete .select ctes unions own)), st₃) := by
  rw [ofOutline_select, Reading.run_bind_ok htables, Reading.run_bind_ok hown,
    Reading.run_bind_ok hunions]
  rfl

end Statement

/-- The named query is read from what stands in the parentheses. -/
structure WrittenEntry.States (e : WrittenEntry) (c : CommonTable Query) : Prop where
  name : e.name.text = c.name.toList
  reads : Statement.ReadsAs e.inside c.query

/-- The operand is read from what stands behind the keywords. -/
structure WrittenOperation.States (o : WrittenOperation) (b : SetBranch Query) : Prop where
  kind : o.kind = b.kind
  reads : Statement.ReadsAs (textOf o.operand.inner) b.query

namespace Statement

variable {σ : Type} {ids : IdSource σ} {used : List String} {st : σ}

theorem exists_readTables {recursive : Bool} {cs : List (CommonTable Query)}
    {es : List WrittenEntry} (h : List.Forall₂ (fun c e => WrittenEntry.States e c) cs es)
    (hrec : ∀ c ∈ cs, c.recursive = recursive) (hfresh : ids.Fresh used st) (hempty : "" ∈ used) :
    ∃ ctes st',
      (readTables ids recursive (es.map fun e => (e.name.text, Outline.of e.inside))).run st =
        (.ok ctes, st') ∧
        ids.Fresh used st' ∧ Query.withoutIdsEach ctes = Query.withoutIdsEach cs := by
  induction h generalizing st with
  | nil => exact ⟨[], st, rfl, hfresh, rfl⟩
  | @cons c e cs es he _ ih =>
    obtain ⟨hc, hcs⟩ := List.forall_mem_cons.mp hrec
    obtain ⟨r, st₁, hread, hfresh₁, hr⟩ := he.reads σ ids used st hfresh hempty
    obtain ⟨ctes, st₂, hrest, hfresh₂, hctes⟩ := ih hcs hfresh₁
    rw [read] at hread
    refine ⟨⟨c.name, r, recursive⟩ :: ctes, st₂, ?_, hfresh₂, ?_⟩
    · have name : String.ofList e.name.text = c.name := by
        rw [he.name, String.ofList_toList]
      rw [List.map_cons, readTables, Reading.run_bind_ok hread, Reading.run_bind_ok hrest, name]
      rfl
    · obtain ⟨name, query, _⟩ := c
      rw [Query.withoutIdsEach, Query.withoutIdsEach, hr, hctes, ← hc]

theorem exists_readBranches {bs : List (SetBranch Query)} {os : WrittenOperations}
    (h : List.Forall₂ (fun b o => WrittenOperation.States o.2 b) bs os) (hfresh : ids.Fresh used st)
    (hempty : "" ∈ used) : ∃ unions st',
      (readBranches ids (os.map fun o =>
        (textOf o.2.phrase.tokens, Outline.of (textOf o.2.operand.inner)))).run st =
          (.ok unions, st') ∧
        ids.Fresh used st' ∧ Query.withoutIdsAll unions = Query.withoutIdsAll bs := by
  induction h generalizing st with
  | nil => exact ⟨[], st, rfl, hfresh, rfl⟩
  | @cons b o bs os ho _ ih =>
    obtain ⟨r, st₁, hread, hfresh₁, hr⟩ := ho.reads σ ids used st hfresh hempty
    obtain ⟨unions, st₂, hrest, hfresh₂, hunions⟩ := ih hfresh₁
    have kind : (Reading.ofExcept (readKeyword "UnionClause" "kind" (textOf o.2.phrase.tokens)) :
        Reading σ SetOperation).run st₁ = (.ok b.kind, st₁) := by
      rw [o.2.readKeyword, ho.kind]
      rfl
    rw [read] at hread
    refine ⟨⟨b.kind, r⟩ :: unions, st₂, ?_, hfresh₂, ?_⟩
    · rw [List.map_cons, readBranches, Reading.run_bind_ok hread, Reading.run_bind_ok kind,
        Reading.run_bind_ok hrest]
      rfl
    · obtain ⟨kind, query⟩ := b
      rw [Query.withoutIdsAll, Query.withoutIdsAll, hr, hunions]

end Statement

/-- The parts of a statement are read as those of a query. -/
structure WrittenStatement.States (s : WrittenStatement) (q : Query) : Prop where
  select : s.select.ReadsAs q
  tables : List.Forall₂ (fun c e => WrittenEntry.States e c) (q.ctes.getD []) s.entries
  recursive : ∀ c ∈ q.ctes.getD [], c.recursive = s.recursive
  branches : List.Forall₂ (fun b o => WrittenOperation.States o.2 b) (q.unions.getD []) s.operations
  some_tables : q.ctes ≠ some []
  some_branches : q.unions ≠ some []

theorem WrittenStatement.States.readsAs {s : WrittenStatement} {q : Query} (h : s.States q)
    {g g' : Text} (hg : ∀ c ∈ g, isBlank c = true) (hg' : ∀ c ∈ g', isBlank c = true) :
    Statement.ReadsAs (g ++ (s.text ++ g')) q := by
  intro σ ids used st hfresh hempty
  have recursive : ∀ c ∈ q.ctes.getD [], c.recursive = (s.recursive && !s.entries.isEmpty) := by
    intro c hc
    obtain ⟨e, he, -⟩ := exists_of_forall₂_left h.tables c hc
    rw [h.recursive c hc, List.isEmpty_eq_false_iff.mpr (List.ne_nil_of_mem he), Bool.not_false,
      Bool.and_true]
  obtain ⟨ctes, st₁, htables, hfresh₁, hctes⟩ :=
    Statement.exists_readTables h.tables recursive hfresh hempty
  obtain ⟨own, st₂, hown, hfresh₂, hq⟩ := h.select σ ids used st₁ hfresh₁ hempty
  obtain ⟨unions, st₃, hbranches, hfresh₃, hunions⟩ :=
    Statement.exists_readBranches h.branches hfresh₂ hempty
  refine ⟨Statement.complete .select ctes unions own, st₃, ?_, hfresh₃, ?_⟩
  · rw [Statement.read, s.outline_text hg hg']
    exact Statement.run_ofOutline htables hown hbranches
  · rw [Query.withoutIds_eq, Query.withoutIds_eq q, ← hq]
    have ctes_eq : Query.withoutIdsTables (Statement.complete .select ctes unions own).ctes = _ :=
      Query.withoutIdsTables_of_each hctes h.some_tables
    have unions_eq : Query.withoutIdsBranches (Statement.complete .select ctes unions own).unions =
        _ :=
      Query.withoutIdsBranches_of_all hunions h.some_branches
    rw [ctes_eq, unions_eq]
    rfl

theorem toList_lines_append {ls : List String} (hne : ls ≠ []) (ls' : List String) :
    ("\n".intercalate (ls ++ ls')).toList = ("\n".intercalate ls).toList ++ textOfLines ls' := by
  obtain ⟨l, ls, rfl⟩ := List.exists_cons_of_ne_nil hne
  rw [List.cons_append, toList_lines, toList_lines, List.flatMap_append, List.append_assoc]
  rfl

theorem toList_lines_cons (l : String) {ls : List String} (hne : ls ≠ []) :
    ("\n".intercalate (l :: ls)).toList = l.toList ++ '\n' :: ("\n".intercalate ls).toList := by
  obtain ⟨l', ls, rfl⟩ := List.exists_cons_of_ne_nil hne
  rw [toList_lines, toList_lines, List.flatMap_cons, List.cons_append]

def operationWords : SetOperation → List String
  | .union => ["UNION"]
  | .unionAll => ["UNION", "ALL"]
  | .intersect => ["INTERSECT"]
  | .except => ["EXCEPT"]

theorem operationWords_mem (kind : SetOperation) : operationWords kind ∈ setPhrases := by
  cases kind <;> decide

theorem isPhrase_operationWords (kind : SetOperation) : IsPhrase (operationWords kind) := by
  cases kind <;> decide

theorem intercalate_operationWords (kind : SetOperation) :
    " ".intercalate (operationWords kind) = Vocabulary.spelling kind := by
  cases kind <;> rfl

theorem kind_operationWords (kind : SetOperation) :
    (Vocabulary.read? (" ".intercalate (operationWords kind))).get
    (WrittenOperation.exists_kind _ (operationWords_mem kind)) = kind := by
  cases kind <;> rfl

theorem WrittenStatement.exists_operand {s : WrittenStatement} (h : s.operations = []) (g : Gap) :
    ∃ o : WrittenOperand, o.inner = s.tokens ∧ o.tokens = g.token :: s.tokens := by
  obtain ⟨opener, hopener, start, rest, htokens⟩ : ∃ opener ∈ openers, ∃ (start : Spelling opener)
      (rest : List Token), s.tokens = start.token :: rest := by
    cases he : s.entries with
    | nil =>
      refine ⟨"SELECT", by decide, s.select.select, s.tokens.tail, ?_⟩
      rw [WrittenStatement.tokens, he, withTokens, WrittenStatement.mainTokens,
        WrittenSelect.tokens, WrittenSelect.headTokens]
      rfl
    | cons e es =>
      refine ⟨"WITH", by decide, s.layout.keyword, s.tokens.tail, ?_⟩
      rw [WrittenStatement.tokens, he, withTokens]
      rfl
  exact ⟨.bare g opener hopener start rest (htokens ▸ s.solid) (htokens ▸ s.avoids h), htokens.symm,
    congrArg _ htokens.symm⟩

theorem exists_operation (kind : SetOperation) {s : WrittenStatement} (h : s.operations = []) :
    ∃ o : WrittenOperation, o.kind = kind ∧ o.operand.inner = s.tokens ∧
      o.operand.tokens = Gap.line.token :: s.tokens ∧
        textOf o.phrase.tokens = (Vocabulary.spelling kind).toList := by
  have phrase : textOf (Phrase.capital _ (isPhrase_operationWords kind)).tokens = _ :=
    (Phrase.textOf_capital _).trans (congrArg _ (intercalate_operationWords kind))
  obtain ⟨operand, hinner, htokens⟩ := s.exists_operand h .line
  exact ⟨⟨_, operationWords_mem kind, .capital _ (isPhrase_operationWords kind), operand⟩,
    kind_operationWords kind, hinner, htokens, phrase⟩

theorem WrittenStatement.States.head {s : WrittenStatement} {q : Query} (h : s.States q) :
    WrittenStatement.States { s with operations := [] } { q with unions := none } :=
  ⟨h.select, h.tables, h.recursive, .nil, h.some_tables, nofun⟩

theorem WrittenStatement.textOf_operations (s : WrittenStatement) :
    s.text = WrittenStatement.text { s with operations := [] } ++ textOf s.operations.tokens := by
  simp [text, tokens, mainTokens, WrittenOperations.tokens]

theorem WrittenOperations.textOf_cons (o : WrittenOperation) (os : WrittenOperations) :
    textOf (tokens ((.line, o) :: os)) =
      '\n' :: (textOf o.phrase.tokens ++ (textOf o.operand.tokens ++ textOf os.tokens)) := by
  simp [tokens, blocks, Gap.line]

namespace Query

variable {d : Dialect}

/-- The text of the query is that of a statement which is read as the query, flattened. -/
def HasStatement (d : Dialect) (q : Query) : Prop :=
  ∃ s : WrittenStatement, s.States q.flattened ∧ q.sql d = .ok (String.ofList s.text)

theorem exists_operations {us : List (SetBranch Query)} (h : ∀ u ∈ us, u.query.HasStatement d) :
    ∃ (os : WrittenOperations) (lines : List String), branchesSql d us = .ok lines ∧
      textOfLines lines = textOf os.tokens ∧
        List.Forall₂ (fun b o => WrittenOperation.States o.2 b) (flattenedAll us) os := by
  induction us with
  | nil => exact ⟨[], [], rfl, rfl, by rw [flattenedAll]; exact .nil⟩
  | cons u us ih =>
    obtain ⟨⟨s, hs, hsql⟩, hus⟩ := List.forall_mem_cons.mp h
    obtain ⟨os, lines, hlines, htext, hos⟩ := ih hus
    obtain ⟨o, hkind, hinner, hoperand, hphrase⟩ :=
      exists_operation u.kind (s := { s with operations := [] }) rfl
    refine ⟨(.line, o) :: (s.operations ++ os),
      Vocabulary.spelling u.kind :: String.ofList s.text :: lines, ?_, ?_, ?_⟩
    · obtain ⟨kind, query⟩ := u
      rw [branchesSql, hsql, hlines]
      rfl
    · have rest : textOf (WrittenOperations.tokens (s.operations ++ os)) =
          textOf s.operations.tokens ++ textOf os.tokens := by
        simp [WrittenOperations.tokens, Blocks.tokens]
      rw [WrittenOperations.textOf_cons, hphrase, hoperand, rest, ← htext]
      have whole := s.textOf_operations
      rw [WrittenStatement.text] at whole
      simp [textOfLines, whole, Gap.line, WrittenStatement.text]
    · obtain ⟨kind, query⟩ := u
      rw [flattenedAll]
      refine .cons ⟨hkind, ?_⟩ (List.rel_append hs.branches hos)
      rw [hinner]
      have : Statement.ReadsAs _ _ :=
        hs.head.readsAs (List.forall_mem_nil _) (List.forall_mem_nil _)
      rwa [List.nil_append, List.append_nil] at this

theorem toList_commonTableSql (name body : String) : (commonTableSql name body).toList =
    name.toList ++ " AS (".toList ++ '\n' :: (body.toList ++ "\n)".toList) := by
  simp [commonTableSql]

theorem exists_entry {c : CommonTable Query} (hname : IsIdentifier c.name)
    (h : c.query.HasStatement d) : ∃ (e : WrittenEntry) (body : String), c.query.sql d = .ok body ∧
      (commonTableSql c.name body).toList = e.text ∧ e.apart = .line ∧
        e.States { c with query := c.query.flattened } := by
  obtain ⟨i, hi⟩ := hname
  obtain ⟨s, hs, hsql⟩ := h
  refine ⟨{ name := i, body := s.text, closed := closed_textOf _ }, _, hsql, ?_, rfl, hi, ?_⟩
  · rw [toList_commonTableSql, ← hi, String.toList_ofList, WrittenEntry.text_eq]
    simp [WrittenEntry.front, WrittenEntry.inside, Spelling.capital, Gap.space, Gap.line]
  · have : Statement.ReadsAs (['\n'] ++ (s.text ++ ['\n'])) c.query.flattened :=
      hs.readsAs (by decide) (by decide)
    exact this

theorem exists_entries {cs : List (CommonTable Query)} (hnames : ∀ c ∈ cs, IsIdentifier c.name)
    (h : ∀ c ∈ cs, c.query.HasStatement d) : ∃ (es : List WrittenEntry) (bodies : List String),
      tablesSql d cs = .ok bodies ∧ bodies.map String.toList = es.map WrittenEntry.text ∧
        (∀ e ∈ es, e.apart = .line) ∧ List.Forall₂ (fun c e => WrittenEntry.States e c)
        (flattenedEach cs) es := by
  induction cs with
  | nil => exact ⟨[], [], rfl, rfl, by simp, by rw [flattenedEach]; exact .nil⟩
  | cons c cs ih =>
    obtain ⟨hname, hnames⟩ := List.forall_mem_cons.mp hnames
    obtain ⟨hc, hcs⟩ := List.forall_mem_cons.mp h
    obtain ⟨e, body, hbody, htext, hline, he⟩ := exists_entry hname hc
    obtain ⟨es, bodies, hbodies, htexts, hlines, hes⟩ := ih hnames hcs
    obtain ⟨name, query, recursive⟩ := c
    refine ⟨e :: es, commonTableSql name body :: bodies, ?_, ?_,
      List.forall_mem_cons.mpr ⟨hline, hlines⟩, ?_⟩
    · rw [tablesSql, hbody, hbodies]
      rfl
    · rw [List.map_cons, List.map_cons, htext, htexts]
    · rw [flattenedEach]
      exact .cons he hes

theorem textOf_entriesTokens (e : WrittenEntry) {es : List WrittenEntry}
    (h : ∀ e ∈ es, e.apart = .line) :
    textOf (entriesTokens e es) = ",\n".toList.intercalate ((e :: es).map WrittenEntry.text) := by
  rw [← entriesText_entry, entriesText_lines _ (List.forall_mem_map.mpr h), ← List.map_cons,
    List.map_map]
  exact congrArg _ (List.map_congr_left fun e _ => e.entry_text)

theorem textOf_withTokens (recursive : Bool) {es : List WrittenEntry} (hne : es ≠ [])
    (h : ∀ e ∈ es, e.apart = .line) :
    textOf (withTokens recursive es) = (if recursive then "WITH RECURSIVE " else "WITH ").toList ++
      ",\n".toList.intercalate (es.map WrittenEntry.text) ++ ['\n'] := by
  obtain ⟨e, es, rfl⟩ := List.exists_cons_of_ne_nil hne
  rw [← textOf_entriesTokens e (List.forall_mem_cons.mp h).2]
  cases recursive <;> simp [withTokens, recursionTokens, Spelling.capital, Gap.space, Gap.line]

theorem toList_with_lines (cs : List (CommonTable Query)) {es : List WrittenEntry}
    {bodies : List String} (htexts : bodies.map String.toList = es.map WrittenEntry.text)
    (hne : es ≠ []) (h : ∀ e ∈ es, e.apart = .line) {ls : List String} (hls : ls ≠ []) :
    ("\n".intercalate ([withKeyword cs ++ ",\n".intercalate bodies] ++ ls)).toList =
      textOf (withTokens (cs.any (·.recursive)) es) ++ ("\n".intercalate ls).toList := by
  rw [List.singleton_append, toList_lines_cons _ hls, textOf_withTokens _ hne h,
    String.toList_append, String.toList_intercalate, htexts, withKeyword]
  simp

theorem exists_with {q : Query} (h : q.Regular)
    (hc : ∀ cs ∈ q.ctes, ∀ c ∈ cs, c.query.HasStatement d) :
    ∃ (recursive : Bool) (es : List WrittenEntry) (lines : List String), optionalTables d q.ctes =
      .ok lines ∧ (∀ ls, ls ≠ [] → ("\n".intercalate (lines ++ ls)).toList =
        textOf (withTokens recursive es) ++ ("\n".intercalate ls).toList) ∧
      List.Forall₂ (fun c e => WrittenEntry.States e c) ((flattenedTables q.ctes).getD []) es ∧
      (∀ c ∈ (flattenedTables q.ctes).getD [], c.recursive = recursive) ∧ flattenedTables q.ctes ≠
        some [] := by
  cases hctes : q.ctes with
  | none =>
    exact ⟨false, [], [], rfl, fun ls hls => rfl, .nil, List.forall_mem_nil _,
      by simp [flattenedTables]⟩
  | some cs =>
    obtain ⟨hne, hnames, hsame⟩ := h.ctes cs hctes
    obtain ⟨es, bodies, hbodies, htexts, hapart, hes⟩ := exists_entries hnames (hc cs hctes)
    have length := congrArg List.length htexts
    have length' := hes.length_eq
    rw [List.length_map, List.length_map] at length
    rw [flattenedEach_eq_map, List.length_map] at length'
    have positive := List.length_pos_iff.mpr hne
    have bodies_ne : bodies ≠ [] := List.length_pos_iff.mp (by omega)
    have es_ne : es ≠ [] := List.length_pos_iff.mp (by omega)
    refine ⟨cs.any (·.recursive), es, [withKeyword cs ++ ",\n".intercalate bodies], ?_,
      fun ls hls => ?_, hes, ?_, ?_⟩
    · rw [optionalTables, hbodies]
      change Except.ok _ = _
      rw [if_neg (by simpa using bodies_ne)]
    · exact toList_with_lines cs htexts es_ne hapart hls
    · intro c hc
      rw [flattenedTables, Option.getD_some, flattenedEach_eq_map] at hc
      obtain ⟨c, hmem, rfl⟩ := List.mem_map.mp hc
      rw [Bool.eq_iff_iff, List.any_eq_true]
      refine ⟨fun hrec => ⟨c, hmem, hrec⟩, ?_⟩
      rintro ⟨c', hmem', hrec⟩
      exact (hsame c hmem c' hmem').trans hrec
    · rw [flattenedTables, flattenedEach_eq_map]
      simpa using hne

theorem Regular.hasStatement {q : Query} (h : q.Regular) (hheld : ∀ r, q.Holds r →
      r.HasStatement d) :
    q.HasStatement d := by
  obtain ⟨recursive, es, withLines, hwith, hwithText, hes, hrec, hctes⟩ :=
    exists_with h fun cs hcs c hc => hheld _ (.commonTable hcs hc)
  obtain ⟨os, lines, hbranches, hlines, hos, hunions⟩ :
      ∃ (os : WrittenOperations) (lines : List String),
        optionalBranches d q.unions = .ok lines ∧ textOfLines lines = textOf os.tokens ∧
          List.Forall₂ (fun b o => WrittenOperation.States o.2 b)
            ((flattenedBranches q.unions).getD []) os ∧ flattenedBranches q.unions ≠ some [] := by
    cases hu : q.unions with
    | none => exact ⟨[], [], rfl, rfl, .nil, nofun⟩
    | some us =>
      obtain ⟨os, lines, hlines, htext, hos⟩ :=
        exists_operations fun u hu' => hheld _ (.branch hu hu')
      refine ⟨os, lines, hlines, htext, hos, ?_⟩
      obtain ⟨u, us, rfl⟩ := List.exists_cons_of_ne_nil (h.unions us hu)
      rw [flattenedBranches, flattenedAll_eq_flatMap]
      simp
  obtain ⟨anchor, w, hanchor, hw⟩ := h.flat.exists_draft d
  have select : w.select.ReadsAs q.flattened := by
    rw [flattened_eq]
    exact hw.readsAs h.flat hanchor
  have own_ne : q.ownLines d anchor ≠ [] := by
    simp [ownLines]
  refine ⟨⟨recursive, es, w.select, os, {}⟩, ?_, ?_⟩
  · rw [flattened_eq] at select ⊢
    exact ⟨select, hes, hrec, hos, hctes, hunions⟩
  · obtain ⟨rest, htables⟩ : ∃ rest, q.tables = anchor :: rest := by
      obtain ⟨t, ts, hts⟩ := List.exists_cons_of_ne_nil h.flat.tables
      rw [hts] at hanchor
      cases hanchor
      exact ⟨ts, hts⟩
    have text : "\n".intercalate (withLines ++ q.ownLines d anchor ++ lines) =
        String.ofList (WrittenStatement.text ⟨recursive, es, w.select, os, {}⟩) := by
      rw [← String.toList_inj, String.toList_ofList, List.append_assoc,
        hwithText _ (by simp [own_ne]), toList_lines_append own_ne, hw.renders.text_eq, hlines]
      simp [WrittenStatement.text, WrittenStatement.tokens, WrittenStatement.mainTokens,
        WrittenSelect.text]
    rw [sql_of_writable htables (h.flat.isWritable d), hwith, hbranches, ← text]
    rfl

theorem Composed.hasStatement {q : Query} (h : q.Composed) (d : Dialect) : q.HasStatement d := by
  induction q using nestedInduction with
  | step q ih =>
    refine (h q .refl).hasStatement fun r hr => ih r hr fun s hs => h s (.head hr hs)

/-- The text of a composed query is read as the query with its operands on one level. -/
theorem Composed.flattened_of_sql {q : Query} (h : q.Composed) (d : Dialect) :
    ∃ sql, q.sql d = .ok sql ∧ Statement.ReadsAs sql.toList q.flattened := by
  obtain ⟨s, hs, hsql⟩ := h.hasStatement d
  have : Statement.ReadsAs ([] ++ (s.text ++ [])) q.flattened :=
    hs.readsAs (List.forall_mem_nil _) (List.forall_mem_nil _)
  rw [List.nil_append, List.append_nil] at this
  exact ⟨_, hsql, by rwa [String.toList_ofList]⟩

theorem Composed.of_held {q : Query} (h : q.Regular) (hheld : ∀ r, q.Holds r → r.Composed) :
    q.Composed := by
  intro r hr
  rcases reaches_iff.mp hr with rfl | ⟨s, hs, hsr⟩
  · exact h
  · exact hheld s hs r hsr

theorem Canonical.of_held {q : Query} (h : q.Regular) (hlevel : ∀ us ∈ q.unions, ∀ u ∈ us,
      u.query.unions = none)
    (hheld : ∀ r, q.Holds r → r.Canonical) : q.Canonical := by
  refine ⟨.of_held h fun r hr => (hheld r hr).composed, fun r hr => ?_⟩
  rcases reaches_iff.mp hr with rfl | ⟨s, hs, hsr⟩
  · exact hlevel
  · exact (hheld s hs).level r hsr

/-- A canonical query is read back from its text in every dialect, but for its ids. -/
theorem Canonical.read_sql {q : Query} (h : q.Canonical) (d : Dialect) :
    ∃ sql, q.sql d = .ok sql ∧ Statement.ReadsAs sql.toList q := by
  have := h.composed.flattened_of_sql d
  rwa [flattened_of_level q h.level] at this

def single (table column : String) : Query :=
  { empty with
    tables := [⟨table, table, none, []⟩]
    selectedColumns := [⟨table, column, none, none, none⟩] }

theorem flat_single {table column : String} (ht : IsPlain table) (hc : IsPlain column) :
    (single table column).Flat where
  tables := List.cons_ne_nil _ _
  ids := List.nodup_singleton _
  names := List.forall_mem_singleton.mpr (TableRef.nameable_of_plain ht nofun)
  apart := List.pairwise_singleton _ _
  targets := rfl
  sources := nofun
  conditions := nofun
  columns :=
    List.forall_mem_singleton.mpr ⟨⟨_, List.mem_singleton_self _, rfl⟩, hc.isIdentifier, nofun, rfl⟩
  distinct := fun _ => List.cons_ne_nil _ _
  filters := nofun
  groupBy := nofun
  orderBy := nofun
  limit := nofun
  offset := nofun

theorem canonical_single {table column : String} (ht : IsPlain table) (hc : IsPlain column) :
    (single table column).Canonical :=
  .of_held ⟨flat_single ht hc, nofun, nofun⟩ nofun fun r hr => by
    cases hr with
    | commonTable h => cases h
    | branch h => cases h

/-- Customers with their orders, filtered by a group within alternatives, with a recursive common
table and a set operation. -/
def sample : Query :=
  { empty with
    tables := [⟨"1", "customers", some "c", []⟩, ⟨"2", "orders", none, []⟩]
    joins := [⟨"3", "1", "2", .leftOuter, [⟨"id", "customer", .eq⟩]⟩]
    selectedColumns :=
      [⟨"1", "name", some "who", none, none⟩, ⟨"2", "total", none, some .sum, none⟩]
    filters := some ⟨.or, [
      .condition ⟨some "1", "name", .like, .string "it's (a) OR 'b' --", .null⟩,
      .group .and [
        .condition ⟨some "2", "total", .compare .ge, .scalar (.int (-5)), .null⟩,
        .condition ⟨some "2", "paid", .isNotNull, .null, .null⟩]]⟩
    groupBy := some ⟨[⟨some "1", "name"⟩], some (.group .and [
      .condition ⟨none, "COUNT(*)", .compare .gt, .scalar (.int 1), .null⟩])⟩
    orderBy := some [⟨some "1", "name", .descending⟩]
    limit := some 10
    offset := some 20
    ctes := some [⟨"recent", single "orders" "id", true⟩]
    unions := some [⟨.unionAll, single "guests" "name"⟩] }

theorem customers_known : Known sample.tables "1" :=
  ⟨_, List.mem_cons_self, rfl⟩

theorem orders_known : Known sample.tables "2" :=
  ⟨_, List.mem_cons_of_mem _ (List.mem_singleton_self _), rfl⟩

theorem flat_sample : sample.Flat where
  tables := List.cons_ne_nil _ _
  ids := by decide
  names := by
    refine List.forall_mem_cons.mpr ⟨?_, List.forall_mem_singleton.mpr ?_⟩
    · exact TableRef.nameable_of_plain (by decide) (by decide)
    · exact TableRef.nameable_of_plain (by decide) (by decide)
  apart := (namesApart_iff.mpr (by decide +kernel)).referencesApart
  targets := rfl
  sources := by
    intro k j hj
    cases k with
    | zero =>
      cases hj
      exact ⟨_, List.mem_cons_self, rfl⟩
    | succ k => cases hj
  conditions := List.forall_mem_singleton.mpr ⟨List.cons_ne_nil _ _, List.forall_mem_singleton.mpr
    ⟨(by decide : IsPlain "id").isIdentifier, (by decide : IsPlain "customer").isIdentifier⟩⟩
  columns := by
    refine List.forall_mem_cons.mpr ⟨⟨customers_known, (by decide : IsPlain "name").isIdentifier,
      ?_, rfl⟩,
        List.forall_mem_singleton.mpr ⟨orders_known, (by decide : IsPlain "total").isIdentifier,
          nofun, rfl⟩⟩
    rintro _ ⟨⟩
    exact (by decide : IsPlain "who").isIdentifier
  distinct := nofun
  filters := by
    rintro _ ⟨⟩
    refine .any (by decide) (List.forall_mem_cons.mpr ⟨.condition ?_, List.forall_mem_singleton.mpr
      (.group (le_refl [_, _].length)
        (List.forall_mem_cons.mpr ⟨?_, List.forall_mem_singleton.mpr ?_⟩))⟩)
    · exact ⟨.inl ⟨_, rfl, customers_known, (by decide : IsPlain "name").isIdentifier⟩,
        ⟨_, rfl, .like (.string _)⟩, rfl⟩
    · exact ⟨.inl ⟨_, rfl, orders_known, (by decide : IsPlain "total").isIdentifier⟩,
        ⟨_, rfl, .compare _ (.int _ (by decide))⟩, rfl⟩
    · exact ⟨.inl ⟨_, rfl, orders_known, (by decide : IsPlain "paid").isIdentifier⟩,
        ⟨_, rfl, .isNotNull⟩, rfl⟩
  groupBy := by
    rintro _ ⟨⟩
    refine ⟨.inl (List.cons_ne_nil _ _), List.forall_mem_singleton.mpr
      ⟨⟨_, rfl, customers_known⟩, (by decide : IsPlain "name").isIdentifier⟩, ?_⟩
    rintro _ ⟨⟩
    refine ⟨⟨.and, _⟩, rfl, .all (List.cons_ne_nil _ []) (List.forall_mem_singleton.mpr ?_)⟩
    exact ⟨.inr ⟨rfl, "COUNT", "*", (by decide : IsPlain "COUNT").isLabel, by decide, rfl⟩,
      ⟨_, rfl, .compare _ (.int _ (by decide))⟩, rfl⟩
  orderBy := by
    rintro _ ⟨⟩
    exact ⟨List.cons_ne_nil _ _, List.forall_mem_singleton.mpr
      ⟨⟨_, rfl, customers_known⟩, (by decide : IsPlain "name").isIdentifier⟩⟩
  limit := by
    rintro _ ⟨⟩
    rw [IsReadable]
    decide
  offset := by
    rintro _ ⟨⟩
    rw [IsReadable]
    decide

theorem canonical_sample : sample.Canonical := by
  have names : ∀ s ∈ ["orders", "id", "guests", "name", "recent"], IsPlain s := by decide
  refine .of_held ⟨flat_sample, ?_, ?_⟩ ?_ fun r hr => ?_
  · rintro _ ⟨⟩
    exact ⟨List.cons_ne_nil _ _, List.forall_mem_singleton.mpr (names _ (by decide)).isIdentifier,
      List.forall_mem_singleton.mpr (List.forall_mem_singleton.mpr rfl)⟩
  · rintro _ ⟨⟩
    exact List.cons_ne_nil _ _
  · rintro _ ⟨⟩
    exact List.forall_mem_singleton.mpr rfl
  · cases hr with
    | commonTable h hc =>
      cases h
      rw [List.mem_singleton.mp hc]
      exact canonical_single (names _ (by decide)) (names _ (by decide))
    | branch h hb =>
      cases h
      rw [List.mem_singleton.mp hb]
      exact canonical_single (names _ (by decide)) (names _ (by decide))

theorem read_sql_sample :
    ∃ sql, sample.sql .sqlserver = .ok sql ∧ Statement.ReadsAs sql.toList sample :=
  canonical_sample.read_sql .sqlserver

end Query

end SqlCanvas
