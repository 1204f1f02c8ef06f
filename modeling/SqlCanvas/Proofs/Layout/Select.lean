import SqlCanvas.Proofs.Layout.Clause

/-!
# Statements by themselves in any layout

The joins of a tidy query, and with them the whole `SELECT`. What is read of it are its tables, what
its joins compare, its select list and its clauses, and all of these are the same in every layout.
-/

namespace SqlCanvas

open Text Nesting Pattern

/-- The name of a table with its alias. -/
def WrittenTable.content (t : WrittenTable) : Text × Option Text :=
  (t.name.text, t.aliasText)

theorem TableRef.Nameable.stable_lexemes {t : TableRef} (h : t.Nameable) :
    Stable t.lexemes WrittenTable.tokens WrittenTable.content := by
  obtain ⟨d, hshort, hd⟩ := h.name
  obtain ⟨aliasName, halias⟩ := stable_aliasLexemes fun a ha => (h.aliasName a ha).isIdentifier
  refine ⟨(d.text, aliasName), fun t ht => ?_⟩
  obtain ⟨t, rfl, h₁⟩ := ht.exists_of_fixed
  obtain ⟨a, rfl, rfl⟩ := halias t h₁
  refine ⟨⟨d, hshort, a⟩, ?_, rfl⟩
  rw [← hd]
  exact textOf_append _ _

/-- What a part of an `ON` clause is read as when the names stand for these tables. -/
def Conjunct.predicate? (c : Conjunct) (lookup : Lookup) : Option Select.OnPredicate :=
  Select.OnPredicate.read? lookup c.text

theorem JoinCondition.stable_lexemes {c : JoinCondition} {source target : TableRef}
    (hsource : source.Nameable) (htarget : target.Nameable) (hfrom : IsIdentifier c.fromColumn)
    (hto : IsIdentifier c.toColumn) :
    Stable (c.lexemes source target) Conjunct.tokens Conjunct.predicate? := by
  obtain ⟨left, hleft⟩ := hsource.exists_member hfrom
  obtain ⟨right, hright⟩ := htarget.exists_member hto
  refine ⟨fun lookup => some ⟨lookup.find? left.qualifier.text, String.ofList left.column.text,
    c.operator, lookup.find? right.qualifier.text, String.ofList right.column.text⟩, fun t ht => ?_⟩
  obtain ⟨t, rfl, h₁⟩ := ht.exists_of_fixed
  obtain ⟨g, t, rfl, h₂⟩ := h₁.exists_of_blank
  obtain ⟨t, rfl, h₃⟩ := h₂.exists_of_fixed
  obtain ⟨g', t, rfl, h₄⟩ := h₃.exists_of_blank
  rw [h₄.eq_of_fixed, ← hleft.textOf_tokens, ← hright.textOf_tokens]
  let w : WrittenComparison := ⟨left, some g, _, c.operator.spelling_mem, some g', right⟩
  refine ⟨w.conjunct, ?_, ?_⟩
  · simp [w, WrittenComparison.conjunct, WrittenComparison.tokens, textOf_signTokens, blankTokens]
  · funext lookup
    refine (w.read?_eq lookup).trans ?_
    simp only [w, WrittenComparison.predicate, WrittenComparison.operator, Comparison.get_spelling]
    rfl

namespace WrittenJoin

def predicatesRead (j : WrittenJoin) : List (Lookup → Option Select.OnPredicate) :=
  (j.on.map fun o => o.conditions.items.map Conjunct.predicate?).getD []

def content (j : WrittenJoin) :
    JoinKind × (Text × Option Text) × List (Lookup → Option Select.OnPredicate) :=
  (j.joinKind, j.table.content, j.predicatesRead)

theorem predicates_eq (j : WrittenJoin) (lookup : Lookup) (joined : String) :
    j.predicates lookup joined = (j.predicatesRead.filterMap fun read => read lookup).map
      (·.oriented joined) := by
  rw [predicates, predicatesRead]
  cases j.on with
  | none => rfl
  | some o =>
    rw [Option.map_some, Option.getD_some, List.filterMap_map]
    rfl

theorem enter_congr {t t' : WrittenTable} (h : t.content = t'.content) (sources : Select.Sources)
    (id : String) : sources.enter id t = sources.enter id t' := by
  obtain ⟨name, aliasText⟩ := Prod.mk.inj h
  rw [Select.Sources.enter, Select.Sources.enter, name, aliasText]

theorem join_congr {j j' : WrittenJoin} (h : j.content = j'.content) (sources : Select.Sources)
    (table id : String) : sources.join table id j = sources.join table id j' := by
  obtain ⟨kind, h⟩ := Prod.mk.inj h
  obtain ⟨content, read⟩ := Prod.mk.inj h
  have predicates (lookup : Lookup) (joined : String) : j.predicates lookup joined =
      j'.predicates lookup joined := by
    rw [predicates_eq, predicates_eq, read]
  rw [Select.Sources.join, Select.Sources.join, enter_congr content]
  simp only [readsFrom, predicates, kind]

end WrittenJoin

namespace WrittenJoins

def content (js : WrittenJoins) :
    List (JoinKind × (Text × Option Text) × List (Lookup → Option Select.OnPredicate)) :=
  js.map fun j => j.2.content

theorem joinStems_congr {js js' : WrittenJoins} (h : js.content = js'.content) :
    joinStems js = joinStems js' := by
  induction js generalizing js' with
  | nil =>
    cases js' with
    | nil => rfl
    | cons j' js' => cases h
  | cons j js ih =>
    cases js' with
    | nil => cases h
    | cons j' js' => rw [joinStems, joinStems, ih (List.cons.inj h).2]

theorem joinAll_congr {js js' : WrittenJoins} (h : js.content = js'.content)
    (sources : Select.Sources) (ids : List String) :
    sources.joinAll ids js = sources.joinAll ids js' := by
  induction js generalizing js' sources ids with
  | nil =>
    cases js' with
    | nil => rfl
    | cons j' js' => cases h
  | cons j js ih =>
    cases js' with
    | nil => cases h
    | cons j' js' =>
      obtain ⟨hj, hjs⟩ := List.cons.inj h
      obtain _ | ⟨table, _ | ⟨id, ids⟩⟩ := ids
      · rfl
      · rfl
      · rw [Select.Sources.joinAll, Select.Sources.joinAll, WrittenJoin.join_congr hj, ih hjs]

end WrittenJoins

theorem stable_onLexemes {lss : List (List Lexeme)}
    (h : ∀ ls ∈ lss, Stable ls Conjunct.tokens Conjunct.predicate?) :
    Stable (onLexemes lss) (fun o : Option WrittenOn => (o.map WrittenOn.tokens).getD [])
      fun o => (o.map fun o => o.conditions.items.map Conjunct.predicate?).getD [] := by
  rw [onLexemes]
  split
  · exact ⟨[], fun t ht => ⟨none, ht.eq_nil.symm, rfl⟩⟩
  · rename_i hne
    obtain ⟨m, conditions⟩ := stable_conjunction (by simpa using hne) h
    refine ⟨m, fun t ht => ?_⟩
    obtain ⟨u, v, rfl, hu, hv⟩ := ht.exists_of_append
    obtain ⟨s, rfl⟩ := hu.exists_word
    obtain ⟨c, rfl, rfl⟩ := conditions v hv
    exact ⟨some ⟨s.before, s.word, s.after, c⟩, by simp [WrittenOn.tokens, WordGap.tokens], rfl⟩

namespace Query.Tidy

variable {q : Query} (h : q.Tidy)
include h

theorem stable_join {j : Join} (hj : j ∈ q.joins) {ls : List Lexeme}
    (hls : j.lexemes? q.tables = some ls) :
    Stable (.line :: ls) WrittenJoins.tokens WrittenJoins.content := by
  rw [Join.lexemes?] at hls
  obtain ⟨source, hsource, hls⟩ := Option.bind_eq_some_iff.mp hls
  obtain ⟨target, htarget, hls⟩ := Option.bind_eq_some_iff.mp hls
  obtain rfl := Option.some.inj hls
  have source := h.tables source (mem_of_findTable? hsource)
  have target := h.tables target (mem_of_findTable? htarget)
  obtain ⟨table, htable⟩ := target.stable_lexemes
  obtain ⟨read, hon⟩ := stable_onLexemes (List.forall_mem_map.mpr fun c hc =>
    JoinCondition.stable_lexemes source target (h.joins j hj c hc).1 (h.joins j hj c hc).2)
  refine Stable.block (WrittenJoins.blocks none) (show Stable _ _ WrittenJoin.content from
    ⟨((Vocabulary.read? (" ".intercalate (capitalKind j.kind))).get
      (WrittenKind.exists_kind _ (capitalKind_mem j.kind)), table, read), fun t ht => ?_⟩)
  obtain ⟨u₁, t, rfl, h₁, h₂⟩ := ht.exists_of_append
  obtain ⟨kind, rfl⟩ := h₁.exists_phrase (isPhrase_capitalKind j.kind).1
  obtain ⟨u₂, t, rfl, h₃, h₄⟩ := h₂.exists_of_append
  obtain ⟨s, rfl⟩ := h₃.exists_word
  obtain ⟨u₃, u₄, rfl, h₅, h₆⟩ := h₄.exists_of_append
  obtain ⟨w, rfl, rfl⟩ := htable u₃ h₅
  obtain ⟨o, rfl, rfl⟩ := hon u₄ h₆
  refine ⟨⟨some ⟨_, capitalKind_mem j.kind, kind, s.before⟩, s.word, s.after, w, o⟩, ?_, rfl⟩
  simp [WrittenJoins.blocks, WrittenJoin.headTokens, WrittenJoin.kindTokens, WrittenKind.tokens,
    WrittenJoin.onTokens, WordGap.tokens]

theorem stable_joins :
    Stable ((q.joins.filterMap (·.lexemes? q.tables)).flatMap (.line :: ·)) WrittenJoins.tokens
    WrittenJoins.content := by
  rw [List.flatMap_def]
  refine Stable.flatten (WrittenJoins.blocks none) (List.forall_mem_map.mpr fun ls hls => ?_)
  obtain ⟨j, hj, hls⟩ := List.mem_filterMap.mp hls
  exact h.stable_join hj hls

end Query.Tidy

namespace WrittenSelect

variable {s s' : WrittenSelect}

/-- A clause that is read in one way only is read alike from clauses of the same content. -/
theorem body?_congr {M : Type} {keyword : String} {read : Text → M} {wrap : M → ClauseReading}
    (hread : ∀ t, Select.bodyReading keyword t = wrap (read t)) (hwrap : Function.Injective wrap)
    (h : s.clauses.content = s'.clauses.content) :
    (s.readClauses.body? keyword).map read = (s'.readClauses.body? keyword).map read := by
  refine Option.map_injective hwrap ?_
  have bodies (s : WrittenSelect) : ((s.readClauses.body? keyword).map read).map wrap =
      (s.clauses.body? keyword).map (Select.bodyReading keyword) := by
    rw [Option.map_map, funext hread]
    rfl
  rw [bodies, bodies, WrittenClauses.map_body?, WrittenClauses.map_body?, h]

theorem readFilter?_congr (keyword : String)
    (hread : ∀ t, Select.bodyReading keyword t = .filter fun scope => Filter.read scope t)
    (h : s.clauses.content = s'.clauses.content) (scope : Scope) :
    Select.readFilter? scope (s.readClauses.body? keyword) =
      Select.readFilter? scope (s'.readClauses.body? keyword) := by
  have same := body?_congr hread (fun _ _ => ClauseReading.filter.inj) h
  have read (body : Option Text) : Select.readFilter? scope body =
      match body.map fun t scope => Filter.read scope t with
      | none => .ok none
      | some read => do return some (← read scope) := by
    cases body <;> rfl
  rw [read, read, same]

theorem readRowLimits_congr (h : s.clauses.content = s'.clauses.content) :
    Select.readRowLimits s.readClauses = Select.readRowLimits s'.readClauses := by
  have getD {M : Type} {read : Text → M} {b b' : Option Text} (h : b.map read = b'.map read) :
      read (b.getD []) = read (b'.getD []) := by
    cases b <;> cases b' <;> simp_all
  have limit : ∀ t, Select.bodyReading "LIMIT" t = .limit (Select.readLimit t) := fun _ => rfl
  have offset : ∀ t, Select.bodyReading "OFFSET" t =
      .rows (Select.readNumber? Select.offsetNumber t) :=
    fun _ => rfl
  have fetch : ∀ t, Select.bodyReading "FETCH" t =
      .rows (Select.readNumber? Select.fetchNumber t) :=
    fun _ => rfl
  rw [Select.readRowLimits, Select.readRowLimits,
    getD (body?_congr limit (fun _ _ => ClauseReading.limit.inj) h),
    getD (body?_congr offset (fun _ _ => ClauseReading.rows.inj) h),
    getD (body?_congr fetch (fun _ _ => ClauseReading.rows.inj) h)]

/-- What the reader makes of the parts of a `SELECT`, but for the ids. -/
structure Content where
  distinct : Bool
  list : (Scope → Except ReadError (List SelectedColumn)) × (List TableRef → List TableRef)
  table : Text × Option Text
  joins : List (JoinKind × (Text × Option Text) × List (Lookup → Option Select.OnPredicate))
  clauses : List (String × ClauseReading)

def content (s : WrittenSelect) : Content where
  distinct := s.distinct.isSome
  list := Select.listReading (textOf s.columns)
  table := s.table.content
  joins := s.joins.content
  clauses := s.clauses.content

theorem query_congr (h : s.content = s'.content) (sources : Select.Sources) :
    s.query sources = s'.query sources := by
  obtain ⟨distinct, list, -, -, clauses⟩ := Content.mk.inj h
  obtain ⟨columns, ticked⟩ := Prod.mk.inj list
  have columns : Select.readColumns sources.scope (some (textOf s.columns)) =
      Select.readColumns sources.scope (some (textOf s'.columns)) := congrFun columns sources.scope
  have ticked : Select.tickedTables (some (textOf s.columns)) =
      Select.tickedTables (some (textOf s'.columns)) :=
    ticked
  have filters := readFilter?_congr "WHERE" (fun _ => rfl) clauses sources.scope
  have having := readFilter?_congr "HAVING" (fun _ => rfl) clauses sources.scope
  have groups : ∀ t, Select.bodyReading "GROUP BY" t = .columns fun scope aliases =>
      Select.groupColumns scope aliases t :=
    fun _ => rfl
  have orders : ∀ t, Select.bodyReading "ORDER BY" t = .order fun scope aliases =>
      Select.orderItems scope aliases t :=
    fun _ => rfl
  have groups (aliases : List Text) : (s.readClauses.body? "GROUP BY").map
    (Select.groupColumns sources.scope aliases) =
      (s'.readClauses.body? "GROUP BY").map (Select.groupColumns sources.scope aliases) := by
    have := congrArg (Option.map fun read => read sources.scope aliases)
      (body?_congr groups (fun _ _ => ClauseReading.columns.inj) clauses)
    simpa [Option.map_map, Function.comp_def] using this
  have orders (aliases : List Text) : (s.readClauses.body? "ORDER BY").map
    (Select.orderItems sources.scope aliases) =
      (s'.readClauses.body? "ORDER BY").map (Select.orderItems sources.scope aliases) := by
    have := congrArg (Option.map fun read => read sources.scope aliases)
      (body?_congr orders (fun _ _ => ClauseReading.order.inj) clauses)
    simpa [Option.map_map, Function.comp_def] using this
  simp only [query, Select.readParts, columns, filters, having, readRowLimits_congr clauses,
    Select.assemble, ticked, groups, orders, distinct]

/-- What the ids are taken for, and what is read with them, is the same. -/
theorem read_congr (h : s.content = s'.content) {σ : Type} (ids : IdSource σ) :
    Select.read ids s.text = Select.read ids s'.text := by
  obtain ⟨-, -, table, joins, -⟩ := Content.mk.inj h
  have stems : s.stems = s'.stems := by
    rw [WrittenSelect.stems, WrittenSelect.stems, WrittenJoins.joinStems_congr joins]
  have start (id : String) : s.startSources id = s'.startSources id := by
    simp only [startSources, WrittenJoin.enter_congr table]
  have sources (names : List String) : s.sources names = s'.sources names := by
    cases names with
    | nil => rfl
    | cons id names =>
      rw [WrittenSelect.sources, WrittenSelect.sources, start]
      exact WrittenJoins.joinAll_congr joins _ _
  funext st
  refine (s.read_eq ids st).trans (Eq.trans ?_ (s'.read_eq ids st).symm)
  simp only [stems, sources, query_congr h]

end WrittenSelect

/-- A `SELECT` up to the end of its list. -/
structure WrittenHead where
  select : Spelling "SELECT"
  gap : Gap
  distinct : Option (Spelling "DISTINCT" × Gap)
  columns : QuietTokens columnKeywords

namespace WrittenHead

def distinctTokens (h : WrittenHead) : List Token :=
  (h.distinct.map fun d => [d.1.token, d.2.token]).getD []

def tokens (h : WrittenHead) : List Token :=
  h.select.token :: h.gap.token :: (h.distinctTokens ++ h.columns.1)

end WrittenHead

namespace Query.Tidy

variable {q : Query} (h : q.Tidy)
include h

theorem stable_head : Stable q.selectLexemes WrittenHead.tokens fun w =>
    (w.distinct.isSome, Select.listReading (textOf w.columns.1)) := by
  have listed {ls : List Lexeme} (settled : Settled ls columnKeywords Select.listReading)
    (distinct : Bool) :
      Stable (.keyword "SELECT" isKeyword_select :: .space ::
        ((if distinct then [.keyword "DISTINCT" isKeyword_distinct, .space] else []) ++ ls))
          WrittenHead.tokens fun w =>
          (w.distinct.isSome, Select.listReading (textOf w.columns.1)) := by
    obtain ⟨m, settled⟩ := settled
    refine ⟨(distinct, m), fun t ht => ?_⟩
    obtain ⟨select, t, rfl, h₁⟩ := ht.exists_of_keyword
    obtain ⟨gap, t, rfl, h₂⟩ := h₁.exists_of_blank
    obtain ⟨u, v, rfl, h₃, h₄⟩ := h₂.exists_of_append
    obtain ⟨columns, rfl, rfl⟩ := settled v h₄
    cases distinct with
    | false =>
      exact ⟨⟨select, gap, none, columns⟩,
        by simp [WrittenHead.tokens, WrittenHead.distinctTokens, h₃.eq_nil], rfl⟩
    | true =>
      obtain ⟨word, t, rfl, h₅⟩ := Relaid.exists_of_keyword h₃
      obtain ⟨behind, t, rfl, h₆⟩ := h₅.exists_of_blank
      refine ⟨⟨select, gap, some (word, behind), columns⟩, ?_, rfl⟩
      simp [WrittenHead.tokens, WrittenHead.distinctTokens, h₆.eq_nil]
  rw [selectLexemes]
  by_cases hne : q.selectedColumns = []
  · rw [if_pos (by simp [hne])]
    exact listed settled_star false
  · rw [if_neg (by simpa using hne)]
    exact listed (h.settled_columns hne) q.distinct

theorem stable_own (d : Dialect) {anchor : TableRef} (hanchor : anchor ∈ q.tables) :
    Stable (linesOf (q.ownLexemes d anchor)) WrittenSelect.tokens WrittenSelect.content := by
  obtain ⟨⟨distinct, list⟩, head⟩ := h.stable_head
  obtain ⟨table, htable⟩ := (h.tables anchor hanchor).stable_lexemes
  obtain ⟨joins, hjoins⟩ := h.stable_joins
  obtain ⟨clauses, hclauses⟩ := h.stable_ending d
  refine ⟨⟨distinct, list, table, joins, clauses⟩, fun t ht => ?_⟩
  rw [ownLexemes, linesOf_cons, List.flatMap_cons, List.flatMap_append] at ht
  obtain ⟨u, t, rfl, h₁, h₂⟩ := ht.exists_of_append
  obtain ⟨u', t, rfl, h₃, h₄⟩ := h₂.exists_of_append
  obtain ⟨v, v', rfl, h₅, h₆⟩ := h₄.exists_of_append
  obtain ⟨sourceGap, t, rfl, h₇⟩ := h₃.exists_of_blank
  obtain ⟨source, t, rfl, h₈⟩ := h₇.exists_of_keyword
  obtain ⟨tableGap, t, rfl, h₉⟩ := h₈.exists_of_blank
  obtain ⟨w, rfl, hw⟩ := head u h₁
  obtain ⟨written, rfl, rfl⟩ := htable t h₉
  obtain ⟨js, rfl, rfl⟩ := hjoins v h₅
  obtain ⟨cs, rfl, rfl⟩ := hclauses v' h₆
  obtain ⟨rfl, rfl⟩ := Prod.mk.inj hw
  refine ⟨⟨w.select, w.gap, w.distinct, w.columns.1, w.columns.2.solid, w.columns.2.avoids,
    sourceGap, source, tableGap, written, js, cs⟩, ?_, rfl⟩
  cases hd : w.distinct <;>
    simp [WrittenSelect.tokens, WrittenSelect.headTokens, WrittenSelect.distinctTokens,
      WrittenSelect.sourceTokens, WrittenHead.tokens, WrittenHead.distinctTokens, hd]

end Query.Tidy

end SqlCanvas
