import SqlCanvas.Proofs.Regeneration.OnClause
import SqlCanvas.Proofs.Regeneration.Part

/-!
# Drafts of canonical queries

The tables, joins and trailing clauses of a canonical query, and from all its parts a draft of the
whole. Besides the text of the query the draft tells what is read from each part, in whatever scope
knows the tables.
-/

namespace SqlCanvas

open Text Nesting Pattern

def WrittenNumber.ofNat (n : Nat) (h : IsReadable n) : WrittenNumber :=
  ⟨Numeral.ofNat n, Nat.toDigits_ne_nil, fun _ hc => Numeral.isDigit_of_mem_ofNat hc, h⟩

theorem WrittenNumber.value_ofNat {n : Nat} (h : IsReadable n) : (ofNat n h).value = n :=
  Numeral.value_ofNat n

theorem WrittenNumber.digits_ofNat {n : Nat} (h : IsReadable n) :
    (ofNat n h).digits = (Dialect.intText n).toList :=
  String.toList_ofList.symm

theorem isReadable_zero : IsReadable 0 := by
  rw [IsReadable]
  decide

theorem WrittenClauses.textOf_clause {words : List String} {A : Type} (h : Headed words A)
    (mem : words ∈ Select.clausePhrases) (write : A → List Token) (solid : ∀ a, Solid (write a))
    (avoids : ∀ a, ∀ x ∈ write a, x.Avoids bodyKeywords) (cs : WrittenClauses) :
    textOf (tokens (h.clause mem write solid avoids :: cs)) = h.before.text ++
      (textOf h.phrase.tokens ++
      (h.after.text ++ (textOf (write h.body) ++ textOf cs.tokens))) := by
  simp [tokens, blocks, Headed.clause, WrittenClause.headTokens, WrittenClause.bodyTokens]

theorem WrittenClauses.textOf_line {words : List String} {A : Type} (h : IsPhrase words) (body : A)
    (mem : words ∈ Select.clausePhrases) (write : A → List Token) (solid : ∀ a, Solid (write a))
    (avoids : ∀ a, ∀ x ∈ write a, x.Avoids bodyKeywords) (cs : WrittenClauses) :
    textOf (tokens ((Headed.line words h body).clause mem write solid avoids :: cs)) =
      '\n' ::
        ((" ".intercalate words).toList ++ ' ' :: (textOf (write body) ++ textOf cs.tokens)) := by
  rw [textOf_clause, Headed.line, Phrase.textOf_capital]
  rfl

/-- The rows are limited as the dialect writes it. An offset of zero counts as none. -/
structure WrittenLimits.States (l : WrittenLimits) (d : Dialect) (limit : Nat)
    (offset : Option Nat) : Prop where
  text : '\n' :: (d.pagination limit (offset.map Int.ofNat)).toList = textOf l.clauses.tokens
  limit : l.value.limit = some limit
  offset : l.value.offset.filter (· ≠ 0) = offset.filter (· ≠ 0)

theorem exists_fetch {limit : Nat} (h : IsReadable limit) {offset : Option Nat}
    (hoffset : ∀ n ∈ offset, IsReadable n) :
    ∃ l : WrittenLimits, l.States .sqlserver limit offset := by
  have readable : IsReadable (offset.getD 0) := by
    cases offset with
    | none => exact isReadable_zero
    | some n => exact hoffset n rfl
  refine ⟨.fetch (.line _ (by decide) ⟨.ofNat _ readable, some (.space, .capital _ (by decide))⟩)
    ⟨.space, .capital _ (by decide), .space, .capital _ (by decide), .space, .ofNat _ h, .space,
      .capital _ (by decide), .space, .capital _ (by decide)⟩, ?_, ?_, ?_⟩
  · have number : (offset.map Int.ofNat).getD 0 = Int.ofNat (offset.getD 0) := by
      cases offset <;> rfl
    rw [WrittenLimits.clauses, WrittenClauses.textOf_line, WrittenClauses.textOf_clause,
      Dialect.pagination, number]
    simp [WrittenOffset.tokens, WrittenOffset.rowsTokens, WrittenFetch.tokens,
      WrittenNumber.digits_ofNat, Gap.space, Spelling.capital, Phrase.capital, Phrase.tokens,
        WrittenClauses.tokens]
  · exact congrArg some (WrittenNumber.value_ofNat h)
  · change (some (WrittenNumber.ofNat (offset.getD 0) readable).value).filter _ = _
    rw [WrittenNumber.value_ofNat]
    cases offset <;> rfl

theorem exists_limit {d : Dialect} (hd : d ≠ .sqlserver) {limit : Nat} (h : IsReadable limit)
    {offset : Option Nat} (hoffset : ∀ n ∈ offset, IsReadable n) :
    ∃ l : WrittenLimits, l.States d limit offset := by
  have pagination (offset : Option Int) : d.pagination limit offset =
      "LIMIT " ++ Dialect.intText limit ++
        offset.elim "" fun m => if 0 < m then " OFFSET " ++ Dialect.intText m else "" := by
    cases d with
    | sqlserver => exact absurd rfl hd
    | postgresql | mysql | sqlite => cases offset <;> rfl
  -- A zero offset is neither written nor read.
  have bare (hzero : offset.filter (· ≠ 0) = none) : ∃ l : WrittenLimits,
      l.States d limit offset := by
    refine ⟨.limit (.line _ (by decide) (.ofNat limit h)) none, ?_,
      congrArg some (WrittenNumber.value_ofNat h), hzero.symm⟩
    have nothing : ((offset.map Int.ofNat).elim "" fun m =>
        if 0 < m then " OFFSET " ++ Dialect.intText m else "") = "" := by
      cases offset with
      | none => rfl
      | some n =>
        obtain rfl : n = 0 := by simpa using hzero
        rfl
    rw [WrittenLimits.clauses, WrittenClauses.textOf_line, pagination, nothing]
    simp [WrittenNumber.tokens, WrittenNumber.digits_ofNat, WrittenClauses.tokens]
  cases offset with
  | none => exact bare rfl
  | some n =>
    by_cases hn : n = 0
    · exact bare (by simp [hn])
    · refine ⟨.limit (.line _ (by decide) (.ofNat limit h))
        (some ⟨.space, .capital _ (by decide), .space, .ofNat n (hoffset n rfl), none⟩), ?_,
        congrArg some (WrittenNumber.value_ofNat h), ?_⟩
      · have positive : 0 < n := by omega
        rw [WrittenLimits.clauses, WrittenClauses.textOf_line, pagination, Option.map_some,
          Option.map_some, Option.toList_some, WrittenClauses.textOf_clause]
        simp [positive, WrittenNumber.tokens, WrittenOffset.tokens, WrittenOffset.rowsTokens,
          WrittenNumber.digits_ofNat, WrittenClauses.tokens, Gap.space, Phrase.capital,
          Phrase.tokens, Spelling.capital]
      · change (some (WrittenNumber.ofNat n (hoffset n rfl)).value).filter _ = _
        rw [WrittenNumber.value_ofNat]

theorem exists_limits (d : Dialect) {limit : Nat} (h : IsReadable limit) {offset : Option Nat}
    (hoffset : ∀ n ∈ offset, IsReadable n) : ∃ l : WrittenLimits, l.States d limit offset := by
  by_cases hd : d = .sqlserver
  · subst hd
    exact exists_fetch h hoffset
  · exact exists_limit hd h hoffset

theorem textOf_clauses_append (cs cs' : WrittenClauses) :
    textOf (WrittenClauses.tokens (cs ++ cs')) = textOf cs.tokens ++ textOf cs'.tokens := by
  simp [WrittenClauses.tokens, Blocks.tokens]

def textOfLines (lines : List String) : Text :=
  lines.flatMap fun l => '\n' :: l.toList

theorem textOfLines_append (ls ls' : List String) :
    textOfLines (ls ++ ls') = textOfLines ls ++ textOfLines ls' :=
  List.flatMap_append

theorem textOf_optional_line {words : List String} {A : Type} (hwords : IsPhrase words)
    (mem : words ∈ Select.clausePhrases) (write : A → List Token) (solid : ∀ a, Solid (write a))
    (avoids : ∀ a, ∀ x ∈ write a, x.Avoids bodyKeywords) {body : Option A} {text : Option String}
    (h : text.map String.toList = body.map fun a => textOf (write a)) :
    textOf (WrittenClauses.tokens ((body.map (Headed.line words hwords)).map fun c =>
        c.clause mem write solid avoids).toList) =
      textOfLines (text.map (" ".intercalate words ++ " " ++ ·)).toList := by
  cases body with
  | none =>
    obtain rfl : text = none := by simpa using h
    rfl
  | some a =>
    obtain ⟨t, rfl, ht⟩ := Option.map_eq_some_iff.mp h
    rw [Option.map_some, Option.map_some, Option.toList_some, WrittenClauses.textOf_line]
    simp [textOfLines, WrittenClauses.tokens, ht]

/-- The trailing clauses of a query, and what is read from them. -/
structure WrittenEnding.States (e : WrittenEnding) (q : Query) (d : Dialect) : Prop where
  text : textOfLines (q.whereLine ++ q.groupLines ++ q.orderLine ++ q.limitLine d) =
    textOf e.clauses.tokens
  filters : ∀ scope f, Scope.Knows scope q.tables f →
    (e.filter.elim (.ok none) fun h => (h.body.readWith scope).map some) = .ok (q.own f).filters
  grouping : ∀ scope f, Scope.Knows scope q.tables f → ∃ having,
    (e.having.elim (.ok none) fun h => (h.body.readWith scope).map some) = .ok having ∧ ∀ aliases,
      Select.grouping (e.group.map fun h =>
        Select.groupColumns scope aliases (textOf h.body.tokens)) having = (q.own f).groupBy
  order : ∀ scope f aliases, Scope.Knows scope q.tables f →
    (e.order.map fun h => Select.orderItems scope aliases (textOf h.body.tokens)) =
      (q.own f).orderBy
  limit : ((e.limits.map WrittenLimits.value).getD ⟨none, none⟩).limit = q.limit
  offset : ((e.limits.map WrittenLimits.value).getD ⟨none, none⟩).offset.filter (· ≠ 0) =
    (q.own id).offset
  unfiltered : q.filters = none → e.filter = none

theorem Query.Flat.exists_optional_filter {q : Query} (h : q.Flat) {g : Option FilterGroup}
    (hg : ∀ g' ∈ g, g'.Canonical q.tables) : ∃ w : Option WrittenFilter,
      (g.bind (·.sql? q.tables)).map String.toList = (w.map fun w => textOf w.tokens) ∧
        ∀ scope f, Scope.Knows scope q.tables f →
          (w.elim (.ok none) fun w => (w.readWith scope).map some) =
            .ok (g.map fun g => ⟨g.operator, FilterNode.mapAll f g.children⟩) := by
  cases g with
  | none => exact ⟨none, rfl, fun _ _ _ => rfl⟩
  | some g =>
    obtain ⟨w, hw⟩ := h.exists_filter (hg g rfl)
    refine ⟨some w, ?_, fun scope f hf => ?_⟩
    · rw [Option.bind_some, hw.text]
      simp
    · rw [Option.elim_some, hw.reads scope f hf]
      rfl

theorem FilterGroup.toNode_mapAll (f : String → String) (g : FilterGroup) :
    FilterGroup.toNode ⟨g.operator, FilterNode.mapAll f g.children⟩ = g.toNode.mapTables f := by
  rw [toNode, toNode, FilterNode.mapTables]

theorem Query.Flat.exists_having {q : Query} (h : q.Flat) {g : GroupClause}
    (hg : q.groupBy = some g) :
    ∃ having : Option FilterGroup, g.having = having.map (·.toNode) ∧
    ∀ f ∈ having, f.Canonical q.tables := by
  obtain ⟨-, -, hhaving⟩ := h.groupBy g hg
  cases hn : g.having with
  | none => exact ⟨none, rfl, by simp⟩
  | some n =>
    obtain ⟨f, rfl, hf⟩ := hhaving n hn
    exact ⟨some f, rfl, by simpa using hf⟩

theorem Query.Flat.exists_groups {q : Query} (h : q.Flat) :
    ∃ (l : Option Listing) (w : Option WrittenFilter) (group having : Option String),
      q.groupLines = (group.map ("GROUP BY " ++ ·)).toList ++ (having.map ("HAVING " ++ ·)).toList ∧
      group.map String.toList = (l.map fun l => textOf l.tokens) ∧
      having.map String.toList = (w.map fun w => textOf w.tokens) ∧
        ∀ scope f, Scope.Knows scope q.tables f → ∃ read,
          (w.elim (.ok none) fun w => (w.readWith scope).map some) = .ok read ∧ ∀ aliases,
            Select.grouping
              (l.map fun l => Select.groupColumns scope aliases (textOf l.tokens)) read =
              (q.own f).groupBy := by
  cases hgroup : q.groupBy with
  | none =>
    refine ⟨none, none, none, none, by simp [groupLines, hgroup], rfl, rfl,
      fun scope f hf => ⟨none, rfl, ?_⟩⟩
    intro aliases
    simp [own, hgroup, Select.grouping]
  | some g =>
    obtain ⟨any, hcolumns, -⟩ := h.groupBy g hgroup
    obtain ⟨having, hg, hcanonical⟩ := h.exists_having hgroup
    obtain ⟨w, hwtext, hwreads⟩ := h.exists_optional_filter hcanonical
    have havingText : g.havingSql? q.tables = having.bind (·.sql? q.tables) := by
      rw [GroupClause.havingSql?, hg]
      cases having <;> rfl
    by_cases hne : g.columns = []
    · refine ⟨none, w, none, g.havingSql? q.tables, ?_, rfl, havingText ▸ hwtext, fun scope f hf =>
        ⟨_, hwreads scope f hf, fun aliases => ?_⟩⟩
      · simp [groupLines, hgroup, GroupClause.lines, hne]
      · obtain ⟨g', hg'⟩ : ∃ g', having = some g' := by
          cases having with
          | none => simp [hne, hg] at any
          | some g' => exact ⟨g', rfl⟩
        simp [own, hgroup, hne, hg, hg', Select.grouping, FilterGroup.toNode_mapAll]
    · obtain ⟨l, hltext, hlreads⟩ := h.exists_grouping hne hcolumns
      refine ⟨some l, w, some (g.columnsSql q.tables), g.havingSql? q.tables, ?_,
        congrArg some hltext, havingText ▸ hwtext,
          fun scope f hf => ⟨_, hwreads scope f hf, fun aliases => ?_⟩⟩
      · simp [groupLines, hgroup, GroupClause.lines, hne]
      · rw [Option.map_some, hlreads scope f aliases hf]
        cases having <;> simp [own, hgroup, hg, Select.grouping, FilterGroup.toNode_mapAll]

theorem Query.Flat.exists_orders {q : Query} (h : q.Flat) :
    ∃ (l : Option Listing) (order : Option String),
    q.orderLine = (order.map ("ORDER BY " ++ ·)).toList ∧
    order.map String.toList = (l.map fun l => textOf l.tokens) ∧
      ∀ scope f aliases, Scope.Knows scope q.tables f →
        (l.map fun l => Select.orderItems scope aliases (textOf l.tokens)) = (q.own f).orderBy := by
  cases horder : q.orderBy with
  | none =>
    refine ⟨none, none, by simp [orderLine, horder], rfl, fun scope f aliases hf => ?_⟩
    simp [own, horder]
  | some os =>
    obtain ⟨hne, hos⟩ := h.orderBy os horder
    obtain ⟨l, hltext, hlreads⟩ := h.exists_ordering hne hos
    refine ⟨some l, some (commaList (os.map (·.sql q.tables))), ?_, congrArg some hltext,
      fun scope f aliases hf => ?_⟩
    · obtain ⟨o, os, rfl⟩ := List.exists_cons_of_ne_nil hne
      simp [orderLine, horder]
    · rw [Option.map_some, hlreads scope f aliases hf]
      simp [own, horder]

/-- The limits of rows are written where there is a limit, and an offset without one is left out. -/
theorem Query.exists_row_limits (q : Query) (d : Dialect) (hlimit : ∀ n ∈ q.limit, IsReadable n)
    (hoffset : ∀ n ∈ q.offset, IsReadable n) : ∃ l : Option WrittenLimits,
    textOfLines (q.limitLine d) =
      textOf (WrittenClauses.tokens ((l.map WrittenLimits.clauses).getD [])) ∧
      ((l.map WrittenLimits.value).getD ⟨none, none⟩).limit = q.limit ∧
      ((l.map WrittenLimits.value).getD ⟨none, none⟩).offset.filter (· ≠ 0) =
        (q.limit.bind fun _ => q.offset).filter (· ≠ 0) := by
  cases hl : q.limit with
  | none => exact ⟨none, by simp [limitLine, hl, textOfLines, WrittenClauses.tokens], rfl, rfl⟩
  | some limit =>
    obtain ⟨l, hstates⟩ := exists_limits d (hlimit limit hl) hoffset
    refine ⟨some l, ?_, hstates.limit, hstates.offset⟩
    rw [limitLine, hl]
    simpa [textOfLines] using hstates.text

theorem Query.Flat.exists_row_limits {q : Query} (h : q.Flat) (d : Dialect) :
    ∃ l : Option WrittenLimits,
    textOfLines (q.limitLine d) =
      textOf (WrittenClauses.tokens ((l.map WrittenLimits.clauses).getD [])) ∧
      ((l.map WrittenLimits.value).getD ⟨none, none⟩).limit = q.limit ∧
      ((l.map WrittenLimits.value).getD ⟨none, none⟩).offset.filter (· ≠ 0) =
        q.offset.filter (· ≠ 0) := by
  have limited : (q.limit.bind fun _ => q.offset) = q.offset := by
    cases ho : q.offset with
    | none => cases q.limit <;> rfl
    | some n =>
      obtain ⟨limit, hlimit⟩ := Option.isSome_iff_exists.mp (h.offset n ho).2
      rw [hlimit]
      rfl
  have := q.exists_row_limits d h.limit fun n hn => (h.offset n hn).1
  rwa [limited] at this

theorem Query.Flat.exists_ending {q : Query} (h : q.Flat) (d : Dialect) :
    ∃ e : WrittenEnding, e.States q d := by
  obtain ⟨filter, hfilter, filters⟩ := h.exists_optional_filter h.filters
  obtain ⟨groups, having, group, condition, hlines, hgroup, hhaving, grouping⟩ := h.exists_groups
  obtain ⟨orders, order, hline, horder, ordering⟩ := h.exists_orders
  obtain ⟨limits, hlimits, hlimit, hoffset⟩ := h.exists_row_limits d
  refine ⟨{
    filter := filter.map (.line _ (by decide))
    group := groups.map (.line _ (by decide))
    having := having.map (.line _ (by decide))
    order := orders.map (.line _ (by decide))
    limits := limits }, ?_, ?_, ?_, ?_, hlimit, hoffset, ?_⟩
  · rw [WrittenEnding.clauses, textOf_clauses_append, textOf_clauses_append, textOf_clauses_append,
      textOf_clauses_append, WrittenEnding.filterClause, WrittenEnding.groupClause,
      WrittenEnding.havingClause, WrittenEnding.orderClause, WrittenEnding.limitClauses,
      textOf_optional_line _ _ _ _ _ hfilter, textOf_optional_line _ _ _ _ _ hgroup,
      textOf_optional_line _ _ _ _ _ hhaving, textOf_optional_line _ _ _ _ _ horder, ← hlimits]
    simp only [textOfLines_append, hlines, hline, List.append_assoc]
    rfl
  · intro scope f hf
    rw [Option.elim_map]
    exact filters scope f hf
  · intro scope f hf
    obtain ⟨read, hread, hgrouping⟩ := grouping scope f hf
    refine ⟨read, ?_, fun aliases => ?_⟩
    · rw [Option.elim_map]
      exact hread
    · rw [Option.map_map]
      exact hgrouping aliases
  · intro scope f aliases hf
    rw [Option.map_map]
    exact ordering scope f aliases hf
  · intro hnone
    rw [hnone, Option.bind_none, Option.map_none, eq_comm, Option.map_eq_none_iff] at hfilter
    rw [hfilter, Option.map_none]

/-- The table is written under its name and its alias. -/
structure WrittenTable.States (w : WrittenTable) (t : TableRef) : Prop where
  text : t.sql.toList = textOf w.tokens
  held : w.IsHeldAs t

theorem TableRef.Nameable.exists_written {t : TableRef} (h : t.Nameable) :
    ∃ w : WrittenTable, w.States t := by
  obtain ⟨d, hshort, hd⟩ := h.name
  obtain ⟨a, hatext, ha⟩ := exists_alias (fun a ha => (h.aliasName a ha).isIdentifier) t.name
  refine ⟨⟨d, hshort, a⟩, ?_, ?_, ?_⟩
  · rw [sql, hatext, ← hd]
    exact (textOf_append _ _).symm
  · rw [hd, String.ofList_toList]
  · rw [show WrittenTable.aliasText ⟨d, hshort, a⟩ = _ from ha, optionalString_map]

/-- The join is written with its conditions, which are read back seen from the same table. -/
structure WrittenJoin.States (w : WrittenJoin) (source target : TableRef) (j : Join) : Prop where
  text : textOf w.tokens = (Vocabulary.spelling j.kind ++ " JOIN " ++ target.sql ++
    (" ON " ++ " AND ".intercalate (j.conditions.map (·.sql source target)))).toList
  table : w.table.IsHeldAs target
  kind : w.joinKind = j.kind
  reads : ∀ scope tables f, Scope.Knows scope tables f → source ∈ tables → target ∈ tables →
    f source.id ≠ "" → f source.id ≠ f target.id →
      (w.predicates scope.lookup (f target.id)).map (·.toCondition) = j.conditions ∧
        w.readsFrom scope (f target.id) = some (f source.id)

theorem WrittenComparison.States.oriented_eq {w : WrittenComparison} {source target : TableRef}
    {c : JoinCondition} (h : w.States source target c) {scope : Scope} {tables : List TableRef}
    {f : String → String} (hf : scope.Knows tables f) (hs : source ∈ tables) (ht : target ∈ tables)
    (hne : f source.id ≠ f target.id) : (w.predicate scope.lookup).oriented (f target.id) =
      ⟨some (f source.id), c.fromColumn, c.operator, some (f target.id), c.toColumn⟩ := by
  rw [h.reads scope tables f hf hs ht, Select.OnPredicate.oriented, if_neg]
  rintro ⟨hleft, -⟩
  exact hne (Option.some.inj hleft)

theorem Query.Flat.exists_comparisons {q : Query} (h : q.Flat) {j : Join} (hj : j ∈ q.joins)
    {source target : TableRef} (hs : source ∈ q.tables) (ht : target ∈ q.tables) :
    ∃ ws : List WrittenComparison,
      List.Forall₂ (fun c w => w.States source target c) j.conditions ws := by
  have member {t : TableRef} (ht : t ∈ q.tables) {column : String} (hc : IsIdentifier column) :
      ∃ x : Member, x.Stands t column := by
    obtain ⟨u, hu, hid, x, hx⟩ := h.exists_member ⟨t, ht, rfl⟩ hc
    obtain rfl : u = t := List.inj_on_of_nodup_map h.ids hu ht hid
    exact ⟨x, hx⟩
  refine exists_forall₂ fun c hc => ?_
  obtain ⟨left, right⟩ := (h.conditions j hj).2 c hc
  obtain ⟨x, hx⟩ := member hs left
  obtain ⟨y, hy⟩ := member ht right
  exact WrittenComparison.states_of_stands hx hy

theorem WrittenJoin.reads_of_states {w : WrittenJoin} {ws : List WrittenComparison}
    (compares : w.Compares ws) {source target : TableRef} {cs : List JoinCondition}
    (hws : List.Forall₂ (fun c w => w.States source target c) cs ws)
    {scope : Scope} {tables : List TableRef} {f : String → String} (hf : Scope.Knows scope tables f)
    (hsource : source ∈ tables) (htarget : target ∈ tables) (hempty : f source.id ≠ "")
    (hdiff : f source.id ≠ f target.id) :
    (w.predicates scope.lookup (f target.id)).map (·.toCondition) = cs ∧
      w.readsFrom scope (f target.id) = some (f source.id) := by
  constructor
  · rw [predicates_of_compares compares, List.map_map]
    refine ((map_eq_map_of_forall₂ hws (f := id) fun c w hw => ?_).symm).trans (List.map_id _)
    rw [Function.comp_apply, hw.oriented_eq hf hsource htarget hdiff]
    rfl
  · cases hws with
    | nil => exact absurd rfl compares.ne_nil
    | cons hw _ =>
      refine readsFrom_of_compares compares ?_ hempty
      rw [hw.oriented_eq hf hsource htarget hdiff]

theorem Query.Flat.exists_join {q : Query} (h : q.Flat) {j : Join} (hj : j ∈ q.joins)
    {source target : TableRef} (hs : source ∈ q.tables) (ht : target ∈ q.tables) :
    ∃ w : WrittenJoin, w.States source target j := by
  obtain ⟨table, htable⟩ := (h.names target ht).exists_written
  obtain ⟨ws, hws⟩ := h.exists_comparisons hj hs ht
  have wsne : ws ≠ [] := by
    rintro rfl
    exact (h.conditions j hj).1 (List.forall₂_nil_right_iff.mp hws)
  have conjuncts : ws.map WrittenComparison.conjunct ≠ [] := by simpa using wsne
  let conditions : Conjunction :=
    .ofList (.capital "AND" (by decide)) (ws.map WrittenComparison.conjunct) conjuncts
  have compares : (WrittenJoin.capital j.kind table (some conditions)).Compares ws :=
    ⟨_, rfl, Series.items_ofList _ _⟩
  refine ⟨.capital j.kind table (some conditions), ?_, htable.held, ?_, ?_⟩
  · have text : conditions.text =
        (" AND ".intercalate (j.conditions.map (·.sql source target))).toList := by
      rw [Conjunction.text, Conjunction.tokens, textOf_ofList, WordGap.textOf_capital,
        String.toList_intercalate, List.map_map, List.map_map]
      exact congrArg _ (map_eq_map_of_forall₂ hws fun c w hw => hw.text.symm).symm
    rw [WrittenJoin.textOf_capital, ← htable.text, Option.map_some, Option.getD_some, text]
    simp
  · exact WrittenKind.kind_capital j.kind
  · intro scope tables f hf hsource htarget hempty hdiff
    exact WrittenJoin.reads_of_states compares hws hf hsource htarget hempty hdiff

theorem Selection.listing_ofList (s : CommaGap) {ws : List WrittenItem} (h : ws ≠ []) :
    listing (Series.ofList s ws h) = Series.ofList s (ws.map WrittenItem.item)
      (by simpa using h) := by
  simp [listing, Series.ofList, Function.comp_def]

theorem Query.Flat.exists_columns {q : Query} (h : q.Flat) : ∃ ts : List Token, Solid ts ∧
    (∀ a ∈ ts, a.Avoids columnKeywords) ∧
    q.selectLine.toList = "SELECT ".toList ++ (if q.distinct then "DISTINCT ".toList else []) ++
      textOf ts ∧ ∀ scope f, Scope.Knows scope q.tables f →
        Select.readColumns scope (some (textOf ts)) = .ok (q.own f).selectedColumns := by
  by_cases hne : q.selectedColumns = []
  · have plain : q.distinct = false := by
      by_contra hdistinct
      exact h.distinct (by simpa using hdistinct) hne
    refine ⟨[.mark '*' (by decide)], .singleton rfl, ?_, ?_, fun scope f hf => ?_⟩
    · exact List.forall_mem_singleton.mpr (by decide : '*' ≠ ';')
    · simp [selectLine, hne, plain, Token.text]
    · simp [own, hne, Select.readColumns, Token.text]
  · obtain ⟨ws, hws⟩ := exists_forall₂ (R := fun c (w : WrittenItem) => w.States q c)
      fun c hc => h.exists_item hc
    have wsne : ws ≠ [] := by
      rintro rfl
      exact hne (List.forall₂_nil_right_iff.mp hws)
    refine ⟨(Selection.listing (.ofList .standard ws wsne)).tokens, Listing.solid _,
      fun a ha => (Listing.avoids _ a ha).mono (by decide), ?_, fun scope f hf => ?_⟩
    · have items : textOf (Selection.listing (.ofList .standard ws wsne)).tokens =
          (commaList (q.selectedColumns.map (·.sql q.tables))).toList := by
        rw [Selection.listing_ofList, Listing.tokens, textOf_ofList, CommaGap.textOf_standard,
          toList_commaList, List.map_map, List.map_map]
        exact congrArg _ (map_eq_map_of_forall₂ hws fun c w hw => hw.text).symm
      rw [items, selectLine, if_neg (by simpa using hne)]
      cases q.distinct <;> simp
    · refine (Selection.readColumns_eq _ scope).trans ?_
      rw [Series.items_ofList]
      exact congrArg _ (map_eq_map_of_forall₂ hws fun c w hw => (hw.reads scope f hf).symm).symm

/-- The draft has the text of the query, and its parts are read as those of the query. -/
structure Draft.States (w : Draft) (q : Query) (d : Dialect) (anchor : TableRef) : Prop where
  renders : w.Renders q d anchor
  distinct : w.distinct = q.distinct
  columns : ∀ scope f, Scope.Knows scope q.tables f →
    Select.readColumns scope (some (textOf w.columns)) = .ok (q.own f).selectedColumns
  table : w.table.IsHeldAs anchor
  joins : List.Forall₂ (fun j w => ∃ source ∈ q.tables, ∃ target ∈ q.tables,
    source.id = j.fromTableId ∧
    target.id = j.toTableId ∧ WrittenJoin.States w source target j) q.joins w.joins
  ending : w.ending.States q d

theorem Query.Flat.exists_sides {q : Query} (h : q.Flat) {k : Nat} {j : Join}
    (hj : q.joins[k]? = some j) :
    ∃ source ∈ q.tables.take (k + 1), ∃ target, q.tables[k + 1]? = some target ∧
      source.id = j.fromTableId ∧ target.id = j.toTableId := by
  obtain ⟨source, hsource, hfrom⟩ := h.sources k j hj
  have hto := congrArg (·[k]?) h.targets
  simp only [List.getElem?_map, hj, Option.map_some, List.getElem?_tail] at hto
  obtain ⟨target, htarget, hid⟩ := Option.map_eq_some_iff.mp hto.symm
  exact ⟨source, hsource, target, htarget, hfrom, hid⟩

theorem Join.sql?_of_states {q : Query} (h : q.Flat) {j : Join} {w : WrittenJoin}
    {source target : TableRef} (hs : source ∈ q.tables) (ht : target ∈ q.tables)
    (hfrom : source.id = j.fromTableId) (hto : target.id = j.toTableId) (hne : j.conditions ≠ [])
    (hw : w.States source target j) :
    j.sql? q.tables = some (String.ofList (textOf w.tokens)) := by
  rw [sql?, ← hfrom, ← hto, h.findTable?_eq hs, h.findTable?_eq ht, hw.text, String.ofList_toList]
  simp [hne]

theorem FilterNode.Canonical.conditions {tables : List TableRef} {n : FilterNode}
    (h : n.Canonical tables) : ∀ c ∈ n.conditions, c.Canonical tables := by
  cases h with
  | condition h =>
    rw [FilterNode.conditions]
    exact List.forall_mem_singleton.mpr h
  | group _ h =>
    rw [FilterNode.conditions, Filter.conditionsAll_map]
    exact h

theorem FilterNode.exists_of_mem_conditionsAll {ns : List FilterNode} {c : FilterCondition}
    (h : c ∈ conditionsAll ns) : ∃ n ∈ ns, c ∈ n.conditions := by
  induction ns with
  | nil => cases h
  | cons n ns ih =>
    rw [conditionsAll, List.mem_append] at h
    rcases h with h | h
    · exact ⟨n, List.mem_cons_self, h⟩
    · obtain ⟨m, hm, hc⟩ := ih h
      exact ⟨m, List.mem_cons_of_mem _ hm, hc⟩

theorem FilterGroup.Canonical.conditions {tables : List TableRef} {g : FilterGroup}
    (h : g.Canonical tables) : ∀ c ∈ g.toNode.conditions, c.Canonical tables := by
  cases h with
  | all _ h =>
    rw [FilterGroup.toNode, FilterNode.conditions, Filter.conditionsAll_map]
    exact h
  | any _ h =>
    intro c hc
    obtain ⟨n, hn, hc⟩ := FilterNode.exists_of_mem_conditionsAll hc
    exact (h n hn).conditions c hc

theorem Query.Flat.canonical_condition {q : Query} (h : q.Flat) (clause : FilterClause) :
    ∀ c ∈ q.conditions clause, c.Canonical q.tables := by
  cases clause with
  | «where» =>
    rw [Query.conditions]
    cases hf : q.filters with
    | none => exact List.forall_mem_nil _
    | some g => exact (h.filters g hf).conditions
  | having =>
    rw [Query.conditions]
    cases hg : q.groupBy with
    | none => exact List.forall_mem_nil _
    | some g =>
      rw [Option.bind_some]
      cases hn : g.having with
      | none => exact List.forall_mem_nil _
      | some n =>
        obtain ⟨f, rfl, hf⟩ := (h.groupBy g hg).having n hn
        exact hf.conditions

/-- Null tests write no value, and no other operator writes a second one. -/
theorem FilterOperator.Accepts.isWritable {o : FilterOperator} {v : Scalar} (h : o.Accepts v)
    (value2 : Datum) :
    ∀ n ∈ predicateNumerals o.shape (.scalar v) value2, Numeral.IsWritable n := by
  cases h with
  | compare _ hv | like hv | notLike hv => exact hv.isWritable
  | isNull | isNotNull => exact List.forall_mem_nil _

theorem FilterCondition.Canonical.isWritable {tables : List TableRef} {c : FilterCondition}
    (h : c.Canonical tables) : ∀ n ∈ c.numerals tables, Numeral.IsWritable n := by
  obtain ⟨v, hvalue, accepts⟩ := h.fits
  rw [numerals, hvalue]
  split
  · exact accepts.isWritable _
  · exact List.forall_mem_nil _

theorem Query.Flat.isWritable {q : Query} (h : q.Flat) (d : Dialect) :
    ∀ n ∈ q.numerals d, Numeral.IsWritable n :=
  q.isWritable_of_mem_numerals (fun clause c hc => (h.canonical_condition clause c hc).isWritable)
    ⟨h.limit, fun n hn => (h.offset n hn).1⟩ d

theorem Query.Flat.exists_draft {q : Query} (h : q.Flat) (d : Dialect) :
    ∃ (anchor : TableRef) (w : Draft), q.tables.head? = some anchor ∧ w.States q d anchor := by
  obtain ⟨anchor, rest, htables⟩ := List.exists_cons_of_ne_nil h.tables
  obtain ⟨table, htable⟩ := (h.names anchor (by simp [htables])).exists_written
  obtain ⟨ts, hsolid, havoids, hselect, hcolumns⟩ := h.exists_columns
  obtain ⟨ending, hending⟩ := h.exists_ending d
  obtain ⟨js, hjs⟩ : ∃ js, List.Forall₂ (fun j w => (∃ source ∈ q.tables, ∃ target ∈ q.tables,
      source.id = j.fromTableId ∧ target.id = j.toTableId ∧ WrittenJoin.States w source target j) ∧
        j.sql? q.tables = some (String.ofList (textOf w.tokens))) q.joins js := by
    refine exists_forall₂ fun j hj => ?_
    obtain ⟨k, hk⟩ := List.getElem?_of_mem hj
    obtain ⟨source, hs, target, ht, hfrom, hto⟩ := h.exists_sides hk
    replace hs : source ∈ q.tables := List.mem_of_mem_take hs
    replace ht : target ∈ q.tables := List.mem_of_getElem? ht
    obtain ⟨w, hw⟩ := h.exists_join hj hs ht
    exact ⟨w, ⟨source, hs, target, ht, hfrom, hto, hw⟩,
      Join.sql?_of_states h hs ht hfrom hto (h.conditions j hj).1 hw⟩
  have joins : q.joins.filterMap (·.sql? q.tables) =
      js.map fun w => String.ofList (textOf w.tokens) :=
    filterMap_of_forall₂ hjs.flip fun w j hw => hw.2
  refine ⟨anchor, ⟨q.distinct, ts, hsolid, havoids, table, js, ending⟩, by simp [htables],
    ⟨hselect, htable.text, ?_, hending.text⟩, rfl, hcolumns, htable.held,
      hjs.imp fun _ _ hw => hw.1, hending⟩
  rw [joins, List.map_map]
  exact List.map_congr_left fun w _ => String.toList_ofList

end SqlCanvas
