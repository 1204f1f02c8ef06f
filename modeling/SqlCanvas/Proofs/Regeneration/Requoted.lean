import SqlCanvas.Proofs.Regeneration.Rewritten
import SqlCanvas.Proofs.Structure.Membership

/-!
# Lists that are written again

Reading keeps the list behind `IN` as text, and writing takes a text for one string. So each time
that a query with such a test is read and written again, all that stands in the parentheses goes
into quotes, with the quotes in it doubled: the text grows in every round, and no round leaves it as
it is.
-/

namespace SqlCanvas

open Text Nesting Pattern

theorem length_le_doubleQuotes (quote : Char) (t : Text) :
    t.length ≤ (doubleQuotes quote t).length := by
  induction t with
  | nil => exact le_rfl
  | cons c t ih =>
    rw [doubleQuotes]
    split <;> simp only [List.length_cons] <;> omega

theorem length_lt_quotedLiteral (t : Text) : t.length < (quotedLiteral t).length := by
  have := length_le_doubleQuotes '\'' t
  simp only [quotedLiteral, List.length_append, List.length_cons, List.length_nil]
  omega

def requotedText (vs : List Scalar) (n : Nat) : Text :=
  quotedLiteral^[n] (listText vs)

/-- The value of the test after so many rounds: the list, and then the text that was read of it. -/
def requotedValue (vs : List Scalar) : Nat → FilterValue
  | 0 => .list vs
  | n + 1 => .string (String.ofList (requotedText vs n))

section Rounds

variable (vs : List Scalar) (n : Nat)

theorem requotedText_succ : requotedText vs (n + 1) = quotedLiteral (requotedText vs n) :=
  Function.iterate_succ_apply' quotedLiteral n (listText vs)

theorem sheltered_quotedLiteral (t : Text) : Sheltered (quotedLiteral t) :=
  sheltered_doubled (by decide) t

theorem closed_requotedText : Closed (requotedText vs n) := by
  cases n with
  | zero => exact closed_listText vs
  | succ n =>
    rw [requotedText_succ]
    exact (sheltered_quotedLiteral _).closed

theorem stripParens_requotedText : (requotedText vs n).stripParens = requotedText vs n := by
  cases n with
  | zero => exact stripParens_listText vs
  | succ n =>
    have solid : Solid [Token.shelter _ (sheltered_quotedLiteral (requotedText vs n))] :=
      .singleton rfl
    have := solid.stripParens (by simp [quotedLiteral, Token.text])
    rw [requotedText_succ]
    simpa [Token.text] using this

theorem sql_requotedValue :
    ", ".toList.intercalate ((requotedValue vs n).toDatum.alternatives.map Datum.sql) =
      requotedText vs n := by
  cases n with
  | zero =>
    change List.intercalate _ ((vs.map Datum.scalar).map Datum.sql) = listText vs
    rw [List.map_map]
    rfl
  | succ n =>
    rw [requotedText_succ]
    simp [requotedValue, FilterValue.string, FilterValue.toDatum, Datum.alternatives, Datum.sql,
      Scalar.sql]

end Rounds

def membershipCondition (id column : String) (negated : Bool) (value : FilterValue) :
    FilterCondition :=
  ⟨some id, column, membershipOperator negated, value, .null⟩

theorem namesOnly_membership {tables : List TableRef} {id : String} (hid : Known tables id)
    (column : String) (negated : Bool) (value : FilterValue) :
    FilterGroup.NamesOnly tables
      ⟨.and, [.condition (membershipCondition id column negated value)]⟩ := by
  intro f g hfg
  obtain ⟨t, ht, rfl⟩ := hid
  simp [FilterNode.mapAll, FilterNode.mapTables, membershipCondition, hfg t ht]

def WrittenMembership.line (m : WrittenMembership) : Headed ["WHERE"] WrittenFilter :=
  .line _ (by decide) m.filter

theorem Draft.textOf_tested {w : Draft} (bare : w.ending.filter = none) (m : WrittenMembership) :
    textOf (w.filtered (some m.line)).ending.clauses.tokens =
      '\n' :: ("WHERE ".toList ++ (m.conjunct.text ++ textOf w.ending.clauses.tokens)) := by
  have clauses : (w.filtered (some m.line)).ending.clauses =
      m.line.clause (by decide) WrittenFilter.tokens (·.solid) (·.avoids_bodyKeywords) ::
        w.ending.clauses := by
    have others : w.ending.clauses = w.ending.groupClause ++ (w.ending.havingClause ++
        (w.ending.orderClause ++ w.ending.limitClauses)) := by
      rw [WrittenEnding.clauses, WrittenEnding.filterClause, bare]
      rfl
    rw [others]
    rfl
  rw [clauses, WrittenMembership.line, WrittenClauses.textOf_line, m.textOf_filter]
  rfl

theorem Draft.exists_front (w : Draft) : ∃ front : Text, ∀ filter,
    (w.filtered filter).select.text = front ++ textOf (w.filtered filter).ending.clauses.tokens :=
  ⟨"SELECT ".toList ++ (if w.distinct then "DISTINCT ".toList else []) ++ textOf w.columns ++
    "\nFROM ".toList ++ textOf w.table.tokens ++ (w.joins.flatMap fun j => '\n' :: textOf j.tokens),
      fun filter => (w.filtered filter).text_eq⟩

namespace Query

/-- The query with a test of one column against a list for its filter. -/
def testing (q : Query) (id column : String) (negated : Bool) (value : FilterValue) : Query :=
  { q with filters := some ⟨.and, [.condition (membershipCondition id column negated value)]⟩ }

theorem plain_operand {t : TableRef} {x : Member} {column : String} (h : x.Stands t column) :
    (Operand.column x.ref).Plain :=
  h.plain

section Rounds

variable {q : Query} {d : Dialect} {t : TableRef} {x : Member} {column : String} (h : q.Flat)
  (ht : t ∈ q.tables) (hx : x.Stands t column) (negated : Bool) (vs : List Scalar) (n : Nat)

def requotedTest : WrittenMembership :=
  Ref.membership (plain_operand hx) negated (closed_requotedText vs n)

include h ht in
theorem Flat.whereLine_testing : (q.testing t.id column negated (requotedValue vs n)).whereLine =
    ["WHERE " ++ String.ofList (requotedTest hx negated vs n).conjunct.text] := by
  have known : (membershipCondition t.id column negated (requotedValue vs n)).columnSql? q.tables =
      some (t.column column) := by
    change (findTable? q.tables t.id).map _ = _
    rw [h.findTable?_eq ht]
    rfl
  have condition : (membershipCondition t.id column negated (requotedValue vs n)).sql? q.tables =
      some (String.ofList (requotedTest hx negated vs n).conjunct.text) := by
    have reference : x.ref.text = (t.column column).toList := hx.textOf_tokens
    have values := sql_requotedValue vs n
    rw [FilterCondition.sql?, known, Option.map_some, requotedTest, Ref.text_membership,
      reference, ← values]
    change some (String.ofList (writePredicate (membershipOperator negated).shape _ _ _ _)) = _
    rw [shape_membershipOperator, writePredicate]
    simp [membershipCondition]
  change (Option.map _ (FilterNode.sql? q.tables (.group .and [.condition _]))).toList = _
  rw [FilterNode.sql?, FilterNode.partsSql, FilterNode.partsSql, condition, Option.toList_some,
    List.append_nil, joinParts?_of_ne_nil _ (List.cons_ne_nil _ _), String.intercalate_singleton]
  rfl

include h ht in
theorem Flat.renders_testing {anchor : TableRef} {w : Draft} (hw : w.States q d anchor)
    (hfilters : q.filters = none) : (w.filtered (some (requotedTest hx negated vs n).line)).Renders
      (q.testing t.id column negated (requotedValue vs n)) d anchor where
  select := hw.renders.select
  table := hw.renders.table
  joins := hw.renders.joins
  ending := by
    have others := hw.renders.ending
    have unfiltered : q.whereLine = [] := by
      rw [whereLine, hfilters]
      rfl
    rw [unfiltered, List.nil_append] at others
    rw [h.whereLine_testing ht hx negated vs n,
      Draft.textOf_tested (hw.ending.unfiltered hfilters), ← others]
    simp only [List.append_assoc, List.flatMap_cons, String.toList_append, String.toList_ofList,
      List.cons_append]
    rfl

theorem condition_requotedTest {scope : Scope} {f : String → String} (ht : t ∈ q.tables)
    (hf : scope.Knows q.tables f) : (requotedTest hx negated vs n).condition scope =
      { membershipCondition t.id column negated (requotedValue vs (n + 1)) with
        tableId := some (f t.id) } := by
  have reference : x.ref.tableIn scope = some (f t.id) := hx.tableIn_eq ht hf
  have name : String.ofList x.ref.column.text = column := by
    rw [← String.toList_inj, String.toList_ofList]
    exact hx.column
  have stripped : (requotedTest hx negated vs n).inside.stripParens = requotedText vs n :=
    stripParens_requotedText vs n
  rw [WrittenMembership.condition, stripped]
  change FilterCondition.mk (x.ref.tableIn scope) (String.ofList x.ref.column.text)
    (membershipOperator negated) _ _ = _
  rw [reference, name]
  rfl

include h ht in
theorem Flat.readsAs_testing {anchor : TableRef} {w : Draft} (hw : w.States q d anchor)
    (hanchor : q.tables.head? = some anchor) :
    (w.filtered (some (requotedTest hx negated vs n).line)).select.ReadsAs
      (q.testing t.id column negated (requotedValue vs (n + 1))) := by
  refine hw.readsAs_filtered h hanchor (fun scope f hf => ?_) ?_
  · change ((requotedTest hx negated vs n).filter.readWith scope).map some = _
    rw [WrittenMembership.readWith_filter, condition_requotedTest hx negated vs n ht hf]
    simp [membershipCondition, FilterNode.mapAll, FilterNode.mapTables, Except.map]
  · rintro F ⟨⟩
    exact namesOnly_membership ⟨t, ht, rfl⟩ column negated _

end Rounds

end Query

/-- Reading the first text, with whatever ids, and writing what is read gives the second text. -/
def Statement.Rewrites (d : Dialect) (s s' : String) : Prop :=
  ∀ (σ : Type) (ids : IdSource σ) (st : σ), ids.Fresh [""] st →
    ∃ r st', (read ids s.toList).run st = (.ok r, st') ∧ r.query.sql d = .ok s'

theorem WrittenSelect.ReadsAs.rewrites {s : WrittenSelect} {q : Query} {d : Dialect} {sql : String}
    (h : s.ReadsAs q) (hctes : q.ctes = none) (hunions : q.unions = none)
    (hsql : q.sql d = .ok sql) :
    Statement.Rewrites d (String.ofList s.text) sql := by
  intro σ ids st hfresh
  obtain ⟨own, st', hread, -, hown⟩ := h σ ids [""] st hfresh (List.mem_singleton_self _)
  let r : Query := Statement.complete .select [] [] own
  refine ⟨.ofQuery .select r, st', ?_, ?_⟩
  · rw [String.toList_ofList, Statement.read_select, Reading.run_bind_ok hread]
    rfl
  · have same : r.withoutIds = q.withoutIds := by
      rw [Query.withoutIds_eq, Query.withoutIds_eq q, hctes, hunions, ← hown]
      rfl
    exact (Query.sql_of_withoutIds same d).trans hsql

namespace Query

theorem sql_of_renders {q : Query} {d : Dialect} {anchor : TableRef} {w : Draft}
    (hw : w.Renders q d anchor) (hanchor : q.tables.head? = some anchor) (hctes : q.ctes = none)
    (hunions : q.unions = none) (writable : ∀ n ∈ q.numerals d, Numeral.IsWritable n) :
    q.sql d = .ok (String.ofList w.select.text) := by
  obtain ⟨rest, htables⟩ := List.head?_eq_some_iff.mp hanchor
  rw [sql_of_writable htables writable, hctes, hunions, ← hw.text_eq, String.ofList_toList]
  change Except.ok ("\n".intercalate ([] ++ q.ownLines d anchor ++ [])) = _
  rw [List.nil_append, List.append_nil]

/-- Only the list itself has numbers; its text in quotes has none. -/
theorem numerals_requotedValue {vs : List Scalar}
    (h : ∀ v ∈ vs, ∀ n ∈ v.numerals, Numeral.IsWritable n) (n : Nat) :
    ∀ k ∈ (requotedValue vs n).toDatum.numerals, Numeral.IsWritable k := by
  have all (vs : List Scalar) : Datum.numeralsAll (vs.map .scalar) =
      vs.flatMap Scalar.numerals := by
    induction vs with
    | nil => rfl
    | cons v vs ih => rw [List.map_cons, Datum.numeralsAll, ih, Datum.numerals, List.flatMap_cons]
  cases n with
  | zero =>
    rw [requotedValue, FilterValue.toDatum, Datum.numerals, all]
    intro k hk
    obtain ⟨v, hv, hk⟩ := List.mem_flatMap.mp hk
    exact h v hv k hk
  | succ n => exact List.forall_mem_nil _

theorem Flat.writable_testing {q : Query} (h : q.Flat) (id column : String) (negated : Bool)
    {vs : List Scalar} (hvs : ∀ v ∈ vs, ∀ n ∈ v.numerals, Numeral.IsWritable n) (n : Nat)
    (d : Dialect) :
    ∀ k ∈ (q.testing id column negated (requotedValue vs n)).numerals d, Numeral.IsWritable k := by
  refine isWritable_of_mem_numerals (q.testing id column negated (requotedValue vs n))
    (fun clause => ?_) ⟨h.limit, fun n hn => (h.offset n hn).1⟩ d
  cases clause with
  | «where» =>
    refine List.forall_mem_singleton.mpr fun k hk => ?_
    rcases List.mem_append.mp (FilterCondition.numerals_subset _ _ hk) with hk | hk
    · exact numerals_requotedValue hvs n k hk
    · cases hk
  | having => exact fun c hc => (h.canonical_condition .having c hc).isWritable

/-- The text of a query with such a test never comes to rest: each time that it is read and written
again, what stands in the parentheses goes into quotes, and the text is longer than before. -/
theorem Flat.membership_requoted {q : Query} (h : q.Flat) (hfilters : q.filters = none)
    (hctes : q.ctes = none) (hunions : q.unions = none) {id column : String}
    (hid : Known q.tables id) (hcolumn : IsIdentifier column)
    (negated : Bool) {vs : List Scalar} (hvs : ∀ v ∈ vs, ∀ n ∈ v.numerals, Numeral.IsWritable n)
    (d : Dialect) : ∃ text : Nat → String,
      (q.testing id column negated (.list vs)).sql d = .ok (text 0) ∧
      (∀ n, Statement.Rewrites d (text n) (text (n + 1)) ∧
        (text n).length < (text (n + 1)).length) ∧
      ∃ front back, ∀ n, (text n).toList = front ++ (requotedText vs n ++ back) := by
  obtain ⟨anchor, w, hanchor, hw⟩ := h.exists_draft d
  obtain ⟨t, ht, rfl, x, hx⟩ := h.exists_member hid hcolumn
  let round (n : Nat) : Draft := w.filtered (some (requotedTest hx negated vs n).line)
  have sql (n : Nat) : (q.testing t.id column negated (requotedValue vs n)).sql d =
      .ok (String.ofList (round n).select.text) :=
    sql_of_renders (h.renders_testing ht hx negated vs n hw hfilters) hanchor hctes hunions
      (h.writable_testing t.id column negated hvs n d)
  have rewrites (n : Nat) : Statement.Rewrites d (String.ofList (round n).select.text)
      (String.ofList (round (n + 1)).select.text) :=
    (h.readsAs_testing ht hx negated vs n hw hanchor).rewrites hctes hunions (sql (n + 1))
  obtain ⟨front, hfront⟩ := w.exists_front
  obtain ⟨before, after, htext⟩ : ∃ before after : Text, ∀ n,
      (round n).select.text = before ++ (requotedText vs n ++ after) := by
    refine ⟨front ++ '\n' :: ("WHERE ".toList ++ (x.ref.text ++ ' ' ::
      ((Vocabulary.spelling (membershipOperator negated)).toList ++ " (".toList))),
      ')' :: textOf w.ending.clauses.tokens, fun n => ?_⟩
    rw [hfront, Draft.textOf_tested (hw.ending.unfiltered hfilters), requotedTest,
      Ref.text_membership]
    simp
  refine ⟨fun n => String.ofList (round n).select.text, sql 0, fun n => ⟨rewrites n, ?_⟩, before,
    after, fun n => ?_⟩
  · have longer := length_lt_quotedLiteral (requotedText vs n)
    rw [← requotedText_succ] at longer
    simp only [String.length_ofList, htext, List.length_append]
    omega
  · rw [String.toList_ofList]
    exact htext n

theorem numbers_requoted :
    ∃ sql, Statement.Rewrites .postgresql "SELECT t.a\nFROM t\nWHERE t.a IN (1, 2)" sql ∧
    sql ≠ "SELECT t.a\nFROM t\nWHERE t.a IN (1, 2)" := by
  have table : IsPlain "t" := by decide
  have column : IsPlain "a" := by decide
  have writable : ∀ v ∈ [Scalar.int 1, .int 2], ∀ n ∈ v.numerals, Numeral.IsWritable n := by
    decide
  obtain ⟨text, hsql, rounds, -⟩ := (flat_single table column).membership_requoted rfl rfl rfl
    ⟨_, List.mem_singleton_self _, rfl⟩ column.isIdentifier false writable .postgresql
  let q := (single "t" "a").testing "t" "a" false (.list [.int 1, .int 2])
  have first : q.sql .postgresql = .ok "SELECT t.a\nFROM t\nWHERE t.a IN (1, 2)" := by
    have test : FilterNode.sql? q.tables (.group .and [.condition
        (membershipCondition "t" "a" false (.list [.int 1, .int 2]))]) = some "t.a IN (1, 2)" := by
      rw [FilterNode.sql?, FilterNode.partsSql, FilterNode.partsSql]
      decide +kernel
    have line : q.whereLine = ["WHERE t.a IN (1, 2)"] :=
      congrArg (fun s : Option String => (s.map ("WHERE " ++ ·)).toList) test
    rw [sql_of_own rfl rfl rfl (by decide), ownLines, line]
    decide +kernel
  obtain ⟨rewrites, longer⟩ := rounds 0
  rw [first] at hsql
  rw [← Except.ok.inj hsql] at rewrites longer
  refine ⟨text 1, rewrites, fun heq => ?_⟩
  rw [heq] at longer
  exact lt_irrefl _ longer

end Query

end SqlCanvas
