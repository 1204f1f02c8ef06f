import SqlCanvas.Proofs.Grammar.Condition
import SqlCanvas.Proofs.Pairing
import SqlCanvas.Proofs.Regeneration.Layout
import SqlCanvas.Proofs.Regeneration.Name

/-!
# Predicates of canonical queries

The text of a literal, of a comparison between columns, of a condition and of a whole filter is one
that reading takes apart. What is read there is what was written, with the ids of its tables
replaced.
-/

namespace SqlCanvas

open Text Nesting Pattern

theorem exists_whole (negative : Bool) {n : Nat}
    (h : (Numeral.ofNat n).length ≤ Numeral.digitLimit) :
    ∃ l : WrittenLiteral, l.text = WrittenLiteral.signText negative ++ Numeral.ofNat n ∧
      l.value = .int (Literal.signed negative n) := by
  have ne_nil : Numeral.ofNat n ≠ [] := Nat.toDigits_ne_nil
  refine ⟨.whole negative (Numeral.ofNat n) ne_nil (fun c hc => Numeral.isDigit_of_mem_ofNat hc) h,
    ?_, ?_⟩
  · cases negative <;>
      simp [WrittenLiteral.text, WrittenLiteral.tokens, WrittenLiteral.signText] <;> rfl
  · rw [WrittenLiteral.value, Numeral.value_ofNat]

theorem Scalar.IsLiteral.exists_written {v : Scalar} (h : v.IsLiteral) :
    ∃ l : WrittenLiteral, l.text = v.sql ∧ l.value = v := by
  cases h with
  | null => exact ⟨.null (.capital "NULL" (by decide)), rfl, rfl⟩
  | bool b =>
    cases b with
    | false => exact ⟨.false (.capital "FALSE" (by decide)), rfl, rfl⟩
    | true => exact ⟨.true (.capital "TRUE" (by decide)), rfl, rfl⟩
  | int n h =>
    cases n with
    | ofNat n => exact exists_whole false h
    | negSucc n => exact exists_whole true h
  | string s =>
    refine ⟨.string '\'' (by decide) s.toList, ?_, ?_⟩
    · simp [WrittenLiteral.text, WrittenLiteral.tokens, Scalar.sql, quotedLiteral]
    · rw [WrittenLiteral.value, String.ofList_toList]

theorem Comparison.spelling_mem (c : Comparison) : Vocabulary.spelling c ∈ Filter.signs := by
  cases c <;> decide

theorem Comparison.get_spelling (c : Comparison) :
    Filter.comparison? (Vocabulary.spelling c) = some c := by
  cases c <;> rfl

theorem textOf_sign (c : Comparison) :
    textOf (signTokens (Vocabulary.spelling c) (Filter.isMark_of_mem_signs _ c.spelling_mem).2) =
      (Vocabulary.spelling c).toList :=
  textOf_signTokens _

/-- The comparison is a condition of a join between two tables. -/
structure WrittenComparison.States (w : WrittenComparison) (source target : TableRef)
    (c : JoinCondition) : Prop where
  text : w.conjunct.text = (c.sql source target).toList
  reads : ∀ scope tables f, Scope.Knows scope tables f → source ∈ tables → target ∈ tables →
    w.predicate scope.lookup =
      ⟨some (f source.id), c.fromColumn, c.operator, some (f target.id), c.toColumn⟩

theorem WrittenComparison.states_of_stands {source target : TableRef} {c : JoinCondition}
    {x y : Member} (hx : x.Stands source c.fromColumn) (hy : y.Stands target c.toColumn) :
    ∃ w : WrittenComparison, w.States source target c := by
  refine ⟨⟨x, some .space, Vocabulary.spelling c.operator, c.operator.spelling_mem, some .space, y⟩,
    ?_, fun scope tables f hf hs ht => ?_⟩
  · simp only [Conjunct.text, WrittenComparison.conjunct, WrittenComparison.tokens, textOf_append,
      hx.textOf_tokens, hy.textOf_tokens, textOf_sign]
    simp [JoinCondition.sql, blankTokens, Gap.space]
  · simp [WrittenComparison.predicate, WrittenComparison.operator, hx.find?_eq hs hf,
      hy.find?_eq ht hf, hx.column, hy.column, Comparison.get_spelling]

structure WrittenCondition.States (w : WrittenCondition) (q : Query) (c : FilterCondition) :
    Prop where
  text : c.sql? q.tables = some (String.ofList w.conjunct.text)
  reads : ∀ scope f, Scope.Knows scope q.tables f →
    w.condition scope = { c with tableId := c.tableId.map f }

theorem FilterOperator.Accepts.exists_tail {o : FilterOperator} {v : Scalar} (h : o.Accepts v)
    (column : Text) : ∃ t : WrittenTail, t.operator = o ∧ t.value = v ∧
      writePredicate o.shape column (Vocabulary.spelling o).toList (.scalar v) (.scalar .null) =
        column ++ textOf t.tokens := by
  cases h with
  | compare c h =>
    obtain ⟨l, hl, hv⟩ := h.exists_written
    refine ⟨.sign (some .space) _ c.spelling_mem (some .space) l, ?_, hv, ?_⟩
    · simp [WrittenTail.operator, Comparison.get_spelling]
    · simp only [WrittenTail.tokens, textOf_append, textOf_sign]
      change column ++ ' ' :: (Vocabulary.spelling c).toList ++ ' ' :: v.sql = _
      rw [← hl]
      simp [blankTokens, Gap.space, WrittenLiteral.text]
  | like h =>
    obtain ⟨l, hl, hv⟩ := h.exists_written
    refine ⟨.like .space ["LIKE"] (by decide) (.capital _ (by decide)) (some .space) l (by simp),
      rfl, hv, ?_⟩
    change column ++ ' ' :: "LIKE".toList ++ ' ' :: v.sql = _
    rw [← hl]
    simp [WrittenTail.tokens, blankTokens, Gap.space, WrittenLiteral.text, Phrase.textOf_capital]
  | notLike h =>
    obtain ⟨l, hl, hv⟩ := h.exists_written
    refine ⟨.like .space ["NOT", "LIKE"] (by decide) (.capital _ (by decide)) (some .space) l
      (by simp), rfl, hv, ?_⟩
    change column ++ ' ' :: "NOT LIKE".toList ++ ' ' :: v.sql = _
    rw [← hl]
    simp only [WrittenTail.tokens, textOf_cons, textOf_append, Phrase.textOf_capital]
    simp [blankTokens, Gap.space, WrittenLiteral.text]
  | isNull =>
    refine ⟨.test .space ["IS", "NULL"] (by decide) (.capital _ (by decide)), rfl, rfl, ?_⟩
    rw [WrittenTail.tokens, textOf_cons, Phrase.textOf_capital]
    rfl
  | isNotNull =>
    refine ⟨.test .space ["IS", "NOT", "NULL"] (by decide) (.capital _ (by decide)), rfl, rfl, ?_⟩
    rw [WrittenTail.tokens, textOf_cons, Phrase.textOf_capital]
    rfl

theorem Query.Flat.exists_operand {q : Query} (h : q.Flat) {c : FilterCondition}
    (hc : c.Canonical q.tables) : ∃ o : Operand, o.Plain ∧
      c.columnSql? q.tables = some (String.ofList o.text) ∧ o.columnText = c.column.toList ∧
        ∀ scope f, Scope.Knows scope q.tables f → o.table scope = c.tableId.map f := by
  rcases hc.place with ⟨id, hid, hknown, hcolumn⟩ |
    ⟨hid, function, inside, ⟨i, hplain, hi⟩, hinside, hcall⟩
  · obtain ⟨t, ht, rfl, x, hx⟩ := h.exists_member hknown hcolumn
    refine ⟨.column x.ref, hx.plain, ?_, hx.column, fun scope f hf => ?_⟩
    · rw [FilterCondition.columnSql?, hid]
      change (findTable? q.tables t.id).map _ = some (String.ofList (textOf x.tokens))
      rw [h.findTable?_eq ht, hx.textOf_tokens, String.ofList_toList]
      rfl
    · rw [hid]
      exact hx.tableIn_eq ht hf
  · have text : (Operand.call i none inside.toList hinside).text = c.column.toList := by
      rw [Operand.text_call, hcall, hi]
      simp [blankTokens]
    refine ⟨.call i none inside.toList hinside, hplain, ?_, text, fun scope f _ => ?_⟩
    · rw [FilterCondition.columnSql?, hid, text, String.ofList_toList]
    · rw [hid]
      rfl

theorem Query.Flat.exists_condition {q : Query} (h : q.Flat) {c : FilterCondition}
    (hc : c.Canonical q.tables) : ∃ w : WrittenCondition, w.States q c := by
  obtain ⟨o, hplain, htext, hcolumn, htable⟩ := h.exists_operand hc
  obtain ⟨v, hv, haccepts⟩ := hc.fits
  obtain ⟨t, hoperator, hvalue, hpredicate⟩ := haccepts.exists_tail o.text
  refine ⟨⟨o, hplain, t⟩, ?_, fun scope f hf => ?_⟩
  · rw [FilterCondition.sql?, htext, Option.map_some, String.toList_ofList, hv, hc.value2]
    refine congrArg (fun t => some (String.ofList t)) (hpredicate.trans ?_)
    exact (textOf_append _ _).symm
  · obtain ⟨tableId, column, operator, value, value2⟩ := c
    obtain rfl : value = .scalar v := hv
    obtain rfl : value2 = .null := hc.value2
    simp [WrittenCondition.condition, htable scope f hf, hcolumn, hoperator, hvalue]

def Conjunction.ofConditions (ws : List WrittenCondition) (h : ws ≠ []) : Conjunction :=
  .ofList (.capital "AND" (by decide)) (ws.map WrittenCondition.conjunct) (by simpa using h)

theorem joinParts?_of_ne_nil (operator : Connective) {parts : List String} (h : parts ≠ []) :
    joinParts? operator parts =
      some ((" " ++ Vocabulary.spelling operator ++ " ").intercalate parts) := by
  rw [joinParts?, if_neg (by simpa using h)]

theorem WordGap.textOf_capital {k : String} (h : IsKeyword k.toList) :
    textOf (WordGap.capital k h).tokens = (" " ++ k ++ " ").toList := by
  simp [WordGap.capital, WordGap.tokens, Gap.space, Spelling.capital]

theorem Conjunction.text_ofConditions {ws : List WrittenCondition} (h : ws ≠ []) :
    (ofConditions ws h).text =
      ((" " ++ Vocabulary.spelling Connective.and ++ " ").intercalate
        (ws.map fun w => String.ofList w.conjunct.text)).toList := by
  rw [text, tokens, ofConditions, textOf_ofList, WordGap.textOf_capital, String.toList_intercalate,
    List.map_map, List.map_map]
  congr 1
  refine List.map_congr_left fun w _ => ?_
  simp [Conjunct.text]

namespace FilterNode

theorem partsSql_conditions {tables : List TableRef} {cs : List FilterCondition} {ts : List String}
    (h : cs.map (·.sql? tables) = ts.map some) : partsSql tables (cs.map .condition) = ts := by
  induction cs generalizing ts with
  | nil =>
    rw [List.map_nil, eq_comm, List.map_eq_nil_iff] at h
    rw [h, List.map_nil, partsSql]
  | cons c cs ih =>
    obtain ⟨t, ts', rfl, ht, hts⟩ := List.map_eq_cons_iff.mp h.symm
    have first : c.sql? tables = some t := ht.symm
    rw [List.map_cons, partsSql, ih hts.symm, first]
    rfl

theorem mapAll_eq_map (f : String → String) (ns : List FilterNode) :
    mapAll f ns = ns.map (mapTables f) := by
  induction ns with
  | nil => rfl
  | cons n ns ih => rw [mapAll, ih, List.map_cons]

end FilterNode

theorem Query.Flat.exists_conjunction {q : Query} (h : q.Flat) {cs : List FilterCondition}
    (hne : cs ≠ []) (hcs : ∀ c ∈ cs, c.Canonical q.tables) :
    ∃ w : Conjunction, w.items.length = cs.length ∧
      joinParts? .and (FilterNode.partsSql q.tables (cs.map .condition)) =
        some (String.ofList w.text) ∧
        ∀ scope f, Scope.Knows scope q.tables f → readConjuncts scope w.items =
          .ok (cs.map fun c => { c with tableId := c.tableId.map f }) := by
  obtain ⟨ws, hws⟩ := exists_forall₂ (R := fun c (w : WrittenCondition) => w.States q c)
    fun c hc => h.exists_condition (hcs c hc)
  have wsne : ws ≠ [] := by
    rintro rfl
    exact hne (List.forall₂_nil_right_iff.mp hws)
  refine ⟨.ofConditions ws wsne, ?_, ?_, fun scope f hf => ?_⟩
  · rw [Conjunction.ofConditions, Series.items_ofList, List.length_map, hws.length_eq]
  · have texts : cs.map (·.sql? q.tables) =
        (ws.map fun w => String.ofList w.conjunct.text).map some := by
      rw [List.map_map]
      exact map_eq_map_of_forall₂ hws fun c w hw => hw.text
    rw [FilterNode.partsSql_conditions texts, joinParts?_of_ne_nil _ (by simpa using wsne),
      Conjunction.text_ofConditions, String.ofList_toList]
  · rw [Conjunction.ofConditions, Series.items_ofList, readConjuncts_conditions]
    exact congrArg _ (map_eq_map_of_forall₂ hws fun c w hw => (hw.reads scope f hf).symm).symm

structure WrittenBranch.States (w : WrittenBranch) (q : Query) (n : FilterNode) : Prop where
  text : FilterNode.partsSql q.tables [n] = [String.ofList (textOf w.tokens)]
  reads : ∀ scope f, Scope.Knows scope q.tables f →
    (readConjuncts scope w.conjunction.items).map w.nodes = .ok [n.mapTables f]

theorem FilterNode.mapAll_conditions (f : String → String) (cs : List FilterCondition) :
    mapAll f (cs.map .condition) =
      (cs.map fun c => { c with tableId := c.tableId.map f }).map .condition := by
  rw [mapAll_eq_map, List.map_map, List.map_map]
  refine List.map_congr_left fun c _ => ?_
  rw [Function.comp_apply, Function.comp_apply, mapTables]

theorem Query.Flat.exists_branch {q : Query} (h : q.Flat) {n : FilterNode}
    (hn : n.Canonical q.tables) : ∃ w : WrittenBranch, w.States q n := by
  cases hn with
  | @condition c hc =>
    obtain ⟨w, hw⟩ := h.exists_condition hc
    refine ⟨.bare (.ofConditions [w] (List.cons_ne_nil w [])), ?_, fun scope f hf => ?_⟩
    · rw [FilterNode.partsSql, hw.text, FilterNode.partsSql, WrittenBranch.tokens,
        Conjunction.ofConditions, Conjunction.tokens]
      simp [Series.ofList, Series.tokens, Conjunct.text]
    · rw [WrittenBranch.conjunction, Conjunction.ofConditions, Series.items_ofList,
        readConjuncts_conditions, FilterNode.mapTables, ← hw.reads scope f hf]
      rfl
  | @group cs several hcs =>
    obtain ⟨w, length, text, reads⟩ := h.exists_conjunction (by rintro rfl; simp at several) hcs
    have rest : w.rest ≠ [] := by
      intro hrest
      rw [← length, Series.items, hrest] at several
      simp at several
    refine ⟨.wrapped none none w, ?_, fun scope f hf => ?_⟩
    · rw [FilterNode.partsSql, text, FilterNode.partsSql]
      simp [WrittenBranch.tokens, WrittenBranch.inside, blankTokens, Conjunction.text,
        String.append_assoc]
    · rw [WrittenBranch.conjunction, reads scope f hf, FilterNode.mapTables,
        FilterNode.mapAll_conditions]
      simp [Except.map, WrittenBranch.nodes, WrittenBranch.conjunction, rest]

theorem FilterNode.partsSql_branches {q : Query} {nodes : List FilterNode} {ws : List WrittenBranch}
    (h : List.Forall₂ (fun n w => WrittenBranch.States w q n) nodes ws) :
    partsSql q.tables nodes = ws.map fun w => String.ofList (textOf w.tokens) := by
  have split (n : FilterNode) (ns : List FilterNode) :
      partsSql q.tables (n :: ns) = partsSql q.tables [n] ++ partsSql q.tables ns := by
    cases n <;> simp [partsSql]
  induction h with
  | nil => rw [partsSql, List.map_nil]
  | cons hn _ ih => rw [split, hn.text, ih, List.map_cons, List.singleton_append]

/-- A filter that is the text of the group and reads as the group. -/
structure WrittenFilter.States (w : WrittenFilter) (q : Query) (g : FilterGroup) : Prop where
  text : g.sql? q.tables = some (String.ofList (textOf w.tokens))
  reads : ∀ scope f, Scope.Knows scope q.tables f →
    w.readWith scope = .ok ⟨g.operator, FilterNode.mapAll f g.children⟩

theorem Query.Flat.exists_filter {q : Query} (h : q.Flat) {g : FilterGroup}
    (hg : g.Canonical q.tables) : ∃ w : WrittenFilter, w.States q g := by
  cases hg with
  | @all cs hne hcs =>
    obtain ⟨w, -, text, reads⟩ := h.exists_conjunction hne hcs
    refine ⟨.all w, ?_, fun scope f hf => ?_⟩
    · rw [FilterGroup.sql?, FilterGroup.toNode, FilterNode.sql?]
      exact text
    · rw [WrittenFilter.readWith, reads scope f hf, FilterNode.mapAll_conditions]
      rfl
  | @any nodes several hnodes =>
    obtain ⟨ws, hws⟩ := exists_forall₂ (R := fun n (w : WrittenBranch) => w.States q n)
      fun n hn => h.exists_branch (hnodes n hn)
    have length : 2 ≤ ws.length := hws.length_eq ▸ several
    have ne_nil : ws ≠ [] := by
      rintro rfl
      simp at length
    refine ⟨.any (.ofList (.capital "OR" (by decide)) ws ne_nil)
      (Series.rest_ofList_ne_nil _ _ length), ?_, fun scope f hf => ?_⟩
    · rw [FilterGroup.sql?, FilterGroup.toNode, FilterNode.sql?, FilterNode.partsSql_branches hws,
        joinParts?_of_ne_nil _ (by simpa using ne_nil), WrittenFilter.tokens, textOf_ofList,
        WordGap.textOf_capital]
      congr 1
      rw [← String.toList_inj, String.toList_intercalate, String.toList_ofList, List.map_map]
      congr 1
      refine List.map_congr_left fun w _ => ?_
      rw [Function.comp_apply, String.toList_ofList]
    · rw [WrittenFilter.readWith, Series.items_ofList,
        mapM_of_forall₂ hws fun n w hw => hw.reads scope f hf, FilterNode.mapAll_eq_map, Except.map,
        ← List.flatMap_def, List.map_eq_flatMap]

end SqlCanvas
