import SqlCanvas.Proofs.Regeneration.Part
import SqlCanvas.Proofs.Structure.Predicate

/-!
# Membership tests

A column with `IN` or `NOT IN` and a list in parentheses behind it. Reading keeps the list as text,
and the text comes apart at its commas into the values that were written, whatever they hold.
-/

namespace SqlCanvas

open Text Nesting Pattern

def listText (vs : List Scalar) : Text :=
  ", ".toList.intercalate (vs.map Scalar.sql)

theorem closed_listText (vs : List Scalar) : Closed (listText vs) := by
  refine closed_intercalate (closed_of_plain (by decide)) fun t ht => ?_
  obtain ⟨v, -, rfl⟩ := List.mem_map.mp ht
  exact v.isQuiet_sql.closed

theorem WrittenLiteral.noComma (l : WrittenLiteral) : ∀ a ∈ l.tokens, a.NoComma := by
  cases l with
  | null | true | false | string => exact List.forall_mem_singleton.mpr trivial
  | whole negative digits hne hdigits =>
    refine List.forall_mem_append.mpr ⟨?_, List.forall_mem_singleton.mpr trivial⟩
    cases negative with
    | false => exact List.forall_mem_nil _
    | true => exact List.forall_mem_singleton.mpr (by decide : '-' ≠ ',')

theorem IsNumericText.head_ne {t : Text} (h : IsNumericText t) : t.head? ≠ some '(' := by
  intro hhead
  exact absurd (h.2 _ (List.mem_of_mem_head? hhead)) (by decide)

theorem Scalar.head_sql_ne (v : Scalar) : v.sql.head? ≠ some '(' := by
  cases v with
  | null => decide
  | bool b => cases b <;> decide
  | int n => exact (Numeral.isNumericText_ofInt n).head_ne
  | float x =>
    cases x with
    | nan => decide
    | infinite negative => cases negative <;> decide
    | finite negative significand exponent h =>
      exact (Binary64.isNumericText_text negative significand exponent h).head_ne
  | string | date | moment | clock => simp [sql, quotedLiteral, plainLiteral]

theorem stripParens_listText (vs : List Scalar) : (listText vs).stripParens = listText vs := by
  cases vs with
  | nil => exact stripParens_of_head (t := []) nofun
  | cons v vs =>
    have head : (listText (v :: vs)).head? ≠ some '(' := by
      obtain ⟨rest, hrest⟩ : ∃ rest, listText (v :: vs) = v.sql ++ rest := by
        cases vs with
        | nil => exact ⟨[], by simp [listText]⟩
        | cons w vs =>
          exact ⟨_, by
            rw [listText, List.map_cons, List.map_cons, List.intercalate_cons_cons,
              List.append_assoc]⟩
      obtain ⟨ts, hts, hquiet⟩ := v.isQuiet_sql
      rw [hrest, List.head?_append_of_ne_nil _ (hts ▸ hquiet.solid.textOf_ne_nil)]
      exact v.head_sql_ne
    obtain ⟨ts, htext, hquiet⟩ :=
      IsQuietFor.intercalate_comma (List.cons_ne_nil v.sql (vs.map Scalar.sql))
        (List.forall_mem_cons.mpr ⟨v.isQuiet_sql, List.forall_mem_map.mpr fun x _ => x.isQuiet_sql⟩)
    rw [listText, List.map_cons, ← htext] at head ⊢
    exact hquiet.solid.stripParens head

section Literals

variable {vs : List Scalar} (h : ∀ v ∈ vs, v.IsLiteral)

include h

theorem exists_literals :
    ∃ ls : List WrittenLiteral, ls.map WrittenLiteral.text = vs.map Scalar.sql ∧
    ls.map WrittenLiteral.value = vs := by
  obtain ⟨ls, hls⟩ :=
    exists_forall₂ (R := fun v (l : WrittenLiteral) => v.sql = l.text ∧ v = l.value) fun v hv => by
      obtain ⟨l, htext, hvalue⟩ := (h v hv).exists_written
      exact ⟨l, htext.symm, hvalue.symm⟩
  refine ⟨ls, (map_eq_map_of_forall₂ hls fun _ _ h => h.1).symm, ?_⟩
  have := map_eq_map_of_forall₂ (C := Scalar) hls fun _ _ h => h.2
  rw [← this, List.map_id']

theorem exists_series (hne : vs ≠ []) : ∃ x : Series CommaGap WrittenLiteral,
    textOf (x.tokens CommaGap.tokens WrittenLiteral.tokens) = listText vs ∧
      x.items.map WrittenLiteral.text = vs.map Scalar.sql := by
  obtain ⟨ls, htexts, hvalues⟩ := exists_literals h
  have ne_nil : ls ≠ [] := by
    rintro rfl
    exact hne hvalues.symm
  refine ⟨.ofList .standard ls ne_nil, ?_, by rw [Series.items_ofList, htexts]⟩
  rw [textOf_ofList, CommaGap.textOf_standard, listText, ← htexts]
  rfl

theorem splitCommas_listText : (listText vs).splitCommas = vs.map Scalar.sql := by
  by_cases hne : vs = []
  · subst hne
    rfl
  · obtain ⟨x, htext, hitems⟩ := exists_series h hne
    rw [← htext, ← hitems]
    exact splitTopLevel_series shy_comma (fun s _ => s.separates) fun l _ =>
      part_comma l.solid l.noComma

theorem read_listText : (listText vs).splitCommas.mapM Literal.read = .ok vs := by
  obtain ⟨ls, htexts, hvalues⟩ := exists_literals h
  rw [splitCommas_listText h, ← htexts, List.mapM_map]
  conv_rhs => rw [← hvalues]
  refine mapM_of_forall₂ (R := Eq) ?_ ?_
  · exact List.forall₂_same.mpr fun _ _ => rfl
  · rintro l _ rfl
    exact l.read_text

end Literals

theorem Operand.Plain.readCondition_words {o : Operand} (plain : o.Plain) (before : Gap)
    {words : List String} (hwords : words ∈ Filter.wordPhrases) (phrase : Phrase words) {g v : Text}
    (hg : ∀ c ∈ g, isBlank c = true) (behind : Halts isWord (g ++ v)) (hv : Halts isBlank v)
    (hne : v ≠ []) {operator : FilterOperator} {value : Scalar}
    (hoperator : Filter.operator? (" ".intercalate words) = some operator)
    (hvalue : Filter.readValue (some operator) (some v) = .ok value) (scope : Scope) :
    Filter.readCondition scope (o.text ++ (before.text ++ (textOf phrase.tokens ++ (g ++ v)))) =
      .ok (some ⟨o.table scope, String.ofList o.columnText, operator, .scalar value, .null⟩) := by
  have placed : Filter.Placed before.text (textOf phrase.tokens) g v :=
    .of_phrase hwords phrase before hg behind hv
  have keyword : Filter.operator? (canonicalKeyword (textOf phrase.tokens)) = some operator := by
    rw [phrase.canonicalKeyword, hoperator]
  refine plain.readCondition placed keyword ?_ scope
  rw [if_neg hne, hvalue]

def membershipWords : Bool → List String
  | false => ["IN"]
  | true => ["NOT", "IN"]

def membershipOperator (negated : Bool) : FilterOperator :=
  if negated then .notIn else .isIn

theorem shape_membershipOperator (negated : Bool) :
    (membershipOperator negated).shape = .membership := by
  cases negated <;> rfl

theorem membershipWords_mem (negated : Bool) : membershipWords negated ∈ Filter.wordPhrases := by
  cases negated <;> decide

structure WrittenMembership where
  operand : Operand
  plain : operand.Plain
  before : Gap
  negated : Bool
  phrase : Phrase (membershipWords negated)
  after : Option Gap
  inside : Text
  closed : Closed inside

namespace WrittenMembership

variable (m : WrittenMembership)

def list : Text :=
  '(' :: (m.inside ++ [')'])

theorem sheltered : Sheltered m.list :=
  .parens m.closed

def tokens : List Token :=
  m.operand.tokens ++
    m.before.token :: (m.phrase.tokens ++ (blankTokens m.after ++ [.shelter m.list m.sheltered]))

def operator : FilterOperator :=
  membershipOperator m.negated

theorem text_eq : textOf m.tokens =
    m.operand.text ++
      (m.before.text ++ (textOf m.phrase.tokens ++ (textOf (blankTokens m.after) ++ m.list))) := by
  simp [tokens, Operand.text]

def conjunct : Conjunct where
  tokens := m.tokens
  solid := by
    have list : Solid [Token.shelter m.list m.sheltered] := .singleton rfl
    refine m.operand.solid.spaced (m.phrase.solid.glue list m.after fun _ a _ b hb => ?_) m.before
    obtain rfl := Option.some.inj hb
    exact Bool.and_false _
  avoids := by
    have others (negated : Bool) : ∀ k ∈ reserved, IsKeyword k.toList ∧
        k ∉ membershipWords negated := by
      cases negated <;> decide
    refine List.forall_mem_append.mpr ⟨m.operand.avoids, List.forall_mem_cons.mpr ⟨trivial, ?_⟩⟩
    refine List.forall_mem_append.mpr ⟨m.phrase.avoids (others m.negated),
      List.forall_mem_append.mpr ⟨?_, ?_⟩⟩
    · cases m.after with
      | none => exact List.forall_mem_nil _
      | some g => exact List.forall_mem_singleton.mpr trivial
    · exact List.forall_mem_singleton.mpr trivial
  unwrapped := by
    obtain ⟨r, hr, -⟩ := m.operand.exists_lead
    rw [text_eq, hr, List.append_assoc, List.head?_append_of_ne_nil _ m.operand.lead.isName.1]
    intro h
    exact not_mem_of_not_isWord m.operand.lead.isName (by decide) (List.mem_of_mem_head? h)

def condition (scope : Scope) : FilterCondition where
  tableId := m.operand.table scope
  column := String.ofList m.operand.columnText
  operator := m.operator
  value := .scalar (.string (String.ofList m.inside.stripParens))
  value2 := .null

theorem readCondition_eq (scope : Scope) :
    Filter.readCondition scope m.conjunct.text = .ok (some (m.condition scope)) := by
  have behind : Halts isWord (textOf (blankTokens m.after) ++ m.list) := by
    cases m.after with
    | none => exact halts_cons.mpr (by decide)
    | some g => simpa [blankTokens] using g.isGap.halts_isWord _
  have hlist : Halts isBlank m.list := halts_cons.mpr (by decide)
  have operator : Filter.operator? (" ".intercalate (membershipWords m.negated)) =
      some m.operator := by
    rw [WrittenMembership.operator]
    cases m.negated <;> decide +kernel
  have value : Filter.readValue (some m.operator) (some m.list) =
      .ok (.string (String.ofList m.inside.stripParens)) := by
    have trimmed : m.list.trim = m.list := by
      have := (Solid.singleton (a := .shelter m.list m.sheltered) rfl).trim_self
      simpa using this
    have stripped : m.list.stripParens = m.inside.stripParens := stripParens_of_closed m.closed
    rw [WrittenMembership.operator]
    cases m.negated <;> simp [Filter.readValue, membershipOperator, trimmed, stripped]
  have whole : m.conjunct.text = _ := m.text_eq
  rw [whole]
  exact m.plain.readCondition_words m.before (membershipWords_mem m.negated) m.phrase
    (isBlank_of_blankTokens m.after) behind hlist (List.cons_ne_nil _ _) operator value scope

def filter : WrittenFilter :=
  .all ⟨m.conjunct, []⟩

theorem textOf_filter : textOf m.filter.tokens = m.conjunct.text := by
  simp [filter, WrittenFilter.tokens, Conjunction.tokens, Series.tokens, Conjunct.text]

theorem readWith_filter (scope : Scope) :
    m.filter.readWith scope = .ok ⟨.and, [.condition (m.condition scope)]⟩ := by
  rw [filter, WrittenFilter.readWith, readConjuncts]
  simp only [Series.items, List.map_nil, List.mapM_cons, m.readCondition_eq]
  rfl

theorem read_text (scope : Scope) :
    Filter.read scope m.conjunct.text = .ok ⟨.and, [.condition (m.condition scope)]⟩ := by
  rw [← m.textOf_filter, WrittenFilter.read_eq, m.readWith_filter]

end WrittenMembership

namespace Ref

variable {x : Ref}

/-- The list as it is written behind a column. -/
def membership (plain : (Operand.column x).Plain) (negated : Bool) {inside : Text}
    (closed : Closed inside) : WrittenMembership where
  operand := .column x
  plain := plain
  before := .space
  negated := negated
  phrase := .capital _ (by cases negated <;> decide)
  after := some .space
  inside := inside
  closed := closed

theorem text_membership (plain : (Operand.column x).Plain) (negated : Bool) {inside : Text}
    (closed : Closed inside) : (membership plain negated closed).conjunct.text =
      x.text ++ ' ' :: ((Vocabulary.spelling (membershipOperator negated)).toList ++
        ' ' :: '(' :: (inside ++ [')'])) := by
  have words : (" ".intercalate (membershipWords negated)).toList =
      (Vocabulary.spelling (membershipOperator negated)).toList := by
    cases negated <;> decide
  change textOf (membership plain negated closed).tokens = _
  rw [WrittenMembership.text_eq]
  simp [membership, WrittenMembership.list, Operand.text, Operand.tokens, Ref.text, blankTokens,
    Phrase.textOf_capital, Gap.space, words]

theorem text_listMembership (plain : (Operand.column x).Plain) (negated : Bool) (vs : List Scalar)
    (value2 : Datum) :
    (predicateSql (String.ofList x.text) (Vocabulary.spelling (membershipOperator negated))
      (.list (vs.map .scalar)) value2).toList =
        (membership plain negated (closed_listText vs)).conjunct.text := by
  have values : ((vs.map Datum.scalar).map Datum.sql) = vs.map Scalar.sql := by
    rw [List.map_map]
    rfl
  rw [predicateSql, String.toList_ofList, operatorShape_spelling, shape_membershipOperator,
    text_membership]
  simp [writePredicate, Datum.alternatives, listText, values]

/-- No value gets out of the list: what is written is read as one condition on the column, and the
text that is kept of the list comes apart into pieces that are read as the values. -/
theorem membership_intact (plain : (Operand.column x).Plain) (negated : Bool) {vs : List Scalar}
    (h : ∀ v ∈ vs, v.IsLiteral) (value2 : Datum) (scope : Scope) :
    ∃ r : String,
      Filter.read scope
        (predicateSql (String.ofList x.text) (Vocabulary.spelling (membershipOperator negated))
        (.list (vs.map .scalar)) value2).toList =
          .ok ⟨.and,
            [.condition ⟨x.tableIn scope, String.ofList x.column.text, membershipOperator negated,
            .scalar (.string r), .null⟩]⟩ ∧
        (splitCommas r.toList).mapM Literal.read = .ok vs := by
  refine ⟨String.ofList (listText vs), ?_, ?_⟩
  · rw [text_listMembership plain, WrittenMembership.read_text, WrittenMembership.condition]
    have bare : (membership plain negated (closed_listText vs)).inside.stripParens = listText vs :=
      stripParens_listText vs
    rw [bare]
    rfl
  · rw [String.toList_ofList]
    exact read_listText h

/-- Strings with quotes, commas, parentheses, keywords and a line break in them. -/
def hardValues : List Scalar :=
  [.string "it's', ('", .null, .string "a) OR (1=1", .int (-3), .bool true, .string "\n"]

theorem isLiteral_hardValues : ∀ v ∈ hardValues, v.IsLiteral := by
  simp only [hardValues, List.forall_mem_cons]
  exact ⟨.string _, .null, .string _, .int _ (by decide), .bool _, .string _, List.forall_mem_nil _⟩

theorem membership_intact_sample : ∃ r : String,
    Filter.read .empty "t.note NOT IN ('it''s'', (''', NULL, 'a) OR (1=1', -3, TRUE, '\n')".toList =
        .ok ⟨.and, [.condition ⟨none, "note", .notIn, .scalar (.string r), .null⟩]⟩ ∧
      (splitCommas r.toList).mapM Literal.read = .ok hardValues := by
  let x : Ref := ⟨some (by decide : IsPlain "t").ident, (by decide : IsPlain "note").ident⟩
  have plain : (Operand.column x).Plain := IsPlain.plain_ident _
  have text : (predicateSql (String.ofList x.text) (Vocabulary.spelling (membershipOperator true))
      (.list (hardValues.map .scalar)) (.scalar .null)).toList =
        "t.note NOT IN ('it''s'', (''', NULL, 'a) OR (1=1', -3, TRUE, '\n')".toList := by
    decide +kernel
  rw [← text]
  exact membership_intact plain true isLiteral_hardValues (.scalar .null) .empty

end Ref

end SqlCanvas
