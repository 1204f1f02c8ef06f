import SqlCanvas.Proofs.Change.Assignment
import SqlCanvas.Proofs.Change.Lead
import SqlCanvas.Proofs.Statement.KeywordPlace

/-!
# Updates

`UPDATE … SET …` with or without a filter of comparisons. The statement is cut at its first `WHERE`
between blanks, and quotes are not looked at: a string that holds one is taken apart, and what
stands behind is read as a filter.
-/

namespace SqlCanvas

open Text Nesting Pattern

/-- A column that is not the keyword `NOT`, compared with a value. -/
structure ColumnTest where
  column : Ident
  other : ¬ Spells "NOT".toList column.text
  comparison : Comparison
  value : Scalar
  literal : value.IsLiteral

namespace ColumnTest

variable (c : ColumnTest)

def text : Text :=
  c.column.text ++ ' ' :: ((Vocabulary.spelling c.comparison).toList ++ ' ' :: c.value.sql)

def condition : FilterCondition :=
  ⟨none, String.ofList c.column.text, .compare c.comparison, .scalar c.value, .null⟩

def operand : Operand :=
  .column ⟨none, c.column⟩

theorem operand_text : c.operand.text = c.column.text :=
  Ref.text_bare c.column

theorem exists_tail : ∃ t : WrittenTail, t.operator = .compare c.comparison ∧ t.value = c.value ∧
    c.text = c.operand.text ++ textOf t.tokens := by
  obtain ⟨t, hoperator, hvalue, htext⟩ :=
    (FilterOperator.Accepts.compare c.comparison c.literal).exists_tail c.operand.text
  refine ⟨t, hoperator, hvalue, htext ▸ ?_⟩
  rw [text, operand_text]
  change _ = c.column.text ++ ' ' :: (Vocabulary.spelling c.comparison).toList ++ ' ' :: c.value.sql
  simp

theorem exists_conjunct : ∃ k : Conjunct, k.text = c.text := by
  obtain ⟨t, -, -, htext⟩ := c.exists_tail
  refine ⟨⟨c.operand.tokens ++ t.tokens, t.solid c.operand.solid, ?_, ?_⟩, ?_⟩
  · exact List.forall_mem_append.mpr ⟨c.operand.avoids, t.avoids⟩
  · have whole : textOf (c.operand.tokens ++ t.tokens) = c.column.text ++ textOf t.tokens := by
      rw [textOf_append, ← c.operand_text]
      rfl
    rw [whole]
    exact WrittenStatement.head_ne_paren c.column.isName _
  · rw [htext, Conjunct.text, textOf_append]
    rfl

theorem readCondition_text (h : c.column.Plain) :
    Filter.readCondition .empty c.text = .ok (some c.condition) := by
  obtain ⟨t, hoperator, hvalue, htext⟩ := c.exists_tail
  let w : WrittenCondition := ⟨c.operand, ⟨h, c.other⟩, t⟩
  have text : w.conjunct.text = c.text := by
    rw [htext]
    exact textOf_append _ _
  have condition : w.condition .empty = c.condition := by
    rw [WrittenCondition.condition, ColumnTest.condition, hoperator, hvalue]
    rfl
  rw [← text, w.readCondition_eq, condition]

/-- A column that starts like `EXISTS` makes the comparison an existence test. -/
theorem column_of_readCondition (h : ¬ c.column.Plain) {found : Option FilterCondition}
    (hread : Filter.readCondition .empty c.text = .ok found) :
    ∃ k, found = some k ∧ k.column = "" := by
  obtain ⟨u, v, huv, hu⟩ : ∃ u v, c.column.text = u ++ v ∧ Spells "EXISTS".toList u := by
    simpa [Ident.Plain] using h
  obtain ⟨hne, marks⟩ := Filter.isMark_of_mem_signs _ c.comparison.spelling_mem
  have keyword : (phrase ["EXISTS"]).Covers u := covers_word.mpr hu
  have sign : Halts isBlank ((Vocabulary.spelling c.comparison).toList ++ ' ' :: c.value.sql) :=
    (halts_append (by simpa using hne) _).mpr (halts_of_forall fun x hx => (marks x hx).2.1)
  have found : ∃ m, Filter.existence.match? c.text = some m := by
    cases v with
    | nil =>
      obtain ⟨m, hm, -⟩ := Filter.match?_existence (g := [' ']) (by decide) keyword (by decide) sign
        (by simp [hne])
      exact ⟨m, by rw [← hm, text, huv]; simp⟩
    | cons x v =>
      have hx : isBlank x = false := not_isBlank_of_isWord (c.column.isName.2 x (by simp [huv]))
      obtain ⟨m, hm, -⟩ := Filter.match?_existence (g := []) (v := x :: v ++ ' ' ::
        ((Vocabulary.spelling c.comparison).toList ++ ' ' :: c.value.sql)) (by decide) keyword
          (by decide)
        (halts_cons.mpr hx) (by simp)
      exact ⟨m, by rw [← hm, text, huv]; simp⟩
  obtain ⟨m, hm⟩ := found
  exact Filter.column_of_existence hm hread

end ColumnTest

def testsText (cs : List ColumnTest) : Text :=
  " AND ".toList.intercalate (cs.map ColumnTest.text)

section Tests

variable {cs : List ColumnTest} (hne : cs ≠ [])

include hne

theorem exists_conjunction : ∃ k : Conjunction, k.text = testsText cs ∧
    List.Forall₂ (fun c (j : Conjunct) => j.text = c.text) cs k.items := by
  obtain ⟨js, hjs⟩ := exists_forall₂ (R := fun (c : ColumnTest) (j : Conjunct) => j.text = c.text)
    fun c (_ : c ∈ cs) => c.exists_conjunct
  have js_ne_nil : js ≠ [] := by
    rintro rfl
    exact hne (List.forall₂_nil_right_iff.mp hjs)
  refine ⟨.ofList (.capital "AND" (by decide)) js js_ne_nil, ?_, by rwa [Series.items_ofList]⟩
  rw [Conjunction.text, Conjunction.tokens, textOf_ofList, WordGap.textOf_capital, testsText]
  exact congrArg _ (map_eq_map_of_forall₂ hjs fun _ _ h => h.symm).symm

theorem read_testsText : Filter.read .empty (testsText cs) =
    (cs.mapM fun c => Filter.readCondition .empty c.text).map fun found =>
      ⟨.and, (found.filterMap id).map .condition⟩ := by
  obtain ⟨k, htext, hitems⟩ := exists_conjunction hne
  have conjuncts : readConjuncts .empty k.items =
      (cs.mapM fun c => Filter.readCondition .empty c.text).map fun found =>
        found.filterMap id := by
    have texts : k.items.map Conjunct.text = cs.map ColumnTest.text :=
      (map_eq_map_of_forall₂ hitems fun _ _ h => h.symm).symm
    have items : (k.items.map Conjunct.text).mapM (Filter.readCondition .empty) =
        (cs.map ColumnTest.text).mapM (Filter.readCondition .empty) := by rw [texts]
    rw [List.mapM_map, List.mapM_map] at items
    exact congrArg (Except.map _) items
  have read : Filter.read .empty (testsText cs) =
      (readConjuncts .empty k.items).map fun found => ⟨.and, found.map .condition⟩ := by
    rw [← htext]
    exact WrittenFilter.read_eq .empty (.all k)
  rw [read, conjuncts]
  cases cs.mapM fun c => Filter.readCondition .empty c.text <;> rfl

/-- An existence test has no column, and every comparison has one. -/
theorem plain_of_read_testsText
    (h : Filter.read .empty (testsText cs) = .ok ⟨.and, cs.map fun c => .condition c.condition⟩) :
    ∀ c ∈ cs, c.column.Plain := by
  rw [read_testsText hne] at h
  obtain ⟨found, hfound, h⟩ := exists_of_map_eq_ok h
  have conditions : found.filterMap id = cs.map ColumnTest.condition := by
    have injective : Function.Injective FilterNode.condition :=
      fun _ _ h => FilterNode.condition.inj h
    refine injective.list_map ?_
    rw [(FilterGroup.mk.inj h).2, List.map_map]
    rfl
  intro c hc
  by_contra hplain
  obtain ⟨i, hi⟩ := List.getElem?_of_mem hc
  obtain ⟨x, hx, hread⟩ := exists_getElem?_of_mapM hfound hi
  obtain ⟨k, rfl, hcolumn⟩ := c.column_of_readCondition hplain hread
  have among : k ∈ found.filterMap id :=
    List.mem_filterMap.mpr ⟨some k, List.mem_of_getElem? hx, rfl⟩
  rw [conditions] at among
  obtain ⟨d, -, rfl⟩ := List.mem_map.mp among
  have empty := congrArg String.toList hcolumn
  rw [ColumnTest.condition, String.toList_ofList] at empty
  exact d.column.isName.1 empty

/-- The comparisons come back, each with its column, exactly when no column starts like `EXISTS`. -/
theorem read_testsText_iff : Filter.read .empty (testsText cs) =
    .ok ⟨.and, cs.map fun c => .condition c.condition⟩ ↔ ∀ c ∈ cs, c.column.Plain := by
  refine ⟨plain_of_read_testsText hne, fun h => ?_⟩
  have found : (cs.mapM fun c => Filter.readCondition .empty c.text) =
      .ok (cs.map fun c => some c.condition) := by
    refine mapM_of_forall₂ (R := fun c d => c = d ∧ c ∈ cs) ?_ ?_
    · exact List.forall₂_same.mpr fun c hc => ⟨rfl, hc⟩
    · rintro c _ ⟨rfl, hc⟩
      exact c.readCondition_text (h c hc)
  have conditions : (cs.map fun c => some c.condition).filterMap id =
      cs.map ColumnTest.condition := by
    rw [List.filterMap_map]
    exact congrFun List.filterMap_eq_map cs
  rw [read_testsText hne, found, Except.map, conditions, List.map_map]
  rfl

end Tests

structure WrittenUpdate where
  table : TableName
  sets : List Assigned
  sets_ne_nil : sets ≠ []
  tests : List ColumnTest

namespace WrittenUpdate

variable (w : WrittenUpdate)

def whereText : Text :=
  if w.tests = [] then [] else " WHERE ".toList ++ testsText w.tests

def lead : Text :=
  "UPDATE ".toList ++ w.table.text ++ " SET ".toList

def sql : Text :=
  w.lead ++ assignmentsText w.sets ++ w.whereText

def fragment : UpdateFragment :=
  ⟨String.ofList w.table.text, w.sets.map Assigned.read⟩

def filter : Option FilterGroup :=
  if w.tests = [] then none else some ⟨.and, w.tests.map fun c => .condition c.condition⟩

def keyword : Spelling (Vocabulary.spelling StatementKind.update) :=
  .capital "UPDATE" (by decide)

def setKeyword : Spelling "SET" :=
  .capital "SET" (by decide)

def whereKeyword : Spelling "WHERE" :=
  .capital "WHERE" (by decide)

theorem lead_eq :
    w.lead = keyword.text ++
      ([' '] ++ (w.table.text ++ ([' '] ++ (setKeyword.text ++ [' '])))) := by
  have front : "UPDATE ".toList = keyword.text ++ [' '] := by decide
  have behind : " SET ".toList = [' '] ++ (setKeyword.text ++ [' ']) := by decide
  have parts : w.lead = keyword.text ++ [' '] ++ w.table.text ++
      ([' '] ++ (setKeyword.text ++ [' '])) :=
    congrArg₂ (fun u v => u ++ w.table.text ++ v) front behind
  rw [parts]
  simp only [List.append_assoc]

theorem whereText_eq (h : w.tests ≠ []) :
    w.whereText = [' '] ++ (whereKeyword.text ++ ([' '] ++ testsText w.tests)) := by
  have front : " WHERE ".toList = [' '] ++ (whereKeyword.text ++ [' ']) := by decide
  rw [whereText, if_neg h, front]
  simp

theorem exists_tokens : ∃ ts, textOf ts = w.sql ∧ Solid ts ∧ (∀ a ∈ ts, a.Avoids []) ∧
    ∃ r, textOf ts = keyword.text ++ r ∧ Halts Text.isWord r := by
  obtain ⟨tss, htss⟩ := exists_written_assignments w.sets
  obtain ⟨sets, hsets, hsolid, havoids⟩ := exists_tokens_assignmentsText htss w.sets_ne_nil
  have word {k : String} (s : Spelling k) : s.token.Avoids [] := List.forall_mem_nil _
  have body : ∃ ts, textOf ts = assignmentsText w.sets ++ w.whereText ∧ Solid ts ∧
      ∀ a ∈ ts, a.Avoids [] := by
    by_cases h : w.tests = []
    · exact ⟨sets, by simp [hsets, whereText, h], hsolid, havoids⟩
    · obtain ⟨k, htext, -⟩ := exists_conjunction h
      refine ⟨sets ++ Gap.space.token :: whereKeyword.token :: Gap.space.token :: k.tokens,
        ?_, ?_, ?_⟩
      · rw [w.whereText_eq h, ← htext, ← hsets]
        simp [Conjunction.text, Gap.space]
      · exact hsolid.spaced (whereKeyword.solid.spaced k.solid .space) .space
      · simp only [List.forall_mem_append, List.forall_mem_cons]
        exact ⟨havoids, trivial, word _, trivial,
          fun a ha => (k.avoids a ha).mono (List.nil_subset _)⟩
  obtain ⟨ts, htext, hts, hnothing⟩ := body
  refine ⟨keyword.token :: Gap.space.token ::
    (w.table.tokens ++ Gap.space.token :: setKeyword.token ::
    Gap.space.token :: ts), ?_, ?_, ?_, ?_⟩
  · rw [sql, List.append_assoc, ← htext, lead_eq, TableName.text]
    simp [Gap.space]
  · exact keyword.solid.spaced (w.table.solid.spaced (setKeyword.solid.spaced hts .space) .space)
      .space
  · simp only [List.forall_mem_append, List.forall_mem_cons]
    exact ⟨word _, trivial, w.table.avoids_nothing, trivial, word _, trivial, hnothing⟩
  · exact ⟨_, rfl, Gap.space.isGap.halts_isWord _⟩

def statement (fragment : UpdateFragment) (filter : Option FilterGroup) : Statement :=
  { Statement.ofQuery .update (Statement.complete .update [] []
      { Query.empty with filters := filter }) with
    updateTable := some fragment }

theorem takes_lead {r : Text} (hr : Halts isBlank r) :
    (all [blanks, word "UPDATE", blank, .capture 1 identifier, blank, word "SET", blank]).Takes none
      ([] ++ (keyword.text ++ ([' '] ++ (w.table.text ++ ([' '] ++ (setKeyword.text ++ [' ']))))))
      r [(1, w.table.text)] := by
  have space {b : Option Char} {t : Text} (ht : Halts isBlank t) : blank.Takes b [' '] t [] :=
    takes_blank Gap.space.isGap ht
  have start (t : Text) : blanks.Takes none [] (keyword.text ++ t) [] :=
    takes_blanks (List.forall_mem_nil _) (keyword.isName.halts_isBlank t)
  have tableHalts (t : Text) : Halts isBlank (w.table.text ++ t) := w.table.solid.halts_isBlank t
  have setHalts (t : Text) : Halts isBlank (setKeyword.text ++ t) :=
    setKeyword.isName.halts_isBlank t
  have behind {b : Option Char} : (all [blank, word "SET", blank]).Takes b
      ([' '] ++ (setKeyword.text ++ [' '])) r [] :=
    .all_pass (space (by simpa using setHalts _))
      (.all_pass (takes_word setKeyword.spells) (space hr).all_last)
  have table {b : Option Char} := Takes.all_cons (b := b)
    ((w.table.takes_identifier (halts_cons.mpr (by decide)) (by simp)).capture 1) behind
  refine .all_pass (by simpa using start _) (.all_pass (takes_word keyword.spells) ?_)
  exact .all_pass (space (by simpa using tableHalts _)) table

/-- What follows the assignments: nothing, or `WHERE` and the text behind it. -/
inductive Ends : Text → Option Text → Prop
  | nothing : Ends [] none
  | filter {g w g' r : Text} (hg : IsGap g) (hw : Spells "WHERE".toList w) (hg' : IsGap g')
    (hr : Halts isBlank r) : Ends (g ++ (w ++ (g' ++ r))) (some r)

theorem Ends.takes {y : Text} {r : Option Text} (h : Ends y r) (b : Option Char) :
    Change.updateEnding.Takes b y [] (r.map fun t => (3, t)).toList := by
  cases h with
  | nothing => exact Change.takes_updateEnding_nil
  | filter hg hw hg' hr => exact Change.takes_updateEnding hg hw hg' hr

theorem readUpdate_eq {x y : Text} {r : Option Text} (hclear : ClearOfWhere x y) (hy : Ends y r)
    (hblank : Halts isBlank (x ++ y)) (hlast : ∀ c ∈ (x ++ y).getLast?, isBlank c = false) :
    Change.readUpdate (w.lead ++ (x ++ y)) = (Change.readFilter? r).map fun filter =>
      (some ⟨String.ofList w.table.text, x.splitCommas.filterMap Change.readAssignment?⟩,
        filter) := by
  let lead :=
    [] ++ (keyword.text ++ ([' '] ++ (w.table.text ++ ([' '] ++ (setKeyword.text ++ [' '])))))
  have refuses (x₁ x₂ : Text) (hx : x = x₁ ++ x₂) (hne : x₂ ≠ []) :
      Change.updateEnding.Refuses (lastChar (lastChar none lead) x₁) (x₂ ++ (y ++ [])) := by
    rw [List.append_nil]
    refine Change.refuses_updateEnding (hclear x₁ x₂ hx hne)
      (List.append_ne_nil_of_left_ne_nil hne y) fun hline => ?_
    have last := hlast '\n' (by rw [hx, List.append_assoc, hline]; simp)
    cases last
  have sets : (all [.capture 2 (.few anything),
      .maybe (.all [blank, word "WHERE", blank, .capture 3 (.many anything)]), .textEnd]).Takes
        (lastChar none lead) (x ++ y) [] _ :=
    takes_few_seq (fun _ _ => rfl) 2 refuses (hy.takes _)
  have front := (w.takes_lead (r := x ++ y ++ []) (by simpa using hblank)).all_append sets
  obtain ⟨found, matched, -, hcapture⟩ := match?_start_of_takes (w := Change.update)
    (t := w.lead ++ (x ++ y)) rfl (by rw [lead_eq]; simp) front
  have table : found.captured 1 = w.table.text := by
    cases r <;> simp [Match.captured, hcapture]
  have assignments : found.captured 2 = x := by
    cases r <;> simp [Match.captured, hcapture]
  have filter : found.capture? 3 = r := by
    cases r <;> simp [hcapture]
  rw [Change.readUpdate, matched]
  simp only [table, assignments, filter]
  cases Change.readFilter? r <;> rfl

theorem exists_assignments_tokens :
    ∃ ts, textOf ts = assignmentsText w.sets ∧ Solid ts ∧ ∀ a ∈ ts, a.Avoids [] := by
  obtain ⟨tss, htss⟩ := exists_written_assignments w.sets
  exact exists_tokens_assignmentsText htss w.sets_ne_nil

theorem parse_eq {x y : Text} {r : Option Text}
    (hxy : assignmentsText w.sets ++ w.whereText = x ++ y) (hclear : ClearOfWhere x y)
    (hy : Ends y r) (start : Int) :
    Statement.parse (String.ofList w.sql) start = (Change.readFilter? r).map
      (statement ⟨String.ofList w.table.text, x.splitCommas.filterMap Change.readAssignment?⟩) := by
  obtain ⟨ts, htext, hsolid, havoids, s, hs, hhalts⟩ := w.exists_tokens
  obtain ⟨sets, hsets, solidSets, -⟩ := w.exists_assignments_tokens
  have whole : w.sql = w.lead ++ (x ++ y) := by rw [sql, List.append_assoc, hxy]
  have hblank : Halts isBlank (x ++ y) := by
    rw [← hxy, ← hsets]
    exact solidSets.halts_isBlank _
  have hne : x ++ y ≠ [] := by
    rw [← hxy, ← hsets]
    exact List.append_ne_nil_of_left_ne_nil solidSets.textOf_ne_nil _
  have hlast : ∀ c ∈ (x ++ y).getLast?, isBlank c = false := by
    have := hsolid.last_not_isBlank
    rwa [htext, whole, List.getLast?_append_of_ne_nil _ hne] at this
  have parsed := Statement.parse_change .update (by decide) keyword hsolid havoids hs hhalts start
  rw [htext] at parsed
  rw [parsed, Change.read, whole, w.readUpdate_eq hclear hy hblank hlast]
  cases Change.readFilter? r <;> rfl

/-- No string holds `WHERE` between blanks. -/
def Quiet (as : List Assigned) : Prop :=
  ∀ a ∈ as, ∀ t, a.value = .string t → ¬ HoldsWhere t.toList

theorem readFilter?_tests (h : w.tests ≠ []) : Change.readFilter? (some (testsText w.tests)) =
    (Filter.read .empty (testsText w.tests)).map some := by
  obtain ⟨k, htext, -⟩ := exists_conjunction h
  obtain ⟨c, t, ht⟩ :=
    List.exists_cons_of_ne_nil (htext ▸ k.solid.textOf_ne_nil : testsText w.tests ≠ [])
  rw [ht, Change.readFilter?]
  cases Filter.read .empty (c :: t) <;> rfl

/-- Without a `WHERE` in them the assignments are read as they were written, and the filter is what
stands behind the first `WHERE` of the statement. -/
theorem parse_of_quiet (h : Quiet w.sets) (start : Int) :
    Statement.parse (String.ofList w.sql) start =
    (Change.readFilter? (if w.tests = [] then none else some (testsText w.tests))).map
    (statement w.fragment) := by
  have clear : ClearOfWhere (assignmentsText w.sets) w.whereText :=
    clear_assignmentsText w.sets_ne_nil h _
  have ends : Ends w.whereText (if w.tests = [] then none else some (testsText w.tests)) := by
    by_cases htests : w.tests = []
    · rw [whereText, if_pos htests, if_pos htests]
      exact .nothing
    · obtain ⟨k, htext, -⟩ := exists_conjunction htests
      have halts := k.solid.halts_isBlank []
      rw [List.append_nil] at halts
      rw [w.whereText_eq htests, if_neg htests]
      exact .filter Gap.space.isGap whereKeyword.spells Gap.space.isGap (htext ▸ halts)
  rw [w.parse_eq rfl clear ends, readAssignments_text w.sets_ne_nil]
  rfl

theorem exists_first_loud {as : List Assigned} (h : ¬ Quiet as) :
    ∃ bs a cs t, as = bs ++ a :: cs ∧ Quiet bs ∧ a.value = .string t ∧ HoldsWhere t.toList := by
  induction as with
  | nil => exact absurd (List.forall_mem_nil _) h
  | cons a as ih =>
    by_cases ha : ∀ t, a.value = .string t → ¬ HoldsWhere t.toList
    · have later : ¬ Quiet as := fun has => h (List.forall_mem_cons.mpr ⟨ha, has⟩)
      obtain ⟨bs, b, cs, t, rfl, hbs, hvalue, hholds⟩ := ih later
      exact ⟨a :: bs, b, cs, t, rfl, List.forall_mem_cons.mpr ⟨ha, hbs⟩, hvalue, hholds⟩
    · obtain ⟨t, hvalue, hholds⟩ : ∃ t, a.value = .string t ∧ HoldsWhere t.toList := by
        simpa using ha
      exact ⟨[], a, as, t, rfl, List.forall_mem_nil _, hvalue, hholds⟩

/-- The assignments are cut at the first `WHERE` in them: it stands in the value of `a`, a string
that is `x` in front of it and `y` from there on. -/
structure IsCut (as bs : List Assigned) (a : Assigned) (cs : List Assigned) (x y : Text) :
    Prop where
  assignments : as = bs ++ a :: cs
  quiet : Quiet bs
  value : a.value.sql = '\'' :: x ++ (y ++ ['\''])
  sheltered : Sheltered ('\'' :: x ++ (y ++ ['\'']))
  ahead : WhereAhead y
  clear : ClearOfWhere x y

theorem exists_cut {as : List Assigned} (h : ¬ Quiet as) : ∃ bs a cs x y, IsCut as bs a cs x y := by
  obtain ⟨bs, a, cs, t, has, hbs, hvalue, hholds⟩ := exists_first_loud h
  obtain ⟨x, y, hxy, hahead, hclear⟩ :=
    exists_first_where ((holdsWhere_doubleQuotes (q := '\'') (by decide)).mpr hholds)
  refine ⟨bs, a, cs, x, y, has, hbs, ?_, ?_, hahead, hclear⟩
  · rw [hvalue, Scalar.sql, quotedLiteral, hxy]
    simp
  · have := sheltered_doubled (q := '\'') (by decide) t.toList
    rw [hxy] at this
    simpa using this

namespace IsCut

variable {as bs cs : List Assigned} {a : Assigned} {x y : Text} (h : IsCut as bs a cs x y)

include h

theorem exists_text :
    ∃ s, assignmentsText as = assignmentsFront bs ++ (a.lead ++ '\'' :: x) ++ (y ++ '\'' :: s) := by
  obtain ⟨s, hs⟩ := exists_assignmentsText_cons a cs
  refine ⟨s, ?_⟩
  rw [h.assignments, assignmentsText_append bs (a :: cs) (List.cons_ne_nil _ _), hs, Assigned.text,
    h.value]
  simp

theorem clear_front (s : Text) :
    ClearOfWhere (assignmentsFront bs ++ (a.lead ++ '\'' :: x)) (y ++ '\'' :: s) := by
  have opening : ClearOfWhere ['\''] (x ++ (y ++ '\'' :: s)) := clear_of_not_isBlank (by decide) _
  have string : ClearOfWhere ('\'' :: x) (y ++ '\'' :: s) :=
    opening.append (h.clear.append_right (by decide))
  have value : ClearOfWhere (a.lead ++ '\'' :: x) (y ++ '\'' :: s) :=
    (a.clear_lead (halts_cons.mpr (by decide)) (halts_cons.mpr (by decide))).append string
  refine ClearOfWhere.append ?_ value
  rw [List.append_assoc]
  exact clear_assignmentsFront h.quiet _

theorem last_not_isBlank : ∀ c ∈ ('\'' :: x).getLast?, isBlank c = false := by
  intro c hc
  rw [List.getLast?_cons] at hc
  cases hx : x.getLast? with
  | none =>
    rw [hx] at hc
    cases hc
    decide
  | some d =>
    rw [hx] at hc
    cases hc
    exact h.clear.last_not_isBlank h.ahead d hx

theorem readAssignments : (assignmentsFront bs ++ (a.lead ++ '\'' :: x)).splitCommas.filterMap
    Change.readAssignment? = bs.map Assigned.read ++
      [⟨String.ofList a.column.text, String.ofList ('\'' :: x)⟩] :=
  readAssignments_front bs a (fun _ => skips_of_cut h.sheltered) (halts_cons.mpr (by decide))
    h.last_not_isBlank (List.cons_ne_nil _ _)

/-- The closing quote stands behind the `WHERE`, so the filter is not empty. -/
theorem exists_filter (s : Text) : ∃ g k g' r, y ++ '\'' :: s = g ++ (k ++ (g' ++ r)) ∧ r ≠ [] ∧
    Ends (y ++ '\'' :: s) (some r) := by
  obtain ⟨g, k, g', r, hbehind, hg, hk, hg', hr⟩ := (h.ahead.append ('\'' :: s)).exists_split
  refine ⟨g, k, g', r, hbehind, ?_, hbehind ▸ .filter hg hk hg' hr⟩
  rintro rfl
  have quote : '\'' ∈ g ++ (k ++ g') := by
    have : '\'' ∈ y ++ '\'' :: s := by simp
    rw [hbehind] at this
    simpa using this
  exact absurd (WhereAhead.mem_letters hg hk hg' _ quote) (by decide)

end IsCut

/-- At the first string that holds `WHERE` the statement breaks off: the assignments in front of it
are kept, of the string its beginning, and everything behind the `WHERE` is read as a filter. -/
theorem parse_of_loud (h : ¬ Quiet w.sets) (start : Int) :
    ∃ bs a cs x y r, w.sets = bs ++ a :: cs ∧ y ≠ [] ∧
    a.value.sql = x ++ y ∧ r ≠ [] ∧ r <:+ w.sql ∧ Statement.parse (String.ofList w.sql) start =
      (Filter.read .empty r).map fun filter => statement ⟨String.ofList w.table.text,
        bs.map Assigned.read ++ [⟨String.ofList a.column.text, String.ofList x⟩]⟩
          (some filter) := by
  obtain ⟨bs, a, cs, x, y, cut⟩ := exists_cut h
  obtain ⟨s, hs⟩ := cut.exists_text
  obtain ⟨g, k, g', r, hbehind, left, ends⟩ := cut.exists_filter (s ++ w.whereText)
  have whole : assignmentsText w.sets ++ w.whereText =
      assignmentsFront bs ++ (a.lead ++ '\'' :: x) ++ (y ++ '\'' :: (s ++ w.whereText)) := by
    rw [hs]
    simp
  refine ⟨bs, a, cs, '\'' :: x, y ++ ['\''], r, cut.assignments, by simp, cut.value, left, ?_, ?_⟩
  · have text : w.sql = w.lead ++ (assignmentsFront bs ++ (a.lead ++ '\'' :: x)) ++
        (g ++ (k ++ g')) ++ r := by
      rw [sql, List.append_assoc, whole, hbehind]
      simp
    exact ⟨_, text.symm⟩
  · obtain ⟨c, r, rfl⟩ := List.exists_cons_of_ne_nil left
    rw [w.parse_eq whole (cut.clear_front _) ends, cut.readAssignments, Change.readFilter?]
    cases Filter.read .empty (c :: r) <;> rfl

/-- An update is read as it was written exactly when no assigned string holds `WHERE` between blanks
and no column of the filter starts like `EXISTS`. -/
theorem parse_update_iff (start : Int) :
    (∃ s, Statement.parse (String.ofList w.sql) start = .ok s ∧ s.kind = .update ∧
      s.updateTable = some w.fragment ∧ s.query.filters = w.filter) ↔
        (∀ a ∈ w.sets, ∀ t, a.value = .string t → ¬ HoldsWhere t.toList) ∧
        ∀ c ∈ w.tests, c.column.Plain := by
  constructor
  · rintro ⟨s, hparse, -, hupdate, hfilters⟩
    have quiet : Quiet w.sets := by
      by_contra loud
      obtain ⟨bs, a, cs, x, y, r, hsets, hy, hvalue, -, -, hloud⟩ := w.parse_of_loud loud start
      rw [hloud] at hparse
      obtain ⟨filter, -, rfl⟩ := exists_of_map_eq_ok hparse
      have sets : bs.map Assigned.read ++ [⟨String.ofList a.column.text, String.ofList x⟩] =
          bs.map Assigned.read ++ a.read :: cs.map Assigned.read := by
        have := congrArg UpdateFragment.sets (Option.some.inj hupdate)
        rw [fragment, hsets, List.map_append, List.map_cons] at this
        exact this
      have same := congrArg Assignment.value (List.cons.inj (List.append_cancel_left sets)).1
      have text : x = x ++ y := hvalue ▸ String.ofList_injective same
      exact hy (List.self_eq_append_right.mp text)
    refine ⟨quiet, ?_⟩
    rw [w.parse_of_quiet quiet] at hparse
    obtain ⟨filter, hfilter, rfl⟩ := exists_of_map_eq_ok hparse
    by_cases htests : w.tests = []
    · rw [htests]
      exact List.forall_mem_nil _
    · rw [if_neg htests, w.readFilter?_tests htests] at hfilter
      obtain ⟨g, hg, rfl⟩ := exists_of_map_eq_ok hfilter
      refine (read_testsText_iff htests).mp ?_
      have : some g = w.filter := hfilters
      rw [filter, if_neg htests] at this
      rw [hg, Option.some.inj this]
  · rintro ⟨hquiet, hplain⟩
    have filters : Change.readFilter? (if w.tests = [] then none else some (testsText w.tests)) =
        .ok w.filter := by
      by_cases htests : w.tests = []
      · rw [if_pos htests, filter, if_pos htests]
        rfl
      · rw [if_neg htests, w.readFilter?_tests htests, (read_testsText_iff htests).mpr hplain,
          filter, if_neg htests]
        rfl
    refine ⟨statement w.fragment w.filter, ?_, rfl, rfl, rfl⟩
    rw [w.parse_of_quiet hquiet, filters]
    rfl

theorem isPlain_a : IsPlain "a" := by
  decide

/-- An update without a filter and with a `WHERE` in the string that it assigns. -/
def hiddenWhere : WrittenUpdate where
  table := ⟨⟨"t".toList, by decide⟩, none⟩
  sets := [⟨isPlain_a.ident, .string "x WHERE y", .string _⟩]
  sets_ne_nil := List.cons_ne_nil _ _
  tests := []

theorem holdsWhere_hidden : HoldsWhere "x WHERE y".toList :=
  ⟨['x'], " WHERE y".toList, rfl, [' '], "WHERE".toList, [' '], ['y'], rfl, ⟨by decide, by decide⟩,
    spells_self, ⟨by decide, by decide⟩⟩

theorem hidden_where_not_kept :
    ¬ ∃ s, Statement.parse "UPDATE t SET a = 'x WHERE y'" 1 = .ok s ∧ s.kind = .update ∧
      s.updateTable = some ⟨"t", [⟨"a", "'x WHERE y'"⟩]⟩ ∧ s.query.filters = none := by
  have text : String.ofList hiddenWhere.sql = "UPDATE t SET a = 'x WHERE y'" := by
    decide +kernel
  have fragment : hiddenWhere.fragment = ⟨"t", [⟨"a", "'x WHERE y'"⟩]⟩ := by
    rfl
  have iff := hiddenWhere.parse_update_iff 1
  rw [text, fragment] at iff
  refine mt iff.mp ?_
  rintro ⟨quiet, -⟩
  exact quiet _ List.mem_cons_self _ rfl holdsWhere_hidden

end WrittenUpdate

end SqlCanvas
