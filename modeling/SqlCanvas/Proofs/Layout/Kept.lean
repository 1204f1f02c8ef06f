import SqlCanvas.Proofs.Layout.Part

/-!
# What no layout changes

The lexemes of a tidy query that are neither keywords nor blanks: names, signs, numbers, string
literals and calls in conditions. Blanks stand in the last two only.
-/

namespace SqlCanvas

open Text Nesting Pattern

/-- A text that stands as it is in every layout. -/
inductive IsKept (s : String) : Prop
  | name (x : Dotted) (h : x.text = s.toList)
  | sign (h : ∀ c ∈ s.toList, isWord c = false ∧ isBlank c = false)
  | number (n : Int) (h : s.toList = Numeral.ofInt n)
  | literal (v : String) (h : s.toList = (Scalar.string v).sql)
  | call (h : IsCall s)

theorem IsIdentifier.isKept {s : String} (h : IsIdentifier s) : IsKept s := by
  obtain ⟨i, hi⟩ := h
  exact .name ⟨i, []⟩ (by simpa [Dotted.text, Dotted.tokens] using hi)

theorem TableRef.Nameable.isKept_name {t : TableRef} (h : t.Nameable) : IsKept t.name := by
  obtain ⟨x, -, hx⟩ := h.name
  exact .name x hx

theorem TableRef.Nameable.isKept_column {t : TableRef} (h : t.Nameable) {column : String}
    (hc : IsIdentifier column) : IsKept (t.column column) := by
  obtain ⟨x, hx⟩ := h.exists_member hc
  exact .name x.ref.dotted hx.textOf_tokens

theorem isKept_qualifiedColumn {tables : List TableRef} (htables : ∀ t ∈ tables, t.Nameable)
    (table : Option String) {column : String} (hc : IsIdentifier column) :
    IsKept (qualifiedColumn tables table column) := by
  rw [qualifiedColumn]
  cases ht : findTableOf? tables table with
  | none => exact hc.isKept
  | some t =>
    obtain ⟨id, -, ht⟩ := Option.bind_eq_some_iff.mp ht
    exact (htables t (mem_of_findTable? ht)).isKept_column hc

@[simp] theorem isKept_comma : IsKept "," :=
  .sign (by decide)

@[simp] theorem isKept_star : IsKept "*" :=
  .sign (by decide)

@[simp] theorem isKept_opening : IsKept "(" :=
  .sign (by decide)

@[simp] theorem isKept_closing : IsKept ")" :=
  .sign (by decide)

@[simp] theorem Comparison.isKept_spelling (c : Comparison) : IsKept (Vocabulary.spelling c) := by
  refine .sign ?_
  cases c <;> decide

/-- All but the keywords and the blanks is kept. -/
def AllKept (ls : List Lexeme) : Prop :=
  ∀ s, .fixed s ∈ ls → IsKept s

section AllKept

variable {ls ls' : List Lexeme}

@[simp] theorem allKept_nil : AllKept [] :=
  nofun

@[simp] theorem allKept_keyword_cons {k : String} {h : IsKeyword k.toList} :
    AllKept (.keyword k h :: ls) ↔ AllKept ls := by
  simp [AllKept]

@[simp] theorem allKept_space_cons : AllKept (.space :: ls) ↔ AllKept ls := by
  simp [AllKept, Lexeme.space]

@[simp] theorem allKept_line_cons : AllKept (.line :: ls) ↔ AllKept ls := by
  simp [AllKept, Lexeme.line]

@[simp] theorem allKept_fixed_cons {s : String} :
    AllKept (.fixed s :: ls) ↔ IsKept s ∧ AllKept ls := by
  simp [AllKept]

@[simp] theorem allKept_append : AllKept (ls ++ ls') ↔ AllKept ls ∧ AllKept ls' := by
  simp [AllKept, or_imp, forall_and]

theorem allKept_intercalate {separator : List Lexeme} (hseparator : AllKept separator)
    {lss : List (List Lexeme)} (h : ∀ ls ∈ lss, AllKept ls) :
    AllKept (separator.intercalate lss) := by
  induction lss with
  | nil => exact allKept_nil
  | cons ls lss ih =>
    obtain ⟨hls, hlss⟩ := List.forall_mem_cons.mp h
    cases lss with
    | nil => simpa using hls
    | cons ls' lss =>
      rw [List.intercalate_cons_cons]
      exact allKept_append.mpr ⟨allKept_append.mpr ⟨hls, hseparator⟩, ih hlss⟩

@[simp] theorem allKept_phrase (ks : List String) (h : ∀ k ∈ ks, IsKeyword k.toList) :
    AllKept (Lexeme.phrase ks h) := by
  induction ks with
  | nil => exact allKept_nil
  | cons k ks ih =>
    cases ks with
    | nil => simp [Lexeme.phrase]
    | cons k' ks => simpa [Lexeme.phrase] using ih _

@[simp] theorem allKept_wordLexemes (k : String) (h : IsKeyword k.toList) :
    AllKept (wordLexemes k h) := by
  simp [wordLexemes]

theorem allKept_commaLexemes {lss : List (List Lexeme)} (h : ∀ ls ∈ lss, AllKept ls) :
    AllKept (commaLexemes lss) :=
  allKept_intercalate (by simp) h

theorem allKept_aliasLexemes {aliasName : Option String} (h : ∀ a ∈ aliasName, IsIdentifier a) :
    AllKept (aliasLexemes aliasName) := by
  cases aliasName with
  | none => exact allKept_nil
  | some a =>
    rw [aliasLexemes, nonempty?_of_isIdentifier (h a rfl)]
    simpa using (h a rfl).isKept

end AllKept

theorem TableRef.Nameable.allKept_lexemes {t : TableRef} (h : t.Nameable) : AllKept t.lexemes :=
  allKept_fixed_cons.mpr ⟨h.isKept_name, allKept_aliasLexemes fun a ha =>
    (h.aliasName a ha).isIdentifier⟩

theorem Aggregate.allKept_lexemes (a : Aggregate) {argument : String} (h : IsKept argument) :
    AllKept (a.lexemes argument) := by
  rw [Aggregate.lexemes]
  split <;> simpa using h

theorem SelectedColumn.Tidy.allKept_lexemes {c : SelectedColumn} (h : c.Tidy)
    {tables : List TableRef} (htables : ∀ t ∈ tables, t.Nameable) : AllKept (c.lexemes tables) := by
  refine allKept_append.mpr ⟨?_, allKept_aliasLexemes h.aliasName⟩
  have column (t : TableRef) (ht : findTable? tables c.tableId = some t) :
      IsKept (t.column c.columnName) :=
    (htables t (mem_of_findTable? ht)).isKept_column h.name
  have body := bodyLexemes.eq_1 c tables
  rw [h.expression] at body
  rw [body]
  cases ht : findTable? tables c.tableId with
  | none => simpa [nonempty?] using h.name.isKept
  | some t =>
    cases ha : c.aggregate with
    | none => simpa [nonempty?] using column t ht
    | some a => simpa [nonempty?] using a.allKept_lexemes (column t ht)

theorem allKept_onLexemes {lss : List (List Lexeme)} (h : ∀ ls ∈ lss, AllKept ls) :
    AllKept (onLexemes lss) := by
  rw [onLexemes]
  split
  · exact allKept_nil
  · exact allKept_append.mpr ⟨by simp, allKept_intercalate (by simp) h⟩

theorem Scalar.IsLiteral.allKept_lexemes {v : Scalar} (h : v.IsLiteral) : AllKept v.lexemes := by
  cases h with
  | null => simp [Scalar.lexemes]
  | bool b => cases b <;> simp [Scalar.lexemes]
  | int n => exact allKept_fixed_cons.mpr ⟨.number n String.toList_ofList, allKept_nil⟩
  | string s => exact allKept_fixed_cons.mpr ⟨.literal s String.toList_ofList, allKept_nil⟩

theorem FilterOperator.Fits.allKept_lexemes {o : FilterOperator} {v : FilterValue} (h : o.Fits v)
    {column : String} (hc : IsKept column) (value2 : Datum) :
    AllKept (predicateLexemes o column v.toDatum value2) := by
  have value {v : Scalar} (h : v.IsLiteral) : AllKept (FilterValue.scalar v).toDatum.lexemes :=
    h.allKept_lexemes
  cases h with
  | compare c h =>
    exact allKept_fixed_cons.mpr ⟨hc, by simpa [FilterOperator.lexemes] using value h⟩
  | like h => exact allKept_fixed_cons.mpr ⟨hc, by simpa [FilterOperator.lexemes] using value h⟩
  | notLike h => exact allKept_fixed_cons.mpr ⟨hc, by simpa [FilterOperator.lexemes] using value h⟩
  | isNull v => exact allKept_fixed_cons.mpr ⟨hc, by simp [FilterOperator.lexemes]⟩
  | isNotNull v => exact allKept_fixed_cons.mpr ⟨hc, by simp [FilterOperator.lexemes]⟩

theorem FilterCondition.Tidy.allKept_lexemes {c : FilterCondition} (h : c.Tidy)
    {tables : List TableRef} (htables : ∀ t ∈ tables, t.Nameable) :
    ∀ ls ∈ c.lexemes? tables, AllKept ls := by
  intro ls hls
  obtain ⟨column, hcolumn, rfl⟩ := Option.map_eq_some_iff.mp hls
  refine h.fits.allKept_lexemes ?_ _
  rw [FilterCondition.columnSql?] at hcolumn
  rcases h.place with ⟨id, hid, hname⟩ | ⟨hid, hname⟩
  · rw [hid] at hcolumn
    obtain ⟨t, ht, rfl⟩ := Option.map_eq_some_iff.mp hcolumn
    exact (htables t (mem_of_findTable? ht)).isKept_column hname
  · rw [hid] at hcolumn
    obtain rfl := Option.some.inj hcolumn
    rcases hname with hcall | ⟨i, -, -, hi⟩
    · exact .call hcall
    · exact IsIdentifier.isKept ⟨i, hi⟩

namespace FilterNode

theorem allKept_joinLexemes? (operator : Connective) {lss : List (List Lexeme)}
    (h : ∀ ls ∈ lss, AllKept ls) : ∀ ls ∈ joinLexemes? operator lss, AllKept ls := by
  intro ls hls
  obtain ⟨-, rfl⟩ := joinLexemes?_eq_some_iff.mp hls
  exact allKept_intercalate (by cases operator <;> simp [Connective.lexemes]) h

variable {tables : List TableRef} (htables : ∀ t ∈ tables, t.Nameable)
include htables

theorem allKept_all {cs : List FilterCondition} (hcs : ∀ c ∈ cs, c.Tidy) :
    ∀ ls ∈ joinLexemes? .and (partsLexemes tables (cs.map .condition)), AllKept ls := by
  refine allKept_joinLexemes? .and fun ls hls => ?_
  rw [partsLexemes_conditions] at hls
  obtain ⟨c, hc, hls⟩ := List.mem_filterMap.mp hls
  exact (hcs c hc).allKept_lexemes htables ls hls

theorem IsAlternative.allKept_parts {n : FilterNode} (h : n.IsAlternative) :
    ∀ ls ∈ partsLexemes tables [n], AllKept ls := by
  intro ls hls
  cases h with
  | condition h =>
    rw [partsLexemes, partsLexemes, List.append_nil, Option.mem_toList] at hls
    exact h.allKept_lexemes htables ls hls
  | group h =>
    obtain ⟨inside, hinside, rfl⟩ : ∃ inside, _ = some inside ∧ parenLexemes inside = ls := by
      simpa [partsLexemes] using hls
    simpa [parenLexemes] using allKept_all htables h inside hinside

theorem TwoLevel.allKept_lexemes {n : FilterNode} (h : n.TwoLevel) :
    ∀ ls ∈ n.lexemes? tables, AllKept ls := by
  cases h with
  | one h =>
    cases h with
    | condition h =>
      rw [lexemes?]
      exact h.allKept_lexemes htables
    | group h =>
      rw [lexemes?]
      exact allKept_all htables h
  | any h =>
    rw [lexemes?]
    refine allKept_joinLexemes? .or fun ls hls => ?_
    obtain ⟨n, hn, hls⟩ := exists_of_mem_partsLexemes hls
    exact (h n hn).allKept_parts htables ls hls

end FilterNode

theorem allKept_linesOf {lss : List (List Lexeme)} (h : ∀ ls ∈ lss, AllKept ls) :
    AllKept (linesOf lss) :=
  allKept_intercalate (by simp) h

theorem allKept_clauseLexemes {words : List String} {hwords : ∀ k ∈ words, IsKeyword k.toList}
    {body : Option (List Lexeme)} (h : ∀ ls ∈ body, AllKept ls) :
    ∀ ls ∈ clauseLexemes words hwords body, AllKept ls := by
  intro ls hls
  obtain ⟨inside, hinside, rfl⟩ : ∃ inside, body = some inside ∧ _ = ls := by
    simpa [clauseLexemes] using hls
  simpa using h inside hinside

@[simp] theorem isKept_intText (n : Int) : IsKept (Dialect.intText n) :=
  .number n String.toList_ofList

theorem Dialect.allKept_limitLexemes (d : Dialect) (limit : Nat) (offset : Option Nat) :
    AllKept (d.limitLexemes limit offset) := by
  refine allKept_intercalate (by simp) fun ls hls => ?_
  cases d with
  | sqlserver =>
    rcases List.mem_pair.mp hls with rfl | rfl <;> simp
  | _ =>
    rcases List.mem_cons.mp hls with rfl | hls
    · simp
    · obtain ⟨n, -, rfl⟩ := Option.map_eq_some_iff.mp (Option.mem_toList.mp hls)
      simp

namespace Query

variable {q : Query}

namespace Tidy

variable (h : q.Tidy)
include h

theorem allKept_select : AllKept q.selectLexemes := by
  have columns :=
    allKept_commaLexemes (List.forall_mem_map.mpr fun c hc =>
      (h.columns c hc).allKept_lexemes h.tables)
  rw [selectLexemes]
  split
  · simp
  · split <;> simpa using columns

theorem allKept_join {j : Join} (hj : j ∈ q.joins) : ∀ ls ∈ j.lexemes? q.tables, AllKept ls := by
  intro ls hls
  obtain ⟨source, hsource, hls⟩ := Option.bind_eq_some_iff.mp hls
  obtain ⟨target, htarget, hls⟩ := Option.bind_eq_some_iff.mp hls
  obtain rfl := Option.some.inj hls
  have source := h.tables source (mem_of_findTable? hsource)
  have target := h.tables target (mem_of_findTable? htarget)
  refine allKept_append.mpr ⟨by simp,
    allKept_append.mpr ⟨by simp, allKept_append.mpr ⟨target.allKept_lexemes, ?_⟩⟩⟩
  refine allKept_onLexemes (List.forall_mem_map.mpr fun c hc => ?_)
  obtain ⟨hfrom, hto⟩ := h.joins j hj c hc
  simpa [JoinCondition.lexemes] using And.intro (source.isKept_column hfrom)
    (target.isKept_column hto)

theorem allKept_ending (d : Dialect) : ∀ ls ∈ q.endingLexemes d, AllKept ls := by
  have columns (g : GroupClause) (hg : g ∈ q.groupBy) : AllKept (g.columnsLexemes q.tables) :=
    allKept_commaLexemes (List.forall_mem_map.mpr fun c hc => by
      simpa using isKept_qualifiedColumn h.tables c.tableId (h.groups g hg c hc))
  have orders (os : List OrderItem) (hos : os ∈ q.orderBy) :
      AllKept (commaLexemes (os.map (·.lexemes q.tables))) :=
    allKept_commaLexemes (List.forall_mem_map.mpr fun o ho => by
      simpa [OrderItem.lexemes] using isKept_qualifiedColumn h.tables o.tableId
        (h.orders os hos o ho))
  intro ls hls
  simp only [endingLexemes, List.mem_append] at hls
  rcases hls with hls | hls | hls | hls | hls
  · refine allKept_clauseLexemes (fun ls hls => ?_) ls hls
    obtain ⟨f, hf, hls⟩ := Option.bind_eq_some_iff.mp hls
    exact (h.filters f hf).allKept_lexemes h.tables ls hls
  · refine allKept_clauseLexemes (fun ls hls => ?_) ls hls
    obtain ⟨g, hg, rfl⟩ := Option.map_eq_some_iff.mp hls
    exact columns g (Option.filter_eq_some_iff.mp hg).1
  · refine allKept_clauseLexemes (fun ls hls => ?_) ls hls
    obtain ⟨g, hg, hls⟩ := Option.bind_eq_some_iff.mp hls
    obtain ⟨n, hn, hls⟩ := Option.bind_eq_some_iff.mp hls
    exact (h.having g hg n hn).allKept_lexemes h.tables ls hls
  · refine allKept_clauseLexemes (fun ls hls => ?_) ls hls
    obtain ⟨os, hos, rfl⟩ := Option.map_eq_some_iff.mp hls
    exact orders os (Option.filter_eq_some_iff.mp hos).1
  · obtain ⟨limit, -, rfl⟩ := Option.map_eq_some_iff.mp (Option.mem_toList.mp hls)
    exact d.allKept_limitLexemes limit q.offset

theorem allKept_own (d : Dialect) {anchor : TableRef} (hanchor : anchor ∈ q.tables) :
    ∀ ls ∈ q.ownLexemes d anchor, AllKept ls := by
  refine List.forall_mem_cons.mpr ⟨h.allKept_select,
    List.forall_mem_cons.mpr ⟨?_, fun ls hls => ?_⟩⟩
  · simpa using (h.tables anchor hanchor).allKept_lexemes
  · rcases List.mem_append.mp hls with hls | hls
    · obtain ⟨j, hj, hls⟩ := List.mem_filterMap.mp hls
      exact h.allKept_join hj ls hls
    · exact h.allKept_ending d ls hls

end Tidy

variable {d : Dialect}

theorem allKept_tableLexemes {cs : List (CommonTable Query)}
    (hnames : ∀ c ∈ cs, IsIdentifier c.name) (h : ∀ c ∈ cs, AllKept (c.query.lexemes d)) :
    ∀ ls ∈ tableLexemes d cs, AllKept ls := by
  induction cs with
  | nil => exact List.forall_mem_nil _
  | cons c cs ih =>
    obtain ⟨hname, hnames⟩ := List.forall_mem_cons.mp hnames
    obtain ⟨hc, hcs⟩ := List.forall_mem_cons.mp h
    exact List.forall_mem_cons.mpr ⟨by simpa using ⟨hname.isKept, hc⟩, ih hnames hcs⟩

theorem allKept_branchLexemes {us : List (SetBranch Query)}
    (h : ∀ u ∈ us, AllKept (u.query.lexemes d)) : ∀ ls ∈ branchLexemes d us, AllKept ls := by
  induction us with
  | nil => exact List.forall_mem_nil _
  | cons u us ih =>
    obtain ⟨hu, hus⟩ := List.forall_mem_cons.mp h
    exact List.forall_mem_cons.mpr ⟨allKept_phrase _ _, List.forall_mem_cons.mpr ⟨hu, ih hus⟩⟩

theorem allKept_withLexemes (ctes : List (CommonTable Query)) : AllKept (withLexemes ctes) := by
  rw [withLexemes]
  split <;> simp

/-- Of the text of a tidy query all is kept but its keywords and blanks. -/
theorem allKept_lexemes (h : ∀ r, q.Reaches r → r.Tidy) : AllKept (q.lexemes d) := by
  induction q using nestedInduction with
  | step q ih =>
    have held (r : Query) (hr : q.Holds r) : AllKept (r.lexemes d) :=
      ih r hr fun s hs => h s (.head hr hs)
    have tidy := h q .refl
    obtain ⟨anchor, rest, htables⟩ := List.exists_cons_of_ne_nil tidy.some_table
    have front : ∀ ls ∈ optionalTableLexemes d q.ctes, AllKept ls := by
      cases hc : q.ctes with
      | none => exact List.forall_mem_nil _
      | some cs =>
        rw [optionalTableLexemes]
        split
        · exact List.forall_mem_nil _
        · refine List.forall_mem_singleton.mpr (allKept_append.mpr ⟨allKept_withLexemes cs,
            allKept_intercalate (by simp) ?_⟩)
          exact allKept_tableLexemes (tidy.ctes cs hc) fun c hmem => held _ (.commonTable hc hmem)
    have branches : ∀ ls ∈ optionalBranchLexemes d q.unions, AllKept ls := by
      cases hu : q.unions with
      | none => exact List.forall_mem_nil _
      | some us => exact allKept_branchLexemes fun u hmem => held _ (.branch hu hmem)
    rw [lexemes_eq, htables]
    refine allKept_linesOf fun ls hls => ?_
    simp only [List.mem_append] at hls
    rcases hls with (hls | hls) | hls
    · exact front ls hls
    · exact tidy.allKept_own d (htables ▸ List.mem_cons_self) ls hls
    · exact branches ls hls

end Query

end SqlCanvas
