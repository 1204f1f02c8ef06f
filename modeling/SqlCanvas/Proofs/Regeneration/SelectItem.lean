import SqlCanvas.Proofs.Grammar.Expression
import SqlCanvas.Proofs.Regeneration.Listed
import SqlCanvas.Proofs.Structure.Atom

/-!
# Select items that are no columns

Numbers, strings and expressions as they stand in a list behind `SELECT`. An expression comes back
as it is written when the `AS` at its end, if there is one, is written in capitals between single
spaces. A number does not come back: it is read as a column, and its digits get the name of the
table in front of them.
-/

namespace SqlCanvas

open Text Nesting Pattern

/-- No comma stands in the text outside of quotes and parentheses. -/
def LacksComma (t : Text) : Prop :=
  ∀ i < t.length, outside.after (t.take i) = outside → t[i]? ≠ some ','

instance (t : Text) : Decidable (LacksComma t) :=
  inferInstanceAs (Decidable (∀ i < t.length, outside.after (t.take i) = outside →
    t[i]? ≠ some ','))

theorem noComma_of_lacksComma {ts : List Token} (h : LacksComma (textOf ts)) :
    ∀ a ∈ ts, a.NoComma := by
  intro a ha
  cases a with
  | mark c hc =>
    rintro rfl
    obtain ⟨us, vs, rfl⟩ := List.append_of_mem ha
    have text : textOf (us ++ .mark ',' hc :: vs) = textOf us ++ ',' :: textOf vs := by
      rw [textOf_append, textOf_cons]
      rfl
    rw [text] at h
    refine h (textOf us).length (by simp) ?_ (by simp)
    rw [List.take_left]
    exact (closed_textOf us).after 0
  | word | gap | shelter => trivial

/-- The text starts with the word `DISTINCT` and a blank. -/
def StartsDistinct (t : Text) : Prop :=
  ∃ w g r, t = w ++ (g ++ r) ∧ Spells "DISTINCT".toList w ∧ IsGap g

structure SelectItem where
  text : Text
  head : Halts isBlank text
  last : ∀ c ∈ text.getLast?, isBlank c = false
  closed : Closed text
  lacks : Lacks listKeywords text
  lacksComma : LacksComma text
  form : IsNumeralItem text ∨ IsMarked text
  /-- The item is no call of an aggregate function. -/
  noCall : Select.aggregateItem.match? text = none

namespace SelectItem

/-- The item is no number, and its alias is written in the one way. -/
def IsKept (x : SelectItem) : Prop :=
  IsMarked x.text ∧ AliasSpelled x.text

theorem exists_other (x : SelectItem) :
    ∃ c ∈ x.text, ∀ l ∈ "DISTINCT".toList, isLetter l c = false := by
  have capital : ∀ l ∈ "DISTINCT".toList, IsCapital l := by decide
  have none_word : ∀ c ∈ "'()+-*/|".toList, isWord c = false := by decide
  rcases x.form with hnumeral | ⟨c, hc, hmark⟩
  · obtain ⟨c, hc, hdigit⟩ := hnumeral.head
    exact ⟨c, List.mem_of_mem_head? hc,
      fun l hl => WrittenLiteral.not_isLetter_of_isDigit (capital l hl) hdigit⟩
  · refine ⟨c, hc, fun l hl => Bool.eq_false_iff.mpr fun hletter => ?_⟩
    have := none_word c hmark
    rw [isWord_of_isLetter (capital l hl) hletter] at this
    cases this

theorem ne_nil (x : SelectItem) : x.text ≠ [] := by
  obtain ⟨c, hc, -⟩ := x.exists_other
  exact List.ne_nil_of_mem hc

theorem exists_tokens (x : SelectItem) :
    ∃ ts, textOf ts = x.text ∧ Clear listKeywords ts ∧ ∀ a ∈ ts, a.NoComma := by
  obtain ⟨ts, hts, hsolid⟩ := x.closed.exists_solid x.ne_nil x.head x.last
  refine ⟨ts, hts, ⟨hsolid, misses_of_lacks hsolid.chain ?_⟩, noComma_of_lacksComma ?_⟩
  · exact hts ▸ x.lacks
  · exact hts ▸ x.lacksComma

/-- An item is no mark, and it does not start like one without `DISTINCT` and a blank in it. -/
theorem refuses_mark (x : SelectItem) (h : ¬ StartsDistinct x.text) (b : Option Char) (r : Text) :
    ((word "DISTINCT").seq blank).Refuses b (x.text ++ r) := by
  refine refuses_seq fun w v hwv hw => ?_
  have spelled : Spells "DISTINCT".toList w := covers_word.mp hw
  have part (y : Text) : w ≠ x.text ++ y := by
    rintro rfl
    obtain ⟨c, hc, hother⟩ := x.exists_other
    obtain ⟨l, hl, hletter⟩ := exists_of_forall₂_right spelled c (List.mem_append_left y hc)
    rw [hother l hl] at hletter
    cases hletter
  rcases List.append_eq_append_iff.mp hwv with ⟨y, hy, -⟩ | ⟨y, hy, hv⟩
  · exact absurd hy (part y)
  · cases y with
    | nil => exact absurd (by simpa using hy.symm) (part [])
    | cons c y =>
      rw [hv]
      refine refuses_blank
        (halts_cons.mpr (Bool.eq_false_iff.mpr fun hblank => h ⟨w, [c], y, hy, spelled, ?_⟩))
      exact ⟨List.cons_ne_nil c [], List.forall_mem_singleton.mpr hblank⟩

theorem departs_of_digit {e n r : Text} (he : ∃ c ∈ e.head?, c.isDigit = true) (hne : n ≠ [])
    (hn : Halts isDigit n) : Departs (n ++ r) e := by
  obtain ⟨c, hc, hdigit⟩ := he
  obtain ⟨e, rfl⟩ := List.head?_eq_some_iff.mp hc
  obtain ⟨d, n, rfl⟩ := List.exists_cons_of_ne_nil hne
  rintro y z ⟨t, ht⟩
  obtain ⟨rfl, -⟩ := List.cons.inj ht
  have := halts_cons.mp hn
  rw [isDigit, WrittenLiteral.isDecimal_of_isDigit hdigit] at this
  cases this

theorem restates (x : SelectItem) (s : ListedSelect) (id : String) : ∃ c,
    Select.readColumn (s.scope id) x.text = .ok c ∧
    Restates x.IsKept (c.sql (s.tables id)).toList x.text := by
  rcases x.form with hnumeral | hmarked
  · obtain ⟨c, hc, hplain, hcall, hid⟩ : ∃ c, Select.readColumn (s.scope id) x.text = .ok c ∧
      c.expression = none ∧
        c.aggregate = none ∧ (c.tableId = id ∨ ∃ q, c.tableId = ((s.scope id).table q).getD "") :=
      Select.readColumn_of_match (Select.exists_match_of_isNumeralItem hnumeral)
    have table : c.tableId = id := by
      rcases hid with hid | ⟨q, hid⟩
      · exact hid
      · rw [hid, s.table_scope]
        rfl
    obtain ⟨r, hr⟩ := s.exists_sql_column table hplain hcall
    refine ⟨c, hc, ?_⟩
    rw [hr]
    refine ⟨?_, fun hkept => absurd hkept.1 hnumeral.not_isMarked, fun _ => ?_⟩
    · obtain ⟨d, n, hn⟩ := List.exists_cons_of_ne_nil s.table.isName.1
      exact ⟨d, by rw [hn]; rfl, not_isBlank_of_isWord (s.table.isName.2 d (by simp [hn]))⟩
    · exact departs_of_digit hnumeral.head s.table.isName.1 s.table.halts
  · have kept : x.IsKept ↔ AliasSpelled x.text := and_iff_right hmarked
    refine ⟨_, Select.readColumn_of_isMarked hmarked x.noCall, ?_⟩
    rw [kept]
    exact Select.restates_expressionColumn x.ne_nil x.head x.last _ _

end SelectItem

/-- A written list starts with another one just when each item is written as it is. -/
theorem intercalate_isPrefix_iff {A : Type} {kept : A → Prop} {write : A → Text} {xs : List A}
    {ws : List Text} (h : List.Forall₂ (fun x w => Restates (kept x) w (write x)) xs ws)
    (separator tail : Text) :
    separator.intercalate (xs.map write) <+: separator.intercalate ws ++ tail ↔
    ∀ x ∈ xs, kept x := by
  induction h with
  | nil => simp
  | @cons x w xs ws hx hxs ih =>
    have alone (hkept : ¬ kept x) (y z : Text) : ¬ write x ++ y <+: w ++ z := hx.departs hkept y z
    rw [List.forall_mem_cons]
    by_cases hkept : kept x
    · rw [hx.same hkept, and_iff_right hkept, ← ih]
      cases hxs with
      | nil => simp
      | cons =>
        simp only [List.map_cons, List.intercalate_cons_cons, List.append_assoc]
        rw [List.prefix_append_right_inj, List.prefix_append_right_inj]
    · refine iff_of_false (fun hwhole => ?_) fun hall => hkept hall.1
      cases hxs with
      | nil => exact alone hkept [] tail (by simpa using hwhole)
      | cons =>
        simp only [List.map_cons, List.intercalate_cons_cons, List.append_assoc] at hwhole
        exact alone hkept _ _ hwhole

theorem halts_intercalate {A : Type} {kept : A → Prop} {write : A → Text} {x : A} {xs : List A}
    {ws : List Text} (h : List.Forall₂ (fun x w => Restates (kept x) w (write x)) (x :: xs) ws)
    (separator tail : Text) :
    Halts isBlank (separator.intercalate ws ++ tail) := by
  cases h with
  | @cons x w xs ws hx hxs =>
    obtain ⟨c, hc, hblank⟩ := hx.starts
    obtain ⟨w, rfl⟩ := List.head?_eq_some_iff.mp hc
    cases ws <;> exact halts_cons.mpr hblank

theorem append_isPrefix_distinct_iff {w g z z' : Text} (hw : IsName w) (hg : IsGap g)
    (hz : ∃ c ∈ z.head?, isBlank c = false) (hz' : Halts isBlank z') :
    w ++ (g ++ z) <+: "DISTINCT ".toList ++ z' ↔ w ++ g = "DISTINCT ".toList ∧ z <+: z' := by
  constructor
  · rintro ⟨y, hy⟩
    have word : IsName "DISTINCT".toList := ⟨by decide, by decide⟩
    have space : IsGap [' '] := ⟨by decide, by decide⟩
    have halts : Halts isBlank (z ++ y) := by
      obtain ⟨c, hc, hblank⟩ := hz
      obtain ⟨z, rfl⟩ := List.head?_eq_some_iff.mp hc
      exact halts_cons.mpr hblank
    have whole : w ++ (g ++ (z ++ y)) = "DISTINCT".toList ++ ([' '] ++ z') := by
      rw [← List.append_assoc g, ← List.append_assoc w, hy]
      rfl
    obtain ⟨rfl, rest⟩ :=
      cut_front_unique whole hw.2 word.2 (hg.halts_isWord _) (space.halts_isWord _)
    obtain ⟨rfl, same⟩ := cut_front_unique rest hg.2 space.2 halts hz'
    exact ⟨rfl, y, same⟩
  · rintro ⟨hmark, hwhole⟩
    rw [← List.append_assoc, hmark]
    exact (List.prefix_append_right_inj _).mpr hwhole

/-- The items behind `SELECT`, with or without `DISTINCT` in front of them. -/
structure SelectItems where
  mark : Option (Spelling "DISTINCT" × Gap)
  first : SelectItem
  rest : List SelectItem
  unmarked : mark = none → ¬ StartsDistinct first.text
  notStar : rest = [] → first.text ≠ ['*']

namespace SelectItems

def items (l : SelectItems) : List SelectItem :=
  l.first :: l.rest

def listText (l : SelectItems) : Text :=
  ", ".toList.intercalate (l.items.map SelectItem.text)

def text (l : SelectItems) : Text :=
  textOf (Select.markTokens l.mark) ++ l.listText

def statement (l : SelectItems) (t : Ident) : Text :=
  "SELECT ".toList ++ (l.text ++ (" FROM ".toList ++ t.text))

/-- The mark is written in the one way, and each item is kept. -/
def IsKept (l : SelectItems) : Prop :=
  (∀ m ∈ l.mark, m.1.text ++ m.2.text = "DISTINCT ".toList) ∧ ∀ x ∈ l.items, x.IsKept

theorem exists_listText (l : SelectItems) :
    ∃ r, l.listText = l.first.text ++ r ∧ (r = [] → l.rest = []) := by
  rw [listText, items]
  cases l.rest with
  | nil => exact ⟨[], by simp, fun _ => rfl⟩
  | cons y ys =>
    refine ⟨", ".toList ++ ", ".toList.intercalate ((y :: ys).map SelectItem.text), ?_,
      fun hnone => ?_⟩
    · rw [List.map_cons, List.map_cons, List.intercalate_cons_cons, List.append_assoc]
    · exact absurd (List.append_eq_nil_iff.mp hnone).1 (by decide)

theorem listText_ne_star (l : SelectItems) : l.listText ≠ ['*'] := by
  obtain ⟨r, hr, hrest⟩ := l.exists_listText
  rw [hr]
  intro hstar
  rcases List.append_eq_singleton_iff.mp hstar with ⟨hfirst, -⟩ | ⟨hfirst, rfl⟩
  · exact l.first.ne_nil hfirst
  · exact l.notStar (hrest rfl) hfirst

theorem starts_listText (l : SelectItems) : ∃ c ∈ l.listText.head?, isBlank c = false := by
  obtain ⟨r, hr, -⟩ := l.exists_listText
  obtain ⟨c, x, hx⟩ := List.exists_cons_of_ne_nil l.first.ne_nil
  refine ⟨c, ?_, l.first.head c ?_⟩
  · rw [hr, hx]
    rfl
  · rw [hx]
    rfl

theorem exists_listed (l : SelectItems) (t : Ident) :
    ∃ s : ListedSelect, s.mark = l.mark ∧ s.table = t ∧
    textOf s.columns = l.listText ∧ l.listText.splitCommas = l.items.map SelectItem.text := by
  obtain ⟨tss, htss⟩ := exists_forall₂ fun x (_ : x ∈ l.items) => x.exists_tokens
  have texts : tss.map textOf = l.items.map SelectItem.text :=
    (map_eq_map_of_forall₂ htss fun _ _ h => h.1.symm).symm
  have each : ∀ ts ∈ tss, Clear listKeywords ts ∧ ∀ a ∈ ts, a.NoComma := by
    intro ts hts
    obtain ⟨x, -, -, h⟩ := exists_of_forall₂_right htss ts hts
    exact h
  have tssne : tss ≠ [] := by
    rintro rfl
    cases htss
  have items : (Series.ofList CommaGap.standard tss tssne).items = tss :=
    Series.items_ofList _ tssne
  have text : textOf ((Series.ofList CommaGap.standard tss tssne).tokens CommaGap.tokens id) =
      l.listText := by
    rw [textOf_ofList, CommaGap.textOf_standard, listText, ← texts]
    rfl
  have split : l.listText.splitCommas = l.items.map SelectItem.text := by
    -- No item has a comma at the top level: the commas that split the list are the written ones.
    have parts : ∀ ts ∈ (Series.ofList CommaGap.standard tss tssne).items,
        Part Text.comma (id ts) :=
      fun ts hts => part_comma (each ts (items ▸ hts)).1.solid (each ts (items ▸ hts)).2
    have := splitTopLevel_series shy_comma (fun s _ => s.separates) parts
    rw [text, items] at this
    exact this.trans texts
  have solid : Solid ((Series.ofList CommaGap.standard tss tssne).tokens CommaGap.tokens id) :=
    Series.solid (fun s _ _ _ => s.solid) fun ts hts => (each ts (items ▸ hts)).1.solid
  refine ⟨⟨l.mark, _, ⟨solid, ?_⟩, ?_, t⟩, rfl, rfl, text, split⟩
  · intro a ha
    rcases Series.mem_tokens ha with ⟨s, -, ha⟩ | ⟨ts, hts, ha⟩
    · exact (s.avoids _ a ha).misses
    · exact (each ts (items ▸ hts)).1.misses a ha
  · intro hnone b r _
    obtain ⟨z, hz, -⟩ := l.exists_listText
    rw [text, hz, List.append_assoc]
    exact l.first.refuses_mark (l.unmarked hnone) b _

/-- A list of numbers, strings and expressions is read, and what is written for it starts with the
list as it stood just when it is kept. -/
theorem regenerates_iff (l : SelectItems) (t : Ident) (start : Int) (d : Dialect) : ∃ s sql,
    Statement.parse (String.ofList (l.statement t)) start = .ok s ∧ s.kind = .select ∧
    s.query.sql d = .ok sql ∧
      ("SELECT ".toList ++ l.text <+: sql.toList ↔ l.IsKept) := by
  obtain ⟨s, hmark, htable, hlist, hsplit⟩ := l.exists_listed t
  have star : textOf s.columns ≠ ['*'] := hlist ▸ l.listText_ne_star
  obtain ⟨id, hparse⟩ := s.parse_text star start
  obtain ⟨columns, hcolumns⟩ := exists_forall₂ fun x (_ : x ∈ l.items) => x.restates s id
  have read : Select.readColumns (s.scope id) (some (textOf s.columns)) = .ok columns := by
    have each := mapM_of_forall₂ (f := fun x : SelectItem => Select.readColumn (s.scope id) x.text)
      (g := fun c => c) hcolumns.flip fun _ _ h => h.1
    rw [Select.readColumns, if_neg star, hlist, hsplit, List.mapM_map]
    exact each.trans (by rw [List.map_id'])
  have some_columns : columns ≠ [] := by
    rintro rfl
    cases hcolumns
  obtain ⟨sql, hsql, htext⟩ := s.sql_query id some_columns d
  have whole : s.text = l.statement t := by
    rw [s.text_spelled, hmark, htable, hlist]
    rfl
  rw [whole] at hparse
  refine ⟨_, sql, hparse columns read, rfl, hsql, ?_⟩
  rw [htext, List.prefix_append_right_inj, text, IsKept, hmark]
  have written : List.Forall₂ (fun (x : SelectItem) w => Restates x.IsKept w x.text) l.items
      (columns.map fun c => (c.sql (s.tables id)).toList) :=
    List.forall₂_map_right_iff.mpr (hcolumns.imp fun _ _ h => h.2)
  have kept := intercalate_isPrefix_iff written ", ".toList ("\nFROM ".toList ++ s.table.text)
  change l.listText <+: _ ↔ _ at kept
  cases hm : l.mark with
  | none => simpa [Select.markTokens] using kept
  | some m =>
    have front := append_isPrefix_distinct_iff m.1.isName m.2.isGap l.starts_listText
      (halts_intercalate written ", ".toList ("\nFROM ".toList ++ s.table.text))
    rw [kept] at front
    simpa [Select.markTokens] using front

/-- The list of one number. -/
def lone : SelectItems where
  mark := none
  first := {
    text := ['1']
    head := halts_cons.mpr (by decide)
    last := by decide
    closed := by decide
    lacks := by decide
    lacksComma := by decide
    form := .inl ⟨['1'], .inl ⟨by decide, by decide⟩, .inl rfl⟩
    noCall := by decide +kernel }
  rest := []
  unmarked := by
    rintro - ⟨w, g, r, htext, hw, hg⟩
    obtain ⟨c, w, rfl⟩ := List.exists_cons_of_ne_nil (hw.ne_nil (by decide))
    have none_behind : [] = w ++ (g ++ r) := (List.cons.inj htext).2
    exact hg.1 (List.append_eq_nil_iff.mp (List.append_eq_nil_iff.mp none_behind.symm).2).1
  notStar := by decide

theorem number_not_regenerated : ∃ s sql, Statement.parse "SELECT 1 FROM t" 1 = .ok s ∧
    s.kind = .select ∧ s.query.sql .postgresql = .ok sql ∧ ¬ "SELECT 1".toList <+: sql.toList := by
  obtain ⟨s, sql, hparse, hkind, hsql, hkept⟩ :=
    lone.regenerates_iff (by decide : IsPlain "t").ident 1 .postgresql
  have text : String.ofList (lone.statement (by decide : IsPlain "t").ident) =
      "SELECT 1 FROM t" := by
    decide +kernel
  rw [text] at hparse
  refine ⟨s, sql, hparse, hkind, hsql, mt hkept.mp ?_⟩
  rintro ⟨-, kept⟩
  obtain ⟨c, hc, hmark⟩ : IsMarked ['1'] := (kept _ List.mem_cons_self).1
  obtain rfl := List.mem_singleton.mp hc
  exact absurd hmark (by decide)

end SelectItems

end SqlCanvas
