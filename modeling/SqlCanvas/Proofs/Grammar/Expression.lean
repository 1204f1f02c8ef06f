import SqlCanvas.Proofs.Grammar.Column
import SqlCanvas.Proofs.Grammar.Literal
import SqlCanvas.Proofs.Number.Layout
import SqlCanvas.Proofs.Text.Infix
import SqlCanvas.Query.Sql

/-!
# Expressions in a select list

An item that is neither a column nor an aggregate call is kept as it is written, without the alias
behind its last `AS`. The alias is written anew with single spaces around the `AS`. A number looks
like a column.
-/

namespace SqlCanvas

open Text Nesting Pattern

/-- Two ways of cutting a text behind all the accepted characters at its start. -/
theorem cut_front_unique {accepts : Char → Bool} {u v r s : Text} (h : u ++ r = v ++ s)
    (hu : ∀ c ∈ u, accepts c = true) (hv : ∀ c ∈ v, accepts c = true) (hr : Halts accepts r)
    (hs : Halts accepts s) : u = v ∧ r = s := by
  obtain ⟨y, rfl, rfl⟩ := prefix_of_halts h hv hr
  cases y with
  | nil => exact ⟨List.append_nil v, rfl⟩
  | cons c y =>
    rw [List.cons_append, halts_cons, hu c (by simp)] at hs
    cases hs

theorem cut_back_unique {accepts : Char → Bool} {u v r s : Text} (h : u ++ r = v ++ s)
    (hr : ∀ c ∈ r, accepts c = true) (hs : ∀ c ∈ s, accepts c = true)
    (hu : ∀ c ∈ u.getLast?, accepts c = false) (hv : ∀ c ∈ v.getLast?, accepts c = false) :
    u = v ∧ r = s := by
  have mirrored : r.reverse ++ u.reverse = s.reverse ++ v.reverse := by
    rw [← List.reverse_append, h, List.reverse_append]
  have back {t : Text} (ht : ∀ c ∈ t.getLast?, accepts c = false) : Halts accepts t.reverse := by
    intro c hc
    exact ht c (by simpa using hc)
  obtain ⟨hrs, huv⟩ :=
    cut_front_unique mirrored (by simpa using hr) (by simpa using hs) (back hu) (back hv)
  exact ⟨List.reverse_injective huv, List.reverse_injective hrs⟩

/-- An alias behind `AS` at the end of an item: what stands in front of it, the two gaps with `AS`
between them, and the name. -/
structure AliasEnd (e x g w g' n : Text) : Prop where
  text : e = x ++ (g ++ (w ++ (g' ++ n)))
  last : ∀ c ∈ x.getLast?, isBlank c = false
  before : IsGap g
  word : Spells "AS".toList w
  behind : IsGap g'
  name : IsName n

theorem AliasEnd.last_word {e x g w g' n : Text} (h : AliasEnd e x g w g' n) (z : Text) :
    ∀ c ∈ (z ++ (g ++ (w ++ (g' ++ n)))).getLast?, isBlank c = false := by
  have flat : z ++ (g ++ (w ++ (g' ++ n))) = (z ++ g ++ w ++ g') ++ n := by simp
  intro c hc
  rw [flat, List.getLast?_append_of_ne_nil _ h.name.1] at hc
  exact not_isBlank_of_isWord (h.name.2 c (List.mem_of_mem_getLast? hc))

theorem isName_of_spells_as {w : Text} (h : Spells "AS".toList w) : IsName w :=
  h.isName WrittenAlias.isKeyword_as

theorem IsName.last {w : Text} (h : IsName w) : ∀ c ∈ w.getLast?, isBlank c = false :=
  fun c hc => not_isBlank_of_isWord (h.2 c (List.mem_of_mem_getLast? hc))

theorem Text.IsGap.last {g : Text} (h : IsGap g) : ∀ c ∈ g.getLast?, isWord c = false :=
  fun c hc => not_isWord_of_isBlank (h.2 c (List.mem_of_mem_getLast? hc))

/-- An item has one such ending at most. -/
theorem cut_alias_unique {x g w g' n y h v h' m : Text}
    (heq : x ++ (g ++ (w ++ (g' ++ n))) = y ++ (h ++ (v ++ (h' ++ m)))) (hg : IsGap g)
    (hw : IsName w) (hg' : IsGap g') (hn : IsName n) (hh : IsGap h) (hv : IsName v) (hh' : IsGap h')
    (hm : IsName m) :
    x ++ g = y ++ h ∧ w = v ∧ g' = h' ∧ n = m := by
  have ends {a b : Text} {accepts : Char → Bool} (hb : b ≠ []) (hlast : ∀ c ∈ b.getLast?,
    accepts c = false) :
      ∀ c ∈ (a ++ b).getLast?, accepts c = false := by
    rwa [List.getLast?_append_of_ne_nil _ hb]
  have flat : (((x ++ g) ++ w) ++ g') ++ n = (((y ++ h) ++ v) ++ h') ++ m := by simpa using heq
  obtain ⟨flat₁, names⟩ :=
    cut_back_unique flat hn.2 hm.2 (ends hg'.1 hg'.last) (ends hh'.1 hh'.last)
  obtain ⟨flat₂, gaps⟩ := cut_back_unique flat₁ hg'.2 hh'.2 (ends hw.1 hw.last) (ends hv.1 hv.last)
  obtain ⟨front, words⟩ := cut_back_unique flat₂ hw.2 hv.2 (ends hg.1 hg.last) (ends hh.1 hh.last)
  exact ⟨front, words, gaps, names⟩

theorem AliasEnd.unique {e x g w g' n y h v h' m : Text} (hx : AliasEnd e x g w g' n)
    (hy : AliasEnd e y h v h' m) : x = y ∧ g = h ∧ w = v ∧ g' = h' ∧ n = m := by
  obtain ⟨front, rfl, rfl, rfl⟩ :=
    cut_alias_unique (hx.text.symm.trans hy.text) hx.before (isName_of_spells_as hx.word)
      hx.behind hx.name hy.before (isName_of_spells_as hy.word) hy.behind hy.name
  obtain ⟨rfl, rfl⟩ := cut_back_unique front hx.before.2 hy.before.2 hx.last hy.last
  exact ⟨rfl, rfl, rfl, rfl, rfl⟩

namespace Select

def aliasEnding : Pattern :=
  .all [blank, word "AS", blank, .capture 2 name, .textEnd]

theorem covers_aliasEnding {u : Text} (h : aliasEnding.Covers u) :
    ∃ g w g' n, u = g ++ (w ++ (g' ++ n)) ∧ IsGap g ∧ Spells "AS".toList w ∧ IsGap g' ∧
    IsName n := by
  obtain ⟨g, _, hg, ⟨w, _, hw, ⟨g', _, hg', ⟨n, _, hn, ⟨e, _, he, rfl, rfl⟩, rfl⟩, rfl⟩, rfl⟩,
      rfl⟩ :=
    h
  obtain rfl : e = [] := he
  exact ⟨g, w, g', n, by simp, covers_many1.mp hg, covers_word.mp hw, covers_many1.mp hg',
    covers_many1.mp hn⟩

theorem takes_aliasEnding {b : Option Char} {g w g' n : Text} (hg : IsGap g)
    (hw : Spells "AS".toList w) (hg' : IsGap g') (hn : IsName n) :
    aliasEnding.Takes b (g ++ (w ++ (g' ++ n))) [] [(2, n)] := by
  have named {b : Option Char} : (all [.capture 2 name, .textEnd]).Takes b (n ++ []) [] [(2, n)] :=
    Takes.all_cons ((takes_name hn (halts_nil _)).capture 2) takes_textEnd.all_last
  have behind {b : Option Char} : (all [blank, .capture 2 name, .textEnd]).Takes b (g' ++ (n ++ []))
      [] [(2, n)] :=
    .all_pass (takes_blank hg' (by simpa using hn.halts_isBlank [])) named
  have := Takes.all_pass (b := b)
    (takes_blank hg (by simpa using (isName_of_spells_as hw).halts_isBlank _))
    (.all_pass (takes_word hw) behind)
  exact this.congr (by simp) rfl

theorem exists_of_ends_aliasEnding {b : Option Char} {t : Text} {i : Nat}
    {captures : List (Nat × Capture)} (hlast : ∀ c ∈ t.getLast?, isBlank c = false)
    (h : aliasEnding.ends ⟨b, t, i, captures⟩ ≠ []) :
    ∃ g w g' n, t = g ++ (w ++ (g' ++ n)) ∧ IsGap g ∧ Spells "AS".toList w ∧ IsGap g' ∧
    IsName n := by
  obtain ⟨d, hd⟩ := List.exists_mem_of_ne_nil _ h
  obtain ⟨u, new, stops⟩ := exists_stops hd
  have rest : t = u ++ d.rest := stops.passes.rest
  have closes : aliasEnding.Closes := closes_of_endsText (by decide)
  have nothing : d.rest = [] := by
    rcases (by simpa [Cursor.atEnd] using closes _ d hd : d.rest = [] ∨ d.rest = ['\n']) with hnil
      | hline
    · exact hnil
    · have := hlast '\n' (by rw [rest, hline]; simp)
      exact absurd this (by decide)
  rw [nothing, List.append_nil] at rest
  exact rest ▸ covers_aliasEnding stops.covers

theorem aliasedItem_of_aliasEnd {e x g w g' n : Text} (h : AliasEnd e x g w g' n) :
    ∃ m, aliasedItem.match? e = some m ∧ m.captured 1 = x ∧ m.capture? 2 = some n := by
  have taken (b : Option Char) := takes_aliasEnding (b := b) h.before h.word h.behind h.name
  have refused (y z : Text) (hyz : x = y ++ z) (hz : z ≠ []) :
      aliasEnding.Refuses (lastChar none y) (z ++ (g ++ (w ++ (g' ++ n)) ++ [])) := by
    intro i captures
    by_contra hne
    obtain ⟨k, v, k', n', rest, hk, hv, hk', hn'⟩ :=
      exists_of_ends_aliasEnding (by simpa using h.last_word z) hne
    -- The same ending again, with blanks in front of it that belong to the rest of the item.
    obtain ⟨front, -⟩ :=
      cut_alias_unique (y := []) (by simpa using rest) h.before (isName_of_spells_as h.word)
        h.behind
      h.name hk (isName_of_spells_as hv) hk' hn'
    rw [List.nil_append] at front
    have blank : isBlank (z.getLast hz) = true := by
      refine hk.2 _ ?_
      rw [← front]
      exact List.mem_append_left g (List.getLast_mem hz)
    have :=
      h.last (z.getLast hz)
        (by rw [hyz, List.getLast?_append_of_ne_nil _ hz, List.getLast?_eq_some_getLast hz]; rfl)
    rw [blank] at this
    cases this
  have every : ∀ c ∈ x, anything c = true := fun _ _ => rfl
  have whole := takes_few_seq (b := none) every 1 refused (taken _)
  obtain ⟨m, found, -, hcapture⟩ := match?_start_of_takes (w := aliasedItem) (t := e) rfl
    (by rw [h.text, List.append_nil]) whole
  refine ⟨m, found, ?_, ?_⟩
  · rw [Match.captured, hcapture]
    rfl
  · rw [hcapture]
    rfl

theorem exists_aliasEnd {e : Text} {m : Match} (hlast : ∀ c ∈ e.getLast?, isBlank c = false)
    (h : aliasedItem.match? e = some m) : ∃ x g w g' n, AliasEnd e x g w g' n := by
  obtain ⟨u, r, rfl, hr, hu⟩ := (closes_of_endsText (p := aliasedItem) (by decide)).exists_covers h
  have nothing : r = [] := by
    rcases hr with rfl | rfl
    · rfl
    · exact absurd (hlast '\n' (by simp)) (by decide)
  subst nothing
  obtain ⟨_, _, hstart, ⟨x, ending, -, hending, rfl⟩, rfl⟩ := hu
  obtain ⟨g, w, g', n, rfl, hg, hw, hg', hn⟩ := covers_aliasEnding hending
  obtain ⟨k, hx, hk⟩ := exists_dropEndWhile_append isBlank x
  obtain rfl : _ = ([] : Text) := hstart
  refine ⟨x.dropEndWhile isBlank, k ++ g, w, g', n, ?_, ?_, ⟨by simp [hg.1], ?_⟩, hw, hg', hn⟩
  · rw [List.append_nil, List.nil_append]
    conv_lhs => rw [hx]
    simp
  · exact last_dropEndWhile isBlank x
  · exact List.forall_mem_append.mpr ⟨hk, hg.2⟩

end Select

/-- If an alias stands behind `AS` at the end of the item, the `AS` is in capitals and has one space
on either side. -/
def AliasSpelled (e : Text) : Prop :=
  ∀ x g w g' n, AliasEnd e x g w g' n → g ++ (w ++ g') = " AS ".toList

/-- What is written of an item is not what it starts with. -/
def Departs (written e : Text) : Prop :=
  ∀ x y, ¬ e ++ x <+: written ++ y

/-- An item is written as it is just when it is kept, and nothing blank is put in front of it. -/
structure Restates (kept : Prop) (written e : Text) : Prop where
  starts : ∃ c ∈ written.head?, isBlank c = false
  same : kept → written = e
  departs : ¬ kept → Departs written e

theorem departs_of_ne {x g w g' n : Text} (hg : IsGap g) (hw : Spells "AS".toList w)
    (hg' : IsGap g') (hn : IsName n) (h : g ++ (w ++ g') ≠ " AS ".toList) :
    Departs (x ++ (" AS ".toList ++ n)) (x ++ (g ++ (w ++ (g' ++ n)))) := by
  rintro y z ⟨t, ht⟩
  have whole : x ++ (g ++ (w ++ (g' ++ (n ++ (y ++ t))))) =
      x ++ ([' '] ++ ("AS".toList ++ ([' '] ++ (n ++ z)))) := by
    simpa using ht
  have rest := List.append_cancel_left whole
  have name := isName_of_spells_as hw
  have gap : IsGap [' '] := ⟨by decide, by decide⟩
  have as : IsName "AS".toList := ⟨by decide, by decide⟩
  obtain ⟨front, rest₁⟩ :=
    cut_front_unique rest hg.2 gap.2 (name.halts_isBlank _) (as.halts_isBlank _)
  obtain ⟨word, rest₂⟩ :=
    cut_front_unique rest₁ name.2 as.2 (hg'.halts_isWord _) (gap.halts_isWord _)
  obtain ⟨back, -⟩ := cut_front_unique rest₂ hg'.2 gap.2 (hn.halts_isBlank _) (hn.halts_isBlank _)
  exact h (by rw [front, word, back]; rfl)

theorem nonempty?_ofList {t : Text} (h : t ≠ []) :
    nonempty? (some (String.ofList t)) = some (String.ofList t) := by
  rw [nonempty?, if_neg]
  intro hempty
  exact h (String.ofList_injective hempty)

namespace Select

theorem sql_expression {c : SelectedColumn} {e : Text} (hne : e ≠ [])
    (he : c.expression = some (String.ofList e)) (tables : List TableRef) :
    c.sql tables = withAlias (String.ofList e) c.aliasName := by
  rw [SelectedColumn.sql, SelectedColumn.bodySql, he, nonempty?_ofList hne]

section Restated

variable {e : Text} (hhead : Halts isBlank e) (scope : Scope) (tables : List TableRef)

include hhead

theorem head_of_isPrefix {x : Text} (hx : x ≠ []) (hfront : x <+: e) :
    ∃ c ∈ x.head?, isBlank c = false := by
  obtain ⟨c, x, rfl⟩ := List.exists_cons_of_ne_nil hx
  exact ⟨c, rfl, halts_cons.mp (halts_of_isPrefix hhead hfront)⟩

theorem restates_without_alias (hne : e ≠ []) (hm : aliasedItem.match? e = none) :
    Restates (AliasSpelled e) ((expressionColumn scope e).sql tables).toList e := by
  have kept : expressionColumn scope e =
      ⟨scope.anchor.getD "", String.ofList e, none, none, some (String.ofList e)⟩ := by
    rw [expressionColumn, hm]
    rfl
  have written : ((expressionColumn scope e).sql tables).toList = e := by
    rw [sql_expression hne (by rw [kept]) tables, kept]
    simp [withAlias, nonempty?]
  rw [written]
  refine ⟨head_of_isPrefix hhead hne (List.prefix_refl e), fun _ => rfl,
    fun hspelled => absurd (fun x g w g' n h => ?_) hspelled⟩
  obtain ⟨m, hfound, -⟩ := aliasedItem_of_aliasEnd h
  rw [hm] at hfound
  cases hfound

theorem restates_aliased {x g w g' n : Text} (h : AliasEnd e x g w g' n) :
    Restates (AliasSpelled e) ((expressionColumn scope e).sql tables).toList e := by
  obtain ⟨m, hm, h₁, h₂⟩ := aliasedItem_of_aliasEnd h
  have front : x ≠ [] := by
    rintro rfl
    obtain ⟨c, g, rfl⟩ := List.exists_cons_of_ne_nil h.before.1
    have := hhead c (by rw [h.text]; rfl)
    rw [h.before.2 c List.mem_cons_self] at this
    cases this
  have kept : expressionColumn scope e =
      ⟨scope.anchor.getD "", String.ofList n, some (String.ofList n), none,
        some (String.ofList x)⟩ := by
    rw [expressionColumn, hm]
    simp only [h₁, h₂]
    rfl
  have written : ((expressionColumn scope e).sql tables).toList = x ++ (" AS ".toList ++ n) := by
    rw [sql_expression front (by rw [kept]) tables, kept]
    simp [withAlias, nonempty?_ofList h.name.1]
  rw [written]
  refine ⟨?_, fun hspelled => ?_, fun hspelled => ?_⟩
  · rw [List.head?_append_of_ne_nil _ front]
    exact head_of_isPrefix hhead front ⟨_, h.text.symm⟩
  · rw [← hspelled x g w g' n h, h.text]
    simp
  · rw [h.text]
    refine departs_of_ne h.before h.word h.behind h.name fun hsingle =>
      hspelled fun y k v k' n' h' => ?_
    obtain ⟨rfl, rfl, rfl, rfl, rfl⟩ := h.unique h'
    exact hsingle

end Restated

/-- An expression is written as it is, but for the blanks and letters of an `AS`. -/
theorem restates_expressionColumn {e : Text} (hne : e ≠ []) (hhead : Halts isBlank e)
    (hlast : ∀ c ∈ e.getLast?, isBlank c = false) (scope : Scope) (tables : List TableRef) :
    Restates (AliasSpelled e) ((expressionColumn scope e).sql tables).toList e := by
  cases hm : aliasedItem.match? e with
  | none => exact restates_without_alias hhead scope tables hne hm
  | some m =>
    obtain ⟨x, g, w, g', n, h⟩ := exists_aliasEnd hlast hm
    exact restates_aliased hhead scope tables h

end Select

def IsNumeral (t : Text) : Prop :=
  IsDigits t ∨ ∃ whole fraction, IsDigits whole ∧ IsDigits fraction ∧ t = whole ++ '.' :: fraction

/-- A number, with or without an alias. -/
def IsNumeralItem (e : Text) : Prop :=
  ∃ t, IsNumeral t ∧ (e = t ∨ ∃ n, IsName n ∧ e = t ++ (" AS ".toList ++ n))

theorem IsNumeral.head {t : Text} (h : IsNumeral t) (r : Text) :
    ∃ c ∈ (t ++ r).head?, c.isDigit = true := by
  have first {w : Text} (hw : IsDigits w) (s : Text) : ∃ c ∈ (w ++ s).head?, c.isDigit = true := by
    obtain ⟨c, w, rfl⟩ := List.exists_cons_of_ne_nil hw.1
    exact ⟨c, rfl, hw.2 c List.mem_cons_self⟩
  rcases h with ht | ⟨whole, fraction, hwhole, -, rfl⟩
  · exact first ht r
  · rw [List.append_assoc]
    exact first hwhole _

theorem IsNumeralItem.head {e : Text} (h : IsNumeralItem e) : ∃ c ∈ e.head?, c.isDigit = true := by
  obtain ⟨t, ht, rfl | ⟨n, -, rfl⟩⟩ := h
  · simpa using ht.head []
  · exact ht.head _

/-- The item has one of the characters in it that no column has. -/
def IsMarked (e : Text) : Prop :=
  ∃ c ∈ e, c ∈ "'()+-*/|".toList

/-- In a number there are words, a point and spaces only. -/
theorem IsNumeralItem.not_isMarked {e : Text} (h : IsNumeralItem e) : ¬ IsMarked e := by
  have digit {w : Text} (hw : IsDigits w) : ∀ c ∈ w, isWord c = true ∨ c = '.' ∨ c = ' ' :=
    fun c hc => .inl (WrittenLiteral.isWord_of_isDigit (hw.2 c hc))
  have numeral {t : Text} (ht : IsNumeral t) : ∀ c ∈ t, isWord c = true ∨ c = '.' ∨ c = ' ' := by
    rcases ht with ht | ⟨whole, fraction, hwhole, hfraction, rfl⟩
    · exact digit ht
    · exact List.forall_mem_append.mpr ⟨digit hwhole,
        List.forall_mem_cons.mpr ⟨.inr (.inl rfl), digit hfraction⟩⟩
  have all : ∀ c ∈ e, isWord c = true ∨ c = '.' ∨ c = ' ' := by
    obtain ⟨t, ht, rfl | ⟨n, hn, rfl⟩⟩ := h
    · exact numeral ht
    · have as : ∀ c ∈ " AS ".toList, isWord c = true ∨ c = '.' ∨ c = ' ' := by decide
      exact List.forall_mem_append.mpr ⟨numeral ht,
        List.forall_mem_append.mpr ⟨as, fun c hc => .inl (hn.2 c hc)⟩⟩
  rintro ⟨c, hc, hmark⟩
  have others : ∀ c ∈ "'()+-*/|".toList, ¬ (isWord c = true ∨ c = '.' ∨ c = ' ') := by decide
  exact others c hmark (all c hc)

namespace Select

variable {e : Text} {scope : Scope}

theorem readColumn_of_isMarked (hmarked : IsMarked e) (haggregate : aggregateItem.match? e = none) :
    readColumn scope e = .ok (expressionColumn scope e) := by
  obtain ⟨c, hc, hmark⟩ := hmarked
  have none_in : ∀ c ∈ "'()+-*/|".toList, c ≠ '\n' ∧ qualifiedItem.most c = some 0 ∧
      bareItem.most c = some 0 := by
    decide
  obtain ⟨hline, hqualified, hbare⟩ := none_in c hmark
  have count := List.count_pos_iff.mpr hc
  rw [readColumn, match?_eq_none_of_count (by decide) hline hqualified count,
    match?_eq_none_of_count (by decide) hline hbare count, haggregate]

theorem readColumn_of_match (h : (∃ m, qualifiedItem.match? e = some m) ∨
      ∃ m, bareItem.match? e = some m) :
    ∃ c, readColumn scope e = .ok c ∧ c.expression = none ∧ c.aggregate = none ∧
      (c.tableId = scope.anchor.getD "" ∨ ∃ q, c.tableId = (scope.table q).getD "") := by
  rw [readColumn]
  cases hqualified : qualifiedItem.match? e with
  | some m => exact ⟨_, rfl, rfl, rfl, .inr ⟨_, rfl⟩⟩
  | none =>
    obtain ⟨m, hm⟩ := h.resolve_left (by simp [hqualified])
    rw [hm]
    exact ⟨_, rfl, rfl, rfl, .inl rfl⟩

theorem takes_columnAlias_as {n : Text} (hn : IsName n) (slot : Nat) (b : Option Char) :
    (columnAlias slot).Takes b (" AS ".toList ++ n) [] [(slot, n)] := by
  have as : Spells "AS".toList "AS".toList := spells_self
  have gap : IsGap [' '] := ⟨by decide, by decide⟩
  have word (b : Option Char) : (Pattern.maybe (.seq (Pattern.word "AS") blank)).Takes b
      ("AS".toList ++ [' ']) n [] :=
    ((takes_word as).seq (takes_blank gap (by simpa using hn.halts_isBlank []))).maybe
  have named (b : Option Char) : (aliasName slot).Takes b (("AS".toList ++ [' ']) ++ n) []
      [(slot, n)] :=
    Takes.seq (by simpa using word b) ((takes_name hn (halts_nil _)).capture slot)
  exact ((takes_blank gap (by exact halts_cons.mpr (by decide))).seq (named _)).maybe

theorem exists_alias {t e : Text} (h : e = t ∨ ∃ n, IsName n ∧ e = t ++ (" AS ".toList ++ n)) :
    ∃ a, e = t ++ a ∧ Halts isWord a ∧ ∀ slot, ∃ m, ∀ b, (columnAlias slot).Takes b a [] m := by
  rcases h with rfl | ⟨n, hn, rfl⟩
  · refine ⟨[], (List.append_nil e).symm, halts_nil _, fun slot => ⟨[], fun b => ?_⟩⟩
    exact takes_maybe_nothing ((refuses_blank (halts_nil _)).seq_left _)
  · exact ⟨_, rfl, halts_cons.mpr (by decide), fun slot => ⟨_, takes_columnAlias_as hn slot⟩⟩

theorem exists_match_of_isNumeralItem (h : IsNumeralItem e) :
    (∃ m, qualifiedItem.match? e = some m) ∨ ∃ m, bareItem.match? e = some m := by
  obtain ⟨t, ht, halias⟩ := h
  obtain ⟨a, rfl, ha, htakes⟩ := exists_alias halias
  have name {w : Text} (hw : IsDigits w) : IsName w :=
    ⟨hw.1, fun c hc => WrittenLiteral.isWord_of_isDigit (hw.2 c hc)⟩
  have ending {w : Text} (hw : IsDigits w) (slot slot' : Nat) (b : Option Char) :
      ∃ m, (all [.capture slot Pattern.name, columnAlias slot', .textEnd]).Takes b (w ++ a)
        [] m := by
    obtain ⟨m, hm⟩ := htakes slot'
    have last (b : Option Char) : (all [columnAlias slot', .textEnd]).Takes b (a ++ []) []
        ([] ++ m) :=
      Takes.all_cons (by simpa using hm b) takes_textEnd.all_last
    have := Takes.all_cons (v := a ++ []) (r := [])
      ((takes_name (b := b) (name hw) (by simpa using ha)).capture slot) (last _)
    exact ⟨_, this.congr (by simp) rfl⟩
  rcases ht with ht | ⟨whole, fraction, hwhole, hfraction, rfl⟩
  · obtain ⟨m, hm⟩ := ending ht 1 2 none
    obtain ⟨found, hfound, -⟩ :=
      match?_start_of_takes (w := bareItem) rfl (List.append_nil _).symm hm
    exact .inr ⟨found, hfound⟩
  · obtain ⟨m, hm⟩ := ending hfraction 2 3 (lastChar (lastChar none whole) ['.'])
    have dotted :=
      Takes.all_cons ((takes_name (b := none) (name hwhole) (halts_cons.mpr (by decide))).capture 1)
        (Takes.all_cons (takes_exactly '.') hm)
    obtain ⟨found, hfound, -⟩ := match?_start_of_takes (w := qualifiedItem)
      (t := whole ++ '.' :: fraction ++ a) rfl (by simp) dotted
    exact .inl ⟨found, hfound⟩

end Select

end SqlCanvas
