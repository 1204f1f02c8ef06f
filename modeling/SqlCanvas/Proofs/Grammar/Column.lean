import SqlCanvas.Proofs.Grammar.Table
import SqlCanvas.Proofs.Pattern.Count
import SqlCanvas.Proofs.Statement.Steps

/-!
# Written columns

The items of a select list: columns with or without a qualifier, and calls of aggregate functions,
each with or without an alias. A call has its argument inside parentheses, as one token of the item.
-/

namespace SqlCanvas

open Text Nesting Pattern

/-- A column with the name in front of it, if there is one. -/
structure Ref where
  qualifier : Option Ident
  column : Ident

namespace Ref

def dotted (x : Ref) : Dotted :=
  match x.qualifier with
  | none => ⟨x.column, []⟩
  | some q => ⟨q, [x.column]⟩

def tokens (x : Ref) : List Token :=
  x.dotted.tokens

def text (x : Ref) : Text :=
  textOf x.tokens

theorem text_bare (c : Ident) : (⟨none, c⟩ : Ref).text = c.text := by
  simp [text, tokens, dotted, Dotted.tokens]

theorem text_qualified (q c : Ident) : (⟨some q, c⟩ : Ref).text = q.text ++ '.' :: c.text := by
  simp [text, tokens, dotted, Dotted.tokens]

end Ref

def aliasTokens (a : Option WrittenAlias) : List Token :=
  (a.map WrittenAlias.tokens).getD []

def aliasText (a : Option WrittenAlias) : Option Text :=
  a.map fun a => a.name.text

theorem takes_columnAlias (a : Option WrittenAlias) (slot : Nat) (b : Option Char) :
    (columnAlias slot).Takes b (textOf (aliasTokens a)) []
    ((aliasText a).map fun t => (slot, t)).toList := by
  cases a with
  | none => exact takes_maybe_nothing ((refuses_blank (halts_nil _)).seq_left _)
  | some a =>
    have name :=
      (takes_name (b := lastChar (lastChar b a.gap.text) (textOf a.asTokens)) a.name.isName
        (halts_nil isWord)).capture slot
    have := (takes_blank (b := b) a.gap.isGap (by simpa using a.asTokens_halts [])).seq
      (Takes.seq (by simpa using a.takes_as _ (halts_nil _)) name)
    exact this.maybe.congr (by simp [aliasTokens, WrittenAlias.tokens]) rfl

theorem halts_aliasTokens (a : Option WrittenAlias) : Halts isWord (textOf (aliasTokens a)) := by
  cases a with
  | none => exact halts_nil _
  | some a => simpa [aliasTokens, WrittenAlias.tokens] using a.gap.isGap.halts_isWord _

theorem head_aliasTokens (a : Option WrittenAlias) {c : Char} (hc : isBlank c = false) :
    (textOf (aliasTokens a)).head? ≠ some c := by
  cases a with
  | none => simp [aliasTokens]
  | some a =>
    obtain ⟨d, g, hg⟩ := List.exists_cons_of_ne_nil a.gap.isGap.1
    have hd := a.gap.isGap.2 d (by simp [hg])
    have : d ≠ c := by
      rintro rfl
      rw [hd] at hc
      cases hc
    simpa [aliasTokens, WrittenAlias.tokens, hg] using this

theorem Pattern.refuses_qualifier {w r : Text} (hw : IsName w) (hr : Halts isWord r)
    (hdot : r.head? ≠ some '.') {b : Option Char} (slot : Nat) {q : Pattern}
    (hq : ∀ b t, t.head? ≠ some '.' → q.Refuses b t) :
    ((capture slot name).seq q).Refuses b (w ++ r) := by
  refine refuses_seq fun x v hxv hx => hq _ v ?_
  obtain ⟨y, hy, rfl⟩ := prefix_of_halts hxv (covers_many1.mp hx).2 hr
  cases y with
  | nil => exact hdot
  | cons c y =>
    have hc := hw.2 c (by rw [hy]; simp)
    rintro ⟨⟩
    revert hc
    decide

namespace Ref

variable (x : Ref) (a : Option WrittenAlias)

def itemText : Text :=
  textOf (x.tokens ++ aliasTokens a)

def tableIn (x : Ref) (scope : Scope) : Option String :=
  match x.qualifier with
  | none => scope.anchor
  | some q => scope.table q.text

theorem takes_bareItem (c : Ident) (a : Option WrittenAlias) :
    (all [.capture 1 name, columnAlias 2, .textEnd]).Takes none
      (c.text ++ textOf (aliasTokens a)) []
      (((aliasText a).map fun t => (2, t)).toList ++ [(1, c.text)]) := by
  have := Takes.all_cons (v := textOf (aliasTokens a)) (r := [])
    ((takes_name (b := none) c.isName (by simpa using halts_aliasTokens a)).capture 1)
    ((Takes.all_cons (v := []) (r := []) (takes_columnAlias a 2 _)
      (Takes.all_cons takes_textEnd takes_all_nil)).congr (by simp) rfl)
  exact this.congr rfl (by simp)

theorem takes_qualifiedItem (q c : Ident) (a : Option WrittenAlias) :
    (all [.capture 1 name, .exactly '.', .capture 2 name, columnAlias 3, .textEnd]).Takes none
      (q.text ++ '.' :: (c.text ++ textOf (aliasTokens a))) []
      (((aliasText a).map fun t => (3, t)).toList ++ [(2, c.text), (1, q.text)]) := by
  have dot : Halts isWord ('.' :: (c.text ++ textOf (aliasTokens a)) ++ []) := by
    rw [List.cons_append, halts_cons]
    decide
  have rest :=
    Takes.all_cons (b := lastChar (lastChar none q.text) ['.']) (v := textOf (aliasTokens a))
      (r := []) ((takes_name c.isName (by simpa using halts_aliasTokens a)).capture 2)
      ((Takes.all_cons (v := []) (r := []) (takes_columnAlias a 3 _)
        (Takes.all_cons takes_textEnd takes_all_nil)).congr (by simp) rfl)
  have := Takes.all_cons ((takes_name (b := none) q.isName dot).capture 1)
    (Takes.all_cons (takes_exactly '.') rest)
  exact this.congr rfl (by simp)

theorem readColumn_eq (scope : Scope) :
    Select.readColumn scope (x.itemText a) = .ok {
      tableId := (x.tableIn scope).getD ""
      columnName := String.ofList x.column.text
      aliasName := Select.optionalString (aliasText a)
      aggregate := none
      expression := none } := by
  obtain ⟨q, c⟩ := x
  cases q with
  | none =>
    have item : itemText ⟨none, c⟩ a = c.text ++ textOf (aliasTokens a) := by
      simp [itemText, tokens, dotted, Dotted.tokens]
    have refused : Select.qualifiedItem.match? (c.text ++ textOf (aliasTokens a)) = none :=
      match?_start_of_refuses rfl
        (refuses_qualifier c.isName (halts_aliasTokens a) (head_aliasTokens a (by decide)) 1
        fun _ _ h => (refuses_exactly h).seq_left _)
    obtain ⟨m, found, -, hcapture⟩ :=
      match?_start_of_takes (w := Select.bareItem) rfl (List.append_nil _).symm (takes_bareItem c a)
    have name : m.captured 1 = c.text := by
      rw [Match.captured, hcapture]
      cases a <;> rfl
    have alias' : m.capture? 2 = aliasText a := by
      rw [hcapture]
      cases a <;> rfl
    rw [item, Select.readColumn, refused, found]
    simp only [name, alias']
    rfl
  | some q =>
    have item : itemText ⟨some q, c⟩ a = q.text ++ '.' :: (c.text ++ textOf (aliasTokens a)) := by
      simp [itemText, tokens, dotted, Dotted.tokens]
    obtain ⟨m, found, -, hcapture⟩ :=
      match?_start_of_takes (w := Select.qualifiedItem) rfl (List.append_nil _).symm
        (takes_qualifiedItem q c a)
    have qualifier : m.captured 1 = q.text := by
      rw [Match.captured, hcapture]
      cases a <;> rfl
    have name : m.captured 2 = c.text := by
      rw [Match.captured, hcapture]
      cases a <;> rfl
    have alias' : m.capture? 3 = aliasText a := by
      rw [hcapture]
      cases a <;> rfl
    rw [item, Select.readColumn, found]
    simp only [qualifier, name, alias']
    rfl

end Ref

theorem isKeyword_select : IsKeyword "SELECT".toList := by
  decide

theorem isKeyword_from : IsKeyword "FROM".toList := by
  decide

theorem isKeyword_distinct : IsKeyword "DISTINCT".toList := by
  decide

/-- The functions whose calls are held as aggregates. -/
def aggregateNames : List String :=
  ["COUNT", "SUM", "AVG", "MIN", "MAX"]

structure WrittenCall where
  function : String
  mem : function ∈ aggregateNames
  callee : Spelling function
  before : Option Gap
  left : Option Gap
  distinct : Option (Spelling "DISTINCT" × Gap)
  argument : Ref
  right : Option Gap
  /-- Only `COUNT` has a distinct form. -/
  modelled : distinct.isSome → function = "COUNT"

namespace WrittenCall

def distinctTokens (c : WrittenCall) : List Token :=
  match c.distinct with
  | some (d, g) => [d.token, g.token]
  | none => []

def inside (c : WrittenCall) : Text :=
  textOf (blankTokens c.left ++ (c.distinctTokens ++ (c.argument.tokens ++ blankTokens c.right)))

def tokens (c : WrittenCall) : List Token :=
  c.callee.token ::
    (blankTokens c.before ++ [.shelter _ (.parens (closed_textOf _ : Closed c.inside))])

theorem exists_aggregate :
    ∀ k ∈ aggregateNames, (Vocabulary.read? (α := Aggregate) k).isSome := by
  decide

def aggregate (c : WrittenCall) : Aggregate :=
  if c.distinct.isSome then .countDistinct
  else (Vocabulary.read? c.function).get (exists_aggregate c.function c.mem)

def itemText (c : WrittenCall) (a : Option WrittenAlias) : Text :=
  textOf (c.tokens ++ aliasTokens a)

theorem itemText_eq (c : WrittenCall) (a : Option WrittenAlias) :
    c.itemText a = c.callee.text ++
      (textOf (blankTokens c.before) ++ '(' :: (textOf (blankTokens c.left) ++
      (textOf c.distinctTokens ++ (c.argument.text ++ (textOf (blankTokens c.right) ++
        ')' :: textOf (aliasTokens a)))))) := by
  simp [itemText, tokens, Ref.text]

theorem clash_aggregateNames :
    ∀ ks ks', aggregateNames = ks ++ ks' → ∀ k ∈ ks, ∀ k' ∈ ks', clash [k] [k'] = true := by
  have pairwise : aggregateNames.Pairwise fun k k' => clash [k] [k'] = true := by decide
  intro ks ks' h k hk k' hk'
  rw [h] at pairwise
  exact (List.pairwise_append.mp pairwise).2.2 k hk k' hk'

theorem isPhrase_of_mem : ∀ k ∈ aggregateNames, IsPhrase [k] := by
  decide

theorem takes_function (c : WrittenCall) (b : Option Char) (r : Text) :
    (oneOf (aggregateNames.map word)).Takes b c.callee.text r [] := by
  obtain ⟨ks, ks', h⟩ := List.mem_iff_append.mp c.mem
  rw [h, List.map_append, List.map_cons]
  refine takes_oneOf (fun p hp => ?_) (takes_word c.callee.spells)
  obtain ⟨k, hk, rfl⟩ := List.mem_map.mp hp
  have clash := clash_aggregateNames _ _ h k hk c.function List.mem_cons_self
  exact refuses_phrase (isPhrase_of_mem k (by rw [h]; simp [hk]))
    (isPhrase_of_mem _ c.mem) clash (covers_word.mpr c.callee.spells)

theorem halts_closing {g r : Text} (hg : ∀ c ∈ g, isBlank c = true) :
    Halts isWord (g ++ ')' :: r) := by
  cases g with
  | nil => exact halts_cons.mpr (by decide)
  | cons d g => exact halts_cons.mpr (not_isWord_of_isBlank (hg d List.mem_cons_self))

theorem head_closing {g r : Text} (hg : ∀ c ∈ g, isBlank c = true) :
    (g ++ ')' :: r).head? ≠ some '.' := by
  cases g with
  | nil => simp
  | cons d g =>
    have := hg d List.mem_cons_self
    rintro ⟨⟩
    revert this
    decide

theorem takes_distinct (c : WrittenCall) (b : Option Char) {r : Text} (hr : Halts isWord r) :
    ∃ m : Marking, (Pattern.maybe (.capture 2 (.seq (word "DISTINCT") blank))).Takes b
        (textOf c.distinctTokens) (c.argument.text ++ r) m ∧ (∀ x ∈ m, x.1 = 2) ∧
      (m.find? 2).isSome = c.distinct.isSome := by
  cases h : c.distinct with
  | none =>
    refine ⟨[], ?_, by simp, rfl⟩
    suffices ((word "DISTINCT").seq blank).Refuses b (c.argument.text ++ r) by
      simpa [distinctTokens, h] using takes_maybe_nothing (this.capture 2)
    obtain ⟨q, i⟩ := c.argument
    cases q with
    | none =>
      rw [Ref.text_bare]
      exact refuses_word_seq (by decide) i.isName.2 hr (i.free _ (by decide)) breaks_blank
    | some q =>
      rw [Ref.text_qualified, List.append_assoc]
      exact refuses_word_seq (by decide) q.isName.2 (halts_cons.mpr (by decide))
        (q.free _ (by decide)) breaks_blank
  | some d =>
    refine ⟨[(2, d.1.text ++ d.2.text)], ?_, by simp, rfl⟩
    have halts : Halts isBlank (c.argument.text ++ r) := by
      obtain ⟨q, i⟩ := c.argument
      cases q with
      | none => rw [Ref.text_bare]; exact i.halts_isBlank r
      | some q => rw [Ref.text_qualified, List.append_assoc]; exact q.halts_isBlank _
    have := (takes_word (b := b) d.1.spells (r := d.2.text ++ (c.argument.text ++ r))).seq
      (takes_blank d.2.isGap halts)
    simpa [distinctTokens, h] using (this.capture 2).maybe

def argumentMarks (x : Ref) : Marking :=
  (4, x.column.text) :: (x.qualifier.map fun q => (3, q.text)).toList

theorem takes_argument (x : Ref) (b : Option Char) {r : Text} (hr : Halts isWord r)
    (hdot : r.head? ≠ some '.') :
    (all [.maybe (.seq (.capture 3 name) (.exactly '.')), .capture 4 name]).Takes b x.text r
      (argumentMarks x) := by
  obtain ⟨q, i⟩ := x
  cases q with
  | none =>
    have nothing := takes_maybe_nothing (refuses_qualifier (b := b) i.isName hr hdot 3
      fun _ _ h => refuses_exactly (c := '.') h)
    have := Takes.all_cons (u := []) (v := i.text ++ []) (r := r) (by simpa using nothing)
      (Takes.all_cons ((takes_name i.isName (by simpa using hr)).capture 4) takes_all_nil)
    exact this.congr (by simp [Ref.text_bare]) rfl
  | some q =>
    have dot : Halts isWord (['.'] ++ (i.text ++ r)) := by
      rw [List.singleton_append, halts_cons]
      decide
    have qualifier := (((takes_name (b := b) q.isName dot).capture 3).seq (takes_exactly '.')).maybe
    have := Takes.all_cons (v := i.text ++ []) (r := r) (by simpa using qualifier)
      (Takes.all_cons ((takes_name i.isName (by simpa using hr)).capture 4) takes_all_nil)
    exact this.congr (by simp [Ref.text_qualified]) rfl

theorem halts_argument (c : WrittenCall) (r : Text) :
    Halts isBlank (textOf c.distinctTokens ++ (c.argument.text ++ r)) := by
  cases h : c.distinct with
  | some d => simpa [distinctTokens, h] using d.1.isName.halts_isBlank _
  | none =>
    obtain ⟨q, i⟩ := c.argument
    cases q with
    | none => simpa [distinctTokens, h, Ref.text_bare] using i.halts_isBlank _
    | some q => simpa [distinctTokens, h, Ref.text_qualified] using q.halts_isBlank _

theorem takes_closing (c : WrittenCall) (a : Option WrittenAlias) (b : Option Char) :
    (all [blanks, .exactly ')', columnAlias 5, .textEnd]).Takes b
      (textOf (blankTokens c.right) ++ ([')'] ++ textOf (aliasTokens a))) []
      ((aliasText a).map fun t => (5, t)).toList := by
  have named {b : Option Char} : (all [columnAlias 5, .textEnd]).Takes b (textOf (aliasTokens a)) []
      ((aliasText a).map fun t => (5, t)).toList :=
    (Takes.all_cons (v := []) (r := []) (takes_columnAlias a 5 _) takes_textEnd.all_last).congr
      (by simp) rfl
  exact .all_pass (takes_blanks (isBlank_of_blankTokens c.right) (halts_cons.mpr (by decide)))
    (.all_pass (takes_exactly ')') named)

/-- What a call marks, besides its `DISTINCT`. -/
theorem exists_item (c : WrittenCall) (a : Option WrittenAlias) :
    ∃ m, Select.aggregateItem.match? (c.itemText a) = some m ∧ m.captured 1 = c.callee.text ∧
      (m.capture? 2).isSome = c.distinct.isSome ∧
      m.capture? 3 = c.argument.qualifier.map Ident.text ∧ m.captured 4 = c.argument.column.text ∧
      m.capture? 5 = aliasText a := by
  have hright := isBlank_of_blankTokens c.right
  have closing := halts_closing (r := textOf (aliasTokens a)) hright
  have dot := head_closing (r := textOf (aliasTokens a)) hright
  have opening (t : Text) : Halts isBlank ('(' :: t) := halts_cons.mpr (by decide)
  obtain ⟨m₂, hdistinct, hslots, hsome⟩ :=
    c.takes_distinct (lastChar (lastChar (lastChar (lastChar none
      c.callee.text) (textOf (blankTokens c.before))) ['(']) (textOf (blankTokens c.left))) closing
  have argument {b : Option Char} := Takes.all_append (b := b) (r := [])
    (v := textOf (blankTokens c.right) ++ ([')'] ++ textOf (aliasTokens a)))
    (takes_argument c.argument _ (by simpa using closing) (by simpa using dot))
      (c.takes_closing a _)
  have taken := Takes.all_cons (b := none) ((c.takes_function none _).capture 1)
    (Takes.all_cons (takes_blanks (isBlank_of_blankTokens c.before) (opening _))
      (Takes.all_cons (takes_exactly '(')
        (Takes.all_cons
          (takes_blanks (isBlank_of_blankTokens c.left) (by simpa using c.halts_argument _))
          (Takes.all_cons (by simpa using hdistinct) argument))))
  obtain ⟨m, found, -, hcapture⟩ :=
    match?_start_of_takes (w := Select.aggregateItem) (t := c.itemText a) rfl
    (by rw [itemText_eq]; simp) taken
  have other {slot : Nat} (h : slot ≠ 2) : m₂.find? slot = none :=
    Marking.find?_of_forall_ne fun x hx => by rw [hslots x hx]; exact h.symm
  refine ⟨m, found, ?_, ?_, ?_, ?_, ?_⟩
  · rw [Match.captured, hcapture]
    cases a <;> cases hq : c.argument.qualifier <;> simp [argumentMarks, aliasText, other, hq]
  · rw [hcapture, ← hsome]
    cases a <;> cases hq : c.argument.qualifier <;> simp [argumentMarks, aliasText, hq]
  · rw [hcapture]
    cases a <;> cases hq : c.argument.qualifier <;> simp [argumentMarks, aliasText, other, hq]
  · rw [Match.captured, hcapture]
    cases a <;> cases hq : c.argument.qualifier <;> simp [argumentMarks, aliasText, hq]
  · rw [hcapture]
    cases a <;> cases hq : c.argument.qualifier <;> simp [argumentMarks, aliasText, other, hq]

theorem readColumn_eq (c : WrittenCall) (a : Option WrittenAlias) (scope : Scope) :
    Select.readColumn scope (c.itemText a) = .ok {
      tableId := (c.argument.tableIn scope).getD ""
      columnName := String.ofList c.argument.column.text
      aliasName := Select.optionalString (aliasText a)
      aggregate := some c.aggregate
      expression := none } := by
  -- The two patterns for a plain column have no place for a parenthesis.
  have opening : 0 < (c.itemText a).count '(' := by
    rw [List.count_pos_iff, itemText_eq]
    simp
  have qualified : Select.qualifiedItem.match? (c.itemText a) = none :=
    match?_eq_none_of_count (by decide) (c := '(') (by decide) (n := 0) (by decide) opening
  have bare : Select.bareItem.match? (c.itemText a) = none :=
    match?_eq_none_of_count (by decide) (c := '(') (by decide) (n := 0) (by decide) opening
  obtain ⟨m, hm, h₁, h₂, h₃, h₄, h₅⟩ := c.exists_item a
  have keyword : canonicalKeyword c.callee.text = c.function := by
    have := (Phrase.one c.callee).canonicalKeyword
    simpa [Phrase.tokens] using this
  have modelled : Select.isModelled m = true := by
    rw [Select.isModelled, h₁, keyword]
    cases h : c.distinct with
    | none => simp [← Option.not_isSome, h₂, h]
    | some d => simp [c.modelled (by simp [h])]
  have aggregate : Select.aggregateOf m = .ok c.aggregate := by
    rw [Select.aggregateOf, h₂, aggregate, h₁]
    split
    · rfl
    · obtain ⟨x, hx⟩ := Option.isSome_iff_exists.mp (exists_aggregate c.function c.mem)
      rw [readKeyword, keyword]
      simp only [hx, Option.get_some]
  have table : Select.argumentTable scope m = c.argument.tableIn scope := by
    rw [Select.argumentTable, h₃, Ref.tableIn]
    cases c.argument.qualifier <;> rfl
  rw [Select.readColumn, qualified, bare, hm]
  simp only [modelled, if_true]
  rw [Select.readAggregate_eq, aggregate, table, h₄, h₅]
  rfl

end WrittenCall

end SqlCanvas
