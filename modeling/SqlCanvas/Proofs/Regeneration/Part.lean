import SqlCanvas.Proofs.Regeneration.Predicate

/-!
# Parts of canonical queries

The selected columns, the grouping, the sorting and the limits of rows of a canonical query, each as
a text that reading takes apart again.
-/

namespace SqlCanvas

open Text Nesting Pattern

def CommaGap.standard : CommaGap :=
  ⟨none, some .space⟩

theorem CommaGap.textOf_standard : textOf CommaGap.standard.tokens = ", ".toList := by
  simp [CommaGap.standard, CommaGap.tokens, blankTokens, Gap.space]

theorem exists_listing {A : Type} {R : A → Item → Prop} {xs : List A} (hne : xs ≠ [])
    (h : ∀ x ∈ xs, ∃ i, R x i) : ∃ l : Listing, List.Forall₂ R xs l.items ∧
      textOf l.tokens = ", ".toList.intercalate (l.items.map Item.text) := by
  obtain ⟨is, his⟩ := exists_forall₂ h
  have ne_nil : is ≠ [] := by
    rintro rfl
    exact hne (List.forall₂_nil_right_iff.mp his)
  refine ⟨.ofList .standard is ne_nil, ?_, ?_⟩
  · rwa [Series.items_ofList]
  · rw [Series.items_ofList, Listing.tokens, textOf_ofList, CommaGap.textOf_standard]
    rfl

theorem toList_commaList (items : List String) :
    (commaList items).toList = ", ".toList.intercalate (items.map String.toList) := by
  rw [commaList, String.toList_intercalate]

structure WrittenItem.States (w : WrittenItem) (q : Query) (c : SelectedColumn) : Prop where
  text : (c.sql q.tables).toList = w.item.text
  reads : ∀ scope f, Scope.Knows scope q.tables f →
    w.selected scope = { c with tableId := f c.tableId }

def Aggregate.function : Aggregate → String
  | .count | .countDistinct => "COUNT"
  | .sum => "SUM"
  | .avg => "AVG"
  | .min => "MIN"
  | .max => "MAX"

theorem Aggregate.function_mem (a : Aggregate) : a.function ∈ aggregateNames := by
  cases a <;> decide

theorem Aggregate.isKeyword_function (a : Aggregate) : IsKeyword a.function.toList := by
  cases a <;> decide

/-- A call of the aggregate function, without spaces around the argument. -/
def WrittenCall.standard (a : Aggregate) (x : Ref) : WrittenCall where
  function := a.function
  mem := a.function_mem
  callee := .capital a.function a.isKeyword_function
  before := none
  left := none
  distinct :=
    if a = .countDistinct then some (.capital "DISTINCT" isKeyword_distinct, .space) else none
  argument := x
  right := none
  modelled := by
    cases a <;> simp [Aggregate.function]

theorem WrittenCall.aggregate_standard (a : Aggregate) (x : Ref) :
    (standard a x).aggregate = a := by
  cases a <;> rfl

theorem WrittenCall.textOf_standard (a : Aggregate) (x : Ref) {argument : String}
    (h : textOf x.tokens = argument.toList) :
    textOf (standard a x).tokens = (a.sql argument).toList := by
  cases a <;>
    simp [standard, tokens, distinctTokens, blankTokens, Aggregate.function, Aggregate.sql, h,
      Vocabulary.spelling, Spelling.capital, Gap.space]

theorem exists_alias {aliasName : Option String} (h : ∀ a ∈ aliasName, IsIdentifier a)
    (text : String) :
    ∃ a : Option WrittenAlias, (withAlias text aliasName).toList = text.toList ++ textOf
      (aliasTokens a) ∧ aliasText a = aliasName.map String.toList := by
  cases aliasName with
  | none => exact ⟨none, by simp [withAlias, nonempty?, aliasTokens], rfl⟩
  | some name =>
    obtain ⟨i, hi⟩ := h name rfl
    refine ⟨some (.standard i), ?_, congrArg some hi⟩
    rw [withAlias_of_isIdentifier text ⟨i, hi⟩]
    simp [aliasTokens, hi, WrittenAlias.standard, WrittenAlias.tokens, WrittenAlias.asTokens,
      Gap.space, Spelling.capital]

theorem optionalString_map (a : Option String) :
    Select.optionalString (a.map String.toList) = a := by
  cases a <;> simp [Select.optionalString]

theorem Query.Flat.exists_item {q : Query} (h : q.Flat) {c : SelectedColumn}
    (hc : c ∈ q.selectedColumns) : ∃ w : WrittenItem, w.States q c := by
  obtain ⟨hknown, hcolumn, halias, hexpression⟩ := h.columns c hc
  obtain ⟨t, ht, htid, x, hx⟩ := h.exists_member hknown hcolumn
  obtain ⟨tableId, column, aliasName, aggregate, expression⟩ := c
  obtain rfl : expression = none := hexpression
  obtain rfl : t.id = tableId := htid
  obtain ⟨a, hatext, ha⟩ := exists_alias halias
    (SelectedColumn.bodySql ⟨t.id, column, aliasName, aggregate, none⟩ q.tables)
  have found : findTable? q.tables t.id = some t := h.findTable?_eq ht
  have columnText : x.ref.column.text = column.toList := hx.column
  cases aggregate with
  | none =>
    refine ⟨.column x.ref a, hatext.trans ?_, fun scope f hf => ?_⟩
    · rw [SelectedColumn.bodySql, nonempty?, found, ← hx.textOf_tokens]
      exact (textOf_append _ _).symm
    · simp [WrittenItem.selected, hx.tableIn_eq ht hf, columnText, ha, optionalString_map]
  | some g =>
    refine ⟨.call (.standard g x.ref) a, hatext.trans ?_, fun scope f hf => ?_⟩
    · rw [SelectedColumn.bodySql, nonempty?, found]
      change (g.sql (t.column column)).toList ++ _ = _
      rw [← WrittenCall.textOf_standard g x.ref hx.textOf_tokens]
      exact (textOf_append _ _).symm
    · have argument : (WrittenCall.standard g x.ref).argument = x.ref := rfl
      simp [WrittenItem.selected, argument, hx.tableIn_eq ht hf, columnText, ha, optionalString_map,
        WrittenCall.aggregate_standard]

theorem Query.Flat.exists_group_item {q : Query} (h : q.Flat) {c : GroupColumn}
    (hc : IsColumn q.tables c.tableId c.columnName) : ∃ i : Item,
      (qualifiedColumn q.tables c.tableId c.columnName).toList = i.text ∧
        ∀ scope f aliases, Scope.Knows scope q.tables f →
          Select.groupColumn scope aliases i.text = ⟨c.tableId.map f, c.columnName⟩ := by
  obtain ⟨⟨id, hid, hknown⟩, hcolumn⟩ := hc
  obtain ⟨t, ht, rfl, x, hx⟩ := h.exists_member hknown hcolumn
  refine ⟨x.ref.item, ?_, fun scope f aliases hf => ?_⟩
  · rw [hid, h.qualifiedColumn_eq ht hx, String.toList_ofList]
    rfl
  · change Select.groupColumn scope aliases x.ref.text = _
    simp [Select.groupColumn, hx.resolve_eq ht hf, hid]

theorem Query.Flat.exists_grouping {q : Query} (h : q.Flat) {g : GroupClause} (hne : g.columns ≠ [])
    (hg : ∀ c ∈ g.columns, IsColumn q.tables c.tableId c.columnName) : ∃ l : Listing,
      (g.columnsSql q.tables).toList = textOf l.tokens ∧
        ∀ scope f aliases, Scope.Knows scope q.tables f →
          Select.groupColumns scope aliases (textOf l.tokens) =
            g.columns.map fun c => ⟨c.tableId.map f, c.columnName⟩ := by
  obtain ⟨l, hl, htext⟩ := exists_listing hne fun c hc => h.exists_group_item (hg c hc)
  refine ⟨l, ?_, fun scope f aliases hf => ?_⟩
  · rw [GroupClause.columnsSql, toList_commaList, htext, List.map_map]
    exact congrArg _ (map_eq_map_of_forall₂ hl fun c i hi => hi.1)
  · refine (Listing.groupColumns_text scope aliases l).trans ?_
    exact (map_eq_map_of_forall₂ hl fun c i hi => (hi.2 scope f aliases hf).symm).symm

theorem Direction.spelling_mem (d : Direction) : Vocabulary.spelling d ∈ directionWords := by
  cases d <;> decide

theorem Direction.isKeyword_spelling (d : Direction) :
    IsKeyword (Vocabulary.spelling d).toList := by
  cases d <;> decide

def WrittenOrder.capital (x : Ref) (d : Direction) : WrittenOrder :=
  ⟨x, some ⟨.space, Vocabulary.spelling d, d.spelling_mem, .capital _ d.isKeyword_spelling⟩⟩

theorem WrittenOrder.readDirection_capital (x : Ref) (d : Direction) :
    (capital x d).readDirection = d := by
  cases d <;> rfl

theorem Query.Flat.exists_order_item {q : Query} (h : q.Flat) {o : OrderItem}
    (ho : IsColumn q.tables o.tableId o.columnName) : ∃ i : Item, (o.sql q.tables).toList = i.text ∧
      ∀ scope f aliases, Scope.Knows scope q.tables f →
        Select.readOrderItem? scope aliases i.text =
          some { o with tableId := o.tableId.map f } := by
  obtain ⟨⟨id, hid, hknown⟩, hcolumn⟩ := ho
  obtain ⟨t, ht, rfl, x, hx⟩ := h.exists_member hknown hcolumn
  refine ⟨(WrittenOrder.capital x.ref o.direction).item, ?_, fun scope f aliases hf => ?_⟩
  · rw [OrderItem.sql, hid, h.qualifiedColumn_eq ht hx]
    simp [Item.text, WrittenOrder.item, WrittenOrder.directionTokens, WrittenOrder.capital,
      Gap.space, Spelling.capital, Member.tokens]
  · have column : (WrittenOrder.capital x.ref o.direction).column = x.ref := rfl
    rw [WrittenOrder.readOrderItem_eq, WrittenOrder.readDirection_capital, column,
      hx.resolve_eq ht hf, hid, String.ofList_toList]
    rfl

theorem Query.Flat.exists_ordering {q : Query} (h : q.Flat) {os : List OrderItem} (hne : os ≠ [])
    (hos : ∀ o ∈ os, IsColumn q.tables o.tableId o.columnName) : ∃ l : Listing,
      (commaList (os.map (·.sql q.tables))).toList = textOf l.tokens ∧
        ∀ scope f aliases, Scope.Knows scope q.tables f →
          Select.orderItems scope aliases (textOf l.tokens) =
            os.map fun o => { o with tableId := o.tableId.map f } := by
  obtain ⟨l, hl, htext⟩ := exists_listing hne fun o ho => h.exists_order_item (hos o ho)
  refine ⟨l, ?_, fun scope f aliases hf => ?_⟩
  · rw [toList_commaList, htext, List.map_map]
    exact congrArg _ (map_eq_map_of_forall₂ hl fun o i hi => hi.1)
  · refine (Listing.orderItems_text scope aliases l).trans ?_
    exact filterMap_of_forall₂ hl fun o i hi => hi.2 scope f aliases hf

end SqlCanvas
