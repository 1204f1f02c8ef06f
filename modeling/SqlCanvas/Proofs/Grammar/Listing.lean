import SqlCanvas.Proofs.Grammar.Column
import SqlCanvas.Proofs.Grammar.Condition

/-!
# Written lists

Items with commas between them, as they stand behind `SELECT`, `GROUP BY` and `ORDER BY`.
-/

namespace SqlCanvas

open Text Nesting Pattern

/-- An item of a list. Its only commas are inside parentheses or quotes. -/
structure Item where
  tokens : List Token
  solid : Solid tokens
  avoids : ∀ a ∈ tokens, a.Avoids (reserved.filter (· ≠ "AS"))
  noComma : ∀ a ∈ tokens, a.NoComma

namespace Item

def text (x : Item) : Text :=
  textOf x.tokens

end Item

abbrev Listing := Series CommaGap Item

namespace Listing

def tokens (l : Listing) : List Token :=
  Series.tokens CommaGap.tokens Item.tokens l

def text (l : Listing) : Text :=
  textOf l.tokens

theorem solid (l : Listing) : Solid l.tokens :=
  Series.solid (fun s _ _ _ => s.solid) fun x _ => x.solid

theorem avoids (l : Listing) : ∀ a ∈ l.tokens, a.Avoids (reserved.filter (· ≠ "AS")) := by
  intro a ha
  rcases Series.mem_tokens ha with ⟨s, -, ha⟩ | ⟨x, -, ha⟩
  · exact s.avoids _ a ha
  · exact x.avoids a ha

theorem splitCommas_text (l : Listing) : l.text.splitCommas = l.items.map Item.text :=
  splitTopLevel_series shy_comma (fun s _ => s.separates) fun x _ => part_comma x.solid x.noComma

end Listing

theorem noComma_blankTokens (g : Option Gap) : ∀ a ∈ blankTokens g, a.NoComma := by
  cases g <;> simp [blankTokens, Gap.token, Token.NoComma]

theorem Dotted.noComma (d : Dotted) : ∀ a ∈ d.tokens, a.NoComma := by
  intro a ha
  rcases List.mem_cons.mp ha with rfl | ha
  · trivial
  · obtain ⟨i, -, ha⟩ := List.mem_flatMap.mp ha
    rcases List.mem_pair.mp ha with rfl | rfl
    · exact (by decide : '.' ≠ ',')
    · trivial

theorem noComma_aliasTokens (a : Option WrittenAlias) : ∀ x ∈ aliasTokens a, x.NoComma := by
  cases a with
  | none => simp [aliasTokens]
  | some a =>
    obtain ⟨gap, as, name⟩ := a
    cases as <;>
      simp [aliasTokens, WrittenAlias.tokens, WrittenAlias.asTokens, Gap.token, Ident.token,
        Spelling.token, Token.NoComma]

theorem solid_aliasTokens {ts : List Token} (hts : Solid ts) (a : Option WrittenAlias) :
    Solid (ts ++ aliasTokens a) := by
  cases a with
  | none => simpa [aliasTokens] using hts
  | some a => exact a.solid hts

theorem avoids_aliasTokens (a : Option WrittenAlias) :
    ∀ x ∈ aliasTokens a, x.Avoids (reserved.filter (· ≠ "AS")) := by
  cases a with
  | none => simp [aliasTokens]
  | some a => exact a.avoids

/-- Tokens with an alias behind them. -/
def Item.aliased (ts : List Token) (hts : Solid ts)
    (havoid : ∀ a ∈ ts, a.Avoids (reserved.filter (· ≠ "AS"))) (hcomma : ∀ a ∈ ts, a.NoComma)
    (a : Option WrittenAlias) : Item where
  tokens := ts ++ aliasTokens a
  solid := solid_aliasTokens hts a
  avoids := fun x hx => (List.mem_append.mp hx).elim (havoid x) (avoids_aliasTokens a x)
  noComma := fun x hx => (List.mem_append.mp hx).elim (hcomma x) (noComma_aliasTokens a x)

theorem WrittenCall.solid (c : WrittenCall) : Solid c.tokens :=
  c.callee.solid.glue (.singleton rfl) c.before fun _ => by simp [Token.isWord]

theorem WrittenCall.avoids (c : WrittenCall) :
    ∀ a ∈ c.tokens, a.Avoids (reserved.filter (· ≠ "AS")) := by
  have others : ∀ k ∈ aggregateNames, ∀ k' ∈ reserved.filter (· ≠ "AS"), IsKeyword k'.toList ∧
      k' ≠ k := by
    decide
  intro a ha
  simp only [tokens, List.mem_cons, List.mem_append, List.not_mem_nil, or_false] at ha
  rcases ha with rfl | ha | rfl
  · exact c.callee.avoids (others c.function c.mem)
  · cases h : c.before with
    | none => simp [h, blankTokens] at ha
    | some g =>
      obtain rfl : a = g.token := by simpa [h, blankTokens] using ha
      trivial
  · trivial

theorem WrittenCall.noComma (c : WrittenCall) : ∀ a ∈ c.tokens, a.NoComma := by
  intro a ha
  simp only [tokens, List.mem_cons, List.mem_append, List.not_mem_nil, or_false] at ha
  rcases ha with rfl | ha | rfl
  · trivial
  · exact noComma_blankTokens c.before a ha
  · trivial

/-- An item of a select list: a column or a call, each with or without an alias. -/
inductive WrittenItem where
  | column (x : Ref) (a : Option WrittenAlias)
  | call (c : WrittenCall) (a : Option WrittenAlias)

namespace WrittenItem

def item : WrittenItem → Item
  | column x a =>
    .aliased x.tokens x.solid (x.dotted.avoids (List.filter_subset_self _)) x.dotted.noComma a
  | call c a => .aliased c.tokens c.solid c.avoids c.noComma a

def selected (i : WrittenItem) (scope : Scope) : SelectedColumn :=
  match i with
  | column x a => {
      tableId := (x.tableIn scope).getD ""
      columnName := String.ofList x.column.text
      aliasName := Select.optionalString (aliasText a)
      aggregate := none
      expression := none }
  | call c a => {
      tableId := (c.argument.tableIn scope).getD ""
      columnName := String.ofList c.argument.column.text
      aliasName := Select.optionalString (aliasText a)
      aggregate := some c.aggregate
      expression := none }

theorem readColumn_eq (i : WrittenItem) (scope : Scope) :
    Select.readColumn scope i.item.text = .ok (i.selected scope) := by
  cases i with
  | column x a => exact x.readColumn_eq a scope
  | call c a => exact c.readColumn_eq a scope

def ref : WrittenItem → Ref
  | column x _ => x
  | call c _ => c.argument

theorem tableId_selected (i : WrittenItem) (scope : Scope) :
    (i.selected scope).tableId = (i.ref.tableIn scope).getD "" := by
  cases i <;> rfl

theorem text_ne_star (i : WrittenItem) : i.item.text ≠ ['*'] := by
  obtain ⟨w, r, hw, hr⟩ : ∃ w r, IsName w ∧ i.item.text = w ++ r := by
    cases i with
    | column x a =>
      refine ⟨x.lead.text, x.behindLead ++ textOf (aliasTokens a), x.lead.isName, ?_⟩
      rw [← List.append_assoc, ← x.text_eq]
      exact textOf_append _ _
    | call c a => exact ⟨_, _, c.callee.isName, c.itemText_eq a⟩
  intro h
  have head := congrArg List.head? h
  rw [hr, List.head?_append_of_ne_nil _ hw.1] at head
  exact not_mem_of_not_isWord hw (c := '*') (by decide)
    (List.mem_of_mem_head? (by simpa using head))

end WrittenItem

theorem Listing.text_ne_star {l : Listing} {i : WrittenItem} (h : i.item ∈ l.items) :
    l.text ≠ ['*'] := by
  intro hstar
  have items := l.splitCommas_text
  rw [hstar] at items
  have star : Text.splitCommas ['*'] = [['*']] := by decide
  have : i.item.text ∈ l.items.map Item.text := List.mem_map_of_mem h
  rw [← items, star] at this
  exact i.text_ne_star (List.mem_singleton.mp this)

theorem Listing.readColumns_text (scope : Scope) {l : Listing} (h : l.text ≠ ['*']) :
    Select.readColumns scope (some l.text) = l.items.mapM fun x =>
      Select.readColumn scope x.text := by
  rw [Select.readColumns, if_neg h, l.splitCommas_text, List.mapM_map]
  rfl

abbrev Selection := Series CommaGap WrittenItem

namespace Selection

def listing (l : Selection) : Listing :=
  ⟨l.first.item, l.rest.map fun next => (next.1, next.2.item)⟩

theorem items_listing (l : Selection) : l.listing.items = l.items.map WrittenItem.item := by
  simp [listing, Series.items]

theorem text_ne_star (l : Selection) : l.listing.text ≠ ['*'] := by
  refine Listing.text_ne_star (i := l.first) ?_
  rw [items_listing]
  exact List.mem_map_of_mem List.mem_cons_self

theorem readColumns_eq (l : Selection) (scope : Scope) :
    Select.readColumns scope (some l.listing.text) =
      .ok (l.items.map fun i => i.selected scope) := by
  rw [Listing.readColumns_text scope l.text_ne_star, l.items_listing]
  induction l.items with
  | nil => rfl
  | cons i items ih =>
    rw [List.map_cons, List.mapM_cons, i.readColumn_eq scope, ih]
    rfl

end Selection

def Ref.item (x : Ref) : Item where
  tokens := x.tokens
  solid := x.solid
  avoids := x.dotted.avoids (List.filter_subset_self _)
  noComma := x.dotted.noComma

theorem Listing.groupColumns_text (scope : Scope) (aliases : List Text) (l : Listing) :
    Select.groupColumns scope aliases l.text =
      l.items.map fun x => Select.groupColumn scope aliases x.text := by
  rw [Select.groupColumns, l.splitCommas_text, List.map_map]
  rfl

theorem Listing.orderItems_text (scope : Scope) (aliases : List Text) (l : Listing) :
    Select.orderItems scope aliases l.text =
      l.items.filterMap fun x => Select.readOrderItem? scope aliases x.text := by
  rw [Select.orderItems, l.splitCommas_text, List.filterMap_map]
  rfl

end SqlCanvas
