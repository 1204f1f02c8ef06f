import SqlCanvas.Proofs.Grammar.Ending
import SqlCanvas.Proofs.Number.Numeral
import SqlCanvas.Proofs.Pairing
import SqlCanvas.Proofs.Regeneration.Canonical

/-!
# Parts that are read as canonical ones

Literals and limits of rows can be written as they are read. In a scope where all qualifiers stand
for tables, selected columns and filters of simple conditions are read as parts of a canonical
query, and so are groupings and orderings by columns that stand with their tables.
-/

namespace SqlCanvas

open Text Nesting Pattern

theorem WrittenNumber.isReadable_value (n : WrittenNumber) : IsReadable n.value :=
  le_trans (Numeral.length_ofNat_value_le n.ne_nil) n.short

theorem WrittenLimits.isReadable_limit (l : WrittenLimits) : ∀ n ∈ l.value.limit, IsReadable n := by
  cases l with
  | limit rows offset =>
    rintro _ ⟨⟩
    exact rows.body.isReadable_value
  | fetch offset rows =>
    rintro _ ⟨⟩
    exact rows.body.number.isReadable_value

theorem WrittenLimits.isReadable_offset (l : WrittenLimits) :
    ∀ n ∈ l.value.offset, IsReadable n ∧ l.value.limit.isSome := by
  cases l with
  | limit rows offset =>
    intro n hn
    obtain ⟨o, -, rfl⟩ := Option.map_eq_some_iff.mp hn
    exact ⟨o.body.number.isReadable_value, rfl⟩
  | fetch offset rows =>
    rintro _ ⟨⟩
    exact ⟨offset.body.number.isReadable_value, rfl⟩

theorem WrittenLiteral.isLiteral_value (v : WrittenLiteral) : v.value.IsLiteral := by
  cases v with
  | null => exact .null
  | true => exact .bool _
  | false => exact .bool _
  | string => exact .string _
  | whole negative digits hne hdigits hlength =>
    refine .int _ (le_trans ?_ hlength)
    have size : (Literal.signed negative (Numeral.value digits)).natAbs = Numeral.value digits := by
      cases negative <;> simp [Literal.signed]
    rw [size]
    exact Numeral.length_ofNat_value_le hne

theorem WrittenTail.accepts (t : WrittenTail) : t.operator.Accepts t.value := by
  cases t with
  | sign before s mem after v => exact .compare _ v.isLiteral_value
  | like before words mem phrase after v =>
    have operators : ∀ ks ∈ likePhrases, Filter.operator? (" ".intercalate ks) = some .like ∨
        Filter.operator? (" ".intercalate ks) = some .notLike := by decide
    rw [operator, value]
    rcases operators words mem with h | h <;> rw [Option.get_of_eq_some _ h]
    · exact .like v.isLiteral_value
    · exact .notLike v.isLiteral_value
  | test before words mem phrase =>
    have operators : ∀ ks ∈ testPhrases, Filter.operator? (" ".intercalate ks) = some .isNull ∨
        Filter.operator? (" ".intercalate ks) = some .isNotNull := by decide
    rw [operator, value]
    rcases operators words mem with h | h <;> rw [Option.get_of_eq_some _ h]
    · exact .isNull
    · exact .isNotNull

/-- Every qualifier stands for a table, and so does its absence. -/
structure Scope.Covers (scope : Scope) (tables : List TableRef) : Prop where
  anchor : ∃ id, scope.anchor = some id ∧ Known tables id
  table : ∀ qualifier, ∃ id, scope.table qualifier = some id ∧ Known tables id

variable {scope : Scope} {tables : List TableRef}

theorem Scope.Covers.tableIn (h : scope.Covers tables) (x : Ref) :
    ∃ id, x.tableIn scope = some id ∧ Known tables id := by
  obtain ⟨qualifier, column⟩ := x
  cases qualifier with
  | none => exact h.anchor
  | some q => exact h.table q.text

theorem Ident.isIdentifier (i : Ident) : IsIdentifier (String.ofList i.text) :=
  ⟨i, String.toList_ofList.symm⟩

theorem Ref.isColumn (x : Ref) (h : scope.Covers tables) :
    IsColumn tables (x.tableIn scope) (String.ofList x.column.text) :=
  ⟨h.tableIn x, x.column.isIdentifier⟩

def starToken : Token :=
  .mark '*' (by decide)

/-- All columns, or a list of columns and calls. -/
def IsSelection (ts : List Token) : Prop :=
  ts = [starToken] ∨ ∃ l : Selection, ts = l.listing.tokens

theorem isIdentifier_alias (a : Option WrittenAlias) :
    ∀ b ∈ Select.optionalString (aliasText a), IsIdentifier b := by
  intro b hb
  cases a with
  | none => cases hb
  | some a =>
    obtain rfl : String.ofList a.name.text = b := by
      simpa [aliasText, Select.optionalString] using hb
    exact a.name.isIdentifier

theorem WrittenItem.known_selected (i : WrittenItem) (h : scope.Covers tables) :
    Known tables (i.selected scope).tableId ∧ IsIdentifier (i.selected scope).columnName ∧
      (∀ a ∈ (i.selected scope).aliasName, IsIdentifier a) ∧ (i.selected scope).expression =
        none := by
  have known (x : Ref) : Known tables ((x.tableIn scope).getD "") := by
    obtain ⟨id, hid, hknown⟩ := h.tableIn x
    rwa [hid]
  cases i with
  | column x a => exact ⟨known x, x.column.isIdentifier, isIdentifier_alias a, rfl⟩
  | call c a => exact ⟨known c.argument, c.argument.column.isIdentifier, isIdentifier_alias a, rfl⟩

theorem IsSelection.exists_read {ts : List Token} (hts : IsSelection ts) (h : scope.Covers tables) :
    ∃ cs, Select.readColumns scope (some (textOf ts)) = .ok cs ∧
      ∀ c ∈ cs, Known tables c.tableId ∧ IsIdentifier c.columnName ∧
      (∀ a ∈ c.aliasName, IsIdentifier a) ∧
        c.expression = none := by
  rcases hts with rfl | ⟨l, rfl⟩
  · exact ⟨[], rfl, List.forall_mem_nil _⟩
  · refine ⟨_, l.readColumns_eq scope, fun c hc => ?_⟩
    obtain ⟨i, -, rfl⟩ := List.mem_map.mp hc
    exact i.known_selected h

/-- A column, or a call with nothing between its name and the parenthesis. -/
def Operand.Restorable : Operand → Prop
  | column _ => True
  | call _ before _ _ => before = none

theorem WrittenCondition.canonical_condition (w : WrittenCondition) (hw : w.operand.Restorable)
    (h : scope.Covers tables) : (w.condition scope).Canonical tables := by
  refine ⟨?_, ⟨_, rfl, w.tail.accepts⟩, rfl⟩
  obtain ⟨operand, plain, tail⟩ := w
  cases operand with
  | column x =>
    obtain ⟨id, hid, hknown⟩ := h.tableIn x
    exact .inl ⟨id, hid, hknown, x.column.isIdentifier⟩
  | call function before inside hinside =>
    obtain rfl : before = none := hw
    refine .inr ⟨rfl, String.ofList function.text, String.ofList inside, ?_, ?_, ?_⟩
    · exact ⟨function, plain, String.toList_ofList.symm⟩
    · rwa [String.toList_ofList]
    · refine String.toList_inj.mp ?_
      simp [WrittenCondition.condition, Operand.columnText, Operand.text_call, blankTokens]

def Conjunction.Restorable (c : Conjunction) : Prop :=
  ∃ ws : List WrittenCondition, c.items = ws.map WrittenCondition.conjunct ∧
  ∀ w ∈ ws, w.operand.Restorable

theorem Conjunction.Restorable.exists_read {c : Conjunction} (hc : c.Restorable)
    (h : scope.Covers tables) :
    ∃ cs, readConjuncts scope c.items = .ok cs ∧ cs.length = c.rest.length + 1 ∧
      ∀ condition ∈ cs, condition.Canonical tables := by
  obtain ⟨ws, hitems, hws⟩ := hc
  refine ⟨ws.map fun w => w.condition scope, ?_, ?_, fun condition hcondition => ?_⟩
  · rw [hitems, readConjuncts_conditions]
  · have := congrArg List.length hitems
    simpa [Series.items] using this.symm
  · obtain ⟨w, hw, rfl⟩ := List.mem_map.mp hcondition
    exact w.canonical_condition (hws w hw) h

theorem WrittenBranch.exists_node {b : WrittenBranch} (hb : b.conjunction.Restorable)
    (h : scope.Covers tables) :
    ∃ n, (readConjuncts scope b.conjunction.items).map b.nodes = .ok [n] ∧ n.Canonical tables := by
  obtain ⟨cs, hread, hlength, hcs⟩ := hb.exists_read h
  rw [hread]
  cases hrest : b.conjunction.rest with
  | nil =>
    rw [hrest] at hlength
    obtain ⟨c, rfl⟩ := List.length_eq_one_iff.mp hlength
    refine ⟨.condition c, ?_, .condition (hcs c List.mem_cons_self)⟩
    simp [Except.map, nodes, hrest]
  | cons x xs =>
    refine ⟨.group .and (cs.map .condition), ?_, .group ?_ hcs⟩
    · simp [Except.map, nodes, hrest]
    · rw [hlength, hrest, List.length_cons]
      omega

def WrittenFilter.Restorable : WrittenFilter → Prop
  | all c => c.Restorable
  | any a _ => ∀ b ∈ a.items, b.conjunction.Restorable

theorem WrittenFilter.Restorable.exists_read {f : WrittenFilter} (hf : f.Restorable)
    (h : scope.Covers tables) : ∃ g, f.readWith scope = .ok g ∧ g.Canonical tables := by
  cases f with
  | all c =>
    obtain ⟨cs, hread, hlength, hcs⟩ := Conjunction.Restorable.exists_read hf h
    refine ⟨⟨.and, cs.map .condition⟩, ?_, .all ?_ hcs⟩
    · rw [readWith, hread]
      rfl
    · exact List.length_pos_iff.mp (by omega)
  | any a several =>
    obtain ⟨nodes, hnodes⟩ := exists_forall₂ fun b hb => (WrittenBranch.exists_node (hf b hb) h)
    have read := mapM_of_forall₂ hnodes.flip fun n b hn => hn.1
    refine ⟨⟨.or, nodes⟩, ?_, .any ?_ fun n hn => ?_⟩
    · rw [readWith, read]
      simp [Except.map, ← List.flatMap_def]
    · have length := hnodes.length_eq
      have := List.length_pos_iff.mpr several
      simp only [Series.items, List.length_cons, List.length_map] at length
      omega
    · obtain ⟨b, -, -, hcanonical⟩ := exists_of_forall₂_right hnodes n hn
      exact hcanonical

/-- A list of columns that stand with their tables. -/
def Listing.Groups (l : Listing) : Prop :=
  ∃ xs : List Ref, l.items = xs.map Ref.item ∧ ∀ x ∈ xs, x.qualifier.isSome

/-- Columns that stand with their tables, each with or without a direction. -/
def Listing.Sorts (l : Listing) : Prop :=
  ∃ os : List WrittenOrder, l.items = os.map WrittenOrder.item ∧ ∀ o ∈ os, o.column.qualifier.isSome

theorem Ref.resolve_qualified {x : Ref} (h : x.qualifier.isSome) (scope : Scope)
    (aliases : List Text) : scope.resolve aliases x.text = (x.tableIn scope, x.column.text) := by
  rw [resolve_text, if_neg]
  rintro ⟨hnone, -⟩
  rw [hnone] at h
  cases h

theorem Listing.Groups.isColumn {l : Listing} (hl : l.Groups) (h : scope.Covers tables)
    (aliases : List Text) : Select.groupColumns scope aliases l.text ≠ [] ∧
      ∀ c ∈ Select.groupColumns scope aliases l.text, IsColumn tables c.tableId c.columnName := by
  obtain ⟨xs, hitems, hxs⟩ := hl
  rw [Listing.groupColumns_text]
  refine ⟨by simp [Series.items], fun c hc => ?_⟩
  rw [hitems, List.map_map] at hc
  obtain ⟨x, hx, rfl⟩ := List.mem_map.mp hc
  have item : Select.groupColumn scope aliases x.item.text =
      ⟨x.tableIn scope, String.ofList x.column.text⟩ := by
    change Select.groupColumn scope aliases x.text = _
    rw [Select.groupColumn, x.resolve_qualified (hxs x hx)]
  rw [Function.comp_apply, item]
  exact x.isColumn h

theorem Listing.Sorts.isColumn {l : Listing} (hl : l.Sorts) (h : scope.Covers tables)
    (aliases : List Text) : Select.orderItems scope aliases l.text ≠ [] ∧
      ∀ o ∈ Select.orderItems scope aliases l.text, IsColumn tables o.tableId o.columnName := by
  obtain ⟨os, hitems, hos⟩ := hl
  have items : Select.orderItems scope aliases l.text = os.map fun o =>
      ⟨o.column.tableIn scope, String.ofList o.column.column.text, o.readDirection⟩ := by
    rw [Listing.orderItems_text, hitems, List.filterMap_map, ← List.filterMap_eq_map]
    refine List.filterMap_congr fun o ho => ?_
    rw [Function.comp_apply, o.readOrderItem_eq, o.column.resolve_qualified (hos o ho)]
    rfl
  rw [items]
  refine ⟨?_, fun o ho => ?_⟩
  · have := congrArg List.length hitems
    rintro hnil
    simp_all [Series.items]
  · obtain ⟨w, -, rfl⟩ := List.mem_map.mp ho
    exact w.column.isColumn h

/-- Filters of simple conditions, groupings and orderings by columns with their tables, and any
limits. -/
structure WrittenEnding.Restorable (e : WrittenEnding) : Prop where
  filter : ∀ h ∈ e.filter, h.body.Restorable
  group : ∀ h ∈ e.group, h.body.Groups
  having : ∀ h ∈ e.having, h.body.Restorable
  order : ∀ h ∈ e.order, h.body.Sorts

namespace WrittenEnding.Restorable

variable {e : WrittenEnding}

theorem exists_filter {words : List String} {f : Option (Headed words WrittenFilter)}
    (hf : ∀ h ∈ f, h.body.Restorable) (h : scope.Covers tables) : ∃ g : Option FilterGroup,
      (f.elim (.ok none) fun f => (f.body.readWith scope).map some) = .ok g ∧
      ∀ x ∈ g, x.Canonical tables := by
  cases f with
  | none => exact ⟨none, rfl, by simp⟩
  | some f =>
    obtain ⟨g, hread, hg⟩ := (hf f rfl).exists_read h
    exact ⟨some g, by rw [Option.elim_some, hread]; rfl, by simpa using hg⟩

theorem exists_parts (he : e.Restorable) {ts : List Token} (hts : IsSelection ts)
    (h : scope.Covers tables) (cs : Select.Clauses) (hcs : ∀ k, cs.body? k = e.clauses.body? k) :
    ∃ rest,
      Select.readParts scope (some (textOf ts)) cs = .ok rest ∧
      (∀ c ∈ rest.columns, Known tables c.tableId ∧ IsIdentifier c.columnName ∧
        (∀ a ∈ c.aliasName, IsIdentifier a) ∧ c.expression = none) ∧
      (∀ f ∈ rest.filters, f.Canonical tables) ∧ (∀ f ∈ rest.having, f.Canonical tables) ∧
      (∀ n ∈ rest.limits.limit, IsReadable n) ∧
        ∀ n ∈ rest.limits.offset, IsReadable n ∧ rest.limits.limit.isSome := by
  obtain ⟨columns, hcolumns, known⟩ := hts.exists_read h
  obtain ⟨filters, hfilters, canonical⟩ := exists_filter he.filter h
  obtain ⟨having, hhaving, canonical'⟩ := exists_filter he.having h
  have parts := e.readParts_eq scope (some (textOf ts)) cs hcs
  rw [hcolumns, hfilters, hhaving] at parts
  refine ⟨_, parts, known, canonical, canonical', ?_⟩
  cases e.limits with
  | none => simp
  | some l => exact ⟨l.isReadable_limit, l.isReadable_offset⟩

theorem canonical_grouping (he : e.Restorable) (h : scope.Covers tables) {cs : Select.Clauses}
    (hcs : ∀ k, cs.body? k = e.clauses.body? k) (aliases : List Text) {having : Option FilterGroup}
    (hhaving : ∀ f ∈ having, f.Canonical tables) :
    ∀ g ∈ Select.grouping ((cs.body? "GROUP BY").map (Select.groupColumns scope aliases)) having,
      g.Canonical tables := by
  have filter : ∀ n ∈ having.map (·.toNode), ∃ f : FilterGroup, n = f.toNode ∧
      f.Canonical tables := by
    intro n hn
    obtain ⟨f, hf, rfl⟩ := Option.map_eq_some_iff.mp hn
    exact ⟨f, rfl, hhaving f hf⟩
  intro g hg
  rw [hcs, e.body?_group, Select.grouping] at hg
  cases hgroup : e.group with
  | none =>
    rw [hgroup] at hg
    cases having with
    | none => simp at hg
    | some f =>
      cases hg
      exact ⟨.inr rfl, List.forall_mem_nil _, filter⟩
  | some l =>
    rw [hgroup] at hg
    cases hg
    obtain ⟨any, columns⟩ := (he.group l hgroup).isColumn h aliases
    exact ⟨.inl any, columns, filter⟩

theorem canonical_ordering (he : e.Restorable) (h : scope.Covers tables) {cs : Select.Clauses}
    (hcs : ∀ k, cs.body? k = e.clauses.body? k) (aliases : List Text) :
    ∀ os ∈ (cs.body? "ORDER BY").map (Select.orderItems scope aliases),
      os ≠ [] ∧ ∀ o ∈ os, IsColumn tables o.tableId o.columnName := by
  intro os hos
  rw [hcs, e.body?_order, Option.map_map] at hos
  obtain ⟨l, hl, rfl⟩ := Option.map_eq_some_iff.mp hos
  exact (he.order l hl).isColumn h aliases

end WrittenEnding.Restorable

end SqlCanvas
