import Mathlib.Data.List.Nodup
import SqlCanvas.Proofs.Grammar.Comparison
import SqlCanvas.Proofs.Regeneration.Canonical
import SqlCanvas.Query.Sql

/-!
# Names in canonical queries

A column of a table is written behind the reference of its table, and a scope that knows the tables
of a query finds the table again from there.
-/

namespace SqlCanvas

open Text Nesting Pattern

/-- The scope finds each table by its reference, under the id that `f` gives to it. -/
def Scope.Knows (scope : Scope) (tables : List TableRef) (f : String → String) : Prop :=
  ∀ t ∈ tables, scope.lookup.find? t.reference.toList = some (f t.id)

theorem IsIdentifier.ne_empty {a : String} (h : IsIdentifier a) : a ≠ "" := by
  obtain ⟨i, hi⟩ := h
  rintro rfl
  exact i.isName.1 hi

theorem nonempty?_of_isIdentifier {a : String} (h : IsIdentifier a) :
    nonempty? (some a) = some a := by
  rw [nonempty?, if_neg h.ne_empty]

theorem withAlias_of_isIdentifier (text : String) {a : String} (h : IsIdentifier a) :
    withAlias text (some a) = text ++ " AS " ++ a := by
  rw [withAlias, nonempty?_of_isIdentifier h]

theorem TableRef.Nameable.isLabel_reference {t : TableRef} (h : t.Nameable) :
    IsLabel t.reference := by
  rw [reference]
  cases ha : t.aliasName with
  | none => exact h.bare ha
  | some a =>
    have label : IsLabel a := h.aliasName a ha
    rw [nonempty?_of_isIdentifier label.isIdentifier]
    exact label

theorem findTable?_of_nodup {ts : List TableRef} (h : (ts.map (·.id)).Nodup) {t : TableRef}
    (ht : t ∈ ts) : findTable? ts t.id = some t := by
  obtain ⟨t', ht'⟩ := Option.isSome_iff_exists.mp (findTable?_isSome_iff.mpr ⟨t, ht, rfl⟩)
  have mem : t' ∈ ts := by
    simpa using List.mem_of_find?_eq_some ht'
  have id : t'.id = t.id := by
    simpa using List.find?_some ht'
  rw [ht', List.inj_on_of_nodup_map h mem ht id]

theorem Query.Flat.findTable?_eq {q : Query} (h : q.Flat) {t : TableRef} (ht : t ∈ q.tables) :
    findTable? q.tables t.id = some t :=
  findTable?_of_nodup h.ids ht

theorem TableRef.nameable_of_plain {t : TableRef} (hname : IsPlain t.name)
    (halias : ∀ a ∈ t.aliasName, IsPlain a) : t.Nameable where
  name := ⟨⟨hname.ident, []⟩, Nat.zero_le _, by simp [Dotted.text, Dotted.tokens]⟩
  aliasName := fun a ha => (halias a ha).isLabel
  bare := fun _ => hname.isLabel

/-- The column stands behind the reference of the table. -/
structure Member.Stands (x : Member) (t : TableRef) (column : String) : Prop where
  qualifier : x.qualifier.text = t.reference.toList
  column : x.column.text = column.toList
  plain : x.qualifier.Plain

theorem Query.Flat.exists_member {q : Query} (h : q.Flat) {id column : String}
    (hid : Known q.tables id) (hc : IsIdentifier column) :
    ∃ t ∈ q.tables, t.id = id ∧ ∃ x : Member, x.Stands t column := by
  obtain ⟨t, ht, rfl⟩ := hid
  obtain ⟨i, hplain, hi⟩ := (h.names t ht).isLabel_reference
  obtain ⟨c, hc⟩ := hc
  exact ⟨t, ht, rfl, ⟨i, c⟩, hi, hc, hplain⟩

namespace Member.Stands

variable {x : Member} {t : TableRef} {column : String} (h : x.Stands t column)

include h

theorem textOf_tokens : textOf x.tokens = (t.column column).toList := by
  rw [Member.textOf_tokens, h.qualifier, h.column]
  simp [TableRef.column]

variable {tables : List TableRef} {scope : Scope} {f : String → String} (ht : t ∈ tables)
  (hf : scope.Knows tables f)

include ht hf

theorem find?_eq : scope.lookup.find? x.qualifier.text = some (f t.id) := by
  rw [h.qualifier]
  exact hf t ht

theorem tableIn_eq : x.ref.tableIn scope = some (f t.id) := by
  change scope.table x.qualifier.text = _
  rw [Scope.table, h.find?_eq ht hf, Option.some_or]

theorem resolve_eq (aliases : List Text) :
    scope.resolve aliases x.ref.text = (some (f t.id), column.toList) := by
  rw [Ref.resolve_text, if_neg (by simp [Member.ref]), h.tableIn_eq ht hf]
  exact congrArg _ h.column

end Member.Stands

theorem Query.Flat.qualifiedColumn_eq {q : Query} (hq : q.Flat) {t : TableRef} (ht : t ∈ q.tables)
    {x : Member} {column : String} (h : x.Stands t column) :
    qualifiedColumn q.tables (some t.id) column = String.ofList (textOf x.tokens) := by
  rw [qualifiedColumn, findTableOf?, Option.bind_some, hq.findTable?_eq ht, h.textOf_tokens,
    String.ofList_toList]

end SqlCanvas
