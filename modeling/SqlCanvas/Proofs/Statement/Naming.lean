import SqlCanvas.Statement.Select

/-!
# Names of tables

Tables enter the scope one by one, each under its full name, the last part of its name and its
alias. A later table takes over the names it shares with earlier ones, so a name stands for the last
table that goes by it.
-/

namespace SqlCanvas

open Text

namespace Lookup

def labels (name : Text) (aliasName : Option Text) : List Text :=
  name :: lastPart name :: aliasName.toList

theorem find?_insert (lookup : Lookup) (name other : Text) (id : String) :
    (lookup.insert name id).find? other = if lower other =
      lower name then some id else lookup.find? other := by
  split
  · exact find?_insert_self lookup id ‹_›
  · exact find?_insert_of_ne lookup id ‹_›

theorem find?_register (lookup : Lookup) (name : Text) (aliasName : Option Text) (id : String)
    (other : Text) : (lookup.register name aliasName id).find? other =
      if lower other ∈ (labels name aliasName).map lower then some id else lookup.find? other := by
  cases aliasName with
  | none =>
    simp only [register, find?_insert, labels, Option.toList_none, List.map_cons, List.map_nil,
      List.mem_cons, List.not_mem_nil, or_false]
    by_cases h₁ : lower other = lower name <;> by_cases h₂ : lower other = lower (lastPart name) <;>
      simp [h₁, h₂]
  | some a =>
    simp only [register, find?_insert, labels, Option.toList_some, List.map_cons, List.map_nil,
      List.mem_cons, List.not_mem_nil, or_false]
    by_cases h₁ : lower other = lower name <;> by_cases h₂ : lower other = lower (lastPart name) <;>
      by_cases h₃ : lower other = lower a <;> simp [h₁, h₂, h₃]

end Lookup

def TableRef.GoesBy (t : TableRef) (name : Text) : Prop :=
  lower name ∈ (Lookup.labels t.name.toList (t.aliasName.map String.toList)).map lower

instance (t : TableRef) (name : Text) : Decidable (t.GoesBy name) :=
  inferInstanceAs (Decidable (_ ∈ _))

def lastNamed? (tables : List TableRef) (name : Text) : Option TableRef :=
  tables.reverse.find? fun t => decide (t.GoesBy name)

theorem lastNamed?_append (ts : List TableRef) (t : TableRef) (name : Text) :
    lastNamed? (ts ++ [t]) name = if t.GoesBy name then some t else lastNamed? ts name := by
  rw [lastNamed?, List.reverse_append, List.reverse_singleton, List.singleton_append,
    List.find?_cons]
  by_cases h : t.GoesBy name <;> simp [h, lastNamed?]

theorem lastNamed?_map {f : TableRef → TableRef} (hf : ∀ t name, (f t).GoesBy name ↔ t.GoesBy name)
    (ts : List TableRef) (name : Text) :
    lastNamed? (ts.map f) name = (lastNamed? ts name).map f := by
  rw [lastNamed?, ← List.map_reverse, List.find?_map, lastNamed?]
  congr 2
  funext t
  simp [hf]

theorem lastNamed?_eq_some_iff {ts : List TableRef} {t : TableRef} {name : Text} :
    lastNamed? ts name = some t ↔
      t.GoesBy name ∧ ∃ before after, ts = before ++ t :: after ∧ ∀ u ∈ after, ¬ u.GoesBy name := by
  rw [lastNamed?, List.find?_eq_some_iff_append]
  simp only [decide_eq_true_eq, Bool.not_eq_true', decide_eq_false_iff_not]
  refine and_congr_right fun _ => ?_
  constructor
  · rintro ⟨as, bs, h, hs⟩
    refine ⟨bs.reverse, as.reverse, ?_, fun u hu => hs u (List.mem_reverse.mp hu)⟩
    have := congrArg List.reverse h
    simpa using this
  · rintro ⟨before, after, rfl, hs⟩
    exact ⟨after.reverse, before.reverse, by simp, fun u hu => hs u (List.mem_reverse.mp hu)⟩

theorem lastNamed?_congr (ts : List TableRef) {name name' : Text} (h : lower name = lower name') :
    lastNamed? ts name = lastNamed? ts name' := by
  have same (t : TableRef) : t.GoesBy name ↔ t.GoesBy name' := by
    rw [TableRef.GoesBy, TableRef.GoesBy, h]
  simp only [lastNamed?, same]

/-- No two tables go by the same name, in whatever letter case. -/
def NamesApart (tables : List TableRef) : Prop :=
  tables.Pairwise fun t u => ∀ name, t.GoesBy name → ¬ u.GoesBy name

theorem namesApart_iff {ts : List TableRef} : NamesApart ts ↔ ts.Pairwise fun t u =>
    ∀ l ∈ (Lookup.labels t.name.toList (t.aliasName.map String.toList)).map lower,
      l ∉ (Lookup.labels u.name.toList (u.aliasName.map String.toList)).map lower := by
  rw [NamesApart]
  refine List.Pairwise.iff fun t u => ⟨fun h l hl hu => ?_, fun h name => h (lower name)⟩
  obtain ⟨name, hname, rfl⟩ := List.mem_map.mp hl
  exact h name hl hu

theorem NamesApart.lastNamed?_eq {ts : List TableRef} (h : NamesApart ts) {t : TableRef}
    (ht : t ∈ ts) {name : Text} (hname : t.GoesBy name) : lastNamed? ts name = some t := by
  obtain ⟨before, after, rfl⟩ := List.append_of_mem ht
  refine lastNamed?_eq_some_iff.mpr ⟨hname, before, after, rfl, fun u hu => ?_⟩
  exact (List.pairwise_cons.mp (List.pairwise_append.mp h).2.1).1 u hu name hname

theorem NamesApart.unique {ts : List TableRef} (h : NamesApart ts) {t u : TableRef} (ht : t ∈ ts)
    (hu : u ∈ ts) {name : Text} (htn : t.GoesBy name) (hun : u.GoesBy name) : t = u := by
  have := h.lastNamed?_eq ht htn
  rw [h.lastNamed?_eq hu hun] at this
  exact (Option.some.inj this).symm

namespace TableRef

theorem goesBy_name (t : TableRef) : t.GoesBy t.name.toList :=
  List.mem_map_of_mem List.mem_cons_self

theorem goesBy_alias {t : TableRef} {a : String} (h : t.aliasName = some a) : t.GoesBy a.toList :=
  List.mem_map_of_mem (by simp [Lookup.labels, h])

theorem goesBy_reference (t : TableRef) : t.GoesBy t.reference.toList := by
  rw [reference]
  cases h : t.aliasName with
  | none => exact t.goesBy_name
  | some a =>
    by_cases ha : a = ""
    · simpa [nonempty?, ha] using t.goesBy_name
    · simpa [nonempty?, ha] using t.goesBy_alias h

end TableRef

/-- No later table goes by the reference of an earlier one. -/
def ReferencesApart (tables : List TableRef) : Prop :=
  tables.Pairwise fun t u => ¬ u.GoesBy t.reference.toList

theorem NamesApart.referencesApart {ts : List TableRef} (h : NamesApart ts) : ReferencesApart ts :=
  h.imp fun {t _} htu => htu _ t.goesBy_reference

theorem ReferencesApart.lastNamed?_eq {ts : List TableRef} (h : ReferencesApart ts) {t : TableRef}
    (ht : t ∈ ts) : lastNamed? ts t.reference.toList = some t := by
  obtain ⟨before, after, rfl⟩ := List.append_of_mem ht
  refine lastNamed?_eq_some_iff.mpr ⟨t.goesBy_reference, before, after, rfl, ?_⟩
  exact (List.pairwise_cons.mp (List.pairwise_append.mp h).2.1).1

namespace Select

/-- Every name stands for the last table that goes by it. -/
def Named (lookup : Lookup) (tables : List TableRef) : Prop :=
  ∀ name, lookup.find? name = (lastNamed? tables name).map (·.id)

theorem goesBy_newTable (id : String) (name : Text) (aliasName : Option Text) (other : Text) :
    (newTable id name aliasName).GoesBy other ↔
      lower other ∈ (Lookup.labels name aliasName).map lower := by
  cases aliasName <;> simp [TableRef.GoesBy, newTable, optionalString]

theorem Named.register {lookup : Lookup} {tables : List TableRef} (h : Named lookup tables)
    (id : String) (name : Text) (aliasName : Option Text) :
    Named (lookup.register name aliasName id) (tables ++ [newTable id name aliasName]) := by
  intro other
  rw [Lookup.find?_register, lastNamed?_append, h other]
  simp only [goesBy_newTable]
  split <;> rfl

end Select

end SqlCanvas
