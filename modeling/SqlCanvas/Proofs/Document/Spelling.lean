import Mathlib.Data.List.Find
import Mathlib.Data.List.Nodup
import SqlCanvas.Document.Dump
import SqlCanvas.Document.Load

/-!
# Documents in other spellings

The fields of a document may go by their names or by their names with underscores. A reader looks
for both, so it finds the same fields in a document under any spelling, as long as no two names
share one. The lemmas on readers say that each reads back what was written, whatever the spelling.
-/

namespace SqlCanvas

/-- A name is spelled as it is or with underscores. -/
def IsSpelling (f : String → String) : Prop :=
  ∀ name, f name = name ∨ f name = underscored name

theorem isSpelling_id : IsSpelling id :=
  fun _ => .inl rfl

theorem isSpelling_underscored : IsSpelling underscored :=
  fun _ => .inr rfl

/-- The names of all fields of the kinds of models that hold a query. -/
def fieldNames : List String :=
  ["name", "description", "tables", "joins", "selectedColumns", "filters", "groupBy", "orderBy",
    "limit", "offset", "distinct", "ctes", "unions", "id", "alias", "fromColumn", "toColumn",
    "operator", "fromTableId", "toTableId", "joinType", "conditions", "kind", "tableId", "column",
    "value", "value2", "children", "columnName", "aggregateFunction", "expression", "columns",
    "having", "direction", "query", "recursive", "statementType", "insertInto", "updateTable",
    "deleteFrom", "createTable", "alterTable", "dropTable", "truncateTable"]

theorem underscored_of_underscored :
    ∀ name ∈ fieldNames, underscored (underscored name) = underscored name := by
  decide +kernel

theorem nodup_underscored : (fieldNames.map underscored).Nodup := by
  decide +kernel

theorem IsSpelling.eq_of_underscored {name other : String} (hn : name ∈ fieldNames)
    (ho : other ∈ fieldNames) (h : underscored name = underscored other) : name = other :=
  List.inj_on_of_nodup_map nodup_underscored hn ho h

namespace Datum

mutual

/-- The names of the fields replaced, at every depth. -/
def respelled (f : String → String) : Datum → Datum
  | .scalar x => .scalar x
  | .list items => .list (respelledAll f items)
  | .record fields => .record (respelledFields f fields)

def respelledAll (f : String → String) : List Datum → List Datum
  | [] => []
  | d :: ds => d.respelled f :: respelledAll f ds

def respelledFields (f : String → String) : Fields → Fields
  | [] => []
  | (name, d) :: fields => (f name, d.respelled f) :: respelledFields f fields

end

@[simp] theorem respelled_scalar (f : String → String) (x : Scalar) :
    (scalar x).respelled f = .scalar x := rfl

theorem respelledAll_eq (f : String → String) (ds : List Datum) :
    respelledAll f ds = ds.map (·.respelled f) := by
  induction ds with
  | nil => rfl
  | cons d ds ih => rw [respelledAll, ih, List.map_cons]

theorem respelledFields_eq (f : String → String) (fields : Fields) :
    respelledFields f fields = fields.map fun p => (f p.1, p.2.respelled f) := by
  induction fields with
  | nil => rfl
  | cons p fields ih => rw [respelledFields, ih, List.map_cons]

theorem respelled_list (f : String → String) (ds : List Datum) :
    (list ds).respelled f = .list (ds.map (·.respelled f)) := by
  rw [respelled, respelledAll_eq]

mutual

theorem respelled_id : (d : Datum) → d.respelled id = d
  | .scalar x => rfl
  | .list items => by rw [respelled, respelledAll_id items]
  | .record fields => by rw [respelled, respelledFields_id fields]

theorem respelledAll_id : (ds : List Datum) → respelledAll id ds = ds
  | [] => rfl
  | d :: ds => by rw [respelledAll, respelled_id d, respelledAll_id ds]

theorem respelledFields_id : (fields : Fields) → respelledFields id fields = fields
  | [] => rfl
  | (name, d) :: fields => by rw [respelledFields, respelled_id d, respelledFields_id fields]; rfl

end

end Datum

namespace Fields

/-- All fields go by known names. -/
def Known (fields : Fields) : Prop :=
  (fields.all fun p => decide (p.1 ∈ fieldNames)) = true

variable {f : String → String} {fields : Fields} {name : String} {d : Datum}

theorem Known.mem (h : fields.Known) {p : String × Datum} (hp : p ∈ fields) : p.1 ∈ fieldNames :=
  of_decide_eq_true (List.all_eq_true.mp h p hp)

theorem Known.of_lookup? (h : fields.Known) (hd : fields.lookup? name = some d) :
    name ∈ fieldNames := by
  obtain ⟨p, hp, rfl⟩ := Option.map_eq_some_iff.mp hd
  have same : p.1 = name := by simpa using List.find?_some hp
  exact same ▸ h.mem (List.mem_of_find?_eq_some hp)

/-- A name that stands for the wanted one under the spelling finds its field, and any other finds
none. -/
theorem lookup?_respelled (hf : IsSpelling f) (h : fields.Known) (hn : name ∈ fieldNames)
    {spelling : String} (hs : underscored spelling = underscored name) :
    lookup? (Datum.respelledFields f fields) spelling =
      if f name = spelling then (fields.lookup? name).map (·.respelled f) else none := by
  have spelled (p : String × Datum) (hp : p ∈ fields) : f p.1 = spelling ↔
      p.1 = name ∧ f name = spelling := by
    constructor
    · intro hspelling
      have : underscored p.1 = underscored name := by
        rw [← hs, ← hspelling]
        rcases hf p.1 with h' | h' <;> rw [h']
        exact (underscored_of_underscored p.1 (h.mem hp)).symm
      obtain rfl := IsSpelling.eq_of_underscored (h.mem hp) hn this
      exact ⟨rfl, hspelling⟩
    · rintro ⟨rfl, hname⟩
      exact hname
  rw [Datum.respelledFields_eq, lookup?, List.find?_map, Option.map_map]
  split
  · rename_i hname
    rw [lookup?, Option.map_map]
    refine congrArg _ (List.find?_congr fun p hp => ?_)
    simp [spelled p hp, hname]
  · rename_i hname
    rw [List.find?_eq_none.mpr fun p hp => ?_]
    · rfl
    · simp [spelled p hp, hname]

theorem get?_respelled (hf : IsSpelling f) (h : fields.Known) (hd : fields.lookup? name = some d) :
    get? (Datum.respelledFields f fields) name = some (d.respelled f) := by
  have hn := h.of_lookup? hd
  rw [get?, lookup?_respelled hf h hn rfl,
    lookup?_respelled hf h hn (underscored_of_underscored name hn), hd]
  rcases hf name with hname | hname
  · rw [if_pos hname]
    rfl
  · rw [if_pos hname]
    split <;> rfl

end Fields

namespace Check

variable {α : Type} {fields : Fields} {name : String} {d : Datum} {a : α}

theorem required_ok {load : Datum → Checked α} (hd : fields.get? name = some d)
    (ha : load d = .ok a) : required fields name load = .ok a := by
  rw [required, requiredBy]
  split
  · rename_i found hfound
    obtain rfl := Option.some.inj (hd.symm.trans hfound)
    rw [ha, Checked.under_ok]
  · rename_i hnone
    cases hnone.symm.trans hd

theorem defaulted_ok {load : Datum → Checked α} (default : α) (hd : fields.get? name = some d)
    (ha : load d = .ok a) : defaulted fields name default load = .ok a := by
  rw [defaulted, defaultedBy]
  split
  · rename_i found hfound
    obtain rfl := Option.some.inj (hd.symm.trans hfound)
    rw [ha, Checked.under_ok]
  · rename_i hnone
    cases hnone.symm.trans hd

/-- Null is refused where a value is asked for. -/
def RefusesNull (load : Datum → Checked α) : Prop :=
  ∃ faults, load .null = .faulty faults

theorem nullable_ok {load : Datum → Checked α} (hnull : RefusesNull load) (ha : load d = .ok a) :
    nullable load d = .ok (some a) := by
  rw [nullable, nullableBy.eq_def]
  split
  · obtain ⟨faults, hnull⟩ := hnull
    cases ha.symm.trans hnull
  · rw [ha, Checked.map_ok]

theorem items_ok {load : Datum → Checked α} {write : α → Datum} {xs : List α}
    (h : ∀ x ∈ xs, load (write x) = .ok x) (index : Nat) :
    items index (xs.map write) (fun d _ => load d) = .ok xs := by
  induction xs generalizing index with
  | nil => rfl
  | cons x xs ih =>
    obtain ⟨hx, hxs⟩ := List.forall_mem_cons.mp h
    change List.cons <$> (load (write x)).under (toString index) <*>
      items (index + 1) (xs.map write) (fun d _ => load d) = _
    rw [hx, ih hxs]
    rfl

end Check

/-- A reader gives back what was written, under the spelling. -/
def Recovers {α : Type} (f : String → String) (write : α → Datum) (load : Datum → Checked α)
    (x : α) : Prop :=
  load ((write x).respelled f) = .ok x

namespace Recovers

open Check

variable {α : Type} {f : String → String} {write : α → Datum} {load : Datum → Checked α}

theorem listOf {xs : List α} (h : ∀ x ∈ xs, Recovers f write load x) :
    Recovers f (Datum.listOf write) (Check.list load) xs := by
  rw [Recovers, Datum.listOf, Datum.respelled_list, List.map_map]
  exact items_ok h 0

theorem option {x : Option α} (hnull : RefusesNull load) (h : ∀ a ∈ x, Recovers f write load a) :
    Recovers f (Datum.option write) (nullable load) x := by
  cases x with
  | none => rfl
  | some a => exact nullable_ok hnull (h a rfl)

theorem string (s : String) : Recovers f Datum.string Check.string s := rfl

theorem strings (ss : List String) : Recovers f Datum.strings (Check.list Check.string) ss :=
  listOf fun s _ => string s

theorem bool (b : Bool) : Recovers f Datum.bool Check.bool b := rfl

theorem rowCount (n : Nat) : Recovers f (fun n : Nat => Datum.int n) Check.rowCount n := by
  change notNegative (.ok (n : Int)) = .ok n
  rw [notNegative, if_pos (Int.natCast_nonneg n), Int.toNat_natCast]

theorem spelled [Vocabulary α] {a : α} (h : Vocabulary.read? (Vocabulary.spelling a) = some a) :
    Recovers f Datum.spelled (Check.spelled α) a := by
  simp only [Recovers, Datum.spelled, Datum.string, Datum.respelled_scalar, Check.spelled, h]

end Recovers

/-- The fields are found in what was given for them. -/
structure Fields.FoundIn (f : String → String) (fields given : Fields) : Prop where
  get? : ∀ {name d}, fields.lookup? name = some d → given.get? name = some (d.respelled f)

namespace Fields.FoundIn

variable {α : Type} {f : String → String} {fields given : Fields} {write : α → Datum}
  {load : Datum → Checked α}

theorem respelled (hf : IsSpelling f) (h : fields.Known) :
    fields.FoundIn f (Datum.respelledFields f fields) :=
  ⟨get?_respelled hf h⟩

theorem of_append {more : Fields} (h : Fields.FoundIn f (fields ++ more) given) :
    fields.FoundIn f given where
  get? hd := by
    refine h.get? ?_
    obtain ⟨p, hp, rfl⟩ := Option.map_eq_some_iff.mp hd
    rw [lookup?, List.find?_append, hp]
    rfl

theorem required (h : fields.FoundIn f given) (name : String) {x : α} (hx : Recovers f write load x)
    (hd : fields.lookup? name = some (write x)) : Check.required given name load = .ok x :=
  Check.required_ok (h.get? hd) hx

theorem defaulted (h : fields.FoundIn f given) (name : String) {default x : α}
    (hx : Recovers f write load x) (hd : fields.lookup? name = some (write x)) :
    Check.defaulted given name default load = .ok x :=
  Check.defaulted_ok default (h.get? hd) hx

theorem optional (h : fields.FoundIn f given) (name : String) {x : Option α}
    (hx : ∀ a ∈ x, Recovers f write load a) (hnull : Check.RefusesNull load)
    (hd : fields.lookup? name = some (Datum.option write x)) :
    Check.optional given name load = .ok x :=
  h.defaulted name (.option hnull hx) hd

end Fields.FoundIn

theorem Check.model_ok {α : Type} {f : String → String} {kind : String} {fields : Fields}
    {load : Fields → Checked α} {x : α} (hf : IsSpelling f) (known : fields.Known)
    (h : ∀ given, fields.FoundIn f given → load given = .ok x) :
    model kind load ((Datum.record fields).respelled f) = .ok x :=
  h _ (.respelled hf known)

end SqlCanvas
