import SqlCanvas.Proofs.Document.Spelling
import SqlCanvas.Proofs.Query.Writing

/-!
# Reading documents back

Each kind of model is read back from the document that was written for it.
-/

namespace SqlCanvas

open Check

variable {f : String → String}

theorem TableRef.recovers (hf : IsSpelling f) (t : TableRef) : Recovers f dump load t := by
  refine model_ok hf rfl fun given h => ?_
  rw [h.required "id" (.string t.id) rfl, h.required "name" (.string t.name) rfl,
    h.optional "alias" (fun a _ => .string a) ⟨_, rfl⟩ rfl,
    h.defaulted "selectedColumns" (.strings t.selectedColumns) rfl]
  rfl

theorem JoinCondition.recovers (hf : IsSpelling f) (c : JoinCondition) :
    Recovers f dump load c := by
  refine model_ok hf rfl fun given h => ?_
  rw [h.required "fromColumn" (.string c.fromColumn) rfl,
    h.required "toColumn" (.string c.toColumn) rfl,
      h.defaulted "operator" (.spelled c.operator.read?_spelling) rfl]
  rfl

theorem Join.recovers (hf : IsSpelling f) (j : Join) : Recovers f dump load j := by
  refine model_ok hf rfl fun given h => ?_
  rw [h.required "id" (.string j.id) rfl, h.required "fromTableId" (.string j.fromTableId) rfl,
    h.required "toTableId" (.string j.toTableId) rfl,
    h.defaulted "joinType" (.spelled j.kind.read?_spelling) rfl,
    h.defaulted "conditions" (.listOf fun c _ => c.recovers hf) rfl]
  rfl

theorem SelectedColumn.recovers (hf : IsSpelling f) (c : SelectedColumn) :
    Recovers f dump load c := by
  refine model_ok hf rfl fun given h => ?_
  rw [h.required "tableId" (.string c.tableId) rfl,
    h.required "columnName" (.string c.columnName) rfl,
    h.optional "alias" (fun a _ => .string a) ⟨_, rfl⟩ rfl,
    h.optional "aggregateFunction" (fun a _ => .spelled a.read?_spelling) ⟨_, rfl⟩ rfl,
    h.optional "expression" (fun a _ => .string a) ⟨_, rfl⟩ rfl]
  rfl

theorem GroupColumn.recovers (hf : IsSpelling f) (c : GroupColumn) : Recovers f dump load c := by
  refine model_ok hf rfl fun given h => ?_
  rw [h.optional "tableId" (fun a _ => .string a) ⟨_, rfl⟩ rfl,
    h.required "columnName" (.string c.columnName) rfl]
  rfl

theorem OrderItem.recovers (hf : IsSpelling f) (o : OrderItem) : Recovers f dump load o := by
  refine model_ok hf rfl fun given h => ?_
  rw [h.optional "tableId" (fun a _ => .string a) ⟨_, rfl⟩ rfl,
    h.required "columnName" (.string o.columnName) rfl,
      h.defaulted "direction" (.spelled o.direction.read?_spelling) rfl]
  rfl

/-- The value is written as itself: dates and times would come back as strings. -/
def Scalar.Portable : Scalar → Prop
  | .date _ | .moment _ | .clock _ => False
  | _ => True

def FilterValue.Portable : FilterValue → Prop
  | .scalar x => x.Portable
  | .list xs => ∀ x ∈ xs, x.Portable

structure FilterCondition.Portable (c : FilterCondition) : Prop where
  value : c.value.Portable
  value2 : c.value2.Portable

theorem Scalar.recovers {x : Scalar} (h : x.Portable) : Recovers f dump load x := by
  cases x with
  | date | moment | clock => cases h
  | _ => rfl

theorem FilterValue.load_list {ds : List Datum} {xs : List Scalar}
    (h : Check.list Scalar.load (.list ds) = .ok xs) : load (.list ds) = .ok (.list xs) := by
  simp only [load, h, Checked.under_ok]

theorem FilterValue.recovers {v : FilterValue} (h : v.Portable) : Recovers f dump load v := by
  cases v with
  | scalar x =>
    cases x with
    | date | moment | clock => cases h
    | _ => rfl
  | list xs =>
    have items : Recovers f (Datum.listOf Scalar.dump) (Check.list Scalar.load) xs :=
      .listOf fun x hx => x.recovers (h x hx)
    rw [Recovers, Datum.listOf, Datum.respelled_list] at items
    rw [Recovers, dump, Datum.listOf, Datum.respelled_list]
    exact load_list items

theorem FilterCondition.recovers (hf : IsSpelling f) {c : FilterCondition} (hc : c.Portable) :
    Recovers f dump load c := by
  have kind : Recovers f (fun _ => Datum.string "condition") (literal "condition") () := rfl
  refine model_ok hf rfl fun given h => ?_
  rw [ofFields, h.defaulted "kind" kind rfl,
    h.optional "tableId" (fun a _ => .string a) ⟨_, rfl⟩ rfl,
    h.required "column" (.string c.column) rfl,
    h.defaulted "operator" (.spelled c.operator.read?_spelling) rfl,
    h.defaulted "value" (FilterValue.recovers hc.value) rfl,
      h.defaulted "value2" (Scalar.recovers hc.value2) rfl]
  rfl

theorem FilterGroup.ofFields_ok {g : FilterGroup} {given : Fields} (h : Fields.FoundIn f
      [("kind", Datum.string "group"), ("operator", Datum.spelled g.operator),
        ("children", Datum.listOf FilterNode.dump g.children)] given)
    (hg : ∀ n ∈ g.children, Recovers f FilterNode.dump FilterNode.load n) :
    ofFields given (fun d _ => FilterNode.load d) = .ok g := by
  have kind : Recovers f (fun _ => Datum.string "group") (literal "group") () := rfl
  change ofParts <$> _ <*> _ <*> Check.defaulted given "children" [] (Check.list FilterNode.load) =
    _
  rw [h.defaulted "kind" kind rfl, h.defaulted "operator" (.spelled g.operator.read?_spelling) rfl,
    h.defaulted "children" (.listOf hg) rfl]
  rfl

namespace FilterNode

theorem dumpAll_eq (ns : List FilterNode) : dumpAll ns = ns.map dump := by
  induction ns with
  | nil => rfl
  | cons n ns ih => rw [dumpAll, ih, List.map_cons]

theorem load_condition {given : Fields} {c : FilterCondition}
    (hkind : given.get? "kind" = some (.string "condition"))
    (hc : FilterCondition.ofFields given = .ok c) :
    load (.record given) = .ok (.condition c) := by
  rw [load, hkind]
  simp only [Datum.string, hc, Checked.map_ok, Checked.under_ok]

theorem load_group {given : Fields} {g : FilterGroup}
    (hkind : given.get? "kind" = some (.string "group"))
    (hg : FilterGroup.ofFields given (fun d _ => load d) = .ok g) :
    load (.record given) = .ok g.toNode := by
  rw [load, hkind]
  simp only [Datum.string, hg, Checked.map_ok, Checked.under_ok]

mutual

theorem recovers (hf : IsSpelling f) : (n : FilterNode) → (∀ c ∈ n.conditions, c.Portable) →
    Recovers f dump load n
  | .condition c, h => by
    have hc := FilterCondition.recovers hf (h c (List.mem_singleton_self c))
    rw [Recovers, dump, FilterCondition.dump, Datum.respelled] at *
    exact load_condition (Fields.get?_respelled (d := .string "condition") hf rfl rfl) hc
  | .group operator children, h => by
    have hchildren := recoversAll hf children h
    rw [Recovers, dump, dumpAll_eq, groupRecord, Datum.respelled]
    refine load_group (g := ⟨operator, children⟩)
      (Fields.get?_respelled (d := .string "group") hf rfl rfl) ?_
    exact FilterGroup.ofFields_ok (.respelled hf rfl) hchildren

theorem recoversAll (hf : IsSpelling f) :
    (ns : List FilterNode) → (∀ c ∈ conditionsAll ns, c.Portable) → ∀ n ∈ ns, Recovers f dump load n
  | [], _ => nofun
  | n :: ns, h => List.forall_mem_cons.mpr
    ⟨recovers hf n fun c hc => h c (List.mem_append_left _ hc),
      recoversAll hf ns fun c hc => h c (List.mem_append_right _ hc)⟩

end

end FilterNode

/-- The root of a filter is read without a look at its kind. -/
theorem FilterGroup.recovers (hf : IsSpelling f) {g : FilterGroup}
    (h : ∀ c ∈ g.toNode.conditions, c.Portable) : Recovers f dump load g := by
  have hchildren := FilterNode.recoversAll hf g.children h
  rw [Recovers, dump, toNode, FilterNode.dump, FilterNode.dumpAll_eq, groupRecord, Datum.respelled]
  exact ofFields_ok (.respelled hf rfl) hchildren

theorem GroupClause.recovers (hf : IsSpelling f) {g : GroupClause}
    (h : ∀ n ∈ g.having, ∀ c ∈ n.conditions, c.Portable) : Recovers f dump load g := by
  refine model_ok hf rfl fun given found => ?_
  rw [found.defaulted "columns" (.listOf fun c _ => c.recovers hf) rfl,
    found.optional "having" (fun n hn => n.recovers hf (h n hn)) ⟨_, FilterNode.load.eq_def _⟩ rfl]
  rfl

/-- No condition in the query, at whatever depth, holds a date or a time. -/
def Query.Portable (q : Query) : Prop :=
  ∀ r, q.Reaches r → ∀ clause, ∀ c ∈ r.conditions clause, c.Portable

theorem CommonTable.recovers (hf : IsSpelling f) {t : CommonTable Query}
    (h : Recovers f Query.dump Query.load t.query) : Recovers f dump load t := by
  refine model_ok hf rfl fun given found => ?_
  change CommonTable.mk <$> _ <*> Check.required given "query" Query.load <*> _ = _
  rw [found.required "name" (.string t.name) rfl, found.required "query" h rfl,
    found.defaulted "recursive" (.bool t.recursive) rfl]
  rfl

theorem SetBranch.recovers (hf : IsSpelling f) {b : SetBranch Query}
    (h : Recovers f Query.dump Query.load b.query) : Recovers f dump load b := by
  refine model_ok hf rfl fun given found => ?_
  change SetBranch.mk <$> _ <*> Check.required given "query" Query.load = _
  rw [found.defaulted "kind" (.spelled b.kind.read?_spelling) rfl, found.required "query" h rfl]
  rfl

namespace Query

theorem dumpTables_eq (cs : List (CommonTable Query)) :
    dumpTables cs = cs.map CommonTable.dump := by
  induction cs with
  | nil => rfl
  | cons c cs ih => rw [dumpTables, ih]; rfl

theorem dumpBranches_eq (bs : List (SetBranch Query)) :
    dumpBranches bs = bs.map SetBranch.dump := by
  induction bs with
  | nil => rfl
  | cons b bs ih => rw [dumpBranches, ih]; rfl

theorem fields_eq (q : Query) :
    q.fields = q.fieldsWith (Datum.option (Datum.listOf CommonTable.dump) q.ctes)
      (Datum.option (Datum.listOf SetBranch.dump) q.unions) := by
  obtain ⟨_, _, _, _, _, _, _, _, _, _, _, ctes, unions⟩ := q
  rw [fields]
  congr 1
  · cases ctes with
    | none => rfl
    | some cs => rw [dumpTables?, dumpTables_eq]; rfl
  · cases unions with
    | none => rfl
    | some bs => rw [dumpBranches?, dumpBranches_eq]; rfl

theorem load_record (given : Fields) :
    load (.record given) = .mk <$> Check.optional given "name" Check.string <*>
      Check.optional given "description" Check.string <*>
      Check.defaulted given "tables" [] (Check.list TableRef.load) <*>
      Check.defaulted given "joins" [] (Check.list Join.load) <*>
      Check.defaulted given "selectedColumns" [] (Check.list SelectedColumn.load) <*>
      Check.optional given "filters" FilterGroup.load <*> Check.optional given "groupBy"
        GroupClause.load <*>
      Check.optional given "orderBy" (Check.list OrderItem.load) <*>
      Check.optional given "limit" Check.rowCount <*> Check.optional given "offset"
        Check.rowCount <*>
      Check.defaulted given "distinct" false Check.bool <*>
      Check.optional given "ctes" (Check.list CommonTable.load) <*>
      Check.optional given "unions" (Check.list SetBranch.load) := by
  rw [load]
  rfl

theorem load_of_foundIn (hf : IsSpelling f) {q : Query} {given : Fields}
    (found : Fields.FoundIn f q.fields given) (own : ∀ clause, ∀ c ∈ q.conditions clause,
      c.Portable)
    (held : ∀ r, q.Holds r → Recovers f dump load r) : load (.record given) = .ok q := by
  have filters (g : FilterGroup) (hg : g ∈ q.filters) :
      Recovers f FilterGroup.dump FilterGroup.load g := by
    refine g.recovers hf fun c hc => own .where c ?_
    rwa [conditions, Option.mem_def.mp hg]
  have groupBy (g : GroupClause) (hg : g ∈ q.groupBy) :
      Recovers f GroupClause.dump GroupClause.load g := by
    refine g.recovers hf fun n hn c hc => own .having c ?_
    rwa [conditions, Option.mem_def.mp hg, Option.bind_some, Option.mem_def.mp hn]
  have ctes (cs : List (CommonTable Query)) (hcs : cs ∈ q.ctes) :
      Recovers f (Datum.listOf CommonTable.dump) (Check.list CommonTable.load) cs :=
    .listOf fun c hc => CommonTable.recovers hf (held _ (.commonTable hcs hc))
  have unions (bs : List (SetBranch Query)) (hbs : bs ∈ q.unions) :
      Recovers f (Datum.listOf SetBranch.dump) (Check.list SetBranch.load) bs :=
    .listOf fun b hb => SetBranch.recovers hf (held _ (.branch hbs hb))
  rw [fields_eq] at found
  rw [load_record, found.optional "name" (fun a _ => .string a) ⟨_, rfl⟩ rfl,
    found.optional "description" (fun a _ => .string a) ⟨_, rfl⟩ rfl,
    found.defaulted "tables" (.listOf fun t _ => t.recovers hf) rfl,
    found.defaulted "joins" (.listOf fun j _ => j.recovers hf) rfl,
    found.defaulted "selectedColumns" (.listOf fun c _ => c.recovers hf) rfl,
    found.optional "filters" filters ⟨_, rfl⟩ rfl, found.optional "groupBy" groupBy ⟨_, rfl⟩ rfl,
    found.optional "orderBy" (fun _ _ => .listOf fun o _ => o.recovers hf) ⟨_, rfl⟩ rfl,
    found.optional "limit" (fun n _ => .rowCount n) ⟨_, rfl⟩ rfl,
    found.optional "offset" (fun n _ => .rowCount n) ⟨_, rfl⟩ rfl,
    found.defaulted "distinct" (.bool q.distinct) rfl, found.optional "ctes" ctes ⟨_, rfl⟩ rfl,
    found.optional "unions" unions ⟨_, rfl⟩ rfl]
  cases q
  rfl

theorem Portable.of_holds {q r : Query} (h : q.Portable) (hr : q.Holds r) : r.Portable :=
  fun s hs => h s (.head hr hs)

theorem recovers (hf : IsSpelling f) {q : Query} (h : q.Portable) : Recovers f dump load q := by
  induction q using nestedInduction with
  | step q ih =>
    rw [Recovers, dump, Datum.respelled]
    refine load_of_foundIn hf (.respelled hf ?_) (h q .refl) fun r hr => ih r hr (h.of_holds hr)
    rw [fields_eq]
    rfl

end Query

/-- The document of a statement is read as its query: what it holds besides is ignored. -/
theorem Statement.load_respelled (hf : IsSpelling f) {s : Statement} (h : s.query.Portable) :
    Query.load (s.dump.respelled f) = .ok s.query := by
  rw [dump, Datum.respelled]
  refine Query.load_of_foundIn hf (.of_append (.respelled hf ?_)) (h s.query .refl) fun r hr =>
    Query.recovers hf (h.of_holds hr)
  rw [Query.fields_eq]
  rfl

end SqlCanvas
