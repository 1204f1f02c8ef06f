import Mathlib.Logic.Equiv.Basic
import SqlCanvas.Proofs.Renaming.Reading
import SqlCanvas.Proofs.Statement.Reference

/-!
# Reading with two sources of ids

The same text is read twice, each time with a source of ids of its own. Both readings ask for ids at
the same moments, so the ids given so far pair up. What has been read on one side is what has been
read on the other, under every renaming that carries the ids of the one to the ids of the other; and
as neither source repeats itself there always is one.
-/

namespace SqlCanvas

open Text

/-- The renaming takes the first id of each pair to the second. -/
structure Carries (f : String → String) (pairs : List (String × String)) :
    Prop extends Renames f where
  eq : ∀ p ∈ pairs, f p.1 = p.2

theorem exists_injective_of_nodup {pairs : List (String × String)}
    (hfst : (pairs.map Prod.fst).Nodup) (hsnd : (pairs.map Prod.snd).Nodup) :
    ∃ f : String → String, Function.Injective f ∧ ∀ p ∈ pairs, f p.1 = p.2 := by
  induction pairs with
  | nil => exact ⟨id, Function.injective_id, nofun⟩
  | cons p pairs ih =>
    obtain ⟨hp, hfst⟩ := List.nodup_cons.mp hfst
    obtain ⟨hp', hsnd⟩ := List.nodup_cons.mp hsnd
    obtain ⟨f, hf, heq⟩ := ih hfst hsnd
    -- The value that `f` has for the new id is exchanged with the one it should have.
    refine ⟨Equiv.swap (f p.1) p.2 ∘ f, (Equiv.injective _).comp hf, ?_⟩
    refine List.forall_mem_cons.mpr ⟨Equiv.swap_apply_left _ _, fun q hq => ?_⟩
    have first : f q.1 ≠ f p.1 := fun h => hp (List.mem_map.mpr ⟨q, hq, hf h⟩)
    have second : f q.1 ≠ p.2 := by
      rw [heq q hq]
      exact fun h => hp' (List.mem_map.mpr ⟨q, hq, h⟩)
    exact (Equiv.swap_apply_of_ne_of_ne first second).trans (heq q hq)

/-- What is on one side is on the other, under every renaming that carries the ids given so far. -/
def Alike {α : Type} (rename : (String → String) → α → α) (pairs : List (String × String))
    (a a' : α) : Prop :=
  ∀ f, Carries f pairs → a' = rename f a

section Carries

variable {f : String → String} {pairs more : List (String × String)}

theorem Carries.of_append (h : Carries f (pairs ++ more)) : Carries f pairs :=
  ⟨h.toRenames, fun p hp => h.eq p (List.mem_append_left _ hp)⟩

theorem Alike.append {α : Type} {rename : (String → String) → α → α} {a a' : α}
    (h : Alike rename pairs a a') (more : List (String × String)) :
    Alike rename (pairs ++ more) a a' :=
  fun f hf => h f hf.of_append

end Carries

variable {σ σ' : Type}

/-- Ids given side by side, with the empty id counted as given; neither source will repeat its
own. -/
structure Paired (ids : IdSource σ) (ids' : IdSource σ') (pairs : List (String × String)) (s : σ)
    (s' : σ') : Prop where
  left : ids.Fresh (pairs.map Prod.fst) s
  right : ids'.Fresh (pairs.map Prod.snd) s'
  empty : ("", "") ∈ pairs

variable {ids : IdSource σ} {ids' : IdSource σ'} {pairs : List (String × String)} {s : σ} {s' : σ'}

theorem Paired.start (h : ids.Fresh [""] s) (h' : ids'.Fresh [""] s') :
    Paired ids ids' [("", "")] s s' :=
  ⟨h, h', List.mem_singleton_self _⟩

theorem Paired.exists_carries (h : Paired ids ids' pairs s s') : ∃ f, Carries f pairs := by
  obtain ⟨f, hf, heq⟩ := exists_injective_of_nodup h.left.nodup h.right.nodup
  exact ⟨f, ⟨hf, heq _ h.empty⟩, heq⟩

theorem Paired.next (h : Paired ids ids' pairs s s') (stem : String) :
    Paired ids ids' (pairs ++ [((ids.next stem s).1, (ids'.next stem s').1)]) (ids.next stem s).2
      (ids'.next stem s').2 where
  left := by
    rw [List.map_append]
    exact h.left.next stem
  right := by
    rw [List.map_append]
    exact h.right.next stem
  empty := List.mem_append_left _ h.empty

/-- From paired states both readings come to paired states, with results that are alike. -/
def InStep (ids : IdSource σ) (ids' : IdSource σ') {α : Type} (rename : (String → String) → α → α)
    (pairs : List (String × String)) (x : Reading σ α) (x' : Reading σ' α) : Prop :=
  ∀ s s', Paired ids ids' pairs s s' → ∃ more,
    Paired ids ids' (pairs ++ more) (x.run s).2 (x'.run s').2 ∧
      Alike (fun f => Except.map (rename f)) (pairs ++ more) (x.run s).1 (x'.run s').1

theorem Reading.run_bind_error {α β : Type} {x : Reading σ α} {k : α → Reading σ β} {s s' : σ}
    {e : ReadError} (h : x.run s = (.error e, s')) : (x >>= k).run s = (.error e, s') := by
  change StateT.bind x.run (ExceptT.bindCont k) s = _
  rw [StateT.bind, h]
  rfl

namespace InStep

variable {α β : Type} {rename : (String → String) → α → α} {rename' : (String → String) → β → β}

theorem bind {x : Reading σ α} {x' : Reading σ' α} {k : α → Reading σ β} {k' : α → Reading σ' β}
    (hx : InStep ids ids' rename pairs x x')
    (hk : ∀ more a a', Alike rename (pairs ++ more) a a' →
      InStep ids ids' rename' (pairs ++ more) (k a) (k' a')) :
    InStep ids ids' rename' pairs (x >>= k) (x' >>= k') := by
  intro s s' h
  obtain ⟨more, paired, alike⟩ := hx s s' h
  obtain ⟨f, hf⟩ := paired.exists_carries
  cases hrun : x.run s with
  | mk result s₁ =>
    cases hrun' : x'.run s' with
    | mk result' s₁' =>
      rw [hrun, hrun'] at paired alike
      -- Both sides fail with the same error, or both go on from results that are alike.
      cases result with
      | error e =>
        obtain rfl : result' = .error e := alike f hf
        refine ⟨more, ?_, fun _ _ => ?_⟩
        · rwa [Reading.run_bind_error hrun, Reading.run_bind_error hrun']
        · rw [Reading.run_bind_error hrun, Reading.run_bind_error hrun']
          rfl
      | ok a =>
        obtain rfl : result' = .ok (rename f a) := alike f hf
        have values : Alike rename (pairs ++ more) a (rename f a) :=
          fun g hg => Except.ok.inj (alike g hg)
        obtain ⟨further, paired', alike'⟩ := hk more a _ values s₁ s₁' paired
        rw [List.append_assoc] at paired' alike'
        refine ⟨more ++ further, ?_, ?_⟩
        · rwa [Reading.run_bind_ok hrun, Reading.run_bind_ok hrun']
        · rwa [Reading.run_bind_ok hrun, Reading.run_bind_ok hrun']

theorem ofExcept {x x' : Except ReadError α}
    (h : Alike (fun f => Except.map (rename f)) pairs x x') :
    InStep ids ids' rename pairs (Reading.ofExcept x) (Reading.ofExcept x') := by
  intro s s' paired
  rw [← List.append_nil pairs] at paired h
  exact ⟨[], paired, h⟩

theorem pure {a a' : α} (h : Alike rename pairs a a') :
    InStep ids ids' rename pairs (pure a) (pure a') := by
  change InStep ids ids' rename pairs (Reading.ofExcept (.ok a)) (Reading.ofExcept (.ok a'))
  exact ofExcept fun f hf => congrArg Except.ok (h f hf)

theorem nextId (stem : String) :
    InStep ids ids' (fun f => f) pairs (Reading.nextId ids stem) (Reading.nextId ids' stem) := by
  intro s s' paired
  refine ⟨_, paired.next stem, fun f hf => ?_⟩
  exact congrArg Except.ok (hf.eq _ (List.mem_append_right _ (List.mem_singleton_self _))).symm

/-- A step that does not depend on ids comes first on both sides. -/
theorem bind_same {x : Except ReadError α} {k : α → Reading σ β} {k' : α → Reading σ' β}
    (hk : ∀ a, x = .ok a → InStep ids ids' rename' pairs (k a) (k' a)) :
    InStep ids ids' rename' pairs (Reading.ofExcept x >>= k) (Reading.ofExcept x >>= k') := by
  cases x with
  | error e =>
    intro s s' paired
    rw [← List.append_nil pairs] at paired
    exact ⟨[], paired, fun _ _ => rfl⟩
  | ok a => exact hk a rfl

end InStep

namespace Select

variable {f : String → String}

theorem Sources.add_renamed (sources : Sources) (id : String) (name : Text)
    (aliasName : Option Text) :
    (sources.renamed f).add (f id) name aliasName = (sources.add id name aliasName).renamed f := by
  simp only [add, renamed, Scope.renamed, Lookup.register_renamed, List.map_append,
    List.map_singleton]
  rfl

def Sources.link (sources : Sources) (segment : Text) (table id : String) (kind : JoinKind) :
    Sources :=
  { sources with
    joins := sources.joins ++ [{
      id := id
      fromTableId := (readOn sources.scope table segment).2.getD ""
      toTableId := table
      kind := kind
      conditions := (readOn sources.scope table segment).1 }] }

theorem Sources.link_renamed (hf : Renames f) (sources : Sources) (segment : Text)
    (table id : String) (kind : JoinKind) :
    (sources.renamed f).link segment (f table) (f id) kind =
      (sources.link segment table id kind).renamed f := by
  have on := readOn_renamed hf sources.scope table segment
  rw [link, link, show (sources.renamed f).scope = sources.scope.renamed f from rfl, on]
  simp only [renamed, hf.getD_map, List.map_append, List.map_singleton]
  rfl

def kindOf (o : Occurrence) : Except ReadError JoinKind :=
  match o.capture? 1 with
  | some keyword => readKeyword "Join" "join_type" keyword
  | none => .ok .inner

theorem readTable_eq (sources : Sources) (name : Text) (aliasName : Option Text) :
    readTable ids sources name aliasName = (do
      let id ← Reading.nextId ids "table"
      return (id, sources.add id name aliasName)) := rfl

theorem readJoin_eq (sources : Sources) (o : Occurrence) (segment : Text) :
    readJoin ids sources o segment = (do
      let added ← readTable ids sources (o.captured 2) (o.capture? 3)
      let id ← Reading.nextId ids "join"
      let kind ← Reading.ofExcept (kindOf o)
      return added.2.link segment added.1 id kind) := rfl

variable {sources sources' : Sources}

theorem inStep_readTable (h : Alike Sources.renamed pairs sources sources') (name : Text)
    (aliasName : Option Text) :
    InStep ids ids' (fun f added => (f added.1, added.2.renamed f)) pairs
      (readTable ids sources name aliasName) (readTable ids' sources' name aliasName) := by
  rw [readTable_eq, readTable_eq]
  refine (InStep.nextId "table").bind fun more id id' hid => .pure fun f hf => ?_
  rw [hid f hf, h.append more f hf, Sources.add_renamed]

theorem inStep_readJoin (h : Alike Sources.renamed pairs sources sources') (o : Occurrence)
    (segment : Text) : InStep ids ids' Sources.renamed pairs (readJoin ids sources o segment)
      (readJoin ids' sources' o segment) := by
  rw [readJoin_eq, readJoin_eq]
  refine (inStep_readTable h _ _).bind fun _ added added' hadded => ?_
  refine (InStep.nextId "join").bind fun more id id' hid => ?_
  refine .bind_same fun kind _ => .pure fun f hf => ?_
  rw [hid f hf, hadded.append more f hf]
  exact Sources.link_renamed hf.toRenames added.2 segment added.1 id kind

theorem inStep_readJoins (h : Alike Sources.renamed pairs sources sources')
    (segments : List (Occurrence × Text)) :
    InStep ids ids' Sources.renamed pairs (readJoins ids sources segments)
      (readJoins ids' sources' segments) := by
  induction segments generalizing sources sources' pairs with
  | nil => exact .pure h
  | cons x segments ih =>
    exact (inStep_readJoin h x.1 x.2).bind fun _ _ _ hnext => ih hnext

theorem inStep_readAnchor (o : Option Occurrence) :
    InStep ids ids' Sources.renamed pairs (readAnchor ids o) (readAnchor ids' o) := by
  have start : Alike Sources.renamed pairs ⟨[], [], .empty⟩ ⟨[], [], .empty⟩ := fun _ _ => rfl
  cases o with
  | none => exact .pure start
  | some o =>
    refine (inStep_readTable start _ _).bind fun _ added added' hadded => .pure fun f hf => ?_
    rw [hadded f hf]
    rfl

theorem inStep_read (t : Text) :
    InStep ids ids' (fun f q => q.renamed f f) pairs (read ids t) (read ids' t) := by
  refine (inStep_readAnchor _).bind fun _ _ _ hanchor => ?_
  refine (inStep_readJoins hanchor _).bind fun _ sources sources' hjoins => .ofExcept fun f hf => ?_
  rw [hjoins f hf, readRest_renamed hf.toRenames]

end Select

def Statement.renamed (f : String → String) (statement : Statement) : Statement :=
  { statement with query := statement.query.renamed f f }

namespace Change

variable {f : String → String}

theorem renamed_of_readFilter? {t : Option Text} {filter : Option FilterGroup}
    (h : readFilter? t = .ok filter) : filter.map (·.renamed f) = filter := by
  rw [readFilter?.eq_def] at h
  split at h
  · rename_i c t
    have same : Filter.read .empty (c :: t) = (Filter.read .empty (c :: t)).map (·.renamed f) :=
      Filter.read_renamed .empty (c :: t)
    obtain ⟨group, hgroup, h⟩ := exists_of_bind_eq_ok h
    cases h
    rw [hgroup] at same
    exact congrArg some (Except.ok.inj same).symm
  · cases h
    rfl

theorem renamed_of_read {kind : StatementKind} {t : Text} {statement : Statement}
    (h : read kind t = .ok statement) : statement.query.renamed f f = statement.query := by
  obtain ⟨text, filter, hread, hquery⟩ := exists_filter_of_read h
  rw [hquery, Query.renamed_eq, Query.renamedOwn, Query.recast, renamed_of_readFilter? hread]
  rfl

end Change

namespace Statement

variable {f : String → String}

theorem renamed_complete (kind : StatementKind) (ctes : List (CommonTable Query))
    (branches : List (SetBranch Query)) (q : Query) :
    (complete kind ctes branches q).renamed f f =
      complete kind (Query.renamedEach f f ctes) (Query.renamedAll f f branches)
        (q.renamed f f) := by
  rw [Query.renamed_eq, Query.renamed_eq, Query.renamedEach_eq_map, Query.renamedAll_eq_map]
  cases ctes <;> cases branches <;>
    simp [complete, Query.renamedOwn, Query.recast, Query.renamedTables, Query.renamedBranches,
      Query.renamedEach_eq_map, Query.renamedAll_eq_map]

mutual

theorem inStep_ofOutline {pairs : List (String × String)} : (outline : Outline) →
    InStep ids ids' renamed pairs (ofOutline ids outline) (ofOutline ids' outline)
  | .mk tables recursive keyword body branches => by
    rw [ofOutline, ofOutline]
    refine (inStep_readTables recursive tables).bind fun _ ctes ctes' hctes => ?_
    refine .bind_same fun kind _ => ?_
    split
    · refine (Select.inStep_read body).bind fun more own own' hown => ?_
      refine (inStep_readBranches branches).bind fun further unions unions' hunions =>
        .pure fun f hf => ?_
      rw [hunions f hf, hown.append further f hf, (hctes.append more).append further f hf]
      exact congrArg (ofQuery .select) (renamed_complete .select ctes unions own).symm
    · refine .bind_same fun statement hchange => .pure fun f hf => ?_
      rw [hctes f hf, renamed, renamed_complete, Change.renamed_of_read hchange]
      rfl

theorem inStep_readTables {pairs : List (String × String)} (recursive : Bool) :
    (tables : List (Text × Outline)) →
    InStep ids ids' (fun f => Query.renamedEach f f) pairs (readTables ids recursive tables)
      (readTables ids' recursive tables)
  | [] => by
    rw [readTables, readTables]
    exact .pure fun _ _ => by rw [Query.renamedEach]
  | (name, outline) :: tables => by
    rw [readTables, readTables]
    refine (inStep_ofOutline outline).bind fun _ first first' hfirst => ?_
    refine (inStep_readTables recursive tables).bind fun more rest rest' hrest =>
      .pure fun f hf => ?_
    rw [hrest f hf, hfirst.append more f hf, Query.renamedEach]
    rfl

theorem inStep_readBranches {pairs : List (String × String)} : (branches : List (Text × Outline)) →
    InStep ids ids' (fun f => Query.renamedAll f f) pairs (readBranches ids branches)
      (readBranches ids' branches)
  | [] => by
    rw [readBranches, readBranches]
    exact .pure fun _ _ => by rw [Query.renamedAll]
  | (keyword, outline) :: branches => by
    rw [readBranches, readBranches]
    refine (inStep_ofOutline outline).bind fun _ first first' hfirst => ?_
    refine .bind_same fun kind _ => ?_
    refine (inStep_readBranches branches).bind fun more rest rest' hrest => .pure fun f hf => ?_
    rw [hrest f hf, hfirst.append more f hf, Query.renamedAll]
    rfl

end

/-- Two sources that repeat no id and give none that is empty: reading comes to the same end with
both, and what is read differs by the ids alone. -/
theorem exists_renaming_of_read {ids : IdSource σ} {ids' : IdSource σ'} {s : σ} {s' : σ'}
    (h : ids.Fresh [""] s) (h' : ids'.Fresh [""] s') (sql : Text) :
    ∃ f, Renames f ∧ ((read ids' sql).run s').1 = ((read ids sql).run s).1.map (·.renamed f) := by
  obtain ⟨more, paired, alike⟩ := inStep_ofOutline (.of sql) s s' (.start h h')
  obtain ⟨f, hf⟩ := paired.exists_carries
  exact ⟨f, hf.toRenames, alike f hf⟩

/-- No finding in a query that was read names an id. -/
theorem renamed_ownFinding_of_read {ids : IdSource σ} {s s' : σ} {sql : Text}
    {statement : Statement} (hfresh : ids.Fresh [] s)
    (hread : (read ids sql).run s = (.ok statement, s')) (f : String → String)
    {q : Query} (hq : statement.query.Reaches q) {x : Finding} (hx : x ∈ q.ownFindings) :
    x.renamed f = x := by
  have nodup : (q.tables.map (·.id)).Nodup := ((sound_ofOutline ids _ hfresh hread).2 q hq).1
  rcases Query.mem_ownFindings hx with ⟨rfl, -⟩ | ⟨id, rfl⟩ | ⟨i, j, -, hx⟩ | rfl
    | ⟨clause, c, hc, hx⟩
  · rfl
  · rw [Query.duplicateTable_mem_ownFindings_iff, repeatedIds_eq_nil (by simpa using nodup)] at hx
    cases hx
  · rcases Join.mem_findings.mp hx with ⟨-, rfl⟩ | ⟨-, rfl⟩ | ⟨-, rfl⟩ <;> rfl
  · rfl
  · rcases FilterCondition.mem_findings hx with ⟨id, rfl⟩ | rfl
    · obtain ⟨-, -, hid, hunknown⟩ := FilterCondition.filterTable_mem_findings.mp hx
      rw [within_of_read hread hq clause c hc id hid] at hunknown
      cases hunknown
    · rfl

/-- Ids are opaque. Other ids for the tables of a query, and in what refers to them, change neither
its text nor the reason for which it has none. And whatever sources the ids of a statement come
from, as long as they repeat no id and give none that is empty, reading fails with the same error,
or gives queries with the same text in every dialect and the same findings. -/
theorem ids_opaque :
    (∀ (q : Query) (d : Dialect) (f : String → String), Function.Injective f →
      (q.renamed f id).sql d = q.sql d) ∧
    ∀ {σ σ' : Type} (ids : IdSource σ) (ids' : IdSource σ') (s : σ) (s' : σ'), ids.Fresh [""] s →
      ids'.Fresh [""] s' → ∀ sql : Text,
      (∃ e, ((read ids sql).run s).1 = .error e ∧ ((read ids' sql).run s').1 = .error e) ∨
      ∃ statement statement', ((read ids sql).run s).1 = .ok statement ∧
        ((read ids' sql).run s').1 = .ok statement' ∧
        (∀ d, statement'.query.sql d = statement.query.sql d) ∧
        statement'.query.findings = statement.query.findings := by
  refine ⟨fun q d f hf => q.sql_renamed_of_injective hf id d, ?_⟩
  intro σ σ' ids ids' s s' h h' sql
  obtain ⟨f, hf, same⟩ := exists_renaming_of_read h h' sql
  rw [same]
  cases hrun : (read ids sql).run s with
  | mk result s₁ =>
    cases result with
    | error e => exact .inl ⟨e, rfl, rfl⟩
    | ok statement =>
      refine .inr ⟨statement, statement.renamed f, rfl, rfl, fun d => ?_, ?_⟩
      · exact statement.query.sql_renamed_of_injective hf.injective f d
      · rw [renamed, Query.findings_renamed_of_injective hf.injective]
        exact Query.map_renamed_findings f fun q hq x hx =>
          renamed_ownFinding_of_read (h.sublist (List.nil_sublist _)) hrun f hq hx

/-- A query with a common table and a join, read with ids that are counted by stem and with ids that
are counted in common. -/
theorem counted_ids_opaque :
    ∃ statement statement',
      ((read .sequential
        "WITH c AS (SELECT a FROM t) SELECT x.a FROM c x JOIN u ON u.a = x.a".toList).run
        (.fresh 1)).1 = .ok statement ∧
      ((read .shared
        "WITH c AS (SELECT a FROM t) SELECT x.a FROM c x JOIN u ON u.a = x.a".toList).run
        1).1 = .ok statement' ∧
      (∀ d, statement'.query.sql d = statement.query.sql d) ∧
      statement'.query.findings = statement.query.findings ∧
      (statement.query.renamed ("new_" ++ ·) id).sql .postgresql =
        statement.query.sql .postgresql := by
  have readable : Readable
      "WITH c AS (SELECT a FROM t) SELECT x.a FROM c x JOIN u ON u.a = x.a".toList :=
    .of_short (by decide) (by decide)
  obtain ⟨read, s', hread, -⟩ := yields_read .sequential readable (.fresh 1)
  have prefixed : Function.Injective ("new_" ++ · : String → String) :=
    fun _ _ h => String.append_right_inj _ |>.mp h
  rcases ids_opaque.2 .sequential .shared (.fresh 1) 1 (IdSource.fresh_sequential_empty _)
      (IdSource.fresh_shared_empty 1)
      "WITH c AS (SELECT a FROM t) SELECT x.a FROM c x JOIN u ON u.a = x.a".toList with
    ⟨e, hfails, -⟩ | ⟨statement, statement', hfirst, hsecond, htext, hfindings⟩
  · rw [hread] at hfails
    cases hfails
  · exact ⟨statement, statement', hfirst, hsecond, htext, hfindings,
      ids_opaque.1 statement.query .postgresql ("new_" ++ ·) prefixed⟩

end Statement

end SqlCanvas
