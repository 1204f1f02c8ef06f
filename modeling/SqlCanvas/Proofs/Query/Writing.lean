import SqlCanvas.Proofs.Query.Places
import SqlCanvas.Proofs.Statement.Reading
import SqlCanvas.Query.Sql

/-!
# The text of a query and its parts

The parts of a query are its joins and conditions that are not left out. `StandIn` says that texts
stand in another one behind each other, so that each has a place of its own there. So do the parts
of a query and of all queries in it, in the order in which they are written. Writing fails exactly
when some query in it has no tables or holds a whole number that is too long.
-/

namespace SqlCanvas

/-- The texts stand in the whole behind each other, and none reaches into the next. -/
inductive StandIn : List String → Text → Prop
  | nil (whole : Text) : StandIn [] whole
  | cons {part : String} {parts : List String} {rest : Text} (before : Text)
    (h : StandIn parts rest) : StandIn (part :: parts) (before ++ (part.toList ++ rest))

namespace StandIn

variable {parts more : List String} {s t : Text}

theorem append_left (h : StandIn parts t) (s : Text) : StandIn parts (s ++ t) := by
  cases h with
  | nil => exact .nil _
  | cons before h =>
    rw [← List.append_assoc]
    exact .cons (s ++ before) h

theorem append (h : StandIn parts s) (h' : StandIn more t) : StandIn (parts ++ more) (s ++ t) := by
  induction h with
  | nil s => exact h'.append_left s
  | cons before _ ih =>
    rw [List.append_assoc, List.append_assoc]
    exact .cons before ih

theorem append_right (h : StandIn parts s) (t : Text) : StandIn parts (s ++ t) := by
  rw [← List.append_nil parts]
  exact h.append (.nil t)

theorem self (part : String) : StandIn [part] part.toList := by
  have alone : StandIn [part] ([] ++ part.toList ++ []) := .cons [] (.nil [])
  rwa [List.nil_append, List.append_nil] at alone

end StandIn

/-- Each line has some of the parts in it, in order. -/
inductive SpreadOver : List String → List String → Prop
  | nil : SpreadOver [] []
  | cons {parts more : List String} {line : String} {lines : List String}
    (h : StandIn parts line.toList) (hs : SpreadOver more lines) : SpreadOver (parts ++ more)
      (line :: lines)

namespace SpreadOver

variable {parts more lines others : List String}

theorem none (lines : List String) : SpreadOver [] lines := by
  induction lines with
  | nil => exact .nil
  | cons line lines ih => exact .cons (.nil _) ih

theorem self (lines : List String) : SpreadOver lines lines := by
  induction lines with
  | nil => exact .nil
  | cons line lines ih => exact .cons (.self line) ih

theorem eq_nil (h : SpreadOver parts []) : parts = [] := by
  cases h
  rfl

theorem single {line : String} (h : StandIn parts line.toList) : SpreadOver parts [line] := by
  rw [← List.append_nil parts]
  exact .cons h .nil

/-- A line without parts may stand in front. -/
theorem cons_none (line : String) (h : SpreadOver parts lines) : SpreadOver parts (line :: lines) :=
  have spread : SpreadOver ([] ++ parts) (line :: lines) := .cons (.nil _) h
  spread

theorem append (h : SpreadOver parts lines) (h' : SpreadOver more others) :
    SpreadOver (parts ++ more) (lines ++ others) := by
  induction h with
  | nil => exact h'
  | cons h _ ih =>
    rw [List.append_assoc]
    exact .cons h ih

theorem intercalate (h : SpreadOver parts lines) (separator : String) :
    StandIn parts (separator.intercalate lines).toList := by
  induction h with
  | nil => exact .nil _
  | @cons parts more line lines h hs ih =>
    cases lines with
    | nil =>
      cases hs
      rw [List.append_nil, String.intercalate_singleton]
      exact h
    | cons other lines =>
      rw [String.intercalate_cons_cons, String.toList_append, String.toList_append]
      exact (h.append_right _).append ih

/-- A line may be led in by a keyword. -/
theorem map_toList {line : Option String} (h : SpreadOver parts line.toList) (lead : String) :
    SpreadOver parts (line.map (lead ++ ·)).toList := by
  cases line with
  | none => exact h
  | some line =>
    have whole := h.intercalate ""
    rw [Option.toList_some, String.intercalate_singleton] at whole
    refine .single ?_
    rw [String.toList_append]
    exact whole.append_left _

end SpreadOver

namespace FilterNode

variable {tables : List TableRef}

/-- The texts of the conditions that are not left out. -/
def parts (tables : List TableRef) (n : FilterNode) : List String :=
  n.conditions.filterMap (·.sql? tables)

theorem spreadOver_joinParts? {parts lines : List String} (h : SpreadOver parts lines)
    (operator : Connective) : SpreadOver parts (joinParts? operator lines).toList := by
  cases lines with
  | nil =>
    cases h
    exact .nil
  | cons line lines => exact .single (h.intercalate _)

theorem spreadOver_partsSql (tables : List TableRef) : (nodes : List FilterNode) →
    SpreadOver ((conditionsAll nodes).filterMap (·.sql? tables)) (partsSql tables nodes)
  | [] => by
    rw [partsSql]
    exact .nil
  | .condition c :: nodes => by
    rw [partsSql, conditionsAll, conditions, List.singleton_append, ← List.singleton_append,
      List.filterMap_append]
    refine .append ?_ (spreadOver_partsSql tables nodes)
    cases h : c.sql? tables with
    | none => simpa [h] using .nil
    | some s => simpa [h] using .self [s]
  | .group operator children :: nodes => by
    rw [partsSql, conditionsAll, conditions, List.filterMap_append]
    refine .append ?_ (spreadOver_partsSql tables nodes)
    have inner := spreadOver_joinParts? (spreadOver_partsSql tables children) operator
    -- The parentheses stand around the text of a group that is not left out.
    cases h : joinParts? operator (partsSql tables children) with
    | none =>
      rw [h] at inner
      exact inner
    | some s =>
      rw [h] at inner
      have whole := inner.intercalate ""
      rw [Option.toList_some, String.intercalate_singleton] at whole
      refine .single ?_
      rw [String.toList_append, String.toList_append]
      exact (whole.append_left _).append_right _

theorem spreadOver_sql? (tables : List TableRef) (n : FilterNode) :
    SpreadOver (n.parts tables) (n.sql? tables).toList := by
  cases n with
  | condition c =>
    rw [parts, conditions, sql?]
    cases h : c.sql? tables with
    | none => simpa [h] using .nil
    | some s => simpa [h] using .self [s]
  | group operator children =>
    rw [parts, conditions, sql?]
    exact spreadOver_joinParts? (spreadOver_partsSql tables children) operator

end FilterNode

namespace Query

def conditions (q : Query) : FilterClause → List FilterCondition
  | .where => (q.filters.map (·.toNode.conditions)).getD []
  | .having => ((q.groupBy.bind (·.having)).map (·.conditions)).getD []

/-- The texts of the joins and conditions of a query by itself, without those that are left out. -/
def ownParts (q : Query) : List String :=
  q.joins.filterMap (·.sql? q.tables) ++
    ((q.conditions .where).filterMap (·.sql? q.tables) ++
      (q.conditions .having).filterMap (·.sql? q.tables))

theorem spreadOver_whereLine (q : Query) :
    SpreadOver ((q.conditions .where).filterMap (·.sql? q.tables)) q.whereLine := by
  rw [whereLine, conditions]
  cases q.filters with
  | none => exact .nil
  | some g => exact (g.toNode.spreadOver_sql? q.tables).map_toList "WHERE "

theorem spreadOver_groupLines (q : Query) :
    SpreadOver ((q.conditions .having).filterMap (·.sql? q.tables)) q.groupLines := by
  rw [groupLines, conditions]
  cases q.groupBy with
  | none => exact .nil
  | some g =>
    obtain ⟨columns, having⟩ := g
    have columns (ls : List String) : SpreadOver [] ls := .none ls
    refine (columns _).append ?_
    cases having with
    | none => exact .nil
    | some n => exact (n.spreadOver_sql? q.tables).map_toList "HAVING "

theorem spreadOver_ownLines (q : Query) (d : Dialect) (anchor : TableRef) :
    SpreadOver q.ownParts (q.ownLines d anchor) := by
  have joins : SpreadOver (q.joins.filterMap (·.sql? q.tables)) _ :=
    (SpreadOver.none [q.selectLine, "FROM " ++ anchor.sql]).append (.self _)
  have filters := (joins.append q.spreadOver_whereLine).append q.spreadOver_groupLines
  have limited := (filters.append (.none q.orderLine)).append (.none (q.limitLine d))
  rw [List.append_nil, List.append_nil, List.append_assoc] at limited
  exact limited

mutual

/-- The parts of a query and of all queries that it holds, in the order in which they are
written. -/
def parts : Query → List String
  | q@⟨_, _, _, _, _, _, _, _, _, _, _, ctes, unions⟩ =>
    optionalTableParts ctes ++ q.ownParts ++ optionalBranchParts unions

def optionalTableParts : Option (List (CommonTable Query)) → List String
  | none => []
  | some ctes => tableParts ctes

def tableParts : List (CommonTable Query) → List String
  | [] => []
  | ⟨_, query, _⟩ :: ctes => query.parts ++ tableParts ctes

def optionalBranchParts : Option (List (SetBranch Query)) → List String
  | none => []
  | some unions => branchParts unions

def branchParts : List (SetBranch Query) → List String
  | [] => []
  | ⟨_, query⟩ :: branches => query.parts ++ branchParts branches

end

theorem parts_eq (q : Query) :
    q.parts = optionalTableParts q.ctes ++ q.ownParts ++ optionalBranchParts q.unions := by
  cases q
  rfl

theorem tablePlaces_parts {ctes : List (CommonTable Query)}
    (h : ∀ c ∈ ctes, c.query.parts.Perm (c.query.places.flatMap (·.query.ownParts))) :
    (tableParts ctes).Perm ((tablePlaces ctes).flatMap (·.query.ownParts)) := by
  induction ctes with
  | nil => exact .nil
  | cons c ctes ih =>
    obtain ⟨hc, hctes⟩ := List.forall_mem_cons.mp h
    rw [tableParts, tablePlaces, List.flatMap_append, List.flatMap_map]
    exact hc.append (ih hctes)

theorem branchPlaces_parts {index : Nat} {branches : List (SetBranch Query)}
    (h : ∀ b ∈ branches, b.query.parts.Perm (b.query.places.flatMap (·.query.ownParts))) :
    (branchParts branches).Perm ((branchPlaces index branches).flatMap (·.query.ownParts)) := by
  induction branches generalizing index with
  | nil => exact .nil
  | cons b branches ih =>
    obtain ⟨hb, hbranches⟩ := List.forall_mem_cons.mp h
    rw [branchParts, branchPlaces, List.flatMap_append, List.flatMap_map]
    exact hb.append (ih hbranches)

/-- Every place of a query contributes its own parts, once. -/
theorem parts_perm (q : Query) : q.parts.Perm (q.places.flatMap (·.query.ownParts)) := by
  induction q using nestedInduction with
  | step q ih =>
    have tables : (optionalTableParts q.ctes).Perm
        ((optionalTablePlaces q.ctes).flatMap (·.query.ownParts)) := by
      cases hc : q.ctes with
      | none => exact .nil
      | some ctes => exact tablePlaces_parts fun c hmem => ih _ (.commonTable hc hmem)
    have branches : (optionalBranchParts q.unions).Perm
        ((optionalBranchPlaces q.unions).flatMap (·.query.ownParts)) := by
      cases hu : q.unions with
      | none => exact .nil
      | some unions => exact branchPlaces_parts fun b hmem => ih _ (.branch hu hmem)
    rw [parts_eq, places_eq, List.flatMap_cons, List.flatMap_append, ← List.append_assoc]
    exact (List.perm_append_comm.trans (.append_left _ tables)).append branches

theorem sql_eq (q : Query) (d : Dialect) :
    q.sql d =
      match q.tables with
      | [] => .error .noTables
      | anchor :: _ => do
        let withLine ← optionalTables d q.ctes
        let ownLines ← writing (q.numerals d) (q.ownLines d anchor)
        let branchLines ← optionalBranches d q.unions
        return "\n".intercalate (withLine ++ ownLines ++ branchLines) := by
  obtain ⟨_, _, tables, _, _, _, _, _, _, _, _, _, _⟩ := q
  cases tables <;> rfl

/-- The text of a query with a table and without a number that is too long. -/
theorem sql_of_writable {q : Query} {d : Dialect} {anchor : TableRef} {others : List TableRef}
    (htables : q.tables = anchor :: others) (h : ∀ n ∈ q.numerals d, Numeral.IsWritable n) :
    q.sql d = do
      let withLine ← optionalTables d q.ctes
      let branchLines ← optionalBranches d q.unions
      return "\n".intercalate (withLine ++ q.ownLines d anchor ++ branchLines) := by
  rw [sql_eq, htables]
  simp only [writing_of_forall h]
  rfl

theorem sql_of_own {q : Query} {d : Dialect} {anchor : TableRef} {others : List TableRef}
    (htables : q.tables = anchor :: others) (hctes : q.ctes = none) (hunions : q.unions = none)
    (h : ∀ n ∈ q.numerals d, Numeral.IsWritable n) :
    q.sql d = .ok ("\n".intercalate (q.ownLines d anchor)) := by
  rw [sql_of_writable htables h, hctes, hunions, optionalTables, optionalBranches]
  change Except.ok ("\n".intercalate ([] ++ q.ownLines d anchor ++ [])) = _
  rw [List.nil_append, List.append_nil]

theorem exists_lines_of_sql {q : Query} {d : Dialect} {s : String} (h : q.sql d = .ok s) :
    ∃ anchor withLine branchLines, q.tables.head? = some anchor ∧ optionalTables d q.ctes =
      .ok withLine ∧ optionalBranches d q.unions = .ok branchLines ∧
        s = "\n".intercalate (withLine ++ q.ownLines d anchor ++ branchLines) := by
  rw [sql_eq] at h
  cases ht : q.tables with
  | nil => simp [ht] at h
  | cons anchor rest =>
    rw [ht] at h
    obtain ⟨withLine, hwith, h⟩ := exists_of_bind_eq_ok h
    obtain ⟨ownLines, hown, h⟩ := exists_of_bind_eq_ok h
    obtain ⟨branchLines, hbranches, h⟩ := exists_of_bind_eq_ok h
    obtain ⟨-, rfl⟩ := writing_eq_ok_iff.mp hown
    exact ⟨anchor, withLine, branchLines, rfl, hwith, hbranches, (Except.ok.inj h).symm⟩

theorem spreadOver_tablesSql {d : Dialect} {ctes : List (CommonTable Query)}
    (ih : ∀ c ∈ ctes, ∀ s, c.query.sql d = .ok s → StandIn c.query.parts s.toList)
    {bodies : List String} (h : tablesSql d ctes = .ok bodies) :
    SpreadOver (tableParts ctes) bodies := by
  induction ctes generalizing bodies with
  | nil => exact .none bodies
  | cons c ctes rest =>
    obtain ⟨name, query, _⟩ := c
    obtain ⟨hc, hctes⟩ := List.forall_mem_cons.mp ih
    rw [tablesSql] at h
    obtain ⟨body, hbody, h⟩ := exists_of_bind_eq_ok h
    obtain ⟨others, hothers, h⟩ := exists_of_bind_eq_ok h
    obtain rfl := Except.ok.inj h
    refine .cons ?_ (rest hctes hothers)
    rw [commonTableSql, String.toList_append, String.toList_append]
    exact ((hc body hbody).append_left _).append_right _

theorem spreadOver_optionalTables {d : Dialect} {ctes : Option (List (CommonTable Query))}
    (ih : ∀ cs, ctes = some cs → ∀ c ∈ cs, ∀ s, c.query.sql d = .ok s →
      StandIn c.query.parts s.toList)
    {lines : List String} (h : optionalTables d ctes = .ok lines) :
    SpreadOver (optionalTableParts ctes) lines := by
  cases ctes with
  | none => exact .none lines
  | some cs =>
    rw [optionalTables] at h
    obtain ⟨bodies, hbodies, h⟩ := exists_of_bind_eq_ok h
    have spread := spreadOver_tablesSql (ih cs rfl) hbodies
    obtain rfl := Except.ok.inj h
    cases bodies with
    | nil => exact spread
    | cons body bodies =>
      refine .single ?_
      rw [String.toList_append]
      exact (spread.intercalate _).append_left _

theorem spreadOver_branchesSql {d : Dialect} {branches : List (SetBranch Query)}
    (ih : ∀ b ∈ branches, ∀ s, b.query.sql d = .ok s → StandIn b.query.parts s.toList)
    {lines : List String} (h : branchesSql d branches = .ok lines) :
    SpreadOver (branchParts branches) lines := by
  induction branches generalizing lines with
  | nil => exact .none lines
  | cons b branches rest =>
    obtain ⟨kind, query⟩ := b
    obtain ⟨hb, hbranches⟩ := List.forall_mem_cons.mp ih
    rw [branchesSql] at h
    obtain ⟨body, hbody, h⟩ := exists_of_bind_eq_ok h
    obtain ⟨others, hothers, h⟩ := exists_of_bind_eq_ok h
    obtain rfl := Except.ok.inj h
    exact .cons_none _ (.cons (hb body hbody) (rest hbranches hothers))

/-- All parts of a query stand in its text, each at its own place. -/
theorem standIn_sql {q : Query} {d : Dialect} {s : String} (h : q.sql d = .ok s) :
    StandIn q.parts s.toList := by
  induction q using nestedInduction generalizing s with
  | step q ih =>
    obtain ⟨anchor, withLine, branchLines, -, hwith, hbranches, rfl⟩ := exists_lines_of_sql h
    have tables : SpreadOver (optionalTableParts q.ctes) withLine :=
      spreadOver_optionalTables (fun cs hcs c hc s => ih _ (.commonTable hcs hc)) hwith
    have branches : SpreadOver (optionalBranchParts q.unions) branchLines := by
      cases hu : q.unions with
      | none => exact .none branchLines
      | some unions =>
        rw [hu] at hbranches
        exact spreadOver_branchesSql (fun b hb s => ih _ (.branch hu hb)) hbranches
    rw [parts_eq]
    exact ((tables.append (q.spreadOver_ownLines d anchor)).append branches).intercalate "\n"

end Query

theorem Join.sql?_ne_empty {j : Join} {tables : List TableRef} {s : String}
    (h : j.sql? tables = some s) : s ≠ "" := by
  obtain ⟨source, -, h⟩ := Option.bind_eq_some_iff.mp h
  obtain ⟨target, -, h⟩ := Option.bind_eq_some_iff.mp h
  obtain rfl := Option.some.inj h
  intro hempty
  have := congrArg String.toList hempty
  simp at this

theorem writePredicate_ne_nil (shape : PredicateShape) (column operator : Text)
    (value value2 : Datum) : writePredicate shape column operator value value2 ≠ [] := by
  cases shape <;> simp [writePredicate]

theorem FilterCondition.sql?_ne_empty {c : FilterCondition} {tables : List TableRef} {s : String}
    (h : c.sql? tables = some s) : s ≠ "" := by
  obtain ⟨column, -, rfl⟩ := Option.map_eq_some_iff.mp h
  intro hempty
  have := congrArg String.toList hempty
  rw [String.toList_ofList] at this
  exact writePredicate_ne_nil _ _ _ _ _ this

namespace Query

theorem ne_empty_of_mem_ownParts {q : Query} {part : String} (h : part ∈ q.ownParts) :
    part ≠ "" := by
  rcases List.mem_append.mp h with h | h
  · obtain ⟨j, -, hj⟩ := List.mem_filterMap.mp h
    exact Join.sql?_ne_empty hj
  · rcases List.mem_append.mp h with h | h
    · obtain ⟨c, -, hc⟩ := List.mem_filterMap.mp h
      exact FilterCondition.sql?_ne_empty hc
    · obtain ⟨c, -, hc⟩ := List.mem_filterMap.mp h
      exact FilterCondition.sql?_ne_empty hc

theorem ne_empty_of_mem_parts {q : Query} {part : String} (h : part ∈ q.parts) : part ≠ "" := by
  obtain ⟨p, -, hp⟩ := List.mem_flatMap.mp (q.parts_perm.mem_iff.mp h)
  exact ne_empty_of_mem_ownParts hp

/-- What keeps a query by itself from being written. -/
inductive Fails (q : Query) (d : Dialect) : GenerationError → Prop
  | noTables (h : q.tables = []) : Fails q d .noTables
  | numeralTooLong {n : Int} (hn : n ∈ q.numerals d) (h : ¬ Numeral.IsWritable n) :
    Fails q d .numeralTooLong

theorem exists_of_tablesSql_error {d : Dialect} {ctes : List (CommonTable Query)}
    {e : GenerationError} (h : tablesSql d ctes = .error e) :
    ∃ c ∈ ctes, c.query.sql d = .error e := by
  induction ctes with
  | nil => cases h
  | cons c ctes ih =>
    obtain ⟨name, query, _⟩ := c
    rw [tablesSql] at h
    cases hq : query.sql d with
    | error e' =>
      rw [hq] at h
      obtain rfl := Except.error.inj h
      exact ⟨_, List.mem_cons_self, hq⟩
    | ok body =>
      rw [hq] at h
      cases hr : tablesSql d ctes with
      | error e' =>
        rw [hr] at h
        obtain rfl := Except.error.inj h
        obtain ⟨c, hc, he⟩ := ih hr
        exact ⟨c, List.mem_cons_of_mem _ hc, he⟩
      | ok others =>
        rw [hr] at h
        cases h

theorem exists_of_branchesSql_error {d : Dialect} {branches : List (SetBranch Query)}
    {e : GenerationError} (h : branchesSql d branches = .error e) :
    ∃ b ∈ branches, b.query.sql d = .error e := by
  induction branches with
  | nil => cases h
  | cons b branches ih =>
    obtain ⟨kind, query⟩ := b
    rw [branchesSql] at h
    cases hq : query.sql d with
    | error e' =>
      rw [hq] at h
      obtain rfl := Except.error.inj h
      exact ⟨_, List.mem_cons_self, hq⟩
    | ok body =>
      rw [hq] at h
      cases hr : branchesSql d branches with
      | error e' =>
        rw [hr] at h
        obtain rfl := Except.error.inj h
        obtain ⟨b, hb, he⟩ := ih hr
        exact ⟨b, List.mem_cons_of_mem _ hb, he⟩
      | ok others =>
        rw [hr] at h
        cases h

theorem exists_of_optionalTables_error {q : Query} {d : Dialect} {e : GenerationError}
    (h : optionalTables d q.ctes = .error e) : ∃ r, q.Holds r ∧ r.sql d = .error e := by
  cases hc : q.ctes with
  | none =>
    rw [hc] at h
    cases h
  | some cs =>
    rw [hc, optionalTables] at h
    cases hbodies : tablesSql d cs with
    | ok bodies =>
      rw [hbodies] at h
      cases h
    | error e' =>
      rw [hbodies] at h
      obtain rfl := Except.error.inj h
      obtain ⟨c, hmem, he⟩ := exists_of_tablesSql_error hbodies
      exact ⟨_, .commonTable hc hmem, he⟩

theorem exists_of_optionalBranches_error {q : Query} {d : Dialect} {e : GenerationError}
    (h : optionalBranches d q.unions = .error e) : ∃ r, q.Holds r ∧ r.sql d = .error e := by
  cases hu : q.unions with
  | none =>
    rw [hu] at h
    cases h
  | some us =>
    rw [hu, optionalBranches] at h
    obtain ⟨b, hmem, he⟩ := exists_of_branchesSql_error h
    exact ⟨_, .branch hu hmem, he⟩

/-- An error of writing is one of the query by itself or of a query that it holds. -/
theorem fails_or_held_of_error {q : Query} {d : Dialect} {e : GenerationError}
    (h : q.sql d = .error e) : q.Fails d e ∨ ∃ r, q.Holds r ∧ r.sql d = .error e := by
  rw [sql_eq] at h
  cases htables : q.tables with
  | nil =>
    rw [htables] at h
    obtain rfl := Except.error.inj h
    exact .inl (.noTables htables)
  | cons anchor others =>
    rw [htables] at h
    cases hwith : optionalTables d q.ctes with
    | error e' =>
      rw [hwith] at h
      obtain rfl := Except.error.inj h
      exact .inr (exists_of_optionalTables_error hwith)
    | ok withLine =>
      simp only [hwith] at h
      cases hown : writing (q.numerals d) (q.ownLines d anchor) with
      | error e' =>
        rw [hown] at h
        obtain rfl := Except.error.inj h
        obtain ⟨⟨n, hn, hlong⟩, rfl⟩ := writing_eq_error_iff.mp hown
        exact .inl (.numeralTooLong hn hlong)
      | ok ownLines =>
        rw [hown] at h
        cases hbranches : optionalBranches d q.unions with
        | error e' =>
          rw [hbranches] at h
          obtain rfl := Except.error.inj h
          exact .inr (exists_of_optionalBranches_error hbranches)
        | ok branchLines =>
          rw [hbranches] at h
          cases h

theorem exists_fails_of_error {q : Query} {d : Dialect} {e : GenerationError}
    (h : q.sql d = .error e) : ∃ r, q.Reaches r ∧ r.Fails d e := by
  induction q using nestedInduction with
  | step q ih =>
    rcases fails_or_held_of_error h with hfails | ⟨r, held, he⟩
    · exact ⟨q, .refl, hfails⟩
    · obtain ⟨r', hr, hfails⟩ := ih r held he
      exact ⟨r', .head held hr, hfails⟩

theorem exists_sql_of_tablesSql {d : Dialect} {ctes : List (CommonTable Query)}
    {bodies : List String} (h : tablesSql d ctes = .ok bodies) :
    ∀ c ∈ ctes, ∃ s, c.query.sql d = .ok s := by
  induction ctes generalizing bodies with
  | nil => exact nofun
  | cons c ctes ih =>
    obtain ⟨name, query, _⟩ := c
    rw [tablesSql] at h
    obtain ⟨body, hbody, h⟩ := exists_of_bind_eq_ok h
    obtain ⟨others, hothers, -⟩ := exists_of_bind_eq_ok h
    exact List.forall_mem_cons.mpr ⟨⟨body, hbody⟩, ih hothers⟩

theorem exists_sql_of_branchesSql {d : Dialect} {branches : List (SetBranch Query)}
    {lines : List String} (h : branchesSql d branches = .ok lines) :
    ∀ b ∈ branches, ∃ s, b.query.sql d = .ok s := by
  induction branches generalizing lines with
  | nil => exact nofun
  | cons b branches ih =>
    obtain ⟨kind, query⟩ := b
    rw [branchesSql] at h
    obtain ⟨body, hbody, h⟩ := exists_of_bind_eq_ok h
    obtain ⟨others, hothers, -⟩ := exists_of_bind_eq_ok h
    exact List.forall_mem_cons.mpr ⟨⟨body, hbody⟩, ih hothers⟩

/-- A query that is written has a table and no number that is too long, and all that it holds is
written. -/
theorem parts_of_sql {q : Query} {d : Dialect} {s : String} (h : q.sql d = .ok s) :
    (∀ e, ¬ q.Fails d e) ∧ ∀ r, q.Holds r → ∃ t, r.sql d = .ok t := by
  rw [sql_eq] at h
  cases htables : q.tables with
  | nil => simp [htables] at h
  | cons anchor others =>
    rw [htables] at h
    obtain ⟨withLine, hwith, h⟩ := exists_of_bind_eq_ok h
    obtain ⟨ownLines, hown, h⟩ := exists_of_bind_eq_ok h
    obtain ⟨branchLines, hbranches, -⟩ := exists_of_bind_eq_ok h
    obtain ⟨hwritable, -⟩ := writing_eq_ok_iff.mp hown
    refine ⟨?_, ?_⟩
    · rintro e (hnone | ⟨hn, hlong⟩)
      · cases htables.symm.trans hnone
      · exact hlong (hwritable _ hn)
    · rintro r (⟨hc, hmem⟩ | ⟨hu, hmem⟩)
      · rw [hc, optionalTables] at hwith
        obtain ⟨bodies, hbodies, -⟩ := exists_of_bind_eq_ok hwith
        exact exists_sql_of_tablesSql hbodies _ hmem
      · rw [hu, optionalBranches] at hbranches
        exact exists_sql_of_branchesSql hbranches _ hmem

theorem exists_sql_of_reaches {q r : Query} {d : Dialect} {s : String} (h : q.sql d = .ok s)
    (hr : q.Reaches r) : ∃ t, r.sql d = .ok t := by
  induction hr with
  | refl => exact ⟨s, h⟩
  | tail _ held ih =>
    obtain ⟨t, ht⟩ := ih
    exact (parts_of_sql ht).2 _ held

/-- Writing fails exactly when a query that is reached cannot be written by itself. -/
theorem exists_error_sql_iff_fails (q : Query) (d : Dialect) :
    (∃ e, q.sql d = .error e) ↔ ∃ r, q.Reaches r ∧ ∃ e, r.Fails d e := by
  constructor
  · rintro ⟨e, h⟩
    obtain ⟨r, hr, hfails⟩ := exists_fails_of_error h
    exact ⟨r, hr, e, hfails⟩
  · rintro ⟨r, hr, e, hfails⟩
    cases h : q.sql d with
    | error e' => exact ⟨e', rfl⟩
    | ok s =>
      obtain ⟨t, ht⟩ := exists_sql_of_reaches h hr
      exact absurd hfails ((parts_of_sql ht).1 e)

/-- No number in the text of the query, or of one in it, is too long. -/
def NumeralsWritable (q : Query) (d : Dialect) : Prop :=
  ∀ r, q.Reaches r → ∀ n ∈ r.numerals d, Numeral.IsWritable n

theorem exists_error_sql_iff (q : Query) (d : Dialect) :
    (∃ e, q.sql d = .error e) ↔ (∃ r, q.Reaches r ∧ r.tables = []) ∨ ¬ q.NumeralsWritable d := by
  rw [exists_error_sql_iff_fails]
  constructor
  · rintro ⟨r, hr, _, hnone | ⟨hn, hlong⟩⟩
    · exact .inl ⟨r, hr, hnone⟩
    · exact .inr fun writable => hlong (writable r hr _ hn)
  · rintro (⟨r, hr, hnone⟩ | long)
    · exact ⟨r, hr, _, .noTables hnone⟩
    · simp only [NumeralsWritable, not_forall] at long
      obtain ⟨r, hr, n, hn, hlong⟩ := long
      exact ⟨r, hr, _, .numeralTooLong hn hlong⟩

theorem reaches_without_tables_of_error {q : Query} {d : Dialect} (h : q.sql d = .error .noTables) :
    ∃ r, q.Reaches r ∧ r.tables = [] := by
  obtain ⟨r, hr, hnone⟩ := exists_fails_of_error h
  cases hnone with
  | noTables hnone => exact ⟨r, hr, hnone⟩

theorem not_numeralsWritable_of_error {q : Query} {d : Dialect}
    (h : q.sql d = .error .numeralTooLong) : ¬ q.NumeralsWritable d := by
  obtain ⟨r, hr, hlong⟩ := exists_fails_of_error h
  cases hlong with
  | numeralTooLong hn hlong => exact fun writable => hlong (writable r hr _ hn)

/-- Without numbers that are too long, a missing table is the one error. -/
theorem error_noTables_iff {q : Query} {d : Dialect} (writable : q.NumeralsWritable d) :
    q.sql d = .error .noTables ↔ ∃ r, q.Reaches r ∧ r.tables = [] := by
  constructor
  · exact reaches_without_tables_of_error
  · intro hnone
    obtain ⟨e, he⟩ := (exists_error_sql_iff q d).mpr (.inl hnone)
    cases e with
    | noTables => exact he
    | numeralTooLong => exact absurd writable (not_numeralsWritable_of_error he)

end Query

end SqlCanvas
