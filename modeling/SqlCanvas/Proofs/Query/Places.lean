import Mathlib.Data.List.Basic
import Mathlib.Logic.Relation
import SqlCanvas.Query.Finding

/-!
# The places of a query

A query holds others as common tables and as branches of set operations, to any depth. `Reaches`
says which queries occur in it at all; `places` lists them in the order in which they are examined,
each with the steps that lead to it. The findings of a query are those of its places, one after
another.
-/

namespace SqlCanvas

/-- A step from a query to one that it holds, as a finding names it. -/
inductive NestingStep where
  | commonTable (name : String)
  | branch (kind : SetOperation) (index : Nat)

def NestingStep.wrap : NestingStep → Finding → Finding
  | .commonTable name, f => .inCommonTable name f
  | .branch kind index, f => .inBranch kind index f

/-- A query inside another one, with the steps that lead there. -/
structure Place where
  path : List NestingStep
  query : Query

namespace Place

def inside (s : NestingStep) (p : Place) : Place :=
  ⟨s :: p.path, p.query⟩

/-- A finding at this place as the outermost query reports it. -/
def report (p : Place) (f : Finding) : Finding :=
  p.path.foldr NestingStep.wrap f

/-- The defects of the query at this place by itself, as the outermost query reports them. -/
def reports (p : Place) : List Finding :=
  p.query.ownFindings.map p.report

theorem report_nil (q : Query) : (⟨[], q⟩ : Place).report = id := rfl

theorem reports_inside (s : NestingStep) (p : Place) :
    (p.inside s).reports = p.reports.map s.wrap := by
  simp [reports, report, inside]

end Place

namespace Query

/-- One query holds another as a common table or as a branch. -/
inductive Holds (q : Query) : Query → Prop
  | commonTable {ctes : List (CommonTable Query)} {c : CommonTable Query}
      (h : q.ctes = some ctes) (hc : c ∈ ctes) : Holds q c.query
  | branch {unions : List (SetBranch Query)} {b : SetBranch Query}
      (h : q.unions = some unions) (hb : b ∈ unions) : Holds q b.query

/-- The query itself and all that it holds, directly or not. -/
abbrev Reaches : Query → Query → Prop :=
  Relation.ReflTransGen Holds

theorem sizeOf_lt_of_holds {q r : Query} (h : q.Holds r) : sizeOf r < sizeOf q := by
  obtain ⟨_, _, _, _, _, _, _, _, _, _, _, ctes, unions⟩ := q
  cases h with
  | @commonTable cs c hcs hc =>
    have h₁ := List.sizeOf_lt_of_mem hc
    have h₂ : sizeOf c.query < sizeOf c := by cases c; simp only [CommonTable.mk.sizeOf_spec]; omega
    simp only at hcs
    subst hcs
    simp
    omega
  | @branch us b hus hb =>
    have h₁ := List.sizeOf_lt_of_mem hb
    have h₂ : sizeOf b.query < sizeOf b := by cases b; simp only [SetBranch.mk.sizeOf_spec]; omega
    simp only at hus
    subst hus
    simp
    omega

/-- What is true of a query when it is true of all queries that it holds is true of every query. -/
@[elab_as_elim]
theorem nestedInduction {motive : Query → Prop}
    (step : ∀ q, (∀ r, q.Holds r → motive r) → motive q) (q : Query) : motive q :=
  step q fun r _ => nestedInduction step r
termination_by sizeOf q
decreasing_by exact sizeOf_lt_of_holds ‹_›

theorem reaches_iff {q r : Query} : q.Reaches r ↔ r = q ∨ ∃ s, q.Holds s ∧ s.Reaches r := by
  rw [Reaches, Relation.ReflTransGen.cases_head_iff, eq_comm]

mutual

/-- The places of a query in the order of examination: its own, then those of its common tables,
then those of its branches. -/
def places : Query → List Place
  | q@⟨_, _, _, _, _, _, _, _, _, _, _, ctes, unions⟩ =>
    ⟨[], q⟩ :: (optionalTablePlaces ctes ++ optionalBranchPlaces unions)

def optionalTablePlaces : Option (List (CommonTable Query)) → List Place
  | none => []
  | some ctes => tablePlaces ctes

def tablePlaces : List (CommonTable Query) → List Place
  | [] => []
  | ⟨name, query, _⟩ :: ctes =>
    query.places.map (Place.inside (.commonTable name)) ++ tablePlaces ctes

def optionalBranchPlaces : Option (List (SetBranch Query)) → List Place
  | none => []
  | some unions => branchPlaces 1 unions

def branchPlaces (index : Nat) : List (SetBranch Query) → List Place
  | [] => []
  | ⟨kind, query⟩ :: branches =>
    query.places.map (Place.inside (.branch kind index)) ++ branchPlaces (index + 1) branches

end

theorem mem_tablePlaces_iff {ctes : List (CommonTable Query)} {p : Place} :
    p ∈ tablePlaces ctes ↔
      ∃ c ∈ ctes, ∃ p₀ ∈ c.query.places, p₀.inside (.commonTable c.name) = p := by
  induction ctes with
  | nil => simp [tablePlaces]
  | cons c ctes ih => simp [tablePlaces, ih]

theorem query_mem_branchPlaces_iff {index : Nat} {branches : List (SetBranch Query)} {r : Query} :
    (∃ p ∈ branchPlaces index branches, p.query = r) ↔
      ∃ b ∈ branches, ∃ p ∈ b.query.places, p.query = r := by
  induction branches generalizing index with
  | nil => simp [branchPlaces]
  | cons b branches ih =>
    rw [List.exists_mem_cons_iff, ← @ih (index + 1), branchPlaces]
    constructor
    · rintro ⟨p, hp, hr⟩
      rcases List.mem_append.mp hp with hp | hp
      · obtain ⟨p₀, hp₀, rfl⟩ := List.mem_map.mp hp
        exact .inl ⟨p₀, hp₀, hr⟩
      · exact .inr ⟨p, hp, hr⟩
    · rintro (⟨p, hp, hr⟩ | ⟨p, hp, hr⟩)
      · exact ⟨_, List.mem_append_left _ (List.mem_map_of_mem hp), hr⟩
      · exact ⟨p, List.mem_append_right _ hp, hr⟩

theorem places_eq (q : Query) :
    q.places = ⟨[], q⟩ :: (optionalTablePlaces q.ctes ++ optionalBranchPlaces q.unions) := by
  cases q
  rfl

theorem exists_mem_places_iff {q r : Query} : (∃ p ∈ q.places, p.query = r) ↔ q.Reaches r := by
  induction q using nestedInduction with
  | step q ih =>
    -- The query itself is the first place on the one side and the empty path on the other; what is
    -- left are places within what it holds.
    rw [reaches_iff, places_eq, List.exists_mem_cons_iff]
    refine or_congr eq_comm ?_
    constructor
    · rintro ⟨p, hp, rfl⟩
      rcases List.mem_append.mp hp with hp | hp
      · cases hc : q.ctes with
        | none => simp [hc, optionalTablePlaces] at hp
        | some ctes =>
          rw [hc] at hp
          obtain ⟨c, hmem, p₀, hp₀, rfl⟩ := mem_tablePlaces_iff.mp hp
          have held : q.Holds c.query := .commonTable hc hmem
          exact ⟨c.query, held, (ih _ held).mp ⟨p₀, hp₀, rfl⟩⟩
      · cases hu : q.unions with
        | none => simp [hu, optionalBranchPlaces] at hp
        | some unions =>
          rw [hu] at hp
          obtain ⟨b, hmem, hr⟩ := query_mem_branchPlaces_iff.mp ⟨p, hp, rfl⟩
          have held : q.Holds b.query := .branch hu hmem
          exact ⟨b.query, held, (ih _ held).mp hr⟩
    · rintro ⟨s, held, hr⟩
      obtain ⟨p, hp, rfl⟩ := (ih s held).mpr hr
      cases held with
      | commonTable h hmem =>
        rw [h]
        exact ⟨_, List.mem_append_left _ (mem_tablePlaces_iff.mpr ⟨_, hmem, p, hp, rfl⟩), rfl⟩
      | branch h hmem =>
        obtain ⟨p', hp', hr'⟩ := query_mem_branchPlaces_iff.mpr ⟨_, hmem, p, hp, rfl⟩
        rw [h]
        exact ⟨p', List.mem_append_right _ hp', hr'⟩

mutual

theorem findings_eq_flatMap_places : (q : Query) → q.findings = q.places.flatMap Place.reports
  | ⟨_, _, _, _, _, _, _, _, _, _, _, ctes, unions⟩ => by
    rw [findings, places, List.flatMap_cons, List.flatMap_append,
      optionalTableFindings_eq ctes, optionalBranchFindings_eq unions, List.append_assoc]
    simp [Place.reports, Place.report_nil]

theorem optionalTableFindings_eq : (ctes : Option (List (CommonTable Query))) →
    optionalTableFindings ctes = (optionalTablePlaces ctes).flatMap Place.reports
  | none => rfl
  | some ctes => tableFindings_eq ctes

theorem tableFindings_eq : (ctes : List (CommonTable Query)) →
    tableFindings ctes = (tablePlaces ctes).flatMap Place.reports
  | [] => rfl
  | ⟨name, query, _⟩ :: ctes => by
    rw [tableFindings, tablePlaces, List.flatMap_append, tableFindings_eq ctes,
      findings_eq_flatMap_places query]
    simp only [List.flatMap_map, List.map_flatMap, Place.reports_inside]
    rfl

theorem optionalBranchFindings_eq : (unions : Option (List (SetBranch Query))) →
    optionalBranchFindings unions = (optionalBranchPlaces unions).flatMap Place.reports
  | none => rfl
  | some unions => branchFindings_eq 1 unions

theorem branchFindings_eq (index : Nat) : (branches : List (SetBranch Query)) →
    branchFindings index branches = (branchPlaces index branches).flatMap Place.reports
  | [] => rfl
  | ⟨kind, query⟩ :: branches => by
    rw [branchFindings, branchPlaces, List.flatMap_append, branchFindings_eq (index + 1) branches,
      findings_eq_flatMap_places query]
    simp only [List.flatMap_map, List.map_flatMap, Place.reports_inside]
    rfl

end

end Query

end SqlCanvas
