import SqlCanvas.Proofs.Query.Places
import SqlCanvas.Proofs.Statement.Reading
import SqlCanvas.Statement.Read

/-!
# Induction along the reading of a statement

A statement is read as a query with further queries inside: those of its `WITH` clause are read
before it and the operands of its set operations after it, each from the state that the one before
has left. What holds of every query that is read from one state to another is proved here once, from
the single `SELECT` and from the statements that are none.
-/

namespace SqlCanvas.Statement

open Text

variable {σ : Type}

/-- The queries are read one after another, each as `whole` says. -/
inductive InTurn (whole : σ → Query → σ → Prop) : σ → List Query → σ → Prop
  | nil (s : σ) : InTurn whole s [] s
  | cons {s₀ s₁ s₂ : σ} {q : Query} {qs : List Query} :
      whole s₀ q s₁ → InTurn whole s₁ qs s₂ → InTurn whole s₀ (q :: qs) s₂

/-- What is said of reading one query holds of a `SELECT` and of the other statements, when it holds
of the queries inside. -/
structure ReadingSteps (ids : IdSource σ) (whole : σ → Query → σ → Prop) : Prop where
  select : ∀ {s₀ s₁ s₂ s₃ : σ} {t : Text} {ctes : List (CommonTable Query)} {own : Query}
    {unions : List (SetBranch Query)}, InTurn whole s₀ (ctes.map (·.query)) s₁ →
    (Select.read ids t).run s₁ = (.ok own, s₂) → InTurn whole s₂ (unions.map (·.query)) s₃ →
      whole s₀ (complete .select ctes unions own) s₃
  change : ∀ {s₀ s₁ : σ} {kind : StatementKind} {t : Text} {ctes : List (CommonTable Query)}
    {statement : Statement}, InTurn whole s₀ (ctes.map (·.query)) s₁ →
    Change.read kind t = .ok statement → whole s₀ (complete kind ctes [] statement.query) s₁

section Induction

variable {ids : IdSource σ} {whole : σ → Query → σ → Prop}

mutual

theorem ReadingSteps.whole_of_ofOutline (steps : ReadingSteps ids whole) : (outline : Outline) →
    {s s' : σ} → {statement : Statement} → (ofOutline ids outline).run s = (.ok statement, s') →
      whole s statement.query s'
  | .mk tables recursive keyword body branches, s, s', statement, hread => by
    rw [ofOutline] at hread
    obtain ⟨ctes, s₁, htables, hread⟩ := Reading.exists_of_run_bind hread
    have inner := steps.inTurn_of_readTables recursive tables htables
    obtain ⟨kind, s₂, hkind, hread⟩ := Reading.exists_of_run_bind hread
    obtain ⟨-, rfl⟩ := Prod.mk.inj hkind
    split at hread
    · obtain ⟨own, s₃, hown, hread⟩ := Reading.exists_of_run_bind hread
      obtain ⟨unions, s₄, hunions, hread⟩ := Reading.exists_of_run_bind hread
      cases hread
      exact steps.select inner hown (steps.inTurn_of_readBranches branches hunions)
    · obtain ⟨changed, s₃, hchange, hread⟩ := Reading.exists_of_run_bind hread
      obtain ⟨hok, rfl⟩ := Prod.mk.inj hchange
      cases hread
      exact steps.change inner hok

theorem ReadingSteps.inTurn_of_readTables (steps : ReadingSteps ids whole) (recursive : Bool) :
    (tables : List (Text × Outline)) → {s s' : σ} → {ctes : List (CommonTable Query)} →
    (readTables ids recursive tables).run s = (.ok ctes, s') →
    InTurn whole s (ctes.map (·.query)) s'
  | [], s, s', ctes, hread => by
    rw [readTables] at hread
    cases hread
    exact .nil s
  | (name, outline) :: tables, s, s', ctes, hread => by
    rw [readTables] at hread
    obtain ⟨statement, s₁, hfirst, hread⟩ := Reading.exists_of_run_bind hread
    obtain ⟨rest, s₂, hrest, hread⟩ := Reading.exists_of_run_bind hread
    cases hread
    exact .cons (steps.whole_of_ofOutline outline hfirst)
      (steps.inTurn_of_readTables recursive tables hrest)

theorem ReadingSteps.inTurn_of_readBranches (steps : ReadingSteps ids whole) :
    (branches : List (Text × Outline)) → {s s' : σ} → {unions : List (SetBranch Query)} →
    (readBranches ids branches).run s = (.ok unions, s') → InTurn whole s (unions.map (·.query)) s'
  | [], s, s', unions, hread => by
    rw [readBranches] at hread
    cases hread
    exact .nil s
  | (keyword, outline) :: branches, s, s', unions, hread => by
    rw [readBranches] at hread
    obtain ⟨statement, s₁, hfirst, hread⟩ := Reading.exists_of_run_bind hread
    obtain ⟨kind, s₂, hkind, hread⟩ := Reading.exists_of_run_bind hread
    obtain ⟨-, rfl⟩ := Prod.mk.inj hkind
    obtain ⟨rest, s₃, hrest, hread⟩ := Reading.exists_of_run_bind hread
    cases hread
    exact .cons (steps.whole_of_ofOutline outline hfirst)
      (steps.inTurn_of_readBranches branches hrest)

end

end Induction

/-- The queries that a completed query reaches: itself, and those that its parts reach. -/
theorem reaches_complete_iff {kind : StatementKind} {ctes : List (CommonTable Query)}
    {branches : List (SetBranch Query)} {own q : Query} :
    (complete kind ctes branches own).Reaches q ↔
      q = complete kind ctes branches own ∨ (∃ c ∈ ctes, c.query.Reaches q) ∨
        ∃ b ∈ branches, b.query.Reaches q := by
  rw [Query.reaches_iff]
  refine or_congr Iff.rfl ?_
  constructor
  · rintro ⟨r, hr, hq⟩
    cases hr with
    | commonTable h hc =>
      simp only [complete] at h
      split at h
      · cases h
      · cases h
        exact .inl ⟨_, hc, hq⟩
    | branch h hb =>
      simp only [complete] at h
      split at h
      · cases h
      · cases h
        exact .inr ⟨_, hb, hq⟩
  · rintro (⟨c, hc, hq⟩ | ⟨b, hb, hq⟩)
    · have held : (complete kind ctes branches own).ctes = some ctes := by
        simp [complete, List.ne_nil_of_mem hc]
      exact ⟨c.query, .commonTable held hc, hq⟩
    · have held : (complete kind ctes branches own).unions = some branches := by
        simp [complete, List.ne_nil_of_mem hb]
      exact ⟨b.query, .branch held hb, hq⟩

section Reached

variable {ids : IdSource σ} {I : σ → Prop} {P : Query → Prop}

theorem InTurn.reached {s s' : σ} {qs : List Query}
    (h : InTurn (fun s q s' => I s → I s' ∧ ∀ r, q.Reaches r → P r) s qs s') (hs : I s) :
    I s' ∧ ∀ q ∈ qs, ∀ r, q.Reaches r → P r := by
  induction h with
  | nil s => exact ⟨hs, nofun⟩
  | cons hq _ ih =>
    obtain ⟨hs₁, hfirst⟩ := hq hs
    obtain ⟨hs₂, hrest⟩ := ih hs₁
    exact ⟨hs₂, List.forall_mem_cons.mpr ⟨hfirst, hrest⟩⟩

/-- What every single `SELECT` and every other statement keeps of the state, and what it gives of
its query, is kept by a whole statement and holds of every query in it. -/
theorem reached_of_ofOutline
    (select : ∀ {s s' : σ} {t : Text} {own : Query}, I s →
      (Select.read ids t).run s = (.ok own, s') →
      I s' ∧ ∀ ctes unions, P (complete .select ctes unions own))
    (change : ∀ {kind : StatementKind} {t : Text} {statement : Statement},
      Change.read kind t = .ok statement → ∀ ctes, P (complete kind ctes [] statement.query))
    {outline : Outline} {s s' : σ} {statement : Statement} (hs : I s)
    (hread : (ofOutline ids outline).run s = (.ok statement, s')) :
    I s' ∧ ∀ q, statement.query.Reaches q → P q := by
  -- Each query is read from the state that the one before it left, so the invariant goes along with
  -- them.
  have steps : ReadingSteps ids fun s q s' => I s → I s' ∧ ∀ r, q.Reaches r → P r := by
    refine ⟨?_, ?_⟩
    · intro s₀ s₁ s₂ s₃ t ctes own unions htables hown hbranches hs
      obtain ⟨hs₁, hctes⟩ := htables.reached hs
      obtain ⟨hs₂, hsingle⟩ := select hs₁ hown
      obtain ⟨hs₃, hunions⟩ := hbranches.reached hs₂
      rw [List.forall_mem_map] at hctes hunions
      refine ⟨hs₃, fun r hr => ?_⟩
      rcases reaches_complete_iff.mp hr with rfl | ⟨c, hc, hr⟩ | ⟨b, hb, hr⟩
      · exact hsingle ctes unions
      · exact hctes c hc r hr
      · exact hunions b hb r hr
    · intro s₀ s₁ kind t ctes statement htables hchange hs
      obtain ⟨hs₁, hctes⟩ := htables.reached hs
      rw [List.forall_mem_map] at hctes
      refine ⟨hs₁, fun r hr => ?_⟩
      rcases reaches_complete_iff.mp hr with rfl | ⟨c, hc, hr⟩ | ⟨b, hb, -⟩
      · exact change hchange ctes
      · exact hctes c hc r hr
      · cases hb
  exact steps.whole_of_ofOutline outline hread hs

end Reached

end SqlCanvas.Statement
