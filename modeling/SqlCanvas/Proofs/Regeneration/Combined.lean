import SqlCanvas.Proofs.Regeneration.Restored

/-!
# Set operations that are written again

An operand may stand in parentheses and have set operations of its own, which are read as part of
the operand. No parentheses are written around it, so its operations come to stand behind it on the
level of the operation itself. What is read of the written text is the flattened query, and this is
the query only if no operand has operations of its own.
-/

namespace SqlCanvas

open Text Nesting Pattern

namespace Query

/-- No operand of a set operation has set operations of its own, at any depth. -/
def Level (q : Query) : Prop :=
  ∀ r, q.Reaches r → ∀ us ∈ r.unions, ∀ u ∈ us, u.query.unions = none

theorem length_le_flattenedAll (us : List (SetBranch Query)) :
    us.length ≤ (flattenedAll us).length := by
  induction us with
  | nil => exact Nat.zero_le _
  | cons u us ih =>
    obtain ⟨kind, query⟩ := u
    rw [flattenedAll, List.length_cons, List.length_cons, List.length_append]
    omega

theorem unions_of_length_flattenedAll {us : List (SetBranch Query)}
    (hregular : ∀ u ∈ us, u.query.Regular) (h : (flattenedAll us).length = us.length) :
    ∀ u ∈ us, u.query.unions = none := by
  induction us with
  | nil => exact List.forall_mem_nil _
  | cons u us ih =>
    obtain ⟨hu, hus⟩ := List.forall_mem_cons.mp hregular
    obtain ⟨kind, query⟩ := u
    have least := length_le_flattenedAll us
    rw [flattenedAll, List.length_cons, List.length_cons, List.length_append] at h
    refine List.forall_mem_cons.mpr ⟨?_, ih hus (by omega)⟩
    have length : (query.flattened.unions.getD []).length = 0 := by omega
    cases hunions : query.unions with
    | none => rfl
    | some vs =>
      have positive := List.length_pos_iff.mpr (hu.unions vs hunions)
      have least := length_le_flattenedAll vs
      rw [flattened_eq, hunions, flattenedBranches, Option.getD_some] at length
      omega

theorem flattenedAll_of_unions {us : List (SetBranch Query)} (h : ∀ u ∈ us, u.query.unions = none) :
    flattenedAll us = us.map fun u => { u with query := u.query.flattened } := by
  rw [flattenedAll_eq_flatMap, List.map_eq_flatMap]
  refine List.flatMap_congr fun u hu => ?_
  have none : u.query.flattened.unions = .none := by
    rw [flattened_eq, h u hu, flattenedBranches]
  rw [none, Option.getD_none, ← none, eta]

/-- Flattening can be told by the places of tables alone: it changes no query on one level, and
every other one. -/
theorem withoutIds_flattened_iff {q : Query} (h : q.Composed) :
    q.flattened.withoutIds = q.withoutIds ↔ q.Level := by
  refine ⟨fun heq => ?_, fun hlevel => congrArg withoutIds (q.flattened_of_level hlevel)⟩
  induction q using nestedInduction with
  | step q ih =>
    have ctes : withoutIdsTables (flattenedTables q.ctes) = withoutIdsTables q.ctes := by
      have := congrArg (·.ctes) heq
      rwa [withoutIds_eq, withoutIds_eq, flattened_eq] at this
    have branches : withoutIdsBranches (flattenedBranches q.unions) =
        withoutIdsBranches q.unions := by
      have := congrArg (·.unions) heq
      rwa [withoutIds_eq, withoutIds_eq, flattened_eq] at this
    have unions : ∀ us ∈ q.unions, ∀ u ∈ us, u.query.unions = none := by
      intro us hus
      rw [hus, flattenedBranches, withoutIdsBranches, withoutIdsBranches, Option.some_inj,
        withoutIdsAll_eq_map, withoutIdsAll_eq_map] at branches
      have length := congrArg List.length branches
      rw [List.length_map, List.length_map] at length
      exact unions_of_length_flattenedAll (fun u hu => h _ (.head (.branch hus hu) .refl)) length
    have held (r : Query) (hr : q.Holds r) : r.flattened.withoutIds = r.withoutIds := by
      cases hr with
      | @commonTable cs c hcs hc =>
        rw [hcs, flattenedTables, withoutIdsTables, withoutIdsTables, Option.some_inj,
          flattenedEach_eq_map, withoutIdsEach_eq_map, withoutIdsEach_eq_map, List.map_map,
            List.map_inj_left] at ctes
        exact congrArg CommonTable.query (ctes c hc)
      | @branch us u hus hu =>
        rw [hus, flattenedBranches, withoutIdsBranches, withoutIdsBranches, Option.some_inj,
          flattenedAll_of_unions (unions us hus), withoutIdsAll_eq_map, withoutIdsAll_eq_map,
          List.map_map, List.map_inj_left] at branches
        exact congrArg SetBranch.query (branches u hu)
    intro r hr
    rcases reaches_iff.mp hr with rfl | ⟨s, hs, hsr⟩
    · exact unions
    · exact ih s hs (fun t ht => h t (.head hs ht)) (held s hs) r hsr

end Query

theorem Query.shown_of_not_distinct {q : Query} (h : q.distinct = false) : q.shown = q := by
  rw [shown, h, Bool.false_and, ← h, eta]

theorem WrittenSelect.distinct_of_read {σ : Type} {ids : IdSource σ} {st st' : σ}
    {s : WrittenSelect} {own : Query} (hread : (Select.read ids s.text).run st = (.ok own, st')) :
    own.distinct = s.distinct.isSome := by
  obtain ⟨sources, rest, -, -, rfl⟩ := exists_of_read hread
  rfl

/-- A statement made up of `SELECT`s by set operations. Every operand is such a statement, in
parentheses if it has operations of its own. -/
inductive WrittenStatement.Combines : WrittenStatement → Prop
  | mk {s : WrittenStatement} (parts : List WrittenStatement) (entries : s.entries = [])
    (select : s.select.Restorable) (distinct : s.select.distinct = none)
    (operands : List.Forall₂ (fun o t => o.2.operand.inner = WrittenStatement.tokens t)
      s.operations parts)
    (combined : ∀ t ∈ parts, Combines t) : Combines s

namespace Statement

variable {σ : Type} {ids : IdSource σ} {st : σ}

/-- The text is read as a query, and every query in it is canonical by itself. -/
def ReadsComposed (t : Text) : Prop :=
  ∀ (σ : Type) (ids : IdSource σ) (st : σ), ids.Fresh [""] st → ∃ q st',
    (read ids t).run st = (.ok (.ofQuery .select q), st') ∧ ids.Fresh [""] st' ∧ q.Composed

theorem exists_composedBranches {os : WrittenOperations} {parts : List WrittenStatement}
    (h : List.Forall₂ (fun o t => o.2.operand.inner = WrittenStatement.tokens t) os parts)
    (hparts : ∀ t ∈ parts, ReadsComposed t.text) (hfresh : ids.Fresh [""] st) : ∃ unions st',
      (readBranches ids (os.map fun o =>
        (textOf o.2.phrase.tokens, Outline.of (textOf o.2.operand.inner)))).run st =
          (.ok unions, st') ∧
        ids.Fresh [""] st' ∧ ∀ u ∈ unions, u.query.Composed := by
  induction h generalizing st with
  | nil => exact ⟨[], st, rfl, hfresh, List.forall_mem_nil _⟩
  | @cons o t os parts ho _ ih =>
    obtain ⟨ht, hparts⟩ := List.forall_mem_cons.mp hparts
    obtain ⟨q, st₁, hread, hfresh₁, hq⟩ := ht σ ids st hfresh
    obtain ⟨unions, st₂, hrest, hfresh₂, hunions⟩ := ih hparts hfresh₁
    have kind : (Reading.ofExcept (readKeyword "UnionClause" "kind" (textOf o.2.phrase.tokens)) :
        Reading σ SetOperation).run st₁ = (.ok o.2.kind, st₁) := by
      rw [o.2.readKeyword]
      rfl
    rw [read, WrittenStatement.text, ← ho] at hread
    refine ⟨⟨o.2.kind, q⟩ :: unions, st₂, ?_, hfresh₂, List.forall_mem_cons.mpr ⟨hq, hunions⟩⟩
    rw [List.map_cons, readBranches, Reading.run_bind_ok hread, Reading.run_bind_ok kind,
      Reading.run_bind_ok hrest]
    rfl

end Statement

theorem WrittenStatement.Combines.readsComposed {s : WrittenStatement} (h : s.Combines) :
    Statement.ReadsComposed s.text := by
  induction h with
  | @mk s parts entries select distinct operands _ ih =>
    intro σ ids st hfresh
    obtain ⟨own, st₁, hown⟩ := select.exists_read ids st
    have hfresh₁ : ids.Fresh [""] st₁ :=
      (Select.fresh_read hfresh hown).sublist (List.sublist_append_left _ _)
    have flat : own.Flat := by
      have := select.flat_of_read hown hfresh
      rwa [Query.shown_of_not_distinct (by rw [WrittenSelect.distinct_of_read hown, distinct]; rfl)]
        at this
    obtain ⟨unions, st₂, hunions, hfresh₂, hcomposed⟩ :=
      Statement.exists_composedBranches operands ih hfresh₁
    have outline := s.outline_text (List.forall_mem_nil _) (List.forall_mem_nil _)
    rw [List.nil_append, List.append_nil] at outline
    refine ⟨Statement.complete .select [] unions own, st₂, ?_, hfresh₂, ?_⟩
    · rw [Statement.read, outline, entries]
      exact Statement.run_ofOutline rfl hown hunions
    · have regular : (Statement.complete .select [] unions own).Regular := by
        refine ⟨flat.complete [] unions, by simp [Statement.complete], fun us hus => ?_⟩
        simp only [Statement.complete] at hus
        split at hus
        · cases hus
        · rename_i some
          cases hus
          simpa using some
      intro r hr
      rcases Statement.reaches_complete_iff.mp hr with rfl | ⟨c, hc, -⟩ | ⟨b, hb, hbr⟩
      · exact regular
      · cases hc
      · exact hcomposed b hb r hbr

/-- What is written for combined `SELECT`s is read as the query with all operands on one level. That
is another query, whatever its ids, unless no operand had operations of its own. -/
theorem WrittenStatement.Combines.flattened_of_read {s : WrittenStatement} (h : s.Combines)
    {σ : Type} (ids : IdSource σ) {st : σ} (hfresh : ids.Fresh [""] st) (d : Dialect) : ∃ q st' sql,
      (Statement.read ids s.text).run st = (.ok (.ofQuery .select q), st') ∧ q.sql d = .ok sql ∧
        Statement.ReadsAs sql.toList q.flattened ∧ (q.flattened.withoutIds = q.withoutIds ↔
          q.Level) := by
  obtain ⟨q, st', hread, -, hq⟩ := h.readsComposed σ ids st hfresh
  obtain ⟨sql, hsql, hreads⟩ := hq.flattened_of_sql d
  exact ⟨q, st', sql, hread, hsql, hreads, Query.withoutIds_flattened_iff hq⟩

def WrittenSelect.single (table column : Ident) : WrittenSelect :=
  let columns : Selection := ⟨.column ⟨some table, column⟩ none, []⟩
  Draft.select {
    distinct := false
    columns := columns.listing.tokens
    solid_columns := Listing.solid _
    avoids_columns := fun a ha => (Listing.avoids _ a ha).mono (by decide)
    table := ⟨⟨table, []⟩, Nat.zero_le _, none⟩
    joins := []
    ending := ⟨none, none, none, none, none⟩ }

theorem WrittenSelect.restorable_single {table : Ident} (h : table.Plain) (column : Ident) :
    (single table column).Restorable where
  apart := List.pairwise_singleton _ _
  names := by
    refine List.forall_mem_singleton.mpr ⟨?_, fun _ => ⟨rfl, h⟩⟩
    rintro _ ⟨⟩
  joins := by
    rintro m g j ⟨⟩
  columns := .inr ⟨_, rfl⟩
  ending := ⟨⟨none, none, none, none, none⟩, rfl, by simp, by simp, by simp, by simp⟩

namespace WrittenStatement

def ofSelect (s : WrittenSelect) : WrittenStatement :=
  ⟨false, [], s, [], {}⟩

theorem tokens_ofSelect (s : WrittenSelect) : (ofSelect s).tokens = s.tokens := by
  simp [ofSelect, tokens, mainTokens, withTokens, WrittenOperations.tokens]

theorem combines_ofSelect {s : WrittenSelect} (h : s.Restorable) (hdistinct : s.distinct = none) :
    (ofSelect s).Combines :=
  .mk [] rfl h hdistinct .nil (List.forall_mem_nil _)

def operandOf (s : WrittenSelect) : WrittenOperand :=
  .bare .line "SELECT" (by decide) s.select s.tokens.tail s.solid s.avoids

theorem inner_operandOf (s : WrittenSelect) : (operandOf s).inner = (ofSelect s).tokens :=
  (tokens_ofSelect s).symm

def except (s : WrittenSelect) (operand : WrittenOperand) : WrittenStatement :=
  ⟨false, [], s, [(.line, ⟨["EXCEPT"], by decide, .capital _ (by decide), operand⟩)], {}⟩

theorem combines_except {s : WrittenSelect} (h : s.Restorable) (hdistinct : s.distinct = none)
    {t : WrittenStatement} (ht : t.Combines) (operand : WrittenOperand)
    (hinner : operand.inner = t.tokens) :
    (except s operand).Combines :=
  .mk [t] rfl h hdistinct (.cons hinner .nil) (List.forall_mem_singleton.mpr ht)

/-- A difference with a difference in parentheses. -/
theorem exists_difference : ∃ s : WrittenStatement,
    s.text = "SELECT t.a\nFROM t\nEXCEPT\n(SELECT u.a\nFROM u\nEXCEPT\nSELECT v.a\nFROM v)".toList ∧
    s.Combines := by
  have restorable {t : String} (h : IsPlain t) :
      (WrittenSelect.single h.ident (by decide : IsPlain "a").ident).Restorable :=
    WrittenSelect.restorable_single h.plain_ident _
  have last := combines_ofSelect (restorable (by decide : IsPlain "v")) rfl
  have inner :=
    combines_except (restorable (by decide : IsPlain "u")) rfl last (operandOf _)
      (inner_operandOf _)
  have outer := combines_except (restorable (by decide : IsPlain "t")) rfl inner
    (.wrapped (some .line) none none _ (WrittenStatement.solid _) (WrittenStatement.head _)) rfl
  exact ⟨_, by decide +kernel, outer⟩

/-- What is written is the difference of the first two, without what is in the third. -/
theorem flattened_of_difference : ∃ s : WrittenStatement,
    s.text = "SELECT t.a\nFROM t\nEXCEPT\n(SELECT u.a\nFROM u\nEXCEPT\nSELECT v.a\nFROM v)".toList ∧
    s.Combines ∧
      ∃ q st' sql, (Statement.read .sequential s.text).run (.fresh 1) =
        (.ok (.ofQuery .select q), st') ∧
        q.sql .postgresql = .ok sql ∧ Statement.ReadsAs sql.toList q.flattened ∧
          q.flattened.withoutIds ≠ q.withoutIds := by
  obtain ⟨s, htext, h⟩ := exists_difference
  obtain ⟨q, st', sql, hread, hsql, hreads, hiff⟩ :=
    h.flattened_of_read .sequential (IdSource.fresh_sequential_empty _) .postgresql
  refine ⟨s, htext, h, q, st', sql, hread, hsql, hreads, fun heq => ?_⟩
  have computed : ∃ p ∈ ((Statement.read .sequential
      "SELECT t.a\nFROM t\nEXCEPT\n(SELECT u.a\nFROM u\nEXCEPT\nSELECT v.a\nFROM v)".toList).run
        (.fresh 1)).1.toOption,
      ∃ us ∈ p.query.unions, ∃ u ∈ us, u.query.unions.isSome = true := by
    decide +kernel
  rw [← htext, hread] at computed
  obtain ⟨p, hp, us, hus, u, hu, hsome⟩ := computed
  obtain rfl : Statement.ofQuery .select q = p := Option.some.inj hp
  rw [hiff.mp heq q .refl us hus u hu] at hsome
  cases hsome

end WrittenStatement

end SqlCanvas
