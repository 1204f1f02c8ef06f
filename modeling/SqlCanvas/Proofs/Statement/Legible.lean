import SqlCanvas.Proofs.Statement.Totality

/-!
# Outlines that can always be read

Cutting a tractable text into its outline gives tractable parts, first keywords of known kinds of
statement, and keywords of known set operations. Reading such an outline succeeds at every level,
with every source of ids.
-/

namespace SqlCanvas

open Text Pattern

/-- An outline whose keywords are known and whose bodies are tractable, at every level. -/
inductive Outline.Legible : Outline → Prop
  | intro {tables : List (Text × Outline)} {recursive : Bool} {keyword body : Text}
      {branches : List (Text × Outline)} {kind : StatementKind}
      (tables_legible : ∀ x ∈ tables, Legible x.2)
      (keyword_known : Statement.readKind keyword = .ok kind)
      (body_tractable : Tractable body)
      (branches_known : ∀ x ∈ branches,
        ∃ operation : SetOperation, readKeyword "UnionClause" "kind" x.1 = .ok operation)
      (branches_legible : ∀ x ∈ branches, Legible x.2) :
      Legible (.mk tables recursive keyword body branches)

theorem isInfix_of_mem_splitCommonTables {t : Text} {entry : Text × Text}
    (h : entry ∈ (splitCommonTables t).1) : entry.2 <:+: t := by
  fun_induction splitCommonTables t with
  | case1 => cases h
  | case2 => cases h
  | case3 t m hm opening length hl own rest hc =>
    rw [List.mem_singleton.mp h]
    exact slice_isInfix _ _ _
  | case4 t m hm opening length hl own rest comma hc entries rest' heq ih =>
    rcases List.mem_cons.mp h with rfl | h
    · exact slice_isInfix _ _ _
    · rw [heq] at ih
      exact (ih h).trans ((drop_isInfix _ _).trans (drop_isInfix _ _))

theorem rest_splitCommonTables_isSuffix (t : Text) : (splitCommonTables t).2 <:+ t := by
  fun_induction splitCommonTables t with
  | case1 => exact List.suffix_rfl
  | case2 => exact List.suffix_rfl
  | case3 t m hm opening length hl own rest hc => exact List.drop_suffix _ _
  | case4 t m hm opening length hl own rest comma hc entries rest' heq ih =>
    rw [heq] at ih
    exact ih.trans ((List.drop_suffix _ _).trans (List.drop_suffix _ _))

theorem isInfix_of_mem_splitWith {t : Text} {entry : Text × Text}
    (h : entry ∈ (splitWith t).tables) : entry.2 <:+: t := by
  rw [splitWith] at h
  split at h
  · cases h
  · exact (isInfix_of_mem_splitCommonTables h).trans (drop_isInfix _ _)

theorem rest_splitWith_isSuffix (t : Text) : (splitWith t).rest <:+ t := by
  rw [splitWith]
  split
  · exact List.suffix_rfl
  · exact (rest_splitCommonTables_isSuffix _).trans (List.drop_suffix _ _)

theorem rest_splitWith_isInfix (t : Text) : (splitWith t).rest <:+: t :=
  (rest_splitWith_isSuffix t).isInfix

theorem stripTerminator_isInfix (t : Text) : stripTerminator t <:+: t :=
  (trim_isInfix _).trans ((dropEndWhile_isInfix _ _).trans (trim_isInfix t))

theorem isInfix_of_mem_splitSetOperations {t : Text} {branch : Text × Text}
    (h : branch ∈ (splitSetOperations t).2) : branch.2 <:+: t := by
  simp only [splitSetOperations] at h
  split at h
  · cases h
  · rename_i head branches heq
    refine isInfix_of_mem_between 0 (t.topLevelOccurrences setOperation) ?_
    rw [heq]
    exact List.mem_cons_of_mem _ (List.of_mem_zip h).2

theorem head_splitSetOperations_isInfix (t : Text) : (splitSetOperations t).1 <:+: t := by
  simp only [splitSetOperations]
  split
  · exact List.infix_rfl
  · rename_i head branches heq
    refine isInfix_of_mem_between 0 (t.topLevelOccurrences setOperation) ?_
    rw [heq]
    exact List.mem_cons_self

theorem exists_spelling_of_covers {w : Text}
    (h : (Pattern.oneOf ((Vocabulary.members (α := StatementKind)).map
    fun kind => word (Vocabulary.spelling kind))).Covers w) :
    ∃ kind : StatementKind, Spells (Vocabulary.spelling kind).toList w := by
  obtain ⟨p, hp, hcovers⟩ := covers_oneOf.mp h
  obtain ⟨kind, -, rfl⟩ := List.mem_map.mp hp
  exact ⟨kind, covers_letters.mp hcovers⟩

theorem exists_spelling_of_firstKeyword? {t keyword : Text} (h : firstKeyword? t = some keyword) :
    ∃ (kind : StatementKind) (w : Text), w <:+: t ∧ Spells (Vocabulary.spelling kind).toList w ∧
    keyword = upper w := by
  obtain ⟨m, hm, rfl⟩ := Option.map_eq_some_iff.mp h
  obtain ⟨hin, body, hbody, hcovers⟩ := captured_of_match? 1 hm rfl
  have marks : statementHead.marks = [(1, .oneOf ((Vocabulary.members (α := StatementKind)).map
      fun kind => word (Vocabulary.spelling kind)))] := rfl
  simp only [marks, List.mem_singleton, Prod.mk.injEq, true_and] at hbody
  rw [hbody] at hcovers
  obtain ⟨kind, hkind⟩ := exists_spelling_of_covers hcovers
  exact ⟨kind, m.captured 1, hin.trans (dropWhile_isInfix _ t), hkind, rfl⟩

theorem exists_readKind_of_firstKeyword? {t keyword : Text} (ht : IsTame t)
    (h : firstKeyword? t = some keyword) : ∃ kind, Statement.readKind keyword = .ok kind := by
  obtain ⟨kind, w, hw, hkind, rfl⟩ := exists_spelling_of_firstKeyword? h
  have capital := ((isPhrase_spelling kind).2 _ (List.mem_singleton_self _)).2
  refine ⟨kind, ?_⟩
  rw [Statement.readKind, upper_of_spells capital (ht.of_isInfix hw) hkind, String.ofList_toList,
    StatementKind.read?_spelling]

theorem exists_readKind (t : Text) (ht : IsTame t) :
    ∃ kind, Statement.readKind ((firstKeyword? t).getD "SELECT".toList) = .ok kind := by
  cases h : firstKeyword? t with
  | none => exact ⟨.select, by decide⟩
  | some keyword => exact exists_readKind_of_firstKeyword? ht h

theorem exists_setOperation {t : Text} {o : Occurrence} (ht : IsTame t)
    (ho : o ∈ t.topLevelOccurrences setOperation) :
    ∃ operation : SetOperation, readKeyword "UnionClause" "kind" (o.captured 1) =
      .ok operation := by
  obtain ⟨before, hmem⟩ := Select.mem_occurrencesFrom_of_mem_topLevelIn ho
  obtain ⟨hin, body, hbody, hcovers⟩ := captured_of_mem_occurrencesFrom 1 hmem rfl
  have marks : setOperation.marks =
      [(1, oneOf ([["UNION", "ALL"], ["UNION"], ["INTERSECT"], ["EXCEPT"]].map phrase))] := rfl
  simp only [marks, List.mem_singleton, Prod.mk.injEq, true_and] at hbody
  rw [hbody] at hcovers
  refine readKeyword_of_covers _ _ ?_ ((ht.of_isInfix (slice_isInfix _ _ _)).of_isInfix hin) hcovers
  decide

theorem exists_readSetOperation {t : Text} {branch : Text × Text} (ht : IsTame t)
    (h : branch ∈ (splitSetOperations t).2) :
    ∃ operation : SetOperation, readKeyword "UnionClause" "kind" branch.1 = .ok operation := by
  simp only [splitSetOperations] at h
  split at h
  · cases h
  · obtain ⟨o, ho, hkeyword⟩ := List.mem_map.mp (List.of_mem_zip h).1
    rw [← hkeyword]
    exact exists_setOperation ht ho

theorem Outline.legible_of (sql : Text) (h : Tractable sql) : (Outline.of sql).Legible := by
  have text : Tractable (stripTerminator sql) := h.of_isInfix (stripTerminator_isInfix sql)
  have rest : Tractable (splitWith (stripTerminator sql)).rest :=
    text.of_isInfix (rest_splitWith_isInfix _)
  obtain ⟨kind, hkind⟩ := exists_readKind _ rest.tame
  -- Every nested text is a shorter stretch of this one, which keeps it tractable and ends the
  -- recursion.
  have tables : ∀ entry (hentry : entry ∈ (splitWith (stripTerminator sql)).tables),
      (Outline.of entry.2).Legible := by
    intro entry hentry
    have : entry.2.length < sql.length :=
      (length_lt_of_mem_splitWith hentry).trans_le (length_stripTerminator_le sql)
    exact Outline.legible_of entry.2 (text.of_isInfix (isInfix_of_mem_splitWith hentry))
  rw [Outline.of]
  split
  · refine .intro ?_ hkind ?_ ?_ ?_
    · intro x hx
      obtain ⟨⟨entry, hentry⟩, -, rfl⟩ := List.mem_map.mp hx
      exact tables entry hentry
    · exact (rest.of_isInfix (head_splitSetOperations_isInfix _)).of_isInfix (stripParens_isInfix _)
    · intro x hx
      obtain ⟨⟨branch, hbranch⟩, -, rfl⟩ := List.mem_map.mp hx
      exact exists_readSetOperation rest.tame hbranch
    · intro x hx
      obtain ⟨⟨branch, hbranch⟩, -, rfl⟩ := List.mem_map.mp hx
      have : branch.2.stripParens.length < sql.length := by
        have h₁ := length_lt_of_mem_splitSetOperations hbranch
        have h₂ := length_rest_splitWith_le (stripTerminator sql)
        have h₃ := length_stripTerminator_le sql
        have h₄ := length_stripParens_le branch.2
        omega
      exact Outline.legible_of branch.2.stripParens
        ((rest.of_isInfix (isInfix_of_mem_splitSetOperations hbranch)).of_isInfix
          (stripParens_isInfix _))
  · refine .intro ?_ hkind rest (by simp) (by simp)
    intro x hx
    obtain ⟨⟨entry, hentry⟩, -, rfl⟩ := List.mem_map.mp hx
    exact tables entry hentry
termination_by sql.length

namespace Statement

variable {σ : Type} (ids : IdSource σ)

theorem yields_readTables (recursive : Bool) {tables : List (Text × Outline)}
    (h : ∀ x ∈ tables, (ofOutline ids x.2).Yields fun _ => True) :
    (readTables ids recursive tables).Yields fun _ => True := by
  induction tables with
  | nil => exact Reading.yields_pure trivial
  | cons x tables ih =>
    obtain ⟨hx, htables⟩ := List.forall_mem_cons.mp h
    exact hx.bind fun _ _ => (ih htables).bind fun _ _ => Reading.yields_pure trivial

theorem yields_readBranches {branches : List (Text × Outline)}
    (h : ∀ x ∈ branches, (ofOutline ids x.2).Yields fun _ => True)
    (hknown : ∀ x ∈ branches,
      ∃ operation : SetOperation, readKeyword "UnionClause" "kind" x.1 = .ok operation) :
    (readBranches ids branches).Yields fun _ => True := by
  induction branches with
  | nil => exact Reading.yields_pure trivial
  | cons x branches ih =>
    obtain ⟨hx, hbranches⟩ := List.forall_mem_cons.mp h
    obtain ⟨⟨operation, hoperation⟩, hknown⟩ := List.forall_mem_cons.mp hknown
    refine hx.bind fun _ _ => (Reading.yields_ofExcept hoperation).bind fun _ _ => ?_
    exact (ih hbranches hknown).bind fun _ _ => Reading.yields_pure trivial

theorem yields_ofOutline {outline : Outline} (h : outline.Legible) :
    (ofOutline ids outline).Yields fun _ => True := by
  induction h with
  | @intro tables recursive keyword body branches kind _ hkind hbody hknown _ ihtables ihbranches =>
    rw [ofOutline]
    refine (yields_readTables ids recursive ihtables).bind fun ctes _ => ?_
    refine (Reading.yields_ofExcept hkind).bind fun found hfound => ?_
    subst hfound
    have change : ∃ statement, Change.read found body = .ok statement :=
      Change.exists_read found hbody
    obtain ⟨statement, hstatement⟩ := change
    split
    · refine (Select.yields_read ids hbody).bind fun query _ => ?_
      exact (yields_readBranches ids ihbranches hknown).bind fun _ _ => Reading.yields_pure trivial
    · exact (Reading.yields_ofExcept hstatement).bind fun _ _ => Reading.yields_pure trivial

theorem yields_of_tractable {sql : Text} (h : Tractable sql) :
    (read ids sql).Yields fun _ => True :=
  yields_ofOutline ids (Outline.legible_of sql h)

theorem yields_read {sql : Text} (h : Readable sql) : (read ids sql).Yields fun _ => True :=
  yields_of_tractable ids h.tractable

end Statement

end SqlCanvas
