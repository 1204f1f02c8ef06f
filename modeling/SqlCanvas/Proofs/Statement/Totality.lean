import SqlCanvas.Proofs.Statement.Reading
import SqlCanvas.Proofs.Statement.Steps
import SqlCanvas.Proofs.Text.Infix
import SqlCanvas.Proofs.Text.Keyword
import SqlCanvas.Statement.Read

/-!
# Texts that can always be read

Reading fails for two reasons only: a keyword whose letters are not those of its capital form, and a
whole number with too many digits. A text is tractable when it has neither; ASCII text with short
numbers is called readable. Everything that is cut out of such a text is so again, and each reader
succeeds on it.
-/

namespace SqlCanvas

open Text Pattern

/-- No run of digits is longer than may be read. -/
def ShortNumerals (t : Text) : Prop :=
  ∀ s, s <:+: t → (∀ c ∈ s, isDecimal c = true) → s.length ≤ Numeral.digitLimit

/-- ASCII text in which no run of digits is longer than may be read. -/
structure Readable (t : Text) : Prop where
  ascii : IsAscii t
  numerals : ∀ s, s <:+: t → (∀ c ∈ s, isDecimal c = true) → s.length ≤ Numeral.digitLimit

/-- Text in any script that every reader copes with. -/
structure Tractable (t : Text) : Prop where
  tame : IsTame t
  numerals : ShortNumerals t

theorem ShortNumerals.of_isInfix {s t : Text} (h : ShortNumerals t) (hs : s <:+: t) :
    ShortNumerals s :=
  fun u hu => h u (hu.trans hs)

theorem ShortNumerals.append_cons {s t : Text} {c : Char} (hs : ShortNumerals s)
    (ht : ShortNumerals t) (hd : isDecimal c = false) : ShortNumerals (s ++ c :: t) := by
  intro u hu hdigits
  have absent : c ∉ u := by
    intro hmem
    simp [hdigits c hmem] at hd
  rcases List.infix_append_iff.mp hu with h | h | ⟨l, r, rfl, hl, hr⟩
  · exact hs u h hdigits
  · rcases List.infix_cons_iff.mp h with h | h
    · cases u with
      | nil => exact Nat.zero_le _
      | cons d u =>
        obtain ⟨rfl, -⟩ := List.cons_prefix_cons.mp h
        exact absurd List.mem_cons_self absent
    · exact ht u h hdigits
  · cases r with
    | nil => exact hs _ (by simpa using hl.isInfix) hdigits
    | cons d r =>
      obtain ⟨rfl, -⟩ := List.cons_prefix_cons.mp hr
      exact absurd (List.mem_append_right _ List.mem_cons_self) absent

namespace Readable

theorem of_isInfix {s t : Text} (h : Readable t) (hs : s <:+: t) : Readable s where
  ascii := h.ascii.of_isInfix hs
  numerals := ShortNumerals.of_isInfix h.numerals hs

theorem of_short {t : Text} (ha : IsAscii t) (hl : t.length ≤ Numeral.digitLimit) : Readable t where
  ascii := ha
  numerals _ hs _ := hs.length_le.trans hl

theorem append_cons {s t : Text} {c : Char} (hs : Readable s) (ht : Readable t)
    (hc : c.toNat < 128) (hd : isDecimal c = false) : Readable (s ++ c :: t) where
  ascii := List.forall_mem_append.mpr ⟨hs.ascii, List.forall_mem_cons.mpr ⟨hc, ht.ascii⟩⟩
  numerals := ShortNumerals.append_cons hs.numerals ht.numerals hd

theorem tractable {t : Text} (h : Readable t) : Tractable t :=
  ⟨h.ascii.isTame, h.numerals⟩

end Readable

namespace Tractable

theorem of_isInfix {s t : Text} (h : Tractable t) (hs : s <:+: t) : Tractable s where
  tame := h.tame.of_isInfix hs
  numerals := h.numerals.of_isInfix hs

theorem nil : Tractable [] :=
  (Readable.of_short (by decide) (Nat.zero_le _)).tractable

theorem append_cons {s t : Text} {c : Char} (hs : Tractable s) (ht : Tractable t)
    (hc : c.toNat < 128) (hd : isDecimal c = false) : Tractable (s ++ c :: t) where
  tame := List.forall_mem_append.mpr ⟨hs.tame, List.forall_mem_cons.mpr ⟨by omega, ht.tame⟩⟩
  numerals := hs.numerals.append_cons ht.numerals hd

end Tractable

theorem exists_readWhole {p : Pattern} {t s : Text} (slot : Nat) (ht : Tractable t)
    (hs : s = [] ∨ p.Marks t slot s) (hp : ∀ body, (slot, body) ∈ p.marks → body = digits) :
    ∃ n, readWhole s = .ok n := by
  have short : s.length ≤ Numeral.digitLimit := by
    rcases hs with rfl | ⟨hin, body, hbody, hcovers⟩
    · exact Nat.zero_le _
    · rw [hp body hbody] at hcovers
      exact ht.numerals s hin (covers_many1.mp hcovers).2
  exact ⟨_, if_pos short⟩

theorem exists_literal {t : Text} (h : Tractable t) : ∃ value, Literal.read t = .ok value := by
  rw [Literal.read]
  split
  · exact ⟨_, rfl⟩
  · split
    · exact ⟨_, rfl⟩
    · split
      · rename_i m hm
        have marks : Literal.integer.marks = [(1, exactly '-'), (2, digits)] := rfl
        refine exists_ok_bind (exists_readWhole 2 h (captured_eq_nil_or_marks hm) ?_)
          fun n _ => ⟨_, rfl⟩
        simp [marks]
      · split <;> exact ⟨_, rfl⟩

namespace Filter

theorem exists_readValue (operator : Option FilterOperator) (raw : Option Text)
    (h : ∀ t, raw = some t → Tractable t) : ∃ value, readValue operator raw = .ok value := by
  rw [readValue.eq_def]
  split
  all_goals first
    | exact ⟨_, rfl⟩
    | exact exists_literal ((h _ rfl).of_isInfix (trim_isInfix _))

def operatorPhrases : List (List String) :=
  [["NOT", "BETWEEN"], ["BETWEEN"], ["IS", "NOT", "NULL"], ["IS", "NULL"], ["NOT", "LIKE"],
    ["LIKE"], ["NOT", "IN"], ["IN"]]

theorem operator?_of_phrase : ∀ ks ∈ operatorPhrases,
    IsPhrase ks ∧ (operator? (" ".intercalate ks)).isSome := by
  decide

theorem operator?_of_sign : ∀ s ∈ signs, (operator? (canonicalKeyword s.toList)).isSome := by
  decide

theorem covers_sign {s : String} {u : Text} (h : (sign s).Covers u) : u = s.toList := by
  rw [sign] at h
  generalize s.toList = k at h
  induction k generalizing u with
  | nil => exact h
  | cons c k ih =>
    obtain ⟨v, w, ⟨d, hd, rfl⟩, hw, rfl⟩ := h
    rw [ih hw, beq_iff_eq.mp hd]
    rfl

theorem exists_operator? {u : Text} (hu : IsTame u)
    (h : (oneOf (wordOperators ++ signs.map sign)).Covers u) :
    ∃ operator, operator? (canonicalKeyword u) = some operator := by
  obtain ⟨p, hp, hcovers⟩ := covers_oneOf.mp h
  rcases List.mem_append.mp hp with hp | hp
  · obtain ⟨ks, hks, rfl⟩ := List.mem_map.mp hp
    obtain ⟨v, w, hv, rfl, rfl⟩ := hcovers
    obtain ⟨⟨hne, hwords⟩, hsome⟩ := operator?_of_phrase ks hks
    rw [List.append_nil] at hu ⊢
    rw [canonicalKeyword_of_covers_phrase hne hwords hu hv]
    exact Option.isSome_iff_exists.mp hsome
  · obtain ⟨s, hs, rfl⟩ := List.mem_map.mp hp
    rw [covers_sign hcovers]
    exact Option.isSome_iff_exists.mp (operator?_of_sign s hs)

theorem exists_existenceOperator {t : Text} {m : Match} (h : Tractable t)
    (hm : existence.match? t = some m) :
    ∃ operator : FilterOperator, readKeyword "FilterCondition" "operator" (m.captured 1) =
      .ok operator := by
  obtain ⟨hin, body, hbody, hcovers⟩ := captured_of_match? 1 hm rfl
  have marks : existence.marks =
      [(1, oneOf ([["NOT", "EXISTS"], ["EXISTS"]].map phrase)), (2, many1 anything)] := rfl
  simp only [marks, List.mem_cons, Prod.mk.injEq, true_and, List.not_mem_nil, or_false] at hbody
  rw [hbody.resolve_right (by simp)] at hcovers
  refine readKeyword_of_covers _ _ ?_ (h.tame.of_isInfix hin) hcovers
  decide

theorem exists_predicateOperator {t : Text} {m : Match} (h : Tractable t)
    (hm : predicate.match? t = some m) :
    ∃ operator, operator? (canonicalKeyword (m.captured 2)) = some operator := by
  obtain ⟨hin, body, hbody, hcovers⟩ := captured_of_match? 2 hm rfl
  have marks : predicate.marks = [(1, operand), (2, oneOf (wordOperators ++ signs.map sign)),
      (3, many1 anything)] := rfl
  simp only [marks, List.mem_cons, Prod.mk.injEq, true_and, List.not_mem_nil, or_false] at hbody
  rw [(hbody.resolve_left (by simp)).resolve_right (by simp)] at hcovers
  exact exists_operator? (h.tame.of_isInfix hin) hcovers

theorem exists_readCondition (scope : Scope) {t : Text} (h : Tractable t) :
    ∃ c, readCondition scope t = .ok c ∧
      c.isSome = ((existence.match? t).isSome || (predicate.match? t).isSome) := by
  rw [readCondition]
  cases hm : existence.match? t with
  | some m =>
    obtain ⟨operator, hop⟩ := exists_existenceOperator h hm
    simp only [hop]
    exact ⟨_, rfl, rfl⟩
  | none =>
    cases hm : predicate.match? t with
    | none => exact ⟨_, rfl, rfl⟩
    | some m =>
      obtain ⟨operator, hop⟩ := exists_predicateOperator h hm
      obtain ⟨value, hvalue⟩ := exists_readValue (some operator) (m.capture? 3)
        fun s hs => h.of_isInfix (marks_of_match? hm hs).1
      simp only [hop, hvalue]
      exact ⟨_, rfl, rfl⟩

theorem exists_readConditions (scope : Scope) {conjuncts : List Text}
    (h : ∀ t ∈ conjuncts, Tractable t) : ∃ cs, readConditions scope conjuncts = .ok cs := by
  refine exists_ok_bind (exists_ok_mapM fun t ht => ?_) fun cs _ => ⟨_, rfl⟩
  obtain ⟨s, hs, rfl⟩ := List.mem_map.mp (List.mem_of_mem_filter ht)
  obtain ⟨c, hc, -⟩ := exists_readCondition scope ((h s hs).of_isInfix (stripParens_isInfix s))
  exact ⟨c, hc⟩

theorem forall_mem_joinRanges {P : Text → Prop}
    (glue : ∀ s t, P s → P t → P (s ++ " AND ".toList ++ t)) {pieces : List Text}
    (h : ∀ t ∈ pieces, P t) :
    ∀ t ∈ joinRanges pieces, P t := by
  fun_induction joinRanges pieces with
  | case1 => simp
  | case2 piece => exact h
  | case3 piece next pieces _ ih =>
    obtain ⟨h₁, h₂⟩ := List.forall_mem_cons.mp h
    obtain ⟨h₂, h₃⟩ := List.forall_mem_cons.mp h₂
    exact List.forall_mem_cons.mpr ⟨glue piece next h₁ h₂, ih h₃⟩
  | case4 piece next pieces _ ih =>
    obtain ⟨h₁, h₂⟩ := List.forall_mem_cons.mp h
    exact List.forall_mem_cons.mpr ⟨h₁, ih h₂⟩

theorem readable_splitConjuncts {t : Text} (h : Readable t) :
    ∀ s ∈ splitConjuncts t, Readable s := by
  refine forall_mem_joinRanges (fun s t hs ht => ?_)
    fun _ hs => h.of_isInfix (isInfix_of_mem_splitTopLevel hs)
  have word : Readable "AND".toList := .of_short (by decide) (by decide)
  have := (hs.append_cons word (c := ' ') (by decide) (by decide)).append_cons ht (c := ' ')
    (by decide) (by decide)
  simpa using this

theorem tractable_splitConjuncts {t : Text} (h : Tractable t) :
    ∀ s ∈ splitConjuncts t, Tractable s := by
  refine forall_mem_joinRanges (fun s t hs ht => ?_)
    fun _ hs => h.of_isInfix (isInfix_of_mem_splitTopLevel hs)
  have word : Tractable "AND".toList := (Readable.of_short (by decide) (by decide)).tractable
  have := (hs.append_cons word (c := ' ') (by decide) (by decide)).append_cons ht (c := ' ')
    (by decide) (by decide)
  simpa using this

theorem exists_readBranch (scope : Scope) {branch : Text} (h : Tractable branch) :
    ∃ nodes, readBranch scope branch = .ok nodes := by
  refine exists_ok_bind (exists_readConditions scope ?_) fun cs _ => ⟨_, rfl⟩
  exact tractable_splitConjuncts (h.of_isInfix (stripParens_isInfix branch))

theorem exists_read (scope : Scope) {t : Text} (h : Tractable t) : ∃ g, read scope t = .ok g := by
  have stripped := h.of_isInfix (stripParens_isInfix t)
  rw [read]
  split
  · refine exists_ok_bind (exists_ok_mapM fun branch hb => ?_) fun children _ => ⟨_, rfl⟩
    exact exists_readBranch scope (stripped.of_isInfix (isInfix_of_mem_splitTopLevel hb))
  · exact exists_ok_bind (exists_readConditions scope (tractable_splitConjuncts stripped))
      fun cs _ => ⟨_, rfl⟩

end Filter

namespace Change

theorem exists_readFilter? {t : Option Text} (h : ∀ s, t = some s → Tractable s) :
    ∃ g, readFilter? t = .ok g := by
  rw [readFilter?.eq_def]
  split
  · exact exists_ok_bind (Filter.exists_read _ (h _ rfl)) fun g _ => ⟨_, rfl⟩
  · exact ⟨_, rfl⟩

theorem exists_read (kind : StatementKind) {t : Text} (h : Tractable t) :
    ∃ statement, read kind t = .ok statement := by
  cases kind with
  | update =>
    refine exists_ok_bind ?_ fun _ _ => ⟨_, rfl⟩
    rw [readUpdate]
    split
    · exact ⟨_, rfl⟩
    · rename_i m hm
      exact exists_ok_bind
        (exists_readFilter? fun s hs => h.of_isInfix (marks_of_match? hm hs).1) fun _ _ => ⟨_, rfl⟩
  | delete =>
    refine exists_ok_bind ?_ fun _ _ => ⟨_, rfl⟩
    rw [readDelete]
    split
    · exact ⟨_, rfl⟩
    · rename_i m hm
      exact exists_ok_bind
        (exists_readFilter? fun s hs => h.of_isInfix (marks_of_match? hm hs).1) fun _ _ => ⟨_, rfl⟩
  | _ => exact ⟨_, rfl⟩

end Change

namespace Select

variable {σ : Type} (ids : IdSource σ)

theorem mem_occurrencesFrom_of_mem_topLevelIn {p : Pattern} {t : Text} {start stop : Nat}
    {o : Occurrence} (h : o ∈ t.topLevelIn p start stop) :
    ∃ before, o ∈ p.occurrencesFrom before (t.slice start stop) start 0 :=
  ⟨_, List.mem_of_mem_filter h⟩

theorem joinKinds_read : ∀ ks ∈ [["LEFT", "OUTER"], ["LEFT", "ANTI"], ["LEFT", "SEMI"],
    ["RIGHT", "OUTER"], ["RIGHT", "ANTI"], ["RIGHT", "SEMI"], ["FULL", "OUTER"], ["INNER"],
    ["LEFT"], ["RIGHT"], ["FULL"], ["CROSS"], ["NATURAL"], ["SELF"]],
    IsPhrase ks ∧ (Vocabulary.read? (α := JoinKind) (" ".intercalate ks)).isSome := by
  decide

theorem exists_joinKind {t : Text} {start stop : Nat} {o : Occurrence} {keyword : Text}
    (ht : Tractable t) (ho : o ∈ t.topLevelIn joinTable start stop)
    (hk : o.capture? 1 = some keyword) :
    ∃ kind : JoinKind, readKeyword "Join" "join_type" keyword = .ok kind := by
  obtain ⟨before, hmem⟩ := mem_occurrencesFrom_of_mem_topLevelIn ho
  obtain ⟨hin, body, hbody, hcovers⟩ := marks_of_mem_occurrencesFrom hmem hk
  have marks : joinTable.marks = [(1, oneOf joinKinds), (2, identifier), (3, name)] := rfl
  simp only [marks, List.mem_cons, Prod.mk.injEq, true_and, List.not_mem_nil, or_false] at hbody
  rw [(hbody.resolve_right (by simp))] at hcovers
  exact readKeyword_of_covers "Join" "join_type" joinKinds_read
    ((ht.of_isInfix (slice_isInfix _ _ _)).tame.of_isInfix hin) hcovers

theorem yields_readJoin (sources : Sources) {t : Text} {start stop : Nat} {o : Occurrence}
    (segment : Text) (ht : Tractable t) (ho : o ∈ t.topLevelIn joinTable start stop) :
    (readJoin ids sources o segment).Yields fun _ => True := by
  refine Reading.Yields.bind (P := fun _ => True) ?_ fun _ _ => ?_
  · exact (Reading.yields_nextId ids "table").bind fun _ _ => Reading.yields_pure trivial
  refine (Reading.yields_nextId ids "join").bind fun _ _ => ?_
  refine Reading.Yields.bind (P := fun _ => True) ?_ fun _ _ => Reading.yields_pure trivial
  split
  · rename_i keyword hk
    obtain ⟨kind, hkind⟩ := exists_joinKind ht ho hk
    exact (Reading.yields_ofExcept hkind).mono fun _ _ => trivial
  · exact (Reading.yields_ofExcept rfl).mono fun _ _ => trivial

theorem mem_of_mem_joinSegments {t : Text} {stop : Nat} {os : List Occurrence}
    {x : Occurrence × Text} (h : x ∈ joinSegments t stop os) : x.1 ∈ os := by
  fun_induction joinSegments t stop os with
  | case1 => cases h
  | case2 o => rw [List.mem_singleton.mp h]; exact List.mem_singleton_self _
  | case3 o next os ih =>
    rcases List.mem_cons.mp h with rfl | h
    · exact List.mem_cons_self
    · exact List.mem_cons_of_mem _ (ih h)

theorem yields_readJoins (sources : Sources) {t : Text} {start stop : Nat}
    {segments : List (Occurrence × Text)} (ht : Tractable t)
    (h : ∀ x ∈ segments, x.1 ∈ t.topLevelIn joinTable start stop) :
    (readJoins ids sources segments).Yields fun _ => True := by
  induction segments generalizing sources with
  | nil => exact Reading.yields_pure trivial
  | cons x segments ih =>
    obtain ⟨hx, hs⟩ := List.forall_mem_cons.mp h
    exact (yields_readJoin ids sources x.2 ht hx).bind fun sources _ => ih sources hs

theorem yields_readAnchor (o : Option Occurrence) :
    (readAnchor ids o).Yields fun _ => True := by
  cases o with
  | none => exact Reading.yields_pure trivial
  | some o =>
    refine Reading.Yields.bind (P := fun _ => True) ?_ fun _ _ => Reading.yields_pure trivial
    exact (Reading.yields_nextId ids "table").bind fun _ _ => Reading.yields_pure trivial

theorem exists_aggregateFunction {item : Text} {m : Match} (h : Tractable item)
    (hm : aggregateItem.match? item = some m) : ∃ aggregate : Aggregate,
      readKeyword "SelectedColumn" "aggregate_function" (m.captured 1) = .ok aggregate := by
  obtain ⟨hin, body, hbody, hcovers⟩ := captured_of_match? 1 hm rfl
  have marks : aggregateItem.marks = [
      (1, oneOf ([["COUNT"], ["SUM"], ["AVG"], ["MIN"], ["MAX"]].map phrase)),
      (2, .seq (word "DISTINCT") blank), (3, name), (4, name), (5, name)] := rfl
  simp only [marks, List.mem_cons, Prod.mk.injEq, true_and, List.not_mem_nil, or_false] at hbody
  rw [hbody.resolve_right (by simp)] at hcovers
  refine readKeyword_of_covers _ _ ?_ (h.tame.of_isInfix hin) hcovers
  decide

theorem exists_aggregateOf {item : Text} {m : Match} (h : Tractable item)
    (hm : aggregateItem.match? item = some m) : ∃ aggregate, aggregateOf m = .ok aggregate := by
  rw [aggregateOf]
  split
  · exact ⟨_, rfl⟩
  · exact exists_aggregateFunction h hm

theorem exists_readColumn (scope : Scope) {item : Text} (h : Tractable item) :
    ∃ c, readColumn scope item = .ok c := by
  rw [readColumn]
  split
  · exact ⟨_, rfl⟩
  · split
    · exact ⟨_, rfl⟩
    · split
      · rename_i m hm
        split
        · obtain ⟨aggregate, ha⟩ := exists_aggregateOf h hm
          rw [readAggregate_eq, ha]
          exact ⟨_, rfl⟩
        · exact ⟨_, rfl⟩
      · exact ⟨_, rfl⟩

theorem exists_readFilter? (scope : Scope) {t : Option Text} (h : ∀ s, t = some s → Tractable s) :
    ∃ g, readFilter? scope t = .ok g := by
  cases t with
  | none => exact ⟨_, rfl⟩
  | some s => exact exists_ok_bind (Filter.exists_read scope (h s rfl)) fun _ _ => ⟨_, rfl⟩

theorem exists_readLimit {t : Text} (h : Tractable t) : ∃ limits, readLimit t = .ok limits := by
  have marks : limitNumbers.marks = [(1, digits), (2, digits)] := rfl
  rw [readLimit]
  split
  · exact ⟨_, rfl⟩
  · rename_i m hm
    have first := exists_readWhole 1 h (captured_eq_nil_or_marks hm) (by simp [marks])
    split
    · rename_i count hc
      have second := exists_readWhole 2 h (.inr (marks_of_match? hm hc)) (by simp [marks])
      exact exists_ok_bind first fun _ _ => exists_ok_bind second fun _ _ => ⟨_, rfl⟩
    · exact exists_ok_bind first fun _ _ => ⟨_, rfl⟩

theorem exists_readNumber? {p : Pattern} {t : Text} (h : Tractable t)
    (hp : ∀ body, (1, body) ∈ p.marks → body = digits) : ∃ n, readNumber? p t = .ok n := by
  rw [readNumber?]
  split
  · exact ⟨_, rfl⟩
  · rename_i m hm
    exact exists_ok_bind (exists_readWhole 1 h (captured_eq_nil_or_marks hm) hp)
      fun _ _ => ⟨_, rfl⟩

theorem tractable_clauseBodies {t : Text} (h : Tractable t) (os : List Occurrence) :
    ∀ x ∈ clauseBodies t os, Tractable x.2 := by
  fun_induction clauseBodies t os with
  | case1 => simp
  | case2 o =>
    simp only [List.mem_singleton, forall_eq]
    exact h.of_isInfix ((trim_isInfix _).trans (drop_isInfix _ _))
  | case3 o next os ih =>
    refine List.forall_mem_cons.mpr ⟨?_, ih⟩
    exact h.of_isInfix ((trim_isInfix _).trans (slice_isInfix _ _ _))

theorem tractable_body? {t s : Text} {start : Nat} {keyword : String} (h : Tractable t)
    (hs : (splitClauses t start).body? keyword = some s) : Tractable s := by
  obtain ⟨x, hx, rfl⟩ := Option.map_eq_some_iff.mp hs
  exact tractable_clauseBodies h _ x (List.mem_of_find?_eq_some hx)

theorem tractable_getD_body? {t : Text} (start : Nat) (keyword : String) (h : Tractable t) :
    Tractable (((splitClauses t start).body? keyword).getD []) := by
  cases hs : (splitClauses t start).body? keyword with
  | none => exact .nil
  | some s => exact tractable_body? h hs

theorem exists_readRowLimits {t : Text} (start : Nat) (h : Tractable t) :
    ∃ limits, readRowLimits (splitClauses t start) = .ok limits := by
  have offset : offsetNumber.marks = [(1, digits)] := rfl
  have fetch : fetchNumber.marks = [(1, digits)] := rfl
  refine exists_ok_bind (exists_readLimit (tractable_getD_body? start "LIMIT" h)) fun limits _ => ?_
  refine exists_ok_bind (exists_readNumber? (tractable_getD_body? start "OFFSET" h)
    (by simp [offset])) fun _ _ => ?_
  simp only
  split
  · exact ⟨_, rfl⟩
  · exact exists_ok_bind (exists_readNumber? (tractable_getD_body? start "FETCH" h)
      (by simp [fetch])) fun _ _ => ⟨_, rfl⟩

theorem exists_readColumns (scope : Scope) {columnsText : Option Text}
    (h : ∀ s, columnsText = some s → Tractable s) :
    ∃ columns, readColumns scope columnsText = .ok columns := by
  rw [readColumns.eq_def]
  split
  · split
    · exact ⟨_, rfl⟩
    · exact exists_ok_mapM fun item hi =>
        exists_readColumn _ ((h _ rfl).of_isInfix (isInfix_of_mem_splitTopLevel hi))
  · exact ⟨_, rfl⟩

theorem isInfix_of_columnsText? {t s : Text} {head : Option Match} {anchor : Option Occurrence}
    (h : columnsText? t head anchor = some s) : s <:+: t := by
  obtain ⟨head, -, h⟩ := Option.bind_eq_some_iff.mp h
  obtain ⟨anchor, -, h⟩ := Option.bind_eq_some_iff.mp h
  cases h
  exact (trim_isInfix _).trans (slice_isInfix _ _ _)

theorem exists_readRest {t : Text} (anchor : Option Occurrence) (start : Nat) (sources : Sources)
    (h : Tractable t) : ∃ q, readRest t anchor (splitClauses t start) sources = .ok q := by
  have parts : ∃ rest, readParts sources.scope (columnsText? t (selectHead.match? t) anchor)
      (splitClauses t start) = .ok rest := by
    refine exists_ok_bind (exists_readColumns _ fun s hs => ?_) fun _ _ => ?_
    · exact h.of_isInfix (isInfix_of_columnsText? hs)
    refine exists_ok_bind (exists_readFilter? _ fun s hs => tractable_body? h hs) fun _ _ => ?_
    refine exists_ok_bind (exists_readFilter? _ fun s hs => tractable_body? h hs) fun _ _ => ?_
    exact exists_ok_bind (exists_readRowLimits start h) fun _ _ => ⟨_, rfl⟩
  obtain ⟨rest, hrest⟩ := parts
  rw [readRest_eq]
  simp only [hrest]
  exact ⟨_, rfl⟩

theorem yields_read {t : Text} (h : Tractable t) : (read ids t).Yields fun _ => True := by
  refine (yields_readAnchor ids _).bind fun _ _ => ?_
  refine (yields_readJoins ids _ h fun x hx => mem_of_mem_joinSegments hx).bind fun sources _ => ?_
  obtain ⟨q, hq⟩ := exists_readRest (t.findTopLevel? fromTable)
    (((t.findTopLevel? fromTable).map (·.stop)).getD 0) sources h
  exact (Reading.yields_ofExcept hq).mono fun _ _ => trivial

end Select

end SqlCanvas
