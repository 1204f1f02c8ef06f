import SqlCanvas.Proofs.Change.Where
import SqlCanvas.Proofs.Pattern.Stop
import SqlCanvas.Proofs.Statement.Reference
import SqlCanvas.Proofs.Statement.SetOperation

/-!
# The words of what was read

Where a table, a limit of rows or a filter was read, the text has the keyword that it stands behind,
as a word of its own. Clauses are looked up by the canonical form of their keyword, which no other
keyword has.
-/

namespace SqlCanvas

open Text Nesting Pattern

theorem exists_of_mem_topLevelIn {p : Pattern} {t : Text} {start : Nat} {o : Occurrence}
    (h : o ∈ t.topLevelIn p start t.length) :
    ∃ l x, t = l ++ x ∧ p.occurrenceAt? ⟨lastChar none l, x, l.length, []⟩ = some o := by
  by_cases hstart : start ≤ t.length
  · have front : (t.take start).length = start := List.length_take_of_le hstart
    have whole : t.take start ++ (t.drop start ++ []) = t := by simp
    have found := topLevelIn_eq p (t.take start) (t.drop start) []
    rw [whole, front, List.length_drop, Nat.add_sub_cancel' hstart] at found
    rw [found] at h
    obtain ⟨l, c, x, hx, -, ho⟩ := exists_of_mem_topLevelFrom h
    refine ⟨t.take start ++ l, c :: x, ?_, ?_⟩
    · rw [List.append_assoc, ← hx, List.take_append_drop]
    · rw [lastChar_append, List.length_append, front]
      exact ho
  · obtain ⟨before, hmem⟩ := Select.mem_occurrencesFrom_of_mem_topLevelIn h
    have nothing : t.slice start t.length = [] := by
      rw [Text.slice, List.drop_eq_nil_of_le (by omega), List.take_nil]
    rw [nothing] at hmem
    cases hmem

theorem exists_of_markedPhrase (phrases : List (List String))
    (hphrases : ∀ ks ∈ phrases, IsPhrase ks) (hmarks : (oneOf (phrases.map phrase)).marks = [])
    {b : Option Char} {x : Text} {i : Nat} {o : Occurrence}
    (h : (markedPhrase phrases).occurrenceAt? ⟨b, x, i, []⟩ = some o) :
    ∃ ks ∈ phrases, (phrase ks).Covers (o.captured 1) ∧ ∃ r, x = o.captured 1 ++ r ∧
      (∀ c ∈ b, isWord c = false) ∧ Halts isWord r := by
  obtain ⟨d, u, new, hd, stops, -, -, hcaptures⟩ := exists_stops_of_occurrenceAt? h
  obtain ⟨-, -, -, -, -, before⟩ :=
    startsWith_markedPhrase phrases hphrases _ _ _ _ (List.ne_nil_of_mem hd)
  obtain ⟨c, hc, hd⟩ := exists_mem_of_mem_seq hd
  obtain ⟨rfl, -⟩ := mem_ends_boundary.mp hc
  obtain ⟨e, he, hd⟩ := exists_mem_of_mem_seq hd
  obtain ⟨w, -, -, hw, -, passes, marked⟩ := exists_mark hmarks he
  have captured : o.captured 1 = w := by
    have same : (Marking.of d.captures).find? 1 = (Marking.of e.captures).find? 1 :=
      find?_of_mem_ends hd (List.forall_mem_nil _)
    rw [marked, stops.captures, ← hcaptures] at same
    rw [Occurrence.captured, Occurrence.capture?, findCapture?_eq, same]
    rfl
  obtain ⟨f, hf, -⟩ := exists_mem_of_mem_seq hd
  obtain ⟨-, hend⟩ := mem_ends_boundary.mp hf
  obtain ⟨ks, hks, hcovers⟩ := covers_oneOf_phrase hw
  obtain ⟨l, hlast, hl⟩ := last_of_covers_phrase (b := b) (hphrases ks hks) hcovers
  refine ⟨ks, hks, captured ▸ hcovers, e.rest, captured ▸ passes.rest, before, fun y hy => ?_⟩
  rw [Cursor.atBoundary, passes.before, hlast] at hend
  simpa [hl, Option.mem_def.mp hy] using hend

namespace Select

theorem hasWord_of_mem {t : Text} {start : Nat} {o : Occurrence}
    (h : o ∈ t.topLevelIn clauseKeyword start t.length) {k : String} (hk : [k] ∈ clausePhrases)
    (hfound : canonicalKeyword (o.captured 1) = k) : HasWord k.toList t := by
  have phrases : ∀ ks ∈ clausePhrases, IsPhrase ks ∧ IsAscii (" ".intercalate ks).toList := by
    decide
  have apart : ∀ ks ∈ clausePhrases, ∀ ks' ∈ clausePhrases, " ".intercalate ks =
      " ".intercalate ks' → ks = ks' := by
    decide
  obtain ⟨l, x, rfl, ho⟩ := exists_of_mem_topLevelIn h
  obtain ⟨ks, hks, hcovers, r, rfl, hl, hr⟩ :=
    exists_of_markedPhrase clausePhrases (fun ks hks => (phrases ks hks).1) rfl ho
  have single : " ".intercalate [k] = k := by simp
  have tame : IsTame (o.captured 1) := by
    refine isTame_of_canonicalKeyword ?_
    rw [hfound, ← single]
    exact (phrases _ hk).2
  have spelled :=
    canonicalKeyword_of_covers_phrase (phrases ks hks).1.1 (phrases ks hks).1.2 tame hcovers
  obtain rfl := apart ks hks [k] hk (spelled.symm.trans (hfound.trans single.symm))
  exact ⟨l, o.captured 1, r, rfl, covers_word.mp hcovers, lastChar_none l ▸ hl, hr⟩

theorem map_fst_clauseBodies (t : Text) (os : List Occurrence) :
    (clauseBodies t os).map Prod.fst = os.map fun o => canonicalKeyword (o.captured 1) := by
  fun_induction clauseBodies t os with
  | case1 => rfl
  | case2 o => rfl
  | case3 o next os ih => exact congrArg (canonicalKeyword (o.captured 1) :: ·) ih

theorem hasWord_of_body? {t : Text} {start : Nat} {k : String} (hk : [k] ∈ clausePhrases)
    (h : ((splitClauses t start).body? k).isSome) : HasWord k.toList t := by
  rw [Clauses.body?, Option.isSome_map, List.find?_isSome] at h
  obtain ⟨x, hx, hkeyword⟩ := h
  have known : x.1 ∈ (clauseBodies t (t.topLevelIn clauseKeyword start t.length)).map Prod.fst :=
    List.mem_map_of_mem hx
  rw [map_fst_clauseBodies, beq_iff_eq.mp hkeyword] at known
  obtain ⟨o, ho, hfound⟩ := List.mem_map.mp known
  exact hasWord_of_mem ho hk hfound

theorem isSome_body?_of_readRowLimits {clauses : Clauses} {limits : RowLimits}
    (h : readRowLimits clauses = .ok limits) (hlimit : limits.limit.isSome) :
    (clauses.body? "LIMIT").isSome ∨ (clauses.body? "FETCH").isSome := by
  obtain ⟨first, hfirst, h⟩ := exists_of_bind_eq_ok h
  obtain ⟨offset, -, h⟩ := exists_of_bind_eq_ok h
  by_contra hnone
  obtain ⟨hnone, hnone'⟩ := not_or.mp hnone
  rw [Option.not_isSome_iff_eq_none.mp hnone] at hfirst
  cases hfirst
  obtain ⟨rows, hrows, h⟩ := exists_of_bind_eq_ok h
  rw [Option.not_isSome_iff_eq_none.mp hnone'] at hrows
  cases hrows
  cases h
  cases hlimit

variable {σ : Type} {ids : IdSource σ} {t : Text} {s s' : σ} {q : Query}

theorem hasWord_from_of_read (h : (read ids t).run s = (.ok q, s'))
    (htables : q.tables.length = q.joins.length + 1) : HasWord "FROM".toList t := by
  cases ho : t.findTopLevel? fromTable with
  | none =>
    have := read_of_no_anchor ho h
    omega
  | some o =>
    obtain ⟨k, hk, hword⟩ := hasTopWord_of_mem startsWith_fromTable (List.mem_of_mem_head? ho)
    exact List.mem_singleton.mp hk ▸ hword.hasWord

theorem hasWord_limit_of_read (h : (read ids t).run s = (.ok q, s')) (hlimit : q.limit.isSome) :
    HasWord "LIMIT".toList t ∨ HasWord "FETCH".toList t := by
  obtain ⟨anchored, s₁, -, h⟩ := Reading.exists_of_run_bind h
  obtain ⟨sources, s₂, -, h⟩ := Reading.exists_of_run_bind h
  obtain ⟨hrest, -⟩ := Prod.mk.inj h
  obtain ⟨columnsText, rest, hparts, rfl⟩ := readRest_cases hrest
  obtain ⟨columns, -, hparts⟩ := exists_of_bind_eq_ok hparts
  obtain ⟨filters, -, hparts⟩ := exists_of_bind_eq_ok hparts
  obtain ⟨having, -, hparts⟩ := exists_of_bind_eq_ok hparts
  obtain ⟨limits, hlimits, hparts⟩ := exists_of_bind_eq_ok hparts
  cases hparts
  exact (isSome_body?_of_readRowLimits hlimits hlimit).imp (hasWord_of_body? (by decide))
    (hasWord_of_body? (by decide))

end Select

theorem HoldsWhere.hasWord {t : Text} (h : HoldsWhere t) : HasWord "WHERE".toList t := by
  obtain ⟨l, -, rfl, g, w, g', r, rfl, hg, hw, hg'⟩ := h
  exact ⟨l ++ g, w, g' ++ r, by simp, hw, hg.last_not_isWord l, hg'.halts_isWord r⟩

namespace Change

theorem isSome_of_readFilter? {t : Option Text} {g : Option FilterGroup} (h : readFilter? t = .ok g)
    (hg : g.isSome) : t.isSome := by
  cases t with
  | none =>
    cases h
    cases hg
  | some t => rfl

/-- The patterns for updates and deletions end with the same optional part. -/
theorem holdsWhere_of_capture? (ps : List Pattern) {t : Text} {m : Match} {slot : Nat}
    (hm :
      (all (ps ++ [.maybe (.all [blank, word "WHERE", blank, .capture slot (.many anything)]),
        .textEnd])).match? t =
      some m) (hslot : ∀ x ∈ (all ps).marks, x.1 ≠ slot) (h : (m.capture? slot).isSome) :
      HoldsWhere t := by
  obtain ⟨l, u, r, rfl, g, _, hg, ⟨w, _, hw, ⟨g', v, hg', -, rfl⟩, rfl⟩, rfl⟩ :=
    exists_covers_of_capture? hm hslot h
  exact ⟨l, _, rfl, g, w, g', v ++ r, by simp, covers_many1.mp hg, covers_word.mp hw,
    covers_many1.mp hg'⟩

theorem holdsWhere_of_read {kind : StatementKind} {t : Text} {s : Statement}
    (h : read kind t = .ok s) (hfilters : s.query.filters.isSome) : HoldsWhere t := by
  cases kind with
  | select | insert | create | alter | drop | truncate =>
    cases h
    cases hfilters
  | update =>
    obtain ⟨⟨fragment, filter⟩, hread, h⟩ := exists_of_bind_eq_ok h
    cases h
    rw [readUpdate] at hread
    split at hread
    · cases hread
      cases hfilters
    · rename_i m hm
      obtain ⟨found, hfound, hread⟩ := exists_of_bind_eq_ok hread
      cases hread
      exact holdsWhere_of_capture? [.textStart, blanks, word "UPDATE", blank,
        .capture 1 identifier, blank, word "SET", blank, .capture 2 (.few anything)] hm (by decide)
          (isSome_of_readFilter? hfound hfilters)
  | delete =>
    obtain ⟨⟨fragment, filter⟩, hread, h⟩ := exists_of_bind_eq_ok h
    cases h
    rw [readDelete] at hread
    split at hread
    · cases hread
      cases hfilters
    · rename_i m hm
      obtain ⟨found, hfound, hread⟩ := exists_of_bind_eq_ok hread
      cases hread
      exact holdsWhere_of_capture? [.textStart, blanks, word "DELETE", blank, word "FROM", blank,
        .capture 1 identifier] hm (by decide) (isSome_of_readFilter? hfound hfilters)

end Change

end SqlCanvas
