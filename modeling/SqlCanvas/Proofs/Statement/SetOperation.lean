import SqlCanvas.Proofs.Nesting.Search
import SqlCanvas.Proofs.Pattern.Stop
import SqlCanvas.Proofs.Statement.Lead
import SqlCanvas.Proofs.Text.Place

/-!
# Set operations at the top level

A statement is cut at a set operation just when one of the words `UNION`, `INTERSECT` and `EXCEPT`
stands outside quotes and parentheses. So none stands there in an operand, and the operands and the
keywords between them make up the statement.
-/

namespace SqlCanvas

open Text Nesting Pattern

theorem exists_word_of_mem {p : Pattern} {keywords : List String} (hp : StartsWith keywords p)
    {t : Text} {o : Occurrence} (h : o ∈ t.topLevelOccurrences p) :
    ∃ k ∈ keywords, ∃ l w r, t = l ++ (w ++ r) ∧
      Spells k.toList w ∧ (∀ c ∈ l.getLast?, isWord c = false) ∧ Halts isWord r ∧
      outside.after l = outside ∧
      o.start = l.length := by
  rw [topLevelOccurrences_eq] at h
  obtain ⟨l, c, x, rfl, htop, ho⟩ := exists_of_mem_topLevelFrom h
  obtain ⟨d, -, -, hd, -, hstart, -⟩ := exists_stops_of_occurrenceAt? ho
  obtain ⟨w, r, hwr, hr, ⟨k, hk, -, hw⟩, hl⟩ := hp _ _ _ _ (List.ne_nil_of_mem hd)
  rw [lastChar_none] at hl
  rw [hwr]
  exact ⟨k, hk, l, w, r, rfl, hw, hl, hr, eq_outside_of_seesTopLevel htop,
    hstart.trans (Nat.zero_add _)⟩

theorem hasTopWord_of_mem {p : Pattern} {keywords : List String} (hp : StartsWith keywords p)
    {t : Text} {o : Occurrence} (h : o ∈ t.topLevelOccurrences p) :
    ∃ k ∈ keywords, HasTopWord k.toList t := by
  obtain ⟨k, hk, l, w, r, ht, hw, hl, hr, htop, -⟩ := exists_word_of_mem hp h
  exact ⟨k, hk, l, w, r, ht, hw, hl, hr, htop⟩

theorem isKeyword_setKeywords : ∀ k ∈ setKeywords, IsKeyword k.toList := by
  decide

/-- A set operation stands at the top level of the text. -/
def Text.HasOperation (t : Text) : Prop :=
  ∃ k ∈ setKeywords, HasTopWord k.toList t

theorem Text.hasOperation_append_blanks {g : Text} (hg : ∀ c ∈ g, isBlank c = true) (t : Text) :
    HasOperation (t ++ g) ↔ HasOperation t := by
  refine exists_congr fun k => and_congr_right fun hk => ?_
  exact hasTopWord_append_blanks (isKeyword_setKeywords k hk) hg t

theorem isSearchable_setOperation : setOperation.IsSearchable where
  shy := by decide
  floats := by decide
  ne_nil u hu := by
    obtain ⟨ks, hks, hphrase⟩ := covers_markedPhrase setPhrases hu
    have phrases : ∀ ks ∈ setPhrases, IsPhrase ks := by decide
    obtain ⟨c, hc, -⟩ := last_of_covers_phrase (b := none) (phrases ks hks) hphrase
    rintro rfl
    cases hc

theorem not_refuses_setOperation {k : String} (hk : k ∈ setKeywords) {b : Option Char} {w r : Text}
    (hw : Spells k.toList w) (hb : ∀ c ∈ b, isWord c = false) (hr : Halts isWord r) :
    ¬ setOperation.Refuses b (w ++ r) := by
  have single : ∀ k ∈ setKeywords, [k] ∈ setPhrases := by decide
  have member : word k ∈ setPhrases.map phrase := List.mem_map.mpr ⟨[k], single k hk, rfl⟩
  refine fun refused => ends_bounded_ne_nil (hw.isName (isKeyword_setKeywords k hk)) hb hr
    (fun i captures => ?_) 0 [] (refused 0 [])
  obtain ⟨captures', hword⟩ := (takes_word hw).exists_mem (b := b) (r := r) i captures
  exact ⟨_, List.mem_map.mpr ⟨_, mem_ends_oneOf member hword, rfl⟩⟩

/-- In a vacant stretch no set operation stands at the top level, where the stretch does not cut a
word in two. -/
theorem Vacant.not_hasOperation {b : Option Char} {u r : Text}
    (h : Vacant setOperation outside b u r) (hb : (∀ c ∈ b, isWord c = false) ∨ Halts isWord u)
    (hr : Halts isWord r ∨ ∀ c ∈ u.getLast?, isWord c = false) :
    ¬ HasOperation u := by
  rintro ⟨k, hk, l, w, v, rfl, hw, hl, hv, htop⟩
  have name := hw.isName (isKeyword_setKeywords k hk)
  have front : ∀ c ∈ lastChar b l, isWord c = false := by
    rcases List.eq_nil_or_concat' l with rfl | ⟨l, d, rfl⟩
    · exact hb.resolve_right (not_halts_of_isName name v)
    · simpa using hl
  have back : Halts isWord (v ++ r) := by
    cases v with
    | nil =>
      refine hr.resolve_right fun hlast => ?_
      obtain ⟨c, hc, hend⟩ := lastChar_of_ne_nil name.1 (lastChar none l)
      rw [← lastChar_append, lastChar_none] at hend
      have := hlast c (by rw [List.append_nil, hend]; rfl)
      rw [name.2 c hc] at this
      cases this
    | cons d v => exact (halts_append (List.cons_ne_nil d v) r).mpr hv
  obtain ⟨c, w, rfl⟩ := List.exists_cons_of_ne_nil name.1
  refine not_refuses_setOperation hk hw front back ?_
  have refused := h l c (w ++ v) rfl (by
    rw [htop]
    exact seesTopLevel_outside (not_isSpecial_of_isWord (name.2 c List.mem_cons_self)))
  rwa [List.append_assoc] at refused

/-- A text is cut at set operations just when one stands at its top level. -/
theorem topLevelOccurrences_setOperation_eq_nil_iff (t : Text) :
    t.topLevelOccurrences setOperation = [] ↔ ¬ HasOperation t := by
  rw [topLevelOccurrences_eq_nil_iff isSearchable_setOperation]
  constructor
  · exact fun h => h.not_hasOperation (.inl (by simp)) (.inl (halts_nil _))
  · intro hnone l c x ht htop i captures
    by_contra hends
    have words : ∀ k ∈ ["UNION", "UNION", "INTERSECT", "EXCEPT"], k ∈ setKeywords := by decide
    obtain ⟨w, r, hwr, hr, ⟨k, hk, -, hw⟩, hl⟩ := startsWith_setOperation _ _ _ _ hends
    rw [lastChar_none] at hl
    rw [List.append_nil] at hwr
    exact hnone ⟨k, words k hk, l, w, r, by rw [ht, hwr], hw, hl, hr,
      eq_outside_of_seesTopLevel htop⟩

theorem exists_of_mem_ends_setOperation {c d : Cursor} (h : d ∈ setOperation.ends c) :
    ∃ u, c.Passes u d ∧ Marking.of d.captures = (1, u) :: Marking.of c.captures ∧
    Halts isWord d.rest := by
  have stays {e f : Cursor} (h : f ∈ boundary.ends e) : f = e ∧
      boundary.Matches e.before e.rest := by
    refine ⟨?_, e.index, e.captures, List.ne_nil_of_mem h⟩
    rw [ends] at h
    split at h
    · exact List.mem_singleton.mp h
    · cases h
  obtain ⟨e, he, h⟩ := List.mem_flatMap.mp h
  obtain ⟨f, hf, h⟩ := List.mem_flatMap.mp h
  obtain ⟨g, hg, h⟩ := List.mem_flatMap.mp h
  obtain rfl : d = g := List.mem_singleton.mp h
  obtain ⟨rfl, -⟩ := stays he
  obtain ⟨rfl, behind⟩ := stays hg
  obtain ⟨u, -, -, hcovers, -, hpasses, hmarks⟩ := exists_mark rfl hf
  have phrases : ∀ ks ∈ setPhrases, IsPhrase ks := by decide
  obtain ⟨ks, hks, hphrase⟩ : ∃ ks ∈ setPhrases, (phrase ks).Covers u := covers_oneOf_phrase hcovers
  obtain ⟨x, hlast, hx⟩ := last_of_covers_phrase (b := e.before) (phrases ks hks) hphrase
  rw [hpasses.before, hlast] at behind
  exact ⟨u, hpasses, hmarks, halts_of_matches_boundary hx behind⟩

theorem mark_of_takes_setOperation {b : Option Char} {s r : Text} {m : Marking}
    (h : setOperation.Takes b s r m) : m = [(1, s)] ∧ Halts isWord r := by
  obtain ⟨captures, hends, hm⟩ := h 0 []
  obtain ⟨u, hpasses, hmarks, hr⟩ := exists_of_mem_ends_setOperation (List.mem_of_mem_head? hends)
  obtain rfl : s = u := List.append_cancel_right hpasses.rest
  refine ⟨?_, hr⟩
  rw [← List.append_nil m]
  exact hm.symm.trans hmarks

theorem splitSetOperations_of_cuts {t u : Text} {pieces : List (Marking × Text)}
    (h : Cuts setOperation none t u pieces) :
    splitSetOperations t = (u, pieces.map fun piece => ((piece.1.find? 1).getD [], piece.2)) := by
  have laid := laid_of_cuts_all isSearchable_setOperation.shy h
  rw [splitSetOperations, between_of_laid laid]
  simp only [captured_of_laid laid]
  rw [List.zip_map']

/-- Between set operations there is none: the words on both sides end where the operand starts and
start where it ends. -/
theorem Segment.not_hasOperation {b : Option Char} {u r : Text} (h : Segment setOperation b u r) :
    ¬ HasOperation u := by
  refine (h.skips.vacant isSearchable_setOperation).not_hasOperation ?_ ?_
  · rcases h.behind with rfl | ⟨b', s, m, -, htakes⟩
    · exact .inl (by simp)
    · exact .inr (halts_of_isPrefix (mark_of_takes_setOperation htakes).2 (List.prefix_append u r))
  · rcases h.ahead with rfl | ⟨s, v, m, rfl, htakes⟩
    · exact .inl (halts_nil _)
    · obtain ⟨-, -, -, -, -, hlast⟩ := startsWith_setOperation _ _ _ _ (htakes.ne_nil 0 [])
      refine .inr fun c hc => hlast c ?_
      rw [lastChar, hc]
      rfl

theorem topLevelOccurrences_operand {t s : Text}
    (h : s = (splitSetOperations t).1 ∨ s ∈ (splitSetOperations t).2.map (·.2)) :
    s.topLevelOccurrences setOperation = [] := by
  obtain ⟨u, pieces, hcuts⟩ := exists_cuts isSearchable_setOperation none t
  rw [splitSetOperations_of_cuts hcuts, List.map_map] at h
  obtain ⟨b, r, segment⟩ := hcuts.exists_segment (.inl rfl) s (List.mem_cons.mpr h)
  exact (topLevelOccurrences_setOperation_eq_nil_iff s).mpr segment.not_hasOperation

section Keywords

variable {b : Option Char} {t u : Text} {pieces : List (Marking × Text)}

theorem Cuts.eq_flatMap (h : Cuts setOperation b t u pieces) :
    t = u ++ pieces.flatMap fun piece => (piece.1.find? 1).getD [] ++ piece.2 := by
  induction h with
  | last hu => simp
  | next hu hs hp _ ih =>
    obtain ⟨rfl, -⟩ := mark_of_takes_setOperation hp
    rw [List.flatMap_cons, List.append_assoc, ← ih]
    rfl

theorem Cuts.covers_mark (h : Cuts setOperation b t u pieces) :
    ∀ piece ∈ pieces, setOperation.Covers ((piece.1.find? 1).getD []) := by
  induction h with
  | last hu => exact List.forall_mem_nil _
  | next hu hs hp _ ih =>
    obtain ⟨rfl, -⟩ := mark_of_takes_setOperation hp
    exact List.forall_mem_cons.mpr ⟨hp.covers, ih⟩

end Keywords

/-- The operands and the keywords between them make up the text. -/
theorem splitSetOperations_flatten (t : Text) :
    (splitSetOperations t).1 ++ (splitSetOperations t).2.flatMap
    (fun branch => branch.1 ++ branch.2) = t := by
  obtain ⟨u, pieces, hcuts⟩ := exists_cuts isSearchable_setOperation none t
  rw [splitSetOperations_of_cuts hcuts, List.flatMap_map]
  exact hcuts.eq_flatMap.symm

theorem covers_of_mem_splitSetOperations {t : Text} {branch : Text × Text}
    (h : branch ∈ (splitSetOperations t).2) : setOperation.Covers branch.1 := by
  obtain ⟨u, pieces, hcuts⟩ := exists_cuts isSearchable_setOperation none t
  rw [splitSetOperations_of_cuts hcuts] at h
  obtain ⟨piece, hpiece, rfl⟩ := List.mem_map.mp h
  exact hcuts.covers_mark piece hpiece

theorem splitSetOperations_of_not_hasOperation {t : Text} (h : ¬ HasOperation t) :
    splitSetOperations t = (t, []) := by
  rw [splitSetOperations, (topLevelOccurrences_setOperation_eq_nil_iff t).mpr h]
  rfl

theorem splitSetOperations_ne_nil {t : Text} (h : HasOperation t) :
    (splitSetOperations t).2 ≠ [] := by
  have found := (topLevelOccurrences_setOperation_eq_nil_iff t).not.mpr (not_not.mpr h)
  obtain ⟨o, os, hos⟩ := List.exists_cons_of_ne_nil found
  rw [splitSetOperations, hos]
  simp only [between]
  cases os <;> simp [between]

end SqlCanvas
