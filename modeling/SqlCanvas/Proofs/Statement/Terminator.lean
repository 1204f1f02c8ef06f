import SqlCanvas.Proofs.Nesting.Token
import SqlCanvas.Proofs.Pairing
import SqlCanvas.Proofs.Pattern.Extension
import SqlCanvas.Proofs.Statement.Legible

/-!
# Blanks and semicolons behind a statement

What stands behind a statement does not change how its front is cut: the tables of a `WITH` clause
and the first keyword are found in the text with its terminator where they are found in the text
without.
-/

namespace SqlCanvas

open Text Nesting Pattern

/-- Blanks and semicolons in any order. -/
def Text.IsTrailing (e : Text) : Prop :=
  ∀ c ∈ e, isBlank c = true ∨ c = ';'

namespace Text.IsTrailing

variable {e : Text}

theorem not_mem (h : IsTrailing e) {c : Char} (hc : isBlank c = false) (hend : c ≠ ';') :
    c ∉ e := by
  intro hmem
  rcases h c hmem with hblank | rfl
  · rw [hblank] at hc
    cases hc
  · exact hend rfl

theorem not_isWord (h : IsTrailing e) : ∀ c ∈ e, isWord c = false := by
  intro c hc
  rcases h c hc with hblank | rfl
  · exact not_isWord_of_isBlank hblank
  · decide

theorem halts_isWord (h : IsTrailing e) : Halts isWord e :=
  halts_of_forall h.not_isWord

end Text.IsTrailing

theorem exists_trailing (sql : Text) : ∃ e, sql.trim = stripTerminator sql ++ e ∧ IsTrailing e := by
  obtain ⟨marks, hmarks, semicolons⟩ := exists_dropEndWhile_append (· == ';') sql.trim
  have front := halts_of_isPrefix (halts_trim sql) (dropEndWhile_isPrefix (· == ';') sql.trim)
  obtain ⟨gap, hgap, blank⟩ := exists_dropEndWhile_append isBlank (sql.trim.dropEndWhile (· == ';'))
  have stripped : stripTerminator sql =
      (sql.trim.dropEndWhile (· == ';')).dropEndWhile isBlank := by
    rw [stripTerminator, trim, trimStart_of_halts front, trimEnd]
  refine ⟨gap ++ marks, ?_, ?_⟩
  · rw [stripped, ← List.append_assoc, ← hgap, ← hmarks]
  · intro c hc
    rcases List.mem_append.mp hc with hc | hc
    · exact .inl (blank c hc)
    · exact .inr (beq_iff_eq.mp (semicolons c hc))

theorem Nesting.closingFrom_append {e : Text} (he : ')' ∉ e) (n : Nesting) (t : Text) :
    n.closingFrom (t ++ e) = n.closingFrom t := by
  induction t generalizing n with
  | nil =>
    rw [List.nil_append, closingFrom]
    induction e generalizing n with
    | nil => rfl
    | cons c e ih =>
      obtain ⟨hc, he⟩ := not_or.mp (List.mem_cons.not.mp he)
      rw [closingFrom, if_neg (fun h => hc h.2.1.symm), ih he]
      rfl
  | cons c t ih => rw [List.cons_append, closingFrom, closingFrom, ih]

theorem closingParen?_append {e : Text} (he : ')' ∉ e) (t : Text) :
    closingParen? (t ++ e) = closingParen? t := by
  have opened (t : Text) : closingParen? ('(' :: t) =
      ((⟨1, none⟩ : Nesting).closingFrom t).map (· + 1) :=
    rfl
  have other {c : Char} (hc : c ≠ '(') (t : Text) : closingParen? (c :: t) = none := by
    rw [closingParen?]
    rintro _ h
    exact hc (List.cons.inj h).1
  cases t with
  | nil =>
    cases e with
    | nil => rfl
    | cons c e =>
      by_cases hc : c = '('
      · subst hc
        have := closingFrom_append (List.not_mem_of_not_mem_cons he) ⟨1, none⟩ []
        rw [List.nil_append] at this
        rw [List.nil_append, opened, this]
        rfl
      · exact other hc e
  | cons c t =>
    by_cases hc : c = '('
    · subst hc
      rw [List.cons_append, opened, opened, closingFrom_append he]
    · rw [List.cons_append, other hc, other hc]

theorem Pattern.stop_le_of_match? {p : Pattern} {t : Text} {m : Match} (h : p.match? t = some m) :
    m.stop ≤ t.length := by
  obtain ⟨d, u, _, hs, hstop, -⟩ := exists_stops_of_match? h
  have := congrArg List.length hs.passes.rest
  simp only [Cursor.start, List.length_append] at this
  omega

theorem Pattern.covers_all_last (ps : List Pattern) {q : Pattern} {u : Text}
    (h : (all (ps ++ [q])).Covers u) : ∃ v w, u = v ++ w ∧ q.Covers w := by
  induction ps generalizing u with
  | nil =>
    obtain ⟨w, _, hw, rfl, rfl⟩ := h
    exact ⟨[], w, by simp, hw⟩
  | cons p ps ih =>
    obtain ⟨v, x, -, hx, rfl⟩ := h
    obtain ⟨v', w, rfl, hw⟩ := ih hx
    exact ⟨v ++ v', w, (List.append_assoc v v' w).symm, hw⟩

/-- The first table in front of a text with the text behind its closing parenthesis. -/
def firstTable? (t : Text) : Option ((Text × Text) × Text) := do
  let m ← commonTableHead.match? t
  let length ← closingParen? (t.drop (m.stop - 1))
  return ((m.captured 1, t.slice (m.stop - 1 + 1) (m.stop - 1 + length)),
    t.drop (m.stop - 1 + length + 1))

theorem splitCommonTables_eq_firstTable? (t : Text) : splitCommonTables t =
    match firstTable? t with
    | none => ([], t)
    | some (entry, rest) =>
      match leadingComma.match? rest with
      | none => ([entry], rest)
      | some comma =>
        let (entries, rest) := splitCommonTables (rest.drop comma.stop)
        (entry :: entries, rest) := by
  rw [splitCommonTables, firstTable?]
  cases commonTableHead.match? t with
  | none => rfl
  | some m =>
    simp only [bind, Option.bind]
    split
    · rename_i hl
      rw [hl]
    · rename_i length hl
      rw [hl]
      rfl

theorem length_firstTable?_lt {t rest : Text} {entry : Text × Text}
    (h : firstTable? t = some (entry, rest)) : rest.length < t.length := by
  obtain ⟨m, -, h⟩ := Option.bind_eq_some_iff.mp h
  obtain ⟨length, hl, h⟩ := Option.bind_eq_some_iff.mp h
  cases h
  have := (closingParen?_lt hl).2
  simp only [List.length_drop] at *
  omega

/-- A word that spells the keyword of a statement has a letter that neither `WITH` nor `RECURSIVE`
has. -/
theorem exists_foreign_letter (kind : StatementKind) :
    ∃ l ∈ (Vocabulary.spelling kind).toList, l ∉ "WITHRECURSIVE".toList := by
  cases kind with
  | select => exact ⟨'L', by decide, by decide⟩
  | insert | truncate => exact ⟨'N', by decide, by decide⟩
  | update => exact ⟨'P', by decide, by decide⟩
  | delete | drop => exact ⟨'D', by decide, by decide⟩
  | create | alter => exact ⟨'A', by decide, by decide⟩

theorem mem_of_covers_withHead {u : Text} (h : withHead.Covers u) : ∀ c ∈ u, isBlank c = true ∨
    ∃ l ∈ "WITHRECURSIVE".toList, isLetter l c = true := by
  have letter {k w : Text} (hw : Spells k w) (hk : k ⊆ "WITHRECURSIVE".toList) :
      ∀ c ∈ w, ∃ l ∈ "WITHRECURSIVE".toList, isLetter l c = true := by
    intro c hc
    obtain ⟨l, hl, hlc⟩ := exists_of_forall₂_right hw c hc
    exact ⟨l, hk hl, hlc⟩
  obtain ⟨_, _, rfl, ⟨g, _, hg, ⟨w, _, hw, ⟨g', _, hg', ⟨x, _, hx, rfl, rfl⟩, rfl⟩, rfl⟩, rfl⟩,
      rfl⟩ :=
    h
  have recursion : ∀ c ∈ x, isBlank c = true ∨ ∃ l ∈ "WITHRECURSIVE".toList, isLetter l c =
      true := by
    rcases hx with ⟨w', g'', hw', hg'', rfl⟩ | rfl
    · intro c hc
      rcases List.mem_append.mp hc with hc | hc
      · exact .inr (letter (covers_letters.mp hw') (by decide) c hc)
      · exact .inl ((covers_many1.mp hg'').2 c hc)
    · exact List.forall_mem_nil _
  intro c hc
  simp only [List.nil_append, List.append_nil, List.mem_append] at hc
  rcases hc with hc | hc | hc | hc
  · exact .inl (hg c hc)
  · exact .inr (letter (covers_letters.mp hw) (by decide) c hc)
  · exact .inl ((covers_many1.mp hg').2 c hc)
  · exact recursion c hc

theorem firstKeyword?_eq_none {t : Text} (h : ∀ c ∈ t, isWord c = true →
    ∃ l ∈ "WITHRECURSIVE".toList, isLetter l c = true) : firstKeyword? t = none := by
  rw [Option.eq_none_iff_forall_ne_some]
  intro keyword hkeyword
  obtain ⟨kind, w, hw, hspells, -⟩ := exists_spelling_of_firstKeyword? hkeyword
  obtain ⟨l, hl, hforeign⟩ := exists_foreign_letter kind
  have capital := ((isPhrase_spelling kind).2 _ (List.mem_singleton_self _)).2 l hl
  obtain ⟨c, hc, hlc⟩ := exists_of_forall₂_left hspells l hl
  obtain ⟨l', hl', hlc'⟩ := h c (hw.subset hc) (isWord_of_isLetter capital hlc)
  have capital' : ∀ l ∈ "WITHRECURSIVE".toList, IsCapital l := by decide
  exact hforeign (isLetter_unique capital (capital' l' hl') hlc hlc' ▸ hl')

section Continued

variable {e : Text} (he : IsTrailing e)

include he

theorem match?_commonTableHead_append (t : Text) :
    commonTableHead.match? (t ++ e) = (commonTableHead.match? t).map (Match.extend e) := by
  refine match?_append rfl he.halts_isWord fun u v huv hu => ?_
  obtain ⟨u, w, rfl, x, hx, rfl⟩ :=
    covers_all_last [blanks, .capture 1 name, blanks, _, word "AS", blanks, _] hu
  obtain rfl : x = '(' := beq_iff_eq.mp hx
  exact length_le_of_last huv List.getLast?_concat (he.not_mem (by decide) (by decide))

theorem match?_leadingComma_append (t : Text) :
    leadingComma.match? (t ++ e) = (leadingComma.match? t).map (Match.extend e) := by
  refine match?_append rfl he.halts_isWord fun u v huv hu => ?_
  obtain ⟨g, w, -, ⟨x, hx, rfl⟩, rfl⟩ := hu
  obtain rfl : x = ',' := beq_iff_eq.mp hx
  exact length_le_of_last huv List.getLast?_concat (he.not_mem (by decide) (by decide))

theorem firstTable?_append (t : Text) :
    firstTable? (t ++ e) = (firstTable? t).map fun x => (x.1, x.2 ++ e) := by
  rw [firstTable?, firstTable?, match?_commonTableHead_append he]
  cases hm : commonTableHead.match? t with
  | none => rfl
  | some m =>
    have stop := stop_le_of_match? hm
    have same : (m.extend e).stop = m.stop := rfl
    simp only [Option.map_some, bind, Option.bind, captured_extend hm, same]
    rw [List.drop_append_of_le_length (by omega),
      closingParen?_append (he.not_mem (by decide) (by decide))]
    cases hl : closingParen? (t.drop (m.stop - 1)) with
    | none => rfl
    | some length =>
      have hlength := (closingParen?_lt hl).2
      rw [List.length_drop] at hlength
      have inside : (t ++ e).slice (m.stop - 1 + 1) (m.stop - 1 + length) =
          t.slice (m.stop - 1 + 1) (m.stop - 1 + length) := by
        rw [Text.slice, Text.slice, List.drop_append_of_le_length (by omega),
          List.take_append_of_le_length (by rw [List.length_drop]; omega)]
      have behind : (t ++ e).drop (m.stop - 1 + length + 1) =
          t.drop (m.stop - 1 + length + 1) ++ e :=
        List.drop_append_of_le_length (by omega)
      simp only [inside, behind, pure, Option.map_some]

theorem splitCommonTables_append (t : Text) :
    splitCommonTables (t ++ e) = ((splitCommonTables t).1, (splitCommonTables t).2 ++ e) := by
  rw [splitCommonTables_eq_firstTable? (t ++ e), splitCommonTables_eq_firstTable? t,
    firstTable?_append he]
  cases hfirst : firstTable? t with
  | none => rfl
  | some x =>
    obtain ⟨entry, rest⟩ := x
    simp only [Option.map_some, match?_leadingComma_append he]
    cases hcomma : leadingComma.match? rest with
    | none => rfl
    | some comma =>
      have later := splitCommonTables_append (rest.drop comma.stop)
      simp only [Option.map_some, Match.extend,
        List.drop_append_of_le_length (stop_le_of_match? hcomma), later]
termination_by t.length
decreasing_by
  have := length_firstTable?_lt hfirst
  rw [List.length_drop]
  omega

theorem match?_statementHead_append (t : Text) :
    statementHead.match? (t ++ e) = (statementHead.match? t).map (Match.extend e) := by
  refine match?_append rfl he.halts_isWord fun u v huv hu => ?_
  obtain ⟨_, _, rfl, ⟨g, _, -, ⟨w, _, hw, ⟨_, _, rfl, rfl, rfl⟩, rfl⟩, rfl⟩, rfl⟩ := hu
  obtain ⟨kind, hkind⟩ := exists_spelling_of_covers hw
  have name := hkind.isName ((isPhrase_spelling kind).2 _ (List.mem_singleton_self _))
  obtain ⟨c, hc, hlast⟩ := lastChar_of_ne_nil name.1 none
  refine length_le_of_last huv (c := c) ?_ fun hmem => ?_
  · simpa [lastChar, List.getLast?_append] using Or.inl hlast
  · have := name.2 c hc
    rw [he.not_isWord c hmem] at this
    cases this

theorem firstKeyword?_append (t : Text) : firstKeyword? (t ++ e) = firstKeyword? t := by
  cases hskip : skipOpenings t with
  | nil =>
    have nothing : firstKeyword? t = none := by
      rw [firstKeyword?, hskip]
      decide
    have skipped : skipOpenings (t ++ e) = skipOpenings e := by
      simp only [skipOpenings] at hskip ⊢
      rw [List.dropWhile_append, hskip]
      rfl
    have behind : firstKeyword? e = none := firstKeyword?_eq_none fun c hc hword => by
      rw [he.not_isWord c hc] at hword
      cases hword
    rw [nothing, ← behind, firstKeyword?, firstKeyword?, skipped]
  | cons c rest =>
    have skipped : skipOpenings (t ++ e) = skipOpenings t ++ e := by
      simp only [skipOpenings] at hskip ⊢
      rw [List.dropWhile_append, hskip]
      rfl
    rw [firstKeyword?, skipped, match?_statementHead_append he, firstKeyword?]
    cases hm : statementHead.match? (skipOpenings t) with
    | none => rfl
    | some m => simp only [Option.map_some, captured_extend hm]

theorem splitWith_append {t : Text}
    (hm : withHead.match? (t ++ e) = (withHead.match? t).map (Match.extend e)) :
    splitWith (t ++ e) = { splitWith t with rest := (splitWith t).rest ++ e } := by
  rw [splitWith, hm, splitWith]
  cases hm : withHead.match? t with
  | none => rfl
  | some m =>
    have behind : (t ++ e).drop (m.extend e).stop = t.drop m.stop ++ e :=
      List.drop_append_of_le_length (stop_le_of_match? (m := m) hm)
    simp only [Option.map_some, behind, splitCommonTables_append he, capture?_extend hm]

/-- The blanks behind a statement may belong to the front of its `WITH` clause. There is no keyword
then. -/
theorem firstKeyword?_splitWith_append (t : Text) :
    firstKeyword? (splitWith (t ++ e)).rest = firstKeyword? (splitWith t).rest := by
  by_cases hinside : ∀ u v, t ++ e = u ++ v → withHead.Covers u → u.length ≤ t.length
  · have front : withHead.match? (t ++ e) = (withHead.match? t).map (Match.extend e) :=
      match?_append rfl he.halts_isWord hinside
    rw [splitWith_append he front, firstKeyword?_append he]
  · push Not at hinside
    obtain ⟨u, v, huv, hu, hlong⟩ := hinside
    obtain ⟨r, rfl⟩ : t <+: u :=
      List.prefix_of_prefix_length_le (List.prefix_append t e) (huv ▸ List.prefix_append u v)
        hlong.le
    have letters : ∀ c ∈ t ++ e, isWord c = true → ∃ l ∈ "WITHRECURSIVE".toList, isLetter l c =
        true := by
      intro c hc hword
      rcases List.mem_append.mp hc with hc | hc
      · rcases mem_of_covers_withHead hu c (List.mem_append_left r hc) with hblank | hletter
        · rw [not_isBlank_of_isWord hword] at hblank
          cases hblank
        · exact hletter
      · rw [he.not_isWord c hc] at hword
        cases hword
    have none_with :=
      firstKeyword?_eq_none fun c hc => letters c ((rest_splitWith_isInfix (t ++ e)).subset hc)
    have none_without := firstKeyword?_eq_none
      fun c hc => letters c (List.mem_append_left e ((rest_splitWith_isInfix t).subset hc))
    rw [none_with, none_without]

end Continued

theorem firstKeyword?_splitWith_trim (sql : Text) :
    firstKeyword? (splitWith sql.trim).rest =
      firstKeyword? (splitWith (stripTerminator sql)).rest := by
  obtain ⟨e, he, htrailing⟩ := exists_trailing sql
  rw [he, firstKeyword?_splitWith_append htrailing]

end SqlCanvas
