import SqlCanvas.Proofs.Grammar.Statement
import SqlCanvas.Proofs.Nesting.Balance
import SqlCanvas.Proofs.Statement.SetOperation
import SqlCanvas.Proofs.Statement.Terminator
import SqlCanvas.Proofs.Structure.Parentheses

/-!
# Statements in parentheses

Set operations are looked for before the parentheses around a statement are taken off. So
parentheses around a whole `SELECT` change nothing if there is no set operation in it at the top
level; else its operands after the first are lost.
-/

namespace SqlCanvas

open Text Nesting Pattern

theorem wrapped_eq (t : Text) (n : Nat) :
    t.wrapped n = List.replicate n '(' ++ (t ++ List.replicate n ')') := by
  induction n with
  | zero => simp [wrapped]
  | succ n ih =>
    rw [wrapped, ih, List.replicate_succ, List.replicate_succ']
    simp

theorem skipOpenings_replicate (n : Nat) (t : Text) :
    skipOpenings (List.replicate n '(' ++ t) = skipOpenings t := by
  induction n with
  | zero => rfl
  | succ n ih => exact ih

theorem splitWith_of_halts {t : Text} (hblank : Halts isBlank t) (hword : Halts isWord t) :
    splitWith t = ⟨[], false, t⟩ := by
  have refused : withHead.match? t = none := by
    have start {b : Option Char} {t : Text} (ht : Halts isWord t) :
        ((word "WITH").seq
          (all [blank, .maybe (.capture 1 (.seq (word "RECURSIVE") blank))])).Refuses b t :=
      (refuses_word_of_halts (by decide) ht).seq_left _
    exact match?_start_of_refuses rfl
      (refuses_blanks_seq (b := none) (g := []) hblank (List.forall_mem_nil _)
      (fun b c t hc => start (halts_cons.mpr (not_isWord_of_isBlank hc))) (start hword))
  rw [splitWith, refused]

theorem stripTerminator_of_not_mem {t : Text} (h : ';' ∉ t) : stripTerminator t = t.trim := by
  obtain ⟨marks, whole, semicolons⟩ := exists_dropEndWhile_append (· == ';') t.trim
  have none_left : marks = [] := by
    refine List.eq_nil_iff_forall_not_mem.mpr fun c hc => h ?_
    obtain rfl : c = ';' := beq_iff_eq.mp (semicolons c hc)
    exact (trim_isInfix t).subset (whole ▸ List.mem_append_right _ hc)
  rw [none_left, List.append_nil] at whole
  rw [stripTerminator, ← whole, trim_trim]

section Select

variable {t : Text} (hselect : ∃ (s : Spelling "SELECT") (r : Text), t = s.text ++ r ∧
  Halts isWord r)

include hselect

theorem exists_trim_select :
    ∃ (s : Spelling "SELECT") (r g : Text), t.trim = s.text ++ r ∧ Halts isWord r ∧
      t = t.trim ++ g ∧ ∀ c ∈ g, isBlank c = true := by
  obtain ⟨s, r, rfl, hr⟩ := hselect
  obtain ⟨g, hg, blank⟩ := exists_dropEndWhile_append isBlank r
  have last : ∀ c ∈ s.text.getLast?, isBlank c = false :=
    fun c hc => not_isBlank_of_isWord (s.isName.2 c (List.mem_of_mem_getLast? hc))
  have trimmed : (s.text ++ r).trim = s.text ++ r.trimEnd := by
    rw [Text.trim, trimStart_of_halts (s.isName.halts_isBlank r)]
    exact dropEndWhile_append s.isName.1 last r
  refine ⟨s, r.trimEnd, g, trimmed, halts_of_isPrefix hr (dropEndWhile_isPrefix isBlank r),
    ?_, blank⟩
  rw [trimmed, List.append_assoc]
  exact congrArg (s.text ++ ·) hg

theorem stripParens_select : t.stripParens = t.trim := by
  obtain ⟨s, r, -, htrim, -⟩ := exists_trim_select hselect
  refine stripParens_of_head ?_
  rw [htrim, List.head?_append_of_ne_nil _ s.isName.1]
  exact fun h => not_mem_of_not_isWord s.isName (by decide) (List.mem_of_mem_head? h)

theorem firstKeyword?_wrapped (n : Nat) : firstKeyword? (t.wrapped n) = some "SELECT".toList := by
  obtain ⟨s, r, rfl, hr⟩ := hselect
  have halts : Halts isWord (r ++ List.replicate n ')') := by
    cases r with
    | nil => exact halts_of_forall fun c hc => by rw [List.eq_of_mem_replicate hc]; decide
    | cons c r => exact hr
  have found := firstKeyword?_select (g := []) (List.forall_mem_nil _) s halts
  rw [List.nil_append, ← List.append_assoc] at found
  rw [wrapped_eq, firstKeyword?, skipOpenings_replicate]
  exact found

theorem Outline.of_select (hend : ';' ∉ t) : Outline.of t = .mk [] false "SELECT".toList
    (splitSetOperations t.trim).1.stripParens
    ((splitSetOperations t.trim).2.map fun branch =>
      (branch.1, Outline.of branch.2.stripParens)) := by
  obtain ⟨s, r, -, htrim, hr, -⟩ := exists_trim_select hselect
  have split : splitWith t.trim = ⟨[], false, t.trim⟩ := by
    rw [htrim, splitWith_select]
  have keyword : firstKeyword? t.trim = some "SELECT".toList :=
    firstKeyword?_wrapped ⟨s, r, htrim, hr⟩ 0
  rw [Outline.of_eq, stripTerminator_of_not_mem hend]
  simp only [split, keyword, Option.getD_some, if_true, List.map_nil]

/-- Within parentheses no set operation is seen. -/
theorem Outline.of_wrapped (hclosed : Closed t) (n : Nat) :
    Outline.of (t.wrapped (n + 1)) = .mk [] false "SELECT".toList t.trim [] := by
  have inside : Closed (t.wrapped n) := closed_wrapped hclosed n
  have sheltered : Sheltered (t.wrapped (n + 1)) := .parens inside
  have stripped : stripTerminator (t.wrapped (n + 1)) = t.wrapped (n + 1) := by
    have solid : Solid [Token.shelter _ sheltered] := .singleton rfl
    have quiet : ∀ a ∈ [Token.shelter _ sheltered], a.Avoids [] := by simp [Token.Avoids]
    have := solid.stripTerminator quiet (List.forall_mem_nil _) (List.forall_mem_nil _)
    simpa [Token.text] using this
  have split : splitWith (t.wrapped (n + 1)) = ⟨[], false, t.wrapped (n + 1)⟩ :=
    splitWith_of_halts (halts_cons.mpr (by decide)) (halts_cons.mpr (by decide))
  have whole : splitSetOperations (t.wrapped (n + 1)) = (t.wrapped (n + 1), []) := by
    rw [splitSetOperations, topLevelOccurrences_eq, topLevelFrom_eq_nil sheltered.mask]
    rfl
  rw [Outline.of_eq, stripped]
  simp only [split, firstKeyword?_wrapped hselect, Option.getD_some, if_true, whole, List.map_nil,
    stripParens_wrapped hclosed, stripParens_select hselect]

theorem hasOperation_trim : HasOperation t.trim ↔ HasOperation t := by
  obtain ⟨-, -, g, -, -, hg, blank⟩ := exists_trim_select hselect
  have := hasOperation_append_blanks blank t.trim
  rw [← hg] at this
  exact this.symm

theorem Outline.of_wrapped_of_not_hasOperation (hclosed : Closed t) (hend : ';' ∉ t)
    (h : ¬ HasOperation t) (n : Nat) : Outline.of (t.wrapped n) = Outline.of t := by
  have whole := splitSetOperations_of_not_hasOperation ((hasOperation_trim hselect).not.mpr h)
  have body : t.trim.stripParens = t.trim :=
    (stripParens_congr (trim_trim t)).trans (stripParens_select hselect)
  cases n with
  | zero => rfl
  | succ n => rw [of_wrapped hselect hclosed, of_select hselect hend, whole, body, List.map_nil]

end Select

namespace Statement

variable {σ : Type} {ids : IdSource σ} {a b : σ} {s : Statement}

theorem unions_of_ofOutline {tables branches : List (Text × Outline)} {recursive : Bool}
    {body : Text} (h : (ofOutline ids (.mk tables recursive "SELECT".toList body branches)).run a =
      (.ok s, b)) :
    s.query.unions = none ↔ branches = [] := by
  rw [ofOutline_select] at h
  obtain ⟨ctes, a₁, -, h⟩ := Reading.exists_of_run_bind h
  obtain ⟨own, a₂, -, h⟩ := Reading.exists_of_run_bind h
  obtain ⟨unions, a₃, hunions, h⟩ := Reading.exists_of_run_bind h
  cases h
  cases branches with
  | nil =>
    rw [readBranches] at hunions
    cases hunions
    exact iff_of_true rfl rfl
  | cons branch branches =>
    rw [readBranches] at hunions
    obtain ⟨first, a₄, -, hunions⟩ := Reading.exists_of_run_bind hunions
    obtain ⟨kind, a₅, -, hunions⟩ := Reading.exists_of_run_bind hunions
    obtain ⟨rest, a₆, -, hunions⟩ := Reading.exists_of_run_bind hunions
    cases hunions
    exact iff_of_false (Option.some_ne_none _) (List.cons_ne_nil _ _)

section Wrapped

variable {t : Text} (hselect : ∃ (s : Spelling "SELECT") (r : Text), t = s.text ++ r ∧
  Halts isWord r)

include hselect

/-- In parentheses the whole is read as a single `SELECT`. -/
theorem unions_of_wrapped (hclosed : Closed t) (n : Nat)
    (h : (read ids (t.wrapped (n + 1))).run a = (.ok s, b)) : s.query.unions = none := by
  rw [read, Outline.of_wrapped hselect hclosed] at h
  exact (unions_of_ofOutline h).mpr rfl

theorem unions_of_select (hend : ';' ∉ t) (h : (read ids t).run a = (.ok s, b)) :
    s.query.unions = none ↔ ¬ HasOperation t := by
  rw [read, Outline.of_select hselect hend] at h
  rw [unions_of_ofOutline h, List.map_eq_nil_iff, ← hasOperation_trim hselect]
  constructor
  · exact fun hnone hop => splitSetOperations_ne_nil hop hnone
  · exact fun hop => by rw [splitSetOperations_of_not_hasOperation hop]

/-- Parentheses around a `SELECT` change nothing where no set operation stands at its top level.
Elsewhere, if it can be read, it is read as something else in parentheses. -/
theorem read_wrapped_iff (hclosed : Closed t) (hend : ';' ∉ t) (n : Nat) :
    (n = 0 ∨ ¬ HasOperation t → read ids (t.wrapped n) = read ids t) ∧
      ∀ a b s, (read ids t).run a = (.ok s, b) →
        ((read ids (t.wrapped n)).run a = (.ok s, b) ↔ n = 0 ∨ ¬ HasOperation t) := by
  have same (h : n = 0 ∨ ¬ HasOperation t) : read ids (t.wrapped n) = read ids t := by
    rcases h with rfl | h
    · rfl
    · rw [read, read, Outline.of_wrapped_of_not_hasOperation hselect hclosed hend h]
  refine ⟨same, fun a b s h => ⟨fun hwrapped => ?_, fun hn => by rw [same hn, h]⟩⟩
  cases n with
  | zero => exact .inl rfl
  | succ n =>
    exact .inr ((unions_of_select hselect hend h).mp (unions_of_wrapped hselect hclosed n hwrapped))

end Wrapped

/-- The second operand of a `UNION` is lost in parentheses, one in a nested query is not. -/
theorem read_wrapped_iff_union :
    (∃ s b, (read .sequential "SELECT a FROM t UNION SELECT b FROM u".toList).run (.fresh 1) =
      (.ok s, b) ∧
      (read .sequential (wrapped 1 "SELECT a FROM t UNION SELECT b FROM u".toList)).run (.fresh 1) ≠
        (.ok s, b)) ∧
    read .sequential (wrapped 2 "SELECT a FROM t WHERE a IN (SELECT 1 UNION SELECT 2)".toList) =
      read .sequential "SELECT a FROM t WHERE a IN (SELECT 1 UNION SELECT 2)".toList := by
  have readable :
      ((read .sequential "SELECT a FROM t UNION SELECT b FROM u".toList).run
        (.fresh 1)).1.toOption.isSome := by
    decide +kernel
  obtain ⟨s, hs⟩ := exists_eq_ok readable
  have union : HasOperation "SELECT a FROM t UNION SELECT b FROM u".toList :=
    ⟨"UNION", by decide, "SELECT a FROM t ".toList, "UNION".toList, " SELECT b FROM u".toList,
      by decide, spells_self, by decide, by decide, by decide⟩
  have nested : ¬ HasOperation "SELECT a FROM t WHERE a IN (SELECT 1 UNION SELECT 2)".toList :=
    (topLevelOccurrences_setOperation_eq_nil_iff _).mp (by decide +kernel)
  refine ⟨⟨s, _, Prod.ext hs rfl, fun hwrapped => ?_⟩, ?_⟩
  · have same := (read_wrapped_iff
      ⟨.capital "SELECT" (by decide), " a FROM t UNION SELECT b FROM u".toList, rfl, by decide⟩
      (by decide) (by decide) 1).2 _ _ s (Prod.ext hs rfl)
    exact (same.mp hwrapped).elim Nat.one_ne_zero fun h => h union
  · exact (read_wrapped_iff
      ⟨.capital "SELECT" (by decide), " a FROM t WHERE a IN (SELECT 1 UNION SELECT 2)".toList, rfl,
        by decide⟩
      (by decide) (by decide) 2).1 (.inr nested)

end Statement

end SqlCanvas
