import Mathlib.Data.List.Basic
import Mathlib.Data.List.Infix
import SqlCanvas.Nesting.Split

/-!
# Cut texts are parts

Trimming, slicing, stripping parentheses and splitting only take characters away at the ends, so
that whatever holds of all stretches of a text also holds of what is cut out of it.
-/

namespace SqlCanvas.Text

theorem dropWhile_isInfix (p : Char → Bool) (t : Text) : t.dropWhile p <:+: t :=
  (List.dropWhile_suffix p).isInfix

theorem exists_dropEndWhile_append (drop : Char → Bool) (t : Text) :
    ∃ r, t = t.dropEndWhile drop ++ r ∧ ∀ c ∈ r, drop c = true := by
  refine ⟨(t.reverse.takeWhile drop).reverse, ?_, ?_⟩
  · rw [dropEndWhile, ← List.reverse_append, List.takeWhile_append_dropWhile, List.reverse_reverse]
  · intro c hc
    exact List.all_eq_true.mp List.all_takeWhile c (List.mem_reverse.mp hc)

theorem last_dropEndWhile (drop : Char → Bool) (t : Text) :
    ∀ c ∈ (t.dropEndWhile drop).getLast?, drop c = false := by
  intro c hc
  rw [dropEndWhile, List.getLast?_reverse, Option.mem_def] at hc
  have := List.head?_dropWhile_not drop t.reverse
  rw [hc] at this
  exact this

theorem dropEndWhile_isPrefix (drop : Char → Bool) (t : Text) : t.dropEndWhile drop <+: t := by
  have := List.reverse_prefix.mpr (List.dropWhile_suffix drop (l := t.reverse))
  simpa [dropEndWhile] using this

theorem dropEndWhile_isInfix (p : Char → Bool) (t : Text) : t.dropEndWhile p <:+: t :=
  (dropEndWhile_isPrefix p t).isInfix

theorem trim_isInfix (t : Text) : t.trim <:+: t :=
  (dropEndWhile_isInfix _ _).trans (dropWhile_isInfix _ _)

theorem exists_trim_append (t : Text) :
    ∃ g g', t = g ++ (t.trim ++ g') ∧ (∀ c ∈ g, isBlank c = true) ∧ ∀ c ∈ g', isBlank c = true := by
  obtain ⟨g', hend, hg'⟩ := exists_dropEndWhile_append isBlank t.trimStart
  refine ⟨t.takeWhile isBlank, g', ?_, fun c hc => List.all_eq_true.mp List.all_takeWhile c hc, hg'⟩
  calc t = t.takeWhile isBlank ++ t.trimStart := (List.takeWhile_append_dropWhile).symm
    _ = _ := congrArg (t.takeWhile isBlank ++ ·) hend

theorem drop_isInfix (n : Nat) (t : Text) : t.drop n <:+: t :=
  (List.drop_suffix n t).isInfix

theorem slice_isInfix (t : Text) (start stop : Nat) : t.slice start stop <:+: t :=
  (List.take_prefix _ _).isInfix.trans (drop_isInfix start t)

theorem stripParens_isInfix (t : Text) : t.stripParens <:+: t := by
  fun_induction stripParens t with
  | case1 t trimmed h ih =>
    have h₁ : trimmed.tail.dropLast <:+: trimmed :=
      (List.dropLast_prefix _).isInfix.trans (List.tail_suffix _).isInfix
    exact (ih.trans h₁).trans (trim_isInfix t)
  | case2 t => exact trim_isInfix t

theorem isInfix_of_mem_between {t s : Text} (start : Nat) (os : List Occurrence)
    (h : s ∈ t.between start os) : s <:+: t := by
  induction os generalizing start with
  | nil =>
    rw [List.mem_singleton.mp h]
    exact drop_isInfix start t
  | cons o os ih =>
    rcases List.mem_cons.mp h with rfl | h
    · exact slice_isInfix _ _ _
    · exact ih _ h

theorem isInfix_of_mem_splitTopLevel {p : Pattern} {t s : Text} (h : s ∈ t.splitTopLevel p) :
    s <:+: t := by
  obtain ⟨-, u, hu, rfl⟩ := trimmed_of_mem_splitTopLevel h
  exact (trim_isInfix u).trans (isInfix_of_mem_between _ _ hu)

end SqlCanvas.Text
