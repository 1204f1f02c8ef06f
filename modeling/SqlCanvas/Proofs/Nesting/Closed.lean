import Mathlib.Data.List.Basic
import SqlCanvas.Nesting.Basic

/-!
# Closed and sheltered texts

A text is closed when each quote and each parenthesis in it has its partner in it. It leaves the
state of nesting as it found it, at any depth. A text is sheltered when nothing in it stands at the
top level: it consists of quoted stretches and of closed texts in parentheses.
-/

namespace SqlCanvas

open Nesting

inductive Closed : Text → Prop
  | nil : Closed []
  | plain {c : Char} {t : Text} (hc : isSpecial c = false) (ht : Closed t) : Closed (c :: t)
  | quoted {q : Char} {body t : Text} (hq : isQuote q = true) (hbody : q ∉ body) (ht : Closed t) :
      Closed (q :: (body ++ q :: t))
  | parens {s t : Text} (hs : Closed s) (ht : Closed t) : Closed ('(' :: (s ++ ')' :: t))

inductive Sheltered : Text → Prop
  | quoted {q : Char} {body : Text} (hq : isQuote q = true) (hbody : q ∉ body) :
      Sheltered (q :: (body ++ [q]))
  | parens {s : Text} (hs : Closed s) : Sheltered ('(' :: (s ++ [')']))
  | append {s t : Text} (hs : Sheltered s) (ht : Sheltered t) : Sheltered (s ++ t)

theorem isSpecial_of_isQuote {c : Char} (h : isQuote c = true) : isSpecial c = true := by
  simp [isSpecial, h]

namespace Nesting

theorem step_plain {n : Nesting} {c : Char} (hn : n.quote = none) (hc : isSpecial c = false) :
    n.step c = n := by
  simp only [isSpecial, Bool.or_eq_false_iff, beq_eq_false_iff_ne] at hc
  simp [step, hn, hc.1.1, hc.1.2, hc.2]

theorem step_quoted (d : Nat) {q c : Char} (h : c ≠ q) :
    (⟨d, some q⟩ : Nesting).step c = ⟨d, some q⟩ := by
  simp [step, h]

theorem after_quoted_body (d : Nat) {q : Char} {body : Text} (hbody : q ∉ body) :
    (⟨d, some q⟩ : Nesting).after body = ⟨d, some q⟩ := by
  induction body with
  | nil => rfl
  | cons c body ih =>
    rw [after_cons, step_quoted d (List.ne_of_not_mem_cons hbody).symm,
      ih (List.not_mem_of_not_mem_cons hbody)]

theorem step_open_quote (d : Nat) {q : Char} (hq : isQuote q = true) :
    (⟨d, none⟩ : Nesting).step q = ⟨d, some q⟩ := by
  simp [step, hq]

theorem step_close_quote (d : Nat) (q : Char) :
    (⟨d, some q⟩ : Nesting).step q = ⟨d, none⟩ := by
  simp [step]

theorem after_quoted (d : Nat) {q : Char} {body : Text} (hq : isQuote q = true) (hbody : q ∉ body) :
    (⟨d, none⟩ : Nesting).after (q :: (body ++ [q])) = ⟨d, none⟩ := by
  rw [after_cons, step_open_quote d hq, after_append, after_quoted_body d hbody, after_cons,
    step_close_quote, after_nil]

theorem step_open (d : Nat) : (⟨d, none⟩ : Nesting).step '(' = ⟨d + 1, none⟩ := rfl

theorem step_close (d : Nat) : (⟨d + 1, none⟩ : Nesting).step ')' = ⟨d, none⟩ := rfl

end Nesting

theorem Closed.after {t : Text} (h : Closed t) (d : Nat) :
    (⟨d, none⟩ : Nesting).after t = ⟨d, none⟩ := by
  induction h generalizing d with
  | nil => rfl
  | plain hc _ ih => rw [after_cons, step_plain rfl hc, ih]
  | @quoted q body t hq hbody _ ih =>
    have split : q :: (body ++ q :: t) = q :: (body ++ [q]) ++ t := by simp
    rw [split, after_append, after_quoted d hq hbody, ih]
  | parens _ _ ihs iht =>
    rw [after_cons, step_open, after_append, ihs, after_cons, step_close, iht]

theorem Closed.append {s t : Text} (hs : Closed s) (ht : Closed t) : Closed (s ++ t) := by
  induction hs with
  | nil => exact ht
  | plain hc _ ih => exact .plain hc ih
  | quoted hq hbody _ ih =>
    rw [List.cons_append, List.append_assoc, List.cons_append]
    exact .quoted hq hbody ih
  | parens hs _ _ ih =>
    rw [List.cons_append, List.append_assoc, List.cons_append]
    exact .parens hs ih

theorem closed_of_plain {t : Text} (h : ∀ c ∈ t, isSpecial c = false) : Closed t := by
  induction t with
  | nil => exact .nil
  | cons c t ih =>
    obtain ⟨hc, ht⟩ := List.forall_mem_cons.mp h
    exact .plain hc (ih ht)

theorem Sheltered.closed {s : Text} (h : Sheltered s) : Closed s := by
  induction h with
  | quoted hq hbody => exact .quoted hq hbody .nil
  | parens hs => exact .parens hs .nil
  | append _ _ ihs iht => exact ihs.append iht

theorem Sheltered.ne_nil {s : Text} (h : Sheltered s) : s ≠ [] := by
  induction h with
  | quoted => exact List.cons_ne_nil _ _
  | parens => exact List.cons_ne_nil _ _
  | append _ _ ihs _ => simp [ihs]

theorem Sheltered.head {s : Text} (h : Sheltered s) : ∀ c ∈ s.head?, isSpecial c = true := by
  induction h with
  | quoted hq => simpa using isSpecial_of_isQuote hq
  | parens => simp [isSpecial]
  | append hs _ ihs _ => rwa [List.head?_append_of_ne_nil _ hs.ne_nil]

theorem Sheltered.last {s : Text} (h : Sheltered s) : ∀ c ∈ s.getLast?, isSpecial c = true := by
  induction h with
  | quoted hq => simpa [List.getLast?_cons] using isSpecial_of_isQuote hq
  | parens => simp [List.getLast?_cons, isSpecial]
  | append _ ht _ iht => rwa [List.getLast?_append_of_ne_nil _ ht.ne_nil]

namespace Nesting

variable {n : Nesting} {c : Char} {u : Text}

theorem eq_outside_of_seesTopLevel (h : n.seesTopLevel c = true) : n = outside := by
  obtain ⟨depth, quote⟩ := n
  simp only [seesTopLevel, Bool.and_eq_true, Option.isNone_iff_eq_none, beq_iff_eq] at h
  obtain ⟨⟨rfl, -⟩, rfl⟩ := h
  rfl

theorem seesTopLevel_outside (hc : isSpecial c = false) : outside.seesTopLevel c = true := by
  simp [seesTopLevel, outside, hc]

/-- The open quote, if there is one, is a quote. Every state that reading from outside leads to is
proper. -/
def IsProper (n : Nesting) : Prop :=
  ∀ q ∈ n.quote, isQuote q = true

theorem isProper_outside : outside.IsProper :=
  fun _ hq => by cases hq

namespace IsProper

protected theorem step (hn : n.IsProper) (c : Char) : (n.step c).IsProper := by
  obtain ⟨depth, quote⟩ := n
  intro q hq
  cases quote with
  | none =>
    by_cases hc : isQuote c = true
    · rw [step_open_quote depth hc] at hq
      cases hq
      exact hc
    · have unquoted : ((⟨depth, none⟩ : Nesting).step c).quote = none := by
        simp only [Nesting.step, hc, Bool.false_eq_true, if_false]
        split_ifs <;> rfl
      rw [unquoted] at hq
      cases hq
  | some opened =>
    by_cases hc : c = opened
    · subst hc
      rw [step_close_quote] at hq
      cases hq
    · rw [step_quoted depth hc] at hq
      exact hn q hq

theorem step_plain (hn : n.IsProper) (hc : isSpecial c = false) : n.step c = n := by
  obtain ⟨depth, quote⟩ := n
  cases quote with
  | none => exact Nesting.step_plain rfl hc
  | some q =>
    refine step_quoted depth ?_
    rintro rfl
    rw [isSpecial_of_isQuote (hn c rfl)] at hc
    cases hc

theorem after_plain (hn : n.IsProper) (hu : ∀ c ∈ u, isSpecial c = false) : n.after u = n := by
  induction u with
  | nil => rfl
  | cons c u ih =>
    obtain ⟨hc, hu⟩ := List.forall_mem_cons.mp hu
    rw [after_cons, hn.step_plain hc, ih hu]

protected theorem after (hn : n.IsProper) (u : Text) : (n.after u).IsProper := by
  induction u generalizing n with
  | nil => exact hn
  | cons c u ih => exact ih (hn.step c)

end IsProper

end Nesting

theorem Nesting.mask_quoted_body (d : Nat) {q : Char} {body : Text} (hbody : q ∉ body) :
    ∀ x ∈ (⟨d, some q⟩ : Nesting).maskFrom body, x = false := by
  induction body with
  | nil => simp [maskFrom]
  | cons c body ih =>
    rw [maskFrom, step_quoted d (List.ne_of_not_mem_cons hbody).symm]
    exact List.forall_mem_cons.mpr ⟨rfl, ih (List.not_mem_of_not_mem_cons hbody)⟩

theorem Nesting.mask_quoted (d : Nat) {q : Char} {body : Text} (hq : isQuote q = true)
    (hbody : q ∉ body) : ∀ x ∈ (⟨d, none⟩ : Nesting).maskFrom (q :: (body ++ [q])), x = false := by
  rw [maskFrom, step_open_quote d hq, maskFrom_append, after_quoted_body d hbody]
  refine List.forall_mem_cons.mpr ⟨by simp [seesTopLevel, isSpecial_of_isQuote hq], ?_⟩
  exact List.forall_mem_append.mpr ⟨mask_quoted_body d hbody, by simp [maskFrom, seesTopLevel]⟩

/-- Inside parentheses a closed text has nothing at the top level. -/
theorem Closed.mask {t : Text} (h : Closed t) (d : Nat) :
    ∀ x ∈ (⟨d + 1, none⟩ : Nesting).maskFrom t, x = false := by
  induction h generalizing d with
  | nil => simp [maskFrom]
  | plain hc _ ih =>
    rw [maskFrom, step_plain rfl hc]
    exact List.forall_mem_cons.mpr ⟨by simp [seesTopLevel], ih d⟩
  | @quoted q body t hq hbody _ ih =>
    have split : q :: (body ++ q :: t) = q :: (body ++ [q]) ++ t := by simp
    rw [split, maskFrom_append, after_quoted _ hq hbody]
    exact List.forall_mem_append.mpr ⟨mask_quoted _ hq hbody, ih d⟩
  | parens hs _ ihs iht =>
    rw [maskFrom, step_open, maskFrom_append, hs.after, maskFrom, step_close]
    refine List.forall_mem_cons.mpr ⟨by simp [seesTopLevel], ?_⟩
    refine List.forall_mem_append.mpr ⟨ihs _, ?_⟩
    exact List.forall_mem_cons.mpr ⟨by simp [seesTopLevel], iht d⟩

theorem Sheltered.mask {s : Text} (h : Sheltered s) : ∀ x ∈ outside.maskFrom s, x = false := by
  induction h with
  | quoted hq hbody => exact mask_quoted 0 hq hbody
  | parens hs =>
    rw [maskFrom, outside, step_open, maskFrom_append, hs.after]
    refine List.forall_mem_cons.mpr ⟨by simp [seesTopLevel, isSpecial], ?_⟩
    exact List.forall_mem_append.mpr ⟨hs.mask 0, by simp [maskFrom, seesTopLevel]⟩
  | append hs _ ihs iht =>
    rw [maskFrom_append, outside, hs.closed.after]
    exact List.forall_mem_append.mpr ⟨ihs, iht⟩

theorem Closed.closingFrom {t : Text} (h : Closed t) (d : Nat) (r : Text) :
    (⟨d + 1, none⟩ : Nesting).closingFrom (t ++ r) =
      ((⟨d + 1, none⟩ : Nesting).closingFrom r).map (· + t.length) := by
  have quotedBody {q : Char} {body : Text} (hbody : q ∉ body) (d : Nat) (r : Text) :
      (⟨d, some q⟩ : Nesting).closingFrom (body ++ q :: r) =
        ((⟨d, none⟩ : Nesting).closingFrom r).map (· + (body.length + 1)) := by
    induction body with
    | nil => simp [Nesting.closingFrom, step_close_quote]
    | cons c body ih =>
      rw [List.cons_append, Nesting.closingFrom, if_neg (by simp),
        step_quoted d (List.ne_of_not_mem_cons hbody).symm,
        ih (List.not_mem_of_not_mem_cons hbody), Option.map_map]
      rfl
  -- The depth and what stands behind stay free: inside a pair of parentheses the scan is one level
  -- deeper.
  induction h generalizing d r with
  | nil => simp
  | @plain c t hc _ ih =>
    have other : c ≠ ')' := by
      rintro rfl
      cases hc
    rw [List.cons_append, Nesting.closingFrom, if_neg (by simp [other]), step_plain rfl hc, ih,
      Option.map_map]
    rfl
  | @quoted q body t hq hbody _ ih =>
    have other : q ≠ ')' := by
      rintro rfl
      cases hq
    rw [List.cons_append, List.append_assoc, List.cons_append, Nesting.closingFrom,
      if_neg (by simp [other]), step_open_quote _ hq, quotedBody hbody, ih, Option.map_map,
      Option.map_map]
    congr 1
    funext i
    simp
    omega
  | @parens s t _ _ ihs iht =>
    rw [List.cons_append, List.append_assoc, List.cons_append, Nesting.closingFrom,
      if_neg (by simp), step_open, ihs, Nesting.closingFrom, if_neg (by simp), step_close, iht,
      Option.map_map, Option.map_map, Option.map_map]
    congr 1
    funext i
    simp
    omega

theorem Nesting.getElem?_of_closingFrom {n : Nesting} {t : Text} {i : Nat}
    (h : n.closingFrom t = some i) : t[i]? = some ')' := by
  induction t generalizing n i with
  | nil => cases h
  | cons c t ih =>
    rw [closingFrom] at h
    split at h
    · rename_i hclosing
      cases h
      exact congrArg some hclosing.2.1
    · obtain ⟨j, hj, rfl⟩ := Option.map_eq_some_iff.mp h
      exact ih hj

namespace Text

theorem closingParen?_of_closed {s : Text} (h : Closed s) (r : Text) :
    closingParen? ('(' :: (s ++ ')' :: r)) = some (s.length + 1) := by
  rw [closingParen?, h.closingFrom 0, Nesting.closingFrom, if_pos ⟨rfl, rfl, Nat.le_refl 1⟩]
  simp

theorem isWrapped_of_closed {s : Text} (h : Closed s) (r : Text) :
    isWrapped ('(' :: (s ++ ')' :: r)) = r.isEmpty := by
  rw [isWrapped, closingParen?_of_closed h]
  cases r <;> simp

theorem isWrapped_of_head {t : Text} (h : t.head? ≠ some '(') : isWrapped t = false := by
  have : closingParen? t = none := by
    unfold closingParen?
    split
    · simp at h
    · rfl
  rw [isWrapped, this]

theorem getElem?_of_closingParen? {t : Text} {i : Nat} (h : closingParen? t = some i) :
    t[i]? = some ')' := by
  rw [closingParen?.eq_def] at h
  split at h
  · obtain ⟨j, hj, rfl⟩ := Option.map_eq_some_iff.mp h
    rw [List.getElem?_cons_succ]
    exact getElem?_of_closingFrom hj
  · cases h

theorem eq_of_isWrapped {t : Text} (h : t.isWrapped = true) :
    t = '(' :: (t.tail.dropLast ++ [')']) := by
  rw [isWrapped] at h
  split at h
  · rename_i i hi
    have last : i + 1 = t.length := beq_iff_eq.mp h
    have closing := getElem?_of_closingParen? hi
    obtain ⟨s, rfl⟩ : ∃ s, t = '(' :: s := by
      rw [closingParen?.eq_def] at hi
      split at hi
      · exact ⟨_, rfl⟩
      · cases hi
    have positive := (closingParen?_lt hi).1
    obtain ⟨j, rfl⟩ : ∃ j, i = j + 1 := ⟨i - 1, by omega⟩
    have end_closing : ')' ∈ s.getLast? := by
      rw [Option.mem_def, List.getLast?_eq_getElem?, ← closing, List.getElem?_cons_succ]
      congr 1
      simp only [List.length_cons] at last
      omega
    rw [List.tail_cons, List.dropLast_append_getLast? _ end_closing]
  · cases h

end Text

end SqlCanvas
