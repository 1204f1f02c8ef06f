import SqlCanvas.Proofs.Nesting.Closed

/-!
# Balanced texts

A text is closed just when a scan meets no closing parenthesis at the top level, and ends at the top
level itself.
-/

namespace SqlCanvas

open Nesting

namespace Nesting

/-- Whether no parenthesis is closed without a partner from here on, and the text ends at the top
level. -/
def balances (n : Nesting) : Text → Bool
  | [] => decide (n = outside)
  | c :: t => decide (¬ (n = outside ∧ c = ')')) && (n.step c).balances t

theorem balances_step {n : Nesting} {c : Char} {t : Text} (hn : n ≠ outside ∨ c ≠ ')') :
    n.balances (c :: t) = (n.step c).balances t := by
  have passes : ¬ (n = outside ∧ c = ')') := fun h => hn.elim (· h.1) (· h.2)
  rw [balances, decide_eq_true passes, Bool.true_and]

theorem balances_quoted (d : Nat) {q : Char} {body : Text} (hbody : q ∉ body) (r : Text) :
    (⟨d, some q⟩ : Nesting).balances (body ++ q :: r) = (⟨d, none⟩ : Nesting).balances r := by
  have inside : (⟨d, some q⟩ : Nesting) ≠ outside := by simp [outside]
  induction body with
  | nil => rw [List.nil_append, balances_step (.inl inside), step_close_quote]
  | cons c body ih =>
    rw [List.cons_append, balances_step (.inl inside),
      step_quoted d (List.ne_of_not_mem_cons hbody).symm, ih (List.not_mem_of_not_mem_cons hbody)]

theorem exists_of_balances_quoted {d : Nat} {q : Char} {t : Text}
    (h : (⟨d, some q⟩ : Nesting).balances t = true) :
    ∃ body r, t = body ++ q :: r ∧ q ∉ body ∧ (⟨d, none⟩ : Nesting).balances r = true := by
  induction t with
  | nil => simp [balances, outside] at h
  | cons c t ih =>
    rw [balances_step (.inl (by simp [outside]))] at h
    by_cases hc : c = q
    · subst hc
      rw [step_close_quote] at h
      exact ⟨[], t, rfl, List.not_mem_nil, h⟩
    · rw [step_quoted d hc] at h
      obtain ⟨body, r, rfl, hbody, hr⟩ := ih h
      exact ⟨c :: body, r, rfl, List.not_mem_cons_of_ne_of_not_mem (Ne.symm hc) hbody, hr⟩

end Nesting

theorem Closed.balances {s : Text} (h : Closed s) (d : Nat) (r : Text) :
    (⟨d, none⟩ : Nesting).balances (s ++ r) = (⟨d, none⟩ : Nesting).balances r := by
  induction h generalizing d r with
  | nil => rfl
  | @plain c t hc _ ih =>
    have other : c ≠ ')' := by
      rintro rfl
      cases hc
    rw [List.cons_append, balances_step (.inr other), step_plain rfl hc, ih]
  | @quoted q body t hq hbody _ ih =>
    have other : q ≠ ')' := by
      rintro rfl
      cases hq
    rw [List.cons_append, balances_step (.inr other), step_open_quote d hq, List.append_assoc,
      List.cons_append, balances_quoted d hbody, ih]
  | parens _ _ ihs iht =>
    rw [List.cons_append, balances_step (.inr (by decide)), step_open, List.append_assoc,
      List.cons_append, ihs, balances_step (.inl (by simp [outside])), step_close, iht]

/-- What a scan may meet behind a closed text: the end of the text, or the parenthesis that closes a
level. -/
def Nesting.Resumes : Nat → Text → Prop
  | 0, r => r = []
  | d + 1, r => ∃ t, r = ')' :: t ∧ (⟨d, none⟩ : Nesting).balances t = true

theorem exists_closed_of_balances {d : Nat} {t : Text}
    (h : (⟨d, none⟩ : Nesting).balances t = true) : ∃ s r, t = s ++ r ∧ Closed s ∧ Resumes d r := by
  -- By length, as the two parts around a parenthesis are found one after the other.
  match t with
  | [] =>
    have top : (⟨d, none⟩ : Nesting) = outside := of_decide_eq_true h
    obtain rfl : d = 0 := congrArg Nesting.depth top
    exact ⟨[], [], rfl, .nil, rfl⟩
  | c :: t =>
    by_cases hquote : isQuote c = true
    · rw [balances_step (.inr fun hc => by subst hc; cases hquote), step_open_quote d hquote] at h
      obtain ⟨body, u, rfl, hbody, hu⟩ := exists_of_balances_quoted h
      obtain ⟨s, r, rfl, hs, hr⟩ := exists_closed_of_balances hu
      exact ⟨c :: (body ++ c :: s), r, by simp, .quoted hquote hbody hs, hr⟩
    by_cases hopen : c = '('
    · subst hopen
      rw [balances_step (.inr (by decide)), step_open] at h
      obtain ⟨s, _, rfl, hs, u, rfl, hu⟩ := exists_closed_of_balances h
      obtain ⟨s', r, rfl, hs', hr⟩ := exists_closed_of_balances hu
      exact ⟨'(' :: (s ++ ')' :: s'), r, by simp, .parens hs hs', hr⟩
    by_cases hclose : c = ')'
    · subst hclose
      cases d with
      | zero =>
        rw [balances] at h
        simp [outside] at h
      | succ d =>
        rw [balances_step (.inl (by simp [outside])), step_close] at h
        exact ⟨[], ')' :: t, rfl, .nil, t, rfl, h⟩
    · have plain : isSpecial c = false := by simp [isSpecial, hquote, hopen, hclose]
      rw [balances_step (.inr hclose), step_plain rfl plain] at h
      obtain ⟨s, r, rfl, hs, hr⟩ := exists_closed_of_balances h
      exact ⟨c :: s, r, rfl, .plain plain hs, hr⟩
termination_by t.length

/-- A scan decides whether a text is closed. -/
theorem closed_iff_balances {t : Text} : Closed t ↔ outside.balances t = true := by
  constructor
  · intro h
    have := h.balances 0 []
    rwa [List.append_nil, show (⟨0, none⟩ : Nesting).balances [] = true from rfl] at this
  · intro h
    obtain ⟨s, _, rfl, hs, rfl⟩ := exists_closed_of_balances (d := 0) h
    rwa [List.append_nil]

instance : DecidablePred Closed :=
  fun _ => decidable_of_iff _ closed_iff_balances.symm

example : Closed "SELECT ')' FROM (t)".toList ∧ ¬ Closed ")(".toList := by
  decide

end SqlCanvas
