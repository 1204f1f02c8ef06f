import SqlCanvas.Proofs.Pattern.Best

/-!
# Counting characters

How often a character can stand in the stretches of a pattern. A pattern that goes on to the end of
the text matches no text with more of them.
-/

namespace SqlCanvas.Pattern

/-- The most often that a character stands in a stretch, where there is a limit. -/
def most (c : Char) : Pattern → Option Nat
  | char accepts => some (if accepts c then 1 else 0)
  | many accepts | few accepts => if accepts c then none else some 0
  | seq first second =>
    match first.most c, second.most c with
    | some m, some n => some (m + n)
    | _, _ => none
  | alt first second =>
    match first.most c, second.most c with
    | some m, some n => some (max m n)
    | _, _ => none
  | capture _ body => body.most c
  | _ => some 0

theorem count_le_of_covers {p : Pattern} {c : Char} {n : Nat} {u : Text} (hp : p.most c = some n)
    (h : p.Covers u) : u.count c ≤ n := by
  -- A run has no bound, so it counts only where the character is not one that it accepts.
  induction p generalizing n u with
  | char accepts =>
    obtain ⟨x, hx, rfl⟩ := h
    simp only [most, Option.some.injEq] at hp
    by_cases hc : x = c
    · rw [← hp, ← hc, hx]
      simp
    · simp [hc]
  | many accepts | few accepts =>
    simp only [most] at hp
    split at hp
    · cases hp
    · rename_i hc
      rw [List.count_eq_zero.mpr fun hmem => hc (h c hmem)]
      exact Nat.zero_le n
  | seq first second ih₁ ih₂ =>
    obtain ⟨v, w, hv, hw, rfl⟩ := h
    simp only [most] at hp
    split at hp
    · rename_i m k hm hk
      cases hp
      rw [List.count_append]
      exact Nat.add_le_add (ih₁ hm hv) (ih₂ hk hw)
    · cases hp
  | alt first second ih₁ ih₂ =>
    simp only [most] at hp
    split at hp
    · rename_i m k hm hk
      cases hp
      rcases h with h | h
      · exact (ih₁ hm h).trans (Nat.le_max_left m k)
      · exact (ih₂ hk h).trans (Nat.le_max_right m k)
    · cases hp
  | capture slot body ih => exact ih hp h
  | skip | boundary | textStart | textEnd | notAhead =>
    obtain rfl : u = [] := h
    simp

/-- A pattern that stops at the end of the text only. -/
def Closes (p : Pattern) : Prop :=
  ∀ c, ∀ d ∈ p.ends c, d.atEnd = true

theorem Closes.seq {q : Pattern} (hq : q.Closes) (p : Pattern) : (p.seq q).Closes := by
  intro c d hd
  rw [ends, List.mem_flatMap] at hd
  obtain ⟨e, -, hd⟩ := hd
  exact hq e d hd

/-- Whether a pattern ends with the mark for the end of the text. -/
def endsText : Pattern → Bool
  | textEnd => true
  | seq first skip => first.endsText
  | seq _ second => second.endsText
  | _ => false

theorem closes_of_endsText {p : Pattern} (h : p.endsText = true) : p.Closes := by
  fun_induction endsText p with
  | case1 =>
    intro c d hd
    simp only [ends] at hd
    split at hd
    · rename_i hend
      obtain rfl : d = c := by simpa using hd
      exact hend
    · cases hd
  | case2 first ih =>
    intro c d hd
    simp only [ends, List.flatMap_singleton'] at hd
    exact ih h c d hd
  | case3 first second _ ih => exact (ih h).seq first
  | case4 => cases h

/-- Behind the match of a pattern that goes on to the end there is nothing but a line break. -/
theorem Closes.exists_covers {p : Pattern} (hp : p.Closes) {t : Text} {m : Match}
    (h : p.match? t = some m) : ∃ u r, t = u ++ r ∧ (r = [] ∨ r = ['\n']) ∧ p.Covers u := by
  obtain ⟨d, hd, rfl⟩ := Option.map_eq_some_iff.mp h
  have hmem := mem_ends_of_run hd
  obtain ⟨u, new, hs⟩ := exists_stops hmem
  refine ⟨u, d.rest, hs.passes.rest, ?_, hs.covers⟩
  simpa [Cursor.atEnd] using hp _ d hmem

theorem match?_eq_none_of_count {p : Pattern} (hp : p.endsText = true) {c : Char} (hc : c ≠ '\n')
    {n : Nat} (hn : p.most c = some n) {t : Text} (h : n < t.count c) : p.match? t = none := by
  cases hm : p.match? t with
  | none => rfl
  | some m =>
    obtain ⟨u, r, rfl, hr, hu⟩ := (closes_of_endsText hp).exists_covers hm
    have rest : r.count c = 0 := by
      rcases hr with rfl | rfl
      · rfl
      · simp [hc.symm]
    have := count_le_of_covers hn hu
    rw [List.count_append, rest] at h
    omega

end SqlCanvas.Pattern
