import SqlCanvas.Proofs.Grammar.Condition

/-!
# Operands to their end

An operand is a call or a reference. It is complete where no longer operand goes on from it, and the
pattern for operands takes it then: a call is complete wherever it stands, a reference behind which
there is a gap is complete unless a parenthesis opens behind the gap.
-/

namespace SqlCanvas

open Text Pattern

namespace Filter

def IsCall (u : Text) : Prop :=
  ∃ w g inside, IsName w ∧ (∀ c ∈ g, isBlank c = true) ∧
  (∀ c ∈ inside, (c != '(' && c != ')') = true) ∧
    u = w ++ (g ++ '(' :: (inside ++ [')']))

def IsReference (u : Text) : Prop :=
  IsName u ∨ ∃ v w, IsName v ∧ IsName w ∧ u = v ++ '.' :: w

theorem covers_call {u : Text} :
    (Pattern.all [name, blanks, .exactly '(', .many fun c => c != '(' && c != ')',
    .exactly ')']).Covers u ↔ IsCall u := by
  constructor
  · rintro ⟨w, _, hw,
      ⟨g, _, hg,
        ⟨_, _, ⟨c, hc, rfl⟩, ⟨inside, _, hinside, ⟨_, _, ⟨d, hd, rfl⟩, rfl, rfl⟩, rfl⟩, rfl⟩,
      rfl⟩, rfl⟩
    obtain rfl : c = '(' := by simpa using hc
    obtain rfl : d = ')' := by simpa using hd
    exact ⟨w, g, inside, covers_many1.mp hw, hg, hinside, rfl⟩
  · rintro ⟨w, g, inside, hw, hg, hinside, rfl⟩
    exact ⟨w, _, covers_many1.mpr hw, ⟨g, _, hg, ⟨['('], _, ⟨'(', rfl, rfl⟩, ⟨inside, _, hinside,
      ⟨[')'], [], ⟨')', rfl, rfl⟩, rfl, rfl⟩, rfl⟩, rfl⟩, rfl⟩, rfl⟩

theorem covers_identifier {u : Text} : identifier.Covers u ↔ IsReference u := by
  constructor
  · rintro ⟨v, _, hv, ⟨_, w, ⟨c, hc, rfl⟩, hw, rfl⟩ | rfl, rfl⟩
    · obtain rfl : c = '.' := by simpa using hc
      exact .inr ⟨v, w, covers_many1.mp hv, covers_many1.mp hw, rfl⟩
    · rw [List.append_nil]
      exact .inl (covers_many1.mp hv)
  · rintro (hu | ⟨v, w, hv, hw, rfl⟩)
    · exact ⟨u, [], covers_many1.mpr hu, .inr rfl, by simp⟩
    · exact ⟨v, _, covers_many1.mpr hv, .inl ⟨['.'], w, ⟨'.', rfl, rfl⟩, covers_many1.mpr hw, rfl⟩,
        rfl⟩

theorem covers_operand {u : Text} : operand.Covers u ↔ IsCall u ∨ IsReference u :=
  or_congr covers_call covers_identifier

def isReferenceChar (c : Char) : Bool :=
  isWord c || c == '.'

theorem not_isReferenceChar_of_isBlank {c : Char} (hc : isBlank c = true) :
    isReferenceChar c = false := by
  rw [isReferenceChar, not_isWord_of_isBlank hc, Bool.false_or, beq_eq_false_iff_ne]
  rintro rfl
  revert hc
  decide

theorem halts_call {g : Text} (hg : ∀ c ∈ g, isBlank c = true) (r : Text) :
    Halts isReferenceChar (g ++ '(' :: r) := by
  cases g with
  | nil => exact halts_cons.mpr (by decide)
  | cons c g => exact halts_cons.mpr (not_isReferenceChar_of_isBlank (hg c List.mem_cons_self))

namespace IsReference

variable {x r : Text} (h : IsReference x)

include h

theorem chars : ∀ c ∈ x, isReferenceChar c = true := by
  rcases h with h | ⟨v, w, hv, hw, rfl⟩
  · intro c hc
    simp [isReferenceChar, h.2 c hc]
  · refine List.forall_mem_append.mpr ⟨fun c hc => ?_,
      List.forall_mem_cons.mpr ⟨rfl, fun c hc => ?_⟩⟩
    · simp [isReferenceChar, hv.2 c hc]
    · simp [isReferenceChar, hw.2 c hc]

theorem last (b : Option Char) : ∃ c, lastChar b x = some c ∧ isWord c = true := by
  rcases h with h | ⟨v, w, hv, hw, rfl⟩
  · obtain ⟨c, hc, hlast⟩ := lastChar_of_ne_nil h.1 b
    exact ⟨c, hlast, h.2 c hc⟩
  · obtain ⟨c, hc, hlast⟩ := lastChar_of_ne_nil hw.1 (some '.')
    exact ⟨c, by rw [lastChar_append, lastChar_cons, hlast], hw.2 c hc⟩

theorem append_word {c : Char} (hc : isWord c = true) : IsReference (x ++ [c]) := by
  rcases h with h | ⟨v, w, hv, hw, rfl⟩
  · exact .inl ⟨by simp, List.forall_mem_append.mpr ⟨h.2, List.forall_mem_singleton.mpr hc⟩⟩
  · exact .inr ⟨v, w ++ [c], hv,
      ⟨by simp, List.forall_mem_append.mpr ⟨hw.2, List.forall_mem_singleton.mpr hc⟩⟩, by simp⟩

end IsReference

/-- No longer operand goes on from `x` into the text behind it. -/
def Complete (x r : Text) : Prop :=
  ∀ y s, r = y ++ s → y ≠ [] → ¬ operand.Covers (x ++ y)

theorem Complete.halts {x r : Text} (h : Complete x r) (hx : IsReference x) : Halts isWord r := by
  intro c hc
  by_contra hword
  obtain ⟨s, rfl⟩ := List.head?_eq_some_iff.mp hc
  refine h [c] s rfl (List.cons_ne_nil _ _) (covers_operand.mpr (.inr (hx.append_word ?_)))
  simpa using hword

theorem complete_call {x : Text} (hx : IsCall x) (r : Text) : Complete x r := by
  obtain ⟨w, g, inside, hw, hg, hinside, rfl⟩ := hx
  intro y s _ hne hcovers
  rcases covers_operand.mp hcovers with ⟨w', g', inside', hw', hg', hinside', heq⟩ | hreference
  · -- The closing parenthesis of a call is its last character, and it has no other.
    obtain ⟨y, l, rfl⟩ : ∃ y₀ l, y = y₀ ++ [l] := ⟨_, _, (List.dropLast_append_getLast hne).symm⟩
    have front : w ++ (g ++ '(' :: (inside ++ [')'])) ++ y = w' ++ (g' ++ '(' :: inside') := by
      have flat : (w ++ (g ++ '(' :: (inside ++ [')'])) ++ y) ++ [l] =
          (w' ++ (g' ++ '(' :: inside')) ++ [')'] := by
        simpa using heq
      exact List.append_inj_left' flat rfl
    have closing : ')' ∈ w' ++ (g' ++ '(' :: inside') := by
      rw [← front]
      simp
    rcases List.mem_append.mp closing with h | h
    · exact not_mem_of_not_isWord hw' (by decide) h
    · rcases List.mem_append.mp h with h | h
      · exact absurd (hg' _ h) (by decide)
      · rcases List.mem_cons.mp h with h | h
        · exact absurd h (by decide)
        · exact absurd (hinside' _ h) (by decide)
  · have := hreference.chars '(' (by simp)
    exact absurd this (by decide)

theorem complete_reference {x g t : Text} (hx : IsReference x) (hg : IsGap g) (ht : Halts isBlank t)
    (hparen : t.head? ≠ some '(') : Complete x (g ++ t) := by
  intro y s hys hne hcovers
  obtain ⟨c, g, rfl⟩ := List.exists_cons_of_ne_nil hg.1
  obtain ⟨d, y, rfl⟩ := List.exists_cons_of_ne_nil hne
  obtain rfl : c = d := by
    rw [List.cons_append, List.cons_append] at hys
    exact (List.cons.inj hys).1
  have hc : isBlank c = true := hg.2 c List.mem_cons_self
  rcases covers_operand.mp hcovers with ⟨w, g', inside, hw, hg', -, heq⟩ | hreference
  · obtain ⟨z, hz, hy⟩ := prefix_of_halts heq.symm hx.chars (halts_call hg' _)
    cases z with
    | cons e z =>
      rw [List.cons_append] at hy
      obtain ⟨rfl, -⟩ := List.cons.inj hy
      have := not_isBlank_of_isWord (hw.2 c (by rw [hz]; simp))
      rw [hc] at this
      cases this
    | nil =>
      rw [List.nil_append] at hy
      rw [hy, List.append_assoc] at hys
      obtain ⟨z, hz, ht'⟩ := prefix_of_halts hys hg' ht
      cases z with
      | nil =>
        rw [List.nil_append] at ht'
        exact hparen (by rw [← ht']; rfl)
      | cons e z =>
        rw [List.cons_append, List.cons_append] at ht'
        obtain ⟨rfl, -⟩ := List.cons.inj ht'
        exact absurd (hg.2 '(' (by rw [hz]; simp)) (by decide)
  · have := hreference.chars c (by simp)
    rw [not_isReferenceChar_of_isBlank hc] at this
    cases this

theorem takes_complete {x r : Text} (hx : operand.Covers x) (h : Complete x r) :
    operand.Takes none x r [] := by
  rcases covers_operand.mp hx with ⟨w, g, inside, hw, hg, hinside, rfl⟩ | hreference
  · exact takes_call hw hg hinside
  · refine .alt_right ?_ ?_
    · refine refuses_of_not_covers fun y s hys hy => ?_
      obtain ⟨w, g, inside, hw, hg, hinside, rfl⟩ := covers_call.mp hy
      have cut : w ++ (g ++ '(' :: (inside ++ [')'] ++ s)) = x ++ r := by simp [hys]
      obtain ⟨z, hz, hr⟩ := prefix_of_halts cut hreference.chars (halts_call hg _)
      refine h (z ++ (g ++ '(' :: (inside ++ [')']))) s (by simp [hr]) (by simp)
        (covers_operand.mpr (.inl ?_))
      exact ⟨w, g, inside, hw, hg, hinside, by simp [hz]⟩
    · have halts := h.halts hreference
      have dot (hw : IsName x) : ((exactly '.').seq name).Refuses (lastChar none x) r := by
        refine refuses_of_not_covers fun y s hys hy => ?_
        obtain ⟨_, w, ⟨c, hc, rfl⟩, hname, rfl⟩ := hy
        obtain rfl : c = '.' := by simpa using hc
        exact h _ s hys (by simp)
          (covers_operand.mpr (.inr (.inr ⟨x, w, hw, covers_many1.mp hname, rfl⟩)))
      rcases hreference with hw | ⟨v, w, hv, hw, rfl⟩
      · exact takes_bare hw halts (dot hw)
      · exact takes_qualified hv hw halts

end Filter

end SqlCanvas
