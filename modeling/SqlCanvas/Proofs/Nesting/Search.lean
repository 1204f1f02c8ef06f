import Mathlib.Order.WellFounded
import SqlCanvas.Proofs.Nesting.Pieces
import SqlCanvas.Proofs.Pattern.Moved

/-!
# First places at the top level

The search for a pattern goes through a stretch just when the pattern is refused at each place of it
at the top level. Where it is not, there is a first such place, and the pattern takes something
there. So every text has its cuts. A pattern that looks at what it covers only is not found in what
a text is split into at it.
-/

namespace SqlCanvas

open Text Nesting Pattern

/-- A pattern that can be searched for at the top level: it takes no quote and no parenthesis, does
not ask for the start of the text, and never takes nothing. -/
structure Pattern.IsSearchable (p : Pattern) : Prop where
  shy : p.shy = true
  floats : p.floats = true
  ne_nil : ∀ u, p.Covers u → u ≠ []

section Searchable

variable {p : Pattern} {b : Option Char} {t u r : Text}

/-- Where a stretch is not vacant there is a first place in it at which the pattern takes
something. -/
theorem exists_first_of_not_vacant (hp : p.IsSearchable) (h : ¬ Vacant p outside b u r) :
    ∃ l x s t m, u = l ++ x ∧ x ≠ [] ∧ x ++ r = s ++ t ∧ s ≠ [] ∧ Skips p b l (s ++ t) ∧
      p.Takes (lastChar b l) s t m := by
  have found : {l : Text | ∃ c x, u = l ++ c :: x ∧ (outside.after l).seesTopLevel c = true ∧
      ¬ p.Refuses (lastChar b l) (c :: (x ++ r))}.Nonempty := by
    rw [Vacant] at h
    push Not at h
    exact h
  obtain ⟨l, ⟨c, x, hu, htop, hrefuses⟩, hmin⟩ :=
    WellFounded.has_min (measure List.length).wf _ found
  have first : Vacant p outside b l (c :: (x ++ r)) := by
    rintro l' c' x' rfl htop'
    by_contra hrefuses'
    refine hmin l' ⟨c', x' ++ c :: x, ?_, htop', ?_⟩ ?_
    · rw [hu, List.append_assoc, List.cons_append]
    · rwa [List.append_assoc, List.cons_append]
    · change l'.length < (l' ++ c' :: x').length
      simp
  obtain ⟨s, t, m, hst, htakes⟩ := (refuses_or_takes hp.floats _ _).resolve_left hrefuses
  have skips := skips_of_vacant hp.shy first (eq_outside_of_seesTopLevel htop)
  rw [hst] at skips
  exact ⟨l, c :: x, s, t, m, hu, List.cons_ne_nil c x, hst, hp.ne_nil s htakes.covers,
    skips, htakes⟩

theorem Skips.vacant (hp : p.IsSearchable) (h : Skips p b u r) : Vacant p outside b u r := by
  by_contra hvacant
  obtain ⟨l, x, s, t, m, rfl, hx, hst, hs, hskips, htakes⟩ := exists_first_of_not_vacant hp hvacant
  obtain ⟨o, ho, hstart, -⟩ := topLevelFrom_of_takes hp.shy htakes hs (0 + l.length)
  have found : o ∈ p.topLevelFrom outside b (l ++ x ++ r) 0 0 := by
    rw [List.append_assoc, hst, hskips, ho]
    exact List.mem_cons_self
  rw [h] at found
  obtain ⟨l', c, y, -, -, ho'⟩ := exists_of_mem_topLevelFrom found
  have later := start_of_occurrenceAt? ho'
  have := List.length_pos_of_ne_nil hx
  simp only [hstart, List.length_append] at later
  omega

theorem topLevelOccurrences_eq_nil_iff (hp : p.IsSearchable) (t : Text) :
    t.topLevelOccurrences p = [] ↔ Vacant p outside none t [] := by
  rw [topLevelOccurrences_eq]
  constructor
  · intro hnone
    by_contra hvacant
    obtain ⟨l, x, s, t, m, rfl, -, hst, hs, hskips, htakes⟩ := exists_first_of_not_vacant hp hvacant
    obtain ⟨o, ho, -⟩ := topLevelFrom_of_takes hp.shy htakes hs (0 + l.length)
    rw [List.append_nil] at hst
    rw [hst, hskips, ho] at hnone
    cases hnone
  · intro h
    have := skips_last_of_vacant hp.shy h 0
    rwa [List.append_nil] at this

theorem exists_cuts (hp : p.IsSearchable) (b : Option Char) (t : Text) :
    ∃ u pieces, Cuts p b t u pieces := by
  by_cases h : Vacant p outside b t []
  · exact ⟨t, [], .last (skips_last_of_vacant hp.shy h)⟩
  · obtain ⟨l, x, s, r, m, ht, -, hst, hs, hskips, htakes⟩ := exists_first_of_not_vacant hp h
    rw [List.append_nil] at hst
    have shorter : r.length < t.length := by
      have := List.length_pos_of_ne_nil hs
      rw [ht, hst]
      simp only [List.length_append]
      omega
    obtain ⟨v, pieces, hcuts⟩ := exists_cuts hp (lastChar (lastChar b l) s) r
    rw [ht, hst]
    exact ⟨l, (m, v) :: pieces, .next hskips hs htakes hcuts⟩
termination_by t.length

/-- A stretch between two places at which the pattern takes something, or between such a place and
an end of the text. The pattern is not found in it. -/
structure Segment (p : Pattern) (b : Option Char) (u r : Text) : Prop where
  skips : Skips p b u r
  behind : b = none ∨ ∃ b' s m, b = lastChar b' s ∧ p.Takes b' s (u ++ r) m
  ahead : r = [] ∨ ∃ s v m, r = s ++ v ∧ p.Takes (lastChar b u) s v m

theorem Cuts.exists_segment {pieces : List (Marking × Text)} (h : Cuts p b t u pieces)
    (hb : b = none ∨ ∃ b' s m, b = lastChar b' s ∧ p.Takes b' s t m) :
    ∀ v ∈ u :: pieces.map (·.2), ∃ b r, Segment p b v r := by
  induction h with
  | last hu =>
    refine List.forall_mem_singleton.mpr ⟨_, [], hu, ?_, .inl rfl⟩
    rwa [List.append_nil]
  | next hu hs hp _ ih =>
    rw [List.map_cons]
    exact List.forall_mem_cons.mpr ⟨⟨_, _, hu, hb, .inr ⟨_, _, _, rfl, hp⟩⟩,
      ih (.inr ⟨_, _, _, rfl, hp⟩)⟩

theorem Cuts.length_le {pieces : List (Marking × Text)} (h : Cuts p b t u pieces) :
    ∀ v ∈ u :: pieces.map (·.2), v.length ≤ t.length := by
  induction h with
  | last hu => simp
  | next hu hs hp _ ih =>
    rw [List.map_cons]
    refine List.forall_mem_cons.mpr ⟨by simp, fun v hv => (ih v hv).trans ?_⟩
    simp only [List.length_append]
    omega

theorem exists_segments (hp : p.IsSearchable) (t : Text) :
    ∀ u ∈ t.between 0 (t.topLevelOccurrences p), ∃ b r, Segment p b u r := by
  obtain ⟨u, pieces, hcuts⟩ := exists_cuts hp none t
  rw [between_of_cuts hp.shy hcuts]
  exact hcuts.exists_segment (.inl rfl)

end Searchable

/-- A stretch that the pattern covers starts in the text outside quotes and parentheses. -/
def Text.HasTop (p : Pattern) (t : Text) : Prop :=
  ∃ l s r, t = l ++ (s ++ r) ∧ p.Covers s ∧ outside.after l = outside

theorem Text.HasTop.of_trim {p : Pattern} {t : Text} (h : HasTop p t.trim) : HasTop p t := by
  obtain ⟨g, g', ht, hg, -⟩ := exists_trim_append t
  obtain ⟨l, s, r, htrim, hs, htop⟩ := h
  refine ⟨g ++ l, s, r ++ g', ?_, hs, ?_⟩
  · rw [ht, htrim]
    simp
  · rw [after_append, isProper_outside.after_plain fun c hc => not_isSpecial_of_isBlank (hg c hc),
      htop]

section Blind

variable {p : Pattern} (hp : p.IsSearchable) (hblind : p.isBlind = true) {b : Option Char}
  {s t u r : Text}

include hp hblind

theorem Vacant.not_hasTop (h : Vacant p outside b u r) : ¬ HasTop p u := by
  rintro ⟨l, s, v, rfl, hs, htop⟩
  obtain ⟨c, s, rfl⟩ := List.exists_cons_of_ne_nil (hp.ne_nil s hs)
  have sees : (outside.after l).seesTopLevel c = true := by
    rw [htop]
    exact seesTopLevel_outside (not_isSpecial_of_covers hp.shy hs c List.mem_cons_self)
  have refused := h l c (s ++ v) rfl sees 0 []
  exact (ends_eq_nil_iff_of_blind hblind _).mp refused (c :: s) (v ++ r) (by simp) hs

omit hp in
/-- Something that the pattern covers may start in the stretch and go on behind it; where it does
not, the pattern is refused in the stretch when it does not occur there. -/
theorem vacant_of_not_hasTop (h : ¬ HasTop p u)
    (hover : ∀ l y z v, u = l ++ y → y ≠ [] → r = z ++ v → z ≠ [] → ¬ p.Covers (y ++ z)) :
    Vacant p outside b u r := by
  intro l c x hu htop i captures
  refine (ends_eq_nil_iff_of_blind hblind _).mpr fun s v hsv hs => ?_
  have htop := eq_outside_of_seesTopLevel htop
  have hsv : (c :: x) ++ r = s ++ v := hsv
  rcases List.append_eq_append_iff.mp hsv with ⟨z, rfl, hr⟩ | ⟨y, hy, -⟩
  · cases z with
    | nil => exact h ⟨l, c :: x, [], by simpa using hu, by simpa using hs, htop⟩
    | cons d z =>
      exact hover l (c :: x) (d :: z) v hu (List.cons_ne_nil c x) hr (List.cons_ne_nil d z) hs
  · exact h ⟨l, s, y, by rw [hu, hy], hs, htop⟩

theorem topLevelOccurrences_eq_nil_iff_of_blind : t.topLevelOccurrences p = [] ↔ ¬ HasTop p t := by
  rw [topLevelOccurrences_eq_nil_iff hp]
  refine ⟨Vacant.not_hasTop hp hblind,
    fun h => vacant_of_not_hasTop hblind h fun _ _ z v _ _ hr hz => ?_⟩
  exact absurd (List.append_eq_nil_iff.mp hr.symm).1 hz

/-- What a text is split into is trimmed and is not split any further. -/
theorem splitTopLevel_of_mem (h : s ∈ t.splitTopLevel p) :
    s ≠ [] ∧ s.trim = s ∧ s.splitTopLevel p = [s] := by
  obtain ⟨hne, u, hu, rfl⟩ := trimmed_of_mem_splitTopLevel h
  obtain ⟨b, r, segment⟩ := exists_segments hp t u hu
  have nothing := (topLevelOccurrences_eq_nil_iff_of_blind hp hblind).mpr fun found =>
    (segment.skips.vacant hp).not_hasTop hp hblind found.of_trim
  refine ⟨hne, trim_trim u, ?_⟩
  rw [splitTopLevel, nothing, between, List.drop_zero, List.map_singleton, trim_trim]
  simp [hne]

/-- In a text that is not split nothing occurs: the pieces around an occurrence are shorter than the
text. -/
theorem not_hasTop_of_splitTopLevel (h : t.splitTopLevel p = [t]) : ¬ HasTop p t := by
  obtain ⟨u, pieces, hcuts⟩ := exists_cuts hp none t
  have mem : t ∈ t.splitTopLevel p := by
    rw [h]
    exact List.mem_singleton_self t
  rw [splitTopLevel_of_cuts hp.shy hcuts] at mem
  obtain ⟨v, hv, htrim⟩ := List.mem_map.mp (List.mem_of_mem_filter mem)
  have long : t.length ≤ v.length := htrim ▸ length_trim_le v
  cases hcuts with
  | last hu => exact (hu.vacant hp).not_hasTop hp hblind
  | next hu hs _ hr =>
    exfalso
    have := List.length_pos_of_ne_nil hs
    rw [List.map_cons] at hv
    simp only [List.length_append] at long
    rcases List.mem_cons.mp hv with rfl | hv
    · omega
    · have := hr.length_le v hv
      omega

end Blind

end SqlCanvas
