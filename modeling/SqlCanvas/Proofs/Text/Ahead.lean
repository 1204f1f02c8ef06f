import Mathlib.Data.List.TakeWhile
import SqlCanvas.Proofs.Pattern.Word
import SqlCanvas.Text.Quoted

/-!
# Keywords between blanks

Some texts are cut at the first place where a keyword stands between blanks, whatever the place is
in. Here is where such places are, and that the quotes around a string and those doubled in it
neither make nor hide one.
-/

namespace SqlCanvas

open Text Nesting Pattern

/-- A text that starts with the keyword between blanks. -/
def KeywordAhead (k : String) (t : Text) : Prop :=
  ∃ g w g' r, t = g ++ (w ++ (g' ++ r)) ∧ IsGap g ∧ Spells k.toList w ∧ IsGap g'

/-- The keyword stands between blanks somewhere in the text. -/
def HoldsKeyword (k : String) (t : Text) : Prop :=
  ∃ x y, t = x ++ y ∧ KeywordAhead k y

/-- No place in `u`, with `r` behind it, has the keyword between blanks ahead. -/
def ClearOfKeyword (k : String) (u r : Text) : Prop :=
  ∀ x y, u = x ++ y → y ≠ [] → ¬ KeywordAhead k (y ++ r)

variable {k : String}

namespace KeywordAhead

theorem exists_blank {t : Text} (h : KeywordAhead k t) : ∃ c ∈ t.head?, isBlank c = true := by
  obtain ⟨g, w, g', r, rfl, hg, -, -⟩ := h
  obtain ⟨c, g, rfl⟩ := List.exists_cons_of_ne_nil hg.1
  exact ⟨c, rfl, hg.2 c List.mem_cons_self⟩

theorem append {t : Text} (h : KeywordAhead k t) (s : Text) : KeywordAhead k (t ++ s) := by
  obtain ⟨g, w, g', r, rfl, hg, hw, hg'⟩ := h
  exact ⟨g, w, g', r ++ s, by simp, hg, hw, hg'⟩

theorem cons {t : Text} (h : KeywordAhead k t) {c : Char} (hc : isBlank c = true) :
    KeywordAhead k (c :: t) := by
  obtain ⟨g, w, g', r, rfl, hg, hw, hg'⟩ := h
  exact ⟨c :: g, w, g', r, rfl, ⟨List.cons_ne_nil _ _, List.forall_mem_cons.mpr ⟨hc, hg.2⟩⟩,
    hw, hg'⟩

theorem exists_split {t : Text} (h : KeywordAhead k t) :
    ∃ g w g' r, t = g ++ (w ++ (g' ++ r)) ∧ IsGap g ∧
    Spells k.toList w ∧ IsGap g' ∧ Halts isBlank r := by
  obtain ⟨g, w, g', r, rfl, hg, hw, hne, hg'⟩ := h
  refine ⟨g, w, g' ++ r.takeWhile isBlank, r.dropWhile isBlank, ?_, hg, hw, ⟨by simp [hne], ?_⟩, ?_⟩
  · rw [List.append_assoc, List.takeWhile_append_dropWhile]
  · refine List.forall_mem_append.mpr ⟨hg', fun c hc => ?_⟩
    exact List.mem_takeWhile_imp hc
  · intro c hc
    rw [Option.mem_def] at hc
    have := List.head?_dropWhile_not isBlank r
    rw [hc] at this
    exact this

section Keyword

variable (hk : IsKeyword k.toList)

include hk

theorem mem_letters {g w g' : Text} (hg : IsGap g) (hw : Spells k.toList w) (hg' : IsGap g') :
    ∀ c ∈ g ++ (w ++ g'), (isBlank c || isWord c) = true := by
  intro c hc
  rcases List.mem_append.mp hc with hc | hc
  · simp [hg.2 c hc]
  · rcases List.mem_append.mp hc with hc | hc
    · simp [hw.isWord hk.2 c hc]
    · simp [hg'.2 c hc]

theorem of_append {z r : Text} {c : Char} (hc : isBlank c = false ∧ isWord c = false)
    (h : KeywordAhead k (z ++ c :: r)) : KeywordAhead k z := by
  obtain ⟨g, w, g', s, hs, hg, hw, hg'⟩ := h
  have parted : z ++ c :: r = (g ++ (w ++ g')) ++ s := by simp [hs]
  obtain ⟨y, rfl, -⟩ :=
    prefix_of_halts parted (mem_letters hk hg hw hg') (halts_cons.mpr (by simp [hc]))
  exact ⟨g, w, g', y, by simp, hg, hw, hg'⟩

end Keyword

end KeywordAhead

theorem not_keywordAhead_of_halts {t : Text} (h : Halts isBlank t) : ¬ KeywordAhead k t := by
  intro hahead
  obtain ⟨c, hc, hblank⟩ := hahead.exists_blank
  rw [h c hc] at hblank
  cases hblank

theorem holdsKeyword_cons {c : Char} {t : Text} :
    HoldsKeyword k (c :: t) ↔ KeywordAhead k (c :: t) ∨ HoldsKeyword k t := by
  constructor
  · rintro ⟨x, y, hxy, hy⟩
    cases x with
    | nil => exact .inl (hxy ▸ hy)
    | cons d x =>
      obtain ⟨-, rfl⟩ := List.cons.inj hxy
      exact .inr ⟨x, y, rfl, hy⟩
  · rintro (h | ⟨x, y, rfl, hy⟩)
    · exact ⟨[], c :: t, rfl, h⟩
    · exact ⟨c :: x, y, rfl, hy⟩

theorem clearOfKeyword_nil (r : Text) : ClearOfKeyword k [] r := by
  intro x y hxy hy
  exact absurd (List.append_eq_nil_iff.mp hxy.symm).2 hy

theorem ClearOfKeyword.append {u v r : Text} (hu : ClearOfKeyword k u (v ++ r))
    (hv : ClearOfKeyword k v r) : ClearOfKeyword k (u ++ v) r := by
  intro x y hxy hy
  rcases List.append_eq_append_iff.mp hxy with ⟨z, rfl, rfl⟩ | ⟨z, rfl, rfl⟩
  · exact hv z y rfl hy
  · by_cases hz : z = []
    · subst hz
      exact hv [] v rfl hy
    · rw [List.append_assoc]
      exact hu x z rfl hz

theorem clearOfKeyword_of_not_isBlank {u : Text} (h : ∀ c ∈ u, isBlank c = false) (r : Text) :
    ClearOfKeyword k u r := by
  intro x y hxy hy
  obtain ⟨c, y, rfl⟩ := List.exists_cons_of_ne_nil hy
  exact not_keywordAhead_of_halts (halts_cons.mpr (h c (by simp [hxy])))

theorem clearOfKeyword_cons {c : Char} {u r : Text} :
    ClearOfKeyword k (c :: u) r ↔ ¬ KeywordAhead k (c :: (u ++ r)) ∧ ClearOfKeyword k u r := by
  constructor
  · exact fun h => ⟨h [] (c :: u) rfl (List.cons_ne_nil _ _),
      fun x y hxy hy => h (c :: x) y (by rw [hxy]; rfl) hy⟩
  · rintro ⟨hfirst, hrest⟩ x y hxy hy
    cases x with
    | nil =>
      obtain rfl : y = c :: u := hxy.symm
      exact hfirst
    | cons d x =>
      obtain ⟨-, rfl⟩ := List.cons.inj hxy
      exact hrest x y rfl hy

theorem exists_first_keyword {t : Text} (h : HoldsKeyword k t) :
    ∃ x y, t = x ++ y ∧ KeywordAhead k y ∧ ClearOfKeyword k x y := by
  induction t with
  | nil =>
    obtain ⟨x, y, hxy, hy⟩ := h
    rw [(List.append_eq_nil_iff.mp hxy.symm).2] at hy
    exact absurd hy (not_keywordAhead_of_halts (halts_nil _))
  | cons c t ih =>
    by_cases hahead : KeywordAhead k (c :: t)
    · exact ⟨[], c :: t, rfl, hahead, clearOfKeyword_nil _⟩
    · obtain ⟨x, y, rfl, hy, hclear⟩ := ih ((holdsKeyword_cons.mp h).resolve_left hahead)
      exact ⟨c :: x, y, rfl, hy, clearOfKeyword_cons.mpr ⟨hahead, hclear⟩⟩

/-- In front of the first keyword stands no blank that does not belong to it. -/
theorem ClearOfKeyword.last_not_isBlank {x y : Text} (h : ClearOfKeyword k x y)
    (hy : KeywordAhead k y) : ∀ c ∈ x.getLast?, isBlank c = false := by
  intro c hc
  obtain ⟨x', rfl⟩ := List.getLast?_eq_some_iff.mp hc
  by_contra hblank
  exact h x' [c] rfl (List.cons_ne_nil _ _) (hy.cons (by simpa using hblank))

section Keyword

variable (hk : IsKeyword k.toList)

include hk

theorem clearOfKeyword_of_isBlank {g r : Text} (hg : ∀ c ∈ g, isBlank c = true)
    (hr : Halts isBlank r) (h : ∀ w v, r = w ++ v → Spells k.toList w → Halts isWord v → False) :
    ClearOfKeyword k g r := by
  intro x y hxy hy hahead
  obtain ⟨g₁, w, g₂, s, hs, hg₁, hw, hg₂⟩ := hahead
  have blank : ∀ c ∈ y, isBlank c = true := fun c hc => hg c (by simp [hxy, hc])
  have word : Halts isBlank (w ++ (g₂ ++ s)) := (hw.isName hk).halts_isBlank _
  obtain ⟨z, rfl, hz⟩ := prefix_of_halts hs hg₁.2 hr
  cases z with
  | nil => exact h w (g₂ ++ s) hz.symm hw (hg₂.halts_isWord s)
  | cons c z =>
    have hc := blank c (by simp)
    rw [hz, List.cons_append, halts_cons, hc] at word
    cases word

theorem clearOfKeyword_gap {g n r : Text} (hg : ∀ c ∈ g, isBlank c = true) (hn : IsName n)
    (hother : ¬ Spells k.toList n) (hr : Halts isWord r) : ClearOfKeyword k g (n ++ r) := by
  refine clearOfKeyword_of_isBlank hk hg (hn.halts_isBlank r) fun w v hwv hw hv => hother ?_
  obtain ⟨y, rfl, rfl⟩ := prefix_of_halts hwv (hw.isWord hk.2) hr
  cases y with
  | nil => rwa [List.append_nil]
  | cons c y =>
    rw [List.cons_append, halts_cons, hn.2 c (by simp)] at hv
    cases hv

/-- A stretch without the keyword in it is clear in front of a character that ends words and
blanks. -/
theorem clearOfKeyword_of_not_holds {u r : Text} {c : Char}
    (hc : isBlank c = false ∧ isWord c = false) (h : ¬ HoldsKeyword k u) :
    ClearOfKeyword k u (c :: r) := by
  intro x y hxy _ hahead
  exact h ⟨x, y, hxy, hahead.of_append hk hc⟩

theorem ClearOfKeyword.append_right {u v r : Text} {c : Char} (h : ClearOfKeyword k u v)
    (hc : isBlank c = false ∧ isWord c = false) : ClearOfKeyword k u (v ++ c :: r) := by
  intro x y hxy hy hahead
  rw [← List.append_assoc] at hahead
  exact h x y hxy hy (hahead.of_append hk hc)

end Keyword

theorem doubleQuotes_append (q : Char) (s t : Text) :
    doubleQuotes q (s ++ t) = doubleQuotes q s ++ doubleQuotes q t := by
  induction s with
  | nil => rfl
  | cons c s ih => by_cases h : c = q <;> simp [doubleQuotes, h, ih]

theorem doubleQuotes_of_not_mem {q : Char} {u : Text} (h : q ∉ u) : doubleQuotes q u = u := by
  induction u with
  | nil => rfl
  | cons c u ih =>
    obtain ⟨hc, hu⟩ := not_or.mp (List.mem_cons.not.mp h)
    rw [doubleQuotes, if_neg (Ne.symm hc), ih hu]

theorem exists_of_doubleQuotes_eq_append {q : Char} {u r s : Text} (hu : q ∉ u)
    (h : doubleQuotes q s = u ++ r) : ∃ s', s = u ++ s' := by
  induction u generalizing s with
  | nil => exact ⟨s, rfl⟩
  | cons c u ih =>
    obtain ⟨hc, hrest⟩ := not_or.mp (List.mem_cons.not.mp hu)
    cases s with
    | nil => cases h
    | cons d s =>
      by_cases hd : d = q
      · rw [doubleQuotes, if_pos hd] at h
        exact absurd (List.cons.inj h).1 hc
      · rw [doubleQuotes, if_neg hd] at h
        obtain ⟨rfl, hbehind⟩ := List.cons.inj h
        obtain ⟨s', rfl⟩ := ih hrest hbehind
        exact ⟨s', rfl⟩

section Doubled

variable {q : Char} (hk : IsKeyword k.toList) (hq : isQuote q = true)

include hq

theorem not_keywordAhead_quote (t : Text) : ¬ KeywordAhead k (q :: t) :=
  not_keywordAhead_of_halts (halts_cons.mpr (not_isBlank_of_isSpecial (by simp [isSpecial, hq])))

include hk

theorem KeywordAhead.quote_not_mem {g w g' : Text} (hg : IsGap g) (hw : Spells k.toList w)
    (hg' : IsGap g') : q ∉ g ++ (w ++ g') := by
  intro hmem
  have special : isSpecial q = true := by simp [isSpecial, hq]
  have := mem_letters hk hg hw hg' q hmem
  simp [not_isBlank_of_isSpecial special, not_isWord_of_isSpecial special] at this

theorem keywordAhead_doubleQuotes {s : Text} :
    KeywordAhead k (doubleQuotes q s) ↔ KeywordAhead k s := by
  constructor
  · rintro ⟨g, w, g', r, hr, hg, hw, hg'⟩
    have whole : doubleQuotes q s = (g ++ (w ++ g')) ++ r := by simp [hr]
    obtain ⟨s', rfl⟩ :=
      exists_of_doubleQuotes_eq_append (KeywordAhead.quote_not_mem hk hq hg hw hg') whole
    exact ⟨g, w, g', s', by simp, hg, hw, hg'⟩
  · rintro ⟨g, w, g', r, rfl, hg, hw, hg'⟩
    have front := doubleQuotes_of_not_mem (KeywordAhead.quote_not_mem hk hq hg hw hg')
    refine ⟨g, w, g', doubleQuotes q r, ?_, hg, hw, hg'⟩
    have whole : g ++ (w ++ (g' ++ r)) = (g ++ (w ++ g')) ++ r := by simp
    rw [whole, doubleQuotes_append, front]
    simp

theorem holdsKeyword_doubleQuotes {s : Text} :
    HoldsKeyword k (doubleQuotes q s) ↔ HoldsKeyword k s := by
  induction s with
  | nil => exact Iff.rfl
  | cons c s ih =>
    by_cases hc : c = q
    · subst hc
      simp only [doubleQuotes, if_true, holdsKeyword_cons, not_keywordAhead_quote hq, false_or, ih]
    · have := keywordAhead_doubleQuotes hk hq (s := c :: s)
      simp only [doubleQuotes, if_neg hc] at this ⊢
      simp only [holdsKeyword_cons, ih, this]

theorem clearOfKeyword_doubleQuotes {u r : Text} :
    ClearOfKeyword k (doubleQuotes q u) (doubleQuotes q r) ↔ ClearOfKeyword k u r := by
  induction u with
  | nil => exact iff_of_true (clearOfKeyword_nil _) (clearOfKeyword_nil _)
  | cons c u ih =>
    by_cases hc : c = q
    · subst hc
      simp only [doubleQuotes, if_true, clearOfKeyword_cons, not_keywordAhead_quote hq,
        not_false_eq_true, true_and, ih]
    · have := keywordAhead_doubleQuotes hk hq (s := c :: (u ++ r))
      simp only [doubleQuotes, if_neg hc, doubleQuotes_append] at this ⊢
      simp only [clearOfKeyword_cons, ih, this]

end Doubled

end SqlCanvas
