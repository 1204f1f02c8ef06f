import SqlCanvas.Proofs.Pattern.Best
import SqlCanvas.Proofs.Text.Keyword

/-!
# Words, gaps and keywords

What the patterns for names, blanks and keywords take and refuse. A keyword pattern does not see
where a word ends, so a longer word is refused only by what comes next in the pattern. Two phrases
clash when their first different words disagree in a letter; a written phrase is refused by all that
clash with it.
-/

namespace SqlCanvas

open Text

/-- A word: at least one word character and nothing else. -/
def IsName (w : Text) : Prop :=
  w ≠ [] ∧ ∀ c ∈ w, isWord c = true

theorem IsName.halts_isBlank {w : Text} (h : IsName w) (r : Text) : Halts isBlank (w ++ r) :=
  (halts_append h.1 r).mpr (halts_of_forall fun c hc => not_isBlank_of_isWord (h.2 c hc))

theorem Spells.isName {k w : Text} (h : Spells k w) (hk : IsKeyword k) : IsName w :=
  ⟨h.ne_nil hk.1, h.isWord hk.2⟩

theorem Text.IsGap.halts_isWord {g : Text} (h : IsGap g) (r : Text) : Halts isWord (g ++ r) :=
  (halts_append h.1 r).mpr (halts_of_forall fun c hc => not_isWord_of_isBlank (h.2 c hc))

/-- Two ways of cutting a text behind accepted characters, one of them as far as possible. -/
theorem prefix_of_halts {accepts : Char → Bool} {u v w r : Text} (h : w ++ r = u ++ v)
    (hu : ∀ c ∈ u, accepts c = true) (hr : Halts accepts r) : ∃ y, w = u ++ y ∧ v = y ++ r := by
  rcases List.append_eq_append_iff.mp h with ⟨y, rfl, rfl⟩ | ⟨y, hw, hv⟩
  · cases y with
    | nil => exact ⟨[], by simp, by simp⟩
    | cons c y =>
      have hc := hu c (by simp)
      rw [List.cons_append, halts_cons, hc] at hr
      cases hr
  · exact ⟨y, hw, hv⟩

theorem lastChar_of_ne_nil {u : Text} (h : u ≠ []) (b : Option Char) :
    ∃ c ∈ u, lastChar b u = some c := by
  refine ⟨u.getLast h, List.getLast_mem h, ?_⟩
  rw [lastChar, List.getLast?_eq_some_getLast h]
  rfl

namespace Pattern

variable {p q : Pattern} {b : Option Char} {u v w g r : Text} {m : Marking} {k : String}

theorem takes_name (hw : IsName w) (hr : Halts isWord r) : name.Takes b w r [] :=
  takes_many1 hw.1 hw.2 hr

theorem takes_blank (hg : IsGap g) (hr : Halts isBlank r) : blank.Takes b g r [] :=
  takes_many1 hg.1 hg.2 hr

theorem takes_blanks (hg : ∀ c ∈ g, isBlank c = true) (hr : Halts isBlank r) :
    blanks.Takes b g r [] :=
  takes_many hg hr

theorem refuses_name (hr : Halts isWord r) : name.Refuses b r :=
  refuses_many1 hr

theorem refuses_blank (hr : Halts isBlank r) : blank.Refuses b r :=
  refuses_many1 hr

theorem refuses_blank_seq (hr : Halts isBlank r) (hg : ∀ c ∈ g, isBlank c = true)
    (hblank : ∀ b c t, isBlank c = true → q.Refuses b (c :: t))
    (hq : q.Refuses (lastChar b g) r) : (blank.seq q).Refuses b (g ++ r) := by
  refine refuses_seq fun u v huv hu => ?_
  obtain ⟨y, rfl, rfl⟩ := prefix_of_halts huv (covers_many1.mp hu).2 hr
  cases y with
  | nil => simpa using hq
  | cons c y => exact hblank _ c _ (hg c (by simp))

/-- Within a word, and behind it, the rest of a pattern has to refuse. -/
theorem refuses_name_seq (hr : Halts isWord r)
    (hword : ∀ x y, w = x ++ y → x ≠ [] → q.Refuses (lastChar b x) (y ++ r)) :
    (name.seq q).Refuses b (w ++ r) := by
  refine refuses_seq fun u v huv hu => ?_
  obtain ⟨hne, hu⟩ := covers_many1.mp hu
  obtain ⟨y, rfl, rfl⟩ := prefix_of_halts huv hu hr
  exact hword u y rfl hne

theorem takes_letters {k : Text} (h : Spells k w) : (letters k).Takes b w r [] := by
  induction h generalizing b with
  | nil => exact takes_skip
  | cons hc _ ih => exact (takes_char hc).seq ih

theorem takes_word (h : Spells k.toList w) : (word k).Takes b w r [] :=
  takes_letters h

theorem covers_word : (word k).Covers u ↔ Spells k.toList u :=
  covers_letters

theorem refuses_letters {k : Text} (h : ∀ u v, r = u ++ v → ¬ Spells k u) :
    (letters k).Refuses b r :=
  refuses_of_not_covers fun u v huv hu => h u v huv (covers_letters.mp hu)

theorem refuses_word_of_halts (hk : IsKeyword k.toList) (hr : Halts isWord r) :
    (word k).Refuses b r := by
  refine refuses_letters fun u v huv hu => ?_
  subst huv
  have hname := hu.isName hk
  obtain ⟨c, u, rfl⟩ := List.exists_cons_of_ne_nil hname.1
  have hc := hname.2 c List.mem_cons_self
  rw [List.cons_append, halts_cons, hc] at hr
  cases hr

/-- A pattern that has no stop within a word. -/
def Breaks (q : Pattern) : Prop :=
  ∀ b c r, isWord b = true → isWord c = true → q.Refuses (some b) (c :: r)

theorem Breaks.seq (h : p.Breaks) (q : Pattern) : (p.seq q).Breaks :=
  fun b c r hb hc => (h b c r hb hc).seq_left q

theorem breaks_boundary : boundary.Breaks := by
  intro b c r hb hc
  exact refuses_boundary (by simp [hb, hc])

theorem breaks_blank : blank.Breaks := by
  intro b c r hb hc
  exact refuses_blank (halts_cons.mpr (not_isBlank_of_isWord hc))

theorem refuses_word_seq (hk : IsKeyword k.toList) (hw : ∀ c ∈ w, isWord c = true)
    (hr : Halts isWord r) (hne : ¬ Spells k.toList w) (hq : q.Breaks) :
    ((word k).seq q).Refuses b (w ++ r) := by
  refine refuses_seq fun u v huv hu => ?_
  have hu := covers_word.mp hu
  obtain ⟨y, rfl, rfl⟩ := prefix_of_halts huv (hu.isWord hk.2) hr
  cases y with
  | nil => exact absurd hu (by simpa using hne)
  | cons c y =>
    obtain ⟨d, hd, hlast⟩ := lastChar_of_ne_nil (hu.ne_nil hk.1) b
    rw [hlast]
    exact hq d c _ (hu.isWord hk.2 d hd) (hw c (by simp))

/-- Whether the first words in which two phrases differ disagree in a letter. -/
def clash : List String → List String → Bool
  | k :: ks, k' :: ks' =>
    if k = k' then clash ks ks'
    else !k.toList.isPrefixOf k'.toList && !k'.toList.isPrefixOf k.toList
  | _, _ => false

theorem phrase_cons (k : String) {ks : List String} (hks : ks ≠ []) :
    phrase (k :: ks) = (word k).seq (blank.seq ((phrase ks).seq skip)) := by
  cases ks with
  | nil => exact absurd rfl hks
  | cons => rfl

theorem covers_phrase_cons {ks : List String} (hks : ks ≠ []) :
    (phrase (k :: ks)).Covers u ↔
      ∃ w g v, Spells k.toList w ∧ IsGap g ∧ (phrase ks).Covers v ∧ u = w ++ (g ++ v) := by
  rw [phrase_cons k hks]
  constructor
  · rintro ⟨w, x, hw, ⟨g, y, hg, ⟨v, e, hv, rfl, rfl⟩, rfl⟩, rfl⟩
    exact ⟨w, g, v, covers_word.mp hw, covers_many1.mp hg, hv, by simp⟩
  · rintro ⟨w, g, v, hw, hg, hv, rfl⟩
    exact ⟨w, g ++ v, covers_word.mpr hw,
      ⟨g, v, covers_many1.mpr hg, ⟨v, [], hv, rfl, by simp⟩, rfl⟩, rfl⟩

theorem exists_of_covers_phrase {ks : List String} (h : (phrase (k :: ks)).Covers u) :
    ∃ w v, Spells k.toList w ∧ u = w ++ v ∧ Halts isWord v := by
  cases ks with
  | nil => exact ⟨u, [], covers_word.mp h, by simp, halts_nil _⟩
  | cons k' ks =>
    obtain ⟨w, g, v, hw, hg, -, rfl⟩ := (covers_phrase_cons (List.cons_ne_nil _ _)).mp h
    exact ⟨w, g ++ v, hw, rfl, hg.halts_isWord v⟩

theorem halts_isBlank_of_covers_phrase {ks : List String} (hks : IsPhrase ks)
    (h : (phrase ks).Covers u) (r : Text) : Halts isBlank (u ++ r) := by
  cases ks with
  | nil => exact absurd rfl hks.1
  | cons k ks =>
    obtain ⟨w, v, hw, rfl, -⟩ := exists_of_covers_phrase h
    rw [List.append_assoc]
    exact (hw.isName (hks.2 k List.mem_cons_self)).halts_isBlank _

theorem IsPhrase.tail {k' : String} {ks : List String} (h : IsPhrase (k :: k' :: ks)) :
    IsPhrase (k' :: ks) :=
  ⟨List.cons_ne_nil _ _, fun k hk => h.2 k (List.mem_cons_of_mem _ hk)⟩

theorem takes_phrase {ks : List String} (hks : IsPhrase ks) (h : (phrase ks).Covers u) :
    (phrase ks).Takes b u r [] := by
  induction ks generalizing b u with
  | nil => exact absurd rfl hks.1
  | cons k ks ih =>
    cases ks with
    | nil => exact takes_word (covers_word.mp h)
    | cons k' ks =>
      obtain ⟨w, g, v, hw, hg, hv, rfl⟩ := (covers_phrase_cons (List.cons_ne_nil _ _)).mp h
      rw [phrase_cons k (List.cons_ne_nil _ _)]
      have hv' :=
        (ih hks.tail hv).seq (takes_skip (b := lastChar (lastChar (lastChar b w) g) v) (r := r))
      rw [List.append_nil] at hv'
      exact (takes_word hw).seq
        ((takes_blank hg (halts_isBlank_of_covers_phrase hks.tail hv r)).seq hv')

theorem refuses_phrase_of_halts {ks : List String} (hks : IsPhrase ks) (hr : Halts isWord r) :
    (phrase ks).Refuses b r := by
  cases ks with
  | nil => exact absurd rfl hks.1
  | cons k ks =>
    have first := refuses_word_of_halts (b := b) (hks.2 k List.mem_cons_self) hr
    cases ks with
    | nil => exact first
    | cons => exact first.seq_left _

theorem refuses_word_of_spells {k' : String} (hk : ∀ l ∈ k.toList, IsCapital l)
    (hk' : ∀ l ∈ k'.toList, IsCapital l)
    (h₁ : k.toList.isPrefixOf k'.toList = false) (h₂ : k'.toList.isPrefixOf k.toList = false)
    (hw : Spells k'.toList w) : (word k).Refuses b (w ++ r) := by
  refine refuses_letters fun u v huv hu => ?_
  generalize k.toList = ls at *
  generalize k'.toList = ls' at *
  induction hu generalizing w ls' with
  | nil => simp at h₁
  | @cons l c ls u hl hls ih =>
    cases hw with
    | nil => simp at h₂
    | @cons l' c' ls' w hl' hls' =>
      obtain ⟨hk, hks⟩ := List.forall_mem_cons.mp hk
      obtain ⟨hk', hks'⟩ := List.forall_mem_cons.mp hk'
      simp only [List.cons_append, List.cons.injEq] at huv
      obtain ⟨rfl, huv⟩ := huv
      obtain rfl := isLetter_unique hk hk' hl hl'
      simp only [List.isPrefixOf, beq_self_eq_true, Bool.true_and] at h₁ h₂
      exact ih huv hks ls' hks' hls' h₁ h₂

theorem refuses_phrase_of_name {k k' : String} {ks : List String} (hks : IsPhrase (k :: k' :: ks))
    {n g : Text} (hn : IsName n) (hg : ∀ c ∈ g, isBlank c = true) (hblank : Halts isBlank r)
    (hword : Halts isWord r) :
    (phrase (k :: k' :: ks)).Refuses b (n ++ (g ++ r)) := by
  have key := hks.2 k List.mem_cons_self
  have behind : Halts isWord (g ++ r) := by
    cases g with
    | nil => exact hword
    | cons c g => exact halts_cons.mpr (not_isWord_of_isBlank (hg c List.mem_cons_self))
  rw [phrase_cons k (List.cons_ne_nil _ _)]
  refine refuses_seq fun u v huv hu => ?_
  obtain ⟨y, rfl, rfl⟩ := prefix_of_halts huv ((covers_word.mp hu).isWord key.2) behind
  cases y with
  | nil =>
    rw [List.nil_append]
    exact refuses_blank_seq hblank hg
      (fun b c t hc =>
        (refuses_phrase_of_halts hks.tail (halts_cons.mpr (not_isWord_of_isBlank hc))).seq_left _)
      ((refuses_phrase_of_halts hks.tail hword).seq_left _)
  | cons c y =>
    have hc : isBlank c = false := not_isBlank_of_isWord (hn.2 c (by simp))
    exact (refuses_blank (halts_cons.mpr hc)).seq_left _

/-- A phrase is refused where one is written that it clashes with. -/
theorem refuses_phrase {ks ks' : List String} (hks : IsPhrase ks) (hks' : IsPhrase ks')
    (h : clash ks ks' = true) (hu : (phrase ks').Covers u) : (phrase ks).Refuses b (u ++ r) := by
  -- Over the words: a shared first word covers the same stretch, so the clash lies further on;
  -- otherwise the first word is refused already.
  induction ks generalizing b ks' u with
  | nil => exact absurd rfl hks.1
  | cons k ks ih =>
    cases ks' with
    | nil => exact absurd rfl hks'.1
    | cons k' ks' =>
      rw [clash] at h
      split at h
      · rename_i heq
        subst heq
        cases ks with
        | nil => cases h
        | cons k₂ ks =>
          cases ks' with
          | nil => cases h
          | cons k₂' ks' =>
            obtain ⟨w, g, v, hw, hg, hv, rfl⟩ := (covers_phrase_cons (List.cons_ne_nil _ _)).mp hu
            rw [phrase_cons k (List.cons_ne_nil _ _)]
            have hk := hks.2 k List.mem_cons_self
            refine refuses_seq fun x y hxy hx => ?_
            have hx := covers_word.mp hx
            obtain ⟨rfl, rfl⟩ : w = x ∧ g ++ v ++ r = y := by
              refine List.append_inj (by simpa using hxy) ?_
              rw [← hw.length_eq, hx.length_eq]
            rw [List.append_assoc]
            refine refuses_blank_seq (halts_isBlank_of_covers_phrase hks'.tail hv r) hg.2 ?_ ?_
            · intro b c t hc
              exact (refuses_phrase_of_halts hks.tail
                (halts_cons.mpr (not_isWord_of_isBlank hc))).seq_left _
            · exact (ih hks.tail hks'.tail h hv).seq_left _
      · obtain ⟨w, v, hw, rfl, -⟩ := exists_of_covers_phrase hu
        simp only [Bool.and_eq_true, Bool.not_eq_true'] at h
        have first : (word k).Refuses b (w ++ (v ++ r)) :=
          refuses_word_of_spells (hks.2 k List.mem_cons_self).2 (hks'.2 k' List.mem_cons_self).2
            h.1 h.2 hw
        rw [List.append_assoc]
        cases ks with
        | nil => exact first
        | cons => exact first.seq_left _

/-- At the start of a keyword there is a word boundary, unless a word stands in front of it. -/
theorem takes_boundary_word {w : Text} (hw : IsName w) (hb : ∀ c ∈ b, isWord c = false) :
    boundary.Takes b [] (w ++ r) [] := by
  obtain ⟨c, w, rfl⟩ := List.exists_cons_of_ne_nil hw.1
  have hc := hw.2 c List.mem_cons_self
  refine takes_boundary ?_
  cases b with
  | none => simp [hc]
  | some d => simp [hc, hb d rfl]

theorem takes_boundary_end {u : Text} (hu : ∃ c, lastChar b u = some c ∧ isWord c = true)
    (hr : Halts isWord r) : boundary.Takes (lastChar b u) [] r [] := by
  obtain ⟨c, hlast, hc⟩ := hu
  refine takes_boundary ?_
  rw [hlast]
  cases r with
  | nil => simp [hc]
  | cons d r => simp [hc, halts_cons.mp hr]

theorem not_isWord_lastChar_gap {g : Text} (hg : IsGap g) :
    ∀ c ∈ lastChar b g, isWord c = false := by
  obtain ⟨d, hd, hlast⟩ := lastChar_of_ne_nil hg.1 b
  intro c hc
  rw [hlast] at hc
  cases hc
  exact not_isWord_of_isBlank (hg.2 d hd)

theorem takes_oneOf {ps qs : List Pattern} (h : ∀ p' ∈ ps, p'.Refuses b (u ++ r))
    (hp : p.Takes b u r m) : (oneOf (ps ++ p :: qs)).Takes b u r m := by
  induction ps with
  | nil =>
    cases qs with
    | nil => exact hp
    | cons => exact hp.alt_left
  | cons p' ps ih =>
    obtain ⟨hp', hps⟩ := List.forall_mem_cons.mp h
    cases ps with
    | nil => exact .alt_right hp' (ih hps)
    | cons => exact .alt_right hp' (ih hps)

theorem takes_oneOf_head {qs : List Pattern} (hp : p.Takes b u r m) :
    (oneOf (p :: qs)).Takes b u r m :=
  List.nil_append (p :: qs) ▸ takes_oneOf (List.forall_mem_nil _) hp

end Pattern

end SqlCanvas
