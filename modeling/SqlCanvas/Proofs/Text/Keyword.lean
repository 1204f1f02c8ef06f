import SqlCanvas.Proofs.Pattern.Language
import SqlCanvas.Proofs.Text.Class
import SqlCanvas.Statement.Error

/-!
# Keywords in any letter case

A stretch spells a keyword when it has the keyword's letters in either case. The capital form of
such a stretch is the keyword itself, blanks between several keywords become single spaces, and so a
captured phrase is found in every vocabulary that has it. This fails for two letters only, the
dotted capital I and the sign for kelvin, which are taken for letters of keywords but are capital
letters of their own.
-/

namespace SqlCanvas

namespace Text

def IsAscii (t : Text) : Prop :=
  ∀ c ∈ t, c.toNat < 128

instance (t : Text) : Decidable (IsAscii t) :=
  inferInstanceAs (Decidable (∀ c ∈ t, _))

theorem IsAscii.of_isInfix {s t : Text} (h : IsAscii t) (hs : s <:+: t) : IsAscii s :=
  fun c hc => h c (hs.subset hc)

/-- Neither of the two letters occurs that stand for `I` and `K` and are no forms of them. -/
def IsTame (t : Text) : Prop :=
  ∀ c ∈ t, c.toNat ≠ 0x130 ∧ c.toNat ≠ 0x212A

instance (t : Text) : Decidable (IsTame t) :=
  inferInstanceAs (Decidable (∀ c ∈ t, _))

theorem IsTame.of_isInfix {s t : Text} (h : IsTame t) (hs : s <:+: t) : IsTame s :=
  fun c hc => h c (hs.subset hc)

theorem IsAscii.isTame {t : Text} (h : IsAscii t) : IsTame t := by
  intro c hc
  have := h c hc
  omega

def IsGap (g : Text) : Prop :=
  g ≠ [] ∧ ∀ c ∈ g, isBlank c = true

theorem upperChar_of_isLetter {l c : Char} (hl : IsCapital l)
    (hc : c.toNat ≠ 0x130 ∧ c.toNat ≠ 0x212A) (h : Pattern.isLetter l c = true) :
    upperChar c = [l] := by
  have ascii (h : c.toNat = l.toNat ∨ c.toNat = l.toNat + 32) : upperChar c = [l] := by
    obtain ⟨h₁, h₂⟩ := hl
    simp only [upperChar, show c.toNat < 128 by omega, if_true]
    rcases h with h | h
    · rw [if_neg (by omega), Char.ext_iff.mpr (UInt32.toNat_inj.mp h)]
    · rw [if_pos (by omega), h, Nat.add_sub_cancel, Char.ofNat_toNat]
  have folded {n : Nat} (hn : c.toNat = n) (hupper : upperChar (Char.ofNat n) = [l]) : upperChar c =
      [l] := by
    rwa [← hn, Char.ofNat_toNat] at hupper
  rcases isLetter_cases hl h with hn | hn | ⟨rfl, hn⟩ | ⟨rfl, hn | hn⟩ | ⟨-, hn⟩
  · exact ascii (.inl hn)
  · exact ascii (.inr hn)
  · exact folded hn (by decide +kernel)
  · exact absurd hn hc.1
  · exact folded hn (by decide +kernel)
  · exact absurd hn hc.2

theorem upper_of_spells {k w : Text} (hk : ∀ l ∈ k, IsCapital l) (hw : IsTame w)
    (h : Spells k w) : upper w = k := by
  induction h with
  | nil => rfl
  | @cons l c k w hl _ ih =>
    obtain ⟨hl', hk'⟩ := List.forall_mem_cons.mp hk
    obtain ⟨hc, hw'⟩ := List.forall_mem_cons.mp hw
    rw [upper, List.flatMap_cons, upperChar_of_isLetter hl' hc hl]
    exact congrArg (l :: ·) (ih hk' hw')

theorem farBlanks_upper :
    ∀ n ∈ farBlanks, 128 ≤ n ∧ Table.upperLong.find? (·.1 == n) = none ∧
      (Table.upperRuns.toList.find? fun run =>
        run.first ≤ n && n ≤ run.last && (n - run.first) % run.step == 0) = none := by
  decide +kernel

theorem upperChar_of_isBlank {c : Char} (hc : isBlank c = true) : upperChar c = [c] := by
  rcases isBlank_cases hc with h | h | h
  · rw [upperChar, if_pos (by omega), if_neg (by omega)]
  · rw [upperChar, if_pos (by omega), if_neg (by omega)]
  · obtain ⟨hfar, hlong, hrun⟩ := farBlanks_upper c.toNat h
    rw [Array.find?_toList] at hrun
    rw [upperChar]
    simp only [Nat.not_lt.mpr hfar, if_false, hlong, CaseRun.apply?, hrun, Option.map_none]

theorem upper_of_blank {g : Text} (hg : ∀ c ∈ g, isBlank c = true) : upper g = g := by
  induction g with
  | nil => rfl
  | cons c g ih =>
    obtain ⟨hc, hg⟩ := List.forall_mem_cons.mp hg
    rw [upper, List.flatMap_cons, upperChar_of_isBlank hc]
    exact congrArg (c :: ·) (ih hg)

theorem not_isBlank_of_isCapital {l : Char} (h : IsCapital l) : isBlank l = false :=
  not_isBlank_of_isWord (isWord_of_isLetter h (by simp [Pattern.isLetter]))

theorem words_cons_of_blank {c : Char} (hc : isBlank c = true) (t : Text) :
    words (c :: t) = words t := by
  rw [words.eq_def]
  simp [hc]

theorem words_blank_append {g : Text} (hg : ∀ c ∈ g, isBlank c = true) (t : Text) :
    words (g ++ t) = words t := by
  induction g with
  | nil => rfl
  | cons c g ih =>
    obtain ⟨hc, hg'⟩ := List.forall_mem_cons.mp hg
    rw [List.cons_append, words_cons_of_blank hc, ih hg']

theorem words_cons_cons {c d : Char} (hc : isBlank c = false) (hd : isBlank d = false)
    {t w : Text} {ws : List Text} (h : words (d :: t) = w :: ws) :
    words (c :: d :: t) = (c :: w) :: ws := by
  rw [words.eq_def]
  simp [hc, hd, h]

theorem words_of_not_blank {w : Text} (hne : w ≠ []) (hw : ∀ c ∈ w, isBlank c = false) :
    words w = [w] := by
  induction w with
  | nil => exact absurd rfl hne
  | cons c w ih =>
    obtain ⟨hc, hw'⟩ := List.forall_mem_cons.mp hw
    cases w with
    | nil =>
      rw [words.eq_def]
      simp [hc]
    | cons d w =>
      exact words_cons_cons hc (hw' d List.mem_cons_self) (ih (List.cons_ne_nil d w) hw')

theorem words_append_gap {w g : Text} (hne : w ≠ []) (hw : ∀ c ∈ w, isBlank c = false)
    (hg : IsGap g) (t : Text) : words (w ++ (g ++ t)) = w :: words t := by
  induction w with
  | nil => exact absurd rfl hne
  | cons c w ih =>
    obtain ⟨hc, hw'⟩ := List.forall_mem_cons.mp hw
    cases w with
    | nil =>
      obtain ⟨b, g, rfl⟩ := List.exists_cons_of_ne_nil hg.1
      have hb : isBlank b = true := hg.2 b List.mem_cons_self
      have := words_blank_append hg.2 t
      rw [List.cons_append] at this
      rw [List.singleton_append, List.cons_append, words.eq_def]
      simp [hc, hb, this]
    | cons d w =>
      exact words_cons_cons hc (hw' d List.mem_cons_self) (ih (List.cons_ne_nil d w) hw')

theorem mem_flatten_words {c : Char} (hc : isBlank c = false) {t : Text} (h : c ∈ t) :
    c ∈ (words t).flatten := by
  induction t with
  | nil => cases h
  | cons d t ih =>
    have later (ht : c ∈ t) : c ∈ (words t).flatten := ih ht
    by_cases hd : isBlank d = true
    · rw [words_cons_of_blank hd]
      rcases List.mem_cons.mp h with rfl | ht
      · rw [hc] at hd
        cases hd
      · exact later ht
    · rw [words.eq_def]
      simp only [hd]
      grind

theorem mem_intercalate {c : Char} {separator w : Text} {ws : List Text} (hw : w ∈ ws)
    (hc : c ∈ w) : c ∈ separator.intercalate ws := by
  induction ws with
  | nil => cases hw
  | cons v ws ih =>
    cases ws with
    | nil =>
      obtain rfl := List.mem_singleton.mp hw
      simpa using hc
    | cons v' ws =>
      rw [List.intercalate_cons_cons, List.append_assoc]
      rcases List.mem_cons.mp hw with rfl | hw
      · exact List.mem_append_left _ hc
      · exact List.mem_append_right _ (List.mem_append_right _ (ih hw))

theorem mem_collapseBlanks {c : Char} (hc : isBlank c = false) {t : Text} (h : c ∈ t) :
    c ∈ collapseBlanks t := by
  obtain ⟨w, hw, hcw⟩ := List.mem_flatten.mp (mem_flatten_words hc h)
  exact mem_intercalate hw hcw

/-- A keyword that comes out in plain capital letters has none of the two letters that are kept as
they are. -/
theorem isTame_of_canonicalKeyword {t : Text} (h : IsAscii (canonicalKeyword t).toList) :
    IsTame t := by
  have kept : ∀ n ∈ [0x130, 0x212A], upperChar (Char.ofNat n) = [Char.ofNat n] ∧
    isBlank (Char.ofNat n) = false ∧
      128 ≤ (Char.ofNat n).toNat := by
    decide +kernel
  have absent {n : Nat} (hn : n ∈ [0x130, 0x212A]) : ∀ c ∈ t, c.toNat ≠ n := by
    rintro c hc rfl
    obtain ⟨hupper, hblank, hfar⟩ := kept _ hn
    rw [Char.ofNat_toNat] at hupper hblank hfar
    have mem : c ∈ upper t := List.mem_flatMap.mpr ⟨c, hc, hupper ▸ List.mem_singleton_self c⟩
    have := h c (by simpa [canonicalKeyword] using mem_collapseBlanks hblank mem)
    omega
  exact fun c hc => ⟨absent (by simp) c hc, absent (by simp) c hc⟩

end Text

namespace Pattern

open Text

theorem covers_letters {k u : Text} :
    (letters k).Covers u ↔ Spells k u := by
  induction k generalizing u with
  | nil => exact List.forall₂_nil_left_iff.symm
  | cons l k ih =>
    rw [Spells, List.forall₂_cons_left_iff]
    constructor
    · rintro ⟨v, w, ⟨c, hc, rfl⟩, hw, rfl⟩
      exact ⟨c, w, hc, ih.mp hw, rfl⟩
    · rintro ⟨c, w, hc, hw, rfl⟩
      exact ⟨[c], w, ⟨c, hc, rfl⟩, ih.mpr hw, rfl⟩

theorem covers_oneOf {ps : List Pattern} {u : Text} :
    (oneOf ps).Covers u ↔ ∃ p ∈ ps, p.Covers u := by
  induction ps with
  | nil => simp [oneOf, Covers]
  | cons p ps ih =>
    cases ps with
    | nil => simp [oneOf]
    | cons q ps =>
      rw [List.exists_mem_cons_iff (Covers · u), ← ih]
      rfl

theorem canonicalKeyword_of_covers_phrase {ks : List String} {u : Text} (hne : ks ≠ [])
    (hks : ∀ k ∈ ks, k.toList ≠ [] ∧ ∀ l ∈ k.toList, IsCapital l) (hu : IsTame u)
    (h : (phrase ks).Covers u) : canonicalKeyword u = " ".intercalate ks := by
  suffices ∀ ks ≠ [], ∀ u, (∀ k ∈ ks, k.toList ≠ [] ∧ ∀ l ∈ k.toList, IsCapital l) → IsTame u →
      (phrase ks).Covers u → (upper u).words = ks.map String.toList by
    rw [canonicalKeyword, collapseBlanks, this ks hne u hks hu h, ← String.toList_inj,
      String.toList_intercalate]
    simp
  clear h hu u hks hne ks
  intro ks
  induction ks with
  | nil => simp
  | cons k ks ih =>
    intro _ u hks hu h
    obtain ⟨⟨hkne, hk⟩, hks'⟩ := List.forall_mem_cons.mp hks
    have nonblank : ∀ c ∈ k.toList, isBlank c = false :=
      fun c hc => not_isBlank_of_isCapital (hk c hc)
    cases ks with
    | nil =>
      rw [upper_of_spells hk hu (covers_letters.mp h), words_of_not_blank hkne nonblank]
      rfl
    | cons k' ks =>
      obtain ⟨w, v, hw, ⟨g, v, hg, ⟨r, e, hr, rfl, rfl⟩, rfl⟩, rfl⟩ := h
      rw [List.append_nil] at hu ⊢
      have hg : IsGap g := covers_many1.mp hg
      have haw : IsTame w := hu.of_isInfix ⟨[], g ++ r, by simp⟩
      have har : IsTame r := hu.of_isInfix ⟨w ++ g, [], by simp⟩
      rw [upper_append, upper_append, upper_of_spells hk haw (covers_letters.mp hw),
        upper_of_blank hg.2, words_append_gap hkne nonblank hg,
        ih (List.cons_ne_nil _ _) r hks' har hr]
      rfl

/-- Whether a phrase is made of words in capital letters. -/
def IsPhrase (ks : List String) : Prop :=
  ks ≠ [] ∧ ∀ k ∈ ks, k.toList ≠ [] ∧ ∀ l ∈ k.toList, IsCapital l

instance (ks : List String) : Decidable (IsPhrase ks) :=
  inferInstanceAs (Decidable (_ ∧ _))

theorem isPhrase_spelling (kind : StatementKind) : IsPhrase [Vocabulary.spelling kind] := by
  cases kind <;> decide

theorem readKeyword_of_covers {α : Type} [Vocabulary α] (model field : String)
    {phrases : List (List String)} {u : Text}
    (hphrases : ∀ ks ∈ phrases, IsPhrase ks ∧
      (Vocabulary.read? (α := α) (" ".intercalate ks)).isSome)
    (hu : IsTame u) (h : (oneOf (phrases.map phrase)).Covers u) :
    ∃ a : α, readKeyword model field u = .ok a := by
  obtain ⟨p, hp, hcovers⟩ := covers_oneOf.mp h
  obtain ⟨ks, hks, rfl⟩ := List.mem_map.mp hp
  obtain ⟨⟨hne, hwords⟩, hsome⟩ := hphrases ks hks
  obtain ⟨a, ha⟩ := Option.isSome_iff_exists.mp hsome
  rw [readKeyword, canonicalKeyword_of_covers_phrase hne hwords hu hcovers, ha]
  exact ⟨a, rfl⟩

end Pattern

end SqlCanvas
