import SqlCanvas.Proofs.Nesting.Closed
import SqlCanvas.Proofs.Pattern.Extension
import SqlCanvas.Proofs.Pattern.Stop
import SqlCanvas.Proofs.Pattern.Word
import SqlCanvas.Proofs.Text.Infix

/-!
# Where words stand

A keyword stands in a text as a word of its own, anywhere or at the top level. A part of a text is
set off when no word goes on across its ends: the words of such a part are words of the whole.
-/

namespace SqlCanvas

open Text Pattern Nesting

theorem lastChar_none (l : Text) : lastChar none l = l.getLast? := by
  simp [lastChar]

theorem Text.last_append_not_isWord {l' l : Text} (hl' : ∀ c ∈ l'.getLast?, isWord c = false)
    (hl : ∀ c ∈ l.getLast?, isWord c = false) : ∀ c ∈ (l' ++ l).getLast?, isWord c = false := by
  intro c hc
  cases l with
  | nil => exact hl' c (by simpa using hc)
  | cons d l => exact hl c (by rwa [List.getLast?_append_of_ne_nil _ (List.cons_ne_nil d l)] at hc)

theorem Text.IsGap.last_not_isWord {g : Text} (hg : IsGap g) (l : Text) :
    ∀ c ∈ (l ++ g).getLast?, isWord c = false := by
  rw [← lastChar_none, lastChar_append]
  exact not_isWord_lastChar_gap hg

/-- A stretch of the text spells the keyword and has no word character next to it. -/
def Text.HasWord (k t : Text) : Prop :=
  ∃ l w r, t = l ++ (w ++ r) ∧ Spells k w ∧ (∀ c ∈ l.getLast?, isWord c = false) ∧ Halts isWord r

/-- A word of the text spells the keyword, and neither quotes nor parentheses are open in front of
it. -/
def Text.HasTopWord (k t : Text) : Prop :=
  ∃ l w r, t = l ++ (w ++ r) ∧ Spells k w ∧ (∀ c ∈ l.getLast?, isWord c = false) ∧ Halts isWord r ∧
    outside.after l = outside

theorem Text.HasTopWord.hasWord {k t : Text} (h : HasTopWord k t) : HasWord k t := by
  obtain ⟨l, w, r, ht, hw, hl, hr, -⟩ := h
  exact ⟨l, w, r, ht, hw, hl, hr⟩

theorem Pattern.ends_bounded_ne_nil {q : Pattern} {b : Option Char} {w r : Text} (hw : IsName w)
    (hb : ∀ c ∈ b, isWord c = false) (hr : Halts isWord r)
    (hq : ∀ i captures, ∃ captures', ⟨lastChar b w, r, i + w.length, captures'⟩ ∈
      q.ends ⟨b, w ++ r, i, captures⟩) (i : Nat) (captures : List (Nat × Capture)) :
    (all [.boundary, q, .boundary]).ends ⟨b, w ++ r, i, captures⟩ ≠ [] := by
  have start := takes_boundary_word (r := r) hw hb
  obtain ⟨c, hc, hlast⟩ := lastChar_of_ne_nil hw.1 b
  have stop := takes_boundary_end (b := b) (u := w) ⟨c, hlast, hw.2 c hc⟩ hr
  obtain ⟨captures₁, hstart⟩ := start.exists_mem i captures
  obtain ⟨captures₂, hword⟩ := hq i captures₁
  obtain ⟨captures₃, hstop⟩ := stop.exists_mem (i + w.length) captures₂
  exact List.ne_nil_of_mem (List.mem_flatMap.mpr ⟨_, hstart, List.mem_flatMap.mpr ⟨_, hword,
    List.mem_flatMap.mpr ⟨_, hstop, List.mem_singleton_self _⟩⟩⟩)

theorem Text.exists_of_between_blanks {t g g' l w r : Text} (whole : g ++ (t ++ g') = l ++ (w ++ r))
    (hg : ∀ c ∈ g, isBlank c = true) (hg' : ∀ c ∈ g', isBlank c = true) (hw : IsName w) :
    ∃ l' r', l = g ++ l' ∧ r = r' ++ g' ∧ t = l' ++ (w ++ r') := by
  obtain ⟨l, rfl, h⟩ := prefix_of_halts whole.symm hg (hw.halts_isBlank r)
  rw [← List.append_assoc] at h
  obtain ⟨c, hc, hlast⟩ := lastChar_of_ne_nil hw.1 (lastChar none l)
  rw [← lastChar_append, lastChar_none] at hlast
  have inside : c ∉ g' := by
    intro hmem
    have := not_isBlank_of_isWord (hw.2 c hc)
    rw [hg' c hmem] at this
    cases this
  obtain ⟨r', rfl⟩ : l ++ w <+: t :=
    List.prefix_of_prefix_length_le (h ▸ List.prefix_append (l ++ w) r) (List.prefix_append t g')
      (length_le_of_last h hlast inside)
  obtain rfl : r' ++ g' = r := by simpa using h
  exact ⟨l, r', rfl, rfl, List.append_assoc l w r'⟩

theorem Text.hasTopWord_append_blanks {k g : Text} (hk : IsKeyword k)
    (hg : ∀ c ∈ g, isBlank c = true) (t : Text) : HasTopWord k (t ++ g) ↔ HasTopWord k t := by
  constructor
  · rintro ⟨l, w, r, whole, hw, hl, hr, htop⟩
    obtain ⟨l, r, rfl, rfl, rfl⟩ :=
      exists_of_between_blanks (g := []) whole (List.forall_mem_nil _) hg (hw.isName hk)
    exact ⟨l, w, r, rfl, hw, hl, halts_of_isPrefix hr (List.prefix_append r g), htop⟩
  · rintro ⟨l, w, r, rfl, hw, hl, hr, htop⟩
    refine ⟨l, w, r ++ g, by simp, hw, hl, ?_, htop⟩
    cases r with
    | nil => exact halts_of_forall fun c hc => not_isWord_of_isBlank (hg c hc)
    | cons c r => exact hr

/-- The text is cut out of another where no word goes on in front of it or behind it. -/
def Text.SetOff (s t : Text) : Prop :=
  ∃ l r, t = l ++ (s ++ r) ∧ (∀ c ∈ l.getLast?, isWord c = false) ∧
    (∀ c ∈ s.getLast?, isWord c = true → Halts isWord r)

namespace Text.SetOff

variable {s t u : Text}

theorem refl (t : Text) : SetOff t t :=
  ⟨[], [], by simp, nofun, fun _ _ _ => halts_nil _⟩

theorem trans (hst : SetOff s t) (htu : SetOff t u) : SetOff s u := by
  obtain ⟨l, r, rfl, hl, hr⟩ := hst
  obtain ⟨l', r', rfl, hl', hr'⟩ := htu
  refine ⟨l' ++ l, r ++ r', by simp, last_append_not_isWord hl' hl, fun c hc hword => ?_⟩
  cases r with
  | nil =>
    refine hr' c ?_ hword
    rw [List.append_nil, List.getLast?_append, Option.mem_def.mp hc]
    rfl
  | cons d r => exact hr c hc hword

theorem of_append {l r : Text} (hl : ∀ c ∈ l.getLast?, isWord c = false) (hr : Halts isWord r) :
    SetOff s (l ++ (s ++ r)) :=
  ⟨l, r, rfl, hl, fun _ _ _ => hr⟩

theorem hasWord {k : Text} (h : SetOff s t) (hk : IsKeyword k) (hs : HasWord k s) :
    HasWord k t := by
  obtain ⟨l, w, r, rfl, hw, hl, hr⟩ := hs
  obtain ⟨l', r', rfl, hl', hr'⟩ := h
  refine ⟨l' ++ l, w, r ++ r', by simp, hw, last_append_not_isWord hl' hl, ?_⟩
  cases r with
  | nil =>
    have name := hw.isName hk
    obtain ⟨c, hc, hlast⟩ := lastChar_of_ne_nil name.1 (lastChar none l)
    rw [← lastChar_append, lastChar_none] at hlast
    exact hr' c (by rwa [List.append_nil]) (name.2 c hc)
  | cons d r => exact hr

end Text.SetOff

theorem Text.setOff_between_blanks {g g' : Text} (hg : ∀ c ∈ g, isBlank c = true)
    (hg' : ∀ c ∈ g', isBlank c = true) (t : Text) : SetOff t (g ++ (t ++ g')) :=
  .of_append (fun c hc => not_isWord_of_isBlank (hg c (List.mem_of_mem_getLast? hc)))
    (halts_of_forall fun c hc => not_isWord_of_isBlank (hg' c hc))

theorem Text.setOff_trim (t : Text) : SetOff t.trim t := by
  obtain ⟨g, g', h, hg, hg'⟩ := exists_trim_append t
  have := setOff_between_blanks hg hg' t.trim
  rwa [← h] at this

theorem Text.hasWord_trim {k : Text} (hk : IsKeyword k) (t : Text) :
    HasWord k t.trim ↔ HasWord k t := by
  refine ⟨(setOff_trim t).hasWord hk, ?_⟩
  rintro ⟨l, w, r, whole, hw, hl, hr⟩
  obtain ⟨g, g', h, hg, hg'⟩ := exists_trim_append t
  obtain ⟨l, r, rfl, rfl, ht⟩ := exists_of_between_blanks (h.symm.trans whole) hg hg' (hw.isName hk)
  refine ⟨l, w, r, ht, hw, fun c hc => hl c ?_, halts_of_isPrefix hr (List.prefix_append r g')⟩
  rw [List.getLast?_append, Option.mem_def.mp hc]
  rfl

end SqlCanvas
