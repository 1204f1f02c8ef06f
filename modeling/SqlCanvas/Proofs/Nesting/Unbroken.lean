import SqlCanvas.Proofs.Nesting.Token

/-!
# Unbroken texts

A text without blanks, quotes and parentheses consists of words and marks. When no stretch of it
spells a keyword, it is a solid list of tokens that avoids the keyword.
-/

namespace SqlCanvas

open Text Nesting

/-- A character that stands in words or on its own, and does not end a statement. -/
def IsUnbroken (c : Char) : Prop :=
  Text.isWord c = true ∨ (IsMark c ∧ c ≠ ';')

instance (c : Char) : Decidable (IsUnbroken c) :=
  inferInstanceAs (Decidable (_ ∨ _))

/-- The tokens avoid the keywords, and stand in proper company. -/
structure Quiet (keywords : List String) (ts : List Token) : Prop where
  solid : Solid ts
  avoids : ∀ a ∈ ts, a.Avoids keywords

/-- The tokens have none of the keywords, and stand in proper company. -/
structure Clear (keywords : List String) (ts : List Token) : Prop where
  solid : Solid ts
  misses : ∀ a ∈ ts, a.Misses keywords

theorem Quiet.clear {keywords : List String} {ts : List Token} (h : Quiet keywords ts) :
    Clear keywords ts :=
  ⟨h.solid, fun a ha => (h.avoids a ha).misses⟩

/-- No stretch of the text spells one of the keywords. -/
def FreeOf (keywords : List String) (t : Text) : Prop :=
  ∀ w, w <:+: t → ∀ k ∈ keywords, ¬ Spells k.toList w

theorem FreeOf.of_isInfix {keywords : List String} {s t : Text} (h : FreeOf keywords t)
    (hs : s <:+: t) : FreeOf keywords s :=
  fun w hw => h w (hw.trans hs)

theorem freeOf_of_letters {keywords : List String} {t : Text}
    (h : ∀ k ∈ keywords, ∃ l ∈ k.toList, ∀ c ∈ t, Pattern.isLetter l c = false) :
    FreeOf keywords t := by
  intro w hw k hk hspells
  obtain ⟨l, hl, hnone⟩ := h k hk
  obtain ⟨i, hi, rfl⟩ := List.getElem_of_mem hl
  have hlength := hspells.length_eq
  have letter := hspells.get hi (hlength ▸ hi)
  have none := hnone w[i] (hw.mem (List.getElem_mem _))
  exact Bool.false_ne_true (none.symm.trans letter)

theorem freeOf_of_all {keywords : List String} {t : Text}
    (h : (keywords.all fun k => k.toList.any fun l => t.all fun c => !Pattern.isLetter l c) =
      true) :
    FreeOf keywords t :=
  freeOf_of_letters (by simpa using h)

namespace Quiet

variable {keywords : List String} {ts us : List Token}

theorem singleton {a : Token} (hgap : a.isGap = false) (h : a.Avoids keywords) :
    Quiet keywords [a] :=
  ⟨.singleton hgap, List.forall_mem_singleton.mpr h⟩

theorem cons_mark {c : Char} (hc : IsMark c) (hend : c ≠ ';') (h : Quiet keywords ts) :
    Quiet keywords (.mark c hc :: ts) where
  solid := (Solid.singleton rfl).append h.solid fun a ha b _ => by
    obtain rfl : Token.mark c hc = a := by simpa using ha
    rfl
  avoids := List.forall_mem_cons.mpr ⟨hend, h.avoids⟩

theorem append_mark {c : Char} (hc : IsMark c) (hend : c ≠ ';') (hts : Quiet keywords ts)
    (hus : Quiet keywords us) : Quiet keywords (ts ++ .mark c hc :: us) where
  solid := hts.solid.append (hus.cons_mark hc hend).solid fun a _ b hb => by
    obtain rfl : Token.mark c hc = b := by simpa using hb
    exact Bool.and_false _
  avoids := List.forall_mem_append.mpr ⟨hts.avoids, (hus.cons_mark hc hend).avoids⟩

theorem gap (hts : Quiet keywords ts) (hus : Quiet keywords us) (g : Text) (hg : IsGap g) :
    Quiet keywords (ts ++ .gap g hg :: us) where
  solid := hts.solid.gap hus.solid g hg
  avoids := List.forall_mem_append.mpr ⟨hts.avoids, List.forall_mem_cons.mpr ⟨trivial, hus.avoids⟩⟩

theorem append_singleton {c : Char} (hc : IsMark c) (hend : c ≠ ';') (h : Quiet keywords ts) :
    Quiet keywords (ts ++ [.mark c hc]) where
  solid := h.solid.append (.singleton rfl) fun a _ b hb => by
    obtain rfl : Token.mark c hc = b := by simpa using hb
    exact Bool.and_false _
  avoids := List.forall_mem_append.mpr ⟨h.avoids, List.forall_mem_singleton.mpr hend⟩

/-- A word character in front goes with the word behind it, or is a word of its own. -/
theorem exists_cons_word {c : Char} (hc : Text.isWord c = true) (h : Quiet keywords ts)
    (hfree : FreeOf keywords (c :: textOf ts)) :
    ∃ us, textOf us = c :: textOf ts ∧ Quiet keywords us := by
  have front (w : Text) (hw : w <+: textOf ts) : ∀ k ∈ keywords, ¬ Spells k.toList (c :: w) :=
    hfree _ ((List.prefix_cons_inj c).mpr hw).isInfix
  obtain ⟨a, rest, rfl⟩ := List.exists_cons_of_ne_nil h.solid.ne_nil
  cases a with
  | word w hw =>
    have hcw : IsName (c :: w) := ⟨List.cons_ne_nil c w, List.forall_mem_cons.mpr ⟨hc, hw.2⟩⟩
    refine ⟨.word (c :: w) hcw :: rest, by simp [Token.text],
      ⟨⟨List.cons_ne_nil _ _, ?_, by simp [Token.isGap], ?_⟩, ?_⟩⟩
    · obtain ⟨hmeets, hchain⟩ := List.isChain_cons.mp h.solid.chain
      exact List.isChain_cons.mpr ⟨hmeets, hchain⟩
    · intro d hd
      cases rest with
      | nil =>
        obtain rfl : Token.word (c :: w) hcw = d := by simpa using hd
        rfl
      | cons e rest => exact h.solid.last d (by simpa using hd)
    · refine List.forall_mem_cons.mpr ⟨front w ?_, (List.forall_mem_cons.mp h.avoids).2⟩
      exact List.prefix_append w _
  | gap g hg => cases h.solid.head _ rfl
  | mark | shelter =>
    have hname : IsName [c] := ⟨List.cons_ne_nil c [], List.forall_mem_singleton.mpr hc⟩
    refine ⟨.word [c] hname :: _, rfl,
      ⟨(Solid.singleton rfl).append h.solid fun a _ b hb => ?_, ?_⟩⟩
    · obtain rfl := Option.some.inj hb
      exact Bool.and_false _
    · exact List.forall_mem_cons.mpr ⟨front [] (List.nil_prefix), h.avoids⟩

end Quiet

/-- A text that can be written as quiet tokens: quotes and parentheses are closed in it, and outside
of them there is none of the keywords. -/
def IsQuietFor (keywords : List String) (t : Text) : Prop :=
  ∃ ts, textOf ts = t ∧ Quiet keywords ts

namespace IsQuietFor

variable {keywords : List String} {s t : Text}

theorem comma (hs : IsQuietFor keywords s) (ht : IsQuietFor keywords t) :
    IsQuietFor keywords (s ++ (", ".toList ++ t)) := by
  obtain ⟨ts, rfl, hts⟩ := hs
  obtain ⟨us, rfl, hus⟩ := ht
  have hspace : IsGap [' '] := ⟨by simp, by decide⟩
  refine ⟨_, ?_, (hts.append_singleton (c := ',') (by decide) (by decide)).gap hus [' '] hspace⟩
  simp [Token.text]

theorem intercalate_comma {texts : List Text} (hne : texts ≠ [])
    (h : ∀ t ∈ texts, IsQuietFor keywords t) :
    IsQuietFor keywords (", ".toList.intercalate texts) := by
  induction texts with
  | nil => exact absurd rfl hne
  | cons t texts ih =>
    obtain ⟨ht, hrest⟩ := List.forall_mem_cons.mp h
    cases texts with
    | nil => simpa using ht
    | cons u texts =>
      rw [List.intercalate_cons_cons, List.append_assoc]
      exact ht.comma (ih (List.cons_ne_nil u texts) hrest)

end IsQuietFor

theorem exists_quiet_of_unbroken {keywords : List String} {t : Text} (hne : t ≠ [])
    (hunbroken : ∀ c ∈ t, IsUnbroken c) (hfree : FreeOf keywords t) :
    ∃ ts, textOf ts = t ∧ Quiet keywords ts := by
  induction t with
  | nil => exact absurd rfl hne
  | cons c t ih =>
    obtain ⟨hc, hunbroken⟩ := List.forall_mem_cons.mp hunbroken
    cases t with
    | nil =>
      rcases hc with hc | ⟨hc, hend⟩
      · have hname : IsName [c] := ⟨List.cons_ne_nil c [], List.forall_mem_singleton.mpr hc⟩
        exact ⟨[.word [c] hname], rfl, .singleton rfl (hfree _ List.infix_rfl)⟩
      · exact ⟨[.mark c hc], rfl, .singleton rfl hend⟩
    | cons d t =>
      obtain ⟨ts, htext, hts⟩ := ih (List.cons_ne_nil d t) hunbroken
        (hfree.of_isInfix (List.suffix_cons c _).isInfix)
      rw [← htext] at hfree ⊢
      rcases hc with hc | ⟨hc, hend⟩
      · exact hts.exists_cons_word hc hfree
      · exact ⟨.mark c hc :: ts, rfl, hts.cons_mark hc hend⟩

end SqlCanvas
