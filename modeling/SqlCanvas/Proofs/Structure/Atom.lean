import SqlCanvas.Proofs.Structure.Formula

/-!
# Atoms

Any text in which quotes and parentheses are closed is a list of tokens, and a word among the tokens
is a word of the text that stands outside of quotes and parentheses. So a text without connectives
there is a part of a filter, and so is a range.
-/

namespace SqlCanvas

open Text Nesting Pattern

theorem exists_cons_token {c : Char} (hc : isSpecial c = false) {ts : List Token}
    (h : ts.IsChain Token.Meets) : ∃ us, textOf us = c :: textOf ts ∧ us.IsChain Token.Meets := by
  have alone {a : Token} (ha : a.text = [c]) (hmeets : ∀ b ∈ ts.head?, a.Meets b) :
      ∃ us, textOf us = c :: textOf ts ∧ us.IsChain Token.Meets :=
    ⟨a :: ts, by rw [textOf_cons, ha]; rfl, List.isChain_cons.mpr ⟨hmeets, h⟩⟩
  by_cases hword : Text.isWord c = true
  · by_cases hnext : ∃ w hw rest, ts = .word w hw :: rest
    · obtain ⟨w, hw, rest, rfl⟩ := hnext
      obtain ⟨hmeets, hrest⟩ := List.isChain_cons.mp h
      have longer : IsName (c :: w) :=
        ⟨List.cons_ne_nil c w, List.forall_mem_cons.mpr ⟨hword, hw.2⟩⟩
      exact ⟨.word (c :: w) longer :: rest, rfl, List.isChain_cons.mpr ⟨hmeets, hrest⟩⟩
    · have single : IsName [c] := ⟨List.cons_ne_nil c [], List.forall_mem_singleton.mpr hword⟩
      refine alone (a := .word [c] single) rfl fun b hb => ⟨?_, rfl⟩
      cases b with
      | word w hw =>
        obtain ⟨rest, rfl⟩ := List.head?_eq_some_iff.mp hb
        exact absurd ⟨w, hw, rest, rfl⟩ hnext
      | gap | mark | shelter => rfl
  · by_cases hblank : isBlank c = true
    · by_cases hnext : ∃ g hg rest, ts = .gap g hg :: rest
      · obtain ⟨g, hg, rest, rfl⟩ := hnext
        obtain ⟨hmeets, hrest⟩ := List.isChain_cons.mp h
        have longer : IsGap (c :: g) :=
          ⟨List.cons_ne_nil c g, List.forall_mem_cons.mpr ⟨hblank, hg.2⟩⟩
        exact ⟨.gap (c :: g) longer :: rest, rfl, List.isChain_cons.mpr ⟨hmeets, hrest⟩⟩
      · have single : IsGap [c] := ⟨List.cons_ne_nil c [], List.forall_mem_singleton.mpr hblank⟩
        refine alone (a := .gap [c] single) rfl fun b hb => ⟨rfl, ?_⟩
        cases b with
        | gap g hg =>
          obtain ⟨rest, rfl⟩ := List.head?_eq_some_iff.mp hb
          exact absurd ⟨g, hg, rest, rfl⟩ hnext
        | word | mark | shelter => rfl
    · exact alone (a := .mark c ⟨by simpa using hword, by simpa using hblank, hc⟩) rfl fun b hb =>
        ⟨rfl, rfl⟩

theorem Closed.exists_tokens {t : Text} (h : Closed t) :
    ∃ ts, textOf ts = t ∧ ts.IsChain Token.Meets := by
  have shelter {s u : Text} (hs : Sheltered s) (hu : ∃ ts, textOf ts = u ∧ ts.IsChain Token.Meets) :
      ∃ ts, textOf ts = s ++ u ∧ ts.IsChain Token.Meets := by
    obtain ⟨ts, rfl, hchain⟩ := hu
    exact ⟨.shelter s hs :: ts, rfl, List.isChain_cons.mpr ⟨fun b _ => ⟨rfl, rfl⟩, hchain⟩⟩
  induction h with
  | nil => exact ⟨[], rfl, .nil⟩
  | plain hc _ ih =>
    obtain ⟨ts, rfl, hchain⟩ := ih
    exact exists_cons_token hc hchain
  | quoted hq hbody _ ih =>
    have := shelter (.quoted hq hbody) ih
    simpa using this
  | parens hs _ _ ih =>
    have := shelter (.parens hs) ih
    simpa using this

theorem Token.not_isGap_of_mem {a : Token} {c : Char} (hc : c ∈ a.text) (h : isBlank c = false) :
    a.isGap = false := by
  cases a with
  | gap g hg => exact absurd (hg.2 c hc) (by simp [h])
  | word | mark | shelter => rfl

theorem Closed.exists_solid {t : Text} (h : Closed t) (hne : t ≠ []) (hhead : Halts isBlank t)
    (hlast : ∀ c ∈ t.getLast?, isBlank c = false) : ∃ ts, textOf ts = t ∧ Solid ts := by
  obtain ⟨ts, rfl, hchain⟩ := h.exists_tokens
  refine ⟨ts, rfl, ?_, hchain, fun a ha => ?_, fun a ha => ?_⟩
  · rintro rfl
    exact hne rfl
  · obtain ⟨us, rfl⟩ := List.head?_eq_some_iff.mp ha
    obtain ⟨c, w, hcw⟩ := List.exists_cons_of_ne_nil a.text_ne_nil
    refine Token.not_isGap_of_mem (c := c) (by simp [hcw]) (hhead c ?_)
    simp [hcw]
  · obtain ⟨us, rfl⟩ := List.getLast?_eq_some_iff.mp ha
    refine Token.not_isGap_of_mem (List.getLast_mem a.text_ne_nil) (hlast _ ?_)
    rw [textOf_append, textOf_cons, textOf_nil, List.append_nil,
      List.getLast?_append_of_ne_nil _ a.text_ne_nil]
    exact List.getLast?_eq_some_getLast _

/-- The keyword stands at this place as a word of its own, outside of quotes and parentheses. -/
def WordAt (k : String) (t : Text) (i : Nat) : Prop :=
  outside.after (t.take i) = outside ∧ (∀ c ∈ (t.take i).getLast?, isWord c = false) ∧
    Spells k.toList ((t.drop i).take k.length) ∧ Halts isWord (t.drop (i + k.length))

instance (accepts : Char → Bool) (t : Text) : Decidable (Halts accepts t) :=
  inferInstanceAs (Decidable (∀ c ∈ t.head?, accepts c = false))

instance (k : String) (t : Text) (i : Nat) : Decidable (WordAt k t i) :=
  inferInstanceAs (Decidable (_ ∧ _ ∧ _ ∧ _))

/-- None of the keywords stands in the text outside of quotes and parentheses. -/
def Lacks (keywords : List String) (t : Text) : Prop :=
  ∀ k ∈ keywords, ∀ i < t.length, ¬ WordAt k t i

instance (keywords : List String) (t : Text) : Decidable (Lacks keywords t) :=
  inferInstanceAs (Decidable (∀ k ∈ keywords, ∀ i < t.length, ¬ WordAt k t i))

theorem Token.last_not_isWord {a : Token} (h : a.isWord = false) :
    ∀ c ∈ a.text.getLast?, Text.isWord c = false := by
  intro c hc
  cases a with
  | word w hw => cases h
  | gap g hg => exact not_isWord_of_isBlank (hg.2 c (List.mem_of_mem_getLast? hc))
  | mark d hd =>
    obtain rfl : d = c := by simpa [text] using hc
    exact hd.1
  | shelter s hs => exact not_isWord_of_isSpecial (hs.last c hc)

theorem last_not_isWord_textOf {ts : List Token} (h : ∀ a ∈ ts.getLast?, a.isWord = false) :
    ∀ c ∈ (textOf ts).getLast?, isWord c = false := by
  rcases List.eq_nil_or_concat' ts with rfl | ⟨us, a, rfl⟩
  · simp
  · intro c hc
    rw [textOf_append, textOf_cons, textOf_nil, List.append_nil,
      List.getLast?_append_of_ne_nil _ a.text_ne_nil] at hc
    exact a.last_not_isWord (h a (by simp)) c hc

theorem wordAt_of_tokens {us vs : List Token} {w : Text} {hw : IsName w} {k : String}
    (h : (us ++ .word w hw :: vs).IsChain Token.Meets) (hspells : Spells k.toList w) :
    WordAt k (textOf (us ++ .word w hw :: vs)) (textOf us).length := by
  obtain ⟨-, hback, hmeets⟩ := List.isChain_append.mp h
  have length : k.length = w.length := by
    rw [← hspells.length_eq, String.length_toList]
  have text : textOf (us ++ .word w hw :: vs) = textOf us ++ (w ++ textOf vs) := by
    rw [textOf_append, textOf_cons]
    rfl
  rw [WordAt, text, List.take_left, List.drop_left, length, List.take_left, ← List.drop_drop,
    List.drop_left, List.drop_left]
  refine ⟨(closed_textOf us).after 0, last_not_isWord_textOf fun a ha => ?_, hspells, ?_⟩
  · have := (hmeets a ha _ rfl).1
    simpa [Token.isWord] using this
  · have next : ∀ b ∈ vs.head?, b.isWord = false := by
      intro b hb
      have := ((List.isChain_cons.mp hback).1 b hb).1
      simpa [Token.isWord] using this
    have := halts_isWord_textOf next (halts_nil _)
    simpa using this

theorem misses_of_lacks {keywords : List String} {ts : List Token} (hchain : ts.IsChain Token.Meets)
    (h : Lacks keywords (textOf ts)) : ∀ a ∈ ts, a.Misses keywords := by
  intro a ha
  cases a with
  | word w hw =>
    intro k hk hspells
    obtain ⟨us, vs, rfl⟩ := List.append_of_mem ha
    refine h k hk _ ?_ (wordAt_of_tokens hchain hspells)
    have := List.length_pos_iff.mpr hw.1
    simp only [textOf_append, textOf_cons, List.length_append, Token.text]
    omega
  | gap | mark | shelter => trivial

/-- A text without blanks at its ends, with quotes and parentheses closed, and no connective outside
of them. -/
structure Unjoined (t : Text) : Prop where
  ne_nil : t ≠ []
  head : Halts isBlank t
  last : ∀ c ∈ t.getLast?, isBlank c = false
  closed : Closed t
  lacks : Lacks connectives t

theorem Unjoined.exists_clear {t : Text} (h : Unjoined t) :
    ∃ ts, textOf ts = t ∧ Clear connectives ts := by
  obtain ⟨ts, rfl, hts⟩ := h.closed.exists_solid h.ne_nil h.head h.last
  exact ⟨ts, rfl, hts, misses_of_lacks hts.chain h.lacks⟩

/-- A piece without connectives or a range of such pieces, with no parenthesis at its start. -/
inductive IsAtom : Text → Prop
  | piece {t : Text} (h : Unjoined t) (hhead : t.head? ≠ some '(') : IsAtom t
  | range {front low high : Text} (hfront : Unjoined front) (hhead : front.head? ≠ some '(')
    (hlow : Unjoined low) (hhigh : Unjoined high) : IsAtom (front ++ " BETWEEN ".toList ++ low ++
        " AND ".toList ++ high)

namespace IsAtom

variable {t : Text}

theorem exists_part (h : IsAtom t) : ∃ p : FilterPart, p.text = t := by
  cases h with
  | piece h =>
    obtain ⟨ts, rfl, hts⟩ := h.exists_clear
    exact ⟨.whole ts hts, rfl⟩
  | range hfront _ hlow hhigh =>
    obtain ⟨ts, rfl, hts⟩ := hfront.exists_clear
    obtain ⟨us, rfl, hus⟩ := hlow.exists_clear
    obtain ⟨vs, rfl, hvs⟩ := hhigh.exists_clear
    refine ⟨.range _ vs (rangeStart_between hts hus) hvs, ?_⟩
    simp [FilterPart.text, FilterPart.tokens, FilterPart.andGap, WordGap.textOf_capital]

theorem head_ne (h : IsAtom t) : t.head? ≠ some '(' := by
  cases h with
  | piece _ hhead => exact hhead
  | range hfront hhead =>
    obtain ⟨c, front, rfl⟩ := List.exists_cons_of_ne_nil hfront.ne_nil
    exact hhead

theorem stripParens (h : IsAtom t) : t.stripParens = t := by
  obtain ⟨p, rfl⟩ := h.exists_part
  exact p.solid.stripParens h.head_ne

theorem closed (h : IsAtom t) : Closed t := by
  obtain ⟨p, rfl⟩ := h.exists_part
  exact closed_textOf p.tokens

theorem isAtomic (h : IsAtom t) : Filter.isAtomic t = true := by
  obtain ⟨p, rfl⟩ := h.exists_part
  exact p.isAtomic_text

end IsAtom

end SqlCanvas
