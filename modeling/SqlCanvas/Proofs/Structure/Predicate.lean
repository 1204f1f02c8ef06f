import SqlCanvas.Proofs.Nesting.Unbroken
import SqlCanvas.Proofs.Regeneration.Predicate

/-!
# Predicates as tokens

Whatever a value holds, its text has no connective in it: strings are sheltered by their quotes, and
numbers have none of the letters. So the text of a predicate has a connective in one place at most,
between the two ends of a range.
-/

namespace SqlCanvas

open Text Nesting

def connectives : List String := ["AND", "OR", "BETWEEN"]

theorem isKeyword_of_mem_connectives : ∀ k ∈ connectives, IsKeyword k.toList := by
  decide

def IsQuiet (t : Text) : Prop :=
  ∃ ts, textOf ts = t ∧ Quiet connectives ts

namespace IsQuiet

variable {s t : Text}

theorem of_sheltered (h : Sheltered t) : IsQuiet t :=
  ⟨[.shelter t h], by simp, .singleton rfl trivial⟩

theorem of_phrase {ks : List String} (p : Phrase ks) (h : ∀ k ∈ connectives, k ∉ ks) :
    IsQuiet (textOf p.tokens) :=
  ⟨p.tokens, rfl, p.solid, p.avoids fun k hk => ⟨isKeyword_of_mem_connectives k hk, h k hk⟩⟩

theorem capital (k : String) (hk : IsKeyword k.toList) (h : k ∉ connectives) : IsQuiet k.toList :=
  ⟨[(Spelling.capital k hk).token], by simp [Spelling.capital], .singleton rfl <|
    (Spelling.capital k hk).avoids fun k' hk' => ⟨isKeyword_of_mem_connectives k' hk',
      fun e => h (e ▸ hk')⟩⟩

theorem space (hs : IsQuiet s) (ht : IsQuiet t) : IsQuiet (s ++ ' ' :: t) := by
  obtain ⟨ts, rfl, hts⟩ := hs
  obtain ⟨us, rfl, hus⟩ := ht
  exact ⟨_, by simp [Gap.space, Token.text], hts.gap hus Gap.space.text Gap.space.isGap⟩

theorem closed (h : IsQuiet t) : Closed t := by
  obtain ⟨ts, rfl, -⟩ := h
  exact closed_textOf ts

end IsQuiet

/-- The characters of finite numbers. -/
def IsNumeric (c : Char) : Prop :=
  c.isDigit = true ∨ c = '.' ∨ c = '-' ∨ c = '+' ∨ c = 'e'

instance (c : Char) : Decidable (IsNumeric c) :=
  inferInstanceAs (Decidable (_ ∨ _))

def IsNumericText (t : Text) : Prop :=
  t ≠ [] ∧ ∀ c ∈ t, IsNumeric c

theorem IsNumeric.isUnbroken {c : Char} (h : IsNumeric c) : IsUnbroken c := by
  rcases h with h | rfl | rfl | rfl | rfl
  · exact .inl (WrittenLiteral.isWord_of_isDigit h)
  all_goals decide

theorem IsNumeric.not_isLetter {c l : Char} (h : IsNumeric c) (hl : IsCapital l) (hne : l ≠ 'E') :
    Pattern.isLetter l c = false := by
  have mark {c : Char} (hc : Text.isWord c = false) : Pattern.isLetter l c = false := by
    by_contra hletter
    rw [isWord_of_isLetter hl (by simpa using hletter)] at hc
    cases hc
  rcases h with h | rfl | rfl | rfl | rfl
  · exact WrittenLiteral.not_isLetter_of_isDigit hl h
  · exact mark (by decide)
  · exact mark (by decide)
  · exact mark (by decide)
  · by_contra hletter
    refine hne (isLetter_unique hl (by decide) (c := 'e') ?_ (by decide))
    simpa using hletter

theorem IsNumericText.isQuiet {t : Text} (h : IsNumericText t) : IsQuiet t := by
  refine exists_quiet_of_unbroken h.1 (fun c hc => (h.2 c hc).isUnbroken) (freeOf_of_letters ?_)
  have first : ∀ k ∈ connectives, k.toList.any (fun l => IsCapital l ∧ l ≠ 'E') = true := by decide
  intro k hk
  obtain ⟨l, hl, hcapital, hne⟩ : ∃ l ∈ k.toList, IsCapital l ∧ l ≠ 'E' := by
    simpa using first k hk
  exact ⟨l, hl, fun c hc => (h.2 c hc).not_isLetter hcapital hne⟩

theorem isNumeric_of_mem_ofNat {n : Nat} {c : Char} (h : c ∈ Numeral.ofNat n) : IsNumeric c :=
  .inl (Numeral.isDigit_of_mem_ofNat h)

theorem isNumeric_of_mem_zeros {n : Nat} {c : Char} (h : c ∈ List.replicate n '0') :
    IsNumeric c := by
  rw [List.eq_of_mem_replicate h]
  exact .inl rfl

theorem Numeral.isNumericText_ofInt (n : Int) : IsNumericText (ofInt n) := by
  cases n with
  | ofNat n => exact ⟨Nat.toDigits_ne_nil, fun c hc => isNumeric_of_mem_ofNat hc⟩
  | negSucc n =>
    refine ⟨List.cons_ne_nil _ _, List.forall_mem_cons.mpr ⟨by decide, fun c hc => ?_⟩⟩
    exact isNumeric_of_mem_ofNat hc

theorem NumberLayout.isNumeric_of_mem_padded {width n : Nat} {c : Char} (h : c ∈ padded width n) :
    IsNumeric c := by
  rcases List.mem_append.mp h with h | h
  · exact isNumeric_of_mem_zeros h
  · exact isNumeric_of_mem_ofNat h

theorem NumberLayout.isNumeric_of_mem_significantDigits {n : Nat} {c : Char}
    (h : c ∈ significantDigits n) : IsNumeric c := by
  refine isNumeric_of_mem_ofNat (n := n) ?_
  rw [significantDigits, dropEndWhile, List.mem_reverse] at h
  simpa using (List.dropWhile_sublist _).subset h

theorem NumberLayout.isNumericText_write {layout : NumberLayout}
    (hmark : IsNumeric layout.exponentMark) (hending : IsNumericText layout.wholeEnding)
    (x : Binary64.Decimal) : IsNumericText (layout.write x) := by
  have digits : ∀ c ∈ significantDigits x.digits, IsNumeric c :=
    fun c hc => isNumeric_of_mem_significantDigits hc
  have taken (n : Nat) : ∀ c ∈ (significantDigits x.digits).take n, IsNumeric c :=
    fun c hc => digits c (List.mem_of_mem_take hc)
  have dropped (n : Nat) : ∀ c ∈ '.' :: (significantDigits x.digits).drop n, IsNumeric c :=
    List.forall_mem_cons.mpr ⟨by decide, fun c hc => digits c (List.mem_of_mem_drop hc)⟩
  have zeros (n : Nat) : ∀ c ∈ List.replicate n '0', IsNumeric c :=
    fun c hc => isNumeric_of_mem_zeros hc
  rw [write]
  split
  · split
    · refine ⟨List.cons_ne_nil _ _, List.forall_mem_cons.mpr ⟨by decide, ?_⟩⟩
      refine List.forall_mem_cons.mpr ⟨by decide, ?_⟩
      exact List.forall_mem_append.mpr ⟨zeros _, digits⟩
    · dsimp only
      split
      · refine ⟨List.append_ne_nil_of_right_ne_nil _ hending.1, ?_⟩
        exact List.forall_mem_append.mpr ⟨List.forall_mem_append.mpr ⟨digits, zeros _⟩, hending.2⟩
      · exact ⟨by simp, List.forall_mem_append.mpr ⟨taken _, dropped _⟩⟩
  · refine ⟨by simp, List.forall_mem_append.mpr ⟨List.forall_mem_append.mpr ⟨taken _, ?_⟩, ?_⟩⟩
    · split
      · exact List.forall_mem_nil _
      · exact dropped 1
    · refine List.forall_mem_cons.mpr ⟨hmark, List.forall_mem_cons.mpr ⟨?_, fun c hc => ?_⟩⟩
      · split <;> decide
      · exact isNumeric_of_mem_padded hc

theorem IsNumericText.negated {t : Text} (h : IsNumericText t) (negative : Bool) :
    IsNumericText ((if negative then ['-'] else []) ++ t) := by
  refine ⟨List.append_ne_nil_of_right_ne_nil _ h.1, List.forall_mem_append.mpr ⟨?_, h.2⟩⟩
  cases negative <;> decide

theorem Binary64.isNumericText_text (negative : Bool) (significand : Nat) (exponent : Int)
    (h : Canonical significand exponent) :
    IsNumericText (finite negative significand exponent h).text := by
  rw [text]
  refine IsNumericText.negated ?_ negative
  split
  · exact ⟨by decide, by decide⟩
  · exact NumberLayout.isNumericText_write (by decide) ⟨by decide, by decide⟩ _

theorem Binary64.isQuiet_text (x : Binary64) : IsQuiet x.text := by
  cases x with
  | nan => exact exists_quiet_of_unbroken (by decide) (by decide) (freeOf_of_all (by decide))
  | infinite negative =>
    cases negative with
    | false => exact exists_quiet_of_unbroken (by decide) (by decide) (freeOf_of_all (by decide))
    | true => exact exists_quiet_of_unbroken (by decide) (by decide) (freeOf_of_all (by decide))
  | finite negative significand exponent h =>
    exact (isNumericText_text negative significand exponent h).isQuiet

theorem isQuiet_plainLiteral {t : Text} (h : '\'' ∉ t) : IsQuiet (plainLiteral t) :=
  .of_sheltered (.quoted (by decide) h)

/-- The characters of dates and times. -/
def IsClockChar (c : Char) : Prop :=
  IsNumeric c ∨ c = ':' ∨ c = 'T'

instance (c : Char) : Decidable (IsClockChar c) :=
  inferInstanceAs (Decidable (_ ∨ _))

section Clocks

variable {k : Char} (hk : ¬ IsClockChar k)

include hk

theorem IsClockChar.ne_mark {d : Char} (hd : IsClockChar d) : k ≠ d := by
  rintro rfl
  exact hk hd

theorem not_mem_zeroPadded (width n : Nat) : k ∉ zeroPadded width n := by
  intro h
  rcases List.mem_append.mp h with h | h
  · exact hk (.inl (isNumeric_of_mem_zeros h))
  · exact hk (.inl (isNumeric_of_mem_ofNat h))

theorem Date.not_mem_iso (d : Date) : k ∉ d.iso := by
  simp [iso, not_mem_zeroPadded hk, IsClockChar.ne_mark hk (d := '-') (by decide)]

theorem Clock.not_mem_iso (c : Clock) : k ∉ c.iso := by
  have colon := IsClockChar.ne_mark hk (d := ':') (by decide)
  have fraction (n : Nat) : k ∉ fractionText n := by
    rw [fractionText]
    split <;> simp [not_mem_zeroPadded hk, IsClockChar.ne_mark hk (d := '.') (by decide)]
  have minutes (negative : Bool) (n : Nat) : k ∉ hoursAndMinutes negative n := by
    have sign :=
      IsClockChar.ne_mark hk (d := if negative then '-' else '+') (by cases negative <;> decide)
    simp [hoursAndMinutes, not_mem_zeroPadded hk, colon, sign]
  have offset : k ∉ (c.offset.map offsetText).getD [] := by
    cases c.offset with
    | none => simp
    | some n =>
      simp only [Option.map_some, Option.getD_some, offsetText, List.mem_append, not_or]
      refine ⟨minutes _ _, ?_⟩
      split <;> simp [not_mem_zeroPadded hk, fraction, colon]
  simp [iso, timeText, not_mem_zeroPadded hk, fraction, offset, colon]

theorem Moment.not_mem_iso (m : Moment) : k ∉ m.iso := by
  simp [iso, isoWith, m.date.not_mem_iso hk, m.clock.not_mem_iso hk,
    IsClockChar.ne_mark hk (d := 'T') (by decide)]

end Clocks

theorem Scalar.isQuiet_sql (x : Scalar) : IsQuiet x.sql := by
  cases x with
  | null => exact .capital "NULL" (by decide) (by decide)
  | bool b =>
    cases b with
    | true => exact .capital "TRUE" (by decide) (by decide)
    | false => exact .capital "FALSE" (by decide) (by decide)
  | int n => exact (Numeral.isNumericText_ofInt n).isQuiet
  | float x => exact x.isQuiet_text
  | string s => exact .of_sheltered (sheltered_doubled (by decide) s.toList)
  | date d => exact isQuiet_plainLiteral (d.not_mem_iso (by decide))
  | moment m => exact isQuiet_plainLiteral (m.not_mem_iso (by decide))
  | clock c => exact isQuiet_plainLiteral (c.not_mem_iso (by decide))

theorem closed_intercalate {separator : Text} (hs : Closed separator) {ts : List Text}
    (h : ∀ t ∈ ts, Closed t) : Closed (separator.intercalate ts) := by
  induction ts with
  | nil => exact .nil
  | cons t ts ih =>
    obtain ⟨ht, hts⟩ := List.forall_mem_cons.mp h
    cases ts with
    | nil => simpa using ht
    | cons u ts =>
      rw [List.intercalate_cons_cons]
      exact (ht.append hs).append (ih hts)

theorem FilterValue.closed_alternatives (v : FilterValue) :
    Closed ([',', ' '].intercalate (v.toDatum.alternatives.map Datum.sql)) := by
  refine closed_intercalate (closed_of_plain (by decide)) fun t ht => ?_
  have scalars : ∀ d ∈ v.toDatum.alternatives, ∃ x, d = .scalar x := by
    cases v with
    | scalar x => exact List.forall_mem_singleton.mpr ⟨x, rfl⟩
    | list xs => simp [toDatum, Datum.alternatives]
  obtain ⟨d, hd, rfl⟩ := List.mem_map.mp ht
  obtain ⟨x, rfl⟩ := scalars d hd
  exact x.isQuiet_sql.closed

instance (w : Text) : Decidable (IsName w) :=
  inferInstanceAs (Decidable (_ ∧ _))

/-- Words with points between them, none of which is a connective. -/
inductive IsReference : Text → Prop
  | name {w : Text} (hw : IsName w) (free : ∀ k ∈ connectives, ¬ Spells k.toList w) : IsReference w
  | qualified {w t : Text} (hw : IsName w) (free : ∀ k ∈ connectives, ¬ Spells k.toList w)
      (ht : IsReference t) : IsReference (w ++ '.' :: t)

namespace IsReference

variable {s t : Text}

theorem isQuiet (h : IsReference t) : IsQuiet t := by
  induction h with
  | @name w hw free => exact ⟨[.word w hw], by simp [Token.text], .singleton rfl free⟩
  | @qualified w t hw free _ ih =>
    obtain ⟨ts, rfl, hts⟩ := ih
    have word : Quiet connectives [.word w hw] := .singleton rfl free
    exact ⟨_, by simp [Token.text], word.append_mark (c := '.') (by decide) (by decide) hts⟩

theorem append (hs : IsReference s) (ht : IsReference t) : IsReference (s ++ '.' :: t) := by
  induction hs with
  | name hw free => exact .qualified hw free ht
  | qualified hw free _ ih =>
    rw [List.append_assoc, List.cons_append]
    exact .qualified hw free ih

theorem ne_nil (h : IsReference t) : t ≠ [] := by
  cases h with
  | name hw => exact hw.1
  | qualified => simp

theorem head_ne (h : IsReference t) : t.head? ≠ some '(' := by
  have first {w : Text} (hw : IsName w) (r : Text) : (w ++ r).head? ≠ some '(' := by
    intro hhead
    have := not_halts_of_isName hw r
    rw [Halts, hhead] at this
    exact this (by decide)
  cases h with
  | name hw => simpa using first hw []
  | qualified hw => exact first hw _

end IsReference

namespace FilterOperator

theorem shape_ne_existence {o : FilterOperator} (h : o ≠ .exists ∧ o ≠ .notExists) :
    o.shape ≠ .existence := by
  cases o <;> simp_all [shape]

theorem isQuiet_spelling {o : FilterOperator} (hrange : o.shape ≠ .range)
    (hexists : o.shape ≠ .existence) : IsQuiet (Vocabulary.spelling o).toList := by
  have phrase (ks : List String) (hks : Pattern.IsPhrase ks) (h : ∀ k ∈ connectives, k ∉ ks) :
      IsQuiet (" ".intercalate ks).toList := by
    rw [← Phrase.textOf_capital hks]
    exact .of_phrase _ h
  cases o with
  | compare c => exact ⟨_, textOf_sign c, solid_signTokens (by cases c <;> decide) _, fun a ha => by
      obtain ⟨d, hd, hmark, rfl⟩ := mem_signTokens ha
      exact Filter.ne_semicolon_of_mem_signs _ c.spelling_mem d hd⟩
  | like => exact phrase ["LIKE"] (by decide) (by decide)
  | notLike => exact phrase ["NOT", "LIKE"] (by decide) (by decide)
  | isIn => exact phrase ["IN"] (by decide) (by decide)
  | notIn => exact phrase ["NOT", "IN"] (by decide) (by decide)
  | between | notBetween => exact absurd rfl hrange
  | isNull => exact phrase ["IS", "NULL"] (by decide) (by decide)
  | isNotNull => exact phrase ["IS", "NOT", "NULL"] (by decide) (by decide)
  | «exists» | notExists => exact absurd rfl hexists
  | allOf => exact phrase ["ALL"] (by decide) (by decide)
  | anyOf => exact phrase ["ANY"] (by decide) (by decide)
  | someOf => exact phrase ["SOME"] (by decide) (by decide)

end FilterOperator

end SqlCanvas
