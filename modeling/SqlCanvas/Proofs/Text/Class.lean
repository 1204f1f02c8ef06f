import Mathlib.Data.List.Forall2
import SqlCanvas.Nesting.Basic
import SqlCanvas.Pattern.Basic

/-!
# Classes of characters

No character is two of these: a word character, a blank, a quote or parenthesis. The characters that
can stand for a letter of a keyword are word characters, and each stands for one letter only.
-/

namespace SqlCanvas

open Text Nesting

/-- The characters of a text are tried one by one, and not all characters there are. -/
instance (priority := high) decidableForallMem {p : Char → Prop} [DecidablePred p] (t : Text) :
    Decidable (∀ c ∈ t, p c) :=
  List.decidableBAll p t

instance (priority := high) decidableForallHead {p : Char → Prop} [DecidablePred p]
    (o : Option Char) : Decidable (∀ c ∈ o, p c) :=
  Option.decidableForallMem o

instance (priority := high) decidableExistsHead {p : Char → Prop} [DecidablePred p]
    (o : Option Char) : Decidable (∃ c ∈ o, p c) :=
  Option.decidableExistsMem o

def IsCapital (l : Char) : Prop :=
  65 ≤ l.toNat ∧ l.toNat ≤ 90

instance (l : Char) : Decidable (IsCapital l) :=
  inferInstanceAs (Decidable (_ ∧ _))

theorem isUpper_of_isCapital {l : Char} (h : IsCapital l) : l.isUpper = true := by
  obtain ⟨h₁, h₂⟩ := h
  exact decide_eq_true ⟨UInt32.le_iff_toNat_le.mpr h₁, UInt32.le_iff_toNat_le.mpr h₂⟩

theorem toNat_of_isAlpha {c : Char} (h : c.isAlpha = true) :
    (65 ≤ c.toNat ∧ c.toNat ≤ 90) ∨ (97 ≤ c.toNat ∧ c.toNat ≤ 122) := by
  rcases Bool.or_eq_true_iff.mp h with h | h
  · obtain ⟨h₁, h₂⟩ := of_decide_eq_true h
    exact .inl ⟨UInt32.le_iff_toNat_le.mp h₁, UInt32.le_iff_toNat_le.mp h₂⟩
  · obtain ⟨h₁, h₂⟩ := Bool.and_eq_true_iff.mp h
    exact .inr ⟨UInt32.le_iff_toNat_le.mp (of_decide_eq_true h₁),
      UInt32.le_iff_toNat_le.mp (of_decide_eq_true h₂)⟩

theorem toNat_of_isDigit {c : Char} (h : c.isDigit = true) : 48 ≤ c.toNat ∧ c.toNat ≤ 57 := by
  obtain ⟨h₁, h₂⟩ := Bool.and_eq_true_iff.mp h
  exact ⟨UInt32.le_iff_toNat_le.mp (of_decide_eq_true h₁),
    UInt32.le_iff_toNat_le.mp (of_decide_eq_true h₂)⟩

def farBlanks : List Nat :=
  [0x85, 0xA0, 0x1680, 0x2000, 0x2001, 0x2002, 0x2003, 0x2004, 0x2005, 0x2006, 0x2007,
    0x2008, 0x2009, 0x200A, 0x2028, 0x2029, 0x202F, 0x205F, 0x3000]

theorem farBlanks_not_alphanumeric :
    ∀ n ∈ farBlanks, Interval.contains Table.alphanumeric n = false := by
  decide +kernel

theorem isBlank_cases {c : Char} (h : isBlank c = true) :
    (9 ≤ c.toNat ∧ c.toNat ≤ 13) ∨ (28 ≤ c.toNat ∧ c.toNat ≤ 32) ∨ c.toNat ∈ farBlanks := by
  simp only [isBlank, Bool.or_eq_true, Bool.and_eq_true, decide_eq_true_eq, beq_iff_eq] at h
  simp only [farBlanks, List.mem_cons, List.not_mem_nil, or_false]
  omega

theorem not_isWord_of_isBlank {c : Char} (h : isBlank c = true) : isWord c = false := by
  have high : ∀ n ∈ farBlanks, 128 ≤ n := by decide
  rcases isBlank_cases h with h | h | h
  · simp only [isWord, isAsciiAlphanumeric]
    rw [if_pos (by omega)]
    simp
    omega
  · simp only [isWord, isAsciiAlphanumeric]
    rw [if_pos (by omega)]
    simp
    omega
  · have := high _ h
    rw [isWord, if_neg (by omega)]
    exact farBlanks_not_alphanumeric _ h

theorem not_isBlank_of_isWord {c : Char} (h : isWord c = true) : isBlank c = false := by
  by_contra hb
  rw [not_isWord_of_isBlank (by simpa using hb)] at h
  cases h

theorem isSpecial_cases {c : Char} (h : isSpecial c = true) :
    c = '\'' ∨ c = '"' ∨ c = '(' ∨ c = ')' := by
  simpa [isSpecial, isQuote, or_assoc] using h

theorem not_isWord_of_isSpecial {c : Char} (h : isSpecial c = true) : isWord c = false := by
  rcases isSpecial_cases h with rfl | rfl | rfl | rfl <;> decide

theorem not_isBlank_of_isSpecial {c : Char} (h : isSpecial c = true) : isBlank c = false := by
  rcases isSpecial_cases h with rfl | rfl | rfl | rfl <;> decide

theorem not_isSpecial_of_isWord {c : Char} (h : isWord c = true) : isSpecial c = false := by
  by_contra hs
  rw [not_isWord_of_isSpecial (by simpa using hs)] at h
  cases h

theorem not_isSpecial_of_isBlank {c : Char} (h : isBlank c = true) : isSpecial c = false := by
  by_contra hs
  rw [not_isBlank_of_isSpecial (by simpa using hs)] at h
  cases h

theorem isLetter_cases {l c : Char} (hl : IsCapital l) (h : Pattern.isLetter l c = true) :
    c.toNat = l.toNat ∨ c.toNat = l.toNat + 32 ∨ (l = 'S' ∧ c.toNat = 0x17F) ∨
      (l = 'I' ∧ (c.toNat = 0x130 ∨ c.toNat = 0x131)) ∨ (l = 'K' ∧ c.toNat = 0x212A) := by
  simp only [Pattern.isLetter, isUpper_of_isCapital hl, Bool.or_eq_true, Bool.and_eq_true,
    beq_iff_eq, true_and] at h
  rcases h with (((rfl | h) | h) | h) | h
  · exact .inl rfl
  · exact .inr (.inl h)
  · exact .inr (.inr (.inl h))
  · exact .inr (.inr (.inr (.inl h)))
  · exact .inr (.inr (.inr (.inr h)))

theorem isWord_of_isLetter {l c : Char} (hl : IsCapital l) (h : Pattern.isLetter l c = true) :
    isWord c = true := by
  have far : ∀ n ∈ [0x17F, 0x130, 0x131, 0x212A],
      Interval.contains Table.alphanumeric n = true := by
    decide +kernel
  obtain ⟨h₁, h₂⟩ := hl
  have near : c.toNat = l.toNat ∨ c.toNat = l.toNat + 32 → isWord c = true := by
    intro hc
    refine isWord_of_isAsciiAlphanumeric ?_
    simp only [isAsciiAlphanumeric, Bool.or_eq_true, Bool.and_eq_true, decide_eq_true_eq]
    omega
  have distant : c.toNat ∈ [0x17F, 0x130, 0x131, 0x212A] → isWord c = true := by
    intro hc
    have : ¬ c.toNat < 128 := by
      simp only [List.mem_cons, List.not_mem_nil, or_false] at hc
      omega
    rw [isWord, if_neg this]
    exact far _ hc
  rcases isLetter_cases ⟨h₁, h₂⟩ h with h | h | ⟨-, h⟩ | ⟨-, h | h⟩ | ⟨-, h⟩
  · exact near (.inl h)
  · exact near (.inr h)
  all_goals exact distant (by rw [h]; decide)

theorem isLetter_unique {l l' c : Char} (hl : IsCapital l) (hl' : IsCapital l')
    (h : Pattern.isLetter l c = true) (h' : Pattern.isLetter l' c = true) : l = l' := by
  obtain ⟨h₁, h₂⟩ := hl
  obtain ⟨h₁', h₂'⟩ := hl'
  suffices l.toNat = l'.toNat from Char.ext (UInt32.toNat_inj.mp this)
  have s : 'S'.toNat = 83 := rfl
  have i : 'I'.toNat = 73 := rfl
  have k : 'K'.toNat = 75 := rfl
  rcases isLetter_cases ⟨h₁, h₂⟩ h with h | h | ⟨rfl, h⟩ | ⟨rfl, h⟩ | ⟨rfl, h⟩ <;>
    rcases isLetter_cases ⟨h₁', h₂'⟩ h' with h' | h' | ⟨rfl, h'⟩ | ⟨rfl, h'⟩ | ⟨rfl, h'⟩ <;> omega

/-- A word that has the letters of a keyword, each in either case. -/
abbrev Spells (k w : Text) : Prop :=
  List.Forall₂ (fun l c => Pattern.isLetter l c = true) k w

/-- Whether a text is made of capital letters. -/
abbrev IsKeyword (k : Text) : Prop :=
  k ≠ [] ∧ ∀ l ∈ k, IsCapital l

theorem Spells.isWord {k w : Text} (h : Spells k w) (hk : ∀ l ∈ k, IsCapital l) :
    ∀ c ∈ w, isWord c = true := by
  induction h with
  | nil => simp
  | cons hc _ ih =>
    obtain ⟨hl, hk⟩ := List.forall_mem_cons.mp hk
    exact List.forall_mem_cons.mpr ⟨isWord_of_isLetter hl hc, ih hk⟩

theorem Spells.unique {k k' w : Text} (h : Spells k w) (h' : Spells k' w)
    (hk : ∀ l ∈ k, IsCapital l) (hk' : ∀ l ∈ k', IsCapital l) : k = k' := by
  induction h generalizing k' with
  | nil => cases h'; rfl
  | cons hc _ ih =>
    cases h' with
    | cons hc' h' =>
      obtain ⟨hl, hk⟩ := List.forall_mem_cons.mp hk
      obtain ⟨hl', hk'⟩ := List.forall_mem_cons.mp hk'
      rw [isLetter_unique hl hl' hc hc', ih h' hk hk']

theorem Spells.ne_nil {k w : Text} (h : Spells k w) (hk : k ≠ []) : w ≠ [] := by
  rintro rfl
  cases h
  exact hk rfl

theorem spells_self {k : Text} : Spells k k := by
  induction k with
  | nil => exact .nil
  | cons l k ih => exact .cons (by simp [Pattern.isLetter]) ih

end SqlCanvas
