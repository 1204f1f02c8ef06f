import SqlCanvas.Proofs.Grammar.Condition

/-!
# Plain names

Names in ASCII letters, digits and underscores that can stand anywhere in a statement.
-/

namespace SqlCanvas

open Text Nesting Pattern

/-- ASCII letters, digits and underscores behind a letter, but no keyword and nothing that starts
like `EXISTS`. Only the words that take a statement apart count as keywords. -/
def IsPlain (s : String) : Prop :=
  (∃ c ∈ s.toList.head?, c.isAlpha = true) ∧
    (∀ c ∈ s.toList, isAsciiAlphanumeric c.toNat = true ∨ c = '_') ∧
      String.ofList (upper s.toList) ∉ reserved ∧ ¬ "EXISTS".toList <+: upper s.toList

instance : DecidablePred IsPlain :=
  fun _ => inferInstanceAs (Decidable (_ ∧ _ ∧ _ ∧ _))

namespace IsPlain

variable {s : String}

theorem toNat_lt {c : Char} (h : isAsciiAlphanumeric c.toNat = true ∨ c = '_') : c.toNat < 128 := by
  rcases h with h | rfl
  · simp [isAsciiAlphanumeric] at h
    omega
  · decide

theorem isAscii (h : IsPlain s) : IsAscii s.toList :=
  fun c hc => toNat_lt (h.2.1 c hc)

theorem ne_nil (h : IsPlain s) : s.toList ≠ [] := by
  obtain ⟨⟨c, hc, -⟩, -⟩ := h
  rintro hnil
  simp [hnil] at hc

theorem isName (h : IsPlain s) : IsName s.toList := by
  refine ⟨h.ne_nil, fun c hc => ?_⟩
  rcases h.2.1 c hc with hc | rfl
  · exact isWord_of_isAsciiAlphanumeric hc
  · decide

theorem free (h : IsPlain s) : ∀ k ∈ reserved, ¬ Spells k.toList s.toList := by
  intro k hk hs
  have capitals : ∀ k ∈ reserved, ∀ l ∈ k.toList, IsCapital l := by decide
  refine h.2.2.1 ?_
  rw [upper_of_spells (capitals k hk) h.isAscii.isTame hs, String.ofList_toList]
  exact hk

theorem otherDigits_far : ∀ i ∈ Table.otherDigits, 128 ≤ i.1 := by
  decide

theorem not_isDigit_of_isAlpha {c : Char} (hc : c.isAlpha = true) : isDigit c = false := by
  have range := toNat_of_isAlpha hc
  have decimal : isDecimal c = false := by
    have lt : c.toNat < 128 := by omega
    have out : ¬ (48 ≤ c.toNat ∧ c.toNat ≤ 57) := by omega
    simp [isDecimal, digitValue?, lt, out]
  have other : Interval.contains Table.otherDigits c.toNat = false := by
    rw [← Bool.not_eq_true]
    intro hcontains
    obtain ⟨i, hi, hle, -⟩ := Interval.mem_of_contains hcontains
    have := otherDigits_far i hi
    omega
  rw [isDigit, decimal, other]
  rfl

theorem halts_isDigit (h : IsPlain s) : Halts isDigit s.toList := by
  obtain ⟨⟨c, hc, halpha⟩, -⟩ := h
  intro d hd
  obtain rfl := Option.mem_unique hc hd
  exact not_isDigit_of_isAlpha halpha

def ident (h : IsPlain s) : Ident where
  text := s.toList
  isName := h.isName
  free := h.free
  halts := h.halts_isDigit

@[simp] theorem ident_text (h : IsPlain s) : h.ident.text = s.toList :=
  rfl

theorem plain_ident (h : IsPlain s) : h.ident.Plain := by
  intro u v huv hu
  have hs : s.toList = u ++ v := huv
  have ascii : IsAscii u := fun c hc => h.isAscii c (hs ▸ List.mem_append_left v hc)
  refine h.2.2.2 ?_
  rw [hs, upper_append, upper_of_spells (by decide) ascii.isTame hu]
  exact List.prefix_append _ _

end IsPlain

end SqlCanvas
