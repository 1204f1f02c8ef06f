import SqlCanvas.Proofs.Number.Numeral
import SqlCanvas.Proofs.Number.Shortest
import SqlCanvas.Proofs.Text.Infix

/-!
# Decimals in places

How the digits of a decimal are laid out. In places there are digits on both sides of a point, and
together with the number of digits behind the point they stand for the decimal. The other layout has
a letter in it.
-/

namespace SqlCanvas

open Text

def IsDigits (t : Text) : Prop :=
  t ≠ [] ∧ ∀ c ∈ t, c.isDigit = true

theorem isDigits_replicate {k : Nat} (hk : 0 < k) : IsDigits (List.replicate k '0') := by
  refine ⟨fun h => ?_, fun c hc => ?_⟩
  · rw [List.replicate_eq_nil_iff] at h
    omega
  · rw [List.eq_of_mem_replicate hc]
    decide

theorem IsDigits.append {s t : Text} (hs : IsDigits s) (ht : ∀ c ∈ t, c.isDigit = true) :
    IsDigits (s ++ t) :=
  ⟨by simp [hs.1], List.forall_mem_append.mpr ⟨hs.2, ht⟩⟩

namespace NumberLayout

theorem exists_zeros (n : Nat) :
    ∃ k, Numeral.ofNat n = significantDigits n ++ List.replicate k '0' := by
  obtain ⟨r, hr, zeros⟩ := exists_dropEndWhile_append (· == '0') (Numeral.ofNat n)
  refine ⟨r.length, ?_⟩
  rw [← List.eq_replicate_of_mem fun c hc => beq_iff_eq.mp (zeros c hc)]
  exact hr

theorem isDigits_significantDigits {n : Nat} (hn : 0 < n) : IsDigits (significantDigits n) := by
  obtain ⟨k, hk⟩ := exists_zeros n
  refine ⟨fun hnil => ?_, fun c hc => ?_⟩
  · have := congrArg Numeral.value hk
    rw [hnil, Numeral.value_append_zeros, Numeral.value_ofNat] at this
    exact hn.ne' (this.trans (Nat.zero_mul _))
  · exact Numeral.isDigit_of_mem_ofNat (hk ▸ List.mem_append_left _ hc)

end NumberLayout

namespace Binary64

namespace Decimal

open NumberLayout

variable (d : Decimal)

def value : ℚ :=
  d.digits * 10 ^ d.exponent

def leading : Int :=
  d.exponent + ((Numeral.ofNat d.digits).length - 1 : Nat)

variable {d}

theorem zpow_le_value_iff (hd : 0 < d.digits) (k : Int) : 10 ^ k ≤ d.value ↔ k ≤ d.leading := by
  have one : (1 : ℚ) < 10 := by norm_num
  have length : 0 < (Numeral.ofNat d.digits).length := Nat.length_toDigits_pos
  have low : (10 : ℚ) ^ d.leading ≤ d.value := by
    have : ((10 ^ ((Numeral.ofNat d.digits).length - 1) : Nat) : ℚ) ≤ d.digits :=
      Nat.cast_le.mpr (Numeral.pow_length_le hd)
    push_cast at this
    rw [leading, add_comm, zpow_add₀ (by norm_num), zpow_natCast]
    exact mul_le_mul_of_nonneg_right this (zpow_ten_pos _).le
  have high : d.value < 10 ^ (d.leading + 1) := by
    have : (d.digits : ℚ) < ((10 ^ (Numeral.ofNat d.digits).length : Nat) : ℚ) :=
      Nat.cast_lt.mpr (Numeral.lt_pow_length d.digits)
    push_cast at this
    have exponent : d.leading + 1 = ((Numeral.ofNat d.digits).length : Int) + d.exponent := by
      rw [leading]
      omega
    rw [exponent, zpow_add₀ (by norm_num), zpow_natCast]
    exact mul_lt_mul_of_pos_right this (zpow_ten_pos _)
  constructor
  · intro h
    have := (zpow_lt_zpow_iff_right₀ one).mp (h.trans_lt high)
    omega
  · intro h
    exact (zpow_le_zpow_right₀ one.le h).trans low

theorem write_of_places (h : -4 ≤ d.leading ∧ d.leading < 16) : layout.write d =
    if d.leading < 0 then
      '0' :: '.' :: (List.replicate ((-d.leading).toNat - 1) '0' ++ significantDigits d.digits)
    else if (significantDigits d.digits).length ≤ d.leading.toNat + 1 then
      significantDigits d.digits ++ List.replicate
        (d.leading.toNat + 1 - (significantDigits d.digits).length) '0' ++ ['.', '0']
    else
      (significantDigits d.digits).take (d.leading.toNat + 1) ++
        '.' :: (significantDigits d.digits).drop (d.leading.toNat + 1) :=
  if_pos h

/-- The digits around the point stand for the decimal. -/
structure IsShown (d : Decimal) (whole fraction : Text) : Prop where
  whole_digits : IsDigits whole
  fraction_digits : IsDigits fraction
  value_eq : (Numeral.value (whole ++ fraction) : ℚ) * 10 ^ (-(fraction.length : Int)) = d.value

/-- The digits without their last zeros, moved by the places that these zeros take and by those that
are shown. -/
theorem value_eq_of_shift {k : Nat}
    (hk : Numeral.ofNat d.digits = significantDigits d.digits ++ List.replicate k '0')
    {n number : Nat} (shift : Nat)
    (hnumber : number = Numeral.value (significantDigits d.digits) * 10 ^ shift)
    (hshift : (shift : Int) - n = k + d.exponent) : (number : ℚ) * 10 ^ (-(n : Int)) = d.value := by
  have ten : (10 : ℚ) ≠ 0 := by norm_num
  have digits_eq := congrArg Numeral.value hk
  rw [Numeral.value_append_zeros, Numeral.value_ofNat] at digits_eq
  rw [value, digits_eq, hnumber]
  push_cast
  rw [mul_assoc,
    mul_assoc, ← zpow_natCast, ← zpow_natCast, ← zpow_add₀ ten, ← zpow_add₀ ten, ← hshift,
      sub_eq_add_neg]

theorem exists_shown (hd : 0 < d.digits) (hleast : -4 ≤ d.leading) (hbound : d.leading < 16) :
    ∃ whole fraction, layout.write d = whole ++ '.' :: fraction ∧ d.IsShown whole fraction := by
  obtain ⟨k, hk⟩ := exists_zeros d.digits
  obtain ⟨hne, hdigits⟩ := isDigits_significantDigits hd
  have length := congrArg List.length hk
  rw [List.length_append, List.length_replicate] at length
  have hleading : d.leading = d.exponent + ((Numeral.ofNat d.digits).length - 1 : Nat) := rfl
  have positive : 0 < (significantDigits d.digits).length := List.length_pos_of_ne_nil hne
  rw [length] at hleading
  have zero : IsDigits ['0'] := isDigits_replicate one_pos
  have zeros (n : Nat) : ∀ c ∈ List.replicate n '0', c.isDigit = true :=
    fun c hc => List.eq_of_mem_replicate hc ▸ zero.2 '0' List.mem_cons_self
  rw [write_of_places ⟨hleast, hbound⟩]
  -- Three layouts: all digits behind the point, all in front of it, or cut by it.
  split
  · have fraction : IsDigits (List.replicate ((-d.leading).toNat - 1) '0' ++
        significantDigits d.digits) :=
      ⟨by simp [hne], List.forall_mem_append.mpr ⟨zeros _, hdigits⟩⟩
    refine ⟨['0'], _, rfl, zero, fraction, value_eq_of_shift hk 0 ?_ ?_⟩
    · rw [← List.append_assoc, ← List.replicate_one, ← List.replicate_add,
        Numeral.value_zeros_append, pow_zero, mul_one]
    · rw [List.length_append, List.length_replicate]
      omega
  · split
    · refine ⟨_, ['0'], rfl, .append ⟨hne, hdigits⟩ (zeros _), zero,
        value_eq_of_shift hk (d.leading.toNat + 1 - (significantDigits d.digits).length + 1) ?_ ?_⟩
      · rw [List.append_assoc, ← List.replicate_one, ← List.replicate_add,
          Numeral.value_append_zeros]
      · rw [List.length_singleton]
        omega
    · rename_i hfraction
      have whole : IsDigits ((significantDigits d.digits).take (d.leading.toNat + 1)) :=
        ⟨by simp [List.take_eq_nil_iff, hne], fun c hc => hdigits c (List.mem_of_mem_take hc)⟩
      have fraction : IsDigits ((significantDigits d.digits).drop (d.leading.toNat + 1)) :=
        ⟨by simpa [List.drop_eq_nil_iff] using hfraction,
          fun c hc => hdigits c (List.mem_of_mem_drop hc)⟩
      refine ⟨_, _, rfl, whole, fraction, value_eq_of_shift hk 0 ?_ ?_⟩
      · rw [List.take_append_drop, pow_zero, mul_one]
      · rw [List.length_drop]
        omega

theorem exists_marked (hd : 0 < d.digits) (h : ¬ (-4 ≤ d.leading ∧ d.leading < 16)) :
    ∃ c t, layout.write d = c :: t ∧ c.isDigit = true ∧ 'e' ∈ t := by
  obtain ⟨hne, hdigits⟩ := isDigits_significantDigits hd
  have other : ¬ (layout.least ≤ d.exponent + ((Numeral.ofNat d.digits).length - 1 : Nat) ∧
      d.exponent + ((Numeral.ofNat d.digits).length - 1 : Nat) < layout.bound) := h
  obtain ⟨c, t, ht⟩ := List.exists_cons_of_ne_nil hne
  rw [write]
  simp only [if_neg other, ht]
  exact ⟨c, _, rfl, hdigits c (ht ▸ List.mem_cons_self), by simp [layout]⟩

end Decimal

end Binary64

end SqlCanvas
