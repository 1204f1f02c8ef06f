import Mathlib.Data.List.Nodup
import SqlCanvas.IdSource

/-!
# Sources that do not repeat themselves

`Fresh` says that no request to come is answered by an id that is in use or was given before. Both
sources of ids are fresh from every state: their numbers stand behind the last underscore and go up.
-/

namespace SqlCanvas

namespace IdSource

variable {σ : Type} {ids : IdSource σ} {used used' : List String} {s : σ}

/-- Whatever is asked for from this state on, the answers differ from the ids in use and from each
other. -/
def Fresh (ids : IdSource σ) (used : List String) (s : σ) : Prop :=
  ∀ stems, (used ++ (ids.nextAll stems s).1).Nodup

theorem fresh_nil_iff : ids.Fresh [] s ↔ ∀ stems, (ids.nextAll stems s).1.Nodup := Iff.rfl

theorem Fresh.nodup (h : ids.Fresh used s) : used.Nodup := by
  have := h []
  rwa [nextAll, List.append_nil] at this

theorem Fresh.next (h : ids.Fresh used s) (stem : String) :
    ids.Fresh (used ++ [(ids.next stem s).1]) (ids.next stem s).2 := by
  intro stems
  have := h (stem :: stems)
  rwa [nextAll, List.append_cons] at this

theorem Fresh.sublist (h : ids.Fresh used s) (hsub : used'.Sublist used) : ids.Fresh used' s :=
  fun stems => (h stems).sublist (hsub.append_right _)

end IdSource

theorem Numeral.ofNat_injective : Function.Injective Numeral.ofNat :=
  Function.LeftInverse.injective Numeral.value_ofNat

theorem Numeral.not_mem_ofNat {c : Char} (hc : c.isDigit = false) (n : Nat) :
    c ∉ Numeral.ofNat n := by
  intro h
  rw [Numeral.isDigit_of_mem_ofNat h] at hc
  cases hc

theorem Numeral.ofInt_injective : Function.Injective Numeral.ofInt := by
  intro m n h
  have minus (n : Nat) : '-' ∉ Numeral.ofNat n := Numeral.not_mem_ofNat (by decide) n
  cases m with
  | ofNat m =>
    cases n with
    | ofNat n => exact congrArg Int.ofNat (Numeral.ofNat_injective h)
    | negSucc n =>
      exact (minus m (by rw [show Numeral.ofNat m = _ from h]; exact List.mem_cons_self)).elim
  | negSucc m =>
    cases n with
    | ofNat n =>
      exact (minus n (by rw [show Numeral.ofNat n = _ from h.symm]; exact List.mem_cons_self)).elim
    | negSucc n =>
      have := Numeral.ofNat_injective (List.cons.inj h).2
      exact congrArg Int.negSucc (Nat.succ.inj this)

theorem Numeral.underscore_not_mem_ofInt (n : Int) : '_' ∉ Numeral.ofInt n := by
  have digits (n : Nat) : '_' ∉ Numeral.ofNat n := Numeral.not_mem_ofNat (by decide) n
  cases n with
  | ofNat n => exact digits n
  | negSucc n => simpa [Numeral.ofInt] using digits (n + 1)

/-- The number of an id is what stands behind the last underscore. -/
theorem takeWhile_reverse_id (stem : Text) {n : Text} (hn : '_' ∉ n) :
    (stem ++ '_' :: n).reverse.takeWhile (· != '_') = n.reverse := by
  rw [List.reverse_append, List.reverse_cons, List.append_assoc, List.takeWhile_append_of_pos]
  · simp
  · intro c hc
    have : c ≠ '_' := by
      rintro rfl
      exact hn (List.mem_reverse.mp hc)
    simpa using this

theorem id_parts_inj {stem stem' : String} {n n' : Text} (hn : '_' ∉ n) (hn' : '_' ∉ n')
    (h : stem ++ "_" ++ String.ofList n = stem' ++ "_" ++ String.ofList n') :
    stem = stem' ∧ n = n' := by
  have same : stem.toList ++ '_' :: n = stem'.toList ++ '_' :: n' := by
    simpa using congrArg String.toList h
  have numbers : n.reverse = n'.reverse := by
    rw [← takeWhile_reverse_id stem.toList hn, same, takeWhile_reverse_id _ hn']
  have number := List.reverse_inj.mp numbers
  rw [number] at same
  exact ⟨String.toList_inj.mp (List.append_cancel_right same), number⟩

namespace StemCounters

def id (stem : String) (n : Int) : String :=
  stem ++ "_" ++ String.ofList (Numeral.ofInt n)

theorem id_inj {stem stem' : String} {n n' : Int} (h : id stem n = id stem' n') :
    stem = stem' ∧ n = n' := by
  obtain ⟨rfl, hn⟩ :=
    id_parts_inj (Numeral.underscore_not_mem_ofInt n) (Numeral.underscore_not_mem_ofInt n') h
  exact ⟨rfl, Numeral.ofInt_injective hn⟩

theorem count_le_advance (c : StemCounters) (stem other : String) :
    c.count other ≤ (c.advance stem).count other := by
  by_cases h : other = stem
  · rw [h, count_advance_self]
    omega
  · exact Int.le_of_eq (count_advance_of_ne c h).symm

theorem exists_of_mem_nextAll {stems : List String} {c : StemCounters} {i : String}
    (h : i ∈ (IdSource.sequential.nextAll stems c).1) :
    ∃ stem n, i = id stem n ∧ c.count stem ≤ n := by
  induction stems generalizing c with
  | nil => cases h
  | cons stem stems ih =>
    rcases List.mem_cons.mp h with rfl | h
    · exact ⟨stem, c.count stem, rfl, Int.le_refl _⟩
    · obtain ⟨other, n, rfl, hn⟩ := ih h
      exact ⟨other, n, rfl, Int.le_trans (c.count_le_advance stem other) hn⟩

end StemCounters

theorem StemCounters.nodup_nextAll (stems : List String) (c : StemCounters) :
    (IdSource.sequential.nextAll stems c).1.Nodup := by
  induction stems generalizing c with
  | nil => exact List.nodup_nil
  | cons stem stems ih =>
    refine List.nodup_cons.mpr ⟨fun h => ?_, ih _⟩
    -- The counter has gone past the number that was given for this stem.
    obtain ⟨other, n, heq, hn⟩ := StemCounters.exists_of_mem_nextAll h
    have heq : StemCounters.id stem (c.count stem) = StemCounters.id other n := heq
    obtain ⟨rfl, rfl⟩ := StemCounters.id_inj heq
    have : (c.advance stem).count stem ≤ c.count stem := hn
    rw [StemCounters.count_advance_self] at this
    omega

namespace IdSource

theorem fresh_sequential (c : StemCounters) : sequential.Fresh [] c :=
  fun stems => StemCounters.nodup_nextAll stems c

theorem fresh_sequential_empty (c : StemCounters) : sequential.Fresh [""] c := by
  refine fun stems => List.nodup_cons.mpr ⟨fun h => ?_, StemCounters.nodup_nextAll stems c⟩
  obtain ⟨stem, n, heq, -⟩ := StemCounters.exists_of_mem_nextAll h
  have := congrArg String.toList heq
  simp [StemCounters.id] at this

end IdSource

def hexDigitValue (c : Char) : Nat :=
  if c.toNat < 58 then c.toNat - 48 else c.toNat - 87

theorem hexDigitValue_digitChar {d : Nat} (h : d < 16) : hexDigitValue d.digitChar = d := by
  decide +revert

/-- The number that hexadecimal digits stand for. -/
def hexValue (digits : Text) : Nat :=
  digits.foldl (fun n c => 16 * n + hexDigitValue c) 0

theorem hexValue_append_singleton (t : Text) (c : Char) :
    hexValue (t ++ [c]) = 16 * hexValue t + hexDigitValue c := by
  rw [hexValue, hexValue, List.foldl_append, List.foldl_cons, List.foldl_nil]

theorem hexValue_zeros_append (k : Nat) (t : Text) :
    hexValue (List.replicate k '0' ++ t) = hexValue t := by
  have zeros : hexValue (List.replicate k '0') = 0 := by
    induction k with
    | zero => rfl
    | succ k ih => rw [List.replicate_succ', hexValue_append_singleton, ih]; rfl
  rw [hexValue, List.foldl_append]
  exact congrArg (t.foldl _) zeros

theorem hexValue_toDigits (n : Nat) : hexValue (Nat.toDigits 16 n) = n := by
  induction n using Nat.strongRecOn with
  | ind n ih =>
    rw [Nat.toDigits_eq_if (by decide)]
    split
    · rename_i h
      exact (Nat.zero_add _).trans (hexDigitValue_digitChar h)
    · rw [hexValue_append_singleton, ih (n / 16) (by omega), hexDigitValue_digitChar (by omega)]
      omega

theorem hexValue_hexPadded (width n : Nat) : hexValue (hexPadded width n) = n := by
  rw [hexPadded, hexValue_zeros_append, hexValue_toDigits]

theorem underscore_not_mem_toDigits (n : Nat) : '_' ∉ Nat.toDigits 16 n := by
  have digit : ∀ d < 16, '_' ≠ Nat.digitChar d := by decide
  induction n using Nat.strongRecOn with
  | ind n ih =>
    rw [Nat.toDigits_eq_if (by decide)]
    split
    · rename_i h
      rw [List.mem_singleton]
      exact digit n h
    · rw [List.mem_append, List.mem_singleton, not_or]
      exact ⟨ih (n / 16) (by omega), digit (n % 16) (by omega)⟩

theorem underscore_not_mem_hexPadded (width n : Nat) : '_' ∉ hexPadded width n := by
  rw [hexPadded]
  simpa using underscore_not_mem_toDigits n

namespace IdSource

def sharedId (stem : String) (n : Nat) : String :=
  stem ++ "_" ++ String.ofList (hexPadded 12 n)

theorem sharedId_inj {stem stem' : String} {n n' : Nat} (h : sharedId stem n = sharedId stem' n') :
    n = n' := by
  have digits :=
    (id_parts_inj (underscore_not_mem_hexPadded 12 n) (underscore_not_mem_hexPadded 12 n') h).2
  rw [← hexValue_hexPadded 12 n, digits, hexValue_hexPadded]

theorem exists_of_mem_nextAll_shared {stems : List String} {n : Nat} {i : String}
    (h : i ∈ (shared.nextAll stems n).1) : ∃ stem m, i = sharedId stem m ∧ n ≤ m := by
  induction stems generalizing n with
  | nil => cases h
  | cons stem stems ih =>
    rcases List.mem_cons.mp h with rfl | h
    · exact ⟨stem, n, rfl, Nat.le_refl _⟩
    · obtain ⟨other, m, rfl, hm⟩ := ih h
      exact ⟨other, m, rfl, Nat.le_of_succ_le hm⟩

theorem nodup_nextAll_shared (stems : List String) (n : Nat) :
    (shared.nextAll stems n).1.Nodup := by
  induction stems generalizing n with
  | nil => exact List.nodup_nil
  | cons stem stems ih =>
    refine List.nodup_cons.mpr ⟨fun h => ?_, ih _⟩
    obtain ⟨other, m, heq, hm⟩ := exists_of_mem_nextAll_shared h
    have : n = m := sharedId_inj heq
    have : n + 1 ≤ m := hm
    omega

theorem fresh_shared_empty (n : Nat) : shared.Fresh [""] n := by
  refine fun stems => List.nodup_cons.mpr ⟨fun h => ?_, nodup_nextAll_shared stems n⟩
  obtain ⟨stem, m, heq, -⟩ := exists_of_mem_nextAll_shared h
  have := congrArg String.toList heq
  simp [sharedId] at this

end IdSource

end SqlCanvas
