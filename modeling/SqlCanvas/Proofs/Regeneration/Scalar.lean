import SqlCanvas.Proofs.Number.Places
import SqlCanvas.Proofs.Regeneration.Predicate

/-!
# Values read back

What a value is read as after it was written. Null, truth values, whole numbers and strings come
back. A double does when it is written in places; one with an exponent matches no pattern for
numbers and comes back as a string.
-/

namespace SqlCanvas

open Text Pattern

namespace WrittenLiteral

theorem exists_fractional (negative : Bool) {whole fraction : Text} (hwhole : IsDigits whole)
    (hfraction : IsDigits fraction) :
    ∃ m, Literal.fractional.match? (signText negative ++ (whole ++ '.' :: fraction)) = some m ∧
      (m.capture? 1).isSome = negative ∧ m.captured 2 = whole ∧ m.captured 3 = fraction := by
  have before (b : Option Char) := (takes_many1 (b := b) (r := '.' :: fraction) hwhole.1
    (fun c hc => isDecimal_of_isDigit (hwhole.2 c hc)) (halts_cons.mpr (by decide))).capture 2
  have behind (b : Option Char) := (takes_many (b := b) (r := [])
    (fun c hc => isDecimal_of_isDigit (hfraction.2 c hc)) (halts_nil _)).capture 3
  have number (b : Option Char) :=
    Takes.all_cons (v := '.' :: fraction) (r := []) (by simpa using before b)
      ((takes_exactly '.').all_cons (v := fraction) (r := []) (behind _).all_last)
  have either (b : Option Char) :
      (Pattern.oneOf [.all [.capture 2 digits, .exactly '.', .capture 3 (.many isDecimal)],
        .all [.exactly '.', .capture 3 digits]]).Takes b (whole ++ '.' :: fraction) [] _ :=
    takes_oneOf_head (number b)
  obtain ⟨m₁, hsign, h₁⟩ := exists_sign negative (head_digits hwhole.2 ('.' :: fraction) hwhole.1)
  have taken :=
    Takes.all_cons (v := whole ++ '.' :: fraction ++ []) (r := []) (by simpa using hsign)
      (Takes.all_cons (v := []) (r := []) (by simpa using either _)
        (Takes.all_cons takes_textEnd takes_all_nil))
  obtain ⟨m, found, -, hcapture⟩ := match?_start_of_takes (w := Literal.fractional)
    (t := signText negative ++ (whole ++ '.' :: fraction)) rfl (by simp) taken
  refine ⟨m, found, ?_, ?_, ?_⟩
  · rw [hcapture]
    simpa using h₁
  · rw [Match.captured, hcapture]
    simp
  · rw [Match.captured, hcapture]
    simp

theorem integer_eq_none {t : Text} (h : '.' ∈ t ∨ 'e' ∈ t) : Literal.integer.match? t = none := by
  rcases h with h | h
  · exact match?_eq_none_of_count (by decide) (by decide) (n := 0) (by decide)
      (List.count_pos_iff.mpr h)
  · exact match?_eq_none_of_count (by decide) (by decide) (n := 0) (by decide)
      (List.count_pos_iff.mpr h)

theorem read_fractional (negative : Bool) {whole fraction : Text} (hwhole : IsDigits whole)
    (hfraction : IsDigits fraction) :
    Literal.read (signText negative ++ (whole ++ '.' :: fraction)) =
      .ok (.float (.ofDigits negative whole fraction 0)) := by
  have head := head_sign negative (head_digits hwhole.2 ('.' :: fraction) hwhole.1)
  obtain ⟨m, hm, hsign, hbefore, hbehind⟩ := exists_fractional negative hwhole hfraction
  rw [Literal.read, unquote?_number head, word?_number head, integer_eq_none (.inl (by simp)), hm]
  simp only [hsign, hbefore, hbehind]

/-- The patterns for numbers know no exponent. -/
theorem read_marked (negative : Bool) {c : Char} {t : Text} (hc : c.isDigit = Bool.true)
    (ht : 'e' ∈ t) :
    Literal.read (signText negative ++ c :: t) =
      .ok (.string (String.ofList (signText negative ++ c :: t))) := by
  have head := head_sign negative (r := c :: t) fun d hd => Option.some.inj hd ▸ hc
  have mark : 'e' ∈ signText negative ++ c :: t :=
    List.mem_append_right _ (List.mem_cons_of_mem c ht)
  have fractional : Literal.fractional.match? (signText negative ++ c :: t) = none :=
    match?_eq_none_of_count (by decide) (by decide) (n := 0) (by decide)
      (List.count_pos_iff.mpr mark)
  rw [Literal.read, unquote?_number head, word?_number head, integer_eq_none (.inr mark),
    fractional]

end WrittenLiteral

namespace Binary64

theorem read_text_of_inPlaces {x : Binary64} (h : x.InPlaces) :
    Literal.read x.text = .ok (.float x) := by
  cases x with
  | nan => exact h.elim
  | infinite => exact h.elim
  | finite negative m e hc =>
    obtain ⟨whole, fraction, htext, hwhole, hfraction, hvalue⟩ := exists_text_of_inPlaces h
    have := WrittenLiteral.read_fractional negative hwhole hfraction
    rw [hvalue] at this
    exact htext ▸ this

theorem read_text_of_not_inPlaces {x : Binary64} (hx : x.isFinite = true) (h : ¬ x.InPlaces) :
    Literal.read x.text = .ok (.string (String.ofList x.text)) := by
  cases x with
  | nan => cases hx
  | infinite => cases hx
  | finite negative m e hc =>
    obtain ⟨c, t, htext, hdigit, hmark⟩ := exists_text_of_not_inPlaces h
    have := WrittenLiteral.read_marked negative hdigit hmark
    exact htext ▸ this

end Binary64

/-- Null, truth values, whole numbers that are not too long, strings and finite doubles. -/
inductive Scalar.IsPlain : Scalar → Prop
  | literal {v : Scalar} (h : v.IsLiteral) : IsPlain v
  | double {x : Binary64} (h : x.isFinite = true) : IsPlain (.float x)

theorem Scalar.IsLiteral.read_eq {v : Scalar} (h : v.IsLiteral) : Literal.read v.sql = .ok v := by
  obtain ⟨l, htext, hvalue⟩ := h.exists_written
  rw [← htext, l.read_text, hvalue]

/-- A value comes back as it was unless it is a double with an exponent, and that comes back as the
string of its digits. -/
theorem Scalar.read_sql_iff {v : Scalar} (hv : v.IsPlain) :
    (Literal.read v.sql = .ok v ↔ ∀ x, v = .float x → x.InPlaces) ∧
      ∀ x, v = .float x → ¬ x.InPlaces →
      Literal.read v.sql = .ok (.string (String.ofList v.sql)) := by
  cases hv with
  | literal h =>
    have float (x : Binary64) : v ≠ .float x := by
      rintro rfl
      cases h
    exact ⟨⟨fun _ x hx => absurd hx (float x), fun _ => h.read_eq⟩, fun x hx => absurd hx (float x)⟩
  | @double x hx =>
    have shown : ¬ x.InPlaces →
        Literal.read (Scalar.float x).sql = .ok (.string (String.ofList (Scalar.float x).sql)) :=
      x.read_text_of_not_inPlaces hx
    constructor
    · constructor
      · rintro hread y ⟨⟩
        by_contra hplaces
        rw [shown hplaces] at hread
        cases hread
      · intro h
        exact x.read_text_of_inPlaces (h x rfl)
    · rintro y ⟨⟩ hplaces
      exact shown hplaces

/-- One and a half comes back, ten to the sixteenth comes back as a string. -/
theorem Scalar.read_sql_iff_bounds :
    Literal.read (Scalar.float (.finite false 6755399441055744 (-52) (by decide))).sql =
        .ok (.float (.finite false 6755399441055744 (-52) (by decide))) ∧
      Literal.read (Scalar.float (.finite false 5000000000000000 1 (by decide))).sql =
        .ok (.string "1e+16") := by
  have large : ¬ (Binary64.finite false 5000000000000000 1 (by decide)).InPlaces := by
    rintro (hzero | ⟨-, hbound⟩)
    · cases hzero
    · rw [Binary64.magnitude] at hbound
      norm_num at hbound
  constructor
  · refine (read_sql_iff (.double rfl)).1.mpr ?_
    rintro x ⟨⟩
    refine .inr ⟨?_, ?_⟩
    · rw [Binary64.magnitude]
      norm_num
    · rw [Binary64.magnitude]
      norm_num
  · refine ((read_sql_iff (.double rfl)).2 _ rfl large).trans ?_
    decide +kernel

end SqlCanvas
