import SqlCanvas.Proofs.Grammar.Word
import SqlCanvas.Proofs.Pattern.Count
import SqlCanvas.Statement.Filter

/-!
# Written literals

The values that a comparison may be written with: `NULL`, the truth values, whole numbers in ASCII
digits, and strings in quotes. A string may hold anything, as it is sheltered by its quotes.
-/

namespace SqlCanvas

open Text Nesting Pattern

theorem sheltered_doubled {q : Char} (hq : isQuote q = true) (body : Text) :
    Sheltered (q :: (doubleQuotes q body ++ [q])) := by
  suffices ∀ front : Text, q ∉ front → Sheltered (q :: (front ++ (doubleQuotes q body ++ [q]))) by
    simpa using this [] (by simp)
  induction body with
  | nil => exact fun front hfront => .quoted hq hfront
  | cons c body ih =>
    intro front hfront
    by_cases hc : c = q
    · have := Sheltered.append (.quoted hq hfront) (ih [] (by simp))
      simpa [doubleQuotes, hc] using this
    · have := ih (front ++ [c]) (by simp [hfront, Ne.symm hc])
      simpa [doubleQuotes, hc] using this

inductive WrittenLiteral where
  | null (s : Spelling "NULL")
  | true (s : Spelling "TRUE")
  | false (s : Spelling "FALSE")
  | whole (negative : Bool) (digits : Text) (hne : digits ≠ [])
    (hdigits : ∀ c ∈ digits, c.isDigit = Bool.true) (hlength : digits.length ≤ Numeral.digitLimit)
  | string (quote : Char) (hquote : isQuote quote = Bool.true) (body : Text)

namespace WrittenLiteral

theorem isWord_of_isDigit {c : Char} (h : c.isDigit = Bool.true) : isWord c = Bool.true := by
  refine isWord_of_isAsciiAlphanumeric ?_
  simp [isAsciiAlphanumeric, toNat_of_isDigit h]

theorem not_isLetter_of_isDigit {l c : Char} (hl : IsCapital l) (h : c.isDigit = Bool.true) :
    Pattern.isLetter l c = Bool.false := by
  have h := toNat_of_isDigit h
  by_contra hletter
  obtain ⟨h₁, h₂⟩ := hl
  rcases isLetter_cases ⟨h₁, h₂⟩ (by simpa using hletter) with h' | h' | ⟨-, h'⟩ | ⟨-, h' | h'⟩
    | ⟨-, h'⟩ <;> omega

theorem not_spells_digits {k digits : Text} (hk : IsKeyword k)
    (h : ∀ c ∈ digits, c.isDigit = Bool.true) : ¬ Spells k digits := by
  intro hspells
  obtain ⟨l, k, rfl⟩ := List.exists_cons_of_ne_nil hk.1
  cases hspells with
  | cons hc _ =>
    rw [not_isLetter_of_isDigit (hk.2 l List.mem_cons_self) (h _ List.mem_cons_self)] at hc
    cases hc

def minus : Token :=
  .mark '-' (by decide)

@[simp] theorem minus_text : minus.text = ['-'] := rfl

def tokens : WrittenLiteral → List Token
  | null s => [s.token]
  | true s => [s.token]
  | false s => [s.token]
  | whole negative digits hne hdigits _ =>
    (if negative then [minus] else []) ++
      [.word digits ⟨hne, fun c hc => isWord_of_isDigit (hdigits c hc)⟩]
  | string _ hquote body => [.shelter _ (sheltered_doubled hquote body)]

def text (v : WrittenLiteral) : Text :=
  textOf v.tokens

def value : WrittenLiteral → Scalar
  | null _ => .null
  | true _ => .bool Bool.true
  | false _ => .bool Bool.false
  | whole negative digits _ _ _ => .int (Literal.signed negative (Numeral.value digits))
  | string _ _ body => .string (String.ofList body)

theorem solid (v : WrittenLiteral) : Solid v.tokens := by
  cases v with
  | null s => exact s.solid
  | true s => exact s.solid
  | false s => exact s.solid
  | string => exact .singleton rfl
  | whole negative digits hne hdigits =>
    have digits : Solid [Token.word digits ⟨hne, fun c hc => isWord_of_isDigit (hdigits c hc)⟩] :=
      .singleton rfl
    cases negative with
    | false => simpa [tokens] using digits
    | true =>
      have : Solid [minus] := .singleton rfl
      exact this.append digits (by simp [minus, Token.isWord])

theorem avoids (v : WrittenLiteral) : ∀ a ∈ v.tokens, a.Avoids reserved := by
  cases v with
  | null s => simpa [tokens] using s.avoids (by decide)
  | true s => simpa [tokens] using s.avoids (by decide)
  | false s => simpa [tokens] using s.avoids (by decide)
  | string => simp [tokens, Token.Avoids]
  | whole negative digits hne hdigits =>
    have keywords : ∀ k ∈ reserved, IsKeyword k.toList := by decide
    intro a ha
    rcases List.mem_append.mp ha with ha | ha
    · cases negative with
      | false => cases ha
      | true =>
        rw [List.mem_singleton.mp ha]
        exact (by decide : '-' ≠ ';')
    · rw [List.mem_singleton.mp ha]
      exact fun k hk => not_spells_digits (keywords k hk) hdigits

theorem unquote?_of_head {t : Text} (h : ∀ c ∈ t.head?, isQuote c = Bool.false) :
    Literal.unquote? t = none := by
  cases t with
  | nil => rfl
  | cons c t =>
    rw [Literal.unquote?, if_neg]
    simp [h c rfl]

theorem unquote?_doubled {q : Char} (hq : isQuote q = Bool.true) (body : Text) :
    Literal.unquote? (q :: (doubleQuotes q body ++ [q])) = some body := by
  rw [Literal.unquote?, if_pos ⟨hq, by simp⟩, List.dropLast_concat, undoubleQuotes_doubleQuotes]

theorem not_isQuote_of_isWord {c : Char} (h : isWord c = Bool.true) : isQuote c = Bool.false := by
  have := not_isSpecial_of_isWord h
  simp only [isSpecial, Bool.or_eq_false_iff] at this
  exact this.1.1

theorem read_keyword {k : String} (s : Spelling k) {v : Scalar}
    (hv : ∀ t : Text, upper t = k.toList → Literal.word? t = some v) :
    Literal.read s.text = .ok v := by
  have head : ∀ c ∈ s.text.head?, isQuote c = Bool.false := fun c hc =>
    not_isQuote_of_isWord (s.isName.2 c (List.mem_of_mem_head? hc))
  rw [Literal.read, unquote?_of_head head, hv s.text s.upper_text]

/-- The digits of a whole number behind its sign. -/
def signText (negative : Bool) : Text :=
  if negative then ['-'] else []

theorem head_sign (negative : Bool) {r : Text} (hr : ∀ c ∈ r.head?, c.isDigit = Bool.true) :
    ∀ c ∈ (signText negative ++ r).head?, c = '-' ∨ c.isDigit = Bool.true := by
  cases negative with
  | false => exact fun c hc => .inr (hr c hc)
  | true => exact fun c hc => .inl (Option.some.inj hc).symm

theorem head_digits {digits : Text} (h : ∀ c ∈ digits, c.isDigit = Bool.true) (r : Text)
    (hne : digits ≠ []) : ∀ c ∈ (digits ++ r).head?, c.isDigit = Bool.true := by
  obtain ⟨c, digits, rfl⟩ := List.exists_cons_of_ne_nil hne
  exact fun d hd => Option.some.inj hd ▸ h c List.mem_cons_self

theorem unquote?_number {t : Text} (h : ∀ c ∈ t.head?, c = '-' ∨ c.isDigit = Bool.true) :
    Literal.unquote? t = none := by
  refine unquote?_of_head fun c hc => ?_
  rcases h c hc with rfl | hdigit
  · decide
  · exact not_isQuote_of_isWord (isWord_of_isDigit hdigit)

theorem word?_number {t : Text} (h : ∀ c ∈ t.head?, c = '-' ∨ c.isDigit = Bool.true) :
    Literal.word? t = none := by
  cases t with
  | nil => rfl
  | cons c t =>
    have hc := h c rfl
    have plain : upperChar c = [c] := by
      have code : c.toNat < 58 := by
        rcases hc with rfl | hdigit
        · decide
        · have := toNat_of_isDigit hdigit
          omega
      rw [upperChar, if_pos (by omega), if_neg (by omega)]
    have head : c ≠ 'N' ∧ c ≠ 'T' ∧ c ≠ 'F' := by
      refine ⟨?_, ?_, ?_⟩ <;> rintro rfl <;> revert hc <;> decide
    rw [Literal.word?, upper, List.flatMap_cons, plain]
    split
    · rename_i heq
      have := congrArg String.toList heq
      simp [head] at this
    · rename_i heq
      have := congrArg String.toList heq
      simp [head] at this
    · rename_i heq
      have := congrArg String.toList heq
      simp [head] at this
    · rfl

theorem isDecimal_of_isDigit {c : Char} (h : c.isDigit = Bool.true) : isDecimal c = Bool.true := by
  rw [isDecimal, Numeral.digitValue?_of_isDigit h]
  rfl

theorem exists_sign (negative : Bool) {r : Text} (hr : ∀ c ∈ r.head?, c.isDigit = Bool.true) :
    ∃ m : Marking, (Pattern.maybe (.capture 1 (.exactly '-'))).Takes none (signText negative) r m ∧
      (m.find? 1).isSome = negative := by
  cases negative with
  | true => exact ⟨_, ((takes_exactly '-').capture 1).maybe, rfl⟩
  | false =>
    refine ⟨[], takes_maybe_nothing ((refuses_exactly fun hminus => ?_).capture 1), rfl⟩
    have := hr '-' hminus
    revert this
    decide

theorem exists_integer (negative : Bool) {digits : Text} (hne : digits ≠ [])
    (h : ∀ c ∈ digits, c.isDigit = Bool.true) :
    ∃ m, Literal.integer.match? (signText negative ++ digits) = some m ∧
      (m.capture? 1).isSome = negative ∧ m.captured 2 = digits := by
  have number (b : Option Char) := (takes_many1 (b := b) (r := []) hne
    (fun c hc => isDecimal_of_isDigit (h c hc)) (halts_nil _)).capture 2
  obtain ⟨m₁, hsign, h₁⟩ := exists_sign negative (head_digits h [] hne)
  have taken := Takes.all_cons (v := digits ++ []) (r := []) (by simpa using hsign)
    (Takes.all_cons (v := []) (r := []) (number _) (Takes.all_cons takes_textEnd takes_all_nil))
  obtain ⟨m, found, -, hcapture⟩ := match?_start_of_takes (w := Literal.integer)
    (t := signText negative ++ digits) rfl (by simp) taken
  refine ⟨m, found, ?_, ?_⟩
  · rw [hcapture]
    simpa using h₁
  · rw [Match.captured, hcapture]
    simp

theorem read_text (v : WrittenLiteral) : Literal.read v.text = .ok v.value := by
  cases v with
  | null s =>
    have := read_keyword s (v := .null) fun t ht => by rw [Literal.word?, ht]; rfl
    simpa [text, tokens, value] using this
  | true s =>
    have := read_keyword s (v := .bool Bool.true) fun t ht => by rw [Literal.word?, ht]; rfl
    simpa [text, tokens, value] using this
  | false s =>
    have := read_keyword s (v := .bool Bool.false) fun t ht => by rw [Literal.word?, ht]; rfl
    simpa [text, tokens, value] using this
  | string quote hquote body =>
    have : text (.string quote hquote body) = quote :: (doubleQuotes quote body ++ [quote]) := by
      simp [text, tokens]
    rw [this, Literal.read, unquote?_doubled hquote]
    rfl
  | whole negative digits hne hdigits hlength =>
    have shown : text (.whole negative digits hne hdigits hlength) = signText negative ++
        digits := by
      cases negative with
      | true => exact congrArg ('-' :: ·) (List.append_nil digits)
      | false => exact List.append_nil digits
    have head : ∀ c ∈ (signText negative ++ digits).head?, c = '-' ∨ c.isDigit = Bool.true :=
      head_sign negative (by simpa using head_digits hdigits [] hne)
    obtain ⟨m, hm, hsign, hnumber⟩ := exists_integer negative hne hdigits
    rw [shown, Literal.read, unquote?_number head, word?_number head, hm]
    simp only [hsign, hnumber]
    rw [readWhole, if_pos hlength]
    rfl

end WrittenLiteral

end SqlCanvas
