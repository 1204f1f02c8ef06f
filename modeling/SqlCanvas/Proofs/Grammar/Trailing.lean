import SqlCanvas.Proofs.Grammar.Listing

/-!
# Written orderings and row limits

The items behind `ORDER BY`, and the numbers behind `LIMIT`, `OFFSET` and `FETCH`.
-/

namespace SqlCanvas

open Text Nesting Pattern

def directionWords : List String :=
  ["ASC", "DESC"]

structure WrittenDirection where
  gap : Gap
  keyword : String
  mem : keyword ∈ directionWords
  word : Spelling keyword

structure WrittenOrder where
  column : Ref
  direction : Option WrittenDirection

namespace WrittenOrder

def directionTokens (o : WrittenOrder) : List Token :=
  match o.direction with
  | some d => [d.gap.token, d.word.token]
  | none => []

def item (o : WrittenOrder) : Item where
  tokens := o.column.tokens ++ o.directionTokens
  solid := by
    obtain ⟨x, d⟩ := o
    cases d with
    | none => simpa [directionTokens] using x.solid
    | some d => exact x.solid.spaced d.word.solid d.gap
  avoids := fun a ha => by
    have others : ∀ k ∈ directionWords, ∀ k' ∈ reserved.filter (· ≠ "AS"), IsKeyword k'.toList ∧
        k' ≠ k := by
      decide
    rcases List.mem_append.mp ha with ha | ha
    · exact o.column.dotted.avoids (List.filter_subset_self _) a ha
    · cases h : o.direction with
      | none => simp [directionTokens, h] at ha
      | some d =>
        have ha : a = d.gap.token ∨ a = d.word.token := by simpa [directionTokens, h] using ha
        rcases ha with rfl | rfl
        · trivial
        · exact d.word.avoids (others d.keyword d.mem)
  noComma := fun a ha => by
    rcases List.mem_append.mp ha with ha | ha
    · exact o.column.dotted.noComma a ha
    · cases h : o.direction with
      | none => simp [directionTokens, h] at ha
      | some d =>
        have ha : a = d.gap.token ∨ a = d.word.token := by simpa [directionTokens, h] using ha
        rcases ha with rfl | rfl <;> trivial

theorem exists_direction : ∀ k ∈ directionWords, (Vocabulary.read? (α := Direction) k).isSome := by
  decide

def readDirection (o : WrittenOrder) : Direction :=
  match o.direction with
  | some d => (Vocabulary.read? d.keyword).get (exists_direction d.keyword d.mem)
  | none => .ascending

theorem not_isBlank_ref {x : Ref} {c : Char} (hc : c ∈ x.text) : isBlank c = false := by
  by_contra h
  have h : isBlank c = true := by simpa using h
  refine x.not_mem (not_isWord_of_isBlank h) ?_ hc
  rintro rfl
  exact absurd h (by decide)

def behind : Pattern :=
  .all [.maybe (.seq blank (.capture 2 (.oneOf (directionWords.map word)))),
    .maybe (.all [blank, word "NULLS", blank, .oneOf [word "FIRST", word "LAST"]]), .textEnd]

theorem refuses_behind {b : Option Char} {c : Char} {t : Text} (h : isBlank c = false) :
    behind.Refuses b (c :: t) := by
  have blank : Halts isBlank (c :: t) := halts_cons.mpr h
  refine ((refuses_blank blank).seq_left _).maybe_seq
    (((refuses_blank blank).seq_left _).maybe_seq ?_)
  refine (refuses_textEnd (List.cons_ne_nil _ _) ?_).seq_left _
  rintro ⟨⟩
  exact absurd h (by decide)

theorem takes_behind (o : WrittenOrder) (b : Option Char) :
    behind.Takes b (textOf o.directionTokens) []
      ((o.direction.map fun d => (2, d.word.text)).toList) := by
  have last (b : Option Char) : (all [.maybe (.all [blank, word "NULLS", blank,
      .oneOf [word "FIRST", word "LAST"]]), .textEnd]).Takes b [] [] [] :=
    Takes.all_cons (u := []) (v := []) (r := [])
      (takes_maybe_nothing ((refuses_blank (halts_nil _)).seq_left _))
      (Takes.all_cons (v := []) (r := []) takes_textEnd takes_all_nil)
  cases h : o.direction with
  | none =>
    have := Takes.all_cons (b := b) (u := []) (v := []) (r := [])
      (takes_maybe_nothing (p := .seq blank (.capture 2 (.oneOf (directionWords.map word))))
        ((refuses_blank (halts_nil _)).seq_left _)) (last _)
    simpa [directionTokens, h, behind] using this
  | some d =>
    obtain ⟨gap, keyword, mem, w⟩ := d
    have choice (b : Option Char) : (oneOf (directionWords.map word)).Takes b w.text [] [] := by
      simp only [directionWords, List.mem_cons, List.not_mem_nil, or_false] at mem
      rcases mem with rfl | rfl
      · exact takes_oneOf_head (takes_word w.spells)
      · have first : (word "ASC").Refuses b (w.text ++ []) :=
          refuses_phrase (show IsPhrase ["ASC"] by decide) (show IsPhrase ["DESC"] by decide)
            (by decide) (covers_word.mpr w.spells)
        exact takes_oneOf (List.forall_mem_singleton.mpr first) (takes_word w.spells)
    have := Takes.all_cons (b := b) (v := []) (r := [])
      ((takes_blank gap.isGap (by simpa using w.isName.halts_isBlank [])).seq
        ((choice _).capture 2)).maybe (last _)
    exact this.congr (by simp [directionTokens, h]) rfl

theorem exists_item (o : WrittenOrder) : ∃ m, Select.orderItem.match? o.item.text = some m ∧
    m.captured 1 = o.column.text ∧ m.capture? 2 = o.direction.map fun d => d.word.text := by
  have taken := takes_few1_seq (b := none) (v := textOf o.directionTokens) (r := []) (q := behind)
    o.column.isName_ne_nil
    (show ∀ c ∈ o.column.text, (!isBlank c) = true from fun c hc => by simp [not_isBlank_ref hc]) 1
    (fun x y hxy _ hy => by
      obtain ⟨c, y, rfl⟩ := List.exists_cons_of_ne_nil hy
      exact refuses_behind (not_isBlank_ref (x := o.column) (by rw [hxy]; simp)))
    (o.takes_behind _)
  have written : o.item.text = o.column.text ++ textOf o.directionTokens ++ [] := by
    simp only [item, Item.text, textOf_append, List.append_nil]
    rfl
  obtain ⟨m, found, -, hcapture⟩ := match?_start_of_takes (w := Select.orderItem) rfl written taken
  refine ⟨m, found, ?_, ?_⟩
  · rw [Match.captured, hcapture]
    cases o.direction <;> simp
  · rw [hcapture]
    cases o.direction <;> simp

theorem readOrderItem_eq (o : WrittenOrder) (scope : Scope) (aliases : List Text) :
    Select.readOrderItem? scope aliases o.item.text =
      some ⟨(scope.resolve aliases o.column.text).1,
        String.ofList (scope.resolve aliases o.column.text).2, o.readDirection⟩ := by
  obtain ⟨m, hm, h₁, h₂⟩ := o.exists_item
  rw [Select.readOrderItem?, hm, readDirection]
  simp only [Option.bind_eq_bind, Option.bind_some, h₁, h₂]
  cases h : o.direction with
  | none => rfl
  | some d =>
    obtain ⟨x, hx⟩ := Option.isSome_iff_exists.mp (exists_direction d.keyword d.mem)
    have keyword : canonicalKeyword d.word.text = d.keyword := by
      have := (Phrase.one d.word).canonicalKeyword
      simpa [Phrase.tokens] using this
    simp only [Option.map_some, keyword, hx, Option.get_some]
    rfl

end WrittenOrder

theorem Text.farBlanks_not_decimal : ∀ n ∈ farBlanks, 128 ≤ n ∧
    Table.decimalZeros.toList.find? (fun first => first ≤ n && n ≤ first + 9) = none := by
  decide +kernel

theorem Text.not_isDecimal_of_isBlank {c : Char} (h : isBlank c = true) : isDecimal c = false := by
  rw [isDecimal, digitValue?]
  rcases isBlank_cases h with h | h | h
  · simp only [show c.toNat < 128 by omega, if_true]
    rw [if_neg (by omega)]
    rfl
  · simp only [show c.toNat < 128 by omega, if_true]
    rw [if_neg (by omega)]
    rfl
  · obtain ⟨hfar, hnone⟩ := farBlanks_not_decimal c.toNat h
    rw [Array.find?_toList] at hnone
    simp only [Nat.not_lt.mpr hfar, if_false, hnone]
    rfl

/-- A whole number in ASCII digits that is short enough to be read. -/
structure WrittenNumber where
  digits : Text
  ne_nil : digits ≠ []
  isDigit : ∀ c ∈ digits, c.isDigit = true
  short : digits.length ≤ Numeral.digitLimit

namespace WrittenNumber

variable (n : WrittenNumber)

def value : Nat :=
  Numeral.value n.digits

theorem isName : IsName n.digits :=
  ⟨n.ne_nil, fun c hc => WrittenLiteral.isWord_of_isDigit (n.isDigit c hc)⟩

def token : Token :=
  .word n.digits n.isName

@[simp] theorem token_text : n.token.text = n.digits := rfl

theorem readWhole_eq : readWhole n.digits = .ok n.value := by
  rw [readWhole, if_pos n.short, value]

theorem avoids {keywords : List String} (h : ∀ k ∈ keywords, IsKeyword k.toList) :
    n.token.Avoids keywords :=
  fun k hk => WrittenLiteral.not_spells_digits (h k hk) n.isDigit

theorem takes (b : Option Char) {r : Text} (hr : Halts isDecimal r) :
    Pattern.digits.Takes b n.digits r [] :=
  takes_many1 n.ne_nil (fun c hc => WrittenLiteral.isDecimal_of_isDigit (n.isDigit c hc)) hr

theorem readLimit_eq : Select.readLimit n.digits = .ok ⟨some n.value, none⟩ := by
  have nothing {b : Option Char} : (Pattern.maybe (.all [blanks, .exactly ',', blanks,
      .capture 2 Pattern.digits])).Takes b [] [] [] := by
    refine takes_maybe_nothing (refuses_seq fun u v huv _ => ?_)
    obtain ⟨rfl, rfl⟩ := List.nil_eq_append_iff.mp huv
    exact (refuses_exactly (by simp)).seq_left _
  have taken :=
    Takes.all_cons (b := none) (v := []) (r := []) ((n.takes none (halts_nil _)).capture 1)
      (Takes.all_cons (u := []) (v := []) (r := []) nothing takes_all_nil)
  obtain ⟨m, found, -, hcapture⟩ :=
    match?_start_of_takes (w := Select.limitNumbers) (t := n.digits) rfl (by simp) taken
  have first : m.captured 1 = n.digits := by
    rw [Match.captured, hcapture]
    rfl
  have second : m.capture? 2 = none := by
    rw [hcapture]
    rfl
  rw [Select.readLimit, found]
  simp only [second, first, n.readWhole_eq]
  rfl

theorem readOffset_eq {r : Text} (hr : Halts isDecimal r) :
    Select.readNumber? Select.offsetNumber (n.digits ++ r) = .ok (some n.value) := by
  have taken :=
    Takes.all_cons (b := none) (v := []) (r := r) ((n.takes none (by simpa using hr)).capture 1)
      takes_all_nil
  obtain ⟨m, found, -, hcapture⟩ :=
    match?_start_of_takes (w := Select.offsetNumber) (t := n.digits ++ r) rfl (by simp) taken
  have first : m.captured 1 = n.digits := by
    rw [Match.captured, hcapture]
    rfl
  rw [Select.readNumber?, found]
  simp only [first, n.readWhole_eq]
  rfl

theorem readFetch_eq (next : Spelling "NEXT") (g : Gap) {r : Text} (hr : Halts isDecimal r) :
    Select.readNumber? Select.fetchNumber (next.text ++ (g.text ++ (n.digits ++ r))) =
      .ok (some n.value) := by
  have first (b : Option Char) (t : Text) : (oneOf [word "NEXT", word "FIRST"]).Takes b
      next.text t [] :=
    takes_oneOf_head (takes_word next.spells)
  have taken := Takes.all_cons (b := none) (first none _)
    (Takes.all_cons (takes_blank g.isGap (by simpa using n.isName.halts_isBlank r))
      (Takes.all_cons (v := []) (r := r) ((n.takes _ (by simpa using hr)).capture 1) takes_all_nil))
  obtain ⟨m, found, -, hcapture⟩ := match?_start_of_takes (w := Select.fetchNumber)
    (t := next.text ++ (g.text ++ (n.digits ++ r))) rfl (by simp) taken
  have captured : m.captured 1 = n.digits := by
    rw [Match.captured, hcapture]
    rfl
  rw [Select.readNumber?, found]
  simp only [captured, n.readWhole_eq]
  rfl

end WrittenNumber

end SqlCanvas
