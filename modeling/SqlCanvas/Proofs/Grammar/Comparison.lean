import SqlCanvas.Proofs.Grammar.Condition
import SqlCanvas.Proofs.Grammar.Select

/-!
# Written comparisons of columns

The parts of the conjunction behind `ON`: two qualified columns with a sign between them. A column
whose qualifier has a point in it makes no comparison.
-/

namespace SqlCanvas

open Text Nesting Pattern

/-- A column of a table, under the name by which the table is known. -/
structure Member where
  qualifier : Ident
  column : Ident

namespace Member

def ref (x : Member) : Ref :=
  ⟨some x.qualifier, x.column⟩

def tokens (x : Member) : List Token :=
  x.ref.tokens

theorem textOf_tokens (x : Member) : textOf x.tokens = x.qualifier.text ++ '.' :: x.column.text :=
  Ref.text_qualified _ _

theorem solid (x : Member) : Solid x.tokens :=
  x.ref.solid

theorem avoids (x : Member) : ∀ a ∈ x.tokens, a.Avoids reserved :=
  x.ref.dotted.avoids (List.Subset.refl _)

theorem takes (x : Member) (slot slot' : Nat) (b : Option Char) {r : Text} (hr : Halts isWord r) :
    (all [.capture slot name, .exactly '.', .capture slot' name]).Takes b (textOf x.tokens) r
      [(slot', x.column.text), (slot, x.qualifier.text)] := by
  have dot : Halts isWord (['.'] ++ (x.column.text ++ []) ++ r) := halts_cons.mpr (by decide)
  have := Takes.all_cons ((takes_name (b := b) x.qualifier.isName dot).capture slot)
    (Takes.all_cons (takes_exactly '.')
      (Takes.all_cons (v := []) (r := r)
        ((takes_name x.column.isName (by simpa using hr)).capture slot') takes_all_nil))
  exact this.congr (by simp [textOf_tokens]) rfl

end Member

structure WrittenComparison where
  left : Member
  before : Option Gap
  sign : String
  mem : sign ∈ Filter.signs
  after : Option Gap
  right : Member

namespace WrittenComparison

def tokens (c : WrittenComparison) : List Token :=
  c.left.tokens ++
    (blankTokens c.before ++ (signTokens c.sign (Filter.isMark_of_mem_signs c.sign c.mem).2 ++
    (blankTokens c.after ++ c.right.tokens)))

def operator (c : WrittenComparison) : Comparison :=
  (Filter.comparison? c.sign).get (WrittenTail.exists_comparison c.sign c.mem)

theorem solid (c : WrittenComparison) : Solid c.tokens := by
  obtain ⟨hne, marks⟩ := Filter.isMark_of_mem_signs c.sign c.mem
  have mark (a : Token) (ha : a ∈ signTokens c.sign marks) : a.isWord = false := by
    obtain ⟨d, -, hd, rfl⟩ := mem_signTokens ha
    rfl
  have right : Solid (signTokens c.sign marks ++ (blankTokens c.after ++ c.right.tokens)) :=
    (solid_signTokens hne marks).glue c.right.solid c.after fun _ a ha b _ => by
      rw [mark a (List.mem_of_mem_getLast? ha), Bool.false_and]
  refine c.left.solid.glue right c.before fun _ a _ b hb => ?_
  rw [List.head?_append_of_ne_nil _ (solid_signTokens hne marks).ne_nil] at hb
  rw [mark b (List.mem_of_mem_head? hb), Bool.and_false]

theorem avoids (c : WrittenComparison) : ∀ a ∈ c.tokens, a.Avoids reserved := by
  intro a ha
  have blank {g : Option Gap} (h : a ∈ blankTokens g) : a.Avoids reserved := by
    cases g with
    | none => simp [blankTokens] at h
    | some g =>
      obtain rfl : a = g.token := by simpa [blankTokens] using h
      trivial
  simp only [tokens, List.mem_append] at ha
  rcases ha with ha | ha | ha | ha | ha
  · exact c.left.avoids a ha
  · exact blank ha
  · obtain ⟨d, hmem, hd, rfl⟩ := mem_signTokens ha
    exact Filter.ne_semicolon_of_mem_signs c.sign c.mem d hmem
  · exact blank ha
  · exact c.right.avoids a ha

def conjunct (c : WrittenComparison) : Conjunct where
  tokens := c.tokens
  solid := c.solid
  avoids := c.avoids
  unwrapped := by
    rw [tokens, textOf_append, List.head?_append_of_ne_nil _ c.left.solid.textOf_ne_nil]
    exact c.left.ref.head_ne (by decide)

theorem exists_predicate (c : WrittenComparison) :
    ∃ m, Select.joinPredicate.match? c.conjunct.text = some m ∧
    m.captured 1 = c.left.qualifier.text ∧ m.captured 2 = c.left.column.text ∧
    m.captured 3 = c.sign.toList ∧ m.captured 4 = c.right.qualifier.text ∧
    m.captured 5 = c.right.column.text := by
  obtain ⟨hne, marks⟩ := Filter.isMark_of_mem_signs c.sign c.mem
  have hne : c.sign.toList ≠ [] := by simpa using hne
  have signHalts {accepts : Char → Bool} (h : ∀ d ∈ c.sign.toList, accepts d = false) (r : Text) :
      Halts accepts (c.sign.toList ++ r) := (halts_append hne r).mpr (halts_of_forall h)
  have before (r : Text) : Halts isWord (textOf (blankTokens c.before) ++
      (c.sign.toList ++ r)) := by
    cases c.before with
    | none => exact signHalts (fun d hd => (marks d hd).1) r
    | some g => simpa [blankTokens] using g.isGap.halts_isWord _
  have right : Halts isBlank (textOf c.right.tokens) := by
    simpa using c.right.solid.halts_isBlank []
  have goes : ¬ Filter.Goes (textOf (blankTokens c.after) ++ textOf c.right.tokens) := by
    refine Filter.not_goes_append (isBlank_of_blankTokens c.after) ?_
    rw [c.right.textOf_tokens]
    exact Filter.not_goes_of_isName c.right.qualifier.isName _
  have last := Takes.all_append
    (b := lastChar (lastChar (lastChar (lastChar none (textOf c.left.tokens))
      (textOf (blankTokens c.before))) c.sign.toList) (textOf (blankTokens c.after)))
    (v := []) (r := []) (c.right.takes 4 5 _ (halts_nil _))
      (Takes.all_cons (v := []) (r := []) takes_textEnd takes_all_nil)
  have middle := Takes.all_cons (takes_blanks (b := lastChar none (textOf c.left.tokens))
      (isBlank_of_blankTokens c.before) (by simpa using signHalts (fun d hd => (marks d hd).2.1) _))
    (Takes.all_cons ((Filter.takes_signs c.mem _ (by simpa using goes)).capture 3)
      (Takes.all_cons (takes_blanks (isBlank_of_blankTokens c.after) (by simpa using right)) last))
  have taken := Takes.all_append (c.left.takes 1 2 none (by simpa using before _)) middle
  obtain ⟨m, found, -, hcapture⟩ :=
    match?_start_of_takes (w := Select.joinPredicate) (t := c.conjunct.text) rfl
    (by simp [conjunct, Conjunct.text, tokens, textOf_signTokens]) taken
  refine ⟨m, found, ?_, ?_, ?_, ?_, ?_⟩
  all_goals
    rw [Match.captured, hcapture]
    rfl

def predicate (c : WrittenComparison) (lookup : Lookup) : Select.OnPredicate where
  left := lookup.find? c.left.qualifier.text
  leftColumn := String.ofList c.left.column.text
  operator := c.operator
  right := lookup.find? c.right.qualifier.text
  rightColumn := String.ofList c.right.column.text

theorem read?_eq (c : WrittenComparison) (lookup : Lookup) :
    Select.OnPredicate.read? lookup c.conjunct.text = some (c.predicate lookup) := by
  obtain ⟨m, hm, h₁, h₂, h₃, h₄, h₅⟩ := c.exists_predicate
  obtain ⟨x, hx⟩ := Option.isSome_iff_exists.mp (WrittenTail.exists_comparison c.sign c.mem)
  rw [Select.OnPredicate.read?, c.conjunct.stripParens_text, hm, predicate, operator]
  simp only [Option.bind_eq_bind, Option.bind_some, h₁, h₂, h₃, h₄, h₅, String.ofList_toList, hx,
    Option.get_some]
  rfl

end WrittenComparison

end SqlCanvas
