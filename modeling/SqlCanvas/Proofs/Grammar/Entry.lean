import SqlCanvas.Proofs.Grammar.Condition
import SqlCanvas.Proofs.Statement.Lead

/-!
# Entries of a `WITH` clause

An entry is a word, `AS` and a closed text in parentheses. Nothing more is asked of its name: the
reader finds the entries of a clause where any word names them, if only the first one is not
`RECURSIVE`.
-/

namespace SqlCanvas

open Text Nesting Pattern

structure Entry where
  name : Text
  isName : IsName name
  inside : Text
  closed : Closed inside
  before : Gap
  keyword : Spelling "AS"
  after : Gap
  /-- The gap behind the comma in front of the entry, if it is not the first one. -/
  apart : Gap

namespace Entry

def front (e : Entry) : Text :=
  e.name ++ (e.before.text ++ (e.keyword.text ++ e.after.text))

def text (e : Entry) : Text :=
  e.front ++ '(' :: (e.inside ++ [')'])

def cut (e : Entry) : Text × Text :=
  (e.name, e.inside)

theorem exists_head (e : Entry) {g : Text} (hg : ∀ c ∈ g, isBlank c = true) (r : Text) :
    ∃ m, commonTableHead.match? (g ++ (e.front ++ '(' :: r)) = some m ∧
      m.stop = (g ++ e.front).length + 1 ∧ m.captured 1 = e.name := by
  have noList (b : Option Char) (t : Text) : (Pattern.maybe (.all [.exactly '(',
      .many fun c => c != '(' && c != ')', .exactly ')', blanks])).Takes b [] (e.keyword.text ++ t)
        [] := by
    refine takes_maybe_nothing ((refuses_exactly fun h => ?_).seq_left _)
    rw [List.head?_append_of_ne_nil _ e.keyword.isName.1] at h
    exact not_mem_of_not_isWord e.keyword.isName (by decide) (List.mem_of_mem_head? h)
  have noMark (b : Option Char) (t : Text) : (Pattern.maybe (.all [.maybe (.seq (word "NOT") blank),
      word "MATERIALIZED", blanks])).Takes b [] ('(' :: t) [] := by
    have halts : Halts isWord ('(' :: t) := halts_cons.mpr (by decide)
    exact takes_maybe_nothing (((refuses_word_of_halts (by decide) halts).seq_left _).maybe_seq
      ((refuses_word_of_halts (by decide) halts).seq_left _))
  have := Takes.all_cons (b := none) (v := e.name ++ (e.before.text ++ ([] ++ (e.keyword.text ++
      (e.after.text ++ ([] ++ (['('] ++ []))))))) (r := r)
    (takes_blanks hg (by simpa using e.isName.halts_isBlank _))
    (Takes.all_cons ((takes_name e.isName (by simpa using e.before.isGap.halts_isWord _)).capture 1)
      (Takes.all_cons
        (takes_blanks e.before.isGap.2 (by simpa using e.keyword.isName.halts_isBlank _))
        (Takes.all_cons (by simpa using noList _ _)
          (Takes.all_cons (takes_word e.keyword.spells)
            (Takes.all_cons (takes_blanks e.after.isGap.2 (halts_cons.mpr (by decide)))
              (Takes.all_cons (noMark _ _) (Takes.all_cons (takes_exactly '(') takes_all_nil)))))))
  obtain ⟨m, hm, hstop, hcapture⟩ := match?_of_takes this
  refine ⟨m, ?_, ?_, ?_⟩
  · rw [commonTableHead, ← hm]
    congr 1
    simp [front]
  · rw [hstop]
    simp only [front, List.length_append, List.length_nil, List.length_singleton]
    omega
  · rw [Match.captured, hcapture]
    rfl

theorem splitCommonTables_eq (e : Entry) {g : Text} (hg : ∀ c ∈ g, isBlank c = true) (r : Text) :
    splitCommonTables (g ++ (e.text ++ r)) =
      match leadingComma.match? r with
      | none => ([e.cut], r)
      | some comma =>
        let (entries, rest) := splitCommonTables (r.drop comma.stop)
        (e.cut :: entries, rest) := by
  obtain ⟨m, hm, hstop, hname⟩ := e.exists_head hg (e.inside ++ ')' :: r)
  have whole : g ++ (e.text ++ r) = g ++ (e.front ++ '(' :: (e.inside ++ ')' :: r)) := by
    simp [text]
  have opening : m.stop - 1 = (g ++ e.front).length := by
    rw [hstop]
    rfl
  have dropped : (g ++ (e.front ++ '(' :: (e.inside ++ ')' :: r))).drop (g ++ e.front).length =
      '(' :: (e.inside ++ ')' :: r) := by
    rw [← List.append_assoc, List.drop_left]
  -- The body is closed, so the parenthesis that the search finds is the one behind it.
  have closing := closingParen?_of_closed e.closed r
  have inside : (g ++ (e.front ++ '(' :: (e.inside ++ ')' :: r))).slice ((g ++ e.front).length + 1)
      ((g ++ e.front).length + (e.inside.length + 1)) = e.inside := by
    have := Text.slice_append (g ++ e.front ++ ['(']) e.inside (')' :: r)
    rw [List.length_append, List.length_singleton] at this
    simpa [Nat.add_assoc, Nat.add_comm 1] using this
  have behind : (g ++ (e.front ++ '(' :: (e.inside ++ ')' :: r))).drop
      ((g ++ e.front).length + (e.inside.length + 1) + 1) = r := by
    have : g ++ (e.front ++ '(' :: (e.inside ++ ')' :: r)) =
        (g ++ e.front ++ '(' :: (e.inside ++ [')'])) ++ r := by simp
    rw [this, List.drop_left' (by simp [Nat.add_assoc])]
  rw [whole, splitCommonTables, hm]
  simp only [opening, hname]
  split
  · rename_i hl
    rw [opening, dropped, closing] at hl
    cases hl
  · rename_i length hl
    rw [opening, dropped, closing] at hl
    cases hl
    rw [inside, behind]
    rfl

end Entry

def entriesText : Entry → List Entry → Text
  | e, [] => e.text
  | e, e' :: es => e.text ++ ',' :: (e'.apart.text ++ entriesText e' es)

theorem splitCommonTables_entriesText (e : Entry) (es : List Entry) {g r : Text}
    (hg : ∀ c ∈ g, isBlank c = true) (hr : leadingComma.Refuses none r) :
    splitCommonTables (g ++ (entriesText e es ++ r)) = ((e :: es).map Entry.cut, r) := by
  induction es generalizing e g with
  | nil =>
    have := e.splitCommonTables_eq hg r
    rw [match?_eq_none_of_refuses hr] at this
    exact this
  | cons e' es ih =>
    have comma := Takes.seq (b := none) (u := []) (v := [','])
      (r := e'.apart.text ++ (entriesText e' es ++ r))
      (takes_blanks (g := []) (by simp) (halts_cons.mpr (by decide))) (takes_exactly ',')
    obtain ⟨m, hm, hstop, -⟩ := match?_of_takes comma
    have hm : leadingComma.match? (',' :: (e'.apart.text ++ (entriesText e' es ++ r))) = some m :=
      hm
    have rest := ih e' e'.apart.isGap.2
    have whole : entriesText e (e' :: es) ++ r =
        e.text ++ (',' :: (e'.apart.text ++ (entriesText e' es ++ r))) := by
      simp [entriesText]
    rw [whole, e.splitCommonTables_eq hg, hm]
    simp only [hstop]
    change (_ :: (splitCommonTables (e'.apart.text ++ (entriesText e' es ++ r))).1,
      (splitCommonTables (e'.apart.text ++ (entriesText e' es ++ r))).2) = _
    rw [rest]
    rfl

theorem exists_entriesText (e : Entry) (es : List Entry) :
    ∃ t, entriesText e es = e.name ++ (e.before.text ++ t) := by
  cases es with
  | nil => exact ⟨_, by simp [entriesText, Entry.text, Entry.front]; rfl⟩
  | cons e' es => exact ⟨_, by simp [entriesText, Entry.text, Entry.front]; rfl⟩

theorem halts_isBlank_entriesText (e : Entry) (es : List Entry) (r : Text) :
    Halts isBlank (entriesText e es ++ r) := by
  obtain ⟨t, ht⟩ := exists_entriesText e es
  rw [ht, List.append_assoc]
  exact e.isName.halts_isBlank _

theorem entriesText_lines (e : Entry) {es : List Entry} (h : ∀ e ∈ es, e.apart = .line) :
    entriesText e es = ",\n".toList.intercalate ((e :: es).map Entry.text) := by
  induction es generalizing e with
  | nil => simp [entriesText]
  | cons e' es ih =>
    obtain ⟨he, hes⟩ := List.forall_mem_cons.mp h
    rw [List.map_cons, List.map_cons, List.intercalate_cons_cons, ← List.map_cons, ← ih e' hes]
    simp [entriesText, he, Gap.line]

/-- How the words of a `WITH` clause are written, and the gaps behind them and behind the last
query. -/
structure WithLayout where
  keyword : Spelling "WITH" := .capital "WITH" (by decide)
  gap : Gap := .space
  recursion : Spelling "RECURSIVE" := .capital "RECURSIVE" (by decide)
  recursionGap : Gap := .space
  last : Gap := .line

def recursionTokens (recursive : Bool) (layout : WithLayout := {}) : List Token :=
  if recursive then [layout.recursion.token, layout.recursionGap.token] else []

def withText (recursive : Bool) (e : Entry) (es : List Entry) (layout : WithLayout := {}) : Text :=
  layout.keyword.text ++ (layout.gap.text ++
    (textOf (recursionTokens recursive layout) ++ (entriesText e es ++ layout.last.text)))

section Head

variable {recursive : Bool} {e : Entry} (hfree : recursive = false →
  ¬ Spells "RECURSIVE".toList e.name) (es : List Entry) (layout : WithLayout)

include hfree

theorem exists_recursion (b : Option Char) (r : Text) : ∃ m : Marking,
    (Pattern.maybe (.capture 1 (.seq (word "RECURSIVE") blank))).Takes b
    (textOf (recursionTokens recursive layout))
      (entriesText e es ++ r) m ∧ (m.find? 1).isSome = recursive := by
  cases recursive with
  | false =>
    -- The name of the first entry is another word, so nothing is taken.
    obtain ⟨t, ht⟩ := exists_entriesText e es
    refine ⟨[], takes_maybe_nothing ?_, rfl⟩
    rw [ht, List.append_assoc, List.append_assoc]
    exact (refuses_word_seq (by decide) e.isName.2 (e.before.isGap.halts_isWord _)
      (hfree rfl) breaks_blank).capture 1
  | true =>
    have := (takes_word (b := b) layout.recursion.spells
      (r := layout.recursionGap.text ++ (entriesText e es ++ r))).seq
        (takes_blank layout.recursionGap.isGap (halts_isBlank_entriesText e es r))
    exact ⟨_, ((this.capture 1).maybe).congr (by simp [recursionTokens]) rfl, rfl⟩

theorem exists_withHead (r : Text) : ∃ m,
    withHead.match? (withText recursive e es layout ++ r) = some m ∧ (m.capture? 1).isSome =
      recursive ∧
      (withText recursive e es layout ++ r).drop m.stop = entriesText e es ++
        (layout.last.text ++ r) := by
  obtain ⟨marking, hmark, hm⟩ := exists_recursion hfree es layout
    (lastChar (lastChar none layout.keyword.text) layout.gap.text) (layout.last.text ++ r)
  have halts : Halts isBlank (textOf (recursionTokens recursive layout) ++ [] ++
      (entriesText e es ++ (layout.last.text ++ r))) := by
    cases recursive with
    | false => simpa [recursionTokens] using halts_isBlank_entriesText e es _
    | true => simpa [recursionTokens] using layout.recursion.isName.halts_isBlank _
  have := Takes.all_cons (u := []) (takes_blanks (b := none) (g := []) (by simp)
      (by simpa using layout.keyword.isName.halts_isBlank _))
    (Takes.all_cons (takes_word layout.keyword.spells)
      (Takes.all_cons (takes_blank layout.gap.isGap halts)
        (Takes.all_cons (v := []) (by simpa using hmark) takes_all_nil)))
  obtain ⟨found, hfound, hstop, hcapture⟩ := match?_start_of_takes (w := withHead) rfl rfl this
  have front : withText recursive e es layout ++ r =
      ([] ++
        (layout.keyword.text ++
          (layout.gap.text ++ (textOf (recursionTokens recursive layout) ++ [])))) ++
        (entriesText e es ++ (layout.last.text ++ r)) := by
    simp [withText]
  rw [front]
  refine ⟨found, hfound, ?_, ?_⟩
  · rw [hcapture]
    simpa using hm
  · rw [hstop, List.drop_left]

theorem splitWith_withText {r : Text} (hr : Halts isBlank r) (hcomma : r.head? ≠ some ',') :
    splitWith (withText recursive e es layout ++ r) =
      ⟨(e :: es).map Entry.cut, recursive, layout.last.text ++ r⟩ := by
  have comma : leadingComma.Refuses none (layout.last.text ++ r) := by
    refine refuses_blanks_seq hr layout.last.isGap.2 (fun b c t hc => refuses_exactly ?_)
      (refuses_exactly hcomma)
    rintro ⟨⟩
    exact absurd hc (by decide)
  have entries := splitCommonTables_entriesText e es (g := []) (by simp) comma
  obtain ⟨m, head, captured, behind⟩ := exists_withHead hfree es layout r
  rw [List.nil_append] at entries
  rw [splitWith, head]
  simp only [captured]
  rw [behind, entries]

end Head

end SqlCanvas
