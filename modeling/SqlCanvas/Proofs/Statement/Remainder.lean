import SqlCanvas.Proofs.Change.Lead
import SqlCanvas.Proofs.Statement.Terminator

/-!
# Remainders

From the end of a text go its blanks, then the semicolons in front of them, then the blanks in front
of those, and that is all. So the end of a statement disappears if its semicolons stand one right
after the other; else a remainder of it stays, which belongs to whatever the statement ends with.
-/

namespace SqlCanvas

open Text Nesting Pattern

/-- Semicolons one right after the other, with blanks around them. -/
def Text.IsTerminator (e : Text) : Prop :=
  ∃ g n g', e = g ++ (List.replicate n ';' ++ g') ∧ (∀ c ∈ g, isBlank c = true) ∧
  ∀ c ∈ g', isBlank c = true

/-- What stays of the end of a statement. -/
def Text.remainder (e : Text) : Text :=
  (e.trimEnd.dropEndWhile (· == ';')).trimEnd

@[simp] theorem Text.dropEndWhile_nil (drop : Char → Bool) : dropEndWhile drop [] = [] := rfl

theorem Text.dropEndWhile_append_of_forall {drop : Char → Bool} {u : Text}
    (h : ∀ c ∈ u, drop c = true) (t : Text) : (t ++ u).dropEndWhile drop = t.dropEndWhile drop := by
  rw [dropEndWhile, dropEndWhile, List.reverse_append,
    List.dropWhile_append_of_pos fun c hc => h c (List.mem_reverse.mp hc)]

theorem Text.dropEndWhile_of_forall {drop : Char → Bool} {u : Text} (h : ∀ c ∈ u, drop c = true) :
    u.dropEndWhile drop = [] :=
  dropEndWhile_append_of_forall h []

theorem Text.dropEndWhile_of_last {drop : Char → Bool} {u : Text}
    (h : ∀ c ∈ u.getLast?, drop c = false) : u.dropEndWhile drop = u := by
  by_cases hne : u = []
  · subst hne
    rfl
  · have := dropEndWhile_append hne h []
    rwa [dropEndWhile_nil, List.append_nil] at this

theorem Text.IsTerminator.remainder_eq_nil {e : Text} (h : IsTerminator e) : remainder e = [] := by
  obtain ⟨g, n, g', rfl, hg, hg'⟩ := h
  have semicolon {c : Char} (hc : c ∈ List.replicate n ';') : c = ';' := List.eq_of_mem_replicate hc
  have blanks : (g.dropEndWhile (· == ';')).trimEnd = [] :=
    dropEndWhile_of_forall fun c hc => hg c ((dropEndWhile_isPrefix _ g).subset hc)
  rw [remainder, ← List.append_assoc, trimEnd, trimEnd, dropEndWhile_append_of_forall hg']
  cases n with
  | zero =>
    rw [List.replicate_zero, List.append_nil, dropEndWhile_of_forall hg]
    rfl
  | succ n =>
    have last : ∀ c ∈ (g ++ List.replicate (n + 1) ';').getLast?, isBlank c = false := by
      intro c hc
      rw [List.getLast?_append_of_ne_nil _ (by simp)] at hc
      rw [semicolon (List.mem_of_mem_getLast? hc)]
      decide
    rw [dropEndWhile_of_last last, dropEndWhile_append_of_forall fun c hc => by simp [semicolon hc]]
    exact blanks

theorem Text.isTerminator_of_remainder {e : Text} (h : remainder e = []) : IsTerminator e := by
  obtain ⟨g', whole, hg'⟩ := exists_dropEndWhile_append isBlank e
  obtain ⟨marks, front, hmarks⟩ := exists_dropEndWhile_append (· == ';') e.trimEnd
  obtain ⟨g, rest, hg⟩ := exists_dropEndWhile_append isBlank (e.trimEnd.dropEndWhile (· == ';'))
  have nothing : (e.trimEnd.dropEndWhile (· == ';')).dropEndWhile isBlank = [] := h
  have semicolons : marks = List.replicate marks.length ';' :=
    List.eq_replicate_iff.mpr ⟨rfl, fun c hc => beq_iff_eq.mp (hmarks c hc)⟩
  rw [nothing, List.nil_append] at rest
  refine ⟨g, marks.length, g', ?_, hg, hg'⟩
  rw [← semicolons, ← rest, ← List.append_assoc, ← front]
  exact whole

/-- The end of a remainder is a semicolon, and more blanks or semicolons would go. -/
theorem Text.trimEnd_remainder (e : Text) : (remainder e).trimEnd = remainder e :=
  trimEnd_trimEnd _

theorem Text.remainder_isPrefix (e : Text) : remainder e <+: e :=
  ((dropEndWhile_isPrefix _ _).trans (dropEndWhile_isPrefix _ _)).trans (dropEndWhile_isPrefix _ _)

theorem Text.IsTerminator.trimStart {e : Text} (h : IsTerminator e) : IsTerminator e.trimStart := by
  obtain ⟨g, n, g', rfl, hg, hg'⟩ := h
  rw [Text.trimStart, List.dropWhile_append_of_pos hg]
  cases n with
  | zero =>
    exact ⟨[], 0, [], List.dropWhile_eq_nil_iff.mpr hg', List.forall_mem_nil _,
      List.forall_mem_nil _⟩
  | succ n => exact ⟨[], n + 1, g', rfl, List.forall_mem_nil _, hg'⟩

theorem stripTerminator_eq_remainder (t : Text) : stripTerminator t = remainder t.trimStart := by
  have halts : Halts isBlank (t.trim.dropEndWhile (· == ';')) :=
    halts_of_isPrefix (halts_trim t) (dropEndWhile_isPrefix _ _)
  rw [stripTerminator, trim, trimStart_of_halts halts]
  rfl

theorem stripTerminator_append {t : Text} (ht : t ≠ [])
    (hlast : ∀ c ∈ t.getLast?, isBlank c = false ∧ c ≠ ';') (e : Text) :
    stripTerminator (t ++ e) = t.trimStart ++ remainder e := by
  have whole : t.takeWhile isBlank ++ t.trimStart = t := List.takeWhile_append_dropWhile
  have core : t.trimStart ≠ [] := by
    intro h
    have blank := List.dropWhile_eq_nil_iff.mp h (t.getLast ht) (List.getLast_mem ht)
    rw [(hlast _ (List.getLast?_eq_some_getLast ht)).1] at blank
    cases blank
  have last : t.trimStart.getLast? = t.getLast? := by
    conv_rhs => rw [← whole]
    exact (List.getLast?_append_of_ne_nil _ core).symm
  have blank : ∀ c ∈ t.trimStart.getLast?, isBlank c = false := fun c hc => (hlast c (last ▸ hc)).1
  have semicolon : ∀ c ∈ t.trimStart.getLast?, (c == ';') = false :=
    fun c hc => beq_eq_false_iff_ne.mpr (hlast c (last ▸ hc)).2
  have front : (t ++ e).trimStart = t.trimStart ++ e := by
    conv_lhs => rw [← whole, List.append_assoc]
    exact trimStart_append (fun c hc => List.mem_takeWhile_imp hc)
      ((halts_append core e).mpr (halts_trimStart t))
  rw [stripTerminator_eq_remainder, front, remainder, trimEnd, trimEnd,
    dropEndWhile_append core blank, dropEndWhile_append core semicolon,
      dropEndWhile_append core blank]
  rfl

theorem stripTerminator_append_of_isTerminator {t e : Text}
    (hlast : ∀ c ∈ t.getLast?, isBlank c = false ∧ c ≠ ';') (he : IsTerminator e) :
    stripTerminator (t ++ e) = stripTerminator t := by
  by_cases ht : t = []
  · rw [ht, List.nil_append, stripTerminator_eq_remainder, he.trimStart.remainder_eq_nil]
    rfl
  · have bare := stripTerminator_append ht hlast []
    rw [List.append_nil] at bare
    rw [stripTerminator_append ht hlast e, he.remainder_eq_nil, bare]
    rfl

namespace Change

def alterKeyword : Spelling (Vocabulary.spelling StatementKind.alter) :=
  .capital "ALTER" (by decide)

def tableKeyword : Spelling "TABLE" :=
  .capital "TABLE" (by decide)

def addKeyword : Spelling "ADD" :=
  .capital "ADD" (by decide)

theorem readAlter?_add (t : TableName) {d : Text} (hd : Halts isBlank d) :
    readAlter? ("ALTER TABLE ".toList ++ (t.text ++ (" ADD ".toList ++ d))) =
      some ⟨String.ofList t.text, "ADD", String.ofList d.trim⟩ := by
  have definition {b : Option Char} : (Pattern.capture 3 (.many anything)).Takes b d [] [(3, d)] :=
    (takes_many (fun _ _ => rfl) (halts_nil _)).capture 3
  have behind {b : Option Char} :
      (all [blanks, .capture 3 (.many anything), .textEnd]).Takes b ([' '] ++ (d ++ [])) []
        [(3, d)] :=
    .all_pass (takes_blanks (by decide) (by simpa using hd))
      (Takes.all_cons (v := []) (r := []) definition takes_textEnd.all_last)
  have ended {b : Option Char} : boundary.Takes (lastChar b addKeyword.text) [] ([' '] ++
      (d ++ []) ++ []) [] := by
    obtain ⟨c, hc, hlast⟩ := lastChar_of_ne_nil addKeyword.isName.1 b
    exact takes_boundary_end ⟨c, hlast, addKeyword.isName.2 c hc⟩ (halts_cons.mpr (by decide))
  have action {b : Option Char} {r : Text} : (Pattern.capture 2 (oneOf
      (["ADD", "DROP", "MODIFY", "RENAME", "ALTER"].map word))).Takes b addKeyword.text r
        [(2, addKeyword.text)] :=
    (takes_oneOf_head (takes_word addKeyword.spells)).capture 2
  have change {b : Option Char} := Takes.all_cons (b := b) action (.all_pass ended behind)
  have table {b : Option Char} := Takes.all_cons (b := b)
    ((t.takes_identifier (halts_cons.mpr (by decide)) (by simp)).capture 1)
    (.all_pass (takes_blank Gap.space.isGap (by simpa using addKeyword.isName.halts_isBlank _))
      change)
  have tableHalts (r : Text) : Halts isBlank (t.text ++ r) := t.solid.halts_isBlank r
  have whole :=
    (takes_opening alterKeyword (by simpa using tableKeyword.isName.halts_isBlank _)).all_append
      ((takes_keyword tableKeyword (by simpa using tableHalts _)).all_append table)
  have front : "ALTER TABLE ".toList = alterKeyword.text ++ [' '] ++
      (tableKeyword.text ++ [' ']) := by
    decide
  have add : " ADD ".toList = [' '] ++ (addKeyword.text ++ [' ']) := by decide
  obtain ⟨found, matched, -, hcapture⟩ := match?_start_of_takes (w := alteration)
    (t := "ALTER TABLE ".toList ++ (t.text ++ (" ADD ".toList ++ d))) rfl
      (by rw [front, add]; simp [Gap.space]) whole
  rw [readAlter?, matched]
  simp only [Option.bind_eq_bind, Option.bind_some, Match.captured, hcapture]
  rfl

end Change

namespace Statement

theorem parse_add (t : TableName) {sql d : Text} (hd : Halts isBlank d)
    (hsql : stripTerminator sql = "ALTER TABLE ".toList ++ (t.text ++ (" ADD ".toList ++ d)))
    (start : Int) :
    ∃ s, parse (String.ofList sql) start = .ok s ∧
      s.alterTable = some ⟨String.ofList t.text, "ADD", String.ofList d.trim⟩ := by
  have := parse_stripped .alter (by decide) Change.alterKeyword
    (r := " TABLE ".toList ++ (t.text ++ (" ADD ".toList ++ d))) hsql
      (halts_cons.mpr (by decide)) start
  have body : Change.readAlter? (Change.alterKeyword.text ++
    (" TABLE ".toList ++ (t.text ++ (" ADD ".toList ++ d)))) =
      some ⟨String.ofList t.text, "ADD", String.ofList d.trim⟩ := Change.readAlter?_add t hd
  rw [this, Change.read, body]
  exact ⟨_, rfl, rfl⟩

/-- A text disappears behind every statement just when it is blanks and semicolons, and the
semicolons in it stand one right after the other. -/
theorem parse_append_iff (e : Text) :
    (∀ (t : Text) (start : Int), (∀ c ∈ t.getLast?, isBlank c = false ∧ c ≠ ';') →
      parse (String.ofList (t ++ e)) start = parse (String.ofList t) start) ↔ IsTerminator e := by
  constructor
  · intro h
    let table : TableName := ⟨⟨"t".toList, by decide, by decide⟩, none⟩
    let lead : Text := "ALTER TABLE t ADD ".toList
    -- What an `ALTER` statement adds goes to its end, so a remainder is seen in it.
    have added (e : Text) : ∃ s, parse (String.ofList (lead ++ ['x'] ++ e)) 1 = .ok s ∧
        s.alterTable = some ⟨"t", "ADD", String.ofList ('x' :: remainder e)⟩ := by
      have stripped := stripTerminator_append (t := lead ++ ['x']) (by decide) (by decide) e
      obtain ⟨s, hs, hadded⟩ :=
        parse_add table (d := 'x' :: remainder e) (halts_cons.mpr (by decide)) stripped 1
      have trimmed : trim ('x' :: remainder e) = 'x' :: remainder e := by
        rw [trim, trimStart_of_halts (halts_cons.mpr (by decide))]
        exact (dropEndWhile_append (t := ['x']) (by decide) (by decide) _).trans
          (congrArg _ (trimEnd_remainder e))
      exact ⟨s, hs, by rw [hadded, trimmed]; rfl⟩
    obtain ⟨s, hs, hadded⟩ := added e
    obtain ⟨s', hs', hadded'⟩ := added []
    have same := h (lead ++ ['x']) 1 (by decide)
    rw [← List.append_nil (lead ++ ['x']), hs', List.append_nil, hs] at same
    obtain rfl : s = s' := Except.ok.inj same
    rw [hadded] at hadded'
    have texts :=
      String.ofList_injective (congrArg AlterTableFragment.definition (Option.some.inj hadded'))
    exact isTerminator_of_remainder (List.cons.inj texts).2
  · intro he t start hlast
    have same : Outline.of (t ++ e) = Outline.of t := by
      rw [Outline.of_eq, Outline.of_eq, stripTerminator_append_of_isTerminator hlast he]
    rw [parse, parse, read, read, String.toList_ofList, String.toList_ofList, same]

end Statement

end SqlCanvas
