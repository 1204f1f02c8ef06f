import SqlCanvas.Proofs.Grammar.Join

/-!
# Written clauses

The clauses behind the joins: each a phrase such as `GROUP BY` and a body. `splitClauses` finds them
again, with the phrase in its canonical form and the body without the blanks around it.
-/

namespace SqlCanvas

open Text Nesting Pattern

/-- The keywords at which a `SELECT` is cut behind its table. -/
def bodyKeywords : List String :=
  ["UNION", "INTERSECT", "EXCEPT", "WHERE", "GROUP", "HAVING", "ORDER", "LIMIT", "OFFSET", "FETCH"]

structure WrittenClause where
  words : List String
  mem : words ∈ Select.clausePhrases
  phrase : Phrase words
  gap : Gap
  body : List Token
  solid : Solid body
  avoids : ∀ a ∈ body, a.Avoids bodyKeywords

namespace WrittenClause

def headTokens (c : WrittenClause) : List Token :=
  c.phrase.tokens

def bodyTokens (c : WrittenClause) : List Token :=
  c.gap.token :: c.body

def entry (c : WrittenClause) : String × Text :=
  (" ".intercalate c.words, textOf c.body)

def marking (c : WrittenClause) : Marking :=
  [(1, textOf c.phrase.tokens)]

theorem solid_tokens (c : WrittenClause) : Solid (c.headTokens ++ c.bodyTokens) :=
  c.phrase.solid.spaced c.solid c.gap

theorem clausePhrases_pairwise :
    Select.clausePhrases.Pairwise fun ks ks' => clash ks ks' = true := by
  decide

theorem isPhrase_of_mem : ∀ ks ∈ Select.clausePhrases, IsPhrase ks := by
  decide

theorem takes_clauseKeyword (c : WrittenClause) {b : Option Char} {r : Text}
    (hb : ∀ d ∈ b, isWord d = false) :
    Select.clauseKeyword.Takes b (textOf c.headTokens) (c.gap.text ++ r) c.marking := by
  obtain ⟨ks, ks', hsplit⟩ := List.mem_iff_append.mp c.mem
  have keyword : (oneOf (Select.clausePhrases.map Pattern.phrase)).Takes b (textOf c.phrase.tokens)
      (c.gap.text ++ r) [] := by
    rw [hsplit, List.map_append, List.map_cons]
    refine takes_oneOf (fun p hp => ?_) (takes_phrase c.phrase.isPhrase c.phrase.covers)
    obtain ⟨ks₁, hks₁, rfl⟩ := List.mem_map.mp hp
    have pairwise := clausePhrases_pairwise
    rw [hsplit] at pairwise
    have clash := (List.pairwise_append.mp pairwise).2.2 ks₁ hks₁ c.words List.mem_cons_self
    exact refuses_phrase (isPhrase_of_mem ks₁ (by rw [hsplit]; simp [hks₁])) c.phrase.isPhrase clash
      c.phrase.covers
  have start : boundary.Takes b [] (textOf c.phrase.tokens ++ (c.gap.text ++ r)) [] := by
    obtain ⟨w, v, hw, hwv⟩ := c.phrase.exists_head
    rw [hwv, List.append_assoc]
    exact takes_boundary_word hw hb
  have stop : boundary.Takes (lastChar b (textOf c.phrase.tokens)) [] (c.gap.text ++ r) [] :=
    takes_boundary_end (last_of_covers_phrase c.phrase.isPhrase c.phrase.covers)
      (c.gap.isGap.halts_isWord r)
  have := Takes.all_cons (v := textOf c.phrase.tokens ++ ([] ++ [])) (r := c.gap.text ++ r)
    (by simpa using start) (Takes.all_cons (keyword.capture 1) (Takes.all_cons stop takes_all_nil))
  exact this.congr (by simp [headTokens]) rfl

theorem exists_lead (c : WrittenClause) : ∃ k ∈ continuations, ∃ w v, textOf c.headTokens = w ++ v ∧
    Spells k.toList w ∧ Halts isWord v := by
  obtain ⟨ks, hks, p, g⟩ := c
  have leads : ∀ ks ∈ Select.clausePhrases, ∀ k ∈ ks.head?, k ∈ continuations := by decide
  cases ks with
  | nil => exact absurd rfl p.isPhrase.1
  | cons k ks =>
    obtain ⟨w, v, hw, hwv, hv⟩ := exists_of_covers_phrase p.covers
    exact ⟨k, leads _ hks k rfl, w, v, hwv, hw, hv⟩

/-- Besides their own keywords, clauses have none that take a statement apart at a set operation. -/
theorem avoids_tokens (c : WrittenClause) :
    ∀ a ∈ c.headTokens ++ c.bodyTokens, a.Avoids ["UNION", "INTERSECT", "EXCEPT"] := by
  have others : ∀ ks ∈ Select.clausePhrases, ∀ k ∈ ["UNION", "INTERSECT", "EXCEPT"],
      IsKeyword k.toList ∧ k ∉ ks := by decide
  intro a ha
  rcases List.mem_append.mp ha with ha | ha
  · exact c.phrase.avoids (others c.words c.mem) a ha
  · rcases List.mem_cons.mp ha with rfl | ha
    · trivial
    · exact (c.avoids a ha).mono (by decide)

end WrittenClause

abbrev WrittenClauses := List (Gap × WrittenClause)

namespace WrittenClauses

def blocks : Blocks WrittenClause where
  head := WrittenClause.headTokens
  body := WrittenClause.bodyTokens
  mark := WrittenClause.marking
  trail := none

def tokens (cs : WrittenClauses) : List Token :=
  blocks.tokens cs

def leadGap (cs : WrittenClauses) : Option Gap :=
  cs.head?.map (·.1)

/-- The tokens behind the gap in front of the first clause. -/
def behindGap : WrittenClauses → List Token
  | [] => []
  | (_, c) :: cs => c.headTokens ++ (c.bodyTokens ++ tokens cs)

theorem tokens_eq (cs : WrittenClauses) : cs.tokens = blankTokens cs.leadGap ++ cs.behindGap := by
  cases cs with
  | nil => rfl
  | cons c cs =>
    obtain ⟨g, c⟩ := c
    simp [tokens, leadGap, behindGap, blankTokens, blocks]

theorem nextGap_eq (cs : WrittenClauses) : blocks.nextGap cs = textOf (blankTokens cs.leadGap) := by
  cases cs with
  | nil => rfl
  | cons c cs => simp [Blocks.nextGap, leadGap, blankTokens]

theorem tableEnd (cs : WrittenClauses) : TableEnd (textOf (tokens cs)) := by
  cases cs with
  | nil => exact .nil
  | cons c cs =>
    obtain ⟨g, c⟩ := c
    obtain ⟨k, hk, w, v, hwv, hw, hv⟩ := c.exists_lead
    have halts : Halts isWord (v ++ (c.gap.text ++ (textOf c.body ++ textOf (tokens cs)))) := by
      cases v with
      | nil => exact c.gap.isGap.halts_isWord _
      | cons d v => exact (halts_append (List.cons_ne_nil d v) _).mpr hv
    have := TableEnd.word g.isGap hk hw halts
    simpa [tokens, blocks, hwv, WrittenClause.bodyTokens] using this

theorem shy_clauseKeyword : Select.clauseKeyword.shy = true := by
  decide

theorem skips_gap {g b r} (hg : ∀ c ∈ g, isBlank c = true) : Skips Select.clauseKeyword b g r :=
  skips_of_blank Select.startsWith_clauseKeyword hg

theorem skips_tokens {ts : List Token} (hts : Solid ts) (h : ∀ a ∈ ts, a.Avoids bodyKeywords)
    (b : Option Char) {r : Text} (hr : Halts isWord r) :
    Skips Select.clauseKeyword b (textOf ts) r :=
  hts.skips shy_clauseKeyword Select.startsWith_clauseKeyword.ledBy
    (fun a ha => (h a ha).mono (by decide)) hr

theorem cuts (cs : WrittenClauses) {u : Text}
    (hu : ∀ b r, Halts isWord r → Skips Select.clauseKeyword b u r) (b : Option Char) :
    Cuts Select.clauseKeyword b (u ++ textOf (tokens cs)) (u ++ textOf (blankTokens cs.leadGap))
      (blocks.pieces cs) := by
  have := blocks.cuts (fun _ _ _ hg => skips_gap hg)
    (fun c b r hr => by
      have := (skips_gap (b := b) (r := textOf c.body ++ r) c.gap.isGap.2).append
        (skips_tokens c.solid c.avoids (lastChar b c.gap.text) hr)
      simpa [blocks, WrittenClause.bodyTokens] using this)
    (fun c => c.phrase.solid.textOf_ne_nil)
    (fun c b cs hb => by
      simpa [blocks, WrittenClause.bodyTokens] using c.takes_clauseKeyword (r := _) hb) cs hu b
  rw [nextGap_eq] at this
  simpa [tokens, blocks, blankTokens] using this

theorem clauseBodies_of_laid {t : Text} {start : Nat} {os : List Occurrence} {u : Text}
    {pieces : List (Marking × Text)} (h : Laid t t.length start os u pieces) :
    Select.clauseBodies t os =
      pieces.map fun p => (canonicalKeyword ((p.1.find? 1).getD []), p.2.trim) := by
  -- A body ends where the next occurrence starts, so the last one is a case of its own.
  induction os generalizing start u pieces with
  | nil =>
    cases pieces with
    | nil => rfl
    | cons => exact h.elim
  | cons o os ih =>
    cases pieces with
    | nil => exact h.elim
    | cons piece pieces =>
      obtain ⟨-, -, hmark, hlaid⟩ := h
      have keyword : o.captured 1 = (piece.1.find? 1).getD [] := by
        rw [Occurrence.captured, hmark]
      cases os with
      | nil =>
        cases pieces with
        | cons => exact hlaid.elim
        | nil =>
          obtain ⟨-, hslice⟩ := hlaid
          have : t.drop o.stop = piece.2 := by
            rw [← hslice, slice, List.take_of_length_le (by rw [List.length_drop])]
          rw [Select.clauseBodies, keyword, this]
          rfl
      | cons next os =>
        cases pieces with
        | nil => exact hlaid.elim
        | cons piece' pieces =>
          have hslice := hlaid.2.1
          rw [Select.clauseBodies, keyword, hslice, ih hlaid]
          rfl

theorem entries_eq (cs : WrittenClauses) :
    (blocks.pieces cs).map (fun p => (canonicalKeyword ((p.1.find? 1).getD []), p.2.trim)) =
      cs.map (·.2.entry) := by
  induction cs with
  | nil => rfl
  | cons c cs ih =>
    obtain ⟨g, c⟩ := c
    have trimmed : (textOf c.bodyTokens ++ blocks.nextGap cs).trim = textOf c.body := by
      have := c.solid.trim c.gap.isGap.2 (blocks.isBlank_nextGap cs)
      simpa [WrittenClause.bodyTokens] using this
    rw [Blocks.pieces, List.map_cons, List.map_cons, ih]
    congr 1
    exact Prod.ext c.phrase.canonicalKeyword trimmed

theorem splitClauses_eq (l : Text) (hl : outside.after l = outside) {ts : List Token}
    {cs : WrittenClauses} (hu : ∀ b r, Halts isWord r →
      Skips Select.clauseKeyword b (textOf ts) r) :
    Select.splitClauses (l ++ (textOf ts ++ textOf (tokens cs))) l.length =
      ⟨cs.map (·.2.entry), l.length + (textOf ts ++ textOf (blankTokens cs.leadGap)).length⟩ := by
  have laid := laid_of_cuts shy_clauseKeyword (cuts cs hu (lastChar none l)) l []
  have found := Text.topLevelIn_eq Select.clauseKeyword l (textOf ts ++ textOf (tokens cs)) []
  rw [hl] at found
  have length : l.length + (textOf ts ++ textOf (tokens cs)).length =
      (l ++ (textOf ts ++ textOf (tokens cs))).length := by
    simp
  rw [List.append_nil, length] at found
  rw [← found, List.append_nil, length] at laid
  rw [Select.splitClauses]
  rw [clauseBodies_of_laid laid, entries_eq]
  congr 1
  cases cs with
  | nil =>
    cases hos : topLevelIn Select.clauseKeyword (l ++ (textOf ts ++ textOf (tokens []))) l.length
        (l ++ (textOf ts ++ textOf (tokens []))).length with
    | nil => simp [leadGap, blankTokens, tokens, blocks]
    | cons o os =>
      rw [hos] at laid
      exact laid.elim
  | cons c cs =>
    cases hos : topLevelIn Select.clauseKeyword (l ++ (textOf ts ++ textOf (tokens (c :: cs))))
        l.length (l ++ (textOf ts ++ textOf (tokens (c :: cs)))).length with
    | nil =>
      rw [hos] at laid
      exact laid.elim
    | cons o os =>
      rw [hos] at laid
      simpa using laid.1

end WrittenClauses

end SqlCanvas
