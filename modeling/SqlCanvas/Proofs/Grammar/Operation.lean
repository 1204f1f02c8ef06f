import SqlCanvas.Proofs.Grammar.Common
import SqlCanvas.Proofs.Grammar.Select
import SqlCanvas.Proofs.Statement.SetOperation

/-!
# Written set operations

Statements with set operations between them. An operand behind an operation is a list of tokens
without set operations at its top level that starts with `SELECT` or `WITH`, or anything in
parentheses.
-/

namespace SqlCanvas

open Text Nesting Pattern

theorem setOperation_eq : setOperation =
    .all [.boundary, .capture 1 (.oneOf (setPhrases.map phrase)), .boundary] :=
  rfl

/-- The keywords with which an operand may start. -/
def openers : List String :=
  ["SELECT", "WITH"]

theorem Pattern.refuses_longer_phrase {k k' : String} (hk : IsPhrase [k, k']) {b : Option Char}
    {w g r : Text} (hw : Spells k.toList w) (hg : ∀ c ∈ g, isBlank c = true)
    (hblank : Halts isBlank r) (hword : Halts isWord r) :
    (phrase [k, k']).Refuses b (w ++ (g ++ r)) := by
  rw [phrase_cons k (List.cons_ne_nil _ _)]
  refine refuses_seq fun x y hxy hx => ?_
  have hx := covers_word.mp hx
  obtain ⟨rfl, rfl⟩ : w = x ∧ g ++ r = y := by
    refine List.append_inj hxy ?_
    rw [← hw.length_eq, hx.length_eq]
  refine refuses_blank_seq hblank hg (fun b c t hc => ?_) ?_
  · exact (refuses_phrase_of_halts hk.tail (halts_cons.mpr (not_isWord_of_isBlank hc))).seq_left _
  · exact (refuses_phrase_of_halts hk.tail hword).seq_left _

/-- An operand with the gap in front of it. -/
inductive WrittenOperand where
  | bare (gap : Gap) (opener : String) (mem : opener ∈ openers) (start : Spelling opener)
    (rest : List Token)
    (solid : Solid (start.token :: rest)) (avoids : ∀ a ∈ start.token :: rest, a.Avoids setKeywords)
  | wrapped (gap before after : Option Gap) (inside : List Token) (solid : Solid inside)
    (unwrapped : (textOf inside).head? ≠ some '(')

namespace WrittenOperand

def insideText (before after : Option Gap) (inside : List Token) : Text :=
  textOf (blankTokens before ++ (inside ++ blankTokens after))

theorem closed_insideText (before after : Option Gap) (inside : List Token) :
    Closed (insideText before after inside) :=
  closed_textOf _

def gapTokens : WrittenOperand → List Token
  | bare gap .. => [gap.token]
  | wrapped gap .. => blankTokens gap

def ownTokens : WrittenOperand → List Token
  | bare _ _ _ start rest _ _ => start.token :: rest
  | wrapped _ before after inside _ _ =>
    [.shelter _ (.parens (closed_insideText before after inside))]

def tokens (o : WrittenOperand) : List Token :=
  o.gapTokens ++ o.ownTokens

def inner : WrittenOperand → List Token
  | bare _ _ _ start rest _ _ => start.token :: rest
  | wrapped _ _ _ inside _ _ => inside

theorem solid_ownTokens (o : WrittenOperand) : Solid o.ownTokens := by
  cases o with
  | bare _ _ _ _ _ solid _ => exact solid
  | wrapped => exact .singleton rfl

theorem avoids_ownTokens (o : WrittenOperand) : ∀ a ∈ o.ownTokens, a.Avoids setKeywords := by
  cases o with
  | bare _ _ _ _ _ _ avoids => exact avoids
  | wrapped => simp [ownTokens, Token.Avoids]

theorem isBlank_gapTokens (o : WrittenOperand) : ∀ c ∈ textOf o.gapTokens, isBlank c = true := by
  cases o with
  | bare gap => simpa [gapTokens] using gap.isGap.2
  | wrapped gap => exact isBlank_of_blankTokens gap

theorem solid (o : WrittenOperand) {ts : List Token} (hts : Solid ts) : Solid (ts ++ o.tokens) := by
  cases o with
  | bare gap _ _ _ _ solid _ => exact hts.spaced solid gap
  | wrapped gap before after inside =>
    exact hts.glue (.singleton rfl) gap fun _ => by simp [Token.isWord]

theorem avoids_tokens (o : WrittenOperand) {keywords : List String}
    (h : ∀ a ∈ o.ownTokens, a.Avoids keywords) : ∀ a ∈ o.tokens, a.Avoids keywords := by
  intro a ha
  rcases List.mem_append.mp ha with ha | ha
  · cases o with
    | bare gap =>
      obtain rfl : a = gap.token := by simpa [gapTokens] using ha
      trivial
    | wrapped gap =>
      cases gap with
      | none => simp [gapTokens, blankTokens] at ha
      | some gap =>
        obtain rfl : a = gap.token := by simpa [gapTokens, blankTokens] using ha
        trivial
  · exact h a ha

theorem halts_isWord (o : WrittenOperand) (r : Text) : Halts isWord (textOf o.tokens ++ r) := by
  cases o with
  | bare gap => simpa [tokens, gapTokens] using gap.isGap.halts_isWord _
  | wrapped gap =>
    cases gap with
    | none => exact halts_cons.mpr (by decide)
    | some gap => simpa [tokens, gapTokens, blankTokens] using gap.isGap.halts_isWord _

theorem stripParens_text (o : WrittenOperand) {g : Text} (hg : ∀ c ∈ g, isBlank c = true) :
    (textOf o.tokens ++ g).stripParens = textOf o.inner := by
  have padded := o.solid_ownTokens.trim o.isBlank_gapTokens hg
  rw [tokens, textOf_append, List.append_assoc,
    stripParens_congr (padded.trans o.solid_ownTokens.trim_self.symm)]
  cases o with
  | bare _ _ _ start rest solid _ =>
    refine solid.stripParens ?_
    rw [textOf_cons, List.head?_append_of_ne_nil _ start.token.text_ne_nil]
    exact fun h => not_mem_of_not_isWord start.isName (by decide) (List.mem_of_mem_head? h)
  | wrapped _ before after inside solid unwrapped =>
    have trimmed : (insideText before after inside).trim = textOf inside := by
      have := solid.trim (isBlank_of_blankTokens before) (isBlank_of_blankTokens after)
      rw [insideText, textOf_append, textOf_append]
      exact this
    rw [ownTokens, textOf_cons, textOf_nil, List.append_nil, Token.text,
      stripParens_of_closed (closed_insideText before after inside), stripParens_of_head, trimmed]
    · rfl
    · rwa [trimmed]

end WrittenOperand

/-- A set operation and its second operand. -/
structure WrittenOperation where
  words : List String
  mem : words ∈ setPhrases
  phrase : Phrase words
  operand : WrittenOperand

namespace WrittenOperation

def marking (o : WrittenOperation) : Marking :=
  [(1, textOf o.phrase.tokens)]

theorem exists_kind : ∀ ks ∈ setPhrases,
    (Vocabulary.read? (" ".intercalate ks) : Option SetOperation).isSome := by
  decide

def kind (o : WrittenOperation) : SetOperation :=
  (Vocabulary.read? (" ".intercalate o.words)).get (exists_kind o.words o.mem)

theorem readKeyword (o : WrittenOperation) :
    SqlCanvas.readKeyword "UnionClause" "kind" (textOf o.phrase.tokens) = .ok o.kind :=
  o.phrase.readKeyword _ _ (Option.some_get _).symm

theorem isPhrase_of_mem : ∀ ks ∈ setPhrases, IsPhrase ks := by
  decide

/-- An earlier way of reading the operation clashes with it or with the keyword behind it. -/
theorem clash_earlier : ∀ k ∈ openers, setPhrases.Pairwise fun ks ks' =>
    clash ks ks' = true ∨ clash ks (ks' ++ [k]) = true := by
  decide

theorem longer_earlier : setPhrases.Pairwise fun ks ks' =>
    clash ks ks' = true ∨ ks' = ["UNION"] ∧ ks = ["UNION", "ALL"] := by
  decide

theorem refuses_earlier (o : WrittenOperation) {ks : List String} {kss kss' : List (List String)}
    (hsplit : setPhrases = kss ++ o.words :: kss') (hks : ks ∈ kss) (b : Option Char) (r : Text) :
    (Pattern.phrase ks).Refuses b (textOf o.phrase.tokens ++ (textOf o.operand.tokens ++ r)) := by
  have isPhrase := isPhrase_of_mem ks (by rw [hsplit]; simp [hks])
  have earlier {P : List String → List String → Prop} (h : setPhrases.Pairwise P) :
      P ks o.words := by
    rw [hsplit] at h
    exact (List.pairwise_append.mp h).2.2 ks hks o.words List.mem_cons_self
  -- Before a bare operand the next word tells the phrases apart; before a parenthesis there is
  -- none, and only the longer form of the same phrase is left to refuse.
  cases hoperand : o.operand with
  | bare gap opener mem start rest =>
    rcases earlier (clash_earlier opener mem) with clash | clash
    · exact refuses_phrase isPhrase o.phrase.isPhrase clash o.phrase.covers
    · have isPhrase' : IsPhrase (o.words ++ [opener]) := by
        refine ⟨by simp, fun k hk => ?_⟩
        rcases List.mem_append.mp hk with hk | hk
        · exact o.phrase.isPhrase.2 k hk
        · obtain rfl := List.mem_singleton.mp hk
          exact start.isKeyword
      have := refuses_phrase (b := b) (r := textOf rest ++ r) isPhrase isPhrase' clash
        (o.phrase.covers_append gap.isGap start.spells)
      simpa [WrittenOperand.tokens, WrittenOperand.gapTokens, WrittenOperand.ownTokens] using this
  | wrapped gap before after inside =>
    rcases earlier longer_earlier with clash | ⟨hwords, rfl⟩
    · exact refuses_phrase isPhrase o.phrase.isPhrase clash o.phrase.covers
    · have covers : ∀ ks, ks = o.words → (Pattern.phrase ks).Covers (textOf o.phrase.tokens) := by
        rintro _ rfl
        exact o.phrase.covers
      have := refuses_longer_phrase (b := b) (r := textOf o.operand.ownTokens ++ r) isPhrase
        (covers_word.mp (covers _ hwords.symm))
        o.operand.isBlank_gapTokens
        (by rw [hoperand]; exact halts_cons.mpr (by decide))
          (by rw [hoperand]; exact halts_cons.mpr (by decide))
      rw [hoperand] at this
      simpa [WrittenOperand.tokens] using this

theorem takes_setOperation (o : WrittenOperation) {b : Option Char} {r : Text}
    (hb : ∀ d ∈ b, Text.isWord d = false) :
    setOperation.Takes b (textOf o.phrase.tokens) (textOf o.operand.tokens ++ r) o.marking := by
  obtain ⟨kss, kss', hsplit⟩ := List.mem_iff_append.mp o.mem
  have phrase : (oneOf (setPhrases.map Pattern.phrase)).Takes b (textOf o.phrase.tokens)
      (textOf o.operand.tokens ++ r) [] := by
    rw [hsplit, List.map_append, List.map_cons]
    refine takes_oneOf (fun p hp => ?_) (Pattern.takes_phrase o.phrase.isPhrase o.phrase.covers)
    obtain ⟨ks, hks, rfl⟩ := List.mem_map.mp hp
    exact o.refuses_earlier hsplit hks b r
  have start : boundary.Takes b [] (textOf o.phrase.tokens ++ (textOf o.operand.tokens ++ r))
      [] := by
    obtain ⟨w, v, hw, hwv⟩ := o.phrase.exists_head
    rw [hwv, List.append_assoc]
    exact takes_boundary_word hw hb
  have stop : boundary.Takes (lastChar b (textOf o.phrase.tokens)) [] (textOf o.operand.tokens ++
      r) [] :=
    takes_boundary_end (last_of_covers_phrase o.phrase.isPhrase o.phrase.covers)
      (o.operand.halts_isWord r)
  have :=
    Takes.all_cons (v := textOf o.phrase.tokens ++ ([] ++ [])) (r := textOf o.operand.tokens ++ r)
      (by simpa using start)
      (Takes.all_cons (phrase.capture 1) (Takes.all_cons stop takes_all_nil))
  rw [setOperation_eq]
  exact this.congr (by simp) rfl

theorem solid (o : WrittenOperation) : Solid (o.phrase.tokens ++ o.operand.tokens) :=
  o.operand.solid o.phrase.solid

theorem avoids_tokens (o : WrittenOperation) {keywords : List String}
    (hset : ∀ k ∈ keywords, IsKeyword k.toList ∧ k ∉ o.words)
    (h : ∀ a ∈ o.operand.ownTokens, a.Avoids keywords) :
    ∀ a ∈ o.phrase.tokens ++ o.operand.tokens, a.Avoids keywords := by
  intro a ha
  rcases List.mem_append.mp ha with ha | ha
  · exact o.phrase.avoids hset a ha
  · exact o.operand.avoids_tokens h a ha

end WrittenOperation

abbrev WrittenOperations := List (Gap × WrittenOperation)

namespace WrittenOperations

def blocks : Blocks WrittenOperation where
  head := fun o => o.phrase.tokens
  body := fun o => o.operand.tokens
  mark := WrittenOperation.marking
  trail := none

def tokens (os : WrittenOperations) : List Token :=
  blocks.tokens os

theorem skips_gap {g b r} (hg : ∀ c ∈ g, isBlank c = true) : Skips setOperation b g r :=
  skips_of_blank startsWith_setOperation hg

theorem skips_tokens {ts : List Token} (hts : Solid ts) (h : ∀ a ∈ ts, a.Avoids setKeywords)
    (b : Option Char) {r : Text} (hr : Halts Text.isWord r) : Skips setOperation b (textOf ts) r :=
  hts.skips isSearchable_setOperation.shy startsWith_setOperation.ledBy (fun a ha =>
    (h a ha).mono (by decide)) hr

theorem cuts (os : WrittenOperations) {g : Text} (hg : ∀ c ∈ g, isBlank c = true) {ts : List Token}
    (hts : Solid ts) (havoid : ∀ a ∈ ts, a.Avoids setKeywords) (b : Option Char) :
    Cuts setOperation b (g ++ textOf ts ++ textOf os.tokens) (g ++ textOf ts ++ blocks.nextGap os)
      (blocks.pieces os) := by
  have body (o : WrittenOperation) (b : Option Char) (r : Text) (hr : Halts Text.isWord r) :
      Skips setOperation b (textOf o.operand.tokens) r := by
    have :=
      (skips_gap (b := b) (r := textOf o.operand.ownTokens ++ r) o.operand.isBlank_gapTokens).append
        (skips_tokens o.operand.solid_ownTokens o.operand.avoids_ownTokens _ hr)
    rwa [WrittenOperand.tokens, textOf_append]
  have := blocks.cuts (fun _ _ _ hg => skips_gap hg) body (fun o => o.phrase.solid.textOf_ne_nil)
    (fun o b os hb => o.takes_setOperation hb) os (u := g ++ textOf ts)
    (fun b r hr => (skips_gap hg).append (skips_tokens hts havoid _ hr)) b
  have trail : textOf (blankTokens blocks.trail) = [] := rfl
  rw [trail, List.append_nil] at this
  exact this

/-- The operands with the blanks around them, and the keywords in front of the later ones. -/
theorem splitSetOperations_text (os : WrittenOperations) {g : Text} (hg : ∀ c ∈ g, isBlank c = true)
    {ts : List Token} (hts : Solid ts) (havoid : ∀ a ∈ ts, a.Avoids setKeywords) :
    splitSetOperations (g ++ textOf ts ++ textOf os.tokens) =
      (g ++ textOf ts ++ blocks.nextGap os,
        (blocks.pieces os).map fun p => ((p.1.find? 1).getD [], p.2)) :=
  splitSetOperations_of_cuts (cuts os hg hts havoid none)

end WrittenOperations

end SqlCanvas
