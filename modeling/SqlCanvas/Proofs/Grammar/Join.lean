import SqlCanvas.Proofs.Grammar.Table

/-!
# Written joins

The table behind `FROM` and the joined tables behind it, each with a kind of join and a conjunction
behind `ON`, both of which may be missing. The joins of a statement are found one by one, each with
the text up to the next one.
-/

namespace SqlCanvas

open Text Nesting Pattern

theorem Phrase.covers_append {ks : List String} (p : Phrase ks) {k : String} {g w : Text}
    (hg : IsGap g) (hw : Spells k.toList w) :
    (phrase (ks ++ [k])).Covers (textOf p.tokens ++ (g ++ w)) := by
  induction p with
  | one s =>
    refine (covers_phrase_cons (List.cons_ne_nil _ _)).mpr ⟨s.text, g, w, s.spells, hg,
      covers_word.mpr hw, ?_⟩
    simp [Phrase.tokens]
  | cons s g' p ih =>
    refine (covers_phrase_cons (List.cons_ne_nil _ _)).mpr ⟨s.text, g'.text, _, s.spells,
      g'.isGap, ih, ?_⟩
    simp [Phrase.tokens]

/-- A conjunction behind `ON`, with the gap in front of it. -/
structure WrittenOn where
  before : Gap
  on : Spelling "ON"
  after : Gap
  conditions : Conjunction

namespace WrittenOn

def tokens (o : WrittenOn) : List Token :=
  o.before.token :: o.on.token :: o.after.token :: o.conditions.tokens

theorem behind (o : WrittenOn) : Solid (o.on.token :: o.after.token :: o.conditions.tokens) :=
  o.on.solid.spaced o.conditions.solid o.after

theorem avoids (o : WrittenOn) :
    ∀ a ∈ o.tokens, a.Avoids (reserved.filter fun k => k ≠ "AND" ∧ k ≠ "ON") := by
  refine List.forall_mem_cons.mpr ⟨trivial, List.forall_mem_cons.mpr ⟨o.on.avoids (by decide),
    List.forall_mem_cons.mpr ⟨trivial, fun a ha => ?_⟩⟩⟩
  exact (o.conditions.avoids a ha).mono (by decide)

/-- The clause is read as its conjunction, whatever blanks follow it. -/
theorem match?_onClause (o : WrittenOn) {g : Text} (hg : ∀ c ∈ g, isBlank c = true) :
    ∃ m, Select.onClause.match? (textOf o.tokens ++ g) = some m ∧
      (m.captured 1).stripParens = o.conditions.text := by
  have rest := (takes_many (b := lastChar (lastChar (lastChar none o.before.text)
    o.on.text) o.after.text) (u := o.conditions.text ++ g)
    (fun c _ => show anything c = true from rfl) (halts_nil _)).capture 1
  have halts : Halts isBlank (o.conditions.text ++ g) := o.conditions.solid.halts_isBlank g
  have taken := Takes.all_cons (takes_blanks (b := none) o.before.isGap.2
      (by simpa using o.on.isName.halts_isBlank _))
    (Takes.all_cons (takes_word o.on.spells)
      (Takes.all_cons (takes_blank o.after.isGap (by simpa using halts))
        (Takes.all_cons (r := []) (v := []) rest (Takes.all_cons takes_textEnd takes_all_nil))))
  obtain ⟨m, found, -, hcapture⟩ :=
    match?_start_of_takes (w := Select.onClause) (t := textOf o.tokens ++ g) rfl
    (by simp [tokens, Conjunction.text]) taken
  refine ⟨m, found, ?_⟩
  · have captured : m.captured 1 = o.conditions.text ++ g := by
      rw [Match.captured, hcapture]
      rfl
    have trimmed : (o.conditions.text ++ g).trim = o.conditions.text :=
      o.conditions.solid.trim (g := []) (by simp) hg
    rw [captured, stripParens_of_head, trimmed]
    rw [trimmed]
    exact o.conditions.head

end WrittenOn

theorem Select.match?_onClause_blank {g : Text} (hg : ∀ c ∈ g, isBlank c = true) :
    Select.onClause.match? g = none := by
  refine match?_start_of_refuses rfl (refuses_seq fun u v huv _ => ?_)
  refine (refuses_word_of_halts (by decide) (halts_of_forall fun c hc => ?_)).seq_left _
  exact not_isWord_of_isBlank (hg c (by rw [huv]; exact List.mem_append_right _ hc))

structure WrittenKind where
  words : List String
  mem : words ∈ Select.kindPhrases
  phrase : Phrase words
  gap : Gap

namespace WrittenKind

theorem exists_kind :
    ∀ ks ∈ Select.kindPhrases, (Vocabulary.read? (α := JoinKind) (" ".intercalate ks)).isSome := by
  decide

def kind (k : WrittenKind) : JoinKind :=
  (Vocabulary.read? (" ".intercalate k.words)).get (exists_kind k.words k.mem)

theorem readKeyword (k : WrittenKind) :
    SqlCanvas.readKeyword "Join" "join_type" (textOf k.phrase.tokens) = .ok k.kind :=
  k.phrase.readKeyword _ _ (Option.some_get _).symm

def tokens (k : WrittenKind) : List Token :=
  k.phrase.tokens ++ [k.gap.token]

theorem takes (k : WrittenKind) (s : Spelling "JOIN") {b : Option Char} {r : Text}
    (hb : ∀ c ∈ b, isWord c = false) :
    Select.joinKind.Takes b (textOf k.tokens) (s.text ++ r) [(1, textOf k.phrase.tokens)] := by
  obtain ⟨ks, ks', hsplit⟩ := List.mem_iff_append.mp k.mem
  have pairwise : Select.kindPhrases.Pairwise fun ks ks' => clash ks (ks' ++ ["JOIN"]) = true := by
    decide
  have phrases : ∀ ks ∈ Select.kindPhrases, IsPhrase ks ∧ IsPhrase (ks ++ ["JOIN"]) := by
    decide
  have kind : (oneOf (Select.kindPhrases.map Pattern.phrase)).Takes b (textOf k.phrase.tokens)
      (k.gap.text ++ (s.text ++ r)) [] := by
    rw [hsplit, List.map_append, List.map_cons]
    refine takes_oneOf (fun p hp => ?_) (takes_phrase k.phrase.isPhrase k.phrase.covers)
    obtain ⟨ks₁, hks₁, rfl⟩ := List.mem_map.mp hp
    rw [hsplit] at pairwise
    have clash := (List.pairwise_append.mp pairwise).2.2 ks₁ hks₁ k.words List.mem_cons_self
    have := refuses_phrase (b := b) (r := r) (phrases ks₁ (by rw [hsplit]; simp [hks₁])).1
      (phrases k.words k.mem).2 clash (k.phrase.covers_append k.gap.isGap s.spells)
    simpa using this
  have start : boundary.Takes b [] (textOf k.phrase.tokens ++ (k.gap.text ++ (s.text ++ r)))
      [] := by
    obtain ⟨w, v, hw, hwv⟩ := k.phrase.exists_head
    rw [hwv, List.append_assoc]
    exact takes_boundary_word hw hb
  have := Takes.all_cons (v := textOf k.phrase.tokens ++ (k.gap.text ++ []))
      (r := s.text ++ r) (by simpa using start)
    (Takes.all_cons (by simpa using kind.capture 1)
      (Takes.all_cons (takes_blank k.gap.isGap (by simpa using s.isName.halts_isBlank r))
        takes_all_nil))
  exact this.congr (by simp [tokens]) rfl

end WrittenKind

theorem Select.refuses_joinKind (s : Spelling "JOIN") {b : Option Char} {r : Text} :
    Select.joinKind.Refuses b (s.text ++ r) := by
  refine refuses_seq fun u v huv hu => ?_
  obtain rfl : u = [] := hu
  obtain rfl : s.text ++ r = v := huv
  refine Refuses.seq_left (.capture 1 (refuses_oneOf fun p hp => ?_)) _
  obtain ⟨ks, hks, rfl⟩ := List.mem_map.mp hp
  have clash : ∀ ks ∈ Select.kindPhrases, IsPhrase ks ∧ clash ks ["JOIN"] = true := by decide
  exact refuses_phrase (clash ks hks).1 (by decide) (clash ks hks).2 (covers_word.mpr s.spells)

structure WrittenJoin where
  kind : Option WrittenKind
  join : Spelling "JOIN"
  gap : Gap
  table : WrittenTable
  on : Option WrittenOn

namespace WrittenJoin

def kindTokens (j : WrittenJoin) : List Token :=
  (j.kind.map WrittenKind.tokens).getD []

def headTokens (j : WrittenJoin) : List Token :=
  j.kindTokens ++ j.join.token :: j.gap.token :: j.table.tokens

def onTokens (j : WrittenJoin) : List Token :=
  (j.on.map WrittenOn.tokens).getD []

def tokens (j : WrittenJoin) : List Token :=
  j.headTokens ++ j.onTokens

def marking (j : WrittenJoin) : Marking :=
  (j.table.aliasText.map fun a => (3, a)).toList ++ [(2, j.table.name.text)] ++
    (j.kind.map fun k => (1, textOf k.phrase.tokens)).toList

theorem takes_joinTable (j : WrittenJoin) {b : Option Char} {r : Text}
    (hb : ∀ c ∈ b, isWord c = false) (hr : TableEnd r) :
    Select.joinTable.Takes b (textOf j.headTokens) r j.marking := by
  have table (b : Option Char) (hb : ∀ c ∈ b, isWord c = false) :=
    Takes.all_cons (v := j.join.text ++ (j.gap.text ++ textOf j.table.tokens)) (r := r)
      (by simpa using takes_boundary_word j.join.isName hb)
      (Takes.all_cons (takes_word j.join.spells)
        (Takes.all_cons (takes_blank j.gap.isGap (j.table.solid.halts_isBlank r))
          (j.table.takes 2 3 _ hr)))
  obtain ⟨kind, join, gap, name, on⟩ := j
  cases kind with
  | none =>
    have nothing := takes_maybe_nothing (Select.refuses_joinKind join (b := b)
      (r := gap.text ++ (textOf name.tokens ++ r)))
    have := Takes.seq (u := []) (v := join.text ++ (gap.text ++ textOf name.tokens)) (r := r)
      (by simpa using nothing) (table b hb)
    exact this.congr (by simp [headTokens, kindTokens]) (by simp [marking])
  | some kind =>
    have taken := (kind.takes join (b := b) (r := gap.text ++ (textOf name.tokens ++ r)) hb).maybe
    have before : ∀ c ∈ lastChar b (textOf kind.tokens), isWord c = false := by
      simpa [WrittenKind.tokens] using not_isWord_lastChar_gap kind.gap.isGap
    have := Takes.seq (v := join.text ++ (gap.text ++ textOf name.tokens)) (r := r)
      (by simpa using taken) (table _ before)
    exact this.congr (by simp [headTokens, kindTokens]) (by simp [marking])

theorem takes_source (s : Spelling "FROM") (g : Gap) {b : Option Char} {u r : Text} {m : Marking}
    (hb : ∀ c ∈ b, isWord c = false) (hu : Halts isBlank (u ++ r))
    (htakes : (all [.capture 1 identifier, tableAlias 2]).Takes
      (lastChar (lastChar b s.text) g.text) u r m) :
    Select.fromTable.Takes b (s.text ++ (g.text ++ u)) r m := by
  have start : boundary.Takes b [] (s.text ++ (g.text ++ u) ++ r) [] := by
    rw [List.append_assoc]
    exact takes_boundary_word s.isName hb
  have behind :=
    Takes.all_pass (takes_word (b := b) s.spells) (Takes.all_pass (takes_blank g.isGap hu) htakes)
  exact Takes.all_pass (u := []) start behind

theorem takes_fromTable (s : Spelling "FROM") (g : Gap) (t : WrittenTable) {b : Option Char}
    {r : Text} (hb : ∀ c ∈ b, isWord c = false) (hr : TableEnd r) :
    Select.fromTable.Takes b (s.text ++ (g.text ++ textOf t.tokens)) r
      ((t.aliasText.map fun a => (2, a)).toList ++ [(1, t.name.text)]) :=
  takes_source s g hb (t.solid.halts_isBlank r) (t.takes 1 2 _ hr)

theorem tableEnd_on (j : WrittenJoin) {r : Text} (hr : TableEnd r) :
    TableEnd (textOf j.onTokens ++ r) := by
  cases h : j.on with
  | none => simpa [onTokens, h] using hr
  | some o =>
    have := TableEnd.word o.before.isGap (k := "ON") (by decide) o.on.spells
      (o.after.isGap.halts_isWord (o.conditions.text ++ r))
    simpa [onTokens, h, WrittenOn.tokens, Conjunction.text] using this

theorem headTokens_solid (j : WrittenJoin) : Solid j.headTokens := by
  have table := j.join.solid.spaced j.table.solid j.gap
  cases h : j.kind with
  | none => simpa [headTokens, kindTokens, h] using table
  | some k =>
    have := k.phrase.solid.spaced table k.gap
    simpa [headTokens, kindTokens, h, WrittenKind.tokens] using this

theorem solid (j : WrittenJoin) : Solid j.tokens := by
  cases h : j.on with
  | none => simpa [tokens, onTokens, h] using j.headTokens_solid
  | some o =>
    have := j.headTokens_solid.spaced o.behind o.before
    simpa [tokens, onTokens, h, WrittenOn.tokens] using this

theorem avoids (j : WrittenJoin) : ∀ a ∈ j.tokens, a.Avoids
    ["UNION", "INTERSECT", "EXCEPT", "WHERE", "GROUP", "HAVING", "ORDER", "LIMIT", "OFFSET",
      "FETCH"] := by
  intro a ha
  simp only [tokens, headTokens, List.mem_append, List.mem_cons] at ha
  rcases ha with (ha | rfl | rfl | ha) | ha
  · cases h : j.kind with
    | none => simp [kindTokens, h] at ha
    | some k =>
      have others : ∀ ks ∈ Select.kindPhrases,
        ∀ k ∈ ["UNION", "INTERSECT", "EXCEPT", "WHERE", "GROUP",
          "HAVING", "ORDER", "LIMIT", "OFFSET", "FETCH"], IsKeyword k.toList ∧ k ∉ ks := by decide
      have ha : a ∈ k.phrase.tokens ∨ a = k.gap.token := by
        simpa [kindTokens, h, WrittenKind.tokens] using ha
      rcases ha with ha | rfl
      · exact k.phrase.avoids (others k.words k.mem) a ha
      · trivial
  · exact j.join.avoids (by decide)
  · trivial
  · exact (j.table.avoids a ha).mono (by decide)
  · cases h : j.on with
    | none => simp [onTokens, h] at ha
    | some o => exact (o.avoids a (by simpa [onTokens, h] using ha)).mono (by decide)

theorem exists_lead (j : WrittenJoin) : ∃ k ∈ continuations, ∃ w v, textOf j.tokens = w ++ v ∧
    Spells k.toList w ∧ Halts isWord v := by
  obtain ⟨kind, join, gap, table, on⟩ := j
  cases kind with
  | none =>
    refine ⟨"JOIN", by decide, join.text, gap.text ++ (textOf table.tokens ++ textOf
      ((on.map WrittenOn.tokens).getD [])), ?_, join.spells, gap.isGap.halts_isWord _⟩
    simp [tokens, headTokens, kindTokens, onTokens]
  | some k =>
    obtain ⟨ks, hks, p, g⟩ := k
    have leads : ∀ ks ∈ Select.kindPhrases, ∀ k ∈ ks.head?, k ∈ continuations := by decide
    cases ks with
    | nil => exact absurd rfl p.isPhrase.1
    | cons k ks =>
      obtain ⟨w, v, hw, hwv, hv⟩ := exists_of_covers_phrase p.covers
      refine ⟨k, leads _ hks k rfl, w,
        v ++ (g.text ++ (join.text ++ (gap.text ++ (textOf table.tokens ++
        textOf ((on.map WrittenOn.tokens).getD []))))), ?_, hw, ?_⟩
      · simp [tokens, headTokens, kindTokens, onTokens, WrittenKind.tokens, hwv]
      · cases v with
        | nil => exact g.isGap.halts_isWord _
        | cons c v => exact (halts_append (List.cons_ne_nil c v) _).mpr hv

end WrittenJoin

abbrev WrittenJoins := List (Gap × WrittenJoin)

namespace WrittenJoins

/-- Joins as blocks, up to the gap behind the last one. -/
def blocks (trail : Option Gap) : Blocks WrittenJoin where
  head := WrittenJoin.headTokens
  body := WrittenJoin.onTokens
  mark := WrittenJoin.marking
  trail := trail

def tokens (js : WrittenJoins) : List Token :=
  (blocks none).tokens js

@[simp] theorem tokens_cons (g : Gap) (j : WrittenJoin) (js : WrittenJoins) :
    tokens ((g, j) :: js) = g.token :: (j.tokens ++ tokens js) := by
  simp [tokens, blocks, WrittenJoin.tokens]

theorem tableEnd (js : WrittenJoins) {r : Text} (hr : TableEnd r) :
    TableEnd (textOf (tokens js) ++ r) := by
  cases js with
  | nil => exact hr
  | cons j js =>
    obtain ⟨g, j⟩ := j
    obtain ⟨k, hk, w, v, hwv, hw, hv⟩ := j.exists_lead
    have halts : Halts isWord (v ++ (textOf (tokens js) ++ r)) := by
      cases v with
      | cons c v => exact (halts_append (List.cons_ne_nil c v) _).mpr hv
      | nil => exact (tableEnd js hr).halts_isWord
    have := TableEnd.word g.isGap hk hw halts
    simpa [hwv] using this

theorem tableEnd_blankTokens (g : Option Gap) : TableEnd (textOf (blankTokens g)) := by
  cases g with
  | none => exact .nil
  | some g => simpa [blankTokens] using TableEnd.gap g.isGap

theorem shy_joinTable : Select.joinTable.shy = true := by
  decide

theorem skips_onTokens (j : WrittenJoin) {b : Option Char} {r : Text} (hr : Halts isWord r) :
    Skips Select.joinTable b (textOf j.onTokens) r := by
  cases h : j.on with
  | none => simpa [WrittenJoin.onTokens, h] using skips_nil
  | some o =>
    have gap := skips_of_blank Select.startsWith_joinTable (b := b) o.before.isGap.2
      (r := textOf (o.on.token :: o.after.token :: o.conditions.tokens) ++ r)
    have rest := o.behind.skips (b := lastChar b o.before.text) shy_joinTable
      Select.startsWith_joinTable.ledBy
      (fun a ha => (o.avoids a (List.mem_cons_of_mem _ ha)).mono (by decide)) hr
    have := gap.append rest
    simpa [WrittenJoin.onTokens, h, WrittenOn.tokens] using this

theorem cuts (trail : Option Gap) (js : WrittenJoins) (b : Option Char) :
    Cuts Select.joinTable b (textOf (tokens js) ++ textOf (blankTokens trail))
      ((blocks trail).nextGap js) ((blocks trail).pieces js) :=
  (blocks trail).cuts (u := []) (fun _ _ _ hg => skips_of_blank Select.startsWith_joinTable hg)
    (fun j _ _ hr => skips_onTokens j hr) (fun j => j.headTokens_solid.textOf_ne_nil)
    (fun j _ js hb =>
      j.takes_joinTable hb (j.tableEnd_on (tableEnd js (tableEnd_blankTokens trail))))
    js (fun _ _ _ => skips_nil) b

end WrittenJoins

end SqlCanvas
