import SqlCanvas.Proofs.Nesting.Token
import SqlCanvas.Statement.Outline
import SqlCanvas.Statement.Select

/-!
# What leads in the parts of a statement

The patterns by which a statement is cut up start with keywords of their own, each a whole word, and
they keep clear of quotes and parentheses. So a stretch without their keywords is never cut.
-/

namespace SqlCanvas

open Text Pattern

namespace Pattern

variable {p q : Pattern} {b : Option Char} {t u r : Text} {k : String}

/-- The pattern has a stop behind `b` in the text `t`. -/
def Matches (p : Pattern) (b : Option Char) (t : Text) : Prop :=
  ∃ i captures, p.ends ⟨b, t, i, captures⟩ ≠ []

theorem matches_seq (h : (p.seq q).Matches b t) :
    ∃ u r, t = u ++ r ∧ p.Covers u ∧ p.Matches b t ∧ q.Matches (lastChar b u) r := by
  obtain ⟨i, captures, hne⟩ := h
  obtain ⟨d, hd⟩ := List.exists_mem_of_ne_nil _ hne
  rw [ends, List.mem_flatMap] at hd
  obtain ⟨e, he, hd⟩ := hd
  obtain ⟨u, new, hs⟩ := exists_stops he
  refine ⟨u, e.rest, hs.passes.rest, hs.covers, ⟨i, captures, List.ne_nil_of_mem he⟩, e.index,
    e.captures, ?_⟩
  have hb : e.before = lastChar b u := hs.passes.before
  rw [← hb]
  exact List.ne_nil_of_mem hd

theorem matches_boundary (h : boundary.Matches b t) :
    (b.any Text.isWord != t.head?.any Text.isWord) = true := by
  obtain ⟨i, captures, hne⟩ := h
  by_contra hb
  exact hne (refuses_boundary (by simpa using hb) i captures)

theorem halts_of_matches_blank (h : blank.Matches b t) : Halts Text.isWord t := by
  obtain ⟨i, captures, hne⟩ := h
  cases t with
  | nil => exact halts_nil _
  | cons c t =>
    rw [halts_cons]
    by_contra hc
    refine hne (refuses_blank (halts_cons.mpr (not_isBlank_of_isWord ?_)) i captures)
    simpa using hc

theorem halts_of_matches_boundary {c : Char} (hc : Text.isWord c = true)
    (h : boundary.Matches (some c) t) : Halts Text.isWord t := by
  have := matches_boundary h
  cases t with
  | nil => exact halts_nil _
  | cons d t => simpa [hc] using this

theorem last_of_covers_phrase {ks : List String} (hks : IsPhrase ks) (h : (phrase ks).Covers u) :
    ∃ c, lastChar b u = some c ∧ Text.isWord c = true := by
  induction ks generalizing b u with
  | nil => exact absurd rfl hks.1
  | cons k ks ih =>
    cases ks with
    | nil =>
      have hname := (covers_word.mp h).isName (hks.2 k List.mem_cons_self)
      obtain ⟨c, hc, hlast⟩ := lastChar_of_ne_nil hname.1 b
      exact ⟨c, hlast, hname.2 c hc⟩
    | cons k' ks =>
      obtain ⟨w, g, v, -, -, hv, rfl⟩ := (covers_phrase_cons (List.cons_ne_nil _ _)).mp h
      rw [lastChar_append, lastChar_append]
      exact ih hks.tail hv

/-- A phrase of a list that is written at the start of a text, up to the end of a word. -/
def Opens (phrases : List (List String)) (t : Text) : Prop :=
  ∃ u r, t = u ++ r ∧ Halts Text.isWord r ∧ ∃ ks ∈ phrases, (phrase ks).Covers u

theorem Opens.exists_word {phrases : List (List String)} (hphrases : ∀ ks ∈ phrases, IsPhrase ks)
    (h : Opens phrases t) :
    ∃ w r, t = w ++ r ∧ Halts Text.isWord r ∧
      ∃ k ∈ phrases.filterMap List.head?, IsKeyword k.toList ∧ Spells k.toList w := by
  obtain ⟨u, r, rfl, hr, ks, hks, hu⟩ := h
  cases ks with
  | nil => exact absurd rfl (hphrases _ hks).1
  | cons k ks =>
    obtain ⟨w, v, hw, rfl, hv⟩ := exists_of_covers_phrase hu
    refine ⟨w, v ++ r, List.append_assoc _ _ _, ?_, k, ?_, ?_, hw⟩
    · cases v with
      | nil => exact hr
      | cons c v => exact (halts_append (List.cons_ne_nil c v) r).mpr hv
    · exact List.mem_filterMap.mpr ⟨_, hks, rfl⟩
    · exact (hphrases _ hks).2 k List.mem_cons_self

/-- Behind a word boundary, a pattern that opens with one of some phrases starts with their
keywords. -/
theorem startsWith_of_boundary (phrases : List (List String))
    (hphrases : ∀ ks ∈ phrases, IsPhrase ks)
    (h : ∀ b t, boundary.Matches b t → q.Matches b t → Opens phrases t) :
    StartsWith (phrases.filterMap List.head?) (boundary.seq q) := by
  intro b t i captures hne
  obtain ⟨u, r, rfl, hu, hb, hq⟩ := matches_seq ⟨i, captures, hne⟩
  obtain rfl : u = [] := hu
  obtain ⟨w, s, hws, hs, k, hk, hkey, hw⟩ := (h b r hb hq).exists_word hphrases
  refine ⟨w, s, hws, hs, ⟨k, hk, hkey, hw⟩, fun c hc => ?_⟩
  have := matches_boundary hb
  have hname := hw.isName hkey
  obtain ⟨d, w, rfl⟩ := List.exists_cons_of_ne_nil hname.1
  rw [List.nil_append, hws, Option.mem_def.mp hc] at this
  simpa [hname.2 d List.mem_cons_self] using this

theorem opens_of_boundary {phrases : List (List String)} (hphrases : ∀ ks ∈ phrases, IsPhrase ks)
    (hp : ∀ u, p.Covers u → ∃ ks ∈ phrases, (phrase ks).Covers u)
    (h : (p.seq (boundary.seq q)).Matches b t) : Opens phrases t := by
  obtain ⟨u, r, rfl, hu, -, hr⟩ := matches_seq h
  obtain ⟨-, -, -, -, hr, -⟩ := matches_seq hr
  obtain ⟨ks, hks, hcovers⟩ := hp u hu
  obtain ⟨c, hlast, hc⟩ := last_of_covers_phrase (hphrases ks hks) hcovers
  rw [hlast] at hr
  exact ⟨u, r, rfl, halts_of_matches_boundary hc hr, ks, hks, hcovers⟩

theorem opens_of_blank {phrases : List (List String)}
    (hp : ∀ u, p.Covers u → ∃ ks ∈ phrases, (phrase ks).Covers u)
    (h : (p.seq (blank.seq q)).Matches b t) : Opens phrases t := by
  obtain ⟨u, r, rfl, hu, -, hr⟩ := matches_seq h
  obtain ⟨-, -, -, -, hr, -⟩ := matches_seq hr
  exact ⟨u, r, rfl, halts_of_matches_blank hr, hp u hu⟩

theorem covers_oneOf_phrase {phrases : List (List String)}
    (h : (oneOf (phrases.map phrase)).Covers u) : ∃ ks ∈ phrases, (phrase ks).Covers u := by
  obtain ⟨p, hp, hu⟩ := covers_oneOf.mp h
  obtain ⟨ks, hks, rfl⟩ := List.mem_map.mp hp
  exact ⟨ks, hks, hu⟩

theorem covers_word_phrase (h : (word k).Covers u) : ∃ ks ∈ [[k]], (phrase ks).Covers u :=
  ⟨[k], List.mem_singleton_self _, h⟩

def markedPhrase (phrases : List (List String)) : Pattern :=
  .all [.boundary, .capture 1 (.oneOf (phrases.map phrase)), .boundary]

theorem startsWith_markedPhrase (phrases : List (List String))
    (hphrases : ∀ ks ∈ phrases, IsPhrase ks) :
    StartsWith (phrases.filterMap List.head?) (markedPhrase phrases) :=
  startsWith_of_boundary phrases hphrases fun _ _ _ h =>
    opens_of_boundary (p := .capture 1 (.oneOf (phrases.map phrase))) hphrases (fun _ h =>
      covers_oneOf_phrase h) h

theorem covers_markedPhrase (phrases : List (List String)) (h : (markedPhrase phrases).Covers u) :
    ∃ ks ∈ phrases, (phrase ks).Covers u := by
  obtain ⟨_, _, rfl, ⟨w, _, hw, ⟨_, _, rfl, rfl, rfl⟩, rfl⟩, rfl⟩ := h
  simpa using covers_oneOf_phrase hw

theorem ledBy_of_blank (hk : IsKeyword k.toList) :
    LedBy [k] (all [blank, word k, blank]) := by
  intro b t i captures hne
  obtain ⟨g, r, rfl, hg, -, hr⟩ := matches_seq ⟨i, captures, hne⟩
  obtain ⟨w, s, rfl, hw, -, hs⟩ := matches_seq hr
  obtain ⟨-, -, -, -, hs, -⟩ := matches_seq hs
  obtain ⟨hgne, hg⟩ := covers_many1.mp hg
  exact ⟨g, w, s, rfl, hg, halts_of_matches_blank hs,
    ⟨k, List.mem_singleton_self k, hk, covers_word.mp hw⟩, fun h => absurd h hgne⟩

end Pattern

theorem Filter.ledBy_orWord : LedBy ["OR"] Filter.orWord :=
  ledBy_of_blank (by decide)

theorem Filter.ledBy_andWord : LedBy ["AND"] Filter.andWord :=
  ledBy_of_blank (by decide)

theorem Filter.startsWith_betweenWord : StartsWith ["BETWEEN"] Filter.betweenWord :=
  startsWith_of_boundary [["BETWEEN"]] (by decide) fun _ _ _ h =>
    opens_of_boundary (by decide) (fun _ => covers_word_phrase) h

theorem Select.startsWith_fromTable : StartsWith ["FROM"] Select.fromTable :=
  startsWith_of_boundary [["FROM"]] (by decide) fun _ _ _ h =>
    opens_of_blank (fun _ => covers_word_phrase) h

def Select.clausePhrases : List (List String) :=
  [["WHERE"], ["GROUP", "BY"], ["HAVING"], ["ORDER", "BY"], ["LIMIT"], ["OFFSET"], ["FETCH"]]

theorem Select.startsWith_clauseKeyword :
    StartsWith ["WHERE", "GROUP", "HAVING", "ORDER", "LIMIT", "OFFSET", "FETCH"]
      Select.clauseKeyword :=
  startsWith_markedPhrase Select.clausePhrases (by decide)

def setPhrases : List (List String) :=
  [["UNION", "ALL"], ["UNION"], ["INTERSECT"], ["EXCEPT"]]

theorem startsWith_setOperation :
    StartsWith ["UNION", "UNION", "INTERSECT", "EXCEPT"] setOperation :=
  startsWith_markedPhrase setPhrases (by decide)

def setKeywords : List String :=
  ["UNION", "INTERSECT", "EXCEPT"]

def Select.kindPhrases : List (List String) :=
  [["LEFT", "OUTER"], ["LEFT", "ANTI"], ["LEFT", "SEMI"], ["RIGHT", "OUTER"], ["RIGHT", "ANTI"],
    ["RIGHT", "SEMI"], ["FULL", "OUTER"], ["INNER"], ["LEFT"], ["RIGHT"], ["FULL"], ["CROSS"],
    ["NATURAL"], ["SELF"]]

def Select.joinLeads : List String :=
  Select.kindPhrases.filterMap List.head? ++ ["JOIN"]

theorem StartsWith.mono {ks ks' : List String} {p : Pattern} (h : StartsWith ks p)
    (hks : ks ⊆ ks') : StartsWith ks' p := by
  intro b t i captures hne
  obtain ⟨w, r, ht, hr, ⟨k, hk, hkey, hw⟩, hb⟩ := h b t i captures hne
  exact ⟨w, r, ht, hr, ⟨k, hks hk, hkey, hw⟩, hb⟩

/-- A joined table with the kind of its join. -/
def Select.joinKind : Pattern :=
  .all [.boundary, .capture 1 (.oneOf (Select.kindPhrases.map phrase)), blank]

theorem Select.startsWith_joinKind :
    StartsWith (Select.kindPhrases.filterMap List.head?) Select.joinKind :=
  startsWith_of_boundary _ (by decide) fun _ _ _ h =>
    opens_of_blank (p := .capture 1 (.oneOf (Select.kindPhrases.map phrase)))
      (fun _ h => covers_oneOf_phrase h) h

theorem Select.startsWith_joinTable : StartsWith Select.joinLeads Select.joinTable := by
  have plain : StartsWith ["JOIN"] (all [.boundary, word "JOIN", blank, .capture 2 identifier,
      tableAlias 3]) :=
    startsWith_of_boundary [["JOIN"]] (by decide) fun _ _ _ h =>
      opens_of_blank (fun _ => covers_word_phrase) h
  intro b t i captures hne
  by_cases hkind : Select.joinKind.ends ⟨b, t, i, captures⟩ = []
  · refine plain.mono (by decide) b t i captures fun hnone => hne ?_
    change (Select.joinKind.maybe.seq _).ends _ = []
    rw [ends, maybe, ends, hkind, List.nil_append, ends, List.flatMap_singleton]
    exact hnone
  · exact Select.startsWith_joinKind.mono (by decide) b t i captures hkind

end SqlCanvas
