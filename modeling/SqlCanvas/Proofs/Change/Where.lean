import SqlCanvas.Proofs.Text.Ahead
import SqlCanvas.Statement.Change

/-!
# The first WHERE

The assignments of an update go up to the first `WHERE` with blanks on both sides, whatever it
stands in. Here is where that place is, and what the end of the pattern for updates does there and
in front of it.
-/

namespace SqlCanvas

open Text Nesting Pattern

/-- A text that starts with `WHERE` between blanks. -/
def WhereAhead (t : Text) : Prop :=
  ∃ g w g' r, t = g ++ (w ++ (g' ++ r)) ∧ IsGap g ∧ Spells "WHERE".toList w ∧ IsGap g'

/-- `WHERE` stands between blanks somewhere in the text. -/
def HoldsWhere (t : Text) : Prop :=
  ∃ x y, t = x ++ y ∧ WhereAhead y

/-- No place in `u`, with `r` behind it, has `WHERE` between blanks ahead. -/
def ClearOfWhere (u r : Text) : Prop :=
  ∀ x y, u = x ++ y → y ≠ [] → ¬ WhereAhead (y ++ r)

theorem isKeyword_where : IsKeyword "WHERE".toList := by
  decide

namespace WhereAhead

theorem append {t : Text} (h : WhereAhead t) (s : Text) : WhereAhead (t ++ s) :=
  KeywordAhead.append h s

theorem exists_split {t : Text} (h : WhereAhead t) :
    ∃ g w g' r, t = g ++ (w ++ (g' ++ r)) ∧ IsGap g ∧
    Spells "WHERE".toList w ∧ IsGap g' ∧ Halts isBlank r :=
  KeywordAhead.exists_split h

theorem mem_letters {g w g' : Text} (hg : IsGap g) (hw : Spells "WHERE".toList w) (hg' : IsGap g') :
    ∀ c ∈ g ++ (w ++ g'), (isBlank c || isWord c) = true :=
  KeywordAhead.mem_letters isKeyword_where hg hw hg'

end WhereAhead

theorem clear_nil (r : Text) : ClearOfWhere [] r :=
  clearOfKeyword_nil r

theorem ClearOfWhere.append {u v r : Text} (hu : ClearOfWhere u (v ++ r)) (hv : ClearOfWhere v r) :
    ClearOfWhere (u ++ v) r :=
  ClearOfKeyword.append hu hv

theorem clear_of_not_isBlank {u : Text} (h : ∀ c ∈ u, isBlank c = false) (r : Text) :
    ClearOfWhere u r :=
  clearOfKeyword_of_not_isBlank h r

theorem clear_gap_of_head {g r : Text} (hg : ∀ c ∈ g, isBlank c = true) (hr : Halts isBlank r)
    (h : Halts (isLetter 'W') r) : ClearOfWhere g r := by
  refine clearOfKeyword_of_isBlank isKeyword_where hg hr fun w v hr hw _ => ?_
  have letters : Spells ('W' :: "HERE".toList) w := hw
  cases letters with
  | cons hc _ =>
    rw [hr, List.cons_append, halts_cons, hc] at h
    cases h

theorem clear_gap_of_name {g n r : Text} (hg : ∀ c ∈ g, isBlank c = true) (hn : IsName n)
    (hother : ¬ Spells "WHERE".toList n) (hr : Halts isWord r) : ClearOfWhere g (n ++ r) :=
  clearOfKeyword_gap isKeyword_where hg hn hother hr

theorem clear_of_not_holdsWhere {u r : Text} {c : Char} (hc : isBlank c = false ∧ isWord c = false)
    (h : ¬ HoldsWhere u) : ClearOfWhere u (c :: r) :=
  clearOfKeyword_of_not_holds isKeyword_where hc h

theorem ClearOfWhere.append_right {u v r : Text} {c : Char} (h : ClearOfWhere u v)
    (hc : isBlank c = false ∧ isWord c = false) : ClearOfWhere u (v ++ c :: r) :=
  ClearOfKeyword.append_right isKeyword_where h hc

theorem exists_first_where {t : Text} (h : HoldsWhere t) :
    ∃ x y, t = x ++ y ∧ WhereAhead y ∧ ClearOfWhere x y :=
  exists_first_keyword h

theorem ClearOfWhere.last_not_isBlank {x y : Text} (h : ClearOfWhere x y) (hy : WhereAhead y) :
    ∀ c ∈ x.getLast?, isBlank c = false :=
  ClearOfKeyword.last_not_isBlank h hy

theorem holdsWhere_doubleQuotes {q : Char} (hq : isQuote q = true) {s : Text} :
    HoldsWhere (doubleQuotes q s) ↔ HoldsWhere s :=
  holdsKeyword_doubleQuotes isKeyword_where hq

namespace Change

def updateEnding : Pattern :=
  .all [.maybe (.all [blank, word "WHERE", blank, .capture 3 (.many anything)]), .textEnd]

variable {b : Option Char}

theorem refuses_updateEnding {t : Text} (h : ¬ WhereAhead t) (hne : t ≠ []) (hline : t ≠ ['\n']) :
    updateEnding.Refuses b t := by
  refine refuses_seq fun u v huv hu => ?_
  rcases hu with ⟨g, s, hg, ⟨w, s', hw, ⟨g', s'', hg', -, rfl⟩, rfl⟩, rfl⟩ | hu
  · refine absurd ⟨g, w, g', s'' ++ v, ?_, covers_many1.mp hg, covers_word.mp hw,
      covers_many1.mp hg'⟩ h
    simp [huv]
  · obtain rfl : u = [] := hu
    obtain rfl : t = v := huv
    exact (refuses_textEnd hne hline).seq_left _

theorem takes_updateEnding_nil : updateEnding.Takes b [] [] [] := by
  have nothing {b : Option Char} : (Pattern.maybe (.all [blank, word "WHERE", blank,
      .capture 3 (.many anything)])).Takes b [] [] [] :=
    takes_maybe_nothing ((refuses_blank (halts_nil _)).seq_left _)
  exact Takes.all_pass (v := []) nothing takes_textEnd.all_last

theorem takes_updateEnding {g w g' r : Text} (hg : IsGap g) (hw : Spells "WHERE".toList w)
    (hg' : IsGap g') (hr : Halts isBlank r) :
    updateEnding.Takes b (g ++ (w ++ (g' ++ r))) [] [(3, r)] := by
  have rest {b : Option Char} : (Pattern.capture 3 (.many anything)).Takes b r [] [(3, r)] :=
    (takes_many (fun _ _ => rfl) (halts_nil _)).capture 3
  have behind {b : Option Char} : (all [blank, .capture 3 (.many anything)]).Takes b (g' ++ r) []
      [(3, r)] :=
    .all_pass (takes_blank hg' (by simpa using hr)) rest.all_last
  have clause : (all [blank, word "WHERE", blank, .capture 3 (.many anything)]).Takes b
      (g ++ (w ++ (g' ++ r))) [] [(3, r)] := by
    refine .all_pass (takes_blank hg ?_) (.all_pass (takes_word hw) behind)
    rw [List.append_nil]
    exact (hw.isName (by decide)).halts_isBlank _
  have := Takes.all_cons (v := []) (r := []) clause.maybe (takes_textEnd.all_last)
  exact this.congr (by simp) rfl

end Change

end SqlCanvas
