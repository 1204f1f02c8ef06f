import SqlCanvas.Proofs.Nesting.Balance
import SqlCanvas.Proofs.Nesting.Token

/-!
# Parentheses and their partners

One scan reads a text from its start and says of each place whether it stands at the top level.
Another reads from a parenthesis on, counts from there, and stops at the partner of that
parenthesis. Where the first one stands at the top level in front of the parenthesis, both see the
same: the partner is the first place behind which the top level is reached again. So the pairs of
parentheses around a text are taken off exactly, whatever blanks stand between them.
-/

namespace SqlCanvas

open Text Nesting

namespace Nesting

variable {n : Nesting} {c : Char} {t : Text} {k : Nat}

theorem getElem?_maskFrom (n : Nesting) (t : Text) (m : Nat) :
    (n.maskFrom t)[m]? = (t[m]?).map (n.after (t.take m)).seesTopLevel := by
  induction t generalizing n m with
  | nil => simp [maskFrom]
  | cons c t ih =>
    cases m with
    | zero => rfl
    | succ m => simpa [maskFrom] using ih (n.step c) m

theorem not_seesTopLevel_of_pos (hn : 0 < n.depth) (c : Char) : n.seesTopLevel c = false := by
  have inside : (n.depth == 0) = false := beq_false_of_ne (by omega)
  rw [seesTopLevel, inside, Bool.and_false]

theorem ne_outside_of_pos (hn : 0 < n.depth) : n ≠ outside := by
  rintro rfl
  exact absurd hn (Nat.lt_irrefl 0)

theorem step_closing (hn : 0 < n.depth) (hc : n.quote = none ∧ c = ')' ∧ n.depth ≤ 1) :
    n.step c = outside := by
  obtain ⟨depth, quote⟩ := n
  obtain ⟨rfl, rfl, hdepth⟩ := hc
  obtain rfl : depth = 1 := Nat.le_antisymm hdepth hn
  rfl

/-- A step that does not close the outermost parenthesis stays inside it. -/
theorem depth_step_pos (hn : 0 < n.depth) (hc : ¬ (n.quote = none ∧ c = ')' ∧ n.depth ≤ 1)) :
    0 < (n.step c).depth := by
  rw [step]
  split
  · split <;> exact hn
  · rename_i hquote
    split
    · exact hn
    · split
      · exact Nat.succ_pos n.depth
      · split
        · rename_i hclose
          have several : 1 < n.depth := by
            by_contra hle
            exact hc ⟨hquote, hclose, by omega⟩
          exact Nat.sub_pos_of_lt several
        · exact hn

/-- From inside parentheses the scan is outside for the first time behind the one that closes
them. -/
theorem after_of_closingFrom (hn : 0 < n.depth) (h : n.closingFrom t = some k) :
    n.after (t.take (k + 1)) = outside ∧ ∀ m ≤ k, 0 < (n.after (t.take m)).depth := by
  induction t generalizing n k with
  | nil => cases h
  | cons c t ih =>
    rw [closingFrom] at h
    split at h
    · rename_i hc
      cases h
      refine ⟨step_closing hn hc, fun m hm => ?_⟩
      obtain rfl := Nat.le_zero.mp hm
      exact hn
    · rename_i hc
      obtain ⟨j, hj, rfl⟩ := Option.map_eq_some_iff.mp h
      obtain ⟨hout, hin⟩ := ih (depth_step_pos hn hc) hj
      refine ⟨hout, fun m hm => ?_⟩
      cases m with
      | zero => exact hn
      | succ m => exact hin m (Nat.le_of_succ_le_succ hm)

theorem pos_of_closingFrom_eq_none (hn : 0 < n.depth) (h : n.closingFrom t = none) (m : Nat) :
    0 < (n.after (t.take m)).depth := by
  induction t generalizing n m with
  | nil => simpa using hn
  | cons c t ih =>
    rw [closingFrom] at h
    split at h
    · cases h
    · rename_i hc
      cases m with
      | zero => exact hn
      | succ m => exact ih (depth_step_pos hn hc) (Option.map_eq_none_iff.mp h) m

end Nesting

theorem Text.stripParens_of_head {t : Text} (h : t.trim.head? ≠ some '(') :
    t.stripParens = t.trim := by
  rw [stripParens, isWrapped_of_head h]
  rfl

theorem Text.stripParens_congr {s t : Text} (h : s.trim = t.trim) :
    s.stripParens = t.stripParens := by
  rw [stripParens, h, ← stripParens.eq_1]

theorem Solid.stripParens {ts : List Token} (hts : Solid ts) (h : (textOf ts).head? ≠ some '(') :
    (textOf ts).stripParens = textOf ts := by
  rw [stripParens_of_head (by rwa [hts.trim_self]), hts.trim_self]

theorem Text.stripParens_of_closed {s : Text} (hs : Closed s) :
    stripParens ('(' :: (s ++ [')'])) = s.stripParens := by
  have trimmed : trim ('(' :: (s ++ [')'])) = '(' :: (s ++ [')']) := by
    have := (Solid.singleton (a := .shelter _ (.parens hs)) rfl).trim_self
    simpa [Token.text] using this
  rw [stripParens]
  simp only [trimmed, isWrapped_of_closed hs [], List.isEmpty_nil, if_true]
  simp

namespace Text

section Opened

variable {l r : Text} {k m : Nat} (hl : outside.after l = outside)

include hl

theorem after_take_opened (m : Nat) :
    outside.after ((l ++ '(' :: r).take (l.length + m + 1)) = (⟨1, none⟩ : Nesting).after
      (r.take m) := by
  rw [Nat.add_assoc, List.take_length_add_append, List.take_succ_cons, after_append, hl, after_cons]
  rfl

theorem mask_opened (hm : m ≤ r.length)
    (hinside : ∀ i < m, 0 < ((⟨1, none⟩ : Nesting).after (r.take i)).depth) :
    (l ++ '(' :: r).topLevelMask[l.length + m]? = some false := by
  rw [topLevelMask, getElem?_maskFrom]
  cases m with
  | zero => simp [hl, seesTopLevel, isSpecial]
  | succ m =>
    obtain ⟨d, hd⟩ : ∃ d, r[m]? = some d := ⟨_, List.getElem?_eq_getElem hm⟩
    have place : (l ++ '(' :: r)[l.length + (m + 1)]? = some d := by
      rw [List.getElem?_append_right (Nat.le_add_right _ _), Nat.add_sub_cancel_left,
        List.getElem?_cons_succ, hd]
    have state := after_take_opened (r := r) hl m
    rw [Nat.add_assoc] at state
    rw [place, state, Option.map_some]
    exact congrArg some (not_seesTopLevel_of_pos (hinside m (Nat.lt_succ_self m)) _)

/-- The partner that the scan from the parenthesis on finds is where the scan of the whole text
leaves it. -/
theorem leaves_at_partner (h : closingParen? ('(' :: r) = some k) :
    0 < k ∧ (l ++ '(' :: r)[l.length + k]? = some ')' ∧
      (∀ m ≤ k, (l ++ '(' :: r).topLevelMask[l.length + m]? = some false) ∧
      outside.after ((l ++ '(' :: r).take (l.length + k + 1)) = outside ∧
      ∀ m < k, outside.after ((l ++ '(' :: r).take (l.length + m + 1)) ≠ outside := by
  obtain ⟨hpos, hlt⟩ := closingParen?_lt h
  have closing := getElem?_of_closingParen? h
  obtain ⟨j, hj, rfl⟩ := Option.map_eq_some_iff.mp h
  obtain ⟨hout, hin⟩ := after_of_closingFrom (Nat.succ_pos 0) hj
  refine ⟨hpos, ?_, fun m hm => ?_, ?_, fun m hm => ?_⟩
  · rw [List.getElem?_append_right (Nat.le_add_right _ _), Nat.add_sub_cancel_left]
    exact closing
  · refine mask_opened hl (hm.trans (Nat.le_of_lt_succ hlt)) fun i hi => hin i ?_
    omega
  · rw [after_take_opened hl]
    exact hout
  · rw [after_take_opened hl]
    exact ne_outside_of_pos (hin m (Nat.le_of_lt_succ hm))

theorem stays_without_partner (h : closingParen? ('(' :: r) = none) :
    (∀ m ≤ r.length, (l ++ '(' :: r).topLevelMask[l.length + m]? = some false) ∧
      ∀ m, outside.after ((l ++ '(' :: r).take (l.length + m + 1)) ≠ outside := by
  have inside :=
    pos_of_closingFrom_eq_none (n := ⟨1, none⟩) (Nat.succ_pos 0) (Option.map_eq_none_iff.mp h)
  refine ⟨fun m hm => mask_opened hl hm fun i _ => inside i, fun m => ?_⟩
  rw [after_take_opened hl]
  exact ne_outside_of_pos (inside m)

end Opened

theorem exists_of_getElem? {t : Text} {i : Nat} {c : Char} (h : t[i]? = some c) :
    ∃ l r, t = l ++ c :: r ∧ l.length = i := by
  obtain ⟨hi, rfl⟩ := List.getElem?_eq_some_iff.mp h
  refine ⟨t.take i, t.drop (i + 1), ?_, List.length_take_of_le hi.le⟩
  rw [List.getElem_cons_drop, List.take_append_drop]

/-- A pair of parentheses and the blanks around it. -/
structure Layer where
  before : Text
  after : Text
  isBlank_before : ∀ c ∈ before, isBlank c = true
  isBlank_after : ∀ c ∈ after, isBlank c = true

theorem isBlank_of_mem_nil : ∀ c ∈ ([] : Text), isBlank c = true :=
  List.forall_mem_nil _

def Layer.tight : Layer :=
  ⟨[], [], isBlank_of_mem_nil, isBlank_of_mem_nil⟩

/-- The text in several pairs of parentheses, the outermost pair first. -/
def enclosed : List Layer → Text → Text
  | [], t => t
  | layer :: layers, t => layer.before ++ ('(' :: (enclosed layers t ++ ')' :: layer.after))

theorem closed_of_blank {g : Text} (hg : ∀ c ∈ g, isBlank c = true) : Closed g :=
  closed_of_plain fun c hc => not_isSpecial_of_isBlank (hg c hc)

theorem closed_enclosed {t : Text} (h : Closed t) (layers : List Layer) :
    Closed (enclosed layers t) := by
  induction layers with
  | nil => exact h
  | cons layer layers ih =>
    exact (closed_of_blank layer.isBlank_before).append
      (.parens ih (closed_of_blank layer.isBlank_after))

theorem stripParens_enclosed {t : Text} (h : Closed t) (layers : List Layer) :
    (enclosed layers t).stripParens = t.stripParens := by
  induction layers with
  | nil => rfl
  | cons layer layers ih =>
    have pair : enclosed (layer :: layers) t =
        layer.before ++ ('(' :: (enclosed layers t ++ [')']) ++ layer.after) := by
      simp [enclosed]
    rw [pair, stripParens_congr (trim_append_blanks layer.isBlank_before layer.isBlank_after _),
      stripParens_of_closed (closed_enclosed h layers), ih]

theorem stripParens_enclosed_blanks {t : Text} (h : Closed t) (layers : List Layer) {g g' : Text}
    (hg : ∀ c ∈ g, isBlank c = true) (hg' : ∀ c ∈ g', isBlank c = true) :
    (enclosed layers (g ++ (t ++ g'))).stripParens = t.stripParens := by
  have inside : Closed (g ++ (t ++ g')) :=
    (closed_of_blank hg).append (h.append (closed_of_blank hg'))
  rw [stripParens_enclosed inside, stripParens_congr (trim_append_blanks hg hg' t)]

/-- One round of taking parentheses off: without the first and the last character, and trimmed. -/
def peeled (t : Text) : Text :=
  trim t.tail.dropLast

theorem exists_rounds (t : Text) : ∃ n, 2 * n ≤ t.length ∧ t.stripParens = peeled^[n] t.trim ∧
    (peeled^[n] t.trim).isWrapped = false ∧ ∀ m < n, (peeled^[m] t.trim).isWrapped = true := by
  fun_induction stripParens t with
  | case1 t trimmed hwrapped ih =>
    obtain ⟨n, hlength, hresult, hend, hrounds⟩ := ih
    have le : trimmed.length ≤ t.length := length_trim_le t
    refine ⟨n + 1, ?_, hresult, hend, fun m hm => ?_⟩
    · have := congrArg List.length (eq_of_isWrapped hwrapped)
      simp only [List.length_cons, List.length_append, List.length_nil] at this
      omega
    · cases m with
      | zero => exact hwrapped
      | succ m => exact hrounds m (Nat.lt_of_succ_lt_succ hm)
  | case2 t trimmed hwrapped =>
    exact ⟨0, Nat.zero_le _, rfl, eq_false_of_ne_true hwrapped,
      fun m hm => absurd hm (Nat.not_lt_zero m)⟩

theorem stripParens_stripParens (t : Text) : t.stripParens.stripParens = t.stripParens := by
  fun_induction stripParens t with
  | case1 t trimmed hwrapped ih => exact ih
  | case2 t trimmed hwrapped =>
    have same : trimmed.trim = trimmed := trim_trim t
    rw [stripParens]
    simp only [same, hwrapped]
    rfl

/-- The two scans agree on every parenthesis at the top level of a text. The pairs of parentheses
around a closed text are taken off exactly, and taking them off ends after at most half as many
rounds as the text has characters. -/
theorem partners_agree (t : Text) :
    (∀ i, outside.after (t.take i) = outside → t[i]? = some '(' →
      (∀ k, closingParen? (t.drop i) = some k →
        0 < k ∧ t[i + k]? = some ')' ∧ (∀ m, i ≤ m → m ≤ i + k → t.topLevelMask[m]? = some false) ∧
          outside.after (t.take (i + k + 1)) = outside ∧
          ∀ m, i ≤ m → m < i + k → outside.after (t.take (m + 1)) ≠ outside) ∧
      (closingParen? (t.drop i) = none →
        ∀ m, i ≤ m → m < t.length →
          t.topLevelMask[m]? = some false ∧ outside.after (t.take (m + 1)) ≠ outside)) ∧
    (Closed t → ∀ layers g g', (∀ c ∈ g, isBlank c = true) → (∀ c ∈ g', isBlank c = true) →
      (enclosed layers (g ++ (t ++ g'))).stripParens = t.stripParens) ∧
    t.stripParens.stripParens = t.stripParens ∧
    ∃ n, 2 * n ≤ t.length ∧ t.stripParens = peeled^[n] t.trim ∧
    (peeled^[n] t.trim).isWrapped = false ∧
      ∀ m < n, (peeled^[m] t.trim).isWrapped = true := by
  refine ⟨fun i htop hopen => ?_,
    fun h layers _ _ hg hg' => stripParens_enclosed_blanks h layers hg hg',
    stripParens_stripParens t, exists_rounds t⟩
  obtain ⟨l, r, rfl, rfl⟩ := exists_of_getElem? hopen
  rw [List.take_left] at htop
  rw [List.drop_left]
  refine ⟨fun k hk => ?_, fun hnone m hle hlt => ?_⟩
  · obtain ⟨hpos, hclosing, hmask, hout, hin⟩ := leaves_at_partner htop hk
    refine ⟨hpos, hclosing, fun m hle hm => ?_, hout, fun m hle hm => ?_⟩
    · obtain ⟨d, rfl⟩ := Nat.exists_eq_add_of_le hle
      exact hmask d (Nat.le_of_add_le_add_left hm)
    · obtain ⟨d, rfl⟩ := Nat.exists_eq_add_of_le hle
      exact hin d (Nat.lt_of_add_lt_add_left hm)
  · obtain ⟨hmask, hin⟩ := stays_without_partner htop hnone
    obtain ⟨d, rfl⟩ := Nat.exists_eq_add_of_le hle
    refine ⟨hmask d ?_, hin d⟩
    simp only [List.length_append, List.length_cons] at hlt
    omega

/-- A pair with a quoted parenthesis and another pair in it, one that is never closed, and two pairs
with blanks. -/
theorem partners_agree_nested :
    (closingParen? ("f(')', (a)) (b".toList.drop 1) = some 9 ∧
      "f(')', (a)) (b".toList[10]? = some ')' ∧ outside.after ("f(')', (a)) (b".toList.take 11) =
        outside) ∧
    (closingParen? ("f(')', (a)) (b".toList.drop 12) = none ∧
      (topLevelMask "f(')', (a)) (b".toList)[13]? = some false) ∧
    stripParens "( ((a), '(' )\n)".toList = stripParens "(a), '('".toList := by
  have agree := partners_agree "f(')', (a)) (b".toList
  obtain ⟨-, hclosing, -, hout, -⟩ := (agree.1 1 (by decide) (by decide)).1 9 (by decide)
  have unclosed := (agree.1 12 (by decide) (by decide)).2 (by decide) 13 (by decide) (by decide)
  have enclosing := (partners_agree "(a), '('".toList).2.1 (by decide)
    [.tight, ⟨" ".toList, "\n".toList, by decide, by decide⟩] [] " ".toList (by decide) (by decide)
  exact ⟨⟨by decide, hclosing, hout⟩, ⟨by decide, unclosed.1⟩, enclosing⟩

end Text

end SqlCanvas
