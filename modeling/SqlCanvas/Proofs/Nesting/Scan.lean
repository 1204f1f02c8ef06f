import SqlCanvas.Nesting.Split
import SqlCanvas.Proofs.Nesting.Closed
import SqlCanvas.Proofs.Pattern.Best

/-!
# Looking for a pattern at the top level

The top-level occurrences of a pattern are found in one pass that carries the state of nesting
along. A stretch is skipped when the pass goes through it without finding anything; stretches that
are skipped one after the other are skipped together. An occurrence that starts inside quotes or
parentheses does not count, and it hides nothing: a pattern that takes no quote and no parenthesis
stays inside. A cut of a text says which stretches lie between occurrences, and it determines what
is found, piece by piece.
-/

namespace SqlCanvas

open Nesting

namespace Pattern

/-- Whether no stretch of the pattern has a quote or a parenthesis in it. -/
def shy : Pattern → Bool
  | char accepts | many accepts | few accepts =>
    !accepts '\'' && !accepts '"' && !accepts '(' && !accepts ')'
  | seq first second | alt first second => first.shy && second.shy
  | capture _ body => body.shy
  | _ => true

theorem isSpecial_of_shy {accepts : Char → Bool} {c : Char}
    (h : (!accepts '\'' && !accepts '"' && !accepts '(' && !accepts ')') = true)
    (hc : accepts c = true) : isSpecial c = false := by
  simp only [Bool.and_eq_true, Bool.not_eq_true'] at h
  obtain ⟨⟨⟨h₁, h₂⟩, h₃⟩, h₄⟩ := h
  have hne : c ≠ '\'' ∧ c ≠ '"' ∧ c ≠ '(' ∧ c ≠ ')' := by
    refine ⟨?_, ?_, ?_, ?_⟩ <;> rintro rfl
    · rw [h₁] at hc; cases hc
    · rw [h₂] at hc; cases hc
    · rw [h₃] at hc; cases hc
    · rw [h₄] at hc; cases hc
  simp [isSpecial, isQuote, hne]

theorem not_isSpecial_of_covers {p : Pattern} {u : Text} (hp : p.shy = true) (h : p.Covers u) :
    ∀ c ∈ u, isSpecial c = false := by
  induction p generalizing u with
  | char accepts =>
    obtain ⟨c, hc, rfl⟩ := h
    simpa using isSpecial_of_shy hp hc
  | seq first second ih₁ ih₂ =>
    obtain ⟨v, w, hv, hw, rfl⟩ := h
    obtain ⟨hp₁, hp₂⟩ := (Bool.and_eq_true _ _).mp hp
    exact List.forall_mem_append.mpr ⟨ih₁ hp₁ hv, ih₂ hp₂ hw⟩
  | alt first second ih₁ ih₂ =>
    obtain ⟨hp₁, hp₂⟩ := (Bool.and_eq_true _ _).mp hp
    rcases h with h | h
    · exact ih₁ hp₁ h
    · exact ih₂ hp₂ h
  | many accepts | few accepts => exact fun c hc => isSpecial_of_shy hp (h c hc)
  | capture slot body ih => exact ih hp h
  | skip | boundary | textStart | textEnd | notAhead =>
    obtain rfl : u = [] := h
    simp

theorem Takes.covers {p : Pattern} {b : Option Char} {u r : Text} {m : Marking}
    (h : p.Takes b u r m) : p.Covers u := by
  obtain ⟨captures, hends, -⟩ := h 0 []
  obtain ⟨u', new, hs⟩ := exists_stops (List.mem_of_mem_head? hends)
  have : u ++ r = u' ++ r := hs.passes.rest
  rw [List.append_cancel_right this]
  exact hs.covers

/-- The occurrences in `rest` that start at the top level, for a state of nesting in front of it. -/
def topLevelFrom (p : Pattern) :
    Nesting → (before : Option Char) → (rest : Text) → (index covered : Nat) → List Occurrence
  | _, _, [], _, _ => []
  | n, _, c :: rest, index, covered + 1 =>
    topLevelFrom p (n.step c) (some c) rest (index + 1) covered
  | n, before, c :: rest, index, 0 =>
    match p.occurrenceAt? ⟨before, c :: rest, index, []⟩ with
    | none => topLevelFrom p (n.step c) (some c) rest (index + 1) 0
    | some o =>
      let later := topLevelFrom p (n.step c) (some c) rest (index + 1) (o.stop - o.start - 1)
      if n.seesTopLevel c then o :: later else later

theorem start_of_occurrenceAt? {p : Pattern} {c : Cursor} {o : Occurrence}
    (h : p.occurrenceAt? c = some o) : o.start = c.index := by
  obtain ⟨-, -, -, -, -, hstart, -⟩ := exists_stops_of_occurrenceAt? h
  exact hstart

theorem filter_occurrencesFrom {p : Pattern} {n : Nesting} {b : Option Char} {x r : Text}
    {mask : List Bool} {i covered : Nat} (h : mask.drop i = n.maskFrom (x ++ r)) :
    (p.occurrencesFrom b x i covered).filter (fun o => mask.getD o.start false) =
      p.topLevelFrom n b x i covered := by
  have next {c : Char} {x : Text} {n : Nesting} {i : Nat}
      (h : mask.drop i = n.maskFrom (c :: x ++ r)) :
      mask.getD i false = n.seesTopLevel c ∧ mask.drop (i + 1) = (n.step c).maskFrom (x ++ r) := by
    rw [List.cons_append, maskFrom] at h
    constructor
    · rw [List.getD_eq_getElem?_getD, ← Nat.add_zero i, ← List.getElem?_drop, h]
      rfl
    · rw [← List.drop_drop, h]
      rfl
  -- Along the scan with a depth; the mask at the index is what that scan sees there.
  fun_induction topLevelFrom p n b x i covered with
  | case1 => rfl
  | case2 n b c x i covered ih =>
    rw [occurrencesFrom]
    exact ih (next h).2
  | case3 n b c x i hnone ih =>
    rw [occurrencesFrom, hnone]
    exact ih (next h).2
  | case4 n b c x i o hsome later htop ih =>
    rw [occurrencesFrom, hsome]
    simp only
    rw [List.filter_cons_of_pos, ih (next h).2]
    rw [start_of_occurrenceAt? hsome, (next h).1, htop]
  | case5 n b c x i o hsome later htop ih =>
    rw [occurrencesFrom, hsome]
    simp only
    rw [List.filter_cons_of_neg, ih (next h).2]
    rw [start_of_occurrenceAt? hsome, (next h).1]
    exact htop

end Pattern

open Pattern

/-- The occurrences in the middle of a text, for the state behind its first part. -/
theorem Text.topLevelIn_eq (p : Pattern) (l x r : Text) :
    (l ++ (x ++ r)).topLevelIn p l.length (l.length + x.length) =
      p.topLevelFrom (outside.after l) (lastChar none l) x l.length 0 := by
  have sliced : (l ++ (x ++ r)).slice l.length (l.length + x.length) = x := by
    simp [Text.slice]
  have before : (if l.length = 0 then none else (l ++ (x ++ r))[l.length - 1]?) =
      lastChar none l := by
    cases l using List.reverseRecOn with
    | nil => rfl
    | append_singleton l c => simp
  have masked : (l ++ (x ++ r)).topLevelMask.drop l.length =
      (outside.after l).maskFrom (x ++ r) := by
    rw [Text.topLevelMask, maskFrom_append, List.drop_left' (by simp)]
  rw [← filter_occurrencesFrom masked, Text.topLevelIn, Pattern.occurrencesIn, sliced, before]
  congr 1
  funext o
  simp

/-- Looking for `p` at the top level goes through `u` without finding anything, when `b` stands in
front of it and `r` behind it. -/
def Skips (p : Pattern) (b : Option Char) (u r : Text) : Prop :=
  ∀ i, p.topLevelFrom outside b (u ++ r) i 0 =
    p.topLevelFrom outside (lastChar b u) r (i + u.length) 0

section Skips

variable {p : Pattern} {b : Option Char} {u v r : Text}

theorem skips_nil : Skips p b [] r :=
  fun _ => rfl

theorem Skips.append (hu : Skips p b u (v ++ r)) (hv : Skips p (lastChar b u) v r) :
    Skips p b (u ++ v) r := by
  intro i
  rw [List.append_assoc, hu, hv, lastChar_append, List.length_append, Nat.add_assoc]

theorem skips_char {c : Char} (hc : isSpecial c = false) (h : p.Refuses b (c :: r)) :
    Skips p b [c] r := by
  intro i
  rw [List.singleton_append, topLevelFrom, occurrenceAt?_of_refuses h, step_plain rfl hc]
  rfl

/-- A stretch without quotes and parentheses is skipped when it is refused at each of its places. -/
theorem skips_of_refuses (hu : ∀ c ∈ u, isSpecial c = false)
    (h : ∀ x c y, u = x ++ c :: y → p.Refuses (lastChar b x) (c :: (y ++ r))) : Skips p b u r := by
  induction u generalizing b with
  | nil => exact skips_nil
  | cons c u ih =>
    obtain ⟨hc, hu⟩ := List.forall_mem_cons.mp hu
    have first : Skips p b [c] (u ++ r) := skips_char hc (h [] c u rfl)
    refine first.append (v := u) (ih hu fun x d y hxy => ?_)
    have := h (c :: x) d y (by rw [hxy]; rfl)
    rwa [lastChar_cons] at this

theorem topLevelFrom_skip (n : Nesting) (u : Text) (i : Nat) :
    p.topLevelFrom n b (u ++ r) i u.length = p.topLevelFrom (n.after u) (lastChar b u) r
      (i + u.length) 0 := by
  induction u generalizing n b i with
  | nil => rfl
  | cons c u ih =>
    rw [List.cons_append, List.length_cons, topLevelFrom, ih, lastChar_cons, after_cons]
    congr 1
    omega

theorem topLevelFrom_eq_nil {n : Nesting} {s : Text} (hmask : ∀ x ∈ n.maskFrom s, x = false)
    (i covered : Nat) : p.topLevelFrom n b s i covered = [] := by
  induction s generalizing n b i covered with
  | nil => rfl
  | cons c s ih =>
    obtain ⟨hc, hmask⟩ := List.forall_mem_cons.mp hmask
    cases covered with
    | succ covered => exact ih hmask _ _
    | zero =>
      rw [topLevelFrom]
      split
      · exact ih hmask _ _
      · rw [hc]
        exact ih hmask _ _

theorem exists_of_mem_topLevelFrom {n : Nesting} {t : Text} {i covered : Nat} {o : Occurrence}
    (h : o ∈ p.topLevelFrom n b t i covered) :
    ∃ l c x, t = l ++ c :: x ∧ (n.after l).seesTopLevel c = true ∧
      p.occurrenceAt? ⟨lastChar b l, c :: x, i + l.length, []⟩ = some o := by
  have later {n : Nesting} {b : Option Char} {c : Char} {t : Text} {i : Nat}
      (h : ∃ l d x, t = l ++ d :: x ∧ ((n.step c).after l).seesTopLevel d = true ∧
        p.occurrenceAt? ⟨lastChar (some c) l, d :: x, i + 1 + l.length, []⟩ = some o) :
      ∃ l d x, c :: t = l ++ d :: x ∧ (n.after l).seesTopLevel d = true ∧
        p.occurrenceAt? ⟨lastChar b l, d :: x, i + l.length, []⟩ = some o := by
    obtain ⟨l, d, x, rfl, htop, ho⟩ := h
    refine ⟨c :: l, d, x, rfl, htop, ?_⟩
    rw [lastChar_cons, List.length_cons, Nat.add_comm l.length, ← Nat.add_assoc]
    exact ho
  fun_induction topLevelFrom p n b t i covered with
  | case1 => cases h
  | case2 n b c t i covered ih => exact later (ih h)
  | case3 n b c t i hnone ih => exact later (ih h)
  | case4 n b c t i found hsome rest htop ih =>
    rcases List.mem_cons.mp h with rfl | h
    · exact ⟨[], c, t, rfl, htop, hsome⟩
    · exact later (ih h)
  | case5 n b c t i found hsome rest htop ih => exact later (ih h)

/-- A text that breaks off within a sheltered stretch is passed over up to its end. -/
theorem skips_of_cut {s t : Text} (h : Sheltered (s ++ t)) : Skips p b s [] := by
  intro i
  have masked := h.mask
  rw [maskFrom_append] at masked
  rw [List.append_nil, topLevelFrom_eq_nil (List.forall_mem_append.mp masked).1]
  rfl

end Skips

/-- Between `b` and `r` the pattern is refused at each place of `u` that stands at the top level,
when `u` is read from the state `n` on. -/
def Vacant (p : Pattern) (n : Nesting) (b : Option Char) (u r : Text) : Prop :=
  ∀ l c x, u = l ++ c :: x → (n.after l).seesTopLevel c = true →
  p.Refuses (lastChar b l) (c :: (x ++ r))

section Vacant

variable {p : Pattern} {n : Nesting} {b : Option Char} {u v r : Text}

theorem Vacant.of_append (h : Vacant p n b (u ++ v) r) :
    Vacant p (n.after u) (lastChar b u) v r := by
  rintro l c x rfl htop
  rw [← after_append] at htop
  rw [← lastChar_append]
  exact h (u ++ l) c x (List.append_assoc u l (c :: x)).symm htop

/-- An occurrence that starts inside quotes or parentheses ends inside them: it does not reach over
the end of a stretch that ends outside. -/
theorem exists_covered_of_masked (hp : p.shy = true) (hn : n.IsProper) {c : Char} {i : Nat}
    {o : Occurrence} (hmasked : n.seesTopLevel c = false) (hend : r = [] ∨
      n.after (c :: u) = outside)
    (ho : p.occurrenceAt? ⟨b, c :: (u ++ r), i, []⟩ = some o) :
    ∃ s y, u = s ++ y ∧ o.stop - o.start - 1 = s.length := by
  obtain ⟨d, w, new, -, hs, hstart, hstop, -⟩ := exists_stops_of_occurrenceAt? ho
  have hpos := o.start_lt_stop
  obtain ⟨x, w, rfl⟩ : ∃ x w', w = x :: w' := List.exists_cons_of_ne_nil (by
    rintro rfl
    rw [hstart, hstop] at hpos
    exact absurd hpos (Nat.lt_irrefl i))
  obtain ⟨rfl, hrest⟩ : c = x ∧ u ++ r = w ++ d.rest := List.cons.inj hs.passes.rest
  have plain := not_isSpecial_of_covers hp hs.covers
  have covered : o.stop - o.start - 1 = w.length := by
    rw [hstart, hstop, List.length_cons]
    omega
  rcases List.append_eq_append_iff.mp hrest with ⟨y, rfl, hr⟩ | ⟨y, hy, -⟩
  · rcases hend with rfl | hend
    · obtain ⟨rfl, -⟩ := List.append_eq_nil_iff.mp hr.symm
      rw [List.append_nil] at covered
      exact ⟨u, [], (List.append_nil u).symm, covered⟩
    · -- All of the stretch is covered, so the state at its start is the one at its end.
      have same := hn.after_plain fun d (hd : d ∈ c :: u) => plain d (List.mem_append_left y hd)
      rw [← same, hend, seesTopLevel_outside (plain c List.mem_cons_self)] at hmasked
      cases hmasked
  · exact ⟨w, y, hy, covered⟩

/-- The search goes through a vacant stretch: what occurs in it does not count. -/
theorem topLevelFrom_of_vacant {n : Nesting} {b : Option Char} {u : Text} (hp : p.shy = true)
    (hn : n.IsProper) (h : Vacant p n b u r) (hend : r = [] ∨ n.after u = outside) (i : Nat) :
    p.topLevelFrom n b (u ++ r) i 0 = p.topLevelFrom (n.after u) (lastChar b u) r
      (i + u.length) 0 := by
  match u with
  | [] => rfl
  | c :: u =>
    have rest (s y : Text) (hs : u = s ++ y) : p.topLevelFrom (n.step c) (some c) (u ++ r)
      (i + 1) s.length =
        p.topLevelFrom (n.after (c :: u)) (lastChar b (c :: u)) r (i + (c :: u).length) 0 := by
      subst hs
      have proper := (hn.step c).after s
      rw [← after_cons] at proper
      have vacant := Vacant.of_append (u := c :: s) h
      rw [List.append_assoc, topLevelFrom_skip, ← after_cons, ← lastChar_cons b,
        topLevelFrom_of_vacant hp proper vacant (hend.imp_right fun h =>
          by rwa [← after_append, List.cons_append]),
        ← after_append, ← lastChar_append, List.cons_append]
      congr 1
      simp only [List.length_cons, List.length_append]
      omega
    rw [List.cons_append, topLevelFrom]
    split
    · exact rest [] u rfl
    · rename_i o ho
      have masked : n.seesTopLevel c = false := by
        by_contra htop
        have refused : p.Refuses b (c :: (u ++ r)) := h [] c u rfl (by simpa using htop)
        rw [occurrenceAt?_of_refuses refused] at ho
        cases ho
      obtain ⟨s, y, hs, covered⟩ := exists_covered_of_masked hp hn masked hend ho
      simp only [masked, covered, Bool.false_eq_true, if_false]
      exact rest s y hs
termination_by u.length

theorem vacant_of_mask (h : ∀ x ∈ n.maskFrom u, x = false) : Vacant p n b u r := by
  rintro l c x rfl htop
  rw [maskFrom_append, maskFrom] at h
  rw [h _ (List.mem_append_right _ List.mem_cons_self)] at htop
  cases htop

theorem skips_of_vacant (hp : p.shy = true) (h : Vacant p outside b u r)
    (hend : outside.after u = outside) : Skips p b u r := by
  intro i
  rw [topLevelFrom_of_vacant hp isProper_outside h (.inr hend), hend]

theorem skips_last_of_vacant (hp : p.shy = true) (h : Vacant p outside b u []) :
    Skips p b u [] := by
  intro i
  rw [topLevelFrom_of_vacant hp isProper_outside h (.inl rfl)]
  rfl

theorem skips_of_sheltered (hp : p.shy = true) {s : Text} (hs : Sheltered s) : Skips p b s r :=
  skips_of_vacant hp (vacant_of_mask hs.mask) (hs.closed.after 0)

end Vacant

section Occurrences

variable {p : Pattern} {b : Option Char} {u r : Text}

/-- A stretch that is taken at the top level is found, and looking goes on behind it. -/
theorem topLevelFrom_of_takes (hp : p.shy = true) {m : Marking} (h : p.Takes b u r m) (hu : u ≠ [])
    (i : Nat) :
    ∃ o, p.topLevelFrom outside b (u ++ r) i 0 =
        o :: p.topLevelFrom outside (lastChar b u) r (i + u.length) 0 ∧
      o.start = i ∧ o.stop = i + u.length ∧ ∀ slot, o.capture? slot = m.find? slot := by
  obtain ⟨o, ho, hstart, hstop, hm⟩ := occurrenceAt?_of_takes h hu i
  refine ⟨o, ?_, hstart, hstop, hm⟩
  have plain := not_isSpecial_of_covers hp h.covers
  obtain ⟨c, u, rfl⟩ := List.exists_cons_of_ne_nil hu
  obtain ⟨hc, hplain⟩ := List.forall_mem_cons.mp plain
  have covered : o.stop - o.start - 1 = u.length := by
    rw [hstart, hstop, List.length_cons]
    omega
  have top : outside.seesTopLevel c = true := by simp [seesTopLevel, outside, hc]
  rw [List.cons_append] at ho ⊢
  rw [topLevelFrom, ho]
  simp only [top, if_true, covered]
  rw [step_plain rfl hc, topLevelFrom_skip, isProper_outside.after_plain hplain, lastChar_cons,
    List.length_cons]
  congr 2
  omega

end Occurrences

/-- A text cut at the occurrences of `p`: the stretch in front of the first one, and for each the
marks it sets and the stretch behind it. -/
inductive Cuts (p : Pattern) : Option Char → Text → Text → List (Marking × Text) → Prop
  | last {b : Option Char} {u : Text} (hu : Skips p b u []) : Cuts p b u u []
  | next {b : Option Char} {u s r v : Text} {m : Marking} {pieces : List (Marking × Text)}
      (hu : Skips p b u (s ++ r)) (hs : s ≠ []) (hp : p.Takes (lastChar b u) s r m)
      (hr : Cuts p (lastChar (lastChar b u) s) r v pieces) :
      Cuts p b (u ++ (s ++ r)) u ((m, v) :: pieces)

/-- The pieces between occurrences, from `start` up to `stop`. -/
def Laid (t : Text) (stop : Nat) :
    (start : Nat) → List Occurrence → Text → List (Marking × Text) → Prop
  | start, [], u, [] => stop = start + u.length ∧ t.slice start stop = u
  | start, o :: os, u, (m, v) :: pieces =>
    o.start = start + u.length ∧ t.slice start o.start = u ∧
      (∀ slot, o.capture? slot = m.find? slot) ∧ Laid t stop o.stop os v pieces
  | _, _, _, _ => False

theorem Text.slice_append (l u r : Text) :
    (l ++ (u ++ r)).slice l.length (l.length + u.length) = u := by
  simp [Text.slice]

theorem laid_of_cuts {p : Pattern} (hp : p.shy = true) {b : Option Char} {x u : Text}
    {pieces : List (Marking × Text)} (h : Cuts p b x u pieces) (l r : Text) :
    Laid (l ++ (x ++ r)) (l.length + x.length) l.length (p.topLevelFrom outside b x l.length 0) u
      pieces := by
  induction h generalizing l with
  | @last b u hu =>
    have := hu l.length
    rw [List.append_nil] at this
    rw [this, topLevelFrom]
    exact ⟨rfl, Text.slice_append l u r⟩
  | @next b u s x v m pieces hu hs ht _ ih =>
    obtain ⟨o, ho, hstart, hstop, hm⟩ := topLevelFrom_of_takes hp ht hs (l.length + u.length)
    rw [hu, ho]
    refine ⟨hstart, ?_, hm, ?_⟩
    · have := Text.slice_append l u (s ++ x ++ r)
      rw [hstart]
      simpa using this
    · have := ih (l ++ u ++ s)
      have length : (l ++ u ++ s).length = l.length + u.length + s.length := by
        simp [Nat.add_assoc]
      rw [length] at this
      rw [hstop]
      simpa [Nat.add_assoc] using this

end SqlCanvas
