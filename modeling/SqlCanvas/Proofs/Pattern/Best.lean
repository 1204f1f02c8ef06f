import SqlCanvas.Proofs.Pattern.Language

/-!
# The best match

A pattern takes a stretch when that is its best stop, whatever was marked before, and refuses a text
when it has no stop in it. Both are said of a place by the character in front of it and the text
behind it alone, and come with one rule for each way of building patterns. A sequence takes what its
parts take one after the other as long as nobody has to give way.
-/

namespace SqlCanvas

/-- Marked stretches by number, latest first. -/
abbrev Marking := List (Nat × Text)

def Marking.of (captures : List (Nat × Capture)) : Marking :=
  captures.map fun x => (x.1, x.2.text)

def Marking.find? (m : Marking) (slot : Nat) : Option Text :=
  (List.find? (·.1 == slot) m).map (·.2)

@[simp] theorem Marking.find?_nil (slot : Nat) : Marking.find? [] slot = none := rfl

@[simp] theorem Marking.find?_cons (x : Nat × Text) (m : Marking) (slot : Nat) :
    Marking.find? (x :: m) slot = if x.1 = slot then some x.2 else m.find? slot := by
  rw [Marking.find?, Marking.find?, List.find?_cons]
  by_cases h : x.1 = slot
  · simp [h]
  · rw [if_neg h, beq_false_of_ne h]

@[simp] theorem Marking.find?_append (m m' : Marking) (slot : Nat) :
    Marking.find? (m ++ m') slot = (m.find? slot).or (m'.find? slot) := by
  rw [Marking.find?, Marking.find?, Marking.find?, List.find?_append]
  cases List.find? (fun x => x.1 == slot) m <;> rfl

theorem Marking.find?_of_forall_ne {m : Marking} {slot : Nat} (h : ∀ x ∈ m, x.1 ≠ slot) :
    m.find? slot = none := by
  rw [Marking.find?, List.find?_eq_none.mpr]
  · rfl
  · simpa using h

theorem findCapture?_eq (captures : List (Nat × Capture)) (slot : Nat) :
    findCapture? captures slot = (Marking.of captures).find? slot := by
  rw [findCapture?, Marking.find?, Marking.of, List.find?_map, Option.map_map]
  rfl

/-- The text does not start with an accepted character. -/
def Halts (accepts : Char → Bool) (r : Text) : Prop :=
  ∀ c ∈ r.head?, accepts c = false

@[simp] theorem halts_nil (accepts : Char → Bool) : Halts accepts [] :=
  nofun

@[simp] theorem halts_cons {accepts : Char → Bool} {c : Char} {r : Text} :
    Halts accepts (c :: r) ↔ accepts c = false := by
  simp [Halts]

theorem halts_append {accepts : Char → Bool} {u : Text} (hu : u ≠ []) (r : Text) :
    Halts accepts (u ++ r) ↔ Halts accepts u := by
  obtain ⟨c, u, rfl⟩ := List.exists_cons_of_ne_nil hu
  simp

theorem halts_of_isPrefix {accepts : Char → Bool} {s t : Text} (h : Halts accepts t)
    (hs : s <+: t) : Halts accepts s := by
  obtain ⟨r, rfl⟩ := hs
  cases s with
  | nil => exact halts_nil accepts
  | cons c s => exact h

theorem halts_of_forall {accepts : Char → Bool} {u : Text} (h : ∀ c ∈ u, accepts c = false) :
    Halts accepts u :=
  fun c hc => h c (List.mem_of_mem_head? hc)

namespace Cursor

theorem head?_reverse_stopsFrom {accepts : Char → Bool} {u r : Text}
    (hu : ∀ c ∈ u, accepts c = true) (hr : Halts accepts r) (b : Option Char) (i : Nat)
    (captures : List (Nat × Capture)) :
    (stopsFrom accepts captures b (u ++ r) i).reverse.head? =
      some ⟨lastChar b u, r, i + u.length, captures⟩ := by
  rw [List.head?_reverse]
  induction u generalizing b i with
  | nil =>
    cases r with
    | nil => rfl
    | cons c r =>
      have hc : accepts c = false := halts_cons.mp hr
      simp [stopsFrom, hc]
  | cons c u ih =>
    obtain ⟨hc, hu⟩ := List.forall_mem_cons.mp hu
    have later := ih hu (some c) (i + 1)
    rw [List.cons_append, stopsFrom, if_pos hc, List.getLast?_cons, later]
    simp only [Option.getD_some, lastChar_cons, List.length_cons]
    congr 2
    omega

/-- The shortest stops come first: those inside `u`, each with a rest of `u` in front of it, and
then the one behind `u`. -/
theorem stopsFrom_append {accepts : Char → Bool} {u r : Text} (hu : ∀ c ∈ u, accepts c = true)
    (b : Option Char) (i : Nat) (captures : List (Nat × Capture)) :
    ∃ inner outer, stopsFrom accepts captures b (u ++ r) i =
      inner ++ ⟨lastChar b u, r, i + u.length, captures⟩ :: outer ∧
        ∀ d ∈ inner, ∃ x y, u = x ++ y ∧ y ≠ [] ∧
          d = ⟨lastChar b x, y ++ r, i + x.length, captures⟩ := by
  induction u generalizing b i with
  | nil =>
    cases r with
    | nil => exact ⟨[], [], rfl, by simp⟩
    | cons c r => exact ⟨[], _, by rw [List.nil_append, stopsFrom]; rfl, by simp⟩
  | cons c u ih =>
    obtain ⟨hc, hu⟩ := List.forall_mem_cons.mp hu
    obtain ⟨inner, outer, hstops, hinner⟩ := ih hu (some c) (i + 1)
    refine ⟨⟨b, c :: (u ++ r), i, captures⟩ :: inner, outer, ?_, ?_⟩
    · rw [List.cons_append, stopsFrom, if_pos hc, hstops]
      simp [Nat.add_comm, Nat.add_left_comm]
    · refine List.forall_mem_cons.mpr ⟨⟨[], c :: u, rfl, List.cons_ne_nil _ _, rfl⟩, fun d hd => ?_⟩
      obtain ⟨x, y, rfl, hy, rfl⟩ := hinner d hd
      exact ⟨c :: x, y, rfl, hy, by simp [Nat.add_comm, Nat.add_left_comm]⟩

section Stops

variable {accepts : Char → Bool} {captures : List (Nat × Capture)} {b : Option Char} {u r : Text}
  {i : Nat}

theorem exists_stopsFrom_append (hu : ∀ c ∈ u, accepts c = true) :
    ∃ inner, stopsFrom accepts captures b (u ++ r) i =
      inner ++ stopsFrom accepts captures (lastChar b u) r (i + u.length) := by
  induction u generalizing b i with
  | nil => exact ⟨[], rfl⟩
  | cons c u ih =>
    obtain ⟨hc, hu⟩ := List.forall_mem_cons.mp hu
    obtain ⟨inner, hinner⟩ := ih (b := some c) (i := i + 1) hu
    refine ⟨⟨b, c :: (u ++ r), i, captures⟩ :: inner, ?_⟩
    rw [List.cons_append, stopsFrom, if_pos hc, hinner, lastChar_cons, List.length_cons,
      Nat.add_right_comm, Nat.add_assoc i]
    rfl

theorem exists_stopsFrom_eq_cons :
    ∃ outer, stopsFrom accepts captures b r i = ⟨b, r, i, captures⟩ :: outer ∧
    ∀ d ∈ outer, ∃ x, x ≠ [] ∧ r = x ++ d.rest ∧ d.before = lastChar b x := by
  cases r with
  | nil => exact ⟨[], rfl, List.forall_mem_nil _⟩
  | cons c r =>
    refine ⟨_, rfl, fun d hd => ?_⟩
    split at hd
    · obtain ⟨x, -, passes, -⟩ := mem_stopsFrom hd
      refine ⟨c :: x, List.cons_ne_nil _ _, ?_, ?_⟩
      · rw [List.cons_append, ← passes.rest]
      · rw [passes.before, lastChar_cons]
    · cases hd

end Stops

end Cursor

namespace Pattern

variable {p q : Pattern} {b : Option Char} {u v r : Text} {m m' : Marking}

/-- The best stop of `p` behind `b` in the text `u ++ r` lies behind `u`, and `m` is marked. -/
def Takes (p : Pattern) (b : Option Char) (u r : Text) (m : Marking) : Prop :=
  ∀ i captures, ∃ captures',
    (p.ends ⟨b, u ++ r, i, captures⟩).head? = some ⟨lastChar b u, r, i + u.length, captures'⟩ ∧
      Marking.of captures' = m ++ Marking.of captures

def Refuses (p : Pattern) (b : Option Char) (r : Text) : Prop :=
  ∀ i captures, p.ends ⟨b, r, i, captures⟩ = []

theorem takes_skip : skip.Takes b [] r [] :=
  fun _ captures => ⟨captures, rfl, rfl⟩

theorem takes_char {accepts : Char → Bool} {c : Char} (hc : accepts c = true) :
    (char accepts).Takes b [c] r [] := by
  intro i captures
  refine ⟨captures, ?_, rfl⟩
  simp [ends, hc]

theorem Takes.seq (hp : p.Takes b u (v ++ r) m) (hq : q.Takes (lastChar b u) v r m') :
    (p.seq q).Takes b (u ++ v) r (m' ++ m) := by
  intro i captures
  obtain ⟨captures₁, h₁, hm₁⟩ := hp i captures
  obtain ⟨captures₂, h₂, hm₂⟩ := hq (i + u.length) captures₁
  refine ⟨captures₂, ?_, by rw [hm₂, hm₁, List.append_assoc]⟩
  obtain ⟨ds, hds⟩ := List.head?_eq_some_iff.mp h₁
  rw [ends, List.append_assoc, hds, List.flatMap_cons, List.head?_append_of_ne_nil _ (by
    intro h
    rw [h] at h₂
    cases h₂), h₂]
  simp [Nat.add_assoc]

theorem Takes.alt_left (hp : p.Takes b u r m) : (p.alt q).Takes b u r m := by
  intro i captures
  obtain ⟨captures', h, hm⟩ := hp i captures
  refine ⟨captures', ?_, hm⟩
  rw [ends, List.head?_append, h]
  rfl

theorem Takes.alt_right (hp : p.Refuses b (u ++ r)) (hq : q.Takes b u r m) :
    (p.alt q).Takes b u r m := by
  intro i captures
  obtain ⟨captures', h, hm⟩ := hq i captures
  refine ⟨captures', ?_, hm⟩
  rw [ends, hp, List.nil_append, h]

theorem takes_many {accepts : Char → Bool} (hu : ∀ c ∈ u, accepts c = true)
    (hr : Halts accepts r) : (many accepts).Takes b u r [] :=
  fun i captures => ⟨captures, Cursor.head?_reverse_stopsFrom hu hr b i captures, rfl⟩

theorem Takes.capture (slot : Nat) (hp : p.Takes b u r m) :
    (p.capture slot).Takes b u r ((slot, u) :: m) := by
  intro i captures
  obtain ⟨captures', h, hm⟩ := hp i captures
  refine ⟨(slot, ⟨u ++ r, u.length⟩) :: captures', ?_, ?_⟩
  · rw [ends, List.head?_map, h]
    simp [Cursor.mark]
  · have marked : (⟨u ++ r, u.length⟩ : Capture).text = u := List.take_left
    change (slot, Capture.text _) :: Marking.of captures' = _
    rw [marked, hm]
    rfl

theorem takes_boundary (h : (b.any Text.isWord != r.head?.any Text.isWord) = true) :
    boundary.Takes b [] r [] := by
  intro i captures
  refine ⟨captures, ?_, rfl⟩
  simp only [ends, Cursor.atBoundary, List.nil_append, h]
  rfl

theorem takes_textEnd : textEnd.Takes b [] [] [] :=
  fun _ captures => ⟨captures, rfl, rfl⟩

theorem takes_notAhead (hp : p.Refuses b r) : p.notAhead.Takes b [] r [] := by
  intro i captures
  refine ⟨captures, ?_, rfl⟩
  rw [ends, List.nil_append, hp]
  rfl

theorem Takes.congr (hp : p.Takes b u r m) (hu : u = v) (hm : m = m') : p.Takes b v r m' := by
  subst hu hm
  exact hp

theorem takes_all_nil : (all []).Takes b [] r [] :=
  takes_skip

theorem Takes.all_cons {ps : List Pattern} (hp : p.Takes b u (v ++ r) m)
    (hps : (all ps).Takes (lastChar b u) v r m') : (all (p :: ps)).Takes b (u ++ v) r (m' ++ m) :=
  hp.seq hps

theorem Takes.all_pass {ps : List Pattern} (hp : p.Takes b u (v ++ r) [])
    (hps : (all ps).Takes (lastChar b u) v r m) : (all (p :: ps)).Takes b (u ++ v) r m :=
  (hp.all_cons hps).congr rfl (List.append_nil m)

theorem Takes.all_last (hp : p.Takes b u r m) : (all [p]).Takes b u r m := by
  have := hp.seq (v := []) (r := r) takes_skip
  exact this.congr (List.append_nil u) rfl

theorem ends_all_append (ps qs : List Pattern) (c : Cursor) :
    (all (ps ++ qs)).ends c = ((all ps).ends c).flatMap (all qs).ends := by
  induction ps generalizing c with
  | nil => simp [all, ends]
  | cons p ps ih =>
    change ((p.ends c).flatMap fun d => (all (ps ++ qs)).ends d) = _
    simp only [ih]
    exact List.flatMap_assoc.symm

theorem Takes.all_append {ps qs : List Pattern} (hp : (all ps).Takes b u (v ++ r) m)
    (hq : (all qs).Takes (lastChar b u) v r m') :
    (all (ps ++ qs)).Takes b (u ++ v) r (m' ++ m) := by
  have := hp.seq hq
  intro i captures
  rw [ends_all_append]
  exact this i captures

theorem Takes.ne_nil (hp : p.Takes b u r m) (i : Nat) (captures : List (Nat × Capture)) :
    p.ends ⟨b, u ++ r, i, captures⟩ ≠ [] := by
  obtain ⟨captures', h, -⟩ := hp i captures
  intro hnil
  rw [hnil] at h
  cases h

theorem refuses_of_not_covers (h : ∀ u v, r = u ++ v → ¬ p.Covers u) : p.Refuses b r := by
  intro i captures
  by_contra hne
  obtain ⟨d, hd⟩ := List.exists_mem_of_ne_nil _ hne
  obtain ⟨u, new, hs⟩ := exists_stops hd
  exact h u d.rest hs.passes.rest hs.covers

theorem refuses_char {accepts : Char → Bool} (h : Halts accepts r) :
    (char accepts).Refuses b r := by
  intro i captures
  cases r with
  | nil => rfl
  | cons c r => simp [ends, halts_cons.mp h]

theorem refuses_seq (h : ∀ u v, r = u ++ v → p.Covers u → q.Refuses (lastChar b u) v) :
    (p.seq q).Refuses b r := by
  intro i captures
  rw [ends, List.flatMap_eq_nil_iff]
  intro d hd
  obtain ⟨u, new, hs⟩ := exists_stops hd
  have hb : d.before = lastChar b u := hs.passes.before
  have := h u d.rest hs.passes.rest hs.covers d.index d.captures
  rw [← hb] at this
  exact this

theorem Refuses.seq_left (h : p.Refuses b r) (q : Pattern) : (p.seq q).Refuses b r := by
  intro i captures
  rw [ends, h]
  rfl

theorem Refuses.alt (hp : p.Refuses b r) (hq : q.Refuses b r) : (p.alt q).Refuses b r := by
  intro i captures
  rw [ends, hp, hq]
  rfl

theorem Refuses.capture (slot : Nat) (hp : p.Refuses b r) : (p.capture slot).Refuses b r := by
  intro i captures
  rw [ends, hp]
  rfl

theorem refuses_oneOf {ps : List Pattern} (h : ∀ p ∈ ps, p.Refuses b r) :
    (oneOf ps).Refuses b r := by
  induction ps with
  | nil => exact refuses_char fun _ _ => rfl
  | cons p ps ih =>
    obtain ⟨hp, hps⟩ := List.forall_mem_cons.mp h
    cases ps with
    | nil => exact hp
    | cons q ps => exact hp.alt (ih hps)

theorem refuses_boundary (h : (b.any Text.isWord != r.head?.any Text.isWord) = false) :
    boundary.Refuses b r := by
  intro i captures
  simp only [ends, Cursor.atBoundary, h]
  rfl

theorem refuses_textEnd (hne : r ≠ []) (hr : r ≠ ['\n']) : textEnd.Refuses b r := by
  intro i captures
  simp [ends, Cursor.atEnd, hne, hr]

theorem Takes.refuses_notAhead (hp : p.Takes b u r m) : p.notAhead.Refuses b (u ++ r) := by
  intro i captures
  rw [ends, if_neg]
  simp [hp.ne_nil i captures]

theorem Takes.maybe (hp : p.Takes b u r m) : p.maybe.Takes b u r m :=
  hp.alt_left

theorem takes_maybe_nothing (hp : p.Refuses b r) : p.maybe.Takes b [] r [] :=
  .alt_right hp takes_skip

theorem takes_exactly (c : Char) : (exactly c).Takes b [c] r [] :=
  takes_char (by simp)

theorem takes_many1 {accepts : Char → Bool} (hne : u ≠ []) (hu : ∀ c ∈ u, accepts c = true)
    (hr : Halts accepts r) : (many1 accepts).Takes b u r [] := by
  obtain ⟨c, u, rfl⟩ := List.exists_cons_of_ne_nil hne
  obtain ⟨hc, hu⟩ := List.forall_mem_cons.mp hu
  exact (takes_char hc).seq (takes_many hu hr)

theorem refuses_exactly {c : Char} (h : r.head? ≠ some c) : (exactly c).Refuses b r := by
  refine refuses_char fun d hd => ?_
  rw [Option.mem_def] at hd
  by_contra hne
  simp only [Bool.not_eq_false, beq_iff_eq] at hne
  exact h (hne ▸ hd)

theorem refuses_many1 {accepts : Char → Bool} (hr : Halts accepts r) :
    (many1 accepts).Refuses b r :=
  (refuses_char hr).seq_left _

theorem Refuses.maybe_seq (hp : p.Refuses b r) (hq : q.Refuses b r) :
    (p.maybe.seq q).Refuses b r := by
  intro i captures
  rw [ends, Pattern.maybe, ends, hp, List.nil_append, ends, List.flatMap_singleton, hq]

/-- What may be there is passed over when the rest refuses behind it. -/
theorem Takes.maybe_seq_right (hp : (p.seq q).Refuses b (u ++ r)) (hq : q.Takes b u r m) :
    (p.maybe.seq q).Takes b u r m := by
  intro i captures
  have refused : (p.ends ⟨b, u ++ r, i, captures⟩).flatMap q.ends = [] := hp i captures
  rw [ends, Pattern.maybe, ends, List.flatMap_append, refused, List.nil_append, ends,
    List.flatMap_singleton]
  exact hq i captures

theorem refuses_notAhead_seq (hq : q.Refuses b r) : (p.notAhead.seq q).Refuses b r := by
  refine refuses_seq fun u v huv hu => ?_
  obtain rfl : u = [] := hu
  obtain rfl : r = v := huv
  exact hq

/-- Stops that come before the one behind `u` do not count when the pattern that follows refuses
there. -/
theorem takes_capture_seq (slot : Nat)
    (hstops : ∀ i captures, ∃ inner outer, p.ends ⟨b, u ++ v ++ r, i, captures⟩ =
      inner ++ ⟨lastChar b u, v ++ r, i + u.length, captures⟩ :: outer ∧ ∀ d ∈ inner,
        q.Refuses d.before d.rest)
    (hq : q.Takes (lastChar b u) v r m) :
    ((p.capture slot).seq q).Takes b (u ++ v) r (m ++ [(slot, u)]) := by
  intro i captures
  let first : Cursor := ⟨b, u ++ v ++ r, i, captures⟩
  let marked : List (Nat × Capture) := (slot, ⟨u ++ v ++ r, u.length⟩) :: captures
  obtain ⟨captures', hends, hm⟩ := hq (i + u.length) marked
  obtain ⟨inner, outer, hstops, hinner⟩ := hstops i captures
  refine ⟨captures', ?_, ?_⟩
  · have none : (inner.map (Cursor.mark slot first)).flatMap q.ends = [] := by
      rw [List.flatMap_eq_nil_iff]
      intro d hd
      obtain ⟨e, he, rfl⟩ := List.mem_map.mp hd
      exact hinner e he _ _
    have last : Cursor.mark slot first ⟨lastChar b u, v ++ r, i + u.length, captures⟩ =
        ⟨lastChar b u, v ++ r, i + u.length, marked⟩ := by
      simp [Cursor.mark, first, marked]
    change List.head? (((p.ends first).map (Cursor.mark slot first)).flatMap q.ends) = _
    rw [hstops, List.map_append, List.map_cons, List.flatMap_append, none, List.nil_append, last,
      List.flatMap_cons, List.head?_append_of_ne_nil _ (by
        intro h
        rw [h] at hends
        cases hends), hends]
    simp only [lastChar_append, List.length_append, Nat.add_assoc]
  · have text : (⟨u ++ v ++ r, u.length⟩ : Capture).text = u := by
      rw [Capture.text, List.append_assoc, List.take_left]
    rw [hm]
    change m ++ (slot, Capture.text _) :: Marking.of captures = _
    rw [text]
    simp

/-- As few characters as possible: the pattern behind them has to refuse at every earlier place. -/
theorem takes_few_seq {accepts : Char → Bool} (hu : ∀ c ∈ u, accepts c = true) (slot : Nat)
    (hinner : ∀ x y, u = x ++ y → y ≠ [] → q.Refuses (lastChar b x) (y ++ (v ++ r)))
    (hq : q.Takes (lastChar b u) v r m) :
    (((few accepts).capture slot).seq q).Takes b (u ++ v) r (m ++ [(slot, u)]) := by
  refine takes_capture_seq slot (fun i captures => ?_) hq
  obtain ⟨inner, outer, hstops, hmem⟩ := Cursor.stopsFrom_append (r := v ++ r) hu b i captures
  refine ⟨inner, outer, ?_, fun d hd => ?_⟩
  · rw [List.append_assoc]
    exact hstops
  · obtain ⟨x, y, hxy, hy, rfl⟩ := hmem d hd
    exact hinner x y hxy hy

theorem takes_few1_seq {accepts : Char → Bool} (hne : u ≠ []) (hu : ∀ c ∈ u, accepts c = true)
    (slot : Nat)
    (hinner : ∀ x y, u = x ++ y → x ≠ [] → y ≠ [] → q.Refuses (lastChar b x) (y ++ (v ++ r)))
    (hq : q.Takes (lastChar b u) v r m) :
    (((few1 accepts).capture slot).seq q).Takes b (u ++ v) r (m ++ [(slot, u)]) := by
  refine takes_capture_seq slot (fun i captures => ?_) hq
  obtain ⟨c, u, rfl⟩ := List.exists_cons_of_ne_nil hne
  obtain ⟨hc, hu⟩ := List.forall_mem_cons.mp hu
  obtain ⟨inner, outer, hstops, hmem⟩ :=
    Cursor.stopsFrom_append (r := v ++ r) hu (some c) (i + 1) captures
  refine ⟨inner, outer, ?_, fun d hd => ?_⟩
  · have later : i + 1 + u.length = i + (c :: u).length := by
      rw [List.length_cons]
      omega
    rw [lastChar_cons, ← later, ← hstops]
    simp [few1, ends, hc, Cursor.stops]
  · obtain ⟨x, y, hxy, hy, rfl⟩ := hmem d hd
    have := hinner (c :: x) y (by rw [hxy]; rfl) (List.cons_ne_nil _ _) hy
    rwa [lastChar_cons] at this

theorem takes_many_seq {accepts : Char → Bool} (hu : ∀ c ∈ u, accepts c = true) (slot : Nat)
    (houter : ∀ x y, v ++ r = x ++ y → x ≠ [] → q.Refuses (lastChar (lastChar b u) x) y)
    (hq : q.Takes (lastChar b u) v r m) :
    (((many accepts).capture slot).seq q).Takes b (u ++ v) r (m ++ [(slot, u)]) := by
  refine takes_capture_seq slot (fun i captures => ?_) hq
  obtain ⟨inner, hstops⟩ : ∃ inner, Cursor.stopsFrom accepts captures b (u ++ (v ++ r)) i =
      inner ++ Cursor.stopsFrom accepts captures (lastChar b u) (v ++ r) (i + u.length) :=
    Cursor.exists_stopsFrom_append hu
  obtain ⟨outer, hrest, hmem⟩ :=
    @Cursor.exists_stopsFrom_eq_cons accepts captures (lastChar b u) (v ++ r) (i + u.length)
  refine ⟨outer.reverse, inner.reverse, ?_, fun d hd => ?_⟩
  · rw [ends, Cursor.stops, List.append_assoc, hstops, hrest]
    simp
  · obtain ⟨x, hx, hxy, hbefore⟩ := hmem d (List.mem_reverse.mp hd)
    rw [hbefore]
    exact houter x d.rest hxy hx

theorem match?_of_takes (h : p.Takes none u r m) :
    ∃ found, p.match? (u ++ r) = some found ∧ found.stop = u.length ∧
      ∀ slot, found.capture? slot = m.find? slot := by
  obtain ⟨captures, hends, hm⟩ := h 0 []
  refine ⟨⟨u.length, captures⟩, ?_, rfl, fun slot => ?_⟩
  · rw [match?, Cursor.start, run_some, hends]
    simp
  · rw [Match.capture?, findCapture?_eq, hm]
    simp [Marking.of]

theorem match?_eq_none_of_refuses (h : p.Refuses none r) : p.match? r = none := by
  rw [match?, Cursor.start, run_some, h]
  rfl

theorem match?_textStart (t : Text) : (textStart.seq p).match? t = p.match? t := by
  rw [match?, match?, Cursor.start, run_some, run_some]
  simp [ends]

/-- A pattern that starts at the start of a text, matched against a text that is given as what it
takes and the rest behind it. -/
theorem match?_start_of_takes {w : Pattern} (hw : w = textStart.seq p) {t : Text} (ht : t = u ++ r)
    (h : p.Takes none u r m) : ∃ found, w.match? t = some found ∧ found.stop = u.length ∧
      ∀ slot, found.capture? slot = m.find? slot := by
  rw [hw, ht, match?_textStart]
  exact match?_of_takes h

theorem match?_start_of_refuses {w : Pattern} (hw : w = textStart.seq p) (h : p.Refuses none r) :
    w.match? r = none := by
  rw [hw, match?_textStart]
  exact match?_eq_none_of_refuses h

theorem occurrenceAt?_of_takes (h : p.Takes b u r m) (hu : u ≠ []) (i : Nat) :
    ∃ o, p.occurrenceAt? ⟨b, u ++ r, i, []⟩ = some o ∧ o.start = i ∧ o.stop = i + u.length ∧
      ∀ slot, o.capture? slot = m.find? slot := by
  obtain ⟨captures, hends, hm⟩ := h i []
  have hpos : i < i + u.length := by
    have := List.length_pos_of_ne_nil hu
    omega
  refine ⟨⟨i, i + u.length, captures, hpos⟩, ?_, rfl, rfl, fun slot => ?_⟩
  · simp only [occurrenceAt?, run_some, hends]
    rw [dif_pos hpos]
  · rw [Occurrence.capture?, findCapture?_eq, hm]
    simp [Marking.of]

theorem occurrenceAt?_of_refuses (h : p.Refuses b r) (i : Nat) :
    p.occurrenceAt? ⟨b, r, i, []⟩ = none := by
  rw [occurrenceAt?, run_some, h]
  rfl

theorem exists_first_occurrence (hv : ∀ x y, v = x ++ y → y ≠ [] →
      p.Refuses (lastChar b x) (y ++ (u ++ r)))
    (hu : u ≠ []) (htakes : p.Takes (lastChar b v) u r m) (i : Nat) :
    ∃ o, (p.occurrencesFrom b (v ++ (u ++ r)) i 0).head? = some o ∧ o.start = i + v.length ∧
      o.stop = i + v.length + u.length := by
  induction v generalizing b i with
  | nil =>
    obtain ⟨o, ho, hstart, hstop, -⟩ := occurrenceAt?_of_takes htakes hu i
    obtain ⟨c, u, rfl⟩ := List.exists_cons_of_ne_nil hu
    refine ⟨o, ?_, hstart, hstop⟩
    rw [lastChar_nil] at ho
    rw [List.nil_append, List.cons_append, occurrencesFrom, ← List.cons_append, ho]
    rfl
  | cons c v ih =>
    have here := hv [] (c :: v) rfl (List.cons_ne_nil c v)
    have refused := occurrenceAt?_of_refuses here i
    obtain ⟨o, hfound, hstart, hstop⟩ := ih (b := some c)
      (fun x y hxy hy => by simpa using hv (c :: x) y (by rw [hxy, List.cons_append]) hy)
      (by simpa using htakes) (i + 1)
    rw [lastChar_nil] at refused
    refine ⟨o, ?_, by simp [hstart]; omega, by simp [hstop]; omega⟩
    rw [List.cons_append, occurrencesFrom, ← List.cons_append, refused, hfound]

end Pattern

end SqlCanvas
