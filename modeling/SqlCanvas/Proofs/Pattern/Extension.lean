import SqlCanvas.Proofs.Pattern.Best

/-!
# A text that goes on

What a pattern does in a text that goes on behind its end. A local pattern, one that asks neither
for the end of the text nor for what comes next, has in the longer text the stops that it has in the
shorter one, in the same order, and between them only stops behind the end. So a match that cannot
lie behind the end stays the best one.
-/

namespace SqlCanvas

variable {e : Text}

def Capture.extend (e : Text) (x : Capture) : Capture :=
  ⟨x.tail ++ e, x.length⟩

def Capture.IsWithin (x : Capture) : Prop :=
  x.length ≤ x.tail.length

theorem Capture.IsWithin.text_extend {x : Capture} (h : x.IsWithin) (e : Text) :
    (x.extend e).text = x.text :=
  List.take_append_of_le_length h

def extendCaptures (e : Text) (captures : List (Nat × Capture)) : List (Nat × Capture) :=
  captures.map fun x => (x.1, x.2.extend e)

theorem findCapture?_extend {captures : List (Nat × Capture)} (h : ∀ x ∈ captures, x.2.IsWithin)
    (slot : Nat) : findCapture? (extendCaptures e captures) slot = findCapture? captures slot := by
  induction captures with
  | nil => rfl
  | cons x captures ih =>
    obtain ⟨hx, hcaptures⟩ := List.forall_mem_cons.mp h
    have later := ih hcaptures
    simp only [findCapture?, extendCaptures, List.map_cons, List.find?_cons] at later ⊢
    split
    · exact congrArg some (hx.text_extend e)
    · exact later

namespace Cursor

def extend (e : Text) (c : Cursor) : Cursor :=
  ⟨c.before, c.rest ++ e, c.index, extendCaptures e c.captures⟩

/-- Whether a place in a text that goes on with `e` lies in front of it. -/
def isInside (e : Text) (c : Cursor) : Bool :=
  decide (e.length ≤ c.rest.length)

theorem isInside_extend (c : Cursor) : (c.extend e).isInside e = true := by
  simp [isInside, extend]

/-- A continuation that does not start with a word character looks like the end of the text. -/
theorem atBoundary_extend (he : Halts Text.isWord e) (c : Cursor) :
    (c.extend e).atBoundary = c.atBoundary := by
  obtain ⟨b, r, i, captures⟩ := c
  cases r with
  | nil =>
    cases e with
    | nil => rfl
    | cons x e => simp [atBoundary, extend, halts_cons.mp he]
  | cons => rfl

theorem Passes.isInside {c d : Cursor} {u : Text} (h : c.Passes u d) (hd : d.isInside e = true) :
    c.isInside e = true := by
  simp only [Cursor.isInside, decide_eq_true_eq, h.rest, List.length_append] at hd ⊢
  omega

theorem filter_stopsFrom_outside (accepts : Char → Bool) (captures : List (Nat × Capture))
    (b : Option Char) {r : Text} (hr : r.length < e.length) (i : Nat) :
    (stopsFrom accepts captures b r i).filter (isInside e) = [] := by
  rw [List.filter_eq_nil_iff]
  intro d hd
  obtain ⟨u, -, hpasses, -⟩ := mem_stopsFrom hd
  intro inside
  have := hpasses.isInside inside
  simp only [isInside, decide_eq_true_eq] at this
  omega

theorem filter_stopsFrom_extend (accepts : Char → Bool) (captures : List (Nat × Capture))
    (b : Option Char) (r : Text) (i : Nat) :
    (stopsFrom accepts (extendCaptures e captures) b (r ++ e) i).filter (isInside e) =
      (stopsFrom accepts captures b r i).map (extend e) := by
  induction r generalizing b i with
  | nil =>
    cases e with
    | nil => rfl
    | cons c e =>
      simp only [List.nil_append, stopsFrom]
      rw [List.filter_cons_of_pos (by simp [isInside])]
      refine congrArg (_ :: ·) ?_
      split
      · exact filter_stopsFrom_outside accepts _ _ (by simp) _
      · rfl
  | cons c r ih =>
    have here : isInside e ⟨b, c :: (r ++ e), i, extendCaptures e captures⟩ = true := by
      simp only [isInside, List.length_cons, List.length_append, decide_eq_true_eq]
      omega
    rw [List.cons_append, stopsFrom, stopsFrom, List.map_cons, List.filter_cons_of_pos here]
    refine congrArg (_ :: ·) ?_
    split
    · exact ih (some c) (i + 1)
    · rfl

end Cursor

namespace Pattern

variable {p : Pattern} {c d : Cursor}

/-- Whether a pattern looks no further than its stops, and at most at the one character behind
them. -/
def isLocal : Pattern → Bool
  | textEnd | notAhead _ => false
  | seq first second | alt first second => first.isLocal && second.isLocal
  | capture _ body => body.isLocal
  | _ => true

theorem isInside_of_mem_ends (h : d ∈ p.ends c) (hd : d.isInside e = true) :
    c.isInside e = true := by
  obtain ⟨u, new, hs⟩ := exists_stops h
  exact hs.passes.isInside hd

theorem filter_ends_outside (hc : c.isInside e = false) :
    (p.ends c).filter (Cursor.isInside e) = [] := by
  rw [List.filter_eq_nil_iff]
  intro d hd inside
  rw [isInside_of_mem_ends hd inside] at hc
  cases hc

/-- From a place behind the end no stop in front of it is reached. -/
theorem filter_flatMap_ends (p : Pattern) (ds : List Cursor) :
    (ds.flatMap p.ends).filter (Cursor.isInside e) =
      ((ds.filter (Cursor.isInside e)).flatMap p.ends).filter (Cursor.isInside e) := by
  induction ds with
  | nil => rfl
  | cons d ds ih =>
    cases hd : d.isInside e with
    | true =>
      rw [List.filter_cons_of_pos hd, List.flatMap_cons, List.flatMap_cons, List.filter_append,
        List.filter_append, ih]
    | false =>
      rw [List.filter_cons_of_neg (by simp [hd]), List.flatMap_cons, List.filter_append,
        filter_ends_outside hd, List.nil_append, ih]

theorem filter_flatMap_extend
    (hp : ∀ c, (p.ends (c.extend e)).filter (Cursor.isInside e) = (p.ends c).map (Cursor.extend e))
    (ds : List Cursor) :
    ((ds.map (Cursor.extend e)).flatMap p.ends).filter (Cursor.isInside e) =
      (ds.flatMap p.ends).map (Cursor.extend e) := by
  induction ds with
  | nil => rfl
  | cons d ds ih =>
    rw [List.map_cons, List.flatMap_cons, List.filter_append, hp, ih, List.flatMap_cons,
      List.map_append]

/-- The stops of a local pattern in front of the continuation are its stops in the text without
it. -/
theorem filter_ends_extend (hp : p.isLocal = true) (he : Halts Text.isWord e) (c : Cursor) :
    (p.ends (c.extend e)).filter (Cursor.isInside e) = (p.ends c).map (Cursor.extend e) := by
  have kept (c : Cursor) : [c.extend e].filter (Cursor.isInside e) = [c].map (Cursor.extend e) :=
    List.filter_cons_of_pos (Cursor.isInside_extend c)
  induction p generalizing c with
  | skip => exact kept c
  | char accepts =>
    obtain ⟨b, r, i, captures⟩ := c
    cases r with
    | nil =>
      -- The one stop that the longer text may add lies behind its first new character.
      cases e with
      | nil => rfl
      | cons x e =>
        simp only [ends, Cursor.extend, List.nil_append]
        split
        · exact List.filter_cons_of_neg (by simp [Cursor.isInside])
        · rfl
    | cons x r =>
      simp only [ends, Cursor.extend, List.cons_append]
      split
      · exact kept ⟨some x, r, i + 1, captures⟩
      · rfl
  | seq first second ih₁ ih₂ =>
    obtain ⟨hfirst, hsecond⟩ := (Bool.and_eq_true _ _).mp hp
    rw [ends, filter_flatMap_ends, ih₁ hfirst, filter_flatMap_extend (ih₂ hsecond)]
    rfl
  | alt first second ih₁ ih₂ =>
    obtain ⟨hfirst, hsecond⟩ := (Bool.and_eq_true _ _).mp hp
    rw [ends, List.filter_append, ih₁ hfirst, ih₂ hsecond, ends, List.map_append]
  | many accepts =>
    rw [ends, ends, List.filter_reverse, List.map_reverse]
    exact congrArg List.reverse
      (Cursor.filter_stopsFrom_extend accepts c.captures c.before c.rest c.index)
  | few accepts => exact Cursor.filter_stopsFrom_extend accepts c.captures c.before c.rest c.index
  | capture slot body ih =>
    have marked := ih hp c
    rw [ends, List.filter_map]
    change List.map _ ((body.ends (c.extend e)).filter (Cursor.isInside e)) = _
    rw [marked, ends, List.map_map, List.map_map]
    rfl
  | boundary =>
    rw [ends, ends, Cursor.atBoundary_extend he]
    split
    · exact kept c
    · rfl
  | textStart =>
    rw [ends, ends]
    change List.filter _ (if c.index = 0 then _ else _) = _
    split
    · exact kept c
    · rfl
  | textEnd => cases hp
  | notAhead body => cases hp

theorem isWithin_of_mem_ends (h : d ∈ p.ends c) (hc : ∀ x ∈ c.captures, x.2.IsWithin) :
    ∀ x ∈ d.captures, x.2.IsWithin := by
  -- Marks are set by `capture` alone, and from there the cursor only goes forward.
  induction p generalizing c d with
  | skip => exact List.mem_singleton.mp h ▸ hc
  | char accepts =>
    rw [ends] at h
    split at h
    · cases h
    · split at h
      · exact List.mem_singleton.mp h ▸ hc
      · cases h
  | seq first second ih₁ ih₂ =>
    obtain ⟨c', hc', hd⟩ := List.mem_flatMap.mp h
    exact ih₂ hd (ih₁ hc' hc)
  | alt first second ih₁ ih₂ =>
    rcases List.mem_append.mp h with h | h
    · exact ih₁ h hc
    · exact ih₂ h hc
  | many accepts =>
    obtain ⟨-, -, -, same⟩ := Cursor.mem_stopsFrom (List.mem_reverse.mp h)
    exact same ▸ hc
  | few accepts =>
    obtain ⟨-, -, -, same⟩ := Cursor.mem_stopsFrom h
    exact same ▸ hc
  | capture slot body ih =>
    obtain ⟨d, hd, rfl⟩ := List.mem_map.mp h
    obtain ⟨u, _, hs⟩ := exists_stops hd
    refine List.forall_mem_cons.mpr ⟨?_, ih hd hc⟩
    simp only [Capture.IsWithin, hs.passes.index, hs.passes.rest, List.length_append]
    omega
  | boundary | textStart | textEnd | notAhead =>
    rw [ends] at h
    split at h
    · exact List.mem_singleton.mp h ▸ hc
    · cases h

end Pattern

/-- The same match in a text that goes on. -/
def Match.extend (e : Text) (m : Match) : Match :=
  ⟨m.stop, extendCaptures e m.captures⟩

namespace Pattern

variable {p : Pattern} {t : Text}

theorem capture?_extend {m : Match} (h : p.match? t = some m) (slot : Nat) :
    (m.extend e).capture? slot = m.capture? slot := by
  obtain ⟨d, hd, rfl⟩ := Option.map_eq_some_iff.mp h
  exact findCapture?_extend (isWithin_of_mem_ends (mem_ends_of_run hd) nofun) slot

theorem captured_extend {m : Match} (h : p.match? t = some m) (slot : Nat) :
    (m.extend e).captured slot = m.captured slot := by
  rw [Match.captured, capture?_extend h, Match.captured]

/-- A local pattern whose stretches cannot reach behind the end of a text matches it as it matches
what goes on. -/
theorem match?_append (hp : p.isLocal = true) (he : Halts Text.isWord e)
    (hinside : ∀ u v, t ++ e = u ++ v → p.Covers u → u.length ≤ t.length) :
    p.match? (t ++ e) = (p.match? t).map (Match.extend e) := by
  have all : ∀ d ∈ p.ends (.start (t ++ e)), d.isInside e = true := by
    intro d hd
    obtain ⟨u, _, hs⟩ := exists_stops hd
    have := hinside u d.rest hs.passes.rest hs.covers
    have total := congrArg List.length hs.passes.rest
    simp only [Cursor.start, List.length_append] at total
    simp only [Cursor.isInside, decide_eq_true_eq]
    omega
  have same := filter_ends_extend hp he (.start t)
  change (p.ends (.start (t ++ e))).filter _ = _ at same
  rw [List.filter_eq_self.mpr all] at same
  rw [match?, match?, run_some, run_some, same, List.head?_map]
  cases (p.ends (.start t)).head? <;> rfl

theorem length_le_of_last {t u v : Text} {c : Char} (h : t ++ e = u ++ v)
    (hlast : u.getLast? = some c) (hc : c ∉ e) : u.length ≤ t.length := by
  rcases List.append_eq_append_iff.mp h with ⟨w, rfl, hw⟩ | ⟨w, rfl, -⟩
  · cases w with
    | nil => simp
    | cons x w =>
      rw [List.getLast?_append_of_ne_nil _ (List.cons_ne_nil x w)] at hlast
      exact absurd (hw ▸ List.mem_append_left v (List.mem_of_mem_getLast? hlast)) hc
  · simp

end Pattern

end SqlCanvas
