import SqlCanvas.Proofs.Pattern.Best

/-!
# Single stops

A stop of a pattern that is found at the end of a match is taken apart into stops of the parts of
the pattern, each behind the last, and the best stop of the first part is the one of the whole when
the rest succeeds behind it.
-/

namespace SqlCanvas

namespace Pattern

variable {p q : Pattern} {c d : Cursor} {slot : Nat}

theorem exists_mem_of_mem_seq (h : d ∈ (p.seq q).ends c) : ∃ e ∈ p.ends c, d ∈ q.ends e :=
  List.mem_flatMap.mp h

theorem mem_ends_boundary : d ∈ boundary.ends c ↔ d = c ∧ c.atBoundary = true := by
  rw [ends]
  split
  · simp [*]
  · simp [*]

theorem exists_passes (hp : p.marks = []) (h : d ∈ p.ends c) :
    ∃ u, p.Covers u ∧ c.Passes u d ∧ d.captures = c.captures := by
  obtain ⟨u, new, hs⟩ := exists_stops h
  have nothing : new = [] := by
    refine List.eq_nil_iff_forall_not_mem.mpr fun x hx => ?_
    obtain ⟨-, body, hbody, -⟩ := hs.marks x hx
    rw [hp] at hbody
    cases hbody
  exact ⟨u, hs.covers, hs.passes, by rw [hs.captures, nothing, List.nil_append]⟩

theorem exists_mark (hp : p.marks = []) (h : d ∈ (p.capture slot).ends c) : ∃ u, ∃ e ∈ p.ends c,
    p.Covers u ∧ c.Passes u e ∧ c.Passes u d ∧ Marking.of d.captures =
      (slot, u) :: Marking.of c.captures := by
  obtain ⟨e, he, rfl⟩ := List.mem_map.mp h
  obtain ⟨u, hu, hpasses, hcaptures⟩ := exists_passes hp he
  have marked : (⟨c.rest, e.index - c.index⟩ : Capture).text = u := by
    simp [Capture.text, hpasses.rest, hpasses.index]
  refine ⟨u, e, he, hu, hpasses, ⟨hpasses.rest, hpasses.index, hpasses.before⟩, ?_⟩
  change (slot, Capture.text _) :: Marking.of e.captures = _
  rw [marked, hcaptures]

theorem find?_of_mem_ends (hd : d ∈ q.ends c) (hslot : ∀ x ∈ q.marks, x.1 ≠ slot) :
    (Marking.of d.captures).find? slot = (Marking.of c.captures).find? slot := by
  obtain ⟨u, new, stops⟩ := exists_stops hd
  have other : ∀ y ∈ Marking.of new, y.1 ≠ slot := by
    intro y hy
    obtain ⟨z, hz, rfl⟩ := List.mem_map.mp hy
    obtain ⟨-, body, hbody, -⟩ := stops.marks z hz
    exact hslot _ hbody
  rw [stops.captures, Marking.of, List.map_append]
  change Marking.find? (Marking.of new ++ Marking.of c.captures) slot = _
  rw [Marking.find?_append, Marking.find?_of_forall_ne other, Option.none_or]

/-- The first stop of a marked pattern is the one marked when the rest succeeds behind it. -/
theorem captured_of_takes {t u r : Text} {m : Match} (hp : p.Takes none u r [])
    (hq : ∀ b i captures, q.ends ⟨b, r, i, captures⟩ ≠ []) (hslot : ∀ x ∈ q.marks, x.1 ≠ slot)
    (ht : t = u ++ r) (hm : ((p.capture slot).seq q).match? t = some m) : m.captured slot = u := by
  obtain ⟨captures, hfirst, hmarked⟩ := hp.capture slot 0 []
  obtain ⟨ds, hds⟩ := List.head?_eq_some_iff.mp hfirst
  obtain ⟨e, hrun, rfl⟩ := Option.map_eq_some_iff.mp hm
  rw [run_some, ht, ends, Cursor.start, hds, List.flatMap_cons,
    List.head?_append_of_ne_nil _ (hq _ _ _)] at hrun
  have same := find?_of_mem_ends (List.mem_of_head? hrun) hslot
  rw [hmarked, List.singleton_append, Marking.find?_cons, if_pos rfl] at same
  rw [Match.captured, Match.capture?, findCapture?_eq, same]
  rfl

theorem Takes.exists_mem {b : Option Char} {u r : Text} {m : Marking} (h : p.Takes b u r m)
    (i : Nat) (captures : List (Nat × Capture)) :
    ∃ captures', ⟨lastChar b u, r, i + u.length, captures'⟩ ∈ p.ends ⟨b, u ++ r, i, captures⟩ := by
  obtain ⟨captures', hfirst, -⟩ := h i captures
  exact ⟨captures', List.mem_of_head? hfirst⟩

theorem mem_ends_oneOf {ps : List Pattern} (hp : p ∈ ps) (hd : d ∈ p.ends c) :
    d ∈ (oneOf ps).ends c := by
  induction ps with
  | nil => cases hp
  | cons p' ps ih =>
    cases ps with
    | nil => exact List.mem_singleton.mp hp ▸ hd
    | cons q ps =>
      rcases List.mem_cons.mp hp with rfl | hp
      · exact List.mem_append_left _ hd
      · exact List.mem_append_right _ (ih hp)

theorem exists_mem_of_mem_oneOf {ps : List Pattern} (h : d ∈ (oneOf ps).ends c) :
    ∃ p ∈ ps, d ∈ p.ends c := by
  induction ps with
  | nil =>
    obtain ⟨b, t, i, captures⟩ := c
    cases t <;> simp [oneOf, ends] at h
  | cons p ps ih =>
    cases ps with
    | nil => exact ⟨p, List.mem_singleton_self p, h⟩
    | cons q ps =>
      rcases List.mem_append.mp h with h | h
      · exact ⟨p, List.mem_cons_self, h⟩
      · obtain ⟨p', hp', h⟩ := ih h
        exact ⟨p', List.mem_cons_of_mem _ hp', h⟩

theorem exists_covers_of_capture? {ps : List Pattern} {t : Text} {m : Match}
    (hm : (all (ps ++ [.maybe q, .textEnd])).match? t = some m)
    (hslot : ∀ x ∈ (all ps).marks, x.1 ≠ slot) (h : (m.capture? slot).isSome) :
    ∃ l u r, t = l ++ (u ++ r) ∧ q.Covers u := by
  obtain ⟨d, hrun, rfl⟩ := Option.map_eq_some_iff.mp hm
  have hd := mem_ends_of_run hrun
  rw [ends_all_append] at hd
  obtain ⟨c, hc, hd⟩ := List.mem_flatMap.mp hd
  obtain ⟨e, he, hend⟩ := exists_mem_of_mem_seq hd
  obtain ⟨l, _, front⟩ := exists_stops hc
  rcases List.mem_append.mp he with he | he
  · obtain ⟨u, _, part⟩ := exists_stops he
    refine ⟨l, u, e.rest, ?_, part.covers⟩
    rw [← part.passes.rest]
    exact front.passes.rest
  · obtain rfl := List.mem_singleton.mp he
    have unset : (Marking.of d.captures).find? slot = none := by
      rw [find?_of_mem_ends hend (List.forall_mem_nil _), find?_of_mem_ends hc hslot]
      rfl
    rw [Match.capture?, findCapture?_eq, unset] at h
    cases h

end Pattern

end SqlCanvas
