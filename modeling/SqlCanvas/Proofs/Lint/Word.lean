import SqlCanvas.Lint
import SqlCanvas.Proofs.Pattern.Stop
import SqlCanvas.Proofs.Statement.Lead
import SqlCanvas.Proofs.Text.Place

/-!
# Words of a text

The lint looks for keywords anywhere in a text. `Lint.hasWord_iff` says that it finds a keyword just
where one stands as a word, in literals, names and comments as well.
-/

namespace SqlCanvas

open Text Pattern

namespace Lint

/-- A keyword is found when it stands somewhere in the text as a word of its own. -/
theorem hasWord_iff {ks : List String} (hks : ∀ k ∈ ks, IsKeyword k.toList) (t : Text) :
    hasWord ks t = true ↔ ∃ k ∈ ks, HasWord k.toList t := by
  have spells {u : Text} (hu : (oneOf (ks.map word)).Covers u) : ∃ k ∈ ks, Spells k.toList u := by
    obtain ⟨p, hp, hu⟩ := covers_oneOf.mp hu
    obtain ⟨k, hk, rfl⟩ := List.mem_map.mp hp
    exact ⟨k, hk, covers_letters.mp hu⟩
  have full : ∀ u, (Pattern.all [.boundary, .oneOf (ks.map word), .boundary]).Covers u →
      u ≠ [] := by
    rintro u ⟨_, _, rfl, ⟨w, _, hw, ⟨_, _, rfl, rfl, rfl⟩, rfl⟩, rfl⟩
    obtain ⟨k, hk, hspells⟩ := spells hw
    simpa using hspells.ne_nil (hks k hk).1
  rw [hasWord, occursIn_iff full]
  -- Both boundaries say something because a keyword begins and ends in word characters.
  constructor
  · rintro ⟨l, r, rfl, -, hends⟩
    obtain ⟨u, r, rfl, hu, hstart, hword⟩ := matches_seq ⟨_, _, hends⟩
    obtain rfl : u = [] := hu
    obtain ⟨w, r, rfl, hw, -, hend⟩ := matches_seq hword
    obtain ⟨-, -, -, -, hend, -⟩ := matches_seq hend
    obtain ⟨k, hk, hspells⟩ := spells hw
    have name := hspells.isName (hks k hk)
    refine ⟨k, hk, l, w, r, rfl, hspells, fun c hc => ?_, ?_⟩
    · have := matches_boundary hstart
      obtain ⟨d, w, rfl⟩ := List.exists_cons_of_ne_nil name.1
      rw [lastChar_none, Option.mem_def.mp hc] at this
      simpa [name.2 d List.mem_cons_self] using this
    · obtain ⟨c, hc, hlast⟩ := lastChar_of_ne_nil name.1 (lastChar (lastChar none l) [])
      rw [hlast] at hend
      exact halts_of_matches_boundary (name.2 c hc) hend
  · rintro ⟨k, hk, l, w, r, rfl, hspells, hl, hr⟩
    have name := hspells.isName (hks k hk)
    rw [← lastChar_none] at hl
    refine ⟨l, w ++ r, rfl, by simp [name.1],
      ends_bounded_ne_nil name hl hr (fun i captures => ?_) _ _⟩
    obtain ⟨captures', hword⟩ :=
      (takes_word hspells).exists_mem (b := lastChar none l) (r := r) i captures
    exact ⟨captures', mem_ends_oneOf (List.mem_map.mpr ⟨k, hk, rfl⟩) hword⟩

end Lint

end SqlCanvas
