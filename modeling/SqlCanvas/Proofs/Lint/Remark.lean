import SqlCanvas.Proofs.Lint.Word

/-!
# Remarks and their messages

A remark can be told by its message. Most remarks are made for want of some keyword, and each of
these only where the keyword stands nowhere in the text.
-/

namespace SqlCanvas

open Text

namespace Remark

theorem ending_iff (r : Remark) : r.message.toList.reverse.take 2 = ".n".toList ↔
    ∃ keyword, r = .unfiltered keyword := by
  cases r with
  | unfiltered keyword =>
    refine iff_of_true ?_ ⟨keyword, rfl⟩
    rw [message, String.toList_append, List.reverse_append]
    rfl
  | unknownKind | missingFrom | selectAll | noRowLimit | insertWithoutSource | comments =>
    exact iff_of_false (by decide) nofun

/-- No two remarks have the same message. -/
theorem message_injective : Function.Injective message := by
  intro r r' h
  by_cases hr : ∃ keyword, r = .unfiltered keyword
  · obtain ⟨keyword', rfl⟩ := (ending_iff r').mp (h ▸ (ending_iff r).mpr hr)
    obtain ⟨keyword, rfl⟩ := hr
    have same := congrArg String.toList h
    simp only [message, String.toList_append] at same
    rw [String.toList_inj.mp (List.append_cancel_right same)]
  · have hr' : ¬ ∃ keyword, r' = .unfiltered keyword :=
      fun h' => hr ((ending_iff r).mp (h ▸ (ending_iff r').mpr h'))
    cases r with
    | unfiltered keyword => exact absurd ⟨keyword, rfl⟩ hr
    | unknownKind | missingFrom | selectAll | noRowLimit | insertWithoutSource | comments =>
      cases r' with
      | unfiltered keyword => exact absurd ⟨keyword, rfl⟩ hr'
      | unknownKind | missingFrom | selectAll | noRowLimit | insertWithoutSource | comments =>
        first
        | rfl
        | exact absurd h (by decide)

def wanted : Remark → List String
  | .missingFrom => ["FROM"]
  | .noRowLimit => ["LIMIT", "TOP", "FETCH"]
  | .unfiltered _ => ["WHERE"]
  | .insertWithoutSource => ["VALUES", "SELECT"]
  | .unknownKind | .selectAll | .comments => []

theorem isKeyword_wanted (r : Remark) : ∀ k ∈ r.wanted, IsKeyword k.toList := by
  cases r with
  | unfiltered keyword => exact List.forall_mem_singleton.mpr (by decide)
  | unknownKind | missingFrom | selectAll | noRowLimit | insertWithoutSource | comments => decide

end Remark

namespace Lint

def messages (sql : Text) : List String :=
  (warnings sql).map (·.message)

theorem mem_remarkIf {holds : Bool} {r r' : Remark} :
    r ∈ remarkIf holds r' ↔ holds = true ∧ r = r' := by
  cases holds <;> simp [remarkIf]

theorem wanted_of_mem_kindRemarks {r : Remark} {t : Text} {kind : Option String}
    (h : r ∈ kindRemarks t kind) : ∀ k ∈ r.wanted, ¬ HasWord k.toList t := by
  have missing (r' : Remark) (h : r ∈ remarkIf (!hasWord r'.wanted t) r') : ∀ k ∈ r.wanted,
      ¬ HasWord k.toList t := by
    obtain ⟨hnone, rfl⟩ := mem_remarkIf.mp h
    intro k hk hword
    rw [(hasWord_iff r.isKeyword_wanted t).mpr ⟨k, hk, hword⟩] at hnone
    cases hnone
  rw [kindRemarks.eq_def] at h
  split at h
  · rw [List.mem_singleton.mp h]
    exact List.forall_mem_nil _
  · rcases List.mem_append.mp h with h | h
    · rcases List.mem_append.mp h with h | h
      · exact missing .missingFrom h
      · rw [(mem_remarkIf.mp h).2]
        exact List.forall_mem_nil _
    · exact missing .noRowLimit h
  · exact missing (.unfiltered "UPDATE") h
  · exact missing (.unfiltered "DELETE") h
  · exact missing .insertWithoutSource h
  · cases h

/-- A remark is made only where none of the keywords it wants stands in the text. -/
theorem wanted_of_mem_remarks {r : Remark} {sql : Text} (h : r ∈ remarks sql) :
    ∀ k ∈ r.wanted, ¬ HasWord k.toList sql := by
  intro k hk
  rw [← hasWord_trim (r.isKeyword_wanted k hk)]
  rcases List.mem_append.mp h with h | h
  · exact wanted_of_mem_kindRemarks h k hk
  · rw [(mem_remarkIf.mp h).2] at hk
    cases hk

end Lint

end SqlCanvas
