import SqlCanvas.Proofs.Change.Where
import SqlCanvas.Proofs.Structure.Membership

/-!
# Assignments

The list between `SET` and the first `WHERE`. It comes apart into the assignments that were written,
and when it breaks off within a string, into those in front of that string and the part of it that
is left.
-/

namespace SqlCanvas

open Text Nesting Pattern

theorem Scalar.IsLiteral.head_not_letter {v : Scalar} (h : v.IsLiteral) :
    Halts (isLetter 'W') v.sql := by
  cases h with
  | null => exact halts_cons.mpr (by decide)
  | bool b => cases b <;> exact halts_cons.mpr (by decide)
  | int n =>
    refine halts_of_forall fun c hc => ?_
    exact ((Numeral.isNumericText_ofInt n).2 c hc).not_isLetter (by decide) (by decide)
  | string s => exact halts_cons.mpr (by decide)

theorem Scalar.IsLiteral.exists_solid {v : Scalar} (h : v.IsLiteral) :
    ∃ ts, textOf ts = v.sql ∧ Solid ts ∧ (∀ a ∈ ts, a.Avoids reserved) ∧ ∀ a ∈ ts, a.NoComma := by
  obtain ⟨l, htext, -⟩ := h.exists_written
  exact ⟨l.tokens, htext, l.solid, l.avoids, l.noComma⟩

theorem Scalar.IsLiteral.clear_sql {v : Scalar} (h : v.IsLiteral)
    (hwhere : ∀ t, v = .string t → ¬ HoldsWhere t.toList) (r : Text) : ClearOfWhere v.sql r := by
  cases h with
  | null => exact clear_of_not_isBlank (by decide) r
  | bool b => cases b <;> exact clear_of_not_isBlank (by decide) r
  | int n =>
    refine clear_of_not_isBlank (fun c hc => ?_) r
    rcases ((Numeral.isNumericText_ofInt n).2 c hc).isUnbroken with hc | ⟨hc, -⟩
    · exact not_isBlank_of_isWord hc
    · exact hc.2.1
  | string s =>
    have quote : ∀ c ∈ ['\''], isBlank c = false := by decide
    have body : ClearOfWhere (doubleQuotes '\'' s.toList) ('\'' :: r) := by
      refine clear_of_not_holdsWhere (by decide) ?_
      rw [holdsWhere_doubleQuotes (by decide)]
      exact hwhere s rfl
    exact (clear_of_not_isBlank quote _).append (body.append (clear_of_not_isBlank quote r))

structure Assigned where
  column : Ident
  value : Scalar
  literal : value.IsLiteral

def equals : Token :=
  .mark '=' (by decide)

namespace Assigned

variable (a : Assigned)

def leadTokens : List Token :=
  [a.column.token, Gap.space.token, equals]

def lead : Text :=
  a.column.text ++ " = ".toList

def text : Text :=
  a.lead ++ a.value.sql

def read : Assignment :=
  ⟨String.ofList a.column.text, String.ofList a.value.sql⟩

theorem solid_leadTokens : Solid a.leadTokens :=
  a.column.solid.spaced (.singleton rfl) .space

theorem lead_eq : a.lead = textOf a.leadTokens ++ [' '] := by
  have sign : equals.text = ['='] := rfl
  simp [lead, leadTokens, sign, Gap.space]

theorem exists_tokens :
    ∃ ts, textOf ts = a.text ∧ Solid ts ∧ (∀ x ∈ ts, x.Avoids []) ∧ ∀ x ∈ ts, x.NoComma := by
  obtain ⟨ts, htext, hsolid, havoids, hcomma⟩ := a.literal.exists_solid
  refine ⟨a.leadTokens ++ Gap.space.token :: ts, ?_, a.solid_leadTokens.spaced hsolid .space, ?_,
    ?_⟩
  · rw [text, lead_eq, ← htext]
    simp [Gap.space]
  · have column : a.column.token.Avoids [] := List.forall_mem_nil _
    refine List.forall_mem_append.mpr ⟨?_, List.forall_mem_cons.mpr ⟨trivial, fun x hx => ?_⟩⟩
    · exact List.forall_mem_cons.mpr ⟨column, List.forall_mem_cons.mpr ⟨trivial,
        List.forall_mem_singleton.mpr (by decide : '=' ≠ ';')⟩⟩
    · exact (havoids x hx).mono (List.nil_subset _)
  · refine List.forall_mem_append.mpr ⟨?_, List.forall_mem_cons.mpr ⟨trivial, hcomma⟩⟩
    exact List.forall_mem_cons.mpr ⟨trivial, List.forall_mem_cons.mpr ⟨trivial,
      List.forall_mem_singleton.mpr (by decide : '=' ≠ ',')⟩⟩

theorem skips_lead (b : Option Char) (r : Text) : Skips Text.comma b a.lead r := by
  have marked : Part Text.comma a.leadTokens := part_comma a.solid_leadTokens (by
    refine List.forall_mem_cons.mpr ⟨trivial, List.forall_mem_cons.mpr ⟨trivial, ?_⟩⟩
    exact List.forall_mem_singleton.mpr (by decide : '=' ≠ ','))
  rw [lead_eq]
  refine (marked.skips _ _ (halts_cons.mpr (by decide))).append ?_
  exact skips_comma_of_blank (List.forall_mem_singleton.mpr (by decide)) _ _

theorem clear_lead {r : Text} (hblank : Halts isBlank r) (hletter : Halts (isLetter 'W') r) :
    ClearOfWhere a.lead r := by
  have space (r : Text) (hblank : Halts isBlank r) (hletter : Halts (isLetter 'W') r) :
      ClearOfWhere [' '] r :=
    clear_gap_of_head (List.forall_mem_singleton.mpr (by decide)) hblank hletter
  have column : ClearOfWhere a.column.text (" = ".toList ++ r) :=
    clear_of_not_isBlank (fun c hc => not_isBlank_of_isWord (a.column.isName.2 c hc)) _
  have sign : ClearOfWhere ['='] ([' '] ++ r) := clear_of_not_isBlank (by decide) _
  have behind : ClearOfWhere [' ', '=', ' '] r :=
    ClearOfWhere.append (u := [' '])
      (space _ (halts_cons.mpr (by decide)) (halts_cons.mpr (by decide)))
      (ClearOfWhere.append (u := ['=']) sign (space r hblank hletter))
  exact column.append behind

theorem clear_text (hwhere : ∀ t, a.value = .string t → ¬ HoldsWhere t.toList) (r : Text) :
    ClearOfWhere a.text r := by
  obtain ⟨ts, htext, hsolid, -⟩ := a.literal.exists_solid
  refine ClearOfWhere.append (a.clear_lead ?_ ?_) (a.literal.clear_sql hwhere r)
  · rw [← htext]
    exact hsolid.halts_isBlank r
  · rw [halts_append (htext ▸ hsolid.textOf_ne_nil)]
    exact a.literal.head_not_letter

/-- The first equals sign is the one behind the column, whatever the value is. -/
theorem readAssignment?_lead {v : Text} (hhalts : Halts isBlank v)
    (hlast : ∀ c ∈ v.getLast?, isBlank c = false) :
    Change.readAssignment? (a.lead ++ v) = some ⟨String.ofList a.column.text, String.ofList v⟩ := by
  have cut (u : Text) (hu : ∀ c ∈ u, c ≠ '=') : cutAtFirst? '=' (u ++ '=' :: ' ' :: v) =
      some (u, ' ' :: v) := by
    induction u with
    | nil => rfl
    | cons c u ih =>
      obtain ⟨hc, hu⟩ := List.forall_mem_cons.mp hu
      rw [List.cons_append, cutAtFirst?, if_neg hc, ih hu]
      rfl
  have column : ∀ c ∈ a.column.text ++ [' '], c ≠ '=' := by
    refine List.forall_mem_append.mpr ⟨fun c hc => ?_, by decide⟩
    rintro rfl
    exact absurd (a.column.isName.2 _ hc) (by decide)
  have parted : a.lead ++ v = (a.column.text ++ [' ']) ++ '=' :: ' ' :: v := by simp [lead]
  have trimmedColumn : Text.trim (a.column.text ++ [' ']) = a.column.text := by
    have : Text.trim ([] ++ (textOf [a.column.token] ++ [' '])) = textOf [a.column.token] :=
      a.column.solid.trim (by simp) (by decide)
    simpa using this
  have trimmedValue : Text.trim (' ' :: v) = v := by
    have start : Text.trimStart (' ' :: v) = v := trimStart_append (g := [' ']) (by decide) hhalts
    have stop : Text.trimEnd v = v := by
      have := trimEnd_append (g := []) (List.forall_mem_nil _) hlast
      rwa [List.append_nil] at this
    rw [Text.trim, start, stop]
  rw [Change.readAssignment?, parted, cut _ column]
  simp only [Option.bind_eq_bind, Option.bind_some, trimmedColumn, trimmedValue]
  rfl

theorem readAssignment?_text : Change.readAssignment? a.text = some a.read := by
  obtain ⟨ts, htext, hsolid, -⟩ := a.literal.exists_solid
  have halts := hsolid.halts_isBlank []
  rw [List.append_nil, htext] at halts
  exact a.readAssignment?_lead halts (htext ▸ hsolid.last_not_isBlank)

end Assigned

def assignmentsText (as : List Assigned) : Text :=
  ", ".toList.intercalate (as.map Assigned.text)

def assignmentsFront (as : List Assigned) : Text :=
  as.flatMap fun a => a.text ++ ", ".toList

theorem assignmentsText_append (as bs : List Assigned) (h : bs ≠ []) :
    assignmentsText (as ++ bs) = assignmentsFront as ++ assignmentsText bs := by
  induction as with
  | nil => rfl
  | cons a as ih =>
    obtain ⟨b, cs, hcons⟩ := List.exists_cons_of_ne_nil (List.append_ne_nil_of_right_ne_nil as h)
    have first : assignmentsText (a :: (as ++ bs)) =
        a.text ++ (", ".toList ++ assignmentsText (as ++ bs)) := by
      rw [hcons, assignmentsText, List.map_cons, List.map_cons, List.intercalate_cons_cons,
        List.append_assoc]
      rfl
    rw [List.cons_append, first, ih, assignmentsFront, assignmentsFront, List.flatMap_cons]
    simp only [List.append_assoc]

theorem exists_assignmentsText_cons (a : Assigned) (as : List Assigned) :
    ∃ r, assignmentsText (a :: as) = a.text ++ r := by
  cases as with
  | nil => exact ⟨[], by simp [assignmentsText]⟩
  | cons b bs =>
    have := assignmentsText_append [a] (b :: bs) (List.cons_ne_nil _ _)
    exact ⟨", ".toList ++ assignmentsText (b :: bs), by simpa [assignmentsFront] using this⟩

/-- Written as tokens without a comma, an assignment. -/
structure Assigned.Written (a : Assigned) (ts : List Token) : Prop where
  text : textOf ts = a.text
  solid : Solid ts
  avoids : ∀ x ∈ ts, x.Avoids []
  noComma : ∀ x ∈ ts, x.NoComma

theorem Assigned.Written.part {a : Assigned} {ts : List Token} (h : a.Written ts) :
    Part Text.comma ts :=
  part_comma h.solid h.noComma

theorem exists_written_assignments (as : List Assigned) :
    ∃ tss : List (List Token), List.Forall₂ Assigned.Written as tss :=
  exists_forall₂ fun a _ =>
    a.exists_tokens.imp fun _ h => ⟨h.1, h.2.1, h.2.2.1, h.2.2.2⟩

section Lists

variable {as : List Assigned} {tss : List (List Token)} (h : List.Forall₂ Assigned.Written as tss)

include h

theorem textOf_assignments : tss.map textOf = as.map Assigned.text :=
  (map_eq_map_of_forall₂ h fun _ _ h => h.text.symm).symm

theorem part_of_mem_assignments : ∀ ts ∈ tss, Part Text.comma ts := by
  intro ts hts
  obtain ⟨a, -, ha⟩ := exists_of_forall₂_right h ts hts
  exact ha.part

theorem exists_tokens_assignmentsText (hne : as ≠ []) :
    ∃ ts, textOf ts = assignmentsText as ∧ Solid ts ∧ ∀ x ∈ ts, x.Avoids [] := by
  have tssne : tss ≠ [] := by
    rintro rfl
    exact hne (List.forall₂_nil_right_iff.mp h)
  refine ⟨(Series.ofList CommaGap.standard tss tssne).tokens CommaGap.tokens id, ?_, ?_, ?_⟩
  · rw [textOf_ofList, CommaGap.textOf_standard, assignmentsText, ← textOf_assignments h]
    rfl
  · refine Series.solid (fun s _ _ _ hts hus => s.solid hts hus) fun ts hts => ?_
    exact (part_of_mem_assignments h ts (by simpa using hts)).solid
  · intro x hx
    rcases Series.mem_tokens hx with ⟨s, -, hx⟩ | ⟨ts, hts, hx⟩
    · exact s.avoids [] x hx
    · obtain ⟨a, -, ha⟩ := exists_of_forall₂_right h ts (by simpa using hts)
      exact ha.avoids x hx

end Lists

theorem splitCommas_assignmentsFront (as : List Assigned) {z : Text}
    (hz : ∀ b, Skips Text.comma b z []) (hhalts : Halts isBlank z)
    (hlast : ∀ c ∈ z.getLast?, isBlank c = false) (hne : z ≠ []) :
    (assignmentsFront as ++ z).splitCommas = as.map Assigned.text ++ [z] := by
  obtain ⟨tss, h⟩ := exists_written_assignments as
  have pieces :
      (textOf (tss.flatMap fun ts => ts ++ CommaGap.standard.tokens) ++ z).splitTopLevel
        Text.comma = tss.map textOf ++ [z] :=
    splitTopLevel_front shy_comma (part_of_mem_assignments h) CommaGap.standard.separates hz hhalts
      hlast hne
  have front : textOf (tss.flatMap fun ts => ts ++ CommaGap.standard.tokens) =
      assignmentsFront as := by
    clear pieces
    induction h with
    | nil => rfl
    | cons ha _ ih =>
      rw [List.flatMap_cons, textOf_append, textOf_append, ih, CommaGap.textOf_standard, ha.text]
      simp [assignmentsFront]
  rw [splitCommas, ← front, pieces, ← textOf_assignments h]

/-- An end of the last assignment is as good as the whole of it to separate the others. -/
theorem readAssignments_front (as : List Assigned) (a : Assigned) {v : Text}
    (hv : ∀ b, Skips Text.comma b v []) (hhalts : Halts isBlank v)
    (hlast : ∀ c ∈ v.getLast?, isBlank c = false) (hne : v ≠ []) :
    (assignmentsFront as ++ (a.lead ++ v)).splitCommas.filterMap Change.readAssignment? =
      as.map Assigned.read ++ [⟨String.ofList a.column.text, String.ofList v⟩] := by
  have skips (b : Option Char) : Skips Text.comma b (a.lead ++ v) [] :=
    (a.skips_lead b _).append (hv _)
  have last : ∀ c ∈ (a.lead ++ v).getLast?, isBlank c = false := by
    rw [List.getLast?_append_of_ne_nil _ hne]
    exact hlast
  have halts : Halts isBlank (a.lead ++ v) := by
    rw [Assigned.lead, List.append_assoc]
    exact a.column.halts_isBlank _
  rw [splitCommas_assignmentsFront as skips halts last (List.append_ne_nil_of_right_ne_nil _ hne),
    List.filterMap_append, List.filterMap_map]
  congr 1
  · have read : (Change.readAssignment? ∘ Assigned.text) = fun a => some a.read :=
      funext fun a => a.readAssignment?_text
    rw [read, List.filterMap_eq_map']
  · rw [List.filterMap_cons_some (a.readAssignment?_lead hhalts hlast), List.filterMap_nil]

theorem readAssignments_text {as : List Assigned} (h : as ≠ []) :
    (assignmentsText as).splitCommas.filterMap Change.readAssignment? = as.map Assigned.read := by
  obtain ⟨bs, a, rfl⟩ : ∃ bs a, as = bs ++ [a] := ⟨_, _, (List.dropLast_append_getLast h).symm⟩
  obtain ⟨ts, htext, hsolid, -, hcomma⟩ := a.literal.exists_solid
  have hv (b : Option Char) : Skips Text.comma b a.value.sql [] := by
    rw [← htext]
    exact (part_comma hsolid hcomma).skips b [] (halts_nil _)
  have halts := hsolid.halts_isBlank []
  rw [List.append_nil, htext] at halts
  have single : assignmentsText [a] = a.lead ++ a.value.sql := by
    simp [assignmentsText, Assigned.text]
  rw [assignmentsText_append bs [a] (List.cons_ne_nil _ _), single,
    readAssignments_front bs a hv halts (htext ▸ hsolid.last_not_isBlank)
      (htext ▸ hsolid.textOf_ne_nil)]
  rw [List.map_append]
  rfl

theorem clear_assignmentsFront {as : List Assigned}
    (hwhere : ∀ a ∈ as, ∀ t, a.value = .string t → ¬ HoldsWhere t.toList) {a : Assigned}
    (r : Text) :
    ClearOfWhere (assignmentsFront as) (a.lead ++ r) := by
  have comma (b : Assigned) (r : Text) : ClearOfWhere ", ".toList (b.lead ++ r) := by
    have behind : ClearOfWhere [' '] (b.lead ++ r) := by
      rw [Assigned.lead, List.append_assoc]
      exact clear_gap_of_name (by decide) b.column.isName (b.column.free "WHERE" (by decide))
        (halts_cons.mpr (by decide))
    exact ClearOfWhere.append (u := [',']) (clear_of_not_isBlank (by decide) _) behind
  induction as with
  | nil => exact clear_nil _
  | cons b bs ih =>
    obtain ⟨hb, hbs⟩ := List.forall_mem_cons.mp hwhere
    have next : ∃ (c : Assigned) (s : Text), assignmentsFront bs ++ (a.lead ++ r) =
        c.lead ++ s := by
      cases bs with
      | nil => exact ⟨a, r, rfl⟩
      | cons c cs =>
        refine ⟨c, c.value.sql ++ (", ".toList ++ (assignmentsFront cs ++ (a.lead ++ r))), ?_⟩
        simp only [assignmentsFront, List.flatMap_cons, Assigned.text, List.append_assoc]
    obtain ⟨c, s, hnext⟩ := next
    have front : assignmentsFront (b :: bs) = b.text ++ (", ".toList ++ assignmentsFront bs) := by
      rw [assignmentsFront, List.flatMap_cons, List.append_assoc]
      rfl
    rw [front]
    refine ClearOfWhere.append (b.clear_text hb _) (ClearOfWhere.append ?_ (ih hbs))
    rw [hnext]
    exact comma c s

theorem clear_assignmentsText {as : List Assigned} (hne : as ≠ [])
    (hwhere : ∀ a ∈ as, ∀ t, a.value = .string t → ¬ HoldsWhere t.toList) (r : Text) :
    ClearOfWhere (assignmentsText as) r := by
  obtain ⟨bs, a, rfl⟩ : ∃ bs a, as = bs ++ [a] := ⟨_, _, (List.dropLast_append_getLast hne).symm⟩
  obtain ⟨hbs, ha⟩ := List.forall_mem_append.mp hwhere
  have single : assignmentsText [a] = a.text := by simp [assignmentsText]
  rw [assignmentsText_append bs [a] (List.cons_ne_nil _ _), single]
  refine ClearOfWhere.append ?_ (a.clear_text (ha a (List.mem_singleton_self a)) r)
  rw [Assigned.text, List.append_assoc]
  exact clear_assignmentsFront hbs _

end SqlCanvas
