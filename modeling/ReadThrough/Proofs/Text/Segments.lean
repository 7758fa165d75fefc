import ReadThrough.Text.Segments

/-!
# Texts and their segments

Cutting a text at its slashes loses nothing: put together again with slashes between them the
segments are the text (`flatten_segments`). A slash is the end of a segment (`segments_append`).
-/

namespace ReadThrough.Text

variable {cs segment : List Char} {c : Char}

theorem segments_ne_nil (cs : List Char) : segments cs ≠ [] := by
  cases cs with
  | nil => exact List.cons_ne_nil _ _
  | cons c rest =>
      unfold segments
      split
      · exact List.cons_ne_nil _ _
      · split <;> exact List.cons_ne_nil _ _

theorem segments_slash (rest : List Char) : segments ('/' :: rest) = [] :: segments rest :=
  if_pos rfl

/-- A character other than a slash belongs to the first segment. -/
theorem segments_cons (h : c ≠ '/') (rest : List Char) :
    ∃ segment others, segments rest = segment :: others ∧
      segments (c :: rest) = (c :: segment) :: others := by
  obtain ⟨segment, others, hrest⟩ := List.exists_cons_of_ne_nil (segments_ne_nil rest)
  refine ⟨segment, others, hrest, ?_⟩
  rw [segments, if_neg h, hrest]

/-- A slash ends a segment and begins another one. -/
theorem segments_append (before after : List Char) :
    segments (before ++ '/' :: after) = segments before ++ segments after := by
  induction before with
  | nil => exact segments_slash after
  | cons c before ih =>
      rw [List.cons_append]
      by_cases hslash : c = '/'
      · rw [hslash, segments_slash, segments_slash, ih, List.cons_append]
      · obtain ⟨segment, others, hbefore, hcons⟩ := segments_cons hslash before
        rw [segments, if_neg hslash, ih, hcons, hbefore]
        rfl

/-- A text without slashes is one segment. -/
theorem segments_eq_singleton (h : '/' ∉ cs) : segments cs = [cs] := by
  induction cs with
  | nil => rfl
  | cons c rest ih =>
      rw [List.mem_cons, not_or] at h
      rw [segments, if_neg (Ne.symm h.1), ih h.2]

/-- The characters of a segment are characters of the text. -/
theorem mem_of_mem_segment (h : segment ∈ segments cs) (hc : c ∈ segment) : c ∈ cs := by
  induction cs generalizing segment with
  | nil => rwa [List.mem_singleton.1 h] at hc
  | cons first rest ih =>
      by_cases hslash : first = '/'
      · rw [hslash, segments_slash] at h
        rcases List.mem_cons.1 h with rfl | h
        · cases hc
        · exact List.mem_cons_of_mem _ (ih h hc)
      · obtain ⟨head, others, hrest, hcons⟩ := segments_cons hslash rest
        rw [hcons] at h
        rw [hrest] at ih
        rcases List.mem_cons.1 h with rfl | h
        · rcases List.mem_cons.1 hc with rfl | hc
          · exact List.mem_cons_self
          · exact List.mem_cons_of_mem _ (ih List.mem_cons_self hc)
        · exact List.mem_cons_of_mem _ (ih (List.mem_cons_of_mem _ h) hc)

/-- The segments of a text with slashes between them are the text. -/
theorem flatten_segments (cs : List Char) : ((segments cs).intersperse ['/']).flatten = cs := by
  induction cs with
  | nil => rfl
  | cons c rest ih =>
      obtain ⟨first, others, hrest⟩ := List.exists_cons_of_ne_nil (segments_ne_nil rest)
      by_cases hslash : c = '/'
      · rw [hslash, segments_slash, hrest, List.intersperse_cons_cons, ← hrest]
        simpa using ih
      · rw [segments, if_neg hslash, hrest]
        rw [hrest] at ih
        cases others with
        | nil => simpa using ih
        | cons second others =>
            rw [List.intersperse_cons_cons] at ih ⊢
            simpa using ih

end ReadThrough.Text
