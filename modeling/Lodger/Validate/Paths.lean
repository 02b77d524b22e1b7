import Lodger.Validate.Lemmas

namespace Lodger.Validate

-- The plain form of an absolute path.
structure NormalForm (path : String) : Prop where
  absolute : path.toList.head? = some '/'
  noEmptySegment : path = "/" ∨ [] ∉ path.toList.tail.splitOn '/'
  noTrailingSlash : path = "/" ∨ path.toList.getLast? ≠ some '/'
  noDots : ∀ part ∈ path.toList.splitOn '/', part ≠ ['.'] ∧ part ≠ ['.', '.']
  chars : ∀ c ∈ path.toList, isControl c = false ∧ c.toNat ≠ 0xfffe ∧ c.toNat ≠ 0xffff

section Segments

variable {value : String}

theorem not_mem_segments (part : List Char) (h : part ∈ segments value) :
    '/' ∉ part ∧ part ≠ [] := by
  have hne := List.of_mem_filter h
  refine ⟨?_, by simpa using hne⟩
  intro hc
  exact (Split.mem_of_mem_splitOn _ part (List.mem_of_mem_filter h) '/' hc).2 rfl

theorem joined_nil : joined [] = "/" := rfl

theorem tail_joined (parts : List (List Char)) :
    (joined parts).toList.tail = ['/'].intercalate parts := by
  simp [joined]

theorem splitOn_tail_joined (parts : List (List Char)) (hne : parts ≠ [])
    (hsep : ∀ part ∈ parts, '/' ∉ part) : (joined parts).toList.tail.splitOn '/' = parts := by
  rw [tail_joined]
  exact List.splitOn_intercalate '/' hsep hne

-- Two values with the same segments have the same plain form, and no others do.
theorem joined_segments_inj {other : String} :
    joined (segments value) = joined (segments other) ↔ segments value = segments other := by
  constructor
  · intro h
    rw [← segments_joined_segments value, h, segments_joined_segments]
  · intro h
    rw [h]

theorem len_joined_le (h : value.toList.head? = some '/') :
    len (joined (segments value)) ≤ len value := by
  have hw := Split.weight_filter_splitOn_le Char.utf8Size (by decide) value.toList h
  simpa [len, joined, segments] using hw

end Segments

section Paths

variable {value : String}

theorem normalForm_joined (h : Accepted value) : NormalForm (joined (segments value)) := by
  have hsep : ∀ part ∈ segments value, '/' ∉ part := fun part hp => (not_mem_segments part hp).1
  have hne : ∀ part ∈ segments value, part ≠ [] := fun part hp => (not_mem_segments part hp).2
  have hempty : joined (segments value) = "/" ∨
      [] ∉ (joined (segments value)).toList.tail.splitOn '/' := by
    by_cases hnil : segments value = []
    · exact Or.inl (by rw [hnil, joined_nil])
    · rw [splitOn_tail_joined _ hnil hsep]
      exact Or.inr fun hm => hne [] hm rfl
  refine ⟨by simp [joined], hempty, ?_, ?_, ?_⟩
  · rcases hempty with hroot | hempty
    · exact Or.inl hroot
    · refine Or.inr (Split.getLast?_ne_of_splitOn _ (by simp [joined]) ?_)
      have hcons : (joined (segments value)).toList =
          '/' :: (joined (segments value)).toList.tail := by simp [joined]
      rw [hcons, Split.splitOn_cons_self, List.tail_cons]
      exact hempty
  · intro part hp
    by_cases hpart : part = []
    · subst hpart
      exact ⟨(List.cons_ne_nil _ _).symm, (List.cons_ne_nil _ _).symm⟩
    · have hm : part ∈ segments (joined (segments value)) :=
        List.mem_filter.mpr ⟨hp, by simpa using hpart⟩
      rw [segments_joined_segments] at hm
      have hdot := h.noDots part hm
      simpa [dotSegment] using hdot
  · intro c hc
    have hchar := pathChar_joined h.chars c hc
    simp only [pathChar, Bool.not_eq_true', Bool.or_eq_false_iff, decide_eq_false_iff_not] at hchar
    exact ⟨hchar.1.1, hchar.1.2, hchar.2⟩

-- `parsePath` gives the plain form of the place that its input names: one for each place,
-- and a fixed point.
theorem parsePath_normal_form (field : String) :
    (∀ value path, parsePath field value = .ok path →
      segments path = segments value ∧ NormalForm path ∧ len path ≤ len value ∧
        parsePath field path = .ok path) ∧
    ∀ value path other path', parsePath field value = .ok path →
      parsePath field other = .ok path' → (path = path' ↔ segments value = segments other) := by
  refine ⟨?_, ?_⟩
  · intro value path h
    have hidem := parsePath_idem h field
    obtain ⟨haccepted, rfl⟩ := (parsePath_eq_ok_iff field value path).mp h
    exact ⟨segments_joined_segments value, normalForm_joined haccepted,
      len_joined_le haccepted.absolute, hidem⟩
  · intro value path other path' h h'
    obtain ⟨-, rfl⟩ := (parsePath_eq_ok_iff field value path).mp h
    obtain ⟨-, rfl⟩ := (parsePath_eq_ok_iff field other path').mp h'
    exact joined_segments_inj

theorem parsePath_normal_form_slashes :
    NormalForm "/srv/vm" ∧ segments "/srv/vm" = segments "/srv//vm/" := by
  have hvalue : parsePath "Pool folder" "/srv//vm/" = .ok "/srv/vm" := by decide +kernel
  have hplain : parsePath "Pool folder" "/srv/vm" = .ok "/srv/vm" := by decide +kernel
  obtain ⟨hform, hsame⟩ := parsePath_normal_form "Pool folder"
  exact ⟨(hform _ _ hvalue).2.1, (hsame _ _ _ _ hplain hvalue).mp rfl⟩

end Paths

end Lodger.Validate
