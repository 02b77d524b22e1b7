import Mathlib

namespace Lodger.Split

variable {α : Type} {sep : α}

section Parts

variable [DecidableEq α]

theorem splitOn_cons_self (l : List α) : (sep :: l).splitOn sep = [] :: l.splitOn sep := by
  simp [List.splitOn_cons_eq_if_modifyHead]

theorem splitOn_cons_of_ne {x : α} (h : x ≠ sep) (l : List α) :
    ∃ part parts, l.splitOn sep = part :: parts ∧
      (x :: l).splitOn sep = (x :: part) :: parts := by
  obtain ⟨part, parts, hp⟩ := List.exists_cons_of_ne_nil (List.splitOn_ne_nil sep l)
  refine ⟨part, parts, hp, ?_⟩
  simp [List.splitOn_cons_eq_if_modifyHead, h, hp]

-- The parts hold the elements of the list, without the separator.
theorem mem_of_mem_splitOn (l part : List α) (h : part ∈ l.splitOn sep) (x : α) (hx : x ∈ part) :
    x ∈ l ∧ x ≠ sep := by
  induction l generalizing part with
  | nil =>
      simp only [List.splitOn_nil, List.mem_singleton] at h
      simp [h] at hx
  | cons y l ih =>
      by_cases hy : y = sep
      · subst hy
        rw [splitOn_cons_self, List.mem_cons] at h
        obtain rfl | h := h
        · simp at hx
        · have hm := ih part h hx
          exact ⟨List.mem_cons_of_mem _ hm.1, hm.2⟩
      · obtain ⟨first, rest, hl, hc⟩ := splitOn_cons_of_ne hy l
        rw [hc, List.mem_cons] at h
        obtain rfl | h := h
        · obtain rfl | hx := List.mem_cons.mp hx
          · exact ⟨List.mem_cons_self, hy⟩
          · have hm := ih first (by simp [hl]) hx
            exact ⟨List.mem_cons_of_mem _ hm.1, hm.2⟩
        · have hm := ih part (by simp [hl, h]) hx
          exact ⟨List.mem_cons_of_mem _ hm.1, hm.2⟩

theorem splitOn_map {β : Type} [DecidableEq β] (f : α → β) (l : List α)
    (hf : ∀ x ∈ l, f x = f sep → x = sep) :
    (l.map f).splitOn (f sep) = (l.splitOn sep).map (List.map f) := by
  induction l with
  | nil => simp
  | cons x l ih =>
      have hl := ih fun y hy => hf y (List.mem_cons_of_mem _ hy)
      by_cases hx : x = sep
      · subst hx
        rw [List.map_cons, splitOn_cons_self, splitOn_cons_self, hl, List.map_cons, List.map_nil]
      · have hfx : f x ≠ f sep := fun heq => hx (hf x List.mem_cons_self heq)
        obtain ⟨part, parts, hp, hc⟩ := splitOn_cons_of_ne hx l
        obtain ⟨part', parts', hp', hc'⟩ := splitOn_cons_of_ne hfx (l.map f)
        rw [hl, hp, List.map_cons, List.cons.injEq] at hp'
        rw [List.map_cons, hc', hc, List.map_cons, List.map_cons, hp'.1, hp'.2]

-- A list cut into nonempty parts and joined again is cut into the same parts.
theorem filter_splitOn_cons_intercalate (parts : List (List α))
    (hsep : ∀ part ∈ parts, sep ∉ part) (hne : ∀ part ∈ parts, part ≠ []) :
    ((sep :: [sep].intercalate parts).splitOn sep).filter (· ≠ []) = parts := by
  by_cases hp : parts = []
  · subst hp
    simp [splitOn_cons_self]
  · rw [splitOn_cons_self, List.splitOn_intercalate sep hsep hp]
    simpa using hne

-- A list whose parts after the first one are nonempty does not end with the separator.
theorem getLast?_ne_of_splitOn (l : List α) (hl : l ≠ []) (h : [] ∉ (l.splitOn sep).tail) :
    l.getLast? ≠ some sep := by
  induction l with
  | nil => exact absurd rfl hl
  | cons x l ih =>
      by_cases hnil : l = []
      · subst hnil
        intro hlast
        obtain rfl : x = sep := by simpa using hlast
        rw [splitOn_cons_self] at h
        simp at h
      · have hlast : (x :: l).getLast? = l.getLast? := List.getLast?_cons_of_ne_nil hnil
        rw [hlast]
        apply ih hnil
        by_cases hx : x = sep
        · subst hx
          rw [splitOn_cons_self, List.tail_cons] at h
          exact fun hm => h (List.mem_of_mem_tail hm)
        · obtain ⟨part, parts, hp, hc⟩ := splitOn_cons_of_ne hx l
          rw [hc, List.tail_cons] at h
          rw [hp, List.tail_cons]
          exact h

end Parts

theorem intercalate_append (parts more : List (List α)) (hp : parts ≠ []) (hm : more ≠ []) :
    [sep].intercalate (parts ++ more) = [sep].intercalate parts ++ sep :: [sep].intercalate more := by
  induction parts with
  | nil => exact absurd rfl hp
  | cons part parts ih =>
      by_cases hparts : parts = []
      · subst hparts
        rw [List.singleton_append, List.intercalate_cons_of_ne_nil hm, List.intercalate_singleton]
        simp
      · have happend : parts ++ more ≠ [] := by simp [hparts]
        rw [List.cons_append, List.intercalate_cons_of_ne_nil happend, ih hparts,
          List.intercalate_cons_of_ne_nil hparts]
        simp

theorem mem_intercalate (parts : List (List α)) (x : α) (h : x ∈ [sep].intercalate parts) :
    x = sep ∨ ∃ part ∈ parts, x ∈ part := by
  induction parts with
  | nil => simp at h
  | cons part parts ih =>
      cases parts with
      | nil =>
          simp only [List.intercalate_singleton] at h
          exact Or.inr ⟨part, by simp, h⟩
      | cons next rest =>
          simp only [List.intercalate_cons_cons, List.mem_append, List.mem_singleton] at h
          rcases h with (h | h) | h
          · exact Or.inr ⟨part, by simp, h⟩
          · exact Or.inl h
          · obtain h | ⟨other, ho, hx⟩ := ih h
            · exact Or.inl h
            · exact Or.inr ⟨other, List.mem_cons_of_mem _ ho, hx⟩

section Weight

variable (weight : α → Nat)

-- The weight of the parts with one unit for each of their separators.
def partsWeight (parts : List (List α)) : Nat :=
  (parts.map fun part => (part.map weight).sum + 1).sum

theorem weight_intercalate (hsep : weight sep = 1) (parts : List (List α)) (h : parts ≠ []) :
    (([sep].intercalate parts).map weight).sum + 1 = partsWeight weight parts := by
  induction parts with
  | nil => exact absurd rfl h
  | cons part parts ih =>
      cases parts with
      | nil => simp [partsWeight]
      | cons next rest =>
          have hi := ih (by simp)
          simp only [partsWeight, List.map_cons, List.sum_cons] at hi ⊢
          simp only [List.intercalate_cons_cons, List.map_append, List.sum_append, List.map_cons,
            List.map_nil, List.sum_cons, List.sum_nil, hsep]
          omega

theorem partsWeight_filter_le (p : List α → Bool) (parts : List (List α)) :
    partsWeight weight (parts.filter p) ≤ partsWeight weight parts := by
  induction parts with
  | nil => simp
  | cons part parts ih =>
      simp only [partsWeight, List.filter_cons] at ih ⊢
      split
      · simp only [List.map_cons, List.sum_cons]
        omega
      · simp only [List.map_cons, List.sum_cons]
        omega

-- Leaving out the empty parts of a list that starts with the separator makes it no heavier.
theorem weight_filter_splitOn_le [DecidableEq α] (hsep : weight sep = 1) (l : List α)
    (h : l.head? = some sep) :
    ((sep :: [sep].intercalate ((l.splitOn sep).filter (· ≠ []))).map weight).sum ≤
      (l.map weight).sum := by
  obtain ⟨rest, rfl⟩ : ∃ rest, l = sep :: rest := by
    cases l with
    | nil => simp at h
    | cons x rest =>
        simp only [List.head?_cons, Option.some.injEq] at h
        exact ⟨rest, by rw [h]⟩
  have hrest := weight_intercalate weight hsep _ (List.splitOn_ne_nil sep rest)
  rw [List.intercalate_splitOn] at hrest
  have hle := partsWeight_filter_le weight (· ≠ []) (rest.splitOn sep)
  have hcons : ((sep :: rest).splitOn sep).filter (· ≠ []) =
      (rest.splitOn sep).filter (· ≠ []) := by
    simp [splitOn_cons_self]
  rw [hcons, List.map_cons, List.map_cons, List.sum_cons, List.sum_cons, hsep]
  by_cases hf : (rest.splitOn sep).filter (· ≠ []) = []
  · rw [hf]
    simp
  · have hw := weight_intercalate weight hsep _ hf
    omega

end Weight

-- The text before the first separator and the text behind it.
section Once

variable [DecidableEq α]

def splitOnce (sep : α) : List α → Option (List α × List α)
  | [] => none
  | x :: l =>
      if x = sep then some ([], l)
      else (splitOnce sep l).map fun (before, after) => (x :: before, after)

theorem splitOnce_eq_some_iff (l before after : List α) :
    splitOnce sep l = some (before, after) ↔ sep ∉ before ∧ l = before ++ sep :: after := by
  induction l generalizing before with
  | nil => simp [splitOnce]
  | cons x l ih =>
      unfold splitOnce
      by_cases hx : x = sep
      · subst hx
        rw [if_pos rfl]
        cases before with
        | nil => simp [eq_comm]
        | cons y before =>
            constructor
            · intro hsplit
              simp at hsplit
            · rintro ⟨hmem, heq⟩
              have hy : x = y := (List.cons.inj heq).1
              exact absurd (hy ▸ List.mem_cons_self ..) hmem
      · rw [if_neg hx, Option.map_eq_some_iff]
        constructor
        · rintro ⟨⟨pre, post⟩, hsplit, hpair⟩
          have hpair : x :: pre = before ∧ post = after := by simpa using hpair
          obtain ⟨hmem, hl⟩ := (ih pre).mp (hpair.2 ▸ hsplit)
          refine ⟨?_, by rw [← hpair.1, hl, List.cons_append]⟩
          rw [← hpair.1, List.mem_cons, not_or]
          exact ⟨Ne.symm hx, hmem⟩
        · rintro ⟨hmem, heq⟩
          cases before with
          | nil => exact absurd (List.cons.inj heq).1 hx
          | cons y before =>
              obtain ⟨hy, hl⟩ := List.cons.inj heq
              have hmem := not_or.mp (fun h => hmem (List.mem_cons.mpr h))
              exact ⟨(before, after), (ih before).mpr ⟨hmem.2, hl⟩, by rw [hy]⟩

end Once

end Lodger.Split
