import Mathlib

namespace Lodger.Search

-- Texts whose elements have a size. A position counts sizes, so there are positions inside an
-- element, and a text cannot be cut there.
section Sizes

variable {α : Type} (weight : α → Nat)

def size (l : List α) : Nat := (l.map weight).sum

def dropAt : List α → Nat → Option (List α)
  | l, 0 => some l
  | [], _ + 1 => none
  | x :: l, n + 1 => if weight x ≤ n + 1 then dropAt l (n + 1 - weight x) else none

def takeAt : List α → Nat → Option (List α)
  | _, 0 => some []
  | [], _ + 1 => none
  | x :: l, n + 1 =>
      if weight x ≤ n + 1 then (takeAt l (n + 1 - weight x)).map (x :: ·) else none

-- The part between two positions, if they are in this order.
def slice (l : List α) (first last : Nat) : Option (List α) :=
  if first ≤ last then (dropAt weight l first).bind fun rest => takeAt weight rest (last - first)
  else none

@[simp] theorem size_nil : size weight [] = 0 := rfl

@[simp] theorem size_cons (x : α) (l : List α) :
    size weight (x :: l) = weight x + size weight l := by
  simp [size]

@[simp] theorem size_append (l l' : List α) :
    size weight (l ++ l') = size weight l + size weight l' := by
  simp [size]

theorem slice_eq_none {first last : Nat} (h : last < first) (l : List α) :
    slice weight l first last = none := by
  unfold slice
  rw [if_neg (by omega)]

variable (hpos : ∀ x, 0 < weight x)
include hpos

theorem dropAt_append (l l' : List α) : dropAt weight (l ++ l') (size weight l) = some l' := by
  induction l with
  | nil => unfold dropAt; rfl
  | cons x l ih =>
      have hx := hpos x
      obtain ⟨n, hn⟩ : ∃ n, size weight (x :: l) = n + 1 :=
        ⟨weight x + size weight l - 1, by rw [size_cons]; omega⟩
      have hle : weight x ≤ n + 1 := by rw [← hn, size_cons]; omega
      have hrest : n + 1 - weight x = size weight l := by rw [← hn, size_cons]; omega
      rw [hn, List.cons_append, dropAt, if_pos hle, hrest, ih]

theorem takeAt_append (l l' : List α) : takeAt weight (l ++ l') (size weight l) = some l := by
  induction l with
  | nil => unfold takeAt; rfl
  | cons x l ih =>
      have hx := hpos x
      obtain ⟨n, hn⟩ : ∃ n, size weight (x :: l) = n + 1 :=
        ⟨weight x + size weight l - 1, by rw [size_cons]; omega⟩
      have hle : weight x ≤ n + 1 := by rw [← hn, size_cons]; omega
      have hrest : n + 1 - weight x = size weight l := by rw [← hn, size_cons]; omega
      rw [hn, List.cons_append, takeAt, if_pos hle, hrest, ih, Option.map_some]

theorem slice_append (l part l' : List α) :
    slice weight (l ++ (part ++ l')) (size weight l) (size weight l + size weight part) =
      some part := by
  have hlast : size weight l + size weight part - size weight l = size weight part := by omega
  unfold slice
  rw [if_pos (by omega), dropAt_append weight hpos, Option.bind_some, hlast,
    takeAt_append weight hpos]

end Sizes

-- The first occurrence of a pattern.
section Find

variable {α : Type}

-- A pattern whose first element does not come back in it does not overlap itself: no other
-- occurrence starts in the text before it.
theorem not_prefix_append {c : α} {tail : List α} (hc : c ∉ tail) {x : α} {before : List α}
    (hbefore : ¬c :: tail <+: x :: before) (after : List α) :
    ¬c :: tail <+: x :: (before ++ (c :: tail ++ after)) := by
  intro hstarts
  obtain ⟨hx, htail⟩ := List.cons_prefix_cons.mp hstarts
  cases Nat.lt_or_ge before.length tail.length with
  | inl hlt =>
      have hreach : before ++ [c] <+: before ++ (c :: tail ++ after) := by
        rw [List.cons_append, List.prefix_append_right_inj]
        exact List.cons_prefix_cons.mpr ⟨rfl, List.nil_prefix⟩
      have hinside : before ++ [c] <+: tail :=
        List.prefix_of_prefix_length_le hreach htail (by simp; omega)
      exact hc (hinside.subset (by simp))
  | inr hle =>
      have hinside : tail <+: before :=
        List.prefix_of_prefix_length_le htail (List.prefix_append _ _) hle
      exact hbefore (List.cons_prefix_cons.mpr ⟨hx, hinside⟩)

theorem infix_append_of_not_mem {c : α} {tail before : List α} (h : c ∉ before) (after : List α) :
    c :: tail <:+: before ++ after ↔ c :: tail <:+: after := by
  induction before with
  | nil => rfl
  | cons x before ih =>
      have hx : c ≠ x := List.ne_of_not_mem_cons h
      have hbefore : c ∉ before := List.not_mem_of_not_mem_cons h
      rw [List.cons_append, List.infix_cons_iff, List.cons_prefix_cons, ih hbefore]
      constructor
      · intro hin
        cases hin with
        | inl hstart => exact absurd hstart.1 hx
        | inr hlater => exact hlater
      · exact Or.inr

theorem infix_concat_of_not_mem {c : α} {pattern l : List α} (h : c ∉ pattern) :
    pattern <:+: l ++ [c] ↔ pattern <:+: l := by
  rw [List.infix_concat_iff, List.suffix_concat_iff]
  constructor
  · rintro ((rfl | ⟨l', rfl, -⟩) | hin)
    · exact List.nil_infix
    · exact absurd (by simp) h
    · exact hin
  · exact Or.inr

variable [DecidableEq α] (weight : α → Nat)

def find (pattern : List α) : List α → Option Nat
  | [] => if pattern = [] then some 0 else none
  | x :: l =>
      if pattern <+: x :: l then some 0 else (find pattern l).map fun n => weight x + n

theorem find_eq_some {pattern l : List α} {n : Nat} (h : find weight pattern l = some n) :
    ∃ before after, l = before ++ (pattern ++ after) ∧ n = size weight before ∧
      (pattern ≠ [] → ¬pattern <:+: before) := by
  induction l generalizing n with
  | nil =>
      unfold find at h
      by_cases hpattern : pattern = []
      · rw [if_pos hpattern] at h
        cases h
        exact ⟨[], [], by simp [hpattern], rfl, fun hne => absurd hpattern hne⟩
      · rw [if_neg hpattern] at h
        cases h
  | cons x l ih =>
      unfold find at h
      by_cases hstarts : pattern <+: x :: l
      · rw [if_pos hstarts] at h
        cases h
        obtain ⟨after, hafter⟩ := hstarts
        exact ⟨[], after, hafter.symm, rfl, fun hne hinfix => hne (List.infix_nil.mp hinfix)⟩
      · rw [if_neg hstarts] at h
        obtain ⟨m, hm, rfl⟩ := Option.map_eq_some_iff.mp h
        obtain ⟨before, after, hl, hn, hfirst⟩ := ih hm
        refine ⟨x :: before, after, by rw [hl, List.cons_append], ?_, ?_⟩
        · rw [hn, size_cons]
        · intro hne hinfix
          cases List.infix_cons_iff.mp hinfix with
          | inl hstart =>
              apply hstarts
              rw [hl, ← List.cons_append]
              exact hstart.trans (List.prefix_append _ _)
          | inr hlater => exact hfirst hne hlater

theorem find_eq_none_iff {pattern : List α} (l : List α) :
    find weight pattern l = none ↔ ¬pattern <:+: l := by
  induction l with
  | nil =>
      unfold find
      rw [List.infix_nil]
      by_cases hpattern : pattern = []
      · simp [hpattern]
      · simp [hpattern]
  | cons x l ih =>
      unfold find
      rw [List.infix_cons_iff]
      by_cases hstarts : pattern <+: x :: l
      · simp [hstarts]
      · simp [hstarts, ih]

theorem exists_first {pattern l : List α} (hne : pattern ≠ []) (h : pattern <:+: l) :
    ∃ before after, l = before ++ (pattern ++ after) ∧ ¬pattern <:+: before := by
  cases hfind : find (fun _ => 1) pattern l with
  | none => exact absurd h ((find_eq_none_iff _ l).mp hfind)
  | some n =>
      obtain ⟨before, after, hl, -, hfirst⟩ := find_eq_some _ hfind
      exact ⟨before, after, hl, hfirst hne⟩

variable {c : α} {tail : List α}

theorem find_append (hc : c ∉ tail) {before : List α} (hbefore : ¬c :: tail <:+: before)
    (after : List α) :
    find weight (c :: tail) (before ++ (c :: tail ++ after)) = some (size weight before) := by
  induction before with
  | nil =>
      rw [List.nil_append, List.cons_append, find, if_pos, size_nil]
      exact ⟨after, rfl⟩
  | cons x before ih =>
      have hrest := ih fun hinfix => hbefore (List.infix_cons hinfix)
      have hstarts : ¬c :: tail <+: x :: (before ++ (c :: tail ++ after)) :=
        not_prefix_append hc (fun h => hbefore h.isInfix) after
      rw [List.cons_append, find, if_neg hstarts, hrest, Option.map_some, size_cons]

end Find

end Lodger.Search
