import Mathlib

namespace Lodger.Lib

variable {ε ε' α β : Type} {x : Except ε α} {a : α} {b : β}

theorem except_bind_eq_ok {f : α → Except ε β} :
    x >>= f = .ok b ↔ ∃ a, x = .ok a ∧ f a = .ok b := by
  cases x with
  | error e => simp [bind, Except.bind]
  | ok a => simp [bind, Except.bind]

theorem except_mapError_eq_ok {f : ε → ε'} : x.mapError f = .ok a ↔ x = .ok a := by
  cases x with
  | error e => simp [Except.mapError]
  | ok b => simp [Except.mapError]

theorem except_map_eq_ok {f : α → β} : x.map f = .ok b ↔ ∃ a, x = .ok a ∧ f a = b := by
  cases x with
  | error e => simp [Except.map]
  | ok a => simp [Except.map]

theorem foldlM_eq_error {items : List α} {f : β → α → Except ε β} {e : ε}
    (h : items.foldlM f b = .error e) : ∃ x ∈ items, ∃ b, f b x = .error e := by
  induction items generalizing b with
  | nil => cases h
  | cons x rest ih =>
      rw [List.foldlM_cons] at h
      cases hx : f b x with
      | error found =>
          rw [hx] at h
          cases h
          exact ⟨x, List.mem_cons_self, b, hx⟩
      | ok b' =>
          rw [hx] at h
          obtain ⟨y, hy, hrest⟩ := ih h
          exact ⟨y, List.mem_cons_of_mem _ hy, hrest⟩

-- Loops that only add to a list.
section Loops

variable {items : List α} {f : List β → α → Except ε (List β)} {g : α → List β} {out out' : List β}

theorem foldlM_append_ok (h : ∀ out, ∀ x ∈ items, f out x = .ok (out ++ g x)) :
    items.foldlM f out = .ok (out ++ items.flatMap g) := by
  induction items generalizing out with
  | nil => simp [pure, Except.pure]
  | cons x rest ih =>
      rw [List.foldlM_cons, h out x List.mem_cons_self]
      show rest.foldlM f (out ++ g x) = _
      rw [ih fun out y hy => h out y (List.mem_cons_of_mem _ hy)]
      simp

theorem foldlM_append_eq_ok (P : α → Prop)
    (h : ∀ out out', ∀ x ∈ items, f out x = .ok out' → P x ∧ out' = out ++ g x)
    (hrun : items.foldlM f out = .ok out') :
    (∀ x ∈ items, P x) ∧ out' = out ++ items.flatMap g := by
  induction items generalizing out with
  | nil =>
      cases hrun
      simp
  | cons x rest ih =>
      rw [List.foldlM_cons] at hrun
      obtain ⟨mid, hx, hrest⟩ := except_bind_eq_ok.mp hrun
      obtain ⟨hpx, rfl⟩ := h out mid x List.mem_cons_self hx
      obtain ⟨hp, rfl⟩ := ih (fun out out' y hy => h out out' y (List.mem_cons_of_mem _ hy)) hrest
      refine ⟨?_, by simp⟩
      intro y hy
      obtain rfl | hy := List.mem_cons.mp hy
      · exact hpx
      · exact hp y hy

end Loops

end Lodger.Lib
