import Mathlib

namespace Lodger.Lib

-- A machine is a partial step function: `none` means that the action is not
-- enabled in the state. A run is a list of actions.
section Machine

variable {σ α : Type*}

def exec (step : σ → α → Option σ) : σ → List α → Option σ
  | s, [] => some s
  | s, a :: rest => (step s a).bind fun t => exec step t rest

-- Every action of the run meets `ok` in the state before it.
def Along (step : σ → α → Option σ) (ok : σ → α → Prop) : σ → List α → Prop
  | _, [] => True
  | s, a :: rest => ok s a ∧ ∀ t, step s a = some t → Along step ok t rest

variable {step : σ → α → Option σ} {ok : σ → α → Prop} {s t : σ}

@[simp] theorem exec_nil : exec step s [] = some s := rfl

theorem exec_cons_eq_some {a : α} {rest : List α} :
    exec step s (a :: rest) = some t ↔ ∃ u, step s a = some u ∧ exec step u rest = some t :=
  Option.bind_eq_some_iff

theorem exec_append {front back : List α} :
    exec step s (front ++ back) = some t ↔
      ∃ u, exec step s front = some u ∧ exec step u back = some t := by
  induction front generalizing s with
  | nil => simp
  | cons a front ih =>
      simp only [List.cons_append, exec_cons_eq_some, ih]
      constructor
      · rintro ⟨u, hu, v, hv, ht⟩
        exact ⟨v, ⟨u, hu, hv⟩, ht⟩
      · rintro ⟨v, ⟨u, hu, hv⟩, ht⟩
        exact ⟨u, hu, v, hv, ht⟩

theorem exec_concat {front : List α} {a : α} :
    exec step s (front ++ [a]) = some t ↔ ∃ u, exec step s front = some u ∧ step u a = some t := by
  simp only [exec_append, exec_cons_eq_some, exec_nil, Option.some.injEq, exists_eq_right]

theorem Along.of_forall (h : ∀ s a, ok s a) (acts : List α) : Along step ok s acts := by
  induction acts generalizing s with
  | nil => trivial
  | cons a rest ih => exact ⟨h s a, fun _ _ => ih⟩

instance Along.decidable [∀ s a, Decidable (ok s a)] :
    ∀ s acts, Decidable (Along step ok s acts)
  | _, [] => inferInstanceAs (Decidable True)
  | s, a :: rest =>
      match h : step s a with
      | none => decidable_of_iff (ok s a) (by simp [Along, h])
      | some t =>
          have : Decidable (Along step ok t rest) := Along.decidable t rest
          decidable_of_iff (ok s a ∧ Along step ok t rest) (by simp [Along, h])

theorem Along.imp {ok' : σ → α → Prop} (h : ∀ s a, ok s a → ok' s a) {acts : List α}
    (hok : Along step ok s acts) : Along step ok' s acts := by
  induction acts generalizing s with
  | nil => trivial
  | cons a rest ih => exact ⟨h s a hok.1, fun t ht => ih (hok.2 t ht)⟩

theorem Along.append_left {front back : List α} (h : Along step ok s (front ++ back)) :
    Along step ok s front := by
  induction front generalizing s with
  | nil => trivial
  | cons a front ih => exact ⟨h.1, fun t ht => ih (h.2 t ht)⟩

theorem Along.concat {front : List α} {a : α} (h : Along step ok s front)
    (hlast : ∀ t, exec step s front = some t → ok t a) : Along step ok s (front ++ [a]) := by
  induction front generalizing s with
  | nil => exact ⟨hlast s rfl, fun _ _ => trivial⟩
  | cons b front ih =>
      refine ⟨h.1, fun u hu => ih (h.2 u hu) fun t ht => hlast t ?_⟩
      exact exec_cons_eq_some.mpr ⟨u, hu, ht⟩

theorem Along.append_right {front back : List α} (h : Along step ok s (front ++ back))
    (hf : exec step s front = some t) : Along step ok t back := by
  induction front generalizing s with
  | nil =>
      cases hf
      exact h
  | cons a front ih =>
      obtain ⟨u, hu, hf⟩ := exec_cons_eq_some.mp hf
      exact ih (h.2 u hu) hf

-- The invariant rule: what holds at the start and survives every permitted
-- step holds after the run.
theorem exec_invariant (inv : σ → Prop)
    (hstep : ∀ s a t, inv s → ok s a → step s a = some t → inv t)
    {acts : List α} (hs : inv s) (hok : Along step ok s acts)
    (hrun : exec step s acts = some t) : inv t := by
  induction acts generalizing s with
  | nil =>
      cases hrun
      exact hs
  | cons a rest ih =>
      obtain ⟨u, hu, hrest⟩ := exec_cons_eq_some.mp hrun
      exact ih (hstep s a u hs hok.1 hu) (hok.2 u hu) hrest

-- The same rule for runs without a side condition on the steps.
theorem exec_invariant_all (inv : σ → Prop)
    (hstep : ∀ s a t, inv s → step s a = some t → inv t)
    {acts : List α} (hs : inv s) (hrun : exec step s acts = some t) : inv t :=
  have hok : Along step (fun _ _ => True) s acts := Along.of_forall (fun _ _ => trivial) acts
  exec_invariant inv (fun s a t h _ => hstep s a t h) hs hok hrun

-- The converse: if a property of the states after the steps tells that the steps
-- were permitted, then a run through such states is permitted.
theorem Along.of_states (P : σ → Prop) (hstep : ∀ s a t, step s a = some t → P t → ok s a)
    {acts : List α} (hrun : exec step s acts = some t)
    (h : ∀ front back u, acts = front ++ back → exec step s front = some u → P u) :
    Along step ok s acts := by
  induction acts generalizing s with
  | nil => trivial
  | cons a rest ih =>
      obtain ⟨u, hu, hrest⟩ := exec_cons_eq_some.mp hrun
      refine ⟨hstep s a u hu (h [a] rest u rfl (exec_cons_eq_some.mpr ⟨u, hu, rfl⟩)), ?_⟩
      intro u' hu'
      obtain rfl : u = u' := Option.some.inj (hu.symm.trans hu')
      apply ih hrest
      intro front back v hv hexec
      exact h (a :: front) back v (by rw [hv]; rfl) (exec_cons_eq_some.mpr ⟨u, hu, hexec⟩)

end Machine

end Lodger.Lib
