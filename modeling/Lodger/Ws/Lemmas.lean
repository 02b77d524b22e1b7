import Lodger.Ws
import Lodger.Supervisor.Lemmas

namespace Lodger.Ws

open Lodger.Lib Lodger.Libvirt Lodger.Supervisor Lodger.Cache

section Effects

variable {s t : Supervisor.State} {a : Supervisor.Action} [Xml.Xmltree]

-- What a step of the supervisor means to a client.
inductive Effect (s t : Supervisor.State) : Supervisor.Action → Prop where
  | quiet {a : Supervisor.Action} (hpc : t.pc = s.pc ∨ ∀ o, announces o s.pc = false)
      (hinv : t.inventory = s.inventory) (hreloads : t.reloads = s.reloads) : Effect s t a
  | loaded (first : Bool) (hpc : ∀ o, announces o s.pc = false) (ht : t.pc = .loaded first)
      (hreloads : t.reloads = s.reloads) : Effect s t .finish
  | applied (e : Event) (f : Refresh) (hobj : some f.obj = e.obj)
      (hpc : ∀ o, announces o s.pc = false) (ht : t.pc = .forwarding e)
      (hinv : t.inventory = s.inventory.apply f) (hreloads : t.reloads = s.reloads) :
      Effect s t .finish
  | bumped (first : Bool) (hpc : s.pc = .loaded first) (ht : ∀ o, announces o t.pc = false)
      (hinv : t.inventory = s.inventory) (hreloads : t.reloads = s.reloads + 1) :
      Effect s t .bump
  | forwarded (e : Event) (hpc : s.pc = .forwarding e) (ht : ∀ o, announces o t.pc = false)
      (hinv : t.inventory = s.inventory) (hreloads : t.reloads = s.reloads) :
      Effect s t .forward

variable [Libvirtd]

theorem effect_finish (haimed : Aimed s.pc) (hs : Supervisor.step s .finish = some t) :
    Effect s t .finish := by
  simp only [Supervisor.step] at hs
  split at hs
  · rename_i first inv asked hpc
    cases hs
    exact .loaded first (by simp [hpc, announces]) rfl rfl
  · rename_i e f asked hpc
    cases hs
    rw [hpc] at haimed
    exact .applied e f (haimed f rfl) (by simp [hpc, announces]) rfl rfl rfl
  · rename_i e asked hpc
    cases hs
    exact .quiet (.inr (by simp [hpc, announces])) rfl rfl
  · rename_i hpc
    cases hs
    exact .quiet (.inr (by simp [hpc, announces])) rfl rfl
  · rename_i hpc
    cases hs
    exact .quiet (.inr (by simp [hpc, announces])) rfl rfl
  · cases hs

theorem step_effect (haimed : Aimed s.pc) (hs : Supervisor.step s a = some t) :
    Effect s t a := by
  cases a with
  | finish => exact effect_finish haimed hs
  | bump =>
      simp only [Supervisor.step] at hs
      split at hs
      · rename_i first hpc
        cases hs
        exact .bumped first hpc (by cases first <;> simp [announces]) rfl rfl
      · cases hs
  | forward =>
      simp only [Supervisor.step] at hs
      split at hs
      · rename_i e hpc
        cases hs
        exact .forwarded e hpc (fun _ => rfl) rfl rfl
      · cases hs
  | change o x | lose =>
      simp only [Supervisor.step] at hs
      split at hs <;> cases hs
      exact .quiet (.inl rfl) rfl rfl
  | deliver e settles | deliverClosed reason =>
      simp only [Supervisor.step] at hs
      split at hs <;> cases hs
      rw [State.sendHub_eq]
      exact .quiet (.inl rfl) rfl rfl
  | «open» | subscribe | publish | connect | retry =>
      simp only [Supervisor.step] at hs
      split at hs
      · rename_i hpc
        cases hs
        exact .quiet (.inr (by simp [hpc, announces])) rfl rfl
      · cases hs
  | call | fail error =>
      simp only [Supervisor.step] at hs
      split at hs
      all_goals
        cases hs
        try exact .quiet (.inr (by simp [*, announces])) rfl rfl
  | recv =>
      simp only [Supervisor.step] at hs
      split at hs
      all_goals
        cases hs
        try exact .quiet (.inr (by simp [*, announces])) rfl rfl
  | take o change =>
      simp only [Supervisor.step] at hs
      split at hs
      · obtain ⟨gen, -, rfl⟩ := Option.map_eq_some_iff.mp hs
        exact .quiet (.inl rfl) rfl rfl
      · cases hs
  | act i =>
      simp only [Supervisor.step] at hs
      split at hs
      · obtain ⟨x, -, rfl⟩ := Option.map_eq_some_iff.mp hs
        exact .quiet (.inl rfl) rfl rfl
      · cases hs
  | send i =>
      simp only [Supervisor.step] at hs
      split at hs
      · cases hs
        split
        · rw [State.sendHub_eq]
          exact .quiet (.inl rfl) rfl rfl
        · exact .quiet (.inl rfl) rfl rfl
      · cases hs
  | giveUp i =>
      simp only [Supervisor.step] at hs
      split at hs <;> cases hs
      exact .quiet (.inl rfl) rfl rfl

end Effects

end Lodger.Ws
