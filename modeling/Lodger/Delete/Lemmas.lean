import Lodger.Delete
import Lodger.Jobs.Lemmas

namespace Lodger

open Lodger.Lib Lodger.Libvirt Lodger.Cache Lodger.Xml

-- Libvirt with no other client and no failure. `log` is the commands that it has
-- done, each with what it left.
structure Calm where
  world : World
  log : List (Command × World) := []

variable [Libvirtd]

def Calm.answer : (c : Call) → Calm → Except Error c.Result × Calm
  | .query q, s => (s.world.query q, s)
  | .send _, s => (.ok (), s)
  | .command c, s =>
      match s.world.perform c with
      | .ok p => (.ok p.result, ⟨p.world, s.log ++ [(c, p.world)]⟩)
      | .error e => (.error e, s)

def calmly {α : Type} (p : Job α) (s : Calm) : Except Error α × Calm := p.run Calm.answer s

section Runs

variable {α β : Type} {s t : Calm}

theorem calmly_attempt (p : Job α) :
    calmly p.attempt s = (.ok (calmly p s).1, (calmly p s).2) := Prog.run_attempt p

@[simp] theorem calmly_query (q : Query) : calmly (query q) s = (s.world.query q, s) := rfl

theorem calmly_command_ok {c : Command} {p : Performed c.Result} (h : s.world.perform c = .ok p) :
    calmly (command c) s = (.ok p.result, ⟨p.world, s.log ++ [(c, p.world)]⟩) := by
  show Calm.answer (.command c) s = _
  simp only [Calm.answer, h]
  rfl

theorem calmly_command_eq_ok {c : Command} {a : c.Result}
    (h : calmly (command c) s = (.ok a, t)) :
    ∃ p, s.world.perform c = .ok p ∧ t = ⟨p.world, s.log ++ [(c, p.world)]⟩ := by
  have hanswer : Calm.answer (.command c) s = (.ok a, t) := h
  simp only [Calm.answer] at hanswer
  cases hp : s.world.perform c with
  | error e =>
      rw [hp] at hanswer
      cases hanswer
  | ok p =>
      rw [hp] at hanswer
      cases hanswer
      exact ⟨p, rfl, rfl⟩

theorem calmly_command_error {c : Command} {e : Error} (h : s.world.perform c = .error e) :
    calmly (command c) s = (.error e, s) := by
  show Calm.answer (.command c) s = _
  simp only [Calm.answer, h]
  rfl

@[simp] theorem calmly_reading (p : Read α) :
    calmly (reading p) s = (p.eval s.world.query, s) := by
  induction p with
  | done r => rfl
  | call q k ih =>
      have hmap : (s.world.query q).map (fun a => a) = s.world.query q := by
        cases s.world.query q <;> rfl
      show calmly (reading (k ((s.world.query q).map fun a => a))) s = _
      rw [hmap]
      exact ih _

end Runs

end Lodger
