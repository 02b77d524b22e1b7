import Lodger.Supervisor.Lemmas

namespace Lodger.Supervisor

open Lodger.Lib Lodger.Libvirt Lodger.Cache

-- Where the supervisor stands while its state is `Connected`.
def Pc.inSession : Pc → Bool
  | .loading first _ _ | .loaded first => !first
  | .idle | .refreshing .. | .forwarding _ => true
  | _ => false

def isClosed : Event → Bool
  | .closed _ => true
  | _ => false

variable {s t : State} {a : Action} {e : Event} [Xml.Xmltree]

-- The session ends on its own: its next libvirt call is the first one of a
-- load, or has failed.
def Doomed : Pc → Prop
  | .waiting | .opening | .opened => True
  | .loading _ p asked => (asked = [] ∧ p = load) ∨ ∃ error, p = .done (.error error)
  | _ => False

-- A lost connection does not stay unnoticed: the close callback has still to
-- run, its event waits in the hub or was dropped there with a notice, or the
-- session ends on its own.
structure Noticed (s : State) : Prop where
  connected : s.conn = .connected → s.pc.inSession = true
  lost : s.lost = true → s.closing = true ∨ s.rx.Due (fun e => isClosed e) ∨ Doomed s.pc

theorem not_doomed_done {first : Bool} {inv : Inventory} {asked : List Asked} :
    ¬Doomed (.loading first (.done (.ok inv)) asked) := by
  rintro (⟨-, h⟩ | ⟨error, h⟩)
  · cases h
  · cases h

theorem Noticed.of_pc (h : Noticed s) {pc : Pc} (hconn : s.conn = .connected → pc.inSession = true)
    (hdoomed : s.lost = true → Doomed s.pc → Doomed pc) : Noticed { s with pc } :=
  ⟨hconn, fun hlost => (h.lost hlost).imp_right (·.imp_right (hdoomed hlost))⟩

theorem Noticed.disconnect (error : String) : Noticed (s.disconnect error) :=
  ⟨by simp [State.disconnect], fun _ => .inr (.inr trivial)⟩

theorem Noticed.sendHub (h : Noticed s) (e : Event) : Noticed (s.sendHub e) := by
  refine ⟨?_, ?_⟩
  · rw [State.sendHub_eq]
    exact h.connected
  · intro hlost
    unfold State.sendHub at hlost ⊢
    split at hlost
    · rename_i hsub
      rw [if_pos hsub]
      exact (h.lost hlost).imp_right (·.imp_left fun hdue => hdue.send)
    · rename_i hsub
      rw [if_neg hsub]
      exact h.lost hlost

theorem noticed_start (w : World) : Noticed { world := w } := ⟨nofun, nofun⟩

variable [Libvirtd]

-- The first call of a load has no handler, so on a lost connection the load
-- ends there.
theorem doomed_call {first : Bool} {q : Query} {k : Except Error q.Result → Read Inventory}
    {asked : List Asked} (h : Doomed (.loading first (.call q k) asked)) (hlost : s.lost = true) :
    Doomed (.loading first (k (s.reply q)) (⟨q, s.reply q⟩ :: asked)) := by
  rcases h with ⟨-, h⟩ | ⟨error, h⟩
  · cases h
    refine .inr ⟨lostError, ?_⟩
    simp only [State.reply, if_pos hlost]
    rfl
  · cases h

theorem Noticed.call (h : Noticed s) (hs : step s .call = some t) : Noticed t := by
  simp only [step] at hs
  split at hs
  · rename_i first q k asked hpc
    cases hs
    apply h.of_pc
    · intro hconn
      simpa [hpc, Pc.inSession] using h.connected hconn
    · intro hlost hdoomed
      rw [hpc] at hdoomed
      exact doomed_call hdoomed hlost
  · rename_i e q k asked hpc
    cases hs
    apply h.of_pc (fun _ => rfl)
    intro _ hdoomed
    rw [hpc] at hdoomed
    cases hdoomed
  · cases hs

theorem Noticed.finish (h : Noticed s) (hs : step s .finish = some t) : Noticed t := by
  simp only [step] at hs
  split at hs
  · rename_i first inv asked hpc
    cases hs
    refine ⟨?_, ?_⟩
    · intro hconn
      simpa [hpc, Pc.inSession] using h.connected hconn
    · intro hlost
      have hlost := h.lost hlost
      rw [hpc] at hlost
      exact hlost.imp_right (·.imp_right fun hdoomed => absurd hdoomed not_doomed_done)
  · rename_i e f asked hpc
    cases hs
    refine ⟨fun _ => rfl, ?_⟩
    intro hlost
    have hlost := h.lost hlost
    rw [hpc] at hlost
    exact hlost
  · rename_i e asked hpc
    cases hs
    apply h.of_pc (fun _ => rfl)
    rw [hpc]
    exact fun _ hdoomed => hdoomed
  · cases hs
    exact .disconnect _
  · cases hs
    exact .disconnect _
  · cases hs

theorem Noticed.recv (h : Noticed s) (hs : step s .recv = some t) : Noticed t := by
  simp only [step] at hs
  split at hs
  · cases hs
    exact .disconnect _
  · rename_i e rx hne hpc hrecv
    cases hs
    refine ⟨fun _ => rfl, ?_⟩
    intro hlost
    rcases h.lost hlost with hclosing | hdue | hdoomed
    · exact .inl hclosing
    · rcases hdue.recv_ok hrecv with hclosed | hdue
      · -- The event is not a close event: those end the session.
        cases e with
        | closed reason => exact (hne reason rfl).elim
        | _ => cases hclosed
      · exact .inr (.inl hdue)
    · rw [hpc] at hdoomed
      cases hdoomed
  · cases hs
    exact ⟨fun _ => rfl, fun _ => .inr (.inr (.inl ⟨rfl, rfl⟩))⟩
  · cases hs

theorem Noticed.step (h : Noticed s) (hs : step s a = some t) : Noticed t := by
  cases a with
  | change o x =>
      simp only [Supervisor.step] at hs
      split at hs
      · cases hs
        exact ⟨h.connected, h.lost⟩
      · cases hs
  | deliver e settles =>
      simp only [Supervisor.step] at hs
      split at hs
      · cases hs
      · cases hs
        exact ⟨(h.sendHub e).connected, (h.sendHub e).lost⟩
  | lose =>
      simp only [Supervisor.step] at hs
      split at hs
      · cases hs
      · cases hs
        exact ⟨h.connected, fun _ => .inl rfl⟩
  | deliverClosed reason =>
      simp only [Supervisor.step] at hs
      split at hs
      · cases hs
        refine ⟨(h.sendHub _).connected, fun _ => .inr ?_⟩
        unfold State.sendHub
        split
        · exact .inl (Receiver.Due.send_self rfl)
        · rename_i hsub
          right
          cases hpc : s.pc <;> simp_all [Pc.subscribed, Doomed]
      · cases hs
  | «open» =>
      simp only [Supervisor.step] at hs
      split at hs
      · rename_i hpc
        cases hs
        refine ⟨fun hconn => ?_, fun hlost => ?_⟩
        · simpa [hpc, Pc.inSession] using h.connected hconn
        · cases hlost
      · cases hs
  | subscribe =>
      simp only [Supervisor.step] at hs
      split at hs
      · rename_i hpc
        cases hs
        refine ⟨?_, fun _ => .inr (.inr (.inl ⟨rfl, rfl⟩))⟩
        intro hconn
        simpa [hpc, Pc.inSession] using h.connected hconn
      · cases hs
  | call => exact h.call hs
  | finish => exact h.finish hs
  | fail error =>
      simp only [Supervisor.step] at hs
      split at hs <;> cases hs <;> exact .disconnect _
  | bump =>
      simp only [Supervisor.step] at hs
      split at hs
      · rename_i first hpc
        cases hs
        have hlost := h.lost
        have hconn := h.connected
        rw [hpc] at hlost hconn
        cases first with
        | true => exact ⟨hconn, hlost⟩
        | false => exact ⟨hconn, hlost⟩
      · cases hs
  | publish =>
      simp only [Supervisor.step] at hs
      split at hs
      · rename_i hpc
        cases hs
        have hlost := h.lost
        have hconn := h.connected
        rw [hpc] at hlost hconn
        exact ⟨hconn, hlost⟩
      · cases hs
  | connect =>
      simp only [Supervisor.step] at hs
      split at hs
      · rename_i hpc
        cases hs
        have hlost := h.lost
        rw [hpc] at hlost
        exact ⟨fun _ => rfl, hlost⟩
      · cases hs
  | recv => exact h.recv hs
  | forward =>
      simp only [Supervisor.step] at hs
      split at hs
      · rename_i hpc
        cases hs
        have hlost := h.lost
        rw [hpc] at hlost
        exact ⟨fun _ => rfl, hlost⟩
      · cases hs
  | retry =>
      simp only [Supervisor.step] at hs
      split at hs
      · cases hs
        refine ⟨fun hconn => ?_, fun _ => .inr (.inr trivial)⟩
        cases hconn
      · cases hs
  | take o change =>
      simp only [Supervisor.step] at hs
      split at hs
      · obtain ⟨gen, -, rfl⟩ := Option.map_eq_some_iff.mp hs
        exact ⟨h.connected, h.lost⟩
      · cases hs
  | act i =>
      simp only [Supervisor.step] at hs
      split at hs
      · obtain ⟨x, -, rfl⟩ := Option.map_eq_some_iff.mp hs
        exact ⟨h.connected, h.lost⟩
      · cases hs
  | send i =>
      simp only [Supervisor.step] at hs
      split at hs
      · cases hs
        split
        · exact ⟨(h.sendHub _).connected, (h.sendHub _).lost⟩
        · exact ⟨h.connected, h.lost⟩
      · cases hs
  | giveUp i =>
      simp only [Supervisor.step] at hs
      split at hs
      · cases hs
        exact ⟨h.connected, h.lost⟩
      · cases hs

end Lodger.Supervisor
