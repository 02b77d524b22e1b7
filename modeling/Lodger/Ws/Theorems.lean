import Lodger.Ws.Lemmas
import Lodger.Supervisor.Theorems

namespace Lodger.Ws

open Lodger.Lib Lodger.Libvirt Lodger.Supervisor Lodger.Cache

variable {s t : State} {a : Action} {o : Obj}

theorem Coming.mono (h : Coming s o) (hsocket : s.socket ⊆ t.socket)
    (hevents : s.events.Due (fun e => e.obj = some o) → t.events.Due fun e => e.obj = some o)
    (hreloads : s.pc = .running → s.reloads ≠ s.sup.reloads →
      t.pc = .running ∧ t.reloads ≠ t.sup.reloads) : Coming t o := by
  rcases h with ⟨m, hm, hcovers⟩ | h | ⟨hpc, h⟩
  · exact .inl ⟨m, hsocket hm, hcovers⟩
  · exact .inr (.inl (hevents h))
  · exact .inr (.inr (hreloads hpc h))

theorem Due.passOn {p : Event → Prop} (h : s.events.Due p) (a : Supervisor.Action) :
    (s.passOn a).Due p := by
  unfold State.passOn
  split
  · split
    · exact h.send
    · exact h
  · exact h

-- A value that a receiver takes out becomes a message.
theorem covers_updateFor {e : Event} (h : e.obj = some o) :
    ∃ m ∈ (updateFor (.ok e)).toList, m.covers o = true := by
  cases e with
  | domain id change | network id event | pool id event =>
      cases h
      exact ⟨_, List.mem_singleton_self _, by simp [Update.covers]⟩
  | closed reason => cases h

theorem Effect.reloads_le {s t : Supervisor.State} {a : Supervisor.Action} (h : Effect s t a) :
    s.reloads ≤ t.reloads := by
  cases h with
  | bumped first hpc ht hinv hreloads => omega
  | quiet hpc hinv hreloads | loaded first hpc ht hreloads
  | applied e f hobj hpc ht hinv hreloads | forwarded e hpc ht hinv hreloads =>
      exact hreloads.ge

section Invariant

variable [Xml.Xmltree]

structure Wf (s : State) : Prop where
  aimed : Aimed s.sup.pc
  events : s.pc.hasReceiver = false → s.events = {}
  reloads : s.reloads ≤ s.sup.reloads

variable [Libvirtd]

theorem Wf.step (h : Wf s) (hs : step s a = some t) : Wf t := by
  cases a with
  | sup a =>
      obtain ⟨sup, hsup, rfl⟩ := Option.map_eq_some_iff.mp hs
      refine ⟨h.aimed.step hsup, ?_, h.reloads.trans (step_effect h.aimed hsup).reloads_le⟩
      intro hpc
      simp only at hpc ⊢
      unfold State.passOn
      split
      · rw [if_neg (by simp [hpc])]
        exact h.events hpc
      · exact h.events hpc
  | answer =>
      simp only [Ws.step] at hs
      split at hs
      · rename_i hpc
        cases hs
        exact ⟨h.aimed, fun _ => h.events (by rw [hpc]; rfl), h.reloads⟩
      · cases hs
  | subscribe =>
      simp only [Ws.step] at hs
      split at hs <;> cases hs
      exact ⟨h.aimed, fun _ => rfl, h.reloads⟩
  | watch | mark =>
      simp only [Ws.step] at hs
      split at hs <;> cases hs
      exact ⟨h.aimed, nofun, le_rfl⟩
  | event =>
      simp only [Ws.step] at hs
      split at hs
      · rename_i received events hpc hrecv
        cases hs
        refine ⟨h.aimed, ?_, h.reloads⟩
        simp [hpc, Pc.hasReceiver]
      · cases hs
  | reload =>
      simp only [Ws.step] at hs
      split at hs <;> cases hs
      exact ⟨h.aimed, h.events, le_rfl⟩
  | connection | onopen | fetch o | message =>
      simp only [Ws.step] at hs
      split at hs <;> cases hs
      exact ⟨h.aimed, h.events, h.reloads⟩

-- The steps of the supervisor.
theorem Followed.sup (h : Followed s) (hwf : Wf s) {a : Supervisor.Action} (hheard : Heard s (.sup a))
    (hs : step s (.sup a) = some t) : Followed t := by
  obtain ⟨sup, hsup, rfl⟩ := Option.map_eq_some_iff.mp hs
  intro o ho
  have hcoming (hcoming : Coming s o) (hreloads : sup.reloads = s.sup.reloads) :
      Coming { s with
        sup
        events := s.passOn a
        connChanged := s.connChanged || sup.conn ≠ s.sup.conn
        stale := s.stale ++ s.fetched.filter fun o =>
          sup.inventory.entry o ≠ s.sup.inventory.entry o } o := by
    refine hcoming.mono (fun _ => id) (fun hdue => Due.passOn hdue a) ?_
    exact fun hpc hne => ⟨hpc, hreloads ▸ hne⟩
  have hold (hinv : sup.inventory.entry o = s.sup.inventory.entry o) : o ∈ s.stale := by
    rcases List.mem_append.mp ho with ho | ho
    · exact ho
    · simp [hinv] at ho
  cases step_effect hwf.aimed hsup with
  | quiet hpc hinv hreloads =>
      rcases h o (hold (by rw [hinv])) with hc | hannounces
      · exact .inl (hcoming hc hreloads)
      · rcases hpc with hpc | hpc
        · right
          rw [hpc]
          exact hannounces
        · simp [hpc] at hannounces
  | loaded first hpc ht hreloads =>
      right
      rw [ht]
      rfl
  | applied e f hobj hpc ht hinv hreloads =>
      by_cases hentry : f.obj = o
      · right
        rw [ht]
        simp [announces, ← hobj, hentry]
      · rw [hinv, Inventory.entry_apply, if_neg hentry] at hold
        rcases h o (hold rfl) with hc | hannounces
        · exact .inl (hcoming hc hreloads)
        · simp [hpc] at hannounces
  | bumped first hpc ht hinv hreloads =>
      left
      rcases hheard with hrunning | hheard
      · refine .inr (.inr ⟨hrunning, ?_⟩)
        have := hwf.reloads
        simp only
        omega
      · refine (hheard o (hold (by rw [hinv]))).mono (fun _ => id) (fun hdue => Due.passOn hdue _) ?_
        intro hpc hne
        have := hwf.reloads
        exact ⟨hpc, by simp only; omega⟩
  | forwarded e hpc ht hinv hreloads =>
      left
      rcases h o (hold (by rw [hinv])) with hc | hannounces
      · exact hcoming hc hreloads
      · rcases hheard with hreceiver | hheard
        · refine .inr (.inl ?_)
          simp only [State.passOn, hpc, if_pos hreceiver]
          rw [hpc] at hannounces
          exact Receiver.Due.send_self (by simpa [announces] using hannounces)
        · exact hcoming (hheard o (hold (by rw [hinv])) hannounces) hreloads

theorem Followed.step (h : Followed s) (hwf : Wf s) (hheard : Heard s a) (hs : step s a = some t) :
    Followed t := by
  cases a with
  | sup a => exact h.sup hwf hheard hs
  | answer =>
      simp only [Ws.step] at hs
      split at hs
      · rename_i hpc
        cases hs
        intro o ho
        apply (h o ho).imp_left
        exact fun hc => hc.mono (fun _ => id) id (by simp [hpc])
      · cases hs
  | subscribe =>
      simp only [Ws.step] at hs
      split at hs
      · rename_i hpc
        cases hs
        have hempty : s.events = {} := hwf.events (by rw [hpc]; rfl)
        intro o ho
        apply (h o ho).imp_left
        exact fun hc => hc.mono (fun _ => id) (by rw [hempty]; exact id) (by simp [hpc])
      · cases hs
  | watch | mark =>
      -- The count is marked as seen, but it could not have made a message yet.
      simp only [Ws.step] at hs
      split at hs
      · rename_i hpc
        cases hs
        intro o ho
        apply (h o ho).imp_left
        exact fun hc => hc.mono (fun _ => id) id (by simp [hpc])
      · cases hs
  | event =>
      simp only [Ws.step] at hs
      split at hs
      · rename_i received events hpc hrecv
        cases hs
        intro o ho
        apply (h o ho).imp_left
        rintro (⟨m, hm, hcovers⟩ | hdue | hreloads)
        · exact .inl ⟨m, List.mem_append_left _ hm, hcovers⟩
        · cases received with
          | ok e =>
              rcases hdue.recv_ok hrecv with he | hdue
              · obtain ⟨m, hm, hcovers⟩ := covers_updateFor he
                exact .inl ⟨m, List.mem_append_right _ hm, hcovers⟩
              · exact .inr (.inl hdue)
          | lagged n => exact .inl ⟨.resync, by simp [updateFor], rfl⟩
        · exact .inr (.inr hreloads)
      · cases hs
  | reload =>
      simp only [Ws.step] at hs
      split at hs
      · cases hs
        exact fun o _ => .inl (.inl ⟨.resync, by simp, rfl⟩)
      · cases hs
  | connection =>
      simp only [Ws.step] at hs
      split at hs
      · cases hs
        intro o ho
        apply (h o ho).imp_left
        exact fun hc => hc.mono (List.subset_append_left _ _) id fun hpc hne => ⟨hpc, hne⟩
      · cases hs
  | onopen =>
      simp only [Ws.step] at hs
      split at hs
      · cases hs
        exact h
      · cases hs
  | fetch o =>
      simp only [Ws.step] at hs
      split at hs
      · cases hs
        exact fun o' ho' => h o' (List.mem_of_mem_filter ho')
      · cases hs
  | message =>
      simp only [Ws.step] at hs
      split at hs
      · rename_i m socket hopen hsocket
        cases hs
        intro o ho
        obtain ⟨ho, hcovers⟩ := List.mem_filter.mp ho
        apply (h o ho).imp_left
        rintro (⟨m', hm', hcovers'⟩ | hdue | hreloads)
        · rw [hsocket] at hm'
          rcases List.mem_cons.mp hm' with rfl | hm'
          · simp [hcovers'] at hcovers
          · exact .inl ⟨m', hm', hcovers'⟩
        · exact .inr (.inl hdue)
        · exact .inr (.inr hreloads)
      · cases hs

-- An announcement that is not heard leaves a change without a message.
theorem heard_of_followed (hs : step s a = some t) (ht : Followed t) : Heard s a := by
  cases a with
  | sup a =>
      obtain ⟨sup, hsup, rfl⟩ := Option.map_eq_some_iff.mp hs
      cases a with
      | forward =>
          simp only [Supervisor.step] at hsup
          split at hsup
          · rename_i e hpc
            cases hsup
            by_cases hreceiver : s.pc.hasReceiver = true
            · exact .inl hreceiver
            · right
              intro o ho _
              have hc := (ht o (List.mem_append_left _ ho)).resolve_right (by simp [announces])
              refine hc.mono (fun _ => id) ?_ fun hpc hne => ⟨hpc, hne⟩
              simp [State.passOn, hpc, hreceiver]
          · cases hsup
      | bump =>
          simp only [Supervisor.step] at hsup
          split at hsup
          · rename_i first hpc
            cases hsup
            by_cases hrunning : s.pc = .running
            · exact .inl hrunning
            · right
              intro o ho
              have hc := (ht o (List.mem_append_left _ ho)).resolve_right
                (by cases first <;> simp [announces])
              exact hc.mono (fun _ => id) id fun hpc _ => absurd hpc hrunning
          · cases hsup
      | _ => trivial
  | _ => trivial

-- In a run every change that the browser has not fetched is followed by a
-- message at all times, if and only if every announcement is heard.
theorem changes_followed_iff_heard (w : World) (acts : List Action) (s : State)
    (hrun : exec step { sup := { world := w } } acts = some s) :
    (∀ front back t, acts = front ++ back →
      exec step { sup := { world := w } } front = some t → Followed t) ↔
    Along step Heard { sup := { world := w } } acts := by
  constructor
  · intro h
    exact Along.of_states Followed (fun _ _ _ hs ht => heard_of_followed hs ht) hrun h
  · rintro h front back t rfl hfront
    have hstart : Followed { sup := { world := w } } := by simp [Followed]
    have hwf : Wf { sup := { world := w } } := ⟨trivial, fun _ => rfl, le_rfl⟩
    exact (exec_invariant (fun s => Followed s ∧ Wf s)
      (fun _ _ _ h hok hs => ⟨h.1.step h.2 hok hs, h.2.step hs⟩)
      ⟨hstart, hwf⟩ h.append_left hfront).1

end Invariant

section Runs

local instance : Xml.Xmltree := noXml
local instance : Libvirtd := storageOnly

-- The receiver is there before anything is announced.
def ready (s : State) : Action → Bool
  | .sup .forward => s.pc.hasReceiver
  | .sup .bump => s.pc = .running || s.stale.isEmpty
  | _ => true

theorem heard_of_ready {s : State} {a : Action} (h : ready s a = true) : Heard s a := by
  unfold Heard
  split
  · exact .inl h
  · refine (by simpa [ready] using h : s.pc = .running ∨ s.stale = []).imp_right ?_
    intro hstale
    simp [hstale]
  · trivial

def stopped : List Action :=
  [.sup (.change imagesObj (some (.pool { images with state := 0, active := false }))),
    .sup (.deliver (.pool 1 3) true), .sup .recv, .sup .call, .sup .call, .sup .call, .sup .call,
    .sup .finish, .sup .forward]

def opening : List Action := connecting.map .sup ++ [.answer, .onopen, .fetch imagesObj]

theorem changes_followed_in_turn :
    ∃ s, exec step { sup := { world := imagesWorld } }
        (opening ++ [.subscribe, .watch, .mark] ++ stopped) = some s ∧
      ∀ front back t, opening ++ [.subscribe, .watch, .mark] ++ stopped = front ++ back →
        exec step { sup := { world := imagesWorld } } front = some t → Followed t := by
  obtain ⟨s, hrun, -⟩ := Option.map_eq_some_iff.mp
    (show (exec step { sup := { world := imagesWorld } }
      (opening ++ [.subscribe, .watch, .mark] ++ stopped)).map (·.stale) = some [imagesObj] from rfl)
  have hready : Along step (fun s a => ready s a = true) { sup := { world := imagesWorld } }
      (opening ++ [.subscribe, .watch, .mark] ++ stopped) := by decide
  exact ⟨s, hrun, (changes_followed_iff_heard _ _ s hrun).mpr
    (hready.imp fun _ _ => heard_of_ready)⟩

-- The browser sees the socket open and fetches the pool, the pool stops and the
-- supervisor passes the event on, and only then does the server subscribe.
theorem change_in_gap_not_followed :
    ¬∀ w acts s, exec step { sup := { world := w } } acts = some s → Followed s := by
  intro h
  obtain ⟨s, hrun, hs⟩ := Option.map_eq_some_iff.mp
    (show (exec step { sup := { world := imagesWorld } }
      (opening ++ stopped ++ [.subscribe, .watch, .mark])).map (fun s =>
        (s.stale, s.socket, s.events, s.reloads, s.sup.reloads, announces imagesObj s.sup.pc)) =
      some ([imagesObj], [], {}, 1, 1, false) from rfl)
  simp only [Prod.mk.injEq] at hs
  obtain ⟨hstale, hsocket, hevents, hreloads, hreloads', hannounces⟩ := hs
  rcases h _ _ s hrun imagesObj (by simp [hstale]) with (⟨m, hm, -⟩ | hdue | ⟨-, hne⟩) | h
  · simp [hsocket] at hm
  · rw [hevents] at hdue
    exact Receiver.not_due_empty hdue
  · exact hne (hreloads.trans hreloads'.symm)
  · simp [hannounces] at h

end Runs

end Lodger.Ws
