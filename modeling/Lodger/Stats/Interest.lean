import Lodger.Lib.Machine
import Lodger.Lib.Parties

namespace Lodger.Stats.Interest

open Lodger.Lib

inductive Request where
  | subscribe | unsubscribe
deriving DecidableEq

-- A socket is `closing` once either side hung up and the page does not know it yet.
inductive Phase where
  | connecting | opened | closing | closed
deriving DecidableEq

-- One socket of `/ws/events`, with what is in flight and whether `forward` holds a receiver.
structure Socket (Vms : Type) where
  owner : Nat
  phase : Phase
  toServer : List Request
  subscribed : Bool
  toBrowser : List Vms
deriving DecidableEq

-- One call of `connectEvents`. It waits for its ticket or its timer, or it has a socket.
structure Connection where
  stopped : Bool
  waiting : Bool
  socket : Option Nat
deriving DecidableEq

-- `statsInterest`, the pages, and the data under `keys.stats` in the query cache of the one
-- client. Messages other than the stats change nothing here.
structure State (Vms : Type) where
  count : Nat
  send : Option Nat
  client : Bool
  released : List Bool
  stats : Option Vms
  connections : List Connection
  sockets : List (Socket Vms)
deriving DecidableEq

inductive Act (Vms : Type) where
  | wantStats
  | release (p : Nat)
  | connectEvents
  | connect (i : Nat)
  | stop (i : Nat)
  | opened (k : Nat)
  | message (k : Nat)
  | hangUp (k : Nat)
  | closed (k : Nat)
  -- the server's side of a socket
  | read (k : Nat)
  | publish (k : Nat) (vms : Vms)
deriving DecidableEq

variable {Vms : Type}

def start : State Vms := ⟨0, none, false, [], none, [], []⟩

def Socket.hangUp (c : Socket Vms) : Socket Vms :=
  match c.phase with
  | .connecting | .opened => { c with phase := .closing }
  | _ => c

-- A browser discards what goes out on a socket that is not open.
def Socket.send (c : Socket Vms) (request : Request) : Socket Vms :=
  if c.phase = .opened then { c with toServer := c.toServer ++ [request] } else c

def State.setSocket (s : State Vms) (k : Nat) (f : Socket Vms → Socket Vms) : State Vms :=
  { s with sockets := s.sockets.modify k f }

-- `statsInterest.send?.(text)`
def State.sendText (s : State Vms) (request : Request) : State Vms :=
  match s.send with
  | none => s
  | some k => s.setSocket k fun c => c.send request

def wantStats (s : State Vms) : State Vms :=
  let s := { s with count := s.count + 1, released := s.released ++ [false] }
  if s.count = 1 then s.sendText .subscribe else s

-- What `wantStats` returned to page `p`.
def release (s : State Vms) (p : Nat) : Option (State Vms) :=
  match s.released[p]? with
  | none => none
  | some true => some s
  | some false =>
      let s := { s with released := s.released.set p true, count := s.count - 1 }
      if s.count = 0 then
        let s := s.sendText .unsubscribe
        some { s with stats := if s.client then none else s.stats }
      else some s

def connect (s : State Vms) (i : Nat) : Option (State Vms) :=
  match s.connections[i]? with
  | some ⟨stopped, true, socket⟩ =>
      if stopped then some { s with connections := s.connections.set i ⟨true, false, socket⟩ }
      else some { s with
        connections := s.connections.set i ⟨false, false, some s.sockets.length⟩
        sockets := s.sockets ++ [⟨i, .connecting, [], false, []⟩] }
  | _ => none

-- What `connectEvents` returned.
def stop (s : State Vms) (i : Nat) : Option (State Vms) :=
  match s.connections[i]? with
  | some connection =>
      let s := { s with
        connections := s.connections.set i { connection with stopped := true }
        send := none }
      match connection.socket with
      | none => some s
      | some k => some (s.setSocket k Socket.hangUp)
  | none => none

def onopen (s : State Vms) (k : Nat) : Option (State Vms) :=
  match s.sockets[k]? with
  | some ⟨owner, .connecting, toServer, subscribed, toBrowser⟩ =>
      let opened : Socket Vms := ⟨owner, .opened, toServer, subscribed, toBrowser⟩
      let s := { s with client := true, send := some k }
      -- A new socket has no subscription yet, the first one or not.
      some (s.setSocket k fun _ => if 0 < s.count then opened.send .subscribe else opened)
  | _ => none

-- `setQueryData`, whatever the count says.
def onmessage (s : State Vms) (k : Nat) : Option (State Vms) :=
  match s.sockets[k]? with
  | some ⟨owner, .opened, toServer, subscribed, vms :: rest⟩ =>
      some { s.setSocket k fun _ => ⟨owner, .opened, toServer, subscribed, rest⟩ with
        stats := some vms }
  | _ => none

def onclose (s : State Vms) (k : Nat) : Option (State Vms) :=
  match s.sockets[k]? with
  | some ⟨owner, .closing, toServer, subscribed, toBrowser⟩ =>
      let s := s.setSocket k fun _ => ⟨owner, .closed, toServer, subscribed, toBrowser⟩
      match s.connections[owner]? with
      | some connection =>
          some { s with
            send := if connection.socket = some k then none else s.send
            connections := s.connections.set owner
              { connection with waiting := !connection.stopped } }
      | none => none
  | _ => none

-- `forward` reads a request.
def readRequest (s : State Vms) (k : Nat) : Option (State Vms) :=
  match s.sockets[k]? with
  | some ⟨owner, phase, request :: rest, _, toBrowser⟩ =>
      some (s.setSocket k fun _ => ⟨owner, phase, rest, request = .subscribe, toBrowser⟩)
  | _ => none

-- `forward` sends a new snapshot.
def publish (s : State Vms) (k : Nat) (vms : Vms) : Option (State Vms) :=
  match s.sockets[k]? with
  | some ⟨owner, phase, toServer, true, toBrowser⟩ =>
      some (s.setSocket k fun _ => ⟨owner, phase, toServer, true, toBrowser ++ [vms]⟩)
  | _ => none

def hangUp (s : State Vms) (k : Nat) : Option (State Vms) :=
  match s.sockets[k]? with
  | some _ => some (s.setSocket k Socket.hangUp)
  | none => none

def step (s : State Vms) : Act Vms → Option (State Vms)
  | .wantStats => some (wantStats s)
  | .release p => release s p
  | .connectEvents => some { s with connections := s.connections ++ [⟨false, true, none⟩] }
  | .connect i => connect s i
  | .stop i => stop s i
  | .opened k => onopen s k
  | .message k => onmessage s k
  | .hangUp k => hangUp s k
  | .closed k => onclose s k
  | .read k => readRequest s k
  | .publish k vms => publish s k vms

-- The stats message that the page gets next on a socket.
def State.next (s : State Vms) (k : Nat) : Option Vms :=
  (s.sockets[k]?).bind fun c => c.toBrowser.head?

section Steps

variable {s s' : State Vms}

def NoneOpen (sockets : List (Socket Vms)) : Prop := ∀ c ∈ sockets, c.phase ≠ .opened

theorem NoneOpen.modify {sockets : List (Socket Vms)} (h : NoneOpen sockets) (k : Nat)
    (f : Socket Vms → Socket Vms) (hf : ∀ c ∈ sockets[k]?, (f c).phase ≠ .opened) :
    NoneOpen (sockets.modify k f) := by
  intro c hc
  obtain ⟨j, hj⟩ := List.mem_iff_getElem?.mp hc
  rw [List.getElem?_modify] at hj
  obtain ⟨old, hold, hnew⟩ := Option.map_eq_some_iff.mp hj
  by_cases hk : k = j
  · subst hk
    rw [if_pos rfl] at hnew
    rw [← hnew]
    exact hf old hold
  · rw [if_neg hk] at hnew
    rw [← hnew]
    exact h old (List.mem_of_getElem? hold)

-- The count is the number of pages that were not released, and before the first socket opens
-- there is nothing in the cache.
structure Inv (s : State Vms) : Prop where
  count : s.count = s.released.count false
  client : s.client = false → s.stats = none ∧ NoneOpen s.sockets

theorem Inv.start : Inv (start : State Vms) :=
  ⟨rfl, fun _ => ⟨rfl, fun _ hc => nomatch hc⟩⟩

-- A step that is none of the pages' business.
structure Quiet (s s' : State Vms) : Prop where
  count : s'.count = s.count
  released : s'.released = s.released
  stats : s'.stats = s.stats
  client : s'.client = s.client
  sockets : NoneOpen s.sockets → NoneOpen s'.sockets

theorem Quiet.inv (h : Quiet s s') (hs : Inv s) : Inv s' := by
  refine ⟨?_, ?_⟩
  · rw [h.count, h.released]
    exact hs.count
  · intro hclient
    rw [h.client] at hclient
    obtain ⟨hstats, hopen⟩ := hs.client hclient
    exact ⟨h.stats.trans hstats, h.sockets hopen⟩

theorem quiet_setSocket (k : Nat) (f : Socket Vms → Socket Vms)
    (hf : ∀ c ∈ s.sockets[k]?, (f c).phase = .opened → c.phase = .opened) :
    Quiet s (s.setSocket k f) := by
  refine ⟨rfl, rfl, rfl, rfl, ?_⟩
  intro hopen
  refine hopen.modify k f ?_
  intro c hc hopened
  exact hopen c (List.mem_of_getElem? hc) (hf c hc hopened)

theorem phase_send (c : Socket Vms) (request : Request) : (c.send request).phase = c.phase := by
  unfold Socket.send
  by_cases hopen : c.phase = .opened
  · rw [if_pos hopen]
  · rw [if_neg hopen]

theorem quiet_sendText (request : Request) : Quiet s (s.sendText request) := by
  unfold State.sendText
  cases s.send with
  | none => exact ⟨rfl, rfl, rfl, rfl, id⟩
  | some k =>
      refine quiet_setSocket k _ ?_
      intro c _ hopened
      rwa [phase_send] at hopened

theorem phase_hangUp (c : Socket Vms) : c.hangUp.phase ≠ .opened := by
  unfold Socket.hangUp
  split
  · simp
  · simp
  · next hconnecting hopened => exact hopened

theorem wantStats_effect :
    (wantStats s).count = s.count + 1 ∧ (wantStats s).released = s.released ++ [false] ∧
      (wantStats s).stats = s.stats ∧ (wantStats s).client = s.client ∧
      (NoneOpen s.sockets → NoneOpen (wantStats s).sockets) := by
  unfold wantStats
  dsimp only
  split
  · obtain ⟨hcount, hreleased, hstats, hclient, hsockets⟩ := quiet_sendText
      (s := { s with count := s.count + 1, released := s.released ++ [false] }) .subscribe
    exact ⟨hcount, hreleased, hstats, hclient, hsockets⟩
  · exact ⟨rfl, rfl, rfl, rfl, id⟩

-- A page that goes, for the first time. The last one takes the entry with it.
theorem release_effect {p : Nat} (hs : Inv s) (h : release s p = some s') :
    s' = s ∨ (0 < s.count ∧ s'.count = s.count - 1 ∧ Inv s' ∧
      (s'.count = 0 → s'.stats = none) ∧ (s'.count ≠ 0 → s'.stats = s.stats)) := by
  unfold release at h
  cases hp : s.released[p]? with
  | none =>
      rw [hp] at h
      cases h
  | some gone =>
      cases gone with
      | true =>
          rw [hp] at h
          exact Or.inl (Option.some.inj h).symm
      | false =>
          rw [hp] at h
          dsimp only at h
          -- One page fewer that was not released.
          have hmove : Parties.move s.released p false true = some (s.released.set p true) := by
            simp [Parties.move, hp]
          have hleft : (s.released.set p true).count false + 1 = s.released.count false := by
            simpa using Parties.move_count hmove false
          have hcount := hs.count
          have hquiet := quiet_sendText (s := { s with
            released := s.released.set p true, count := s.count - 1 }) .unsubscribe
          by_cases hlast : s.count - 1 = 0
          · rw [if_pos hlast] at h
            cases h
            have hgone : (if s.client = true then none else s.stats) = none := by
              cases hclient : s.client with
              | true => rfl
              | false => simpa using (hs.client hclient).1
            refine Or.inr ⟨by omega, hquiet.count, ⟨?_, ?_⟩, ?_, ?_⟩
            · exact hquiet.count.trans ((by omega : s.count - 1 =
                (s.released.set p true).count false).trans (by rw [hquiet.released]))
            · intro hclient
              have hclient : s.client = false := hquiet.client.symm.trans hclient
              refine ⟨?_, hquiet.sockets (hs.client hclient).2⟩
              rw [hquiet.client, hquiet.stats]
              exact hgone
            · intro _
              rw [hquiet.client, hquiet.stats]
              exact hgone
            · intro hne
              exact absurd (hquiet.count.trans hlast) hne
          · rw [if_neg hlast] at h
            cases h
            exact Or.inr ⟨by omega, rfl, ⟨by dsimp only; omega, hs.client⟩,
              fun hzero => absurd hzero hlast, fun _ => rfl⟩

theorem onopen_effect {k : Nat} (h : onopen s k = some s') :
    s'.count = s.count ∧ s'.released = s.released ∧ s'.stats = s.stats ∧ s'.client = true := by
  unfold onopen at h
  split at h
  · cases h
    exact ⟨rfl, rfl, rfl, rfl⟩
  · cases h

theorem onmessage_effect {k : Nat} (h : onmessage s k = some s') :
    ∃ vms, s.next k = some vms ∧ s'.count = s.count ∧ s'.released = s.released ∧
      s'.stats = some vms ∧ s'.client = s.client ∧ ∃ c ∈ s.sockets, c.phase = .opened := by
  unfold onmessage at h
  split at h
  · next owner toServer subscribed vms rest hk =>
      cases h
      exact ⟨vms, by simp [State.next, hk], rfl, rfl, rfl, rfl, _, List.mem_of_getElem? hk, rfl⟩
  · cases h

-- The other steps: new sockets, their ends, and the server.
theorem quiet_step {act : Act Vms} (h : step s act = some s') (hwant : act ≠ .wantStats)
    (hrelease : ∀ p, act ≠ .release p) (hopened : ∀ k, act ≠ .opened k)
    (hmessage : ∀ k, act ≠ .message k) : Quiet s s' := by
  cases act with
  | wantStats => exact absurd rfl hwant
  | release p => exact absurd rfl (hrelease p)
  | opened k => exact absurd rfl (hopened k)
  | message k => exact absurd rfl (hmessage k)
  | connectEvents =>
      cases h
      exact ⟨rfl, rfl, rfl, rfl, id⟩
  | connect i =>
      simp only [step, connect] at h
      split at h
      · split at h
        · cases h
          exact ⟨rfl, rfl, rfl, rfl, id⟩
        · cases h
          refine ⟨rfl, rfl, rfl, rfl, ?_⟩
          intro hopen c hc
          rw [List.mem_append, List.mem_singleton] at hc
          cases hc with
          | inl hc => exact hopen c hc
          | inr hc => simp [hc]
      · cases h
  | stop i =>
      simp only [step, stop] at h
      split at h
      · split at h
        · cases h
          exact ⟨rfl, rfl, rfl, rfl, id⟩
        · next k _ =>
            cases h
            have hquiet := quiet_setSocket (s := s) k Socket.hangUp
              fun c _ hc => absurd hc (phase_hangUp c)
            exact ⟨rfl, rfl, rfl, rfl, hquiet.sockets⟩
      · cases h
  | hangUp k =>
      simp only [step, hangUp] at h
      split at h
      · cases h
        exact quiet_setSocket k _ fun c _ hc => absurd hc (phase_hangUp c)
      · cases h
  | closed k =>
      simp only [step, onclose] at h
      split at h
      · next owner toServer subscribed toBrowser hk =>
          have hquiet := quiet_setSocket (s := s) k
            (fun _ => ⟨owner, .closed, toServer, subscribed, toBrowser⟩) fun c _ hc => nomatch hc
          split at h
          · cases h
            exact ⟨rfl, rfl, rfl, rfl, hquiet.sockets⟩
          · cases h
      · cases h
  | read k =>
      simp only [step, readRequest] at h
      split at h
      · next hk =>
          cases h
          refine quiet_setSocket k _ ?_
          intro c hc hphase
          rw [hk] at hc
          cases hc
          exact hphase
      · cases h
  | publish k vms =>
      simp only [step, publish] at h
      split at h
      · next hk =>
          cases h
          refine quiet_setSocket k _ ?_
          intro c hc hphase
          rw [hk] at hc
          cases hc
          exact hphase
      · cases h

theorem inv_step (hs : Inv s) (act : Act Vms) (h : step s act = some s') : Inv s' := by
  cases act with
  | wantStats =>
      cases h
      obtain ⟨hcount, hreleased, hstats, hclient, hsockets⟩ := wantStats_effect (s := s)
      refine ⟨?_, ?_⟩
      · rw [hcount, hreleased, List.count_append, hs.count]
        rfl
      · intro hnone
        rw [hclient] at hnone
        obtain ⟨hempty, hopen⟩ := hs.client hnone
        exact ⟨hstats.trans hempty, hsockets hopen⟩
  | release p =>
      obtain rfl | ⟨-, -, hinv, -⟩ := release_effect hs h
      · exact hs
      · exact hinv
  | opened k =>
      obtain ⟨hcount, hreleased, -, hclient⟩ := onopen_effect h
      refine ⟨?_, ?_⟩
      · rw [hcount, hreleased]
        exact hs.count
      · intro hnone
        rw [hclient] at hnone
        cases hnone
  | message k =>
      obtain ⟨vms, -, hcount, hreleased, -, hclient, c, hc, hopened⟩ := onmessage_effect h
      refine ⟨?_, ?_⟩
      · rw [hcount, hreleased]
        exact hs.count
      · intro hnone
        rw [hclient] at hnone
        exact absurd hopened ((hs.client hnone).2 c hc)
  | connectEvents | connect i | stop i | hangUp k | closed k | read k | publish k vms =>
      exact (quiet_step h (by simp) (by simp) (by simp) (by simp)).inv hs

theorem inv_exec (acts : List (Act Vms)) (hrun : exec step start acts = some s) : Inv s :=
  exec_invariant_all Inv (fun _ act _ h hs => inv_step h act hs) Inv.start hrun

-- What a step does to the count and to the entry.
theorem step_effect (hs : Inv s) (act : Act Vms) (h : step s act = some s') :
    (act = .wantStats ∧ s'.count = s.count + 1 ∧ s'.stats = s.stats) ∨
    (∃ k vms, act = .message k ∧ s.next k = some vms ∧ s'.count = s.count ∧
      s'.stats = some vms) ∨
    (act ≠ .wantStats ∧ s'.count = 0 ∧ 0 < s.count ∧ s'.stats = none) ∨
    (act ≠ .wantStats ∧ s'.stats = s.stats ∧ (s'.count = 0 ↔ s.count = 0)) := by
  cases act with
  | wantStats =>
      cases h
      obtain ⟨hcount, -, hstats, -⟩ := wantStats_effect (s := s)
      exact Or.inl ⟨rfl, hcount, hstats⟩
  | message k =>
      obtain ⟨vms, hnext, hcount, -, hstats, -⟩ := onmessage_effect h
      exact Or.inr (Or.inl ⟨k, vms, rfl, hnext, hcount, hstats⟩)
  | release p =>
      obtain rfl | ⟨hpos, hcount, -, hlast, hmore⟩ := release_effect hs h
      · exact Or.inr (Or.inr (Or.inr ⟨by simp, rfl, Iff.rfl⟩))
      · by_cases hzero : s'.count = 0
        · exact Or.inr (Or.inr (Or.inl ⟨by simp, hzero, hpos, hlast hzero⟩))
        · exact Or.inr (Or.inr (Or.inr ⟨by simp, hmore hzero, by omega⟩))
  | opened k =>
      obtain ⟨hcount, -, hstats, -⟩ := onopen_effect h
      exact Or.inr (Or.inr (Or.inr ⟨by simp, hstats, by rw [hcount]⟩))
  | connectEvents | connect i | stop i | hangUp k | closed k | read k | publish k vms =>
      have hquiet := quiet_step h (by simp) (by simp) (by simp) (by simp)
      exact Or.inr (Or.inr (Or.inr ⟨by simp, hquiet.stats, by rw [hquiet.count]⟩))

end Steps

-- The entry came with a message, and some page has wanted stats from then on.
def Live (acts : List (Act Vms)) (vms : Vms) : Prop :=
  ∃ front k back u, acts = front ++ .message k :: back ∧ exec step start front = some u ∧
    u.next k = some vms ∧ 0 < u.count ∧
    ∀ mid rest w, back = mid ++ rest →
      exec step start (front ++ .message k :: mid) = some w → 0 < w.count

-- A stats message came while no page wanted stats.
def Late (acts : List (Act Vms)) : Prop :=
  ∃ front k back u, acts = front ++ .message k :: back ∧ exec step start front = some u ∧
    u.count = 0

-- No page opens after such a message.
def Timely (acts : List (Act Vms)) : Prop :=
  ∀ front back, acts = front ++ .wantStats :: back → ¬ Late front

section Runs

variable {acts : List (Act Vms)} {s : State Vms}

theorem Timely.prefix {more : List (Act Vms)} (h : Timely (acts ++ more)) : Timely acts := by
  rintro front back rfl
  exact h front (back ++ more) (by simp)

theorem Late.append (h : Late acts) (more : List (Act Vms)) : Late (acts ++ more) := by
  obtain ⟨front, k, back, u, rfl, hu, hzero⟩ := h
  exact ⟨front, k, back ++ more, u, by simp, hu, hzero⟩

theorem Live.append {vms : Vms} {act : Act Vms} (h : Live acts vms)
    (hrun : exec step start (acts ++ [act]) = some s) (hpos : 0 < s.count) :
    Live (acts ++ [act]) vms := by
  obtain ⟨front, k, back, u, rfl, hu, hnext, hcount, hsince⟩ := h
  refine ⟨front, k, back ++ [act], u, by simp, hu, hnext, hcount, ?_⟩
  intro mid rest w hsplit hw
  obtain rfl | ⟨shorter, last, rfl⟩ := List.eq_nil_or_concat rest
  · -- The whole run: its last state still has a page.
    have hmid : mid = back ++ [act] := by simpa using hsplit.symm
    have hwhole : front ++ .message k :: mid = (front ++ .message k :: back) ++ [act] := by
      simp [hmid]
    rw [hwhole, hrun] at hw
    cases hw
    exact hpos
  · have hback : back = mid ++ shorter := by
      rw [List.concat_eq_append, ← List.append_assoc] at hsplit
      exact (List.append_inj' hsplit rfl).1
    exact hsince mid shorter w hback hw

-- Where the entry of a run comes from.
theorem entry_live_or_late (hrun : exec step start acts = some s) (htimely : Timely acts)
    (vms : Vms) (hstats : s.stats = some vms) :
    (0 < s.count ∧ Live acts vms) ∨ (s.count = 0 ∧ Late acts) := by
  induction acts using List.reverseRecOn generalizing s vms with
  | nil =>
      cases hrun
      cases hstats
  | append_singleton acts act ih =>
      obtain ⟨before, hbefore, hstep⟩ := exec_concat.mp hrun
      have hinv := inv_exec acts hbefore
      obtain ⟨rfl, hcount, hsame⟩ | ⟨k, sent, rfl, hnext, hcount, hsent⟩ | ⟨-, -, -, hnone⟩ |
        ⟨-, hsame, hzero⟩ := step_effect hinv act hstep
      · obtain ⟨-, hlive⟩ | ⟨-, hlate⟩ := ih hbefore htimely.prefix vms (hsame ▸ hstats)
        · exact Or.inl ⟨by omega, hlive.append hrun (by omega)⟩
        · exact absurd hlate (htimely acts [] rfl)
      · rw [hsent] at hstats
        cases hstats
        by_cases hpos : s.count = 0
        · exact Or.inr ⟨hpos, acts, k, [], before, rfl, hbefore, by omega⟩
        · refine Or.inl ⟨by omega, acts, k, [], before, rfl, hbefore, hnext, by omega, ?_⟩
          intro mid rest w hmid hw
          obtain ⟨rfl, rfl⟩ := List.append_eq_nil_iff.mp hmid.symm
          rw [hrun] at hw
          cases hw
          omega
      · rw [hnone] at hstats
        cases hstats
      · obtain ⟨hpos, hlive⟩ | ⟨hpos, hlate⟩ := ih hbefore htimely.prefix vms (hsame ▸ hstats)
        · have hpos' : 0 < s.count := by omega
          exact Or.inl ⟨hpos', hlive.append hrun hpos'⟩
        · exact Or.inr ⟨hzero.mpr hpos, hlate.append [act]⟩

-- An old entry stays until the next page opens.
theorem late_entry_stays (mid back : List (Act Vms)) {from_ : State Vms} (hinv : Inv from_)
    (hcount : from_.count = 0) (hstats : from_.stats ≠ none)
    (hrun : exec step from_ (mid ++ .wantStats :: back) = some s) :
    ∃ front rest u, mid ++ .wantStats :: back = front ++ .wantStats :: rest ∧
      exec step from_ front = some u ∧ u.count = 0 ∧ u.stats ≠ none := by
  induction mid generalizing from_ with
  | nil => exact ⟨[], back, from_, rfl, rfl, hcount, hstats⟩
  | cons act mid ih =>
      obtain ⟨next, hstep, hrest⟩ := exec_cons_eq_some.mp hrun
      by_cases hact : act = .wantStats
      · exact ⟨[], mid ++ .wantStats :: back, from_, by rw [hact]; rfl, rfl, hcount, hstats⟩
      · have hnext : next.count = 0 ∧ next.stats ≠ none := by
          obtain ⟨hwant, -⟩ | ⟨k, vms, -, -, hsame, hsent⟩ | ⟨-, -, hpos, -⟩ |
            ⟨-, hsame, hzero⟩ := step_effect hinv act hstep
          · exact absurd hwant hact
          · exact ⟨by omega, by simp [hsent]⟩
          · omega
          · exact ⟨hzero.mpr hcount, hsame ▸ hstats⟩
        obtain ⟨front, rest, u, hsplit, hu, hzero, hentry⟩ :=
          ih (inv_step hinv act hstep) hnext.1 hnext.2 hrest
        exact ⟨act :: front, rest, u, by rw [List.cons_append, hsplit]; rfl,
          exec_cons_eq_some.mpr ⟨next, hstep, hu⟩, hzero, hentry⟩

-- Old stats never show as live in exactly the runs in which no page opens after a stats message
-- that came while no page wanted stats.
theorem old_stats_never_live (hrun : exec step start acts = some s) :
    ((∀ front back u, acts = front ++ .wantStats :: back → exec step start front = some u →
        u.count = 0 → u.stats = none) ∧
      ∀ front back u vms, acts = front ++ back → exec step start front = some u →
        0 < u.count → u.stats = some vms → Live front vms) ↔
      Timely acts := by
  constructor
  · rintro ⟨hempty, -⟩ front back rfl ⟨before, k, mid, u, rfl, hu, hzero⟩
    obtain ⟨after, hafter, -⟩ := exec_append.mp hrun
    obtain ⟨u', hu', hmid⟩ := exec_append.mp hafter
    obtain rfl : u = u' := Option.some.inj (hu.symm.trans hu')
    obtain ⟨next, hmessage, -⟩ := exec_cons_eq_some.mp hmid
    obtain ⟨vms, -, hcount, -, hstats, -⟩ := onmessage_effect hmessage
    have hnext : exec step start (before ++ [.message k]) = some next :=
      exec_concat.mpr ⟨u, hu, hmessage⟩
    have hwhole : (before ++ .message k :: mid) ++ .wantStats :: back =
        (before ++ [.message k]) ++ (mid ++ .wantStats :: back) := by simp
    rw [hwhole] at hrun hempty
    obtain ⟨next', hnext', hrest⟩ := exec_append.mp hrun
    obtain rfl : next = next' := Option.some.inj (hnext.symm.trans hnext')
    obtain ⟨front, rest, v, hsplit, hv, hvzero, hentry⟩ :=
      late_entry_stays mid back (inv_exec _ hnext) (by omega) (by simp [hstats]) hrest
    refine hentry (hempty ((before ++ [.message k]) ++ front) rest v ?_ ?_ hvzero)
    · rw [hsplit]
      exact (List.append_assoc _ _ _).symm
    · exact exec_append.mpr ⟨next, hnext, hv⟩
  · intro htimely
    refine ⟨?_, ?_⟩
    · rintro front back u rfl hu hzero
      by_contra hentry
      obtain ⟨vms, hvms⟩ := Option.ne_none_iff_exists'.mp hentry
      obtain ⟨hpos, -⟩ | ⟨-, hlate⟩ := entry_live_or_late hu htimely.prefix vms hvms
      · omega
      · exact htimely front back rfl hlate
    · rintro front back u vms rfl hu hpos hvms
      obtain ⟨-, hlive⟩ | ⟨hzero, -⟩ := entry_live_or_late hu htimely.prefix vms hvms
      · exact hlive
      · omega

-- A step that meets the condition: a stats message comes only while a page wants stats.
def Wanted (s : State Vms) : Act Vms → Prop
  | .message _ => 0 < s.count
  | _ => True

instance (s : State Vms) (act : Act Vms) : Decidable (Wanted s act) :=
  match act with
  | .message _ => inferInstanceAs (Decidable (0 < s.count))
  | .wantStats | .release _ | .connectEvents | .connect _ | .stop _ | .opened _ | .hangUp _
  | .closed _ | .read _ | .publish _ _ => .isTrue trivial

theorem Timely.of_along (h : Along step Wanted start acts) : Timely acts := by
  rintro front back rfl ⟨before, k, mid, u, rfl, hu, hzero⟩
  have hmessage : Along step Wanted u (.message k :: (mid ++ .wantStats :: back)) := by
    have hall : Along step Wanted start
        (before ++ (.message k :: (mid ++ .wantStats :: back))) := by
      simpa using h
    exact hall.append_right hu
  have hpos : 0 < u.count := hmessage.1
  omega

end Runs

-- The last page goes after the message, and the next one finds nothing.
def promptMessage : List (Act Nat) :=
  [.connectEvents, .connect 0, .opened 0, .wantStats, .read 0, .publish 0 7, .message 0,
    .release 0, .read 0, .wantStats]

theorem old_stats_never_live_prompt :
    ∃ s, exec step start promptMessage = some s ∧ s.count = 1 ∧
      ∀ front back u, promptMessage = front ++ .wantStats :: back →
        exec step start front = some u → u.count = 0 → u.stats = none := by
  obtain ⟨s, hrun⟩ := Option.isSome_iff_exists.mp
    (by decide : (exec step start promptMessage).isSome)
  have hcount : (exec step start promptMessage).map State.count = some 1 := by decide
  refine ⟨s, hrun, by simpa [hrun] using hcount, ?_⟩
  exact ((old_stats_never_live hrun).mpr (Timely.of_along (by decide))).1

-- The last page goes while the message is on its way.
def lateMessage : List (Act Nat) :=
  [.connectEvents, .connect 0, .opened 0, .wantStats, .read 0, .publish 0 7, .release 0,
    .message 0, .wantStats]

theorem late_message_shows :
    ∃ s u, exec step start lateMessage = some s ∧ lateMessage.getLast? = some .wantStats ∧
      exec step start lateMessage.dropLast = some u ∧ u.count = 0 ∧ u.stats = some 7 ∧
      ¬ (∀ front back u, lateMessage = front ++ .wantStats :: back →
        exec step start front = some u → u.count = 0 → u.stats = none) := by
  obtain ⟨s, hrun⟩ := Option.isSome_iff_exists.mp
    (by decide : (exec step start lateMessage).isSome)
  obtain ⟨u, hu⟩ := Option.isSome_iff_exists.mp
    (by decide : (exec step start lateMessage.dropLast).isSome)
  have hcount : (exec step start lateMessage.dropLast).map State.count = some 0 := by decide
  have hstats : (exec step start lateMessage.dropLast).map State.stats = some (some 7) := by decide
  rw [hu] at hcount hstats
  have hzero : u.count = 0 := by simpa using hcount
  have hentry : u.stats = some 7 := by simpa using hstats
  refine ⟨s, u, hrun, rfl, hu, hzero, hentry, ?_⟩
  intro hempty
  have hnone := hempty lateMessage.dropLast [] u rfl hu hzero
  rw [hentry] at hnone
  cases hnone

end Lodger.Stats.Interest
