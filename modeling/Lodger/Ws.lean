import Lodger.Supervisor

namespace Lodger.Ws

open Lodger.Lib Lodger.Libvirt Lodger.Supervisor

-- The messages to the browser, except the live stats, which are no part of the
-- inventory.
inductive Update where
  | vm (id : Uuid)
  | pool (id : Uuid)
  | network (id : Uuid)
  | resync
  | connection (connection : ConnState)
deriving DecidableEq, Repr

def updateFor : Recv Event → Option Update
  | .ok (.domain id _) => some (.vm id)
  | .ok (.pool id _) => some (.pool id)
  | .ok (.network id _) => some (.network id)
  | .ok (.closed _) => none
  | .lagged _ => some .resync

-- The message tells the browser to fetch the object again.
def Update.covers (o : Obj) : Update → Bool
  | .vm id => o = ⟨.vm, id⟩
  | .pool id => o = ⟨.pool, id⟩
  | .network id => o = ⟨.network, id⟩
  | .resync => true
  | .connection _ => false

-- Where `events` and then `forward` stand. From `answered` on the browser may
-- see the socket open.
inductive Pc where
  | requested
  | answered
  | subscribed
  | watching
  | running
deriving DecidableEq, Repr

def Pc.hasReceiver : Pc → Bool
  | .requested | .answered => false
  | _ => true

-- The supervisor with one client. `reloads` is the count that the client's
-- receiver has seen. `fetched` is the objects that the browser has fetched since
-- `onopen`, and `stale` those whose entry changed after the read that answered
-- the last fetch, without a message since; no code looks at these two.
structure State where
  sup : Supervisor.State
  pc : Pc := .requested
  events : Receiver Event := {}
  reloads : Nat := 0
  connChanged : Bool := false
  socket : List Update := []
  isOpen : Bool := false
  fetched : List Obj := []
  stale : List Obj := []

inductive Action where
  | sup (a : Supervisor.Action)
  -- the server's side of the socket
  | answer
  | subscribe
  | watch
  | mark
  | event
  | reload
  | connection
  -- the browser
  | onopen
  | fetch (o : Obj)
  | message

-- The client's receiver after a step of the supervisor, which passes events on
-- in `forward`.
def State.passOn (s : State) (a : Supervisor.Action) : Receiver Event :=
  match a, s.sup.pc with
  | .forward, .forwarding e => if s.pc.hasReceiver then s.events.send HUB_CAPACITY e else s.events
  | _, _ => s.events

variable [Xml.Xmltree] [Libvirtd]

def step (s : State) : Action → Option State
  | .sup a => (Supervisor.step s.sup a).map fun sup => { s with
      sup
      events := s.passOn a
      connChanged := s.connChanged || sup.conn ≠ s.sup.conn
      stale := s.stale ++
        s.fetched.filter fun o => sup.inventory.entry o ≠ s.sup.inventory.entry o }
  | .answer =>
      match s.pc with
      | .requested => some { s with pc := .answered }
      | _ => none
  | .subscribe =>
      match s.pc with
      | .answered => some { s with events := {}, pc := .subscribed }
      | _ => none
  | .watch =>
      match s.pc with
      | .subscribed => some { s with
          reloads := s.sup.reloads, connChanged := false, pc := .watching }
      | _ => none
  | .mark =>
      match s.pc with
      | .watching => some { s with reloads := s.sup.reloads, connChanged := false, pc := .running }
      | _ => none
  -- The branches of the `select!` that send a message.
  | .event =>
      match s.pc, s.events.recv with
      | .running, some (received, events) => some { s with
          events, socket := s.socket ++ (updateFor received).toList }
      | _, _ => none
  | .reload =>
      if s.pc = .running ∧ s.reloads ≠ s.sup.reloads then
        some { s with reloads := s.sup.reloads, socket := s.socket ++ [.resync] }
      else none
  | .connection =>
      if s.pc = .running ∧ s.connChanged then
        some { s with connChanged := false, socket := s.socket ++ [.connection s.sup.conn] }
      else none
  | .onopen => if s.pc ≠ .requested ∧ ¬s.isOpen then some { s with isOpen := true } else none
  | .fetch o =>
      if s.isOpen then
        some { s with fetched := s.fetched.insert o, stale := s.stale.filter (· ≠ o) }
      else none
  | .message =>
      match s.isOpen, s.socket with
      | true, m :: socket => some { s with
          socket, stale := s.stale.filter fun o => ¬m.covers o }
      | _, _ => none

-- The supervisor has changed the entry and is about to say so.
def announces (o : Obj) : Supervisor.Pc → Bool
  | .loaded _ => true
  | .forwarding e => e.obj = some o
  | _ => false

-- A message for the object is in the socket, or will be sent without a further
-- step of the supervisor.
def Coming (s : State) (o : Obj) : Prop :=
  (∃ m ∈ s.socket, m.covers o = true) ∨ s.events.Due (fun e => e.obj = some o) ∨
    (s.pc = .running ∧ s.reloads ≠ s.sup.reloads)

-- Every change that the browser has not fetched is followed by a message.
def Followed (s : State) : Prop := ∀ o ∈ s.stale, Coming s o ∨ announces o s.sup.pc = true

-- When the supervisor announces a change that the browser has not fetched, the
-- client's receiver is there: the one for events has been subscribed, and the
-- one for reloads has been marked.
def Heard (s : State) : Action → Prop
  | .sup .forward => s.pc.hasReceiver = true ∨
      ∀ o ∈ s.stale, announces o s.sup.pc = true → Coming s o
  | .sup .bump => s.pc = .running ∨ ∀ o ∈ s.stale, Coming s o
  | _ => True

end Lodger.Ws
