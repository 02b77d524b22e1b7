import Lodger.Lib.Machine

namespace Lodger.Events

-- The browser's client for /ws/events. Handlers run one at a time, so each
-- handler is one step.

inductive Message where
  | subscribe
  | unsubscribe
deriving DecidableEq, Repr

inductive ReadyState where
  | connecting
  | opened
  | closing
  | closed
deriving DecidableEq, Repr

-- A WebSocket, the connection that made it and what was sent on it.
structure Socket where
  connection : Nat
  state : ReadyState := .connecting
  sent : List Message := []
deriving DecidableEq, Repr

-- What a connection waits for: its URL, its timer, its socket, or nothing.
inductive Loop where
  | asking
  | waiting (ms : Nat)
  | connected
  | ended
deriving DecidableEq, Repr

-- The variables of one `connectEvents` call.
structure Connection where
  attempt : Nat := 0
  stopped : Bool := false
  socket : Option Nat := none
  loop : Loop := .asking
deriving DecidableEq, Repr

-- `statsInterest`, the `released` flag of each `wantStats` call, and the last
-- value that `onOpenChange` got. `send` is the socket that it sends to.
structure State where
  count : Int := 0
  send : Option Nat := none
  released : List Bool := []
  connections : List Connection := []
  sockets : List Socket := []
  lastOpen : Option Bool := none
deriving DecidableEq, Repr

inductive Action where
  | wantStats
  | release (handle : Nat)
  | connectEvents
  | stop (c : Nat)
  | urlReady (c : Nat)
  | urlFailed (c : Nat)
  | timer (c : Nat)
  | opened (k : Nat)
  -- The server starts to close the socket.
  | closing (k : Nat)
  -- The close event.
  | closed (k : Nat)
deriving DecidableEq, Repr

def retryDelay (attempt : Nat) : Nat := min (1000 * 2 ^ attempt) 5000

-- A socket that closes drops what is sent on it.
def Socket.send (message : Message) (socket : Socket) : Socket :=
  if socket.state = .opened then { socket with sent := socket.sent ++ [message] } else socket

-- `close()` does nothing on a socket that closes already.
def Socket.close (socket : Socket) : Socket :=
  match socket.state with
  | .connecting => { socket with state := .closing }
  | .opened => { socket with state := .closing }
  | _ => socket

-- `statsInterest.send?.(message)`.
def State.sendStats (s : State) (message : Message) : State :=
  match s.send with
  | some k => { s with sockets := s.sockets.modify k (Socket.send message) }
  | none => s

def Connection.retry (conn : Connection) : Connection :=
  if conn.stopped then { conn with loop := .ended }
  else { conn with loop := .waiting (retryDelay conn.attempt), attempt := conn.attempt + 1 }

def State.wantStats (s : State) : State :=
  let s := { s with count := s.count + 1, released := s.released ++ [false] }
  if s.count = 1 then s.sendStats .subscribe else s

def State.release (s : State) (handle : Nat) : State :=
  let s := { s with released := s.released.set handle true, count := s.count - 1 }
  if s.count = 0 then s.sendStats .unsubscribe else s

def State.stop (s : State) (c : Nat) (conn : Connection) : State :=
  { s with
    connections := s.connections.set c { conn with stopped := true }
    send := none
    sockets := match conn.socket with
      | some k => s.sockets.modify k Socket.close
      | none => s.sockets }

def State.connect (s : State) (c : Nat) (conn : Connection) : State :=
  if conn.stopped then { s with connections := s.connections.set c { conn with loop := .ended } }
  else { s with
    connections := s.connections.set c
      { conn with socket := some s.sockets.length, loop := .connected }
    sockets := s.sockets ++ [{ connection := c }] }

def State.onopen (s : State) (k : Nat) (socket : Socket) : State :=
  let sent := if 0 < s.count then socket.sent ++ [.subscribe] else socket.sent
  { s with
    connections := s.connections.modify socket.connection fun conn => { conn with attempt := 0 }
    send := some k
    sockets := s.sockets.set k { socket with state := .opened, sent }
    lastOpen := some true }

def State.onclose (s : State) (k : Nat) (socket : Socket) (conn : Connection) : State :=
  { s with
    connections := s.connections.set socket.connection conn.retry
    send := if conn.socket = some k then none else s.send
    sockets := s.sockets.set k { socket with state := .closed }
    lastOpen := some false }

-- A new `connectEvents` comes only after the earlier ones were stopped.
def step (s : State) : Action → Option State
  | .wantStats => some s.wantStats
  | .release handle =>
      match s.released[handle]? with
      | some false => some (s.release handle)
      | some true => some s
      | none => none
  | .connectEvents =>
      if s.connections.all (·.stopped) then
        some { s with connections := s.connections ++ [{}] }
      else none
  | .stop c => s.connections[c]?.map fun conn => s.stop c conn
  | .urlReady c =>
      match s.connections[c]? with
      | some conn => if conn.loop = .asking then some (s.connect c conn) else none
      | none => none
  | .urlFailed c =>
      match s.connections[c]? with
      | some conn =>
          if conn.loop = .asking then
            some { s with connections := s.connections.set c conn.retry, lastOpen := some false }
          else none
      | none => none
  | .timer c =>
      match s.connections[c]? with
      | some ⟨attempt, stopped, socket, .waiting _⟩ =>
          some { s with connections := s.connections.set c ⟨attempt, stopped, socket, .asking⟩ }
      | _ => none
  | .opened k =>
      match s.sockets[k]? with
      | some socket => if socket.state = .connecting then some (s.onopen k socket) else none
      | none => none
  | .closing k =>
      match s.sockets[k]? with
      | some socket =>
          if socket.state = .opened then
            some { s with sockets := s.sockets.set k { socket with state := .closing } }
          else none
      | none => none
  | .closed k =>
      match s.sockets[k]? with
      | some socket =>
          if socket.state = .closed then none
          else s.connections[socket.connection]?.map fun conn => s.onclose k socket conn
      | none => none

-- Socket `k` is open and belongs to the newest connection, which is not
-- stopped.
def Live (s : State) (k : Nat) (socket : Socket) : Prop :=
  s.sockets[k]? = some socket ∧ socket.state = .opened ∧
    socket.connection + 1 = s.connections.length ∧
    ∃ conn, s.connections[socket.connection]? = some conn ∧ conn.stopped = false

-- The subscription follows the pages.
def Follows (s : State) : Prop :=
  ∀ k socket, Live s k socket →
    s.send = some k ∧ (socket.sent.getLast? = some .subscribe ↔ 0 < s.count) ∧
      s.lastOpen = some true

-- Whether some socket is live, and whether a connection is stopped.
def State.online (s : State) : Bool :=
  s.sockets.any fun socket => socket.state = .opened &&
    socket.connection + 1 = s.connections.length &&
    s.connections[socket.connection]?.any (!·.stopped)

def State.stopped (s : State) (c : Nat) : Bool := s.connections[c]?.any (·.stopped)

-- No handler of a stopped connection, and no second call of its stop
-- function, runs while the newest connection's socket is open.
def Timely (s : State) : Action → Prop
  | .stop c => s.stopped c = true → s.online = false
  | .urlFailed c => s.stopped c = true → s.online = false
  | .closed k => (s.sockets[k]?.any fun socket => s.stopped socket.connection) = true →
      s.online = false
  | _ => True

instance (s : State) : (a : Action) → Decidable (Timely s a)
  | .stop _ => inferInstanceAs (Decidable (_ → _))
  | .urlFailed _ => inferInstanceAs (Decidable (_ → _))
  | .closed _ => inferInstanceAs (Decidable (_ → _))
  | .wantStats => inferInstanceAs (Decidable True)
  | .release _ => inferInstanceAs (Decidable True)
  | .connectEvents => inferInstanceAs (Decidable True)
  | .urlReady _ => inferInstanceAs (Decidable True)
  | .timer _ => inferInstanceAs (Decidable True)
  | .opened _ => inferInstanceAs (Decidable True)
  | .closing _ => inferInstanceAs (Decidable True)

end Lodger.Events
