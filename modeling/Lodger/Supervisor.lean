import Lodger.Cache.View
import Lodger.Lib.Broadcast
import Lodger.Lib.Machine

namespace Lodger.Supervisor

open Lodger.Lib Lodger.Libvirt Lodger.Cache

def HUB_CAPACITY : Nat := 1024

inductive ConnState where
  | connecting
  | connected
  | disconnected (error : String)
deriving DecidableEq, Repr

def closeReason (code : Int) : String :=
  let why := match code with
    | 0 => "an error"
    | 1 => "the end of the stream"
    | 2 => "a keepalive timeout"
    | 3 => "a request from the client"
    | _ => "an unknown reason"
  "libvirt closed the connection because of " ++ why

-- A libvirt call of a read and its reply.
abbrev Asked := (q : Query) × Except Error q.Result

-- Where the supervisor task stands. `asked` is the calls that the read in
-- progress has made so far; no code looks at it.
inductive Pc where
  | waiting
  | opening
  | opened
  | loading (first : Bool) (p : Read Inventory) (asked : List Asked)
  | loaded (first : Bool)
  | counted
  | published
  | idle
  | refreshing (e : Event) (p : Read (Option Refresh)) (asked : List Asked)
  | forwarding (e : Event)

-- The receiver exists from the subscribe to the end of the session.
def Pc.subscribed : Pc → Bool
  | .waiting | .opening | .opened => false
  | _ => true

-- What one of Lodger's own calls changes without an event of libvirt: the
-- autostart flag of an object, or the volumes of a pool and with them its
-- sizes.
inductive Change where
  | autostart (on : Bool)
  | volumes (scan : Scan)
deriving DecidableEq, Repr

def Change.apply : Change → Thing → Thing
  | .autostart on, .domain d => .domain { d with autostart := on }
  | .autostart on, .pool p => .pool { p with autostart := on }
  | .autostart on, .network n => .network { n with autostart := on }
  | .volumes scan, .pool p => .pool { p with scan }
  | .volumes _, t => t

def Change.fits (o : Obj) : Change → Bool
  | .autostart _ => true
  | .volumes _ => o.kind = .pool

-- The event that Lodger sends itself after the change.
def Change.event (o : Obj) : Change → Event
  | .autostart _ =>
      match o.kind with
      | .vm => .domain o.id .autostart
      | .pool => .pool o.id POOL_AUTOSTART
      | .network => .network o.id NETWORK_AUTOSTART
  | .volumes _ => .pool o.id POOL_VOLUMES

inductive Progress where
  | taken
  | changed
  | finished
  | failed
deriving DecidableEq, Repr

-- A call of `set_autostart`, `set_pool_autostart`, `set_network_autostart`,
-- `create_volume` or `delete_volume`. `gen` tells which `Virt` it took from
-- `Host::virt`, and so whose job connection and hub it uses.
structure OwnCall where
  gen : Nat
  obj : Obj
  change : Change
  progress : Progress
deriving DecidableEq, Repr

-- `gen` counts the `Virt`s opened so far. `owed` is the objects for which
-- libvirt still has to run a callback on the read connection of the last one,
-- and `closing` that it still has to run the close callback.
structure State where
  world : World
  gen : Nat := 0
  lost : Bool := false
  owed : List Obj := []
  closing : Bool := false
  rx : Receiver Event := {}
  inventory : Inventory := {}
  virt : Option Nat := none
  conn : ConnState := .connecting
  reloads : Nat := 0
  pc : Pc := .opening
  calls : List OwnCall := []

inductive Action where
  -- libvirt, with whatever other clients do to it
  | change (o : Obj) (t : Option Thing)
  | deliver (e : Event) (settles : Bool)
  | lose
  | deliverClosed (reason : Int)
  -- the supervisor task
  | open
  | subscribe
  | call
  | finish
  | fail (error : String)
  | bump
  | publish
  | connect
  | recv
  | forward
  | retry
  -- the callers of `Host::virt`
  | take (o : Obj) (change : Change)
  | act (i : Nat)
  | send (i : Nat)
  | giveUp (i : Nat)

-- Every call on a lost connection fails.
def lostError : Error := .libvirt ⟨.other, "client socket is closed"⟩

-- A send to the hub of the last `Virt`.
def State.sendHub (s : State) (e : Event) : State :=
  if s.pc.subscribed then { s with rx := s.rx.send HUB_CAPACITY e } else s

-- The end of a session in `supervise`. No await lies between the end of
-- `session` and the new state.
def State.disconnect (s : State) (error : String) : State :=
  { s with virt := none, conn := .disconnected error, rx := {}, pc := .waiting }

variable [Xml.Xmltree] [Libvirtd]

-- The next libvirt call of the read in progress.
def State.reply (s : State) (q : Query) : Except Error q.Result :=
  if s.lost then .error lostError else s.world.query q

def step (s : State) : Action → Option State
  | .change o t =>
      if ∀ t' ∈ t, t'.kind = o.kind then
        some { s with world := setThing s.world o t, owed := s.owed ++ [o] }
      else none
  -- A callback for one object. It may come twice, and one callback may stand
  -- for several changes.
  | .deliver e settles =>
      match e.obj with
      | none => none
      | some o => some { s.sendHub e with
          owed := if settles then s.owed.filter (· ≠ o) else s.owed }
  | .lose => if s.lost then none else some { s with lost := true, closing := true }
  | .deliverClosed reason =>
      if s.closing then some { s.sendHub (.closed reason) with closing := false } else none
  | .open =>
      match s.pc with
      | .opening => some { s with
          gen := s.gen + 1, lost := false, owed := [], closing := false, pc := .opened }
      | _ => none
  | .subscribe =>
      match s.pc with
      | .opened => some { s with rx := {}, pc := .loading true load [] }
      | _ => none
  | .call =>
      match s.pc with
      | .loading first (.call q k) asked =>
          some { s with pc := .loading first (k (s.reply q)) (⟨q, s.reply q⟩ :: asked) }
      | .refreshing e (.call q k) asked =>
          some { s with pc := .refreshing e (k (s.reply q)) (⟨q, s.reply q⟩ :: asked) }
      | _ => none
  | .finish =>
      match s.pc with
      | .loading first (.done (.ok inv)) _ => some { s with inventory := inv, pc := .loaded first }
      | .refreshing e (.done (.ok (some f))) _ =>
          some { s with inventory := s.inventory.apply f, pc := .forwarding e }
      | .refreshing e (.done (.ok none)) _ => some { s with pc := .forwarding e }
      | .loading _ (.done (.error error)) _ => some (s.disconnect error.text)
      | .refreshing _ (.done (.error error)) _ => some (s.disconnect error.text)
      | _ => none
  -- The open fails, or a libvirt call fails for another reason.
  | .fail error =>
      match s.pc with
      | .opening | .loading .. | .refreshing .. => some (s.disconnect error)
      | _ => none
  | .bump =>
      match s.pc with
      | .loaded first => some { s with
          reloads := s.reloads + 1, pc := if first then .counted else .idle }
      | _ => none
  | .publish =>
      match s.pc with
      | .counted => some { s with virt := some s.gen, pc := .published }
      | _ => none
  | .connect =>
      match s.pc with
      | .published => some { s with conn := .connected, pc := .idle }
      | _ => none
  | .recv =>
      match s.pc, s.rx.recv with
      | .idle, some (.ok (.closed reason), _) => some (s.disconnect (closeReason reason))
      | .idle, some (.ok e, rx) => some { s with rx, pc := .refreshing e (refresh e) [] }
      | .idle, some (.lagged _, rx) => some { s with rx, pc := .loading false load [] }
      | _, _ => none
  | .forward =>
      match s.pc with
      | .forwarding _ => some { s with pc := .idle }
      | _ => none
  | .retry =>
      match s.pc with
      | .waiting => some { s with conn := .connecting, pc := .opening }
      | _ => none
  | .take o change =>
      if change.fits o then
        s.virt.map fun gen => { s with calls := s.calls ++ [⟨gen, o, change, .taken⟩] }
      else none
  | .act i =>
      match s.calls[i]? with
      | some ⟨gen, o, change, .taken⟩ =>
          (thing s.world o).map fun t => { s with
            world := setThing s.world o (some (change.apply t))
            calls := s.calls.set i ⟨gen, o, change, .changed⟩ }
      | _ => none
  | .send i =>
      match s.calls[i]? with
      | some ⟨gen, o, change, .changed⟩ =>
          let s' := if gen = s.gen then s.sendHub (change.event o) else s
          some { s' with calls := s.calls.set i ⟨gen, o, change, .finished⟩ }
      | _ => none
  | .giveUp i =>
      match s.calls[i]? with
      | some ⟨gen, o, change, .taken⟩ =>
          some { s with calls := s.calls.set i ⟨gen, o, change, .failed⟩ }
      | _ => none

end Lodger.Supervisor
