import Lodger.Lib.Monitor
import Lodger.Server.Router

namespace Lodger.Server

open Lodger.Lib Lodger.Db Lodger.Http Lodger.Libvirt Lodger.Audit
open Lodger.Cache (Inventory Vm Pool Net)
open ClientIp (header)
open Jobs (Op Power)

-- What the answer and the audit row must say about a libvirt call. This is the table of the
-- API's documentation: the code has it spread over the handlers.
section Rows

inductive Family where
  | vm
  | pool
  | network
  | volume
deriving DecidableEq, Repr

def Family.kind : Family → String
  | .vm => "vm"
  | .pool => "pool"
  | .network => "network"
  | .volume => "volume"

def Family.missing : Family → String
  | .vm => "no_such_vm"
  | .pool => "no_such_pool"
  | .network => "no_such_network"
  | .volume => "no_such_volume"

def opFamily : Op → Family
  | .power .. | .setAutostart .. | .delete .. => .vm
  | .setPoolActive .. | .setPoolAutostart .. | .createPool .. | .removePool .. => .pool
  | .setNetworkActive .. | .setNetworkAutostart .. | .createNetwork .. | .deleteNetwork _ =>
      .network
  | .createVolume .. | .deleteVolume .. => .volume

def family : Call → Family
  | .job op | .create op => opFamily op
  | .poolXml _ => .pool
  | _ => .vm

def autostartAction (on : Bool) : String := if on then "autostart-on" else "autostart-off"
def filesAction (deleteFiles : Bool) : String :=
  if deleteFiles then "delete-files" else "keep-files"

def eventOf : Call → String
  | .job (.power ..) | .deleteVm .. => LIFECYCLE
  | .job (.setAutostart ..) => EDITED
  | .job (.setPoolActive _ active) => if active then "pool.started" else "pool.stopped"
  | .job (.setPoolAutostart ..) => "pool.edited"
  | .job (.removePool ..) | .poolXml _ => "pool.deleted"
  | .job (.setNetworkActive _ active) => if active then "network.started" else "network.stopped"
  | .job (.setNetworkAutostart ..) => "network.edited"
  | .job (.deleteNetwork _) => "network.deleted"
  | .job (.createVolume ..) => "volume.created"
  | .job (.deleteVolume ..) => "volume.deleted"
  | .create (.createPool ..) => "pool.created"
  | .create (.createNetwork ..) => "network.created"
  | _ => ""

section Texts

variable [Formats] (req : Request) (inv : Option Inventory)

def actionOf : Call → Option String
  | .job (.power _ action) => some (Power.name action)
  | .deleteVm .. => some "delete"
  | .job (.setAutostart _ on) | .job (.setPoolAutostart _ on) | .job (.setNetworkAutostart _ on) =>
      some (autostartAction on)
  | .job (.removePool _ deleteFiles _) => some (filesAction deleteFiles)
  | .poolXml _ => (bodyOrDefault Formats.removePool {} req.body).toOption.map fun request =>
      filesAction request.deleteFiles
  | _ => none

-- An object has the name that the inventory has, and a new one that of the body.
def targetOf : Call → Option String
  | .job (.power id _) | .job (.setAutostart id _) | .deleteVm id _ => do
      let vm ← inv.bind (·.vms.lookup id)
      some vm.name
  | .job (.setPoolActive id _) | .job (.setPoolAutostart id _) | .job (.removePool id _ _)
  | .poolXml id => do
      let pool ← inv.bind (·.pools.lookup id)
      some pool.name
  | .job (.setNetworkActive id _) | .job (.setNetworkAutostart id _)
  | .job (.deleteNetwork id) => do
      let net ← inv.bind (·.networks.lookup id)
      some net.name
  | .job (.createVolume id _) => do
      let pool ← inv.bind (·.pools.lookup id)
      let request ← (Formats.createVolume req.body).toOption
      some (pool.name ++ "/" ++ request.name)
  | .job (.deleteVolume id name) => do
      let pool ← inv.bind (·.pools.lookup id)
      some (pool.name ++ "/" ++ name)
  | .create (.createPool ..) => do
      let request ← (Formats.createPool req.body).toOption
      some request.name
  | .create (.createNetwork ..) => do
      let request ← (Formats.createNetwork req.body).toOption
      some request.name
  | _ => none

end Texts

-- A create has one reason for every failure, and a VM is never in use.
def failureOf (call : Call) (e : CallError) : String × StatusCode :=
  match call with
  | .create _ => ("libvirt_error", .badGateway)
  | _ =>
      if e.isNotFound then ((family call).missing, .notFound)
      else if family call ≠ .vm ∧ e.isInUse then ("in_use", .conflict)
      else if e.isInvalidOperation then ("wrong_state", .conflict)
      else ("libvirt_error", .badGateway)

def failedStatus : Call → CallError → StatusCode
  | .poolXmls, _ | .networkXmls, _ => .badGateway
  | .volumeNames _, e | .volumes _, e =>
      if e.isNotFound then .notFound
      else if e.isInvalidOperation then .conflict
      else .badGateway
  | .openVnc _, e => if e.isNotFound then .notFound else .conflict
  | call, e => (failureOf call e).2

-- The answers when a call that did well is the last one.
def successes : Call → List StatusCode
  | .create _ | .job (.createVolume ..) => [.created]
  | .deleteVm .. | .volumes _ => [.ok]
  -- After its list a create goes on, unless the list refuses the body.
  | .poolXmls | .networkXmls => [.conflict, .unprocessableEntity]
  | .volumeNames _ => [.conflict]
  -- The removal of the pool always follows.
  | .poolXml _ => []
  -- The display is open, but the socket to it may not get ready.
  | .openVnc _ => [.switchingProtocols, .internalServerError]
  | _ => [.noContent]

-- A libvirt call that came back, with its error if it failed.
structure Asked where
  call : Call
  failure : Option CallError

-- A pool's XML is read for its removal, and only a failed read has a row.
def Asked.hasRow : Asked → Bool
  | ⟨.job _, _⟩ | ⟨.create _, _⟩ | ⟨.deleteVm .., _⟩ => true
  | ⟨.poolXml _, failure⟩ => failure.isSome
  | _ => false

def Asked.statuses (d : Asked) : List StatusCode :=
  match d.failure with
  | none => successes d.call
  | some e => [failedStatus d.call e]

structure Describes [Formats] (req : Request) (a : Actor) (inv : Option Inventory) (d : Asked)
    (entry : Entry) : Prop where
  event : entry.event = eventOf d.call
  account : entry.account = some a.account
  clientIp : entry.clientIp = some a.ip
  kind : entry.targetKind = some (family d.call).kind
  target : ∃ name, targetOf req inv d.call = some name ∧ entry.target = some name
  result : entry.result = if d.failure.isNone then "ok" else "failed"
  reason : entry.detail.reason = d.failure.map fun e => (failureOf d.call e).1
  action : entry.detail.action = actionOf req d.call
  web : entry.detail.via = none ∧ entry.detail.sudoUser = none

end Rows

variable [Formats]

-- A call that loses something only goes out when the body has the name of its object.
def Confirmed (req : Request) (inv : Option Inventory) : Call → Prop
  | .job (.power id .forceOff) => ∃ i vm, inv = some i ∧ i.vms.lookup id = some vm ∧
      (bodyOrDefault Formats.confirm {} req.body).map (·.confirm) = .ok (some vm.name)
  | .deleteVm id _ => ∃ i vm, inv = some i ∧ i.vms.lookup id = some vm ∧
      (bodyOrDefault Formats.deleteRequest {} req.body).map (·.confirm) = .ok (some vm.name)
  | .job (.removePool id _ _) => ∃ i pool, inv = some i ∧ i.pools.lookup id = some pool ∧
      (bodyOrDefault Formats.removePool {} req.body).map (·.confirm) = .ok (some pool.name)
  | .job (.deleteNetwork id) => ∃ i net, inv = some i ∧ i.networks.lookup id = some net ∧
      (bodyOrDefault Formats.removeNetwork {} req.body).map (·.confirm) = .ok (some net.name)
  -- No handler makes these: a VM goes with `deleteVm`, and what is new comes with `create`.
  | .job (.delete ..) | .job (.createPool ..) | .job (.createNetwork ..) => False
  | .create (.createPool ..) | .create (.createNetwork ..) => True
  | .create _ => False
  | _ => True

-- What a reader of the log of one request knows: the session that the guard found, the last
-- inventory, the last libvirt call, whether its row is still to come, and the session that a
-- ticket was redeemed for.
structure Watch where
  session : Option Session := none
  inventory : Option Inventory := none
  last : Option Asked := none
  due : Bool := false
  redeemed : Option Key := none

variable (state : AppState) (req : Request)

-- The request changes something and comes from a Lodger page.
structure OwnPage : Prop where
  method : isSafe req.method = false
  page : fromLodger req.headers state.publicOrigin = true

-- It also has the token of the session that the guard found.
structure Guarded (session : Option Session) : Prop extends OwnPage state req where
  csrf : ∃ s ∈ session, csrfMatches req.headers s = true

-- No libvirt call has failed.
def Watch.Unfailed (w : Watch) : Prop := ∀ d ∈ w.last, d.failure = none

-- The libvirt calls that change something.
structure Watch.MayCall (w : Watch) (call : Call) : Prop where
  guarded : Guarded state req w.session
  unfailed : w.Unfailed
  confirmed : Confirmed req w.inventory call

def ownKey (key : Key) : Prop := sessionKey Formats.sha256 req.headers = some key

def Watch.mayHandle (w : Watch) : Handler → Prop
  | .health | .setupStatus => True
  | .setupClaim | .login => OwnPage state req
  | .read _ | .currentSession => w.session.isSome
  | .createAccount | .deleteAccount | .changePassword => Guarded state req w.session

-- The calls that are permitted while no row is due.
def Watch.mayAsk (w : Watch) : Call → Prop
  | .session key => ownKey req key
  | .job op => w.MayCall state req (.job op)
  | .create op => w.MayCall state req (.create op)
  | .deleteVm id removeVolumes => w.MayCall state req (.deleteVm id removeVolumes)
  | .poolXml id => w.MayCall state req (.poolXml id)
  | .poolXmls | .networkXmls | .volumeNames _ | .volumes _ => w.session.isSome ∧ w.Unfailed
  | .audit _ => False
  | .deleteSession key => Guarded state req w.session ∧ ownKey req key
  | .issueTicket key origin => Guarded state req w.session ∧ ownKey req key ∧
      origin = header req.headers "origin"
  | .redeem _ key origin => w.session.isSome ∧ ownKey req key ∧
      origin = header req.headers "origin"
  | .openVnc _ => w.redeemed.isSome ∧ w.Unfailed
  | .handler h => w.mayHandle state req h
  | .inventory | .connected | .hostBridges => True

-- A row that is due comes next.
def Watch.ok (w : Watch) (call : Call) : Prop :=
  if w.due then ∃ entry s d, call = .audit entry ∧ w.session = some s ∧ w.last = some d ∧
    Describes req (actor state req s) w.inventory d entry
  else w.mayAsk state req call

def failureIn {α : Type} : Except CallError α → Option CallError
  | .ok _ => none
  | .error e => some e

-- The replies of libvirt.
def askedOf : (c : Call) → Except Stop c.Result → Option Asked
  | .poolXmls, .ok reply => some ⟨.poolXmls, failureIn reply⟩
  | .poolXml id, .ok reply => some ⟨.poolXml id, failureIn reply⟩
  | .networkXmls, .ok reply => some ⟨.networkXmls, failureIn reply⟩
  | .volumeNames pool, .ok reply => some ⟨.volumeNames pool, failureIn reply⟩
  | .volumes pool, .ok reply => some ⟨.volumes pool, failureIn reply⟩
  | .job op, .ok reply => some ⟨.job op, failureIn reply⟩
  | .create op, .ok reply => some ⟨.create op, failureIn reply⟩
  | .deleteVm id removeVolumes, .ok reply => some ⟨.deleteVm id removeVolumes, failureIn reply⟩
  | .openVnc vm, .ok reply => some ⟨.openVnc vm, failureIn reply⟩
  | _, _ => none

-- A reply that a row must follow.
def dueOf (c : Call) (r : Except Stop c.Result) : Option Asked := (askedOf c r).filter (·.hasRow)

def Watch.note (w : Watch) : (c : Call) → Except Stop c.Result → Watch
  | .session _, .ok (.ok found) => { w with session := found }
  | .inventory, .ok inv => { w with inventory := some inv }
  | .audit _, _ => { w with due := false }
  | .redeem _ key _, .ok redeemed => { w with redeemed := if redeemed then some key else none }
  | _, _ => w

def Watch.called (w : Watch) (d : Asked) : Watch := { w with last := some d, due := d.hasRow }

def Watch.after (w : Watch) (c : Call) (r : Except Stop c.Result) : Watch :=
  match askedOf c r with
  | some d => w.called d
  | none => w.note c r

-- The code of this crate never panics here, so no call replies with a panic.
def watch : Monitor Call Call.Result Stop Watch where
  may _ r := ∀ message, r ≠ .error (.panic message)
  ok := Watch.ok state req
  after := Watch.after

-- At the end no row is missing, the answer tells of the last libvirt call, a socket is that of
-- the ticket, and the code did not panic.
def Ends (w : Watch) : Except Stop Response → Prop
  | .ok response => w.due = false ∧ (∀ d ∈ w.last, response.status ∈ d.statuses) ∧
      ∀ key ∈ response.body.socket, w.redeemed = some key
  | .error e => e = .dropped

end Lodger.Server
