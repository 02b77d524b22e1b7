import Lodger.Server

namespace Lodger.Server

open Lodger.Lib Lodger.Db Lodger.Http Lodger.Libvirt Lodger.Audit
open Lodger.Cache (Inventory Vm Pool Net)
open ClientIp (clientIp)
open Creates (CreatePool CreateNetwork Rows newPool newNetwork NFS_MOUNT_ROOT)
open Jobs (Op Power)
open Validate Xml

section Shared

def found {α : Type} (message : String) (next : α → M Response) : Option α → M Response
  | some a => next a
  | none => return error .notFound message

def withVm (id : Uuid) (next : Vm → M Response) : M Response := do
  let inv : Inventory ← ask .inventory
  found "no such VM" next (inv.vms.lookup id)

def withPool (id : Uuid) (next : Pool → M Response) : M Response := do
  let inv : Inventory ← ask .inventory
  found "no such pool" next (inv.pools.lookup id)

def withNetwork (id : Uuid) (next : Net → M Response) : M Response := do
  let inv : Inventory ← ask .inventory
  found "no such network" next (inv.networks.lookup id)

-- `host.virt()`.
def withVirt (next : M Response) : M Response := do
  let connected : Bool ← ask .connected
  if connected then next else return noLibvirt

def withBody {α : Type} (body : Except String α) (next : α → M Response) : M Response :=
  match body with
  | .ok a => next a
  | .error e => return badJson e

def confirmed (confirm : Option String) (name message : String) (next : M Response) : M Response :=
  if confirm = some name then next else return error .unprocessableEntity message

-- Who acts, and from where.
structure Actor where
  account : String
  ip : IpAddr
deriving DecidableEq

def actor (state : AppState) (req : Request) (session : Session) : Actor :=
  ⟨session.username, clientIp req.peer req.headers state.trustedProxies⟩

def Actor.row (a : Actor) (entry : Entry) : Entry := entry.by a.account a.ip

-- What a pool or network call answers and audits when libvirt has no such object.
structure NotFound where
  reason : String
  message : String

-- `success` is the first answer, and the audit row comes before it.
def auditedAnswer (notFound : NotFound) (row : Entry → Entry) (event : String)
    (action : Option String) : Except CallError Unit → M (Option Response)
  | .ok () => do
      let () ← ask (.audit (row ((Entry.ok event).acting action)))
      return none
  | .error e => do
      let (reason, code) :=
        if e.isNotFound then (notFound.reason, StatusCode.notFound)
        else if e.isInUse then ("in_use", .conflict)
        else if e.isInvalidOperation then ("wrong_state", .conflict)
        else ("libvirt_error", .badGateway)
      let () ← ask (.audit (row ((Entry.failed event reason).acting action)))
      return some (if reason = notFound.reason then error code notFound.message
        else errorAnswer code e)

def audited (notFound : NotFound) (row : Entry → Entry) (event : String) (action : Option String)
    (call : M (Except CallError Unit)) : M (Option Response) := do
  let reply : Except CallError Unit ← call
  auditedAnswer notFound row event action reply

-- The answer to a call of `audited` that nothing follows.
def finish (success : Response) (refusal : Option Response) : Response := refusal.getD success

-- The parts of `PATCH` of a pool and of a network.
def changeActive (notFound : NotFound) (row : Entry → Entry) (started stopped : String)
    (setActive : Bool → Op) : Option Bool → M (Option Response)
  | some active => audited notFound row (if active then started else stopped) none
      (ask (.job (setActive active)))
  | none => return none

def changeAutostart (notFound : NotFound) (row : Entry → Entry) (edited : String)
    (setAutostart : Bool → Op) : Option Bool → M (Option Response)
  | some on => audited notFound row edited (some (if on then "autostart-on" else "autostart-off"))
      (ask (.job (setAutostart on)))
  | none => return none

-- A part that answers ends the request.
def bothParts (first second : M (Option Response)) : M Response := do
  let refusal : Option Response ← first
  match refusal with
  | some response => return response
  | none => do
      let refusal : Option Response ← second
      return finish { status := .noContent } refusal

def changes (change : Change) (next : M Response) : M Response :=
  if change.active = none ∧ change.autostart = none then
    return error .badRequest "the body needs \"active\" or \"autostart\""
  else next

end Shared

variable [Formats]

section Actions

def LIFECYCLE : String := "vm.lifecycle"
def EDITED : String := "vm.edited"

def Power.parse : String → Option Power
  | "start" => some .start
  | "shutdown" => some .shutdown
  | "force-off" => some .forceOff
  | "reboot" => some .reboot
  | "pause" => some .pause
  | "resume" => some .resume
  | _ => none

def Power.name : Power → String
  | .start => "start"
  | .shutdown => "shutdown"
  | .forceOff => "force-off"
  | .reboot => "reboot"
  | .pause => "pause"
  | .resume => "resume"

def failure (row : Entry → Entry) (event : String) (e : CallError) : M Response := do
  let (reason, code) :=
    if e.isNotFound then ("no_such_vm", StatusCode.notFound)
    else if e.isInvalidOperation then ("wrong_state", .conflict)
    else ("libvirt_error", .badGateway)
  let () ← ask (.audit (row (.failed event reason)))
  return if reason = "no_such_vm" then error code "no such VM" else errorAnswer code e

def vmAnswer {α : Type} (row : Entry → Entry) (event : String) (success : α → Response) :
    Except CallError α → M Response
  | .ok a => do
      let () ← ask (.audit (row (.ok event)))
      return success a
  | .error e => failure row event e

def Actor.vmRow (a : Actor) (vm : Vm) (action : String) (entry : Entry) : Entry :=
  ((a.row entry).targetVm vm.name).acting (some action)

def mayPower (action : Power) (confirm : Confirm) (vm : Vm) (next : M Response) : M Response :=
  if action = .forceOff then
    confirmed confirm.confirm vm.name "type the VM's name to force it off" next
  else next

def Actions.run (state : AppState) (req : Request) (session : Session) (id : Uuid)
    (action : String) : M Response :=
  match Power.parse action with
  | none => return error .notFound "no such action"
  | some action =>
      withBody (bodyOrDefault Formats.confirm {} req.body) fun confirm =>
      withVm id fun vm =>
      mayPower action confirm vm <|
      withVirt do
        let reply : Except CallError Unit ← ask (.job (.power id action))
        vmAnswer ((actor state req session).vmRow vm (Power.name action)) LIFECYCLE
          (fun _ => { status := .noContent }) reply

def Actions.delete (state : AppState) (req : Request) (session : Session) (id : Uuid) :
    M Response :=
  withBody (bodyOrDefault Formats.deleteRequest {} req.body) fun request =>
  withVm id fun vm =>
  confirmed request.confirm vm.name "type the VM's name to delete it" <|
  withVirt do
    let reply : Except CallError Delete.Removal ← ask (.deleteVm id request.removeVolumes)
    vmAnswer ((actor state req session).vmRow vm "delete") LIFECYCLE
      (fun report => { status := .ok, body := .removal report }) reply

def Actions.update (state : AppState) (req : Request) (session : Session) (id : Uuid) :
    M Response :=
  withBody (Formats.settings req.body) fun settings =>
  withVm id fun vm =>
  withVirt do
    let reply : Except CallError Unit ← ask (.job (.setAutostart id settings.autostart))
    vmAnswer ((actor state req session).vmRow vm
      (if settings.autostart then "autostart-on" else "autostart-off")) EDITED
      (fun _ => { status := .noContent }) reply

end Actions

def createAnswer (row : Entry → Entry) (event : String) : Except CallError Uuid → M Response
  | .ok id => do
      let () ← ask (.audit (row (.ok event)))
      return { status := .created, body := .uuid id }
  | .error e => do
      let () ← ask (.audit (row (.failed event "libvirt_error")))
      return errorAnswer .badGateway e

def withReply {α : Type} (reply : Except CallError α) (refuse : CallError → Response)
    (next : α → M Response) : M Response :=
  match reply with
  | .ok a => next a
  | .error e => return refuse e

section Pools

variable [Xmltree] [Emitter]

def Pools.NOT_FOUND : NotFound := ⟨"no_such_pool", "no such pool"⟩

-- Whether the pool is an NFS pool that mounts on its own folder in Lodger's mount root.
def inLodgerMountRoot (xml : PoolXml) (name : String) : Bool :=
  xml.poolType = some "netfs" && xml.targetPath = some (NFS_MOUNT_ROOT ++ "/" ++ name)

def Actor.poolRow (a : Actor) (name : String) (entry : Entry) : Entry :=
  (a.row entry).targetPool name

def Pools.create (state : AppState) (req : Request) (session : Session) : M Response :=
  withBody (Formats.createPool req.body) fun request =>
  withVirt do
    let existing : Except CallError Rows ← ask .poolXmls
    withReply existing (errorAnswer .badGateway) fun existing =>
    match newPool request existing with
    | .error e => return refused e
    | .ok pool => do
        let reply : Except CallError Uuid ← ask (.create (.createPool pool.toXml request.autostart))
        createAnswer ((actor state req session).poolRow pool.name.asStr) "pool.created" reply

def Pools.change (state : AppState) (req : Request) (session : Session) (id : Uuid) : M Response :=
  withBody (Formats.change req.body) fun change =>
  changes change <|
  withPool id fun pool =>
  withVirt <|
  let row := (actor state req session).poolRow pool.name
  bothParts
    (changeActive Pools.NOT_FOUND row "pool.started" "pool.stopped" (.setPoolActive id)
      change.active)
    (changeAutostart Pools.NOT_FOUND row "pool.edited" (.setPoolAutostart id) change.autostart)

-- An NFS pool in Lodger's own mount folder would leave that empty folder behind.
def removal (id : Uuid) (deleteFiles : Bool) (name : String) : M (Except CallError Unit) := do
  let text : Except CallError String ← ask (.poolXml id)
  match text with
  | .error e => return .error e
  | .ok text => ask (.job (.removePool id deleteFiles
      ((PoolXml.parse text).toOption.any fun xml => inLodgerMountRoot xml name)))

def Pools.remove (state : AppState) (req : Request) (session : Session) (id : Uuid) : M Response :=
  withBody (bodyOrDefault Formats.removePool {} req.body) fun request =>
  withPool id fun pool =>
  confirmed request.confirm pool.name "type the pool's name to remove it" <|
  withVirt do
    let refusal : Option Response ← audited Pools.NOT_FOUND
      ((actor state req session).poolRow pool.name) "pool.deleted"
      (some (if request.deleteFiles then "delete-files" else "keep-files"))
      (removal id request.deleteFiles pool.name)
    return finish { status := .noContent } refusal

end Pools

section Networks

variable [Xmltree] [Emitter] [Ipnet]

def Networks.NOT_FOUND : NotFound := ⟨"no_such_network", "no such network"⟩

def Actor.networkRow (a : Actor) (name : String) (entry : Entry) : Entry :=
  (a.row entry).targetNetwork name

def Networks.create (state : AppState) (req : Request) (session : Session) : M Response :=
  withBody (Formats.createNetwork req.body) fun request =>
  withVirt do
    let existing : Except CallError Rows ← ask .networkXmls
    withReply existing (errorAnswer .badGateway) fun existing => do
      let hostBridges : List String ← ask .hostBridges
      match newNetwork request existing hostBridges with
      | .error e => return refused e
      | .ok network => do
          let reply : Except CallError Uuid ←
            ask (.create (.createNetwork network.toXml request.autostart))
          createAnswer ((actor state req session).networkRow network.name.asStr) "network.created"
            reply

def Networks.change (state : AppState) (req : Request) (session : Session) (id : Uuid) :
    M Response :=
  withBody (Formats.change req.body) fun change =>
  changes change <|
  withNetwork id fun network =>
  withVirt <|
  let row := (actor state req session).networkRow network.name
  bothParts
    (changeActive Networks.NOT_FOUND row "network.started" "network.stopped" (.setNetworkActive id)
      change.active)
    (changeAutostart Networks.NOT_FOUND row "network.edited" (.setNetworkAutostart id)
      change.autostart)

def Networks.remove (state : AppState) (req : Request) (session : Session) (id : Uuid) :
    M Response :=
  withBody (bodyOrDefault Formats.removeNetwork {} req.body) fun request =>
  withNetwork id fun network =>
  confirmed request.confirm network.name "type the network's name to delete it" <|
  withVirt do
    let refusal : Option Response ← audited Networks.NOT_FOUND
      ((actor state req session).networkRow network.name) "network.deleted" none
      (ask (.job (.deleteNetwork id)))
    return finish { status := .noContent } refusal

end Networks

section Volumes

variable [Emitter]

def Volumes.NOT_FOUND : NotFound := ⟨"no_such_volume", "no such pool or volume"⟩

def Actor.volumeRow (a : Actor) (pool volume : String) (entry : Entry) : Entry :=
  (a.row entry).targetVolume pool volume

-- The answer to a failed read of the volumes of a pool.
def unlisted (e : CallError) : Response :=
  if e.isNotFound then error .notFound "no such pool"
  else if e.isInvalidOperation then errorAnswer .conflict e
  else errorAnswer .badGateway e

def Volumes.list (id : Uuid) : M Response :=
  withPool id fun _ =>
  withVirt do
    let volumes : Except CallError (List Volume.Facts) ← ask (.volumes id)
    withReply volumes unlisted fun volumes => return { status := .ok, body := .volumes volumes }

def newVolume (request : CreateVolume) : Except InputError NewVolume := do
  let name ← Name.parse "Volume name" request.name
  NewVolume.new name request.format request.capacityBytes

def Volumes.create (state : AppState) (req : Request) (session : Session) (id : Uuid) :
    M Response :=
  withBody (Formats.createVolume req.body) fun request =>
  withPool id fun pool =>
  match newVolume request with
  | .error e => return invalid e
  | .ok volume => withVirt do
      let existing : Except CallError (List String) ← ask (.volumeNames id)
      withReply existing unlisted fun existing =>
      match volume.checkAgainst pool.name existing with
      | .error e => return { status := .conflict, body := .invalid e }
      | .ok () => do
          let refusal : Option Response ← audited Volumes.NOT_FOUND
            ((actor state req session).volumeRow pool.name volume.name.asStr) "volume.created" none
            (ask (.job (.createVolume id volume.toXml)))
          return finish { status := .created, body := .name volume.name.asStr } refusal

-- Only a NUL byte is refused: a volume from another tool may have any other name.
def Volumes.remove (state : AppState) (req : Request) (session : Session) (id : Uuid)
    (name : String) : M Response :=
  match checkText "Volume name" name with
  | .error e => return invalid e
  | .ok _ =>
      withPool id fun pool =>
      withVirt do
        let refusal : Option Response ← audited Volumes.NOT_FOUND
          ((actor state req session).volumeRow pool.name name) "volume.deleted" none
          (ask (.job (.deleteVolume id name)))
        return finish { status := .noContent } refusal

end Volumes

end Lodger.Server
