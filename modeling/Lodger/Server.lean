import Lodger.Audit
import Lodger.Creates
import Lodger.Http
import Lodger.Jobs
import Lodger.Pools
import Lodger.Xml.Volume

namespace Lodger.Server

open Lodger.Lib Lodger.Db Lodger.Http Lodger.Libvirt Lodger.Audit
open Lodger.Cache (Inventory Vm Pool Net)
open ClientIp (HeaderMap HeaderValue IpNet clientIp header)
open Creates (CreatePool CreateNetwork Refusal Rows newPool newNetwork NFS_MOUNT_ROOT)
open Jobs (Op Power)
open Validate Xml

section Errors

-- Why a libvirt operation failed: an error of the operations, or one that no libvirt call
-- gives, such as a closure that panicked.
inductive CallError where
  | virt (e : Libvirt.Error)
  | other (text : String)
deriving DecidableEq, Repr

def CallError.text : CallError → String
  | .virt e => e.text
  | .other text => text

def CallError.isNotFound : CallError → Bool
  | .virt e => e.isCode .noDomain || e.isCode .noNetwork || e.isCode .noStoragePool ||
      e.isCode .noStorageVolume
  | .other _ => false

def CallError.isInvalidOperation : CallError → Bool
  | .virt (.wrongState _) => true
  | .virt e => e.isCode .operationInvalid
  | .other _ => false

def CallError.isInUse : CallError → Bool
  | .virt (.inUse _) => true
  | _ => false

structure Explanation where
  cause : String
  fix : String
  commands : List String
deriving DecidableEq, Repr

-- One known error: every text in `parts` appears in the libvirt message.
structure Known where
  parts : List String
  explanation : Explanation

def KNOWN : List Known := [
  { parts := ["QEMU command 'getfd'", "No file descriptor supplied"]
    explanation := {
      cause := "AppArmor on this host blocks /dev/vhost-net, so QEMU cannot get the network " ++
        "device for the new NIC."
      fix := "Add the rule `/dev/vhost-net rw,` to " ++
        "/etc/apparmor.d/local/abstractions/libvirt-qemu, then stop and start the VM, because " ++
        "a VM gets the rule at its next start."
      commands := ["sudo mkdir -p /etc/apparmor.d/local/abstractions",
        "printf '\\n/dev/vhost-net rw,\\n' | sudo tee -a " ++
          "/etc/apparmor.d/local/abstractions/libvirt-qemu"] } },
  { parts := ["deletion of active external snapshot that is not a leaf snapshot"]
    explanation := {
      cause := "libvirt cannot delete the current external snapshot while it has a child " ++
        "snapshot, for example right after a revert to it."
      fix := "Delete its child snapshots first, or revert to another snapshot, then delete " ++
        "this one."
      commands := [] } }]

def explain (message : String) : Option Explanation :=
  (KNOWN.find? fun known => known.parts.all fun part => part.toList <:+: message.toList).map
    (·.explanation)

end Errors

section Answers

-- `text` stands for the JSON object with an `error`, `taken` for the one that names an object
-- that exists already, and `page` for what a handler that only reads shows.
inductive Body where
  | empty
  | text (message : String)
  | explained (message : String) (explanation : Option Explanation)
  | invalid (e : InputError)
  | missing (field : String)
  | taken (name : String)
  | uuid (id : Uuid)
  | name (name : String)
  | removal (report : Delete.Removal)
  | volumes (volumes : List Volume.Facts)
  | ticket (ticket : String)
  -- The connection becomes a WebSocket of this session: for the events, or for a display.
  | events (key : Key)
  | display (key : Key) (vm : Uuid)
  | page
deriving DecidableEq

structure Response where
  status : StatusCode
  body : Body := .empty
  cookie : Option HeaderValue := none
deriving DecidableEq

-- The session of the WebSocket that the connection becomes.
def Body.socket : Body → Option Key
  | .events key | .display key _ => some key
  | _ => none

-- What the handlers of other models answer, with their JSON left out.
structure Page where
  status : StatusCode
  cookie : Option HeaderValue := none
deriving DecidableEq

def error (code : StatusCode) (message : String) : Response :=
  { status := code, body := .text message }

def errorAnswer (code : StatusCode) (e : CallError) : Response :=
  { status := code, body := .explained e.text (explain e.text) }

def noLibvirt : Response := error .serviceUnavailable "Lodger is not connected to libvirt"
def badJson (e : String) : Response := error .badRequest ("bad JSON body: " ++ e)
def unauthorized : Response := error .unauthorized "log in first"
def lookupFailed : Response := error .internalServerError "cannot check the session"

def invalid (e : InputError) : Response := { status := .unprocessableEntity, body := .invalid e }

-- The answer to a create that does not pass its check.
def refused : Refusal → Response
  | .invalid e => invalid e
  | .conflict name => { status := .conflict, body := .taken name }
  | .missing field => { status := .unprocessableEntity, body := .missing field }

end Answers

section Bodies

structure Confirm where
  confirm : Option String := none

structure DeleteRequest where
  confirm : Option String := none
  removeVolumes : Bool := false

structure Settings where
  autostart : Bool

structure Change where
  active : Option Bool
  autostart : Option Bool

-- The body of a delete of a pool, and of a network, which has no files.
structure RemovePool where
  confirm : Option String := none
  deleteFiles : Bool := false

structure RemoveNetwork where
  confirm : Option String := none

structure CreateVolume where
  name : String
  format : VolumeFormat
  capacityBytes : Nat

-- The crates `serde_json`, `uuid`, `sha2` and axum's decoding of a path are not part of the
-- repository.
class Formats where
  sha256 : String → Key
  uuid : String → Option Uuid
  decode : String → Option String
  confirm : List UInt8 → Except String Confirm
  deleteRequest : List UInt8 → Except String DeleteRequest
  settings : List UInt8 → Except String Settings
  createPool : List UInt8 → Except String CreatePool
  createNetwork : List UInt8 → Except String CreateNetwork
  change : List UInt8 → Except String Change
  removePool : List UInt8 → Except String RemovePool
  removeNetwork : List UInt8 → Except String RemoveNetwork
  createVolume : List UInt8 → Except String CreateVolume

-- An empty body gives the default.
def bodyOrDefault {α : Type} (parse : List UInt8 → Except String α) (default : α)
    (body : List UInt8) : Except String α :=
  if body.isEmpty then .ok default else parse body

end Bodies

-- What every handler can read.
structure AppState where
  trustedProxies : List IpNet
  publicOrigin : Option String

structure Request where
  method : Method
  path : List String
  headers : HeaderMap
  peer : IpAddr
  body : List UInt8
  -- The query of a socket, and whether the request asks for a WebSocket.
  ticket : Option String := none
  upgrade : Bool := false

-- The handlers that are calls here: those that only read, and those whose steps the session
-- and the setup models have.
inductive Handler where
  | health
  | setupStatus
  | setupClaim
  | login
  | read (name : String)
  | currentSession
  | createAccount
  | deleteAccount
  | changePassword
deriving DecidableEq, Repr

-- What a request asks of the rest of the program, one call at a time: the database, what the
-- supervisor knows, libvirt, the ticket store and the handlers of other models.
section Calls

inductive Call where
  | session (key : Key)
  | inventory
  | connected
  | poolXmls
  | poolXml (id : Uuid)
  | networkXmls
  | volumeNames (pool : Uuid)
  | volumes (pool : Uuid)
  | hostBridges
  | job (op : Op)
  | create (op : Op)
  | deleteVm (id : Uuid) (removeVolumes : Bool)
  | audit (entry : Entry)
  | deleteSession (key : Key)
  | issueTicket (key : Key) (origin : Option String)
  | redeem (ticket : String) (key : Key) (origin : Option String)
  | openVnc (vm : Uuid)
  | handler (h : Handler)

abbrev Call.Result : Call → Type
  | .session _ => Except String (Option Session)
  | .inventory => Inventory
  | .connected => Bool
  | .poolXmls | .networkXmls => Except CallError Rows
  | .poolXml _ => Except CallError String
  | .volumeNames _ => Except CallError (List String)
  | .volumes _ => Except CallError (List Volume.Facts)
  | .hostBridges => List String
  | .job _ => Except CallError Unit
  | .create _ => Except CallError Uuid
  | .deleteVm .. => Except CallError Delete.Removal
  | .audit _ => Unit
  | .deleteSession _ => Except String Unit
  | .issueTicket .. => Except String (Option String)
  | .redeem .. => Bool
  -- libvirt opens the display, then the socket to it is made ready.
  | .openVnc _ => Except CallError (Except String Unit)
  | .handler _ => Page

-- The client went away while the request waited for a call, or the code panicked.
inductive Stop where
  | dropped
  | panic (message : String)
deriving DecidableEq, Repr

abbrev M := Prog Call Call.Result Stop

def ask (c : Call) : M c.Result := Prog.ask c

-- `Option::expect`.
def expect {α : Type} (message : String) : Option α → M α
  | some a => return a
  | none => .fail (.panic message)

end Calls

end Lodger.Server
