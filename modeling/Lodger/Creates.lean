import Lodger.Lib.Machine
import Lodger.Xml.Pool
import Lodger.Xml.Network

namespace Lodger.Creates

open Validate Xml

inductive Kind where
  | dir
  | nfs
deriving DecidableEq, Repr

-- The body of `POST /api/pools`.
structure CreatePool where
  name : String
  kind : Kind
  path : Option String
  host : Option String
  exported : Option String
  autostart : Bool
deriving DecidableEq, Repr

inductive Mode where
  | nat
  | isolated
  | bridge
deriving DecidableEq, Repr

-- The body of `POST /api/networks`.
structure CreateNetwork where
  name : String
  mode : Mode
  subnet : Option String
  bridge : Option String
  autostart : Bool
deriving DecidableEq, Repr

-- The answers to a request that does not pass the check: 422, 409 and 422.
inductive Refusal where
  | invalid (e : InputError)
  | conflict (name : String)
  | missing (field : String)
deriving DecidableEq

def NFS_MOUNT_ROOT : String := "/var/lib/libvirt/pools"

-- The name and the XML of each pool or network.
abbrev Rows := List (String × String)

section Checks

variable [Xmltree] [Ipnet]

def readable {Doc : Type} (parse : String → Except XmlError Doc) (existing : Rows) :
    List (String × Doc) :=
  existing.filterMap fun (name, xml) => (parse xml).toOption.map fun doc => (name, doc)

def requested (request : CreatePool) (name : Name) : Except Refusal NewPool :=
  match request.kind with
  | .dir =>
    match request.path with
    | none => .error (.missing "Pool folder")
    | some path => (NewPool.dir name path).mapError .invalid
  | .nfs =>
    match request.host, request.exported with
    | none, _ => .error (.missing "NFS server")
    | some _, none => .error (.missing "NFS export")
    | some host, some exported =>
      let path := request.path.getD (NFS_MOUNT_ROOT ++ "/" ++ request.name)
      (NewPool.nfs name host exported path).mapError .invalid

def newPool (request : CreatePool) (existing : Rows) : Except Refusal NewPool := do
  let name ← (Name.parse "Pool name" request.name).mapError .invalid
  if existing.any (·.1 = request.name) then .error (.conflict request.name)
  else
    let pool ← requested request name
    (pool.checkAgainst (readable PoolXml.parse existing)).mapError .invalid
    .ok pool

def requestedNetwork (request : CreateNetwork) (name : Name) (hostBridges : List String) :
    Except Refusal NewNetwork :=
  match request.mode with
  | .nat =>
    match request.subnet with
    | none => .error (.invalid (.empty "Subnet"))
    | some subnet => (NewNetwork.nat name subnet).mapError .invalid
  | .isolated =>
    match request.subnet with
    | none => .error (.invalid (.empty "Subnet"))
    | some subnet => (NewNetwork.isolated name subnet).mapError .invalid
  | .bridge =>
    match request.bridge with
    | none => .error (.invalid (.empty "Host bridge"))
    | some bridge => (NewNetwork.bridge name bridge hostBridges).mapError .invalid

def newNetwork (request : CreateNetwork) (existing : Rows) (hostBridges : List String) :
    Except Refusal NewNetwork := do
  let name ← (Name.parse "Network name" request.name).mapError .invalid
  if existing.any (·.1 = request.name) then .error (.conflict request.name)
  else
    let network ← requestedNetwork request name hostBridges
    (network.checkAgainst (readable NetworkXml.parse existing)).mapError .invalid
    .ok network

end Checks

inductive Request where
  | pool (request : CreatePool)
  | network (request : CreateNetwork)
deriving DecidableEq, Repr

inductive New where
  | pool (pool : NewPool)
  | network (network : NewNetwork)
deriving DecidableEq

def New.name : New → String
  | .pool new => new.name.asStr
  | .network new => new.name.asStr

-- A request keeps its list of the existing rows while it runs. It holds a permit of
-- the job connection from the define to the end of the start.
inductive Stage where
  | asked
  | listed (existing : Rows)
  | checked (existing : Rows) (new : New)
  | defined (new : New)
  | answered
deriving DecidableEq

structure Create where
  request : Request
  stage : Stage
deriving DecidableEq

structure State where
  pools : Rows
  networks : Rows
  creates : List Create
deriving DecidableEq

def LONG_PERMITS : Nat := 2

def Stage.running : Stage → Bool
  | .defined _ => true
  | _ => false

def State.jobs (s : State) : Nat := s.creates.countP (·.stage.running)

def State.setStage (s : State) (i : Nat) (stage : Stage) : State :=
  { s with creates := s.creates.modify i fun create => { create with stage } }

def State.listing (s : State) : Request → Rows
  | .pool _ => s.pools
  | .network _ => s.networks

def State.rows (s : State) : New → Rows
  | .pool _ => s.pools
  | .network _ => s.networks

def State.setRows (s : State) (new : New) (rows : Rows) : State :=
  match new with
  | .pool _ => { s with pools := rows }
  | .network _ => { s with networks := rows }

section Steps

variable [Xmltree] [Ipnet]

def check (request : Request) (existing : Rows) (hostBridges : List String) :
    Except Refusal New :=
  match request with
  | .pool request => (newPool request existing).map New.pool
  | .network request => (newNetwork request existing hostBridges).map New.network

def listedSource : PoolSource → Option (String × String)
  | .dir => none
  | .nfs host exported => some (host.name, exported.text)

-- libvirt adds to a document what it lacks, such as a UUID, and lists it with the
-- folder, the source and the addresses that it was defined with.
def New.listedAs (new : New) (xml : String) : Bool :=
  match new with
  | .pool new =>
    match PoolXml.parse xml with
    | .error _ => false
    | .ok doc => doc.targetPath = some new.path.text && doc.nfsSource = listedSource new.source
  | .network new =>
    match NetworkXml.parse xml with
    | .error _ => false
    | .ok doc => doc.subnets = new.subnet.toList

inductive Action where
  | arrive (request : Request)
  | list (i : Nat)
  | check (i : Nat) (hostBridges : List String)
  | define (i : Nat) (xml : String)
  | start (i : Nat)
  -- Any libvirt call fails. After the define, the removal is tried and may fail too.
  | fail (i : Nat) (removed : Bool)
deriving DecidableEq

def step (s : State) : Action → Option State
  | .arrive request => some { s with creates := s.creates ++ [⟨request, .asked⟩] }
  | .list i =>
    match s.creates[i]? with
    | some ⟨request, .asked⟩ => some (s.setStage i (.listed (s.listing request)))
    | _ => none
  | .check i hostBridges =>
    match s.creates[i]? with
    | some ⟨request, .listed existing⟩ =>
      match check request existing hostBridges with
      | .ok new => some (s.setStage i (.checked existing new))
      | .error _ => some (s.setStage i .answered)
    | _ => none
  | .define i xml =>
    match s.creates[i]? with
    | some ⟨_, .checked _ new⟩ =>
      if s.jobs < LONG_PERMITS ∧ new.name ∉ (s.rows new).map Prod.fst ∧ new.listedAs xml then
        some ((s.setRows new (s.rows new ++ [(new.name, xml)])).setStage i (.defined new))
      else none
    | _ => none
  | .start i =>
    match s.creates[i]? with
    | some ⟨_, .defined _⟩ => some (s.setStage i .answered)
    | _ => none
  | .fail i removed =>
    match s.creates[i]? with
    | some ⟨_, .asked⟩ => some (s.setStage i .answered)
    | some ⟨_, .checked _ _⟩ => some (s.setStage i .answered)
    | some ⟨_, .defined new⟩ =>
      if removed then
        some ((s.setRows new ((s.rows new).filter (·.1 ≠ new.name))).setStage i .answered)
      else some (s.setStage i .answered)
    | _ => none

end Steps

end Lodger.Creates
