import Mathlib
import Lodger.Lib.Prog
import Lodger.Xml

namespace Lodger.Libvirt

open Lodger.Lib Lodger.Xml

abbrev Uuid := BitVec 128

-- The `virErrorNumber` codes that the code compares.
inductive ErrorNumber where
  | noDomain
  | noStoragePool
  | noNetwork
  | noStorageVolume
  | invalidArg
  | operationInvalid
  | other
deriving DecidableEq, Repr

structure VirtError where
  code : ErrorNumber
  message : String
deriving DecidableEq, Repr

-- `conn::Error`.
inductive Error where
  | libvirt (e : VirtError)
  | wrongState (reason : String)
  | inUse (users : List String)
  | xml (e : XmlError)
deriving DecidableEq, Repr

def Error.text : Error → String
  | .libvirt e => "libvirt: " ++ e.message
  | .wrongState reason => reason
  | .inUse users => "in use by " ++ ", ".intercalate users
  | .xml e => e.text

-- The message of a `virt::error::Error`.
def Error.message : Error → String
  | .libvirt e => e.message
  | e => e.text

def Error.isCode (code : ErrorNumber) : Error → Bool
  | .libvirt e => e.code = code
  | _ => false

section Objects

-- A domain that does not run has a saved configuration; one that runs may be
-- transient.
inductive Config where
  | shutOff (saved : String)
  | running (saved : Option String) (live : String)
deriving DecidableEq, Repr

structure Domain where
  name : String
  state : Nat
  nrVirtCpu : Nat
  memory : Nat
  config : Config
  autostart : Bool
deriving DecidableEq, Repr

def Domain.isActive (d : Domain) : Bool :=
  match d.config with
  | .shutOff _ => false
  | .running .. => true

def Domain.isPersistent (d : Domain) : Bool :=
  match d.config with
  | .shutOff _ => true
  | .running saved _ => saved.isSome

-- `virDomainGetXMLDesc`, with or without VIR_DOMAIN_XML_INACTIVE.
def Domain.xmlDesc (d : Domain) (inactive : Bool) : String :=
  match d.config with
  | .shutOff saved => saved
  | .running saved live => if inactive then saved.getD live else live

structure Vol where
  name : String
  key : String
  path : String
  kind : Nat
  capacity : Nat
  allocation : Nat
  xml : String
deriving DecidableEq, Repr

-- What a scan of the pool's storage finds.
structure Scan where
  volumes : List Vol
  capacity : Nat
  allocation : Nat
  available : Nat
deriving DecidableEq, Repr

-- `scan` is what libvirt reports, and `storage` what is there now: other
-- programs change it, and libvirt looks at it at a start and at a refresh.
structure StoragePool where
  name : String
  state : Nat
  active : Bool
  persistent : Bool
  autostart : Bool
  scan : Scan
  storage : Scan
deriving DecidableEq, Repr

structure Network where
  name : String
  active : Bool
  persistent : Bool
  autostart : Bool
  bridge : Option String
deriving DecidableEq, Repr

structure World where
  domains : AList fun _ : Uuid => Domain
  pools : AList fun _ : Uuid => StoragePool
  networks : AList fun _ : Uuid => Network

end Objects

section Events

inductive Kind where
  | vm
  | pool
  | network
deriving DecidableEq, Repr

structure Obj where
  kind : Kind
  id : Uuid
deriving DecidableEq, Repr

inductive DomainChange where
  | lifecycle (event detail : Int)
  | reboot
  | deviceAdded
  | deviceRemoved
  | metadata
  | autostart
deriving DecidableEq, Repr

inductive Event where
  | domain (id : Uuid) (change : DomainChange)
  | network (id : Uuid) (event : Int)
  | pool (id : Uuid) (event : Int)
  | closed (reason : Int)
deriving DecidableEq, Repr

-- Codes of Lodger's own events, for changes that libvirt sends none for.
def POOL_AUTOSTART : Int := -1
def POOL_VOLUMES : Int := -2
def NETWORK_AUTOSTART : Int := -1

def Event.obj : Event → Option Obj
  | .domain id _ => some ⟨.vm, id⟩
  | .network id _ => some ⟨.network, id⟩
  | .pool id _ => some ⟨.pool, id⟩
  | .closed _ => none

end Events

-- Handles. The UUID and the name are part of the handle, so reading them is
-- no call; only the scans of the uses of a disk look at a failed read of a name.
section Queries

structure Ref where
  id : Uuid
  name : String
deriving DecidableEq, Repr

structure VolRef where
  pool : String
  name : String
  key : String
deriving DecidableEq, Repr

structure DomainInfo where
  state : Nat
  nrVirtCpu : Nat
  memory : Nat
deriving DecidableEq, Repr

structure PoolInfo where
  state : Nat
  capacity : Nat
  allocation : Nat
  available : Nat
deriving DecidableEq, Repr

structure VolInfo where
  kind : Nat
  capacity : Nat
  allocation : Nat
deriving DecidableEq, Repr

-- The calls that only read.
inductive Query where
  | listAllDomains
  | listAllStoragePools
  | listAllNetworks
  | lookupDomainByUuid (id : Uuid)
  | lookupStoragePoolByUuid (id : Uuid)
  | lookupNetworkByUuid (id : Uuid)
  | lookupStoragePoolByName (name : String)
  | lookupStorageVolByPath (path : String)
  | domainName (d : Ref)
  | domainInfo (d : Ref)
  | domainXmlDesc (d : Ref) (inactive : Bool)
  | domainIsActive (d : Ref)
  | domainIsPersistent (d : Ref)
  | domainAutostart (d : Ref)
  | poolInfo (p : Ref)
  | poolIsActive (p : Ref)
  | poolIsPersistent (p : Ref)
  | poolAutostart (p : Ref)
  | poolListAllVolumes (p : Ref)
  | poolLookupStorageVolByName (p : Ref) (name : String)
  | volXmlDesc (v : VolRef)
  | volInfo (v : VolRef)
  | volPath (v : VolRef)
  | networkIsActive (n : Ref)
  | networkIsPersistent (n : Ref)
  | networkAutostart (n : Ref)
  | networkBridgeName (n : Ref)
deriving DecidableEq, Repr

def Query.Result : Query → Type
  | .listAllDomains | .listAllStoragePools | .listAllNetworks => List Ref
  | .lookupDomainByUuid _ | .lookupStoragePoolByUuid _ | .lookupNetworkByUuid _ => Ref
  | .lookupStoragePoolByName _ => Ref
  | .lookupStorageVolByPath _ | .poolLookupStorageVolByName .. => VolRef
  | .poolListAllVolumes _ => List VolRef
  | .domainInfo _ => DomainInfo
  | .poolInfo _ => PoolInfo
  | .volInfo _ => VolInfo
  | .domainName _ | .domainXmlDesc .. | .volXmlDesc _ | .volPath _ | .networkBridgeName _ => String
  | .domainIsActive _ | .domainIsPersistent _ | .domainAutostart _ => Bool
  | .poolIsActive _ | .poolIsPersistent _ | .poolAutostart _ => Bool
  | .networkIsActive _ | .networkIsPersistent _ | .networkAutostart _ => Bool

-- What libvirt decides by itself: how it cleans a path, the live configuration
-- of a domain that it starts, whether a guest that is asked to shut down stops
-- at once, and the objects that it makes from XML.
class Libvirtd where
  sanitizePath : String → String
  liveXml : String → String
  stopsAtOnce : Domain → Bool
  definePool : String → World → Except VirtError (Uuid × StoragePool)
  defineNetwork : String → World → Except VirtError (Uuid × Network)
  createVol : String → StoragePool → Except VirtError Vol

def noDomain : Error := .libvirt ⟨.noDomain, "Domain not found"⟩
def noStoragePool : Error := .libvirt ⟨.noStoragePool, "Storage pool not found"⟩
def noNetwork : Error := .libvirt ⟨.noNetwork, "Network not found"⟩
def noStorageVolume : Error := .libvirt ⟨.noStorageVolume, "Storage volume not found"⟩
def operationInvalid : Error :=
  .libvirt ⟨.operationInvalid, "Requested operation is not valid"⟩

variable (w : World)

def World.domain (id : Uuid) : Except Error Domain := (w.domains.lookup id).elim (.error noDomain) .ok

def World.pool (id : Uuid) : Except Error StoragePool :=
  (w.pools.lookup id).elim (.error noStoragePool) .ok

def World.network (id : Uuid) : Except Error Network :=
  (w.networks.lookup id).elim (.error noNetwork) .ok

def World.activePool (id : Uuid) : Except Error StoragePool := do
  let p ← w.pool id
  if p.active then .ok p else .error operationInvalid

def World.poolByName (name : String) : Option (Uuid × StoragePool) :=
  (w.pools.entries.find? fun e => e.2.name = name).map fun e => (e.1, e.2)

def StoragePool.vol (p : StoragePool) (name : String) : Except Error Vol :=
  (p.scan.volumes.find? (·.name = name)).elim (.error noStorageVolume) .ok

-- libvirt finds the volume of a handle by its pool's name and its own name.
def World.vol (v : VolRef) : Except Error Vol :=
  match w.poolByName v.pool with
  | none => .error noStoragePool
  | some (_, p) => if p.active then p.vol v.name else .error operationInvalid

def StoragePool.volRef (p : StoragePool) (v : Vol) : VolRef := ⟨p.name, v.name, v.key⟩

variable [Libvirtd]

def World.volByPath (path : String) : Option VolRef :=
  w.pools.entries.findSome? fun e =>
    if e.2.active then
      (e.2.scan.volumes.find? (·.path = Libvirtd.sanitizePath path)).map e.2.volRef
    else none

def World.query : (q : Query) → Except Error q.Result
  | .listAllDomains => .ok (w.domains.entries.map fun e => (⟨e.1, e.2.name⟩ : Ref))
  | .listAllStoragePools => .ok (w.pools.entries.map fun e => (⟨e.1, e.2.name⟩ : Ref))
  | .listAllNetworks => .ok (w.networks.entries.map fun e => (⟨e.1, e.2.name⟩ : Ref))
  | .lookupDomainByUuid id => (w.domain id).map fun d => (⟨id, d.name⟩ : Ref)
  | .lookupStoragePoolByUuid id => (w.pool id).map fun p => (⟨id, p.name⟩ : Ref)
  | .lookupNetworkByUuid id => (w.network id).map fun n => (⟨id, n.name⟩ : Ref)
  | .lookupStoragePoolByName name =>
      (w.poolByName name).elim (.error noStoragePool) fun (id, p) => .ok (⟨id, p.name⟩ : Ref)
  | .lookupStorageVolByPath path =>
      (w.volByPath path).elim (.error noStorageVolume) fun v => .ok (v : VolRef)
  | .domainName d => .ok (d.name : String)
  | .domainInfo d => (w.domain d.id).map fun d => (⟨d.state, d.nrVirtCpu, d.memory⟩ : DomainInfo)
  | .domainXmlDesc d inactive => (w.domain d.id).map fun d => (d.xmlDesc inactive : String)
  | .domainIsActive d => (w.domain d.id).map fun d => (d.isActive : Bool)
  | .domainIsPersistent d => (w.domain d.id).map fun d => (d.isPersistent : Bool)
  | .domainAutostart d => (w.domain d.id).map fun d => (d.autostart : Bool)
  | .poolInfo p => (w.pool p.id).map fun p =>
      (⟨p.state, p.scan.capacity, p.scan.allocation, p.scan.available⟩ : PoolInfo)
  | .poolIsActive p => (w.pool p.id).map fun p => (p.active : Bool)
  | .poolIsPersistent p => (w.pool p.id).map fun p => (p.persistent : Bool)
  | .poolAutostart p => (w.pool p.id).map fun p => (p.autostart : Bool)
  | .poolListAllVolumes p =>
      (w.activePool p.id).map fun p => (p.scan.volumes.map p.volRef : List VolRef)
  | .poolLookupStorageVolByName p name => do
      let p ← w.activePool p.id
      (p.vol name).map fun v => (p.volRef v : VolRef)
  | .volXmlDesc v => (w.vol v).map fun v => (v.xml : String)
  | .volInfo v => (w.vol v).map fun v => (⟨v.kind, v.capacity, v.allocation⟩ : VolInfo)
  | .volPath v => (w.vol v).map fun v => (v.path : String)
  | .networkIsActive n => (w.network n.id).map fun n => (n.active : Bool)
  | .networkIsPersistent n => (w.network n.id).map fun n => (n.persistent : Bool)
  | .networkAutostart n => (w.network n.id).map fun n => (n.autostart : Bool)
  | .networkBridgeName n => do
      let n ← w.network n.id
      n.bridge.elim (.error (.libvirt ⟨.other, "the network has no bridge name"⟩)) fun b =>
        .ok (b : String)

end Queries

end Lodger.Libvirt
