import Lodger.Libvirt

namespace Lodger.Cache

open Lodger.Lib Lodger.Libvirt

inductive VmState where
  | noState
  | running
  | blocked
  | paused
  | shuttingDown
  | shutoff
  | crashed
  | suspended
  | unknown
deriving DecidableEq, Repr

def VmState.fromCode : Nat → VmState
  | 0 => .noState
  | 1 => .running
  | 2 => .blocked
  | 3 => .paused
  | 4 => .shuttingDown
  | 5 => .shutoff
  | 6 => .crashed
  | 7 => .suspended
  | _ => .unknown

inductive PoolState where
  | inactive
  | building
  | running
  | degraded
  | inaccessible
  | unknown
deriving DecidableEq, Repr

def PoolState.fromCode : Nat → PoolState
  | 0 => .inactive
  | 1 => .building
  | 2 => .running
  | 3 => .degraded
  | 4 => .inaccessible
  | _ => .unknown

structure Vm where
  uuid : Uuid
  name : String
  state : VmState
  vcpus : Nat
  memoryKib : Nat
  persistent : Bool
  autostart : Bool
  hasVnc : Bool
deriving DecidableEq, Repr

structure Pool where
  uuid : Uuid
  name : String
  state : PoolState
  capacityBytes : Nat
  allocationBytes : Nat
  availableBytes : Nat
  persistent : Bool
  autostart : Bool
deriving DecidableEq, Repr

structure Net where
  uuid : Uuid
  name : String
  active : Bool
  persistent : Bool
  autostart : Bool
  bridge : Option String
deriving DecidableEq, Repr

structure Inventory where
  vms : AList fun _ : Uuid => Vm := ∅
  pools : AList fun _ : Uuid => Pool := ∅
  networks : AList fun _ : Uuid => Net := ∅

inductive Refresh where
  | vm (id : Uuid) (vm : Option Vm)
  | pool (id : Uuid) (pool : Option Pool)
  | network (id : Uuid) (net : Option Net)

def Inventory.apply (inv : Inventory) : Refresh → Inventory
  | .vm id (some vm) => { inv with vms := inv.vms.insert id vm }
  | .vm id none => { inv with vms := inv.vms.erase id }
  | .pool id (some pool) => { inv with pools := inv.pools.insert id pool }
  | .pool id none => { inv with pools := inv.pools.erase id }
  | .network id (some net) => { inv with networks := inv.networks.insert id net }
  | .network id none => { inv with networks := inv.networks.erase id }

-- The functions below run on the read connection: each `get` is one libvirt
-- call, and other clients may act between two of them.
abbrev Read := Prog Query Query.Result Error

def get (q : Query) : Read q.Result := .ask q

-- libvirt's "no such object" errors.
def gone (e : Error) : Bool :=
  e.isCode .noDomain || e.isCode .noStoragePool || e.isCode .noNetwork

def goneIsNone {α : Type} (p : Read α) : Read (Option α) := do
  match ← p.attempt with
  | .ok a => return some a
  | .error e => if gone e then return none else .fail e

def poolOf (p : Ref) : Read Pool := do
  let info : PoolInfo ← get (.poolInfo p)
  let persistent : Bool ← get (.poolIsPersistent p)
  let autostart : Bool ← get (.poolAutostart p)
  return {
    uuid := p.id
    name := p.name
    state := .fromCode info.state
    capacityBytes := info.capacity
    allocationBytes := info.allocation
    availableBytes := info.available
    persistent
    autostart }

def networkOf (n : Ref) : Read Net := do
  let active : Bool ← get (.networkIsActive n)
  let persistent : Bool ← get (.networkIsPersistent n)
  let autostart : Bool ← get (.networkAutostart n)
  let bridge : Except Error String ← (get (.networkBridgeName n)).attempt
  return { uuid := n.id, name := n.name, active, persistent, autostart, bridge := bridge.toOption }

-- One of the three loops of `load`: an object that disappears between the list
-- and its details is left out.
def loadEach {α : Type} (detailsOf : Ref → Read α) (insert : Inventory → α → Inventory)
    (refs : List Ref) (inv : Inventory) : Read Inventory :=
  refs.foldlM (fun inv ref => do
    match ← goneIsNone (detailsOf ref) with
    | some a => return insert inv a
    | none => return inv) inv

def Inventory.insertVm (inv : Inventory) (vm : Vm) : Inventory :=
  { inv with vms := inv.vms.insert vm.uuid vm }

def Inventory.insertPool (inv : Inventory) (pool : Pool) : Inventory :=
  { inv with pools := inv.pools.insert pool.uuid pool }

def Inventory.insertNetwork (inv : Inventory) (net : Net) : Inventory :=
  { inv with networks := inv.networks.insert net.uuid net }

section Domains

variable [Xml.Xmltree]

-- XML that Lodger cannot read counts as no display.
def hasVnc (xml : String) : Bool := (Xml.domainHasVnc xml).toOption.getD false

def vmOf (d : Ref) : Read Vm := do
  let info : DomainInfo ← get (.domainInfo d)
  let xml : String ← get (.domainXmlDesc d false)
  let persistent : Bool ← get (.domainIsPersistent d)
  let autostart : Bool ← get (.domainAutostart d)
  return {
    uuid := d.id
    name := d.name
    state := .fromCode info.state
    vcpus := info.nrVirtCpu
    memoryKib := info.memory
    persistent
    autostart
    hasVnc := hasVnc xml }

def load : Read Inventory := do
  let domains : List Ref ← get .listAllDomains
  let inv ← loadEach vmOf .insertVm domains {}
  let pools : List Ref ← get .listAllStoragePools
  let inv ← loadEach poolOf .insertPool pools inv
  let networks : List Ref ← get .listAllNetworks
  loadEach networkOf .insertNetwork networks inv

def refresh : Event → Read (Option Refresh)
  | .domain id _ => do
      let vm ← goneIsNone do
        let d : Ref ← get (.lookupDomainByUuid id)
        vmOf d
      return some (.vm id vm)
  | .pool id _ => do
      let pool ← goneIsNone do
        let p : Ref ← get (.lookupStoragePoolByUuid id)
        poolOf p
      return some (.pool id pool)
  | .network id _ => do
      let net ← goneIsNone do
        let n : Ref ← get (.lookupNetworkByUuid id)
        networkOf n
      return some (.network id net)
  | .closed _ => return none

end Domains

end Lodger.Cache
