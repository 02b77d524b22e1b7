import Lodger.Delete
import Lodger.Cache.View
import Lodger.Lib.Machine

namespace Lodger.Jobs

open Lodger.Lib Lodger.Libvirt Lodger.Cache

section Domains

inductive Power where
  | start
  | shutdown
  | forceOff
  | reboot
  | pause
  | resume
deriving DecidableEq, Repr

def Power.refusal (state : VmState) (active : Bool) : Power → Option String
  | .start => if active then some "the VM is running already" else none
  | .shutdown | .forceOff => if !active then some "the VM is not running" else none
  | .reboot | .pause =>
      if state = .paused then some "the VM is paused"
      else if state ≠ .running then some "the VM is not running"
      else none
  | .resume => if state ≠ .paused then some "the VM is not paused" else none

def VIR_DOMAIN_SHUTDOWN_ACPI_POWER_BTN : Nat := 1
def VIR_DOMAIN_REBOOT_ACPI_POWER_BTN : Nat := 1

-- A driver without ACPI rejects the flag: then it picks its own method.
def withAcpi (call : Nat → Job Unit) (acpi : Nat) : Job Unit := do
  match ← (call acpi).attempt with
  | .ok () => return ()
  | .error e => if e.isCode .invalidArg then call 0 else .fail e

def Power.run (d : Ref) : Power → Job Unit
  | .start => command (.domainCreate d)
  | .shutdown =>
      withAcpi (fun flags => command (.domainShutdownFlags d flags))
        VIR_DOMAIN_SHUTDOWN_ACPI_POWER_BTN
  | .forceOff => command (.domainDestroy d)
  | .reboot =>
      withAcpi (fun flags => command (.domainReboot d flags)) VIR_DOMAIN_REBOOT_ACPI_POWER_BTN
  | .pause => command (.domainSuspend d)
  | .resume => command (.domainResume d)

def power (id : Uuid) (action : Power) : Job Unit := do
  let d : Ref ← query (.lookupDomainByUuid id)
  let info : DomainInfo ← query (.domainInfo d)
  let active : Bool ← query (.domainIsActive d)
  match action.refusal (.fromCode info.state) active with
  | some reason => .fail (.wrongState reason)
  | none => action.run d

def setAutostart (id : Uuid) (on : Bool) : Job Unit := do
  let d : Ref ← query (.lookupDomainByUuid id)
  command (.domainSetAutostart d on)
  send (.domain id .autostart)

end Domains

-- The two bodies that pools and networks share.
section Shared

def setActive (what : String) (isActive : Job Bool) (create destroy : Job Unit) (active : Bool) :
    Job Unit := do
  match active, ← isActive with
  | true, true => .fail (.wrongState ("the " ++ what ++ " is running already"))
  | false, false => .fail (.wrongState ("the " ++ what ++ " is not running"))
  | true, false => create
  | false, true => destroy

-- The end of a create: if the start fails, no definition stays behind.
def startOrRemove (start : Job Unit) (isActive : Job Bool) (destroy undefine : Job Unit) :
    Job Unit := do
  match ← start.attempt with
  | .ok () => return ()
  | .error e =>
      let active ← isActive.attempt
      if active.toOption.getD false then
        let _ ← destroy.attempt
      let _ ← undefine.attempt
      .fail e

end Shared

section Pools

def setPoolActive (id : Uuid) (active : Bool) : Job Unit := do
  let p : Ref ← query (.lookupStoragePoolByUuid id)
  setActive "pool" (query (.poolIsActive p)) (command (.poolCreate p)) (command (.poolDestroy p))
    active

def setPoolAutostart (id : Uuid) (on : Bool) : Job Unit := do
  let p : Ref ← query (.lookupStoragePoolByUuid id)
  command (.poolSetAutostart p on)
  send (.pool id POOL_AUTOSTART)

def createPool (xml : String) (autostart : Bool) : Job Uuid := do
  let p : Ref ← command (.defineStoragePoolXml xml)
  let start : Job Unit := do
    command (.poolBuild p)
    command (.poolSetAutostart p autostart)
    command (.poolCreate p)
  startOrRemove start (query (.poolIsActive p)) (command (.poolDestroy p))
    (command (.poolUndefine p))
  return p.id

def deleteVolumes (p : Ref) : Job Unit := do
  command (.poolRefresh p)
  let volumes : List VolRef ← query (.poolListAllVolumes p)
  volumes.foldlM (fun _ v => command (.volDelete v)) ()

-- A failed removal leaves the pool as it was.
def deleteOrStop (p : Ref) (wasActive : Bool) : Job Unit := do
  match ← (deleteVolumes p).attempt with
  | .ok () => return ()
  | .error e =>
      if !wasActive then
        let _ ← (command (.poolDestroy p)).attempt
      .fail e

-- The volumes are listed only while the pool runs.
def deleteFilesOf (p : Ref) : Job Unit := do
  let wasActive : Bool ← query (.poolIsActive p)
  if !wasActive then
    command (.poolCreate p)
  deleteOrStop p wasActive

def undefinePool (p : Ref) (deleteFiles removeEmptyFolder : Bool) : Job Unit := do
  if deleteFiles then
    command (.poolDelete p)
  else if removeEmptyFolder then
    let _ ← (command (.poolDelete p)).attempt
  command (.poolUndefine p)

def stopAndUndefine (p : Ref) (deleteFiles removeEmptyFolder : Bool) : Job Unit := do
  let persistent : Bool ← query (.poolIsPersistent p)
  let active : Bool ← query (.poolIsActive p)
  if active then
    command (.poolDestroy p)
  if persistent then
    undefinePool p deleteFiles removeEmptyFolder

def removePool (id : Uuid) (deleteFiles removeEmptyFolder : Bool) : Job Unit := do
  let p : Ref ← query (.lookupStoragePoolByUuid id)
  if deleteFiles then
    deleteFilesOf p
  stopAndUndefine p deleteFiles removeEmptyFolder

end Pools

section Networks

def setNetworkActive (id : Uuid) (active : Bool) : Job Unit := do
  let n : Ref ← query (.lookupNetworkByUuid id)
  setActive "network" (query (.networkIsActive n)) (command (.networkCreate n))
    (command (.networkDestroy n)) active

def setNetworkAutostart (id : Uuid) (on : Bool) : Job Unit := do
  let n : Ref ← query (.lookupNetworkByUuid id)
  command (.networkSetAutostart n on)
  send (.network id NETWORK_AUTOSTART)

def createNetwork (xml : String) (autostart : Bool) : Job Uuid := do
  let n : Ref ← command (.defineNetworkXml xml)
  let start : Job Unit := do
    command (.networkSetAutostart n autostart)
    command (.networkCreate n)
  startOrRemove start (query (.networkIsActive n)) (command (.networkDestroy n))
    (command (.networkUndefine n))
  return n.id

-- A transient network has no definition: it is gone at the stop.
def deleteNetwork (id : Uuid) : Job Unit := do
  let n : Ref ← query (.lookupNetworkByUuid id)
  let persistent : Bool ← query (.networkIsPersistent n)
  let active : Bool ← query (.networkIsActive n)
  if active then
    command (.networkDestroy n)
  if persistent then
    command (.networkUndefine n)

end Networks

section Volumes

variable [FileSystem] [Xml.Xmltree]

def createVolume (pool : Uuid) (xml : String) : Job Unit := do
  let p ← reading (Volume.runningPool pool)
  command (.volCreateXml p xml)
  send (.pool pool POOL_VOLUMES)

def deleteVolume (pool : Uuid) (name : String) : Job Unit := do
  Volume.deleteOn pool name
  send (.pool pool POOL_VOLUMES)

end Volumes

-- A call of one of Lodger's own operations.
inductive Op where
  | power (id : Uuid) (action : Power)
  | setAutostart (id : Uuid) (on : Bool)
  | setPoolActive (id : Uuid) (active : Bool)
  | setPoolAutostart (id : Uuid) (on : Bool)
  | setNetworkActive (id : Uuid) (active : Bool)
  | setNetworkAutostart (id : Uuid) (on : Bool)
  | createVolume (pool : Uuid) (xml : String)
  | deleteVolume (pool : Uuid) (name : String)
  | createPool (xml : String) (autostart : Bool)
  | removePool (id : Uuid) (deleteFiles removeEmptyFolder : Bool)
  | createNetwork (xml : String) (autostart : Bool)
  | deleteNetwork (id : Uuid)
  | delete (id : Uuid) (removeVolumes : Bool)
deriving DecidableEq, Repr

-- The operation in progress, with libvirt's state before its first call.
structure Running where
  op : Op
  before : World
  rest : Job Unit

-- `unannounced` is the objects whose part of the inventory a call has changed,
-- with no event for them in the hub since; no code looks at it.
structure Env where
  world : World
  hub : List Event := []
  unannounced : List Obj := []

structure State extends Env where
  job : Option Running := none

inductive Action where
  | begin (op : Op)
  | call (fault : Option VirtError)
  | finish

def objsOf (w : World) : List Obj :=
  w.domains.keys.map (⟨.vm, ·⟩) ++ w.pools.keys.map (⟨.pool, ·⟩) ++ w.networks.keys.map (⟨.network, ·⟩)

section Machine

variable [FileSystem] [Xml.Xmltree]

def Op.job : Op → Job Unit
  | .power id action => Jobs.power id action
  | .setAutostart id on => Jobs.setAutostart id on
  | .setPoolActive id active => Jobs.setPoolActive id active
  | .setPoolAutostart id on => Jobs.setPoolAutostart id on
  | .setNetworkActive id active => Jobs.setNetworkActive id active
  | .setNetworkAutostart id on => Jobs.setNetworkAutostart id on
  | .createVolume pool xml => Jobs.createVolume pool xml
  | .deleteVolume pool name => Jobs.deleteVolume pool name
  | .createPool xml autostart => do
      let _ ← Jobs.createPool xml autostart
  | .removePool id deleteFiles removeEmptyFolder =>
      Jobs.removePool id deleteFiles removeEmptyFolder
  | .createNetwork xml autostart => do
      let _ ← Jobs.createNetwork xml autostart
  | .deleteNetwork id => Jobs.deleteNetwork id
  | .delete id removeVolumes => do
      let _ ← Delete.deleteOn id removeVolumes

-- The objects that the inventory shows differently after a change.
def touched (w w' : World) : List Obj :=
  (objsOf w ++ objsOf w').filter fun o => view w o ≠ view w' o

def Env.after (s : Env) (w : World) (events : List Event) : Env where
  world := w
  hub := s.hub ++ events
  unannounced := (s.unannounced ++ touched s.world w).filter fun o => some o ∉ events.map Event.obj

variable [Libvirtd]

-- A call may fail for a reason of its own. A call that fails changes nothing.
def Env.reply (s : Env) (fault : Option VirtError) : (c : Call) → Except Error c.Result × Env
  | .query q => (fault.elim (s.world.query q) fun e => .error (.libvirt e), s)
  | .send e => (.ok (), s.after s.world [e])
  | .command c =>
      match fault with
      | some e => (.error (.libvirt e), s)
      | none =>
          match s.world.perform c with
          | .ok p => (.ok p.result, s.after p.world p.events)
          | .error e => (.error e, s)

def step (s : State) : Action → Option State
  | .begin op =>
      match s.job with
      | none => some { s with job := some ⟨op, s.world, op.job⟩ }
      | some _ => none
  | .call fault =>
      match s.job with
      | some ⟨op, before, .call c k⟩ =>
          let (r, env) := s.toEnv.reply fault c
          some { env with job := some ⟨op, before, k r⟩ }
      | _ => none
  | .finish =>
      match s.job with
      | some ⟨_, _, .done _⟩ => some { s with job := none }
      | _ => none

end Machine

-- The calls that may fail although a change has no event yet, because the
-- operation goes on to a call that brings one: everything in a create up to the
-- undefine at its end, and the deletion of the volumes of a pool that the
-- removal started itself, because it stops the pool again.
def tolerates (op : Op) (before : World) (c : Call) : Bool :=
  match op, c with
  | .createPool .., .command (.poolUndefine _) => false
  | .createPool .., _ => true
  | .createNetwork .., .command (.networkUndefine _) => false
  | .createNetwork .., _ => true
  | .removePool id _ _, .command (.poolRefresh _) | .removePool id _ _, .command (.volDelete _)
  | .removePool id _ _, .query (.poolListAllVolumes _) =>
      (before.pools.lookup id).any fun p => !p.active
  | _, _ => false

-- No call fails while a change has no event yet, but for the tolerated ones; and
-- the delete of a VM frees no space in a pool.
def Careful [Xml.Xmltree] [Libvirtd] (s : Env) (op : Op) (before : World)
    (fault : Option VirtError) (c : Call) : Prop :=
  ((s.reply fault c).1.isOk = false → s.unannounced = [] ∨ tolerates op before c = true) ∧
  ∀ id removeVolumes v found, op = .delete id removeVolumes → c = .command (.volDelete v) →
    fault = none → s.world.vol v = .ok found → found.allocation = 0

def CarefulStep [Xml.Xmltree] [Libvirtd] (s : State) : Action → Prop
  | .call fault => ∀ op before c k, s.job = some ⟨op, before, .call c k⟩ →
      Careful s.toEnv op before fault c
  | _ => True

end Lodger.Jobs
