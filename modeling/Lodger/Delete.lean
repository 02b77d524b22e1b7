import Lodger.Cache
import Lodger.Libvirt.Command

namespace Lodger

open Lodger.Lib Lodger.Libvirt Lodger.Cache Lodger.Xml

-- `std::fs::canonicalize`; `none` for a path that it cannot resolve.
class FileSystem where
  canonicalize : String → Option String

section Paths

variable [FileSystem]

def canonical (path : String) : String := (FileSystem.canonicalize path).getD path

-- libvirt's path of a disk: the volume's own path when a pool holds it, else
-- the path as written.
def pathOf : DiskSource → Read (Option String)
  | .file path | .block path => do
      let found ← Prog.attempt do
        let v : VolRef ← get (.lookupStorageVolByPath path)
        get (.volPath v)
      return some (found.toOption.getD path)
  | .volume pool volume => do
      let found ← Prog.attempt do
        let p : Ref ← get (.lookupStoragePoolByName pool)
        let v : VolRef ← get (.poolLookupStorageVolByName p volume)
        get (.volPath v)
      return found.toOption

end Paths

-- A document that Lodger cannot read is an error of its own.
def readable {α : Type} : Except XmlError α → Read α
  | .ok a => return a
  | .error e => .fail (.xml e)

namespace Delete

inductive SkipReason where
  | usedBy (name : String)
  | shared
  | notInPool
  | failed (message : String)
deriving DecidableEq, Repr

structure Skipped where
  path : String
  reason : SkipReason
deriving DecidableEq, Repr

structure Removal where
  removed : List String := []
  skipped : List Skipped := []
deriving DecidableEq, Repr

structure Target where
  path : String
  key : String
  shared : Bool
deriving DecidableEq, Repr

-- The name and the documents of a domain, or `none` for domain `id`.
def disksConfig (d : Ref) (id : Uuid) : Read (Option (String × List String)) :=
  if d.id = id then return none
  else do
    let saved : String ← get (.domainXmlDesc d true)
    let active : Bool ← get (.domainIsActive d)
    if active then
      let live : String ← get (.domainXmlDesc d false)
      let name : String ← get (.domainName d)
      return some (name, [saved, live])
    else
      let name : String ← get (.domainName d)
      return some (name, [saved])

def VIR_DOMAIN_UNDEFINE_MANAGED_SAVE : Nat := 1
def VIR_DOMAIN_UNDEFINE_SNAPSHOTS_METADATA : Nat := 2
def VIR_DOMAIN_UNDEFINE_NVRAM : Nat := 4
def VIR_DOMAIN_UNDEFINE_CHECKPOINTS_METADATA : Nat := 16

def undefine (d : Ref) : Job Unit := do
  let all := VIR_DOMAIN_UNDEFINE_NVRAM ||| VIR_DOMAIN_UNDEFINE_MANAGED_SAVE |||
    VIR_DOMAIN_UNDEFINE_SNAPSHOTS_METADATA ||| VIR_DOMAIN_UNDEFINE_CHECKPOINTS_METADATA
  match ← (command (.domainUndefineFlags d all)).attempt with
  | .ok () => return ()
  | .error e =>
      if e.isCode .invalidArg then
        command (.domainUndefineFlags d
          (VIR_DOMAIN_UNDEFINE_MANAGED_SAVE ||| VIR_DOMAIN_UNDEFINE_SNAPSHOTS_METADATA))
      else .fail e

-- Why a disk stays, if it does: the volume of the disk is deleted here.
def removeTarget (users : List (String × String)) (target : Target) : Job (Option SkipReason) := do
  if target.shared then return some .shared
  else
    match users.lookup target.key with
    | some user => return some (.usedBy user)
    | none =>
        match ← (query (.lookupStorageVolByPath target.path)).attempt with
        | .ok v =>
            match ← (command (.volDelete v)).attempt with
            | .ok () => return none
            | .error e => return some (.failed e.message)
        | .error e =>
            if e.isCode .noStorageVolume then return some .notInPool
            else return some (.failed e.message)

def removeTargets (users : List (String × String)) (targets : List Target) (report : Removal) :
    Job Removal :=
  targets.foldlM (fun report target => do
    match ← removeTarget users target with
    | none => return { report with removed := report.removed ++ [target.path] }
    | some reason => return { report with skipped := report.skipped ++ [⟨target.path, reason⟩] })
    report

section Disks

variable [FileSystem]

-- A pool volume that libvirt cannot find goes to the report as skipped.
def resolve (disks : List Disk) : Read (List Target × Removal) :=
  disks.foldlM (fun (targets, report) disk => do
    match ← pathOf disk.source, disk.source with
    | some path, _ =>
        return (targets ++ [⟨path, canonical path, disk.shared⟩], report)
    | none, .volume pool volume =>
        return (targets, { report with
          skipped := report.skipped ++ [⟨pool ++ "/" ++ volume, .notInPool⟩] })
    | none, _ => return (targets, report)) ([], {})

-- The entries of the hash map in the order of their insertion: the first one of
-- a key counts.
def addUsers (name : String) (disks : List Disk) (users : List (String × String)) :
    Read (List (String × String)) :=
  disks.foldlM (fun users disk => do
    match ← pathOf disk.source with
    | some path => return users ++ [(canonical path, name)]
    | none => return users) users

variable [Xmltree]

def pathsOfOtherDomains (domains : List Ref) (id : Uuid) : Read (List (String × String)) :=
  domains.foldlM (fun users d => do
    match ← (disksConfig d id).attempt with
    | .ok none => return users
    | .ok (some (name, xmls)) =>
        xmls.foldlM (fun users xml => do
          let disks ← readable (domainDisks xml)
          addUsers name disks users) users
    | .error e => if e.isCode .noDomain then return users else .fail e) []

def deleteOn (id : Uuid) (removeVolumes : Bool) : Job Removal := do
  let d : Ref ← query (.lookupDomainByUuid id)
  let active : Bool ← query (.domainIsActive d)
  if active then .fail (.wrongState "shut the VM down first")
  else
    -- Every disk is read before the undefine: afterwards the XML is gone.
    let (targets, report) ← reading do
      if removeVolumes then
        let xml : String ← get (.domainXmlDesc d true)
        let disks ← readable (domainDisks xml)
        resolve disks
      else return ([], {})
    let users ← reading do
      if targets.isEmpty then return []
      else
        let domains : List Ref ← get .listAllDomains
        pathsOfOtherDomains domains id
    undefine d
    match ← (query (.lookupDomainByUuid id)).attempt with
    | .ok _ => .fail (.wrongState ("the VM started during the delete: libvirt removed its " ++
        "definition, but it runs until it stops, and every disk stays"))
    | .error e =>
        if e.isCode .noDomain then removeTargets users targets report
        else .fail e

end Disks

end Delete

namespace Volume

inductive VolumeKind where
  | file
  | block
  | dir
  | network
  | netDir
  | ploop
  | unknown
deriving DecidableEq, Repr

def VolumeKind.fromCode : Nat → VolumeKind
  | 0 => .file
  | 1 => .block
  | 2 => .dir
  | 3 => .network
  | 4 => .netDir
  | 5 => .ploop
  | _ => .unknown

structure Facts where
  name : String
  key : String
  path : String
  kind : VolumeKind
  format : Option String
  capacityBytes : Nat
  allocationBytes : Nat
  usedBy : List String
  backingFor : List String
deriving DecidableEq, Repr

structure UseOf where
  key : String
  user : String
deriving DecidableEq, Repr

-- libvirt lists and changes volumes only while the pool runs.
def runningPool (id : Uuid) : Read Ref := do
  let pool : Ref ← get (.lookupStoragePoolByUuid id)
  let active : Bool ← get (.poolIsActive pool)
  if active then return pool else .fail (.wrongState "the pool is not running")

-- The names in `uses` that use the file, as a sorted set.
def usersOf (key : String) (uses : List UseOf) : List String :=
  (((uses.filter (·.key = key)).map (·.user)).dedup).mergeSort

section Uses

variable [FileSystem]

def overlaysOf (volumes : List (VolRef × VolumeXml)) : List UseOf :=
  volumes.filterMap fun (v, xml) => xml.backingPath.map fun path => ⟨canonical path, v.name⟩

def describe (v : VolRef) (xml : VolumeXml) (disks overlays : List UseOf) : Read Facts := do
  let info : VolInfo ← get (.volInfo v)
  let path : String ← get (.volPath v)
  return {
    name := v.name
    key := v.key
    path
    kind := .fromCode info.kind
    format := xml.format
    capacityBytes := info.capacity
    allocationBytes := info.allocation
    usedBy := usersOf (canonical path) disks
    backingFor := usersOf (canonical path) overlays }

def addUses (name : String) (sources : List DiskSource) (uses : List UseOf) : Read (List UseOf) :=
  sources.foldlM (fun uses source => do
    match ← pathOf source with
    | some path => return uses ++ [⟨canonical path, name⟩]
    | none => return uses) uses

variable [Xmltree]

def readVolumes (p : Ref) : Read (List (VolRef × VolumeXml)) := do
  let volumes : List VolRef ← get (.poolListAllVolumes p)
  volumes.foldlM (fun out v => do
    let text : String ← get (.volXmlDesc v)
    let xml ← readable (VolumeXml.parse text)
    return out ++ [(v, xml)]) []

-- The documents that can be read: the saved one and, of a running domain, the
-- live one.
def documentsOf (d : Ref) : Read (List String) := do
  let saved : Except Error String ← (get (.domainXmlDesc d true)).attempt
  let active : Except Error Bool ← (get (.domainIsActive d)).attempt
  if active.toOption.getD false then
    let live : Except Error String ← (get (.domainXmlDesc d false)).attempt
    return saved.toOption.toList ++ live.toOption.toList
  else return saved.toOption.toList

def disksOfAllDomains : Read (List UseOf) := do
  let domains : List Ref ← get .listAllDomains
  domains.foldlM (fun uses d => do
    let name : Except Error String ← (get (.domainName d)).attempt
    match name with
    | .error _ => return uses
    | .ok name =>
        let xmls ← documentsOf d
        xmls.foldlM (fun uses xml =>
          addUses name ((domainDiskSources xml).toOption.getD []) uses) uses) []

def factsOf (id : Uuid) (name : String) : Read (VolRef × Facts) := do
  let pool ← runningPool id
  let v : VolRef ← get (.poolLookupStorageVolByName pool name)
  let text : String ← get (.volXmlDesc v)
  let xml ← readable (VolumeXml.parse text)
  let volumes ← readVolumes pool
  let disks ← disksOfAllDomains
  let facts ← describe v xml disks (overlaysOf volumes)
  return (v, facts)

def deleteOn (id : Uuid) (name : String) : Job Unit := do
  let (v, facts) ← reading (factsOf id name)
  let users := facts.usedBy ++ facts.backingFor.map ("volume " ++ ·)
  if users.isEmpty then command (.volDelete v) else .fail (.inUse users)

end Uses

end Volume

end Lodger
