import Lodger.Delete
import Lodger.Xml.Pool

namespace Lodger

open Lodger.Lib Lodger.Libvirt Lodger.Cache Lodger.Xml

namespace Volume

variable [FileSystem] [Xmltree]

def sortByName (volumes : List Facts) : List Facts := volumes.mergeSort fun a b => a.name ≤ b.name

def describeAll (volumes : List (VolRef × VolumeXml)) (disks overlays : List UseOf) :
    Read (List Facts) :=
  volumes.foldlM (fun out (v, xml) => do
    let facts ← describe v xml disks overlays
    return out ++ [facts]) []

-- The refresh makes libvirt look at what other programs have put there.
def volumesOn (id : Uuid) : Job (List Facts) := do
  let pool ← reading (runningPool id)
  command (.poolRefresh pool)
  let disks ← reading disksOfAllDomains
  let volumes ← reading (readVolumes pool)
  let out ← reading (describeAll volumes disks (overlaysOf volumes))
  return sortByName out

end Volume

namespace Pools

-- How libvirt writes the XML of a pool.
class PoolXmlDesc where
  xmlDesc : StoragePool → String

-- The calls of the scan: one more than the other scans make.
inductive PoolQuery where
  | query (q : Query)
  | xmlDesc (p : Ref)

def PoolQuery.Result : PoolQuery → Type
  | .query q => q.Result
  | .xmlDesc _ => String

abbrev PoolRead := Prog PoolQuery PoolQuery.Result Error

def scanning {α : Type} (p : Read α) : PoolRead α := p.lift PoolQuery.query fun _ r => r

-- `str::trim_end_matches('/')`, with one slash at the end.
def folderOf (path : String) : List Char := (path.toList.reverse.dropWhile (· = '/')).reverse ++ ['/']

def inPool (name : String) (folder : Option (List Char)) : DiskSource → Bool
  | .volume pool _ => pool = name
  | .file path | .block path => folder.any (·.isPrefixOf path.toList)

section Users

variable [Xmltree]

def diskIn (name : String) (folder : Option (List Char)) (xml : String) : Bool :=
  ((domainDisks xml).toOption.getD []).any fun disk => inPool name folder disk.source

def scanUsers (name : String) (folder : Option (List Char)) : Read (List String) := do
  let domains : List Ref ← get .listAllDomains
  domains.foldlM (fun users d => do
    let xmls ← Volume.documentsOf d
    if xmls.any (diskIn name folder) then return users ++ [d.name] else return users) []

-- The names as a sorted set.
def usersOf (pool : Ref) : PoolRead (List String) := do
  let text : String ← Prog.ask (PoolQuery.xmlDesc pool)
  let xml ← scanning (readable (PoolXml.parse text))
  let users ← scanning (scanUsers pool.name (xml.targetPath.map folderOf))
  return users.dedup.mergeSort

def poolUsers (id : Uuid) : PoolRead (List String) := do
  let pool : Ref ← Prog.ask (PoolQuery.query (.lookupStoragePoolByUuid id))
  usersOf pool

end Users

def poolQuery [Libvirtd] [PoolXmlDesc] (w : World) : (q : PoolQuery) → Except Error q.Result
  | .query q => w.query q
  | .xmlDesc p => (w.pool p.id).map fun p => (PoolXmlDesc.xmlDesc p : String)

end Pools

end Lodger
