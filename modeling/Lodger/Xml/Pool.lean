import Lodger.Validate.Lemmas
import Lodger.Xml.Write

namespace Lodger.Xml

open Validate

-- No pool may be in one of these trees.
def SYSTEM_TREES : List String :=
  ["/bin", "/boot", "/dev", "/etc", "/lib", "/lib32", "/lib64", "/proc", "/root", "/run", "/sbin",
    "/sys", "/tmp", "/usr"]

-- No pool may be one of these folders, although it may be below one.
def SYSTEM_FOLDERS : List String :=
  ["/", "/home", "/media", "/mnt", "/opt", "/srv", "/var", "/var/lib", "/var/lib/libvirt"]

def inTree (path tree : String) : Bool :=
  path = tree || (tree.toList ++ ['/']).isPrefixOf path.toList

-- The plain form of a path of existing XML.
def plain (path : String) : Option String := (parsePath "path" path).toOption

-- What `parsePath` returns.
structure PlainPath where
  text : String
  plain_text : plain text = some text
deriving DecidableEq

def plainPath (field value : String) : Except InputError PlainPath :=
  match h : parsePath field value with
  | .error e => .error e
  | .ok text => .ok ⟨text, by simp [plain, parsePath_idem h, Except.toOption]⟩

def targetPath (value : String) : Except InputError PlainPath := do
  let path ← plainPath "Pool folder" value
  if SYSTEM_TREES.any (inTree path.text) || SYSTEM_FOLDERS.contains path.text then
    .error (.systemPath "Pool folder" path.text)
  else .ok path

inductive PoolSource where
  | dir
  | nfs (host : Host) (exported : PlainPath)
deriving DecidableEq

structure NewPool where
  name : Name
  path : PlainPath
  source : PoolSource
deriving DecidableEq

def NewPool.dir (name : Name) (path : String) : Except InputError NewPool := do
  let path ← targetPath path
  .ok ⟨name, path, .dir⟩

def NewPool.nfs (name : Name) (host exported path : String) : Except InputError NewPool := do
  let path ← targetPath path
  let host ← parseHost "NFS server" host
  let exported ← plainPath "NFS export" exported
  .ok ⟨name, path, .nfs host exported⟩

def PoolSource.kind : PoolSource → String
  | .dir => "dir"
  | .nfs _ _ => "netfs"

def NewPool.element (pool : NewPool) : Element :=
  let root := (elementWith "pool" [("type", pool.source.kind)]).push
    (textElement "name" pool.name.asStr)
  let root := match pool.source with
    | .dir => root
    | .nfs host exported =>
      root.push ((((Element.new "source").push (elementWith "host" [("name", host.name)])).push
        (elementWith "dir" [("path", exported.text)])).push (elementWith "format" [("type", "nfs")]))
  root.push ((Element.new "target").push (textElement "path" pool.path.text))

structure PoolXml where
  element : Element

def PoolXml.poolType (pool : PoolXml) : Option String := attr pool.element "type"

def PoolXml.name (pool : PoolXml) : Option String := childText pool.element "name"

def PoolXml.targetPath (pool : PoolXml) : Option String :=
  (pool.element.getChild "target").bind (childText · "path")

-- The server and the export of an NFS pool.
def PoolXml.nfsSource (pool : PoolXml) : Option (String × String) := do
  if pool.poolType ≠ some "netfs" then none
  else
    let source ← pool.element.getChild "source"
    let format := (source.getChild "format").bind (attr · "type")
    if format.any fun f => f ≠ "nfs" && f ≠ "auto" then none
    else
      let host ← (source.getChild "host").bind (attr · "name")
      let exported ← (source.getChild "dir").bind (attr · "path")
      some (host, exported)

-- `str::eq_ignore_ascii_case`.
def eqIgnoreAsciiCase (a b : String) : Bool := a.toList.map Char.toLower = b.toList.map Char.toLower

def NewPool.sharesExport (pool : NewPool) (other : PoolXml) : Bool :=
  match pool.source, other.nfsSource with
  | .nfs host exported, some (otherHost, otherExport) =>
    eqIgnoreAsciiCase host.name otherHost && plain otherExport = some exported.text
  | _, _ => false

def NewPool.checkAgainst (pool : NewPool) : List (String × PoolXml) → Except InputError Unit
  | [] => .ok ()
  | (name, other) :: existing =>
    if other.targetPath.bind plain = some pool.path.text then .error (.pathInUse "Pool folder" name)
    else if pool.sharesExport other then .error (.nfsExportInUse name)
    else pool.checkAgainst existing

section Documents

variable [Xmltree] [Emitter]

def NewPool.toXml (pool : NewPool) : String := write pool.element

def PoolXml.parse (xml : String) : Except XmlError PoolXml := (Xml.parse xml "pool").map PoolXml.mk

end Documents

end Lodger.Xml
