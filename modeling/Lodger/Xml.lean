import Mathlib

namespace Lodger.Xml

-- The tree of the `xmltree` crate. Comments, CDATA sections and processing
-- instructions are nodes that no function here reads.
mutual
inductive Element where
  | mk (name : String) (attributes : List (String × String)) (children : List XMLNode)
inductive XMLNode where
  | element (e : Element)
  | text (s : String)
  | other
end

-- `Element::parse` of the crate, which is not part of the repository.
class Xmltree where
  parse : String → Except String Element

inductive XmlError where
  | doctype
  | parse (message : String)
  | root (found expected : String)
deriving DecidableEq, Repr

def XmlError.text : XmlError → String
  | .doctype => "the XML has a DOCTYPE, which Lodger never accepts"
  | .parse message => "the XML does not parse: " ++ message
  | .root found expected => "the XML root is <" ++ found ++ ">, not <" ++ expected ++ ">"

def Element.name : Element → String
  | .mk name _ _ => name

def Element.attributes : Element → List (String × String)
  | .mk _ attributes _ => attributes

def Element.children : Element → List XMLNode
  | .mk _ _ children => children

def XMLNode.asElement : XMLNode → Option Element
  | .element e => some e
  | _ => none

def XMLNode.asText : XMLNode → Option String
  | .text s => some s
  | _ => none

def Element.elements (e : Element) : List Element := e.children.filterMap XMLNode.asElement

def Element.getChild (e : Element) (name : String) : Option Element :=
  e.elements.find? (·.name = name)

def attr (e : Element) (name : String) : Option String := e.attributes.lookup name

def childText (e : Element) (name : String) : Option String :=
  (e.getChild name).bind fun c => c.children.findSome? XMLNode.asText

inductive DiskSource where
  | file (path : String)
  | block (path : String)
  | volume (pool volume : String)
deriving DecidableEq, Repr

structure Disk where
  target : Option String
  source : DiskSource
  shared : Bool
deriving DecidableEq, Repr

def diskSource (e source : Element) : Option DiskSource :=
  match (attr e "type").getD "file" with
  | "file" => (attr source "file").map .file
  | "block" => (attr source "dev").map .block
  | "volume" => (attr source "pool").bind fun pool => (attr source "volume").map (.volume pool)
  | _ => none

def disk (e : Element) : Option Disk :=
  (e.getChild "source").bind fun source => (diskSource e source).map fun source => {
    target := (e.getChild "target").bind (attr · "dev")
    source
    shared := (e.getChild "readonly").isSome || (e.getChild "shareable").isSome }

def diskElements (domain : Element) : List Element :=
  match domain.getChild "devices" with
  | none => []
  | some devices => devices.elements.filter (·.name = "disk")

-- The default device of a disk is "disk".
def isData (e : Element) : Bool := (attr e "device").all (· = "disk")

structure VolumeXml where
  element : Element

def VolumeXml.backingPath (v : VolumeXml) : Option String :=
  (v.element.getChild "backingStore").bind (childText · "path")

def VolumeXml.format (v : VolumeXml) : Option String :=
  (v.element.getChild "target").bind fun target =>
    (target.getChild "format").bind (attr · "type")

section Documents

variable [Xmltree]

def parse (xml root : String) : Except XmlError Element :=
  if "<!DOCTYPE".toList <:+: xml.toList then .error .doctype
  else
    match Xmltree.parse xml with
    | .error message => .error (.parse message)
    | .ok e => if e.name = root then .ok e else .error (.root e.name root)

def domainDisks (xml : String) : Except XmlError (List Disk) :=
  (parse xml "domain").map fun domain => ((diskElements domain).filter isData).filterMap disk

def domainDiskSources (xml : String) : Except XmlError (List DiskSource) :=
  (parse xml "domain").map fun domain => ((diskElements domain).filterMap disk).map (·.source)

def domainHasVnc (xml : String) : Except XmlError Bool :=
  (parse xml "domain").map fun domain => (domain.getChild "devices").any fun devices =>
    devices.elements.any fun e => e.name = "graphics" && attr e "type" = some "vnc"

def VolumeXml.parse (xml : String) : Except XmlError VolumeXml :=
  (Xml.parse xml "volume").map VolumeXml.mk

end Documents

end Lodger.Xml
