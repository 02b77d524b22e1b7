import Lodger.Validate
import Lodger.Xml.Write

namespace Lodger.Xml

open Validate

inductive NetworkMode where
  | nat (subnet : Ipv4Net)
  | isolated (subnet : Ipv4Net)
  | bridge (bridge : Interface)
deriving DecidableEq

structure NewNetwork where
  name : Name
  mode : NetworkMode
deriving DecidableEq

section Inputs

variable [Ipnet]

def NewNetwork.nat (name : Name) (subnet : String) : Except InputError NewNetwork := do
  let subnet ← parseSubnet "Subnet" subnet
  .ok ⟨name, .nat subnet⟩

def NewNetwork.isolated (name : Name) (subnet : String) : Except InputError NewNetwork := do
  let subnet ← parseSubnet "Subnet" subnet
  .ok ⟨name, .isolated subnet⟩

end Inputs

def NewNetwork.bridge (name : Name) (bridge : String) (hostBridges : List String) :
    Except InputError NewNetwork := do
  let bridge ← parseInterface "Host bridge" bridge
  if hostBridges.contains bridge.name then .ok ⟨name, .bridge bridge⟩
  else .error (.noSuchBridge bridge.name)

def NewNetwork.subnet (network : NewNetwork) : Option Ipv4Net :=
  match network.mode with
  | .nat subnet => some subnet
  | .isolated subnet => some subnet
  | .bridge _ => none

-- `<ip>` with the gateway and a DHCP range over every other host address.
def ip (subnet : Ipv4Net) : Element :=
  let first := subnet.network
  let last := subnet.broadcast
  (elementWith "ip" [("address", addrText (first + 1)),
      ("prefix", String.ofList (Nat.toDigits 10 subnet.prefixLen))]).push
    ((Element.new "dhcp").push
      (elementWith "range" [("start", addrText (first + 2)), ("end", addrText (last - 1))]))

def NewNetwork.element (network : NewNetwork) : Element :=
  let root := (Element.new "network").push (textElement "name" network.name.asStr)
  match network.mode with
  | .nat subnet => (root.push (elementWith "forward" [("mode", "nat")])).push (ip subnet)
  | .isolated subnet => root.push (ip subnet)
  | .bridge bridge =>
    (root.push (elementWith "forward" [("mode", "bridge")])).push
      (elementWith "bridge" [("name", bridge.name)])

-- The prefix of an address class: A is /8, B is /16, and C and above /24.
def classfulPrefix (address : Nat) : Nat :=
  if address / 2 ^ 24 ≤ 127 then 8 else if address / 2 ^ 24 ≤ 191 then 16 else 24

structure NetworkXml where
  element : Element

def NetworkXml.name (network : NetworkXml) : Option String := childText network.element "name"

-- libvirt's default forward mode is NAT. Without a `<forward>` the network is isolated.
def NetworkXml.forwardMode (network : NetworkXml) : Option String :=
  (network.element.getChild "forward").map fun forward => (attr forward "mode").getD "nat"

def NetworkXml.bridge (network : NetworkXml) : Option String :=
  (network.element.getChild "bridge").bind (attr · "name")

def subnetOf (e : Element) : Option Ipv4Net := do
  let address ← (attr e "address").bind parseAddr
  let net ← match attr e "prefix", attr e "netmask" with
    | some prefixText, _ => (parseU8 prefixText).bind (Ipv4Net.new address)
    | none, some mask => (parseAddr mask).bind (Ipv4Net.withNetmask address)
    | none, none => Ipv4Net.new address (classfulPrefix address)
  some net.trunc

-- An IPv6 address does not parse as IPv4, so it is left out.
def NetworkXml.subnets (network : NetworkXml) : List Ipv4Net :=
  (network.element.elements.filter (·.name = "ip")).filterMap subnetOf

def NewNetwork.checkAgainst (network : NewNetwork) (existing : List (String × NetworkXml)) :
    Except InputError Unit :=
  match network.subnet with
  | none => .ok ()
  | some subnet =>
    checkNoOverlap "Subnet" subnet
      (existing.flatMap fun (name, xml) => xml.subnets.map fun net => (name, net))

section Documents

variable [Xmltree] [Emitter]

def NewNetwork.toXml (network : NewNetwork) : String := write network.element

def NetworkXml.parse (xml : String) : Except XmlError NetworkXml :=
  (Xml.parse xml "network").map NetworkXml.mk

end Documents

end Lodger.Xml
