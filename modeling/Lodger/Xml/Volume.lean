import Lodger.Validate
import Lodger.Xml.Write

namespace Lodger.Xml

open Validate

def MIN_BYTES : Nat := 2 ^ 20
def MAX_BYTES : Nat := 2 ^ 50

inductive VolumeFormat where
  | qcow2
  | raw
deriving DecidableEq, Repr

def VolumeFormat.asStr : VolumeFormat → String
  | .qcow2 => "qcow2"
  | .raw => "raw"

structure NewVolume where
  name : Name
  format : VolumeFormat
  capacityBytes : Nat
  inRange : MIN_BYTES ≤ capacityBytes ∧ capacityBytes ≤ MAX_BYTES
deriving DecidableEq

def NewVolume.new (name : Name) (format : VolumeFormat) (capacityBytes : Nat) :
    Except InputError NewVolume :=
  if h : MIN_BYTES ≤ capacityBytes ∧ capacityBytes ≤ MAX_BYTES then
    .ok ⟨name, format, capacityBytes, h⟩
  else .error (.sizeOutOfRange "size" MIN_BYTES MAX_BYTES)

def NewVolume.element (volume : NewVolume) : Element :=
  let root := (Element.new "volume").push (textElement "name" volume.name.asStr)
  let root := root.push ((elementWith "capacity" [("unit", "bytes")]).pushText
    (String.ofList (Nat.toDigits 10 volume.capacityBytes)))
  root.push ((Element.new "target").push (elementWith "format" [("type", volume.format.asStr)]))

def NewVolume.checkAgainst (volume : NewVolume) (pool : String) (existing : List String) :
    Except InputError Unit :=
  if existing.any (· = volume.name.asStr) then
    .error (.volumeNameInUse pool volume.name.asStr)
  else .ok ()

def VolumeXml.name (volume : VolumeXml) : Option String := childText volume.element "name"

section Documents

variable [Emitter]

def NewVolume.toXml (volume : NewVolume) : String := write volume.element

end Documents

end Lodger.Xml
