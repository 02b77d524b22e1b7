import Lodger.Libvirt

namespace Lodger.Libvirt

open Lodger.Lib

-- The calls that change something.
inductive Command where
  | domainCreate (d : Ref)
  | domainShutdownFlags (d : Ref) (flags : Nat)
  | domainDestroy (d : Ref)
  | domainReboot (d : Ref) (flags : Nat)
  | domainSuspend (d : Ref)
  | domainResume (d : Ref)
  | domainSetAutostart (d : Ref) (on : Bool)
  | domainUndefineFlags (d : Ref) (flags : Nat)
  | defineStoragePoolXml (xml : String)
  | poolBuild (p : Ref)
  | poolCreate (p : Ref)
  | poolDestroy (p : Ref)
  | poolDelete (p : Ref)
  | poolUndefine (p : Ref)
  | poolRefresh (p : Ref)
  | poolSetAutostart (p : Ref) (on : Bool)
  | defineNetworkXml (xml : String)
  | networkCreate (n : Ref)
  | networkDestroy (n : Ref)
  | networkUndefine (n : Ref)
  | networkSetAutostart (n : Ref) (on : Bool)
  | volCreateXml (p : Ref) (xml : String)
  | volDelete (v : VolRef)
deriving DecidableEq, Repr

def Command.Result : Command → Type
  | .defineStoragePoolXml _ | .defineNetworkXml _ => Ref
  | _ => Unit

section Updates

variable (w : World)

def World.setDomain (id : Uuid) (d : Domain) : World := { w with domains := w.domains.insert id d }
def World.setPool (id : Uuid) (p : StoragePool) : World := { w with pools := w.pools.insert id p }
def World.setNetwork (id : Uuid) (n : Network) : World :=
  { w with networks := w.networks.insert id n }
def World.eraseDomain (id : Uuid) : World := { w with domains := w.domains.erase id }
def World.erasePool (id : Uuid) : World := { w with pools := w.pools.erase id }
def World.eraseNetwork (id : Uuid) : World := { w with networks := w.networks.erase id }

-- A transient object is gone when it stops.
def World.stopDomain (id : Uuid) (d : Domain) : World :=
  match d.config with
  | .running (some saved) _ => w.setDomain id { d with state := 5, config := .shutOff saved }
  | _ => w.eraseDomain id

def World.stopPool (id : Uuid) (p : StoragePool) : World :=
  if p.persistent then w.setPool id { p with active := false, state := 0 } else w.erasePool id

def World.stopNetwork (id : Uuid) (n : Network) : World :=
  if n.persistent then w.setNetwork id { n with active := false } else w.eraseNetwork id

def Scan.add (scan : Scan) (v : Vol) : Scan where
  volumes := scan.volumes ++ [v]
  capacity := scan.capacity
  allocation := scan.allocation + v.allocation
  available := scan.available - v.allocation

def Scan.remove (scan : Scan) (v : Vol) : Scan where
  volumes := scan.volumes.filter (·.name ≠ v.name)
  capacity := scan.capacity
  allocation := scan.allocation - v.allocation
  available := scan.available + v.allocation

end Updates

-- What a successful call leaves, with the events that libvirt sends for it: it
-- sends one for each define, undefine, start and stop and for a pause and a
-- resume, and none for the rest.
structure Performed (α : Type) where
  result : α
  world : World
  events : List Event := []

def domainEvent (id : Uuid) (event : Int) : Event := .domain id (.lifecycle event 0)

variable [Libvirtd]

def World.perform (w : World) : (c : Command) → Except Error (Performed c.Result)
  | .domainCreate d => do
      let x ← w.domain d.id
      match x.config with
      | .shutOff saved => .ok {
          result := ()
          world := w.setDomain d.id { x with
            state := 1, config := .running (some saved) (Libvirtd.liveXml saved) }
          events := [domainEvent d.id 2] }
      | .running .. => .error operationInvalid
  | .domainShutdownFlags d _ => do
      let x ← w.domain d.id
      if ¬x.isActive then .error operationInvalid
      else if Libvirtd.stopsAtOnce x then
        .ok { result := (), world := w.stopDomain d.id x, events := [domainEvent d.id 5] }
      else .ok { result := (), world := w }
  | .domainDestroy d => do
      let x ← w.domain d.id
      if x.isActive then
        .ok { result := (), world := w.stopDomain d.id x, events := [domainEvent d.id 5] }
      else .error operationInvalid
  | .domainReboot d _ => do
      let x ← w.domain d.id
      if x.isActive then .ok { result := (), world := w } else .error operationInvalid
  | .domainSuspend d => do
      let x ← w.domain d.id
      if x.isActive then
        .ok { result := (), world := w.setDomain d.id { x with state := 3 },
              events := [domainEvent d.id 3] }
      else .error operationInvalid
  | .domainResume d => do
      let x ← w.domain d.id
      if x.isActive then
        .ok { result := (), world := w.setDomain d.id { x with state := 1 },
              events := [domainEvent d.id 4] }
      else .error operationInvalid
  | .domainSetAutostart d on => do
      let x ← w.domain d.id
      if x.isPersistent then
        .ok { result := (), world := w.setDomain d.id { x with autostart := on } }
      else .error operationInvalid
  | .domainUndefineFlags d _ => do
      let x ← w.domain d.id
      match x.config with
      | .shutOff _ =>
          .ok { result := (), world := w.eraseDomain d.id, events := [domainEvent d.id 1] }
      | .running (some _) live => .ok {
          result := ()
          world := w.setDomain d.id { x with config := .running none live }
          events := [domainEvent d.id 1] }
      | .running none _ => .error operationInvalid
  | .defineStoragePoolXml xml =>
      match Libvirtd.definePool xml w with
      | .error e => .error (.libvirt e)
      | .ok (id, p) =>
          -- Two pools never share a name.
          if w.pools.entries.any fun e => e.1 ≠ id && e.2.name = p.name then
            .error (.libvirt ⟨.other, "the pool exists already"⟩)
          else .ok {
            result := (⟨id, p.name⟩ : Ref)
            world := w.setPool id p
            events := [.pool id 0] }
  | .poolBuild p | .poolDelete p => do
      let x ← w.pool p.id
      if x.active then .error operationInvalid else .ok { result := (), world := w }
  | .poolCreate p => do
      let x ← w.pool p.id
      if x.active then .error operationInvalid
      else .ok {
        result := ()
        world := w.setPool p.id { x with active := true, state := 2, scan := x.storage }
        events := [.pool p.id 2] }
  | .poolDestroy p => do
      let x ← w.activePool p.id
      .ok { result := (), world := w.stopPool p.id x, events := [.pool p.id 3] }
  | .poolUndefine p => do
      let x ← w.pool p.id
      if x.active || !x.persistent then .error operationInvalid
      else .ok { result := (), world := w.erasePool p.id, events := [.pool p.id 1] }
  | .poolRefresh p => do
      let x ← w.activePool p.id
      .ok { result := (), world := w.setPool p.id { x with scan := x.storage } }
  | .poolSetAutostart p on => do
      let x ← w.pool p.id
      if x.persistent then
        .ok { result := (), world := w.setPool p.id { x with autostart := on } }
      else .error operationInvalid
  | .defineNetworkXml xml =>
      match Libvirtd.defineNetwork xml w with
      | .error e => .error (.libvirt e)
      | .ok (id, n) => .ok {
          result := (⟨id, n.name⟩ : Ref)
          world := w.setNetwork id n
          events := [.network id 0] }
  | .networkCreate n => do
      let x ← w.network n.id
      if x.active then .error operationInvalid
      else .ok {
        result := ()
        world := w.setNetwork n.id { x with active := true }
        events := [.network n.id 2] }
  | .networkDestroy n => do
      let x ← w.network n.id
      if x.active then
        .ok { result := (), world := w.stopNetwork n.id x, events := [.network n.id 3] }
      else .error operationInvalid
  | .networkUndefine n => do
      let x ← w.network n.id
      if ¬x.persistent then .error operationInvalid
      -- A network that runs goes on as a transient one.
      else .ok {
        result := ()
        world := if x.active then w.setNetwork n.id { x with persistent := false }
          else w.eraseNetwork n.id
        events := [.network n.id 1] }
  | .networkSetAutostart n on => do
      let x ← w.network n.id
      if x.persistent then
        .ok { result := (), world := w.setNetwork n.id { x with autostart := on } }
      else .error operationInvalid
  | .volCreateXml p xml => do
      let x ← w.activePool p.id
      match Libvirtd.createVol xml x with
      | .error e => .error (.libvirt e)
      | .ok v =>
          if x.scan.volumes.any (·.name = v.name) then
            .error (.libvirt ⟨.other, "the storage volume exists already"⟩)
          else .ok {
            result := ()
            world := w.setPool p.id { x with scan := x.scan.add v, storage := x.storage.add v } }
  | .volDelete v =>
      match w.poolByName v.pool with
      | none => .error noStoragePool
      | some (id, p) =>
          if p.active then (p.vol v.name).map fun found => {
            result := ()
            world := w.setPool id { p with
              scan := p.scan.remove found, storage := p.storage.remove found } }
          else .error operationInvalid

-- What the code of a job does: it reads, it makes changes, and it sends events of
-- its own to the hub.
inductive Call where
  | query (q : Query)
  | command (c : Command)
  | send (e : Event)
deriving DecidableEq, Repr

def Call.Result : Call → Type
  | .query q => q.Result
  | .command c => c.Result
  | .send _ => Unit

abbrev Job := Prog Call Call.Result Error

def query (q : Query) : Job q.Result := Prog.ask (Call.query q)
def command (c : Command) : Job c.Result := Prog.ask (Call.command c)
def send (e : Event) : Job Unit := Prog.ask (Call.send e)

def reading {α : Type} (p : Prog Query Query.Result Error α) : Job α :=
  p.lift Call.query fun _ r => r

omit [Libvirtd] in
theorem reading_calls {α : Type} {P : Call → Prop} (h : ∀ q, P (.query q))
    (p : Prog Query Query.Result Error α) : (reading p).Calls P := by
  induction p with
  | done r => trivial
  | call q k ih => exact ⟨h q, fun r => ih _⟩

omit [Libvirtd] in
theorem reading_wp {σ α : Type} {may : σ → (c : Call) → Except Error c.Result → σ → Prop} {s : σ}
    {post : Except Error α → σ → Prop} {p : Prog Query Query.Result Error α}
    (h : p.Wp (fun s q r t => may s (.query q) r t) post s) : (reading p).Wp may post s := by
  induction p generalizing s with
  | done r => exact h
  | call q k ih =>
      intro r t hr
      have hmap : r.map (fun a => a) = r := by cases r <;> rfl
      simp only
      rw [hmap]
      exact ih r (h r t hr)

end Lodger.Libvirt
