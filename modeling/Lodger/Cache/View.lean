import Lodger.Cache

namespace Lodger.Cache

open Lodger.Lib Lodger.Libvirt

-- One object as libvirt has it, and as the inventory shows it.
inductive Thing where
  | domain (d : Domain)
  | pool (p : StoragePool)
  | network (n : Network)
deriving DecidableEq

inductive Entry where
  | vm (vm : Vm)
  | pool (pool : Pool)
  | network (net : Net)
deriving DecidableEq

def Thing.kind : Thing → Kind
  | .domain _ => .vm
  | .pool _ => .pool
  | .network _ => .network

def Thing.name : Thing → String
  | .domain d => d.name
  | .pool p => p.name
  | .network n => n.name

def thing (w : World) (o : Obj) : Option Thing :=
  match o.kind with
  | .vm => (w.domains.lookup o.id).map .domain
  | .pool => (w.pools.lookup o.id).map .pool
  | .network => (w.networks.lookup o.id).map .network

-- The world after a change of one object.
def setThing (w : World) (o : Obj) (t : Option Thing) : World :=
  match o.kind, t with
  | .vm, some (.domain d) => { w with domains := w.domains.insert o.id d }
  | .vm, none => { w with domains := w.domains.erase o.id }
  | .pool, some (.pool p) => { w with pools := w.pools.insert o.id p }
  | .pool, none => { w with pools := w.pools.erase o.id }
  | .network, some (.network n) => { w with networks := w.networks.insert o.id n }
  | .network, none => { w with networks := w.networks.erase o.id }
  | _, _ => w

def Inventory.entry (inv : Inventory) (o : Obj) : Option Entry :=
  match o.kind with
  | .vm => (inv.vms.lookup o.id).map .vm
  | .pool => (inv.pools.lookup o.id).map .pool
  | .network => (inv.networks.lookup o.id).map .network

def poolView (id : Uuid) (p : StoragePool) : Pool where
  uuid := id
  name := p.name
  state := .fromCode p.state
  capacityBytes := p.scan.capacity
  allocationBytes := p.scan.allocation
  availableBytes := p.scan.available
  persistent := p.persistent
  autostart := p.autostart

def networkView (id : Uuid) (n : Network) : Net where
  uuid := id
  name := n.name
  active := n.active
  persistent := n.persistent
  autostart := n.autostart
  bridge := n.bridge

-- The world in which the object is all there is.
def only (o : Obj) : Option Thing → World
  | some (.domain d) => ⟨.singleton o.id d, ∅, ∅⟩
  | some (.pool p) => ⟨∅, .singleton o.id p, ∅⟩
  | some (.network n) => ⟨∅, ∅, .singleton o.id n⟩
  | none => ⟨∅, ∅, ∅⟩

-- The object that a call is about, for calls that name one by its UUID.
def about : Query → Option Obj
  | .lookupDomainByUuid id => some ⟨.vm, id⟩
  | .domainInfo d | .domainXmlDesc d _ | .domainIsActive d | .domainIsPersistent d
  | .domainAutostart d => some ⟨.vm, d.id⟩
  | .lookupStoragePoolByUuid id => some ⟨.pool, id⟩
  | .poolInfo p | .poolIsActive p | .poolIsPersistent p | .poolAutostart p => some ⟨.pool, p.id⟩
  | .lookupNetworkByUuid id => some ⟨.network, id⟩
  | .networkIsActive n | .networkIsPersistent n | .networkAutostart n | .networkBridgeName n =>
      some ⟨.network, n.id⟩
  | _ => none

-- A list names the object with its name if and only if it is there.
structure Lists (o : Obj) (y : Option Thing) (refs : List Ref) : Prop where
  nodup : (refs.map (·.id)).Nodup
  named : ∀ ref ∈ refs, ref.id = o.id → y.map Thing.name = some ref.name
  found : y.isSome → o.id ∈ refs.map (·.id)

theorem lists_entries {β : Type} (l : AList fun _ : Uuid => β) (name : β → String)
    (toThing : β → Thing) (hname : ∀ b, (toThing b).name = name b) (o : Obj) :
    Lists o ((l.lookup o.id).map toThing)
      (l.entries.map fun e => (⟨e.1, name e.2⟩ : Ref)) where
  nodup := by
    rw [List.map_map]
    exact l.keys_nodup
  named ref href hid := by
    obtain ⟨e, he, rfl⟩ := List.mem_map.mp href
    have hlookup : l.lookup e.1 = some e.2 := AList.mem_lookup_iff.mpr he
    simp only at hid
    rw [← hid, hlookup]
    simp [hname]
  found h := by
    rw [List.map_map]
    have hmem : o.id ∈ l := AList.lookup_isSome.mp (by simpa using h)
    exact AList.mem_keys.mp hmem

section Views

variable [Xml.Xmltree]

def vmView (id : Uuid) (d : Domain) : Vm where
  uuid := id
  name := d.name
  state := .fromCode d.state
  vcpus := d.nrVirtCpu
  memoryKib := d.memory
  persistent := d.isPersistent
  autostart := d.autostart
  hasVnc := hasVnc (d.xmlDesc false)

def Thing.view (id : Uuid) : Thing → Entry
  | .domain d => .vm (vmView id d)
  | .pool p => .pool (poolView id p)
  | .network n => .network (networkView id n)

-- What the inventory should show of the object.
def view (w : World) (o : Obj) : Option Entry := (thing w o).map (Thing.view o.id)

end Views

section Replies

variable [Libvirtd] {w : World} {o : Obj} {y : Option Thing}

-- What a reply says about the object `o`, if libvirt has `y` for it. About any
-- other object it may say anything.
def Tells (o : Obj) (y : Option Thing) : (q : Query) → Except Error q.Result → Prop
  | .listAllDomains, r => o.kind = .vm → ∃ refs, r = .ok refs ∧ Lists o y refs
  | .listAllStoragePools, r => o.kind = .pool → ∃ refs, r = .ok refs ∧ Lists o y refs
  | .listAllNetworks, r => o.kind = .network → ∃ refs, r = .ok refs ∧ Lists o y refs
  | q, r => about q = some o → r = (only o y).query q

theorem query_only {q : Query} (h : about q = some o) :
    w.query q = (only o (thing w o)).query q := by
  cases q <;> simp only [about, Option.some.injEq, reduceCtorEq] at h <;> subst h <;>
    simp only [World.query, World.domain, World.pool, World.network, thing]
  case lookupDomainByUuid id | domainInfo d | domainXmlDesc d _ | domainIsActive d |
      domainIsPersistent d | domainAutostart d =>
    cases h : w.domains.lookup _ <;> simp [only, AList.lookup]
  case lookupStoragePoolByUuid id | poolInfo p | poolIsActive p | poolIsPersistent p |
      poolAutostart p =>
    cases h : w.pools.lookup _ <;> simp [only, AList.lookup]
  case lookupNetworkByUuid id | networkIsActive n | networkIsPersistent n | networkAutostart n |
      networkBridgeName n =>
    cases h : w.networks.lookup _ <;> simp [only, AList.lookup]

theorem tells_query (w : World) (o : Obj) (q : Query) : Tells o (thing w o) q (w.query q) := by
  cases q with
  | listAllDomains =>
      intro h
      refine ⟨_, rfl, ?_⟩
      simpa [thing, h] using lists_entries w.domains (·.name) .domain (fun _ => rfl) o
  | listAllStoragePools =>
      intro h
      refine ⟨_, rfl, ?_⟩
      simpa [thing, h] using lists_entries w.pools (·.name) .pool (fun _ => rfl) o
  | listAllNetworks =>
      intro h
      refine ⟨_, rfl, ?_⟩
      simpa [thing, h] using lists_entries w.networks (·.name) .network (fun _ => rfl) o
  | _ => exact query_only

end Replies

end Lodger.Cache
