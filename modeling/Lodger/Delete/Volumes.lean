import Lodger.Delete.Scan

namespace Lodger.Volume

open Lodger.Lib Lodger.Libvirt Lodger.Cache Lodger.Xml
open Delete (documents domain_of_mem)
open Jobs (pool_eq_ok activePool_eq_ok)

section Uses

variable [Libvirtd] [FileSystem] (w : World)

-- The entry that one disk of a VM adds.
def sourceUseOf (name : String) (source : DiskSource) : List UseOf :=
  ((diskPath w source).map fun path => ⟨canonical path, name⟩).toList

-- The sources of all disks of a document, if it can be read.
def allSources [Xmltree] (xml : String) : List DiskSource := (domainDiskSources xml).toOption.getD []

def domainUseOf [Xmltree] (e : Sigma fun _ : Uuid => Domain) : List UseOf :=
  (documents e.2).flatMap fun xml => (allSources xml).flatMap (sourceUseOf w e.2.name)

-- A disk of the domain, of any device, leads to the file.
def LeadsTo [Xmltree] (d : Domain) (key : String) : Prop :=
  ∃ xml ∈ documents d, ∃ source ∈ allSources xml, ∃ path,
    diskPath w source = some path ∧ canonical path = key

variable {w}

theorem addUses_eval (name : String) (sources : List DiskSource) (uses : List UseOf) :
    (addUses name sources uses).eval w.query =
      .ok (uses ++ sources.flatMap (sourceUseOf w name)) := by
  rw [addUses, Prog.eval_foldlM]
  apply foldlM_append_ok
  intro uses source _
  rw [Prog.eval_bind, pathOf_eval]
  cases hp : diskPath w source with
  | none => simp [sourceUseOf, hp, bind, Except.bind]
  | some path => simp [sourceUseOf, hp, bind, Except.bind]

omit [FileSystem] in
theorem eval_attempt_get_bind {α : Type} (q : Query) (f : Except Error q.Result → Read α) :
    ((Cache.get q).attempt >>= f).eval w.query = (f (w.query q)).eval w.query := rfl

omit [FileSystem] in
theorem documentsOf_eval {e : Sigma fun _ : Uuid => Domain} (he : e ∈ w.domains.entries) :
    (documentsOf ⟨e.1, e.2.name⟩).eval w.query = .ok (documents e.2) := by
  have hdomain := domain_of_mem he
  have hxml : ∀ inactive, w.query (.domainXmlDesc ⟨e.1, e.2.name⟩ inactive) =
      .ok (e.2.xmlDesc inactive : String) := by
    intro inactive
    simp [World.query, hdomain, Except.map]
  have hactive : w.query (.domainIsActive ⟨e.1, e.2.name⟩) = .ok (e.2.isActive : Bool) := by
    simp [World.query, hdomain, Except.map]
  refine (eval_attempt_get_bind _ _).trans ?_
  rw [hxml]
  refine (eval_attempt_get_bind _ _).trans ?_
  rw [hactive]
  by_cases ha : e.2.isActive = true
  · simp only [Except.toOption, Option.getD_some, ha, if_true]
    refine (eval_attempt_get_bind _ _).trans ?_
    rw [hxml]
    simp [documents, ha]
  · simp [documents, ha, Except.toOption]

variable [Xmltree]

theorem disksOfAllDomains_eval :
    disksOfAllDomains.eval w.query = .ok (w.domains.entries.flatMap (domainUseOf w)) := by
  refine (eval_get_bind _ _).trans ?_
  show Prog.eval w.query ((w.domains.entries.map fun e => (⟨e.1, e.2.name⟩ : Ref)).foldlM _ []) = _
  rw [Prog.eval_foldlM, List.foldlM_map]
  refine (foldlM_append_ok ?_).trans (by rw [List.nil_append])
  intro uses e he
  refine (eval_attempt_get_bind _ _).trans ?_
  refine (Prog.eval_bind _ _).trans ?_
  rw [documentsOf_eval he]
  show Prog.eval w.query ((documents e.2).foldlM _ uses) = _
  rw [Prog.eval_foldlM]
  apply foldlM_append_ok
  intro uses xml _
  exact addUses_eval e.2.name (allSources xml) uses

theorem mem_disks {key user : String} : ⟨key, user⟩ ∈ w.domains.entries.flatMap (domainUseOf w) ↔
    ∃ e ∈ w.domains.entries, user = e.2.name ∧ LeadsTo w e.2 key := by
  simp only [List.mem_flatMap, domainUseOf, sourceUseOf, Option.mem_toList, Option.map_eq_some_iff]
  constructor
  · rintro ⟨e, he, xml, hxml, source, hsource, path, hpath, heq⟩
    cases heq
    exact ⟨e, he, rfl, xml, hxml, source, hsource, path, hpath, rfl⟩
  · rintro ⟨e, he, rfl, xml, hxml, source, hsource, path, hpath, rfl⟩
    exact ⟨e, he, xml, hxml, source, hsource, path, hpath, rfl⟩

end Uses

theorem mem_usersOf {key user : String} {uses : List UseOf} :
    user ∈ usersOf key uses ↔ ⟨key, user⟩ ∈ uses := by
  simp only [usersOf, List.mem_mergeSort, List.mem_dedup, List.mem_map, List.mem_filter,
    decide_eq_true_eq]
  constructor
  · rintro ⟨use, ⟨huse, rfl⟩, rfl⟩
    exact huse
  · intro huse
    exact ⟨_, ⟨huse, rfl⟩, rfl⟩

theorem usersOf_ne_nil {key : String} {uses : List UseOf} :
    usersOf key uses ≠ [] ↔ ∃ user, ⟨key, user⟩ ∈ uses := by
  constructor
  · intro h
    obtain ⟨user, hu⟩ := List.exists_mem_of_ne_nil _ h
    exact ⟨user, mem_usersOf.mp hu⟩
  · rintro ⟨user, hu⟩
    exact List.ne_nil_of_mem (mem_usersOf.mpr hu)

section Volumes

variable [Libvirtd] [FileSystem] [Xmltree] {w : World} {id : Uuid} {p : StoragePool}

-- Every volume of the pool has a document that can be read.
def AllParse (p : StoragePool) : Prop :=
  ∀ vol ∈ p.scan.volumes, ∃ xml, VolumeXml.parse vol.xml = .ok xml

def volumeXml (p : StoragePool) (vol : Vol) : List (VolRef × VolumeXml) :=
  ((VolumeXml.parse vol.xml).toOption.map fun xml => (p.volRef vol, xml)).toList

-- A volume of the pool has the file as its backing file.
def BackingFor (p : StoragePool) (key : String) : Prop :=
  ∃ vol ∈ p.scan.volumes, ∃ xml, VolumeXml.parse vol.xml = .ok xml ∧
    ∃ path, xml.backingPath = some path ∧ canonical path = key

-- What the loop of `readVolumes` does with one volume.
def readVolume (out : List (VolRef × VolumeXml)) (v : VolRef) : Read (List (VolRef × VolumeXml)) := do
  let text : String ← Cache.get (.volXmlDesc v)
  let xml ← readable (VolumeXml.parse text)
  return out ++ [(v, xml)]

omit [FileSystem] in
theorem readVolume_eval (hlaw : Lawful w) (hp : w.pools.lookup id = some p) (ha : p.active = true)
    {vol : Vol} (hvol : vol ∈ p.scan.volumes) (out : List (VolRef × VolumeXml)) :
    (readVolume out (p.volRef vol)).eval w.query = ((VolumeXml.parse vol.xml).mapError .xml).map
      fun xml => out ++ [(p.volRef vol, xml)] := by
  have hxml : w.query (.volXmlDesc (p.volRef vol)) = .ok (vol.xml : String) := by
    simp [World.query, hlaw.world_vol hp ha hvol, Except.map]
  refine (eval_get_bind _ _).trans ?_
  rw [hxml]
  show ((readable (VolumeXml.parse vol.xml)) >>= _).eval w.query = _
  rw [Prog.eval_bind]
  cases VolumeXml.parse vol.xml with
  | error e => rfl
  | ok xml => rfl

omit [FileSystem] in
theorem readVolumes_loop (hp : w.pools.lookup id = some p) (ha : p.active = true) (name : String) :
    (readVolumes ⟨id, name⟩).eval w.query =
      p.scan.volumes.foldlM (fun out vol => (readVolume out (p.volRef vol)).eval w.query) [] := by
  have hlist : w.query (.poolListAllVolumes ⟨id, name⟩) =
      .ok (p.scan.volumes.map p.volRef : List VolRef) := by
    simp [World.query, activePool_eq_ok.mpr ⟨pool_eq_ok.mpr hp, ha⟩, Except.map]
  refine (eval_get_bind _ _).trans ?_
  rw [hlist]
  show Prog.eval w.query ((p.scan.volumes.map p.volRef).foldlM readVolume []) = _
  rw [Prog.eval_foldlM, List.foldlM_map]

omit [FileSystem] in
theorem readVolumes_eval (hlaw : Lawful w) (hp : w.pools.lookup id = some p) (ha : p.active = true)
    (name : String) (out : List (VolRef × VolumeXml)) :
    (readVolumes ⟨id, name⟩).eval w.query = .ok out ↔
      AllParse p ∧ out = p.scan.volumes.flatMap (volumeXml p) := by
  rw [readVolumes_loop hp ha]
  constructor
  · intro h
    refine foldlM_append_eq_ok (fun vol => ∃ xml, VolumeXml.parse vol.xml = .ok xml) ?_ h
    intro out out' vol hvol hstep
    rw [readVolume_eval hlaw hp ha hvol, except_map_eq_ok] at hstep
    obtain ⟨xml, hx, rfl⟩ := hstep
    rw [except_mapError_eq_ok] at hx
    exact ⟨⟨xml, hx⟩, by simp [volumeXml, hx, Except.toOption]⟩
  · rintro ⟨hall, rfl⟩
    refine (foldlM_append_ok ?_).trans (by rw [List.nil_append])
    intro out vol hvol
    obtain ⟨xml, hx⟩ := hall vol hvol
    rw [readVolume_eval hlaw hp ha hvol]
    simp [hx, volumeXml, Except.toOption, Except.mapError, Except.map]

omit [Libvirtd] in
theorem mem_overlays {key user : String} :
    ⟨key, user⟩ ∈ overlaysOf (p.scan.volumes.flatMap (volumeXml p)) ↔
      ∃ vol ∈ p.scan.volumes, user = vol.name ∧ ∃ xml, VolumeXml.parse vol.xml = .ok xml ∧
        ∃ path, xml.backingPath = some path ∧ canonical path = key := by
  simp only [overlaysOf, List.mem_filterMap, List.mem_flatMap, volumeXml, Option.mem_toList,
    Option.map_eq_some_iff]
  constructor
  · rintro ⟨x, ⟨vol, hvol, xml, hxml, rfl⟩, path, hpath, heq⟩
    cases heq
    cases hx : VolumeXml.parse vol.xml with
    | error e => simp [hx, Except.toOption] at hxml
    | ok found =>
        obtain rfl : found = xml := by simpa [hx, Except.toOption] using hxml
        exact ⟨vol, hvol, rfl, found, hx, path, hpath, rfl⟩
  · rintro ⟨vol, hvol, rfl, xml, hx, path, hpath, rfl⟩
    exact ⟨_, ⟨vol, hvol, xml, by simp [hx, Except.toOption], rfl⟩, path, hpath, rfl⟩

-- The facts of a volume, in one state of libvirt.
def factsIn (w : World) (vol : Vol) (xml : VolumeXml) (volumes : List (VolRef × VolumeXml)) :
    Facts where
  name := vol.name
  key := vol.key
  path := vol.path
  kind := .fromCode vol.kind
  format := xml.format
  capacityBytes := vol.capacity
  allocationBytes := vol.allocation
  usedBy := usersOf (canonical vol.path) (w.domains.entries.flatMap (domainUseOf w))
  backingFor := usersOf (canonical vol.path) (overlaysOf volumes)

theorem describe_eval {vol : Vol} (hvol : w.vol (p.volRef vol) = .ok vol) (xml : VolumeXml)
    (volumes : List (VolRef × VolumeXml)) :
    (describe (p.volRef vol) xml (w.domains.entries.flatMap (domainUseOf w))
      (overlaysOf volumes)).eval w.query = .ok (factsIn w vol xml volumes) := by
  have hinfo : w.query (.volInfo (p.volRef vol)) =
      .ok (⟨vol.kind, vol.capacity, vol.allocation⟩ : VolInfo) := by
    simp [World.query, hvol, Except.map]
  have hpath : w.query (.volPath (p.volRef vol)) = .ok (vol.path : String) := by
    simp [World.query, hvol, Except.map]
  refine (eval_get_bind _ _).trans ?_
  rw [hinfo]
  refine (eval_get_bind _ _).trans ?_
  rw [hpath]
  rfl

omit [FileSystem] [Xmltree] in
theorem runningPool_eval (hp : w.pools.lookup id = some p) (ha : p.active = true) :
    (runningPool id).eval w.query = .ok ⟨id, p.name⟩ := by
  have hpool : w.pool id = .ok p := pool_eq_ok.mpr hp
  have hlookup : w.query (.lookupStoragePoolByUuid id) = .ok (⟨id, p.name⟩ : Ref) := by
    simp [World.query, hpool, Except.map]
  have hactive : w.query (.poolIsActive ⟨id, p.name⟩) = .ok (p.active : Bool) := by
    simp [World.query, hpool, Except.map]
  refine (eval_get_bind _ _).trans ?_
  rw [hlookup]
  refine (eval_get_bind _ _).trans ?_
  rw [hactive]
  show Prog.eval w.query (if p.active = true then _ else _) = _
  rw [if_pos ha]
  rfl

theorem factsOf_eval (hlaw : Lawful w) (hp : w.pools.lookup id = some p) (ha : p.active = true)
    {vol : Vol} (hvol : vol ∈ p.scan.volumes) :
    (factsOf id vol.name).eval w.query = (VolumeXml.parse vol.xml).mapError .xml >>= fun xml =>
      (readVolumes ⟨id, p.name⟩).eval w.query >>= fun volumes =>
        .ok (p.volRef vol, factsIn w vol xml volumes) := by
  have hv := hlaw.world_vol hp ha hvol
  have hlookup : w.query (.poolLookupStorageVolByName ⟨id, p.name⟩ vol.name) =
      .ok (p.volRef vol : VolRef) := by
    simp [World.query, activePool_eq_ok.mpr ⟨pool_eq_ok.mpr hp, ha⟩, Except.map, bind, Except.bind,
      vol_eq_ok (hlaw.volumes id p hp) hvol]
  have hxml : w.query (.volXmlDesc (p.volRef vol)) = .ok (vol.xml : String) := by
    simp [World.query, hv, Except.map]
  rw [factsOf, Prog.eval_bind, runningPool_eval hp ha]
  refine (eval_get_bind _ _).trans ?_
  rw [hlookup]
  refine (eval_get_bind _ _).trans ?_
  rw [hxml]
  refine (Prog.eval_bind _ _).trans ?_
  cases VolumeXml.parse vol.xml with
  | error e => rfl
  | ok xml =>
      refine (Prog.eval_bind _ _).trans ?_
      refine bind_congr fun volumes => ?_
      rw [Prog.eval_bind, disksOfAllDomains_eval]
      refine (Prog.eval_bind _ _).trans ?_
      rw [describe_eval hv]
      rfl

end Volumes

end Lodger.Volume
