import Lodger.Delete.Volumes
import Lodger.Delete.Theorems

namespace Lodger.Volume

open Lodger.Lib Lodger.Libvirt Lodger.Cache Lodger.Xml
open Jobs (pool_eq_ok activePool_eq_ok)

section Refusal

variable [Libvirtd] [FileSystem] [Xmltree] {w : World} {id : Uuid} {p : StoragePool} {vol : Vol}

omit [FileSystem] in
theorem readVolumes_error (hlaw : Lawful w) (hp : w.pools.lookup id = some p) (ha : p.active = true)
    {name : String} (h : ¬AllParse p) : ∃ e, (readVolumes ⟨id, name⟩).eval w.query = .error (.xml e) := by
  cases hread : (readVolumes ⟨id, name⟩).eval w.query with
  | ok out => exact absurd ((readVolumes_eval hlaw hp ha name out).mp hread).1 h
  | error e =>
      rw [readVolumes_loop hp ha] at hread
      obtain ⟨vol, hvol, out, hstep⟩ := foldlM_eq_error hread
      rw [readVolume_eval hlaw hp ha hvol] at hstep
      cases hx : VolumeXml.parse vol.xml with
      | error found =>
          rw [hx] at hstep
          cases hstep
          exact ⟨found, rfl⟩
      | ok xml =>
          rw [hx] at hstep
          cases hstep

-- Whom the volume delete names.
def volumeUsers (facts : Facts) : List String := facts.usedBy ++ facts.backingFor.map ("volume " ++ ·)

theorem volumeUsers_ne_nil (xml : VolumeXml) :
    volumeUsers (factsIn w vol xml (p.scan.volumes.flatMap (volumeXml p))) ≠ [] ↔
      (∃ e ∈ w.domains.entries, LeadsTo w e.2 (canonical vol.path)) ∨
        BackingFor p (canonical vol.path) := by
  have hdisks : usersOf (canonical vol.path) (w.domains.entries.flatMap (domainUseOf w)) ≠ [] ↔
      ∃ e ∈ w.domains.entries, LeadsTo w e.2 (canonical vol.path) := by
    simp only [usersOf_ne_nil, mem_disks]
    constructor
    · rintro ⟨user, e, he, -, hleads⟩
      exact ⟨e, he, hleads⟩
    · rintro ⟨e, he, hleads⟩
      exact ⟨e.2.name, e, he, rfl, hleads⟩
  have hoverlays : usersOf (canonical vol.path)
      (overlaysOf (p.scan.volumes.flatMap (volumeXml p))) ≠ [] ↔ BackingFor p (canonical vol.path) := by
    simp only [usersOf_ne_nil, mem_overlays]
    constructor
    · rintro ⟨user, overlay, hoverlay, -, hrest⟩
      exact ⟨overlay, hoverlay, hrest⟩
    · rintro ⟨overlay, hoverlay, hrest⟩
      exact ⟨overlay.name, overlay, hoverlay, rfl, hrest⟩
  rw [← hdisks, ← hoverlays]
  simp only [volumeUsers, factsIn, ne_eq, List.append_eq_nil_iff, List.map_eq_nil_iff,
    Classical.not_and_iff_not_or_not]

-- The volume delete answers that the volume is in use, exactly if it can read the
-- documents of the pool and finds a user.
theorem deleteOn_refuses (hlaw : Lawful w) (hp : w.pools.lookup id = some p) (ha : p.active = true)
    (hvol : vol ∈ p.scan.volumes) (log : List (Command × World)) :
    (∃ users, (calmly (deleteOn id vol.name) ⟨w, log⟩).1 = .error (.inUse users)) ↔
      AllParse p ∧ ((∃ e ∈ w.domains.entries, LeadsTo w e.2 (canonical vol.path)) ∨
        BackingFor p (canonical vol.path)) := by
  have hfacts := factsOf_eval hlaw hp ha hvol
  have hreading : calmly (reading (factsOf id vol.name)) ⟨w, log⟩ =
      ((factsOf id vol.name).eval w.query, ⟨w, log⟩) := calmly_reading _
  by_cases hall : AllParse p
  · obtain ⟨xml, hxml⟩ := hall vol hvol
    have hread := (readVolumes_eval hlaw hp ha p.name _).mpr ⟨hall, rfl⟩
    rw [hxml, hread] at hfacts
    rw [hfacts] at hreading
    have hrun : calmly (deleteOn id vol.name) ⟨w, log⟩ = calmly
        (if (volumeUsers (factsIn w vol xml (p.scan.volumes.flatMap (volumeXml p)))).isEmpty then
          command (.volDelete (p.volRef vol))
        else .fail (.inUse (volumeUsers (factsIn w vol xml (p.scan.volumes.flatMap (volumeXml p))))))
        ⟨w, log⟩ := Prog.run_bind_ok hreading
    rw [hrun, ← volumeUsers_ne_nil xml]
    by_cases hempty : volumeUsers (factsIn w vol xml (p.scan.volumes.flatMap (volumeXml p))) = []
    · have hat : VolAt w vol.path (p.volRef vol) :=
        volAt_of_pool hp ha hvol (hlaw.clean id p hp vol hvol).symm
      obtain ⟨done, hdone⟩ := hlaw.perform_volDelete hat
      simp only [hempty, List.isEmpty_nil, if_true]
      rw [calmly_command_ok hdone]
      simp
    · rw [if_neg (by simpa using hempty)]
      exact iff_of_true ⟨_, rfl⟩ ⟨hall, hempty⟩
  · refine iff_of_false ?_ fun h => hall h.1
    rintro ⟨users, husers⟩
    have herror : ∃ e, (factsOf id vol.name).eval w.query = .error (.xml e) := by
      rw [hfacts]
      cases VolumeXml.parse vol.xml with
      | error e => exact ⟨e, rfl⟩
      | ok xml =>
          obtain ⟨e, he⟩ := readVolumes_error hlaw hp ha hall
          exact ⟨e, by rw [he]; rfl⟩
    obtain ⟨e, he⟩ := herror
    rw [he] at hreading
    have hrun : calmly (deleteOn id vol.name) ⟨w, log⟩ = (.error (.xml e), ⟨w, log⟩) :=
      Prog.run_bind_error hreading
    rw [hrun] at husers
    cases husers

end Refusal

end Lodger.Volume

namespace Lodger.Delete

open Lodger.Lib Lodger.Libvirt Lodger.Cache Lodger.Xml
open Volume (LeadsTo allSources AllParse BackingFor)

section Devices

variable [Libvirtd] [FileSystem] [Xmltree] {w : World} {id : Uuid} {key : String}

-- A CD-ROM, a floppy or a LUN of another domain leads to the file.
def OtherDevice (w : World) (id : Uuid) (key : String) : Prop :=
  ∃ e ∈ w.domains.entries, e.1 ≠ id ∧ ∃ xml ∈ documents e.2, ∃ domain,
    Xml.parse xml "domain" = .ok domain ∧ ∃ element ∈ diskElements domain,
      isData element = false ∧ ∃ found, disk element = some found ∧ ∃ path,
        diskPath w found.source = some path ∧ canonical path = key

omit [Libvirtd] [FileSystem] in
theorem mem_allSources {xml : String} {source : DiskSource} : source ∈ allSources xml ↔
    ∃ domain, Xml.parse xml "domain" = .ok domain ∧ ∃ element ∈ diskElements domain, ∃ found,
      disk element = some found ∧ found.source = source := by
  cases hparse : Xml.parse xml "domain" with
  | error e => simp [allSources, domainDiskSources, hparse, Except.map, Except.toOption]
  | ok domain =>
      simp only [allSources, domainDiskSources, hparse, Except.map, Except.toOption,
        Option.getD_some, List.mem_map, List.mem_filterMap, Except.ok.injEq, exists_eq_left']
      constructor
      · rintro ⟨found, ⟨element, helement, hfound⟩, rfl⟩
        exact ⟨element, helement, found, hfound, rfl⟩
      · rintro ⟨element, helement, found, hfound, rfl⟩
        exact ⟨found, ⟨element, helement, hfound⟩, rfl⟩

omit [Libvirtd] [FileSystem] in
theorem mem_domainDisks {xml : String} {disks : List Disk} (h : domainDisks xml = .ok disks)
    {found : Disk} : found ∈ disks ↔ ∃ domain, Xml.parse xml "domain" = .ok domain ∧
      ∃ element ∈ diskElements domain, isData element = true ∧ disk element = some found := by
  obtain ⟨domain, hparse, rfl⟩ := except_map_eq_ok.mp h
  simp only [hparse, List.mem_filterMap, List.mem_filter, and_assoc, Except.ok.injEq,
    exists_eq_left']

omit [Libvirtd] [FileSystem] [Xmltree] in
theorem mem_eraseDomain {e : Sigma fun _ : Uuid => Domain} :
    e ∈ (w.eraseDomain id).domains.entries ↔ e ∈ w.domains.entries ∧ e.1 ≠ id := by
  rw [← AList.mem_lookup_iff, ← AList.mem_lookup_iff]
  simp only [World.eraseDomain, lookup_erase_eq, Option.mem_def]
  by_cases hid : id = e.1
  · simp [hid]
  · simp [hid, Ne.symm hid]

-- The two scans agree but for the device.
theorem leadsTo_other : (∃ e ∈ (w.eraseDomain id).domains.entries,
    LeadsTo (w.eraseDomain id) e.2 key) ↔ OtherUses w id key ∨ OtherDevice w id key := by
  constructor
  · rintro ⟨e, he, xml, hxml, source, hsource, path, hpath, hkey⟩
    obtain ⟨he, hid⟩ := mem_eraseDomain.mp he
    obtain ⟨domain, hparse, element, helement, found, hfound, rfl⟩ := mem_allSources.mp hsource
    cases hdata : isData element with
    | true =>
        have hdisks : domainDisks xml =
            .ok (((diskElements domain).filter isData).filterMap disk) := by
          simp [domainDisks, hparse, Except.map]
        have hm := (mem_domainDisks hdisks).mpr ⟨domain, hparse, element, helement, hdata, hfound⟩
        exact Or.inl ⟨e, he, hid, xml, hxml, _, hdisks, found, hm, path, hpath, hkey⟩
    | false =>
        exact Or.inr ⟨e, he, hid, xml, hxml, domain, hparse, element, helement, hdata, found, hfound,
          path, hpath, hkey⟩
  · rintro (⟨e, he, hid, xml, hxml, disks, hdisks, found, hm, path, hpath, hkey⟩ |
      ⟨e, he, hid, xml, hxml, domain, hparse, element, helement, -, found, hfound, path, hpath, hkey⟩)
    · obtain ⟨domain, hparse, element, helement, -, hfound⟩ := (mem_domainDisks hdisks).mp hm
      have hsource := mem_allSources.mpr ⟨domain, hparse, element, helement, found, hfound, rfl⟩
      exact ⟨e, mem_eraseDomain.mpr ⟨he, hid⟩, xml, hxml, found.source, hsource, path, hpath, hkey⟩
    · have hsource := mem_allSources.mpr ⟨domain, hparse, element, helement, found, hfound, rfl⟩
      exact ⟨e, mem_eraseDomain.mpr ⟨he, hid⟩, xml, hxml, found.source, hsource, path, hpath, hkey⟩

-- No volume that the delete dooms is a CD-ROM, a floppy or a LUN of another domain or
-- the backing file of a volume of its pool.
def Unrefused (w : World) (id : Uuid) (disks : List Disk) : Prop :=
  ∀ found ∈ disks, ∀ v, Doomed w id found v → ∀ path, diskPath w found.source = some path →
    ∀ pid p, w.pools.lookup pid = some p → p.name = v.pool → AllParse p →
      ¬OtherDevice w id (canonical path) ∧ ¬BackingFor p (canonical path)

-- A doomed volume with its pool: the file is the one of the disk.
theorem Doomed.pool (hlaw : Lawful w) {found : Disk} {v : VolRef} (h : Doomed w id found v) :
    ∃ path pid p vol, diskPath w found.source = some path ∧ ¬OtherUses w id (canonical path) ∧
      w.pools.lookup pid = some p ∧ p.active = true ∧ vol ∈ p.scan.volumes ∧ vol.path = path ∧
        v = p.volRef vol := by
  obtain ⟨-, path, hpath, hunused, hat⟩ := h
  obtain ⟨pid, p, vol, hp, ha, hvol, hvolPath, rfl⟩ := volAt_pool hat
  rw [hlaw.diskPath_clean hpath hat] at hvolPath
  exact ⟨path, pid, p, vol, hpath, hunused, hp, ha, hvol, hvolPath, rfl⟩

-- The volume delete refuses a doomed volume only for what the scan of the VM delete
-- leaves out.
theorem Doomed.refused_iff (hlaw : Lawful w) {found : Disk} {v : VolRef} (h : Doomed w id found v)
    {pid : Uuid} {p : StoragePool} (hp : w.pools.lookup pid = some p) (hname : p.name = v.pool)
    {path : String} (hpath : diskPath w found.source = some path) :
    (∃ users, (calmly (Volume.deleteOn pid v.name) ⟨w.eraseDomain id, []⟩).1 =
      .error (.inUse users)) ↔
      AllParse p ∧ (OtherDevice w id (canonical path) ∨ BackingFor p (canonical path)) := by
  have hlaw' : Lawful (w.eraseDomain id) := ⟨hlaw.pools, hlaw.volumes, hlaw.clean⟩
  obtain ⟨path', pid', p', vol, hpath', hunused, hp', ha, hvol, rfl, rfl⟩ := h.pool hlaw
  obtain rfl : path = vol.path := Option.some.inj (hpath.symm.trans hpath')
  obtain rfl : pid = pid' := hlaw.pools pid pid' p p' hp hp' hname
  obtain rfl : p = p' := Option.some.inj (hp.symm.trans hp')
  have hrefuses := Volume.deleteOn_refuses hlaw' hp ha hvol []
  rw [leadsTo_other] at hrefuses
  have hother : OtherUses w id (canonical vol.path) ∨ OtherDevice w id (canonical vol.path) ↔
      OtherDevice w id (canonical vol.path) := or_iff_right hunused
  rw [hother] at hrefuses
  exact hrefuses

-- VM delete removes no volume that the volume delete would refuse, exactly if no doomed
-- volume is in use in a way that only the volume delete looks for.
theorem delete_agrees_with_volume_delete (id : Uuid) (w : World) (report : Removal) (t : Calm)
    (hlaw : Lawful w) (h : calmly (deleteOn id true) ⟨w, []⟩ = (.ok report, t)) :
    ∃ d disks, w.domains.lookup id = some d ∧ domainDisks (d.xmlDesc true) = .ok disks ∧
      (Unrefused w id disks →
        ∀ v u, (Command.volDelete v, u) ∈ t.log → ∀ pid p, w.pools.lookup pid = some p →
          p.name = v.pool → ∀ users,
            (calmly (Volume.deleteOn pid v.name) ⟨w.eraseDomain id, []⟩).1 ≠
              .error (.inUse users)) ∧
      (PathsUnique w →
        (∀ v u, (Command.volDelete v, u) ∈ t.log → ∀ pid p, w.pools.lookup pid = some p →
          p.name = v.pool → ∀ users,
            (calmly (Volume.deleteOn pid v.name) ⟨w.eraseDomain id, []⟩).1 ≠
              .error (.inUse users)) → Unrefused w id disks) := by
  obtain ⟨d, saved, disks, users, flags, skipped, gone, hd, hc, hdisks, hkeys, hloop, -⟩ :=
    deleteOn_run h
  have hxml : d.xmlDesc true = saved := by simp [Domain.xmlDesc, hc]
  refine ⟨d, disks, hd, by rw [hxml, hdisks], ?_, ?_⟩
  · intro hunrefused v u hv pid p hp hname users' hrefused
    have hgone : v ∈ gone := (mem_log_iff hloop v).mp ⟨u, hv⟩
    obtain ⟨found, hfound, hdoomed⟩ := doomed_of_gone hkeys hloop hgone
    obtain ⟨path, -, -, -, hpath, -⟩ := hdoomed.pool hlaw
    obtain ⟨hall, huse⟩ := (hdoomed.refused_iff hlaw hp hname hpath).mp ⟨users', hrefused⟩
    obtain ⟨hdevice, hbacking⟩ := hunrefused found hfound v hdoomed path hpath pid p hp hname hall
    exact huse.elim hdevice hbacking
  · intro hunique hagree found hfound v hdoomed path hpath pid p hp hname hall
    have hgone := gone_of_doomed hkeys hloop hlaw hunique hfound hdoomed
    obtain ⟨u, hu⟩ := (mem_log_iff hloop v).mpr hgone
    rw [← not_or]
    intro huse
    obtain ⟨users', hrefused⟩ := (hdoomed.refused_iff hlaw hp hname hpath).mpr ⟨hall, huse⟩
    exact hagree v u hu pid p hp hname users' hrefused

end Devices

section Runs

attribute [local instance] hostTrees noLinks plainLibvirtd

theorem web_unrefused (disks : List Disk) :
    Unrefused (host webXml dbXml [webVol, dbVol]) 7 disks := by
  intro _ _ _ _ _ _ pid p hp _ _
  refine ⟨?_, ?_⟩
  · rintro ⟨e, he, hid, xml, hxml, domain, hparse, element, helement, hdata, -⟩
    have hdb : ((Xml.parse dbXml "domain").map fun domain => (diskElements domain).all isData) =
        .ok true := by
      decide +kernel
    have he : e ∈ [_, _] := he
    simp only [List.mem_cons, List.not_mem_nil, or_false] at he
    obtain rfl | rfl := he
    · obtain rfl : xml = dbXml := by simpa [documents, Domain.xmlDesc, Domain.isActive] using hxml
      rw [hparse, Except.map, Except.ok.injEq, List.all_eq_true] at hdb
      rw [hdb element helement] at hdata
      cases hdata
    · exact hid rfl
  · rintro ⟨vol, hvol, xml, hxml, path, hpath, -⟩
    have hplain : (VolumeXml.parse "<volume/>").map VolumeXml.backingPath = .ok none := by
      decide +kernel
    rw [(pool_of_entries rfl hp).2] at hvol
    have hvol : vol ∈ [webVol, dbVol] := hvol
    simp only [List.mem_cons, List.not_mem_nil, or_false] at hvol
    have htext : vol.xml = "<volume/>" := by
      obtain rfl | rfl := hvol
      · rfl
      · rfl
    rw [htext] at hxml
    rw [hxml, Except.map, hpath] at hplain
    cases hplain

theorem delete_agrees_with_volume_delete_web : ∃ t,
    calmly (deleteOn 7 true) ⟨host webXml dbXml [webVol, dbVol], []⟩ =
      (.ok { removed := ["/srv/web"] }, t) ∧ ∀ users,
        (calmly (Volume.deleteOn 1 "web") ⟨(host webXml dbXml [webVol, dbVol]).eraseDomain 7, []⟩).1 ≠
          .error (.inUse users) := by
  have hruns : (calmly (deleteOn 7 true) ⟨host webXml dbXml [webVol, dbVol], []⟩).1 =
        .ok { removed := ["/srv/web"] } ∧
      Command.volDelete ⟨"srv", "web", "/srv/web"⟩ ∈ (calmly (deleteOn 7 true)
        ⟨host webXml dbXml [webVol, dbVol], []⟩).2.log.map Prod.fst := by
    decide +kernel
  obtain ⟨hreport, hlog⟩ := hruns
  obtain ⟨t, hrun⟩ := exists_run hreport
  rw [hrun] at hlog
  obtain ⟨⟨c, u⟩, hu, rfl⟩ := List.mem_map.mp hlog
  obtain ⟨d, disks, -, -, hagree, -⟩ :=
    delete_agrees_with_volume_delete 7 _ _ t (lawful_of_entries rfl (by decide)) hrun
  exact ⟨t, hrun, hagree (web_unrefused disks) _ u hu 1 (srvPool [webVol, dbVol]) rfl rfl⟩

-- The other VM has the volume as its CD-ROM: the volume delete names it.
theorem cdrom_of_other_deleted : ∃ t,
    calmly (deleteOn 7 true) ⟨host webXml isoXml [webVol, dbVol], []⟩ =
      (.ok { removed := ["/srv/web"] }, t) ∧
    (calmly (Volume.deleteOn 1 "web") ⟨(host webXml isoXml [webVol, dbVol]).eraseDomain 7, []⟩).1 =
      .error (.inUse ["db"]) := by
  have hreport : (calmly (deleteOn 7 true) ⟨host webXml isoXml [webVol, dbVol], []⟩).1 =
      .ok { removed := ["/srv/web"] } := by
    decide +kernel
  obtain ⟨t, hrun⟩ := exists_run hreport
  exact ⟨t, hrun, by decide +kernel⟩

end Runs

end Lodger.Delete
