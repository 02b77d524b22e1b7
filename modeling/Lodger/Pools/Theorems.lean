import Lodger.Pools
import Lodger.Delete.Volumes
import Lodger.Delete.Theorems

namespace Lodger

open Lodger.Lib Lodger.Libvirt Lodger.Cache Lodger.Xml
open Delete (documents domain_of_mem calmly_reading_ok)
open Jobs (pool_eq_ok activePool_eq_ok)

namespace Volume

section Listing

variable [Libvirtd] [FileSystem] [Xmltree] {w : World} {id : Uuid} {p : StoragePool}

omit [FileSystem] [Xmltree] in
theorem runningPool_ok {ref : Ref} (h : (runningPool id).eval w.query = .ok ref) :
    ∃ p, w.pools.lookup id = some p ∧ p.active = true ∧ ref = ⟨id, p.name⟩ := by
  obtain ⟨found, hfound, hrest⟩ := except_bind_eq_ok.mp ((eval_get_bind _ _).symm.trans h)
  obtain ⟨p, hp, rfl⟩ := except_map_eq_ok.mp hfound
  have hlookup := pool_eq_ok.mp hp
  have hactive : w.query (.poolIsActive ⟨id, p.name⟩) = .ok (p.active : Bool) := by
    simp [World.query, hp, Except.map]
  obtain ⟨active, hget, hrest⟩ := except_bind_eq_ok.mp ((eval_get_bind _ _).symm.trans hrest)
  obtain rfl : active = p.active := Except.ok.inj (hget.symm.trans hactive)
  by_cases ha : p.active = true
  · rw [if_pos ha] at hrest
    exact ⟨p, hlookup, ha, (Except.ok.inj hrest).symm⟩
  · rw [if_neg ha] at hrest
    cases hrest

omit [Xmltree] in
theorem describeAll_ok {volumes : List (VolRef × VolumeXml)} {disks overlays : List UseOf}
    {out : List Facts} (h : (describeAll volumes disks overlays).eval w.query = .ok out)
    (facts : Facts) : facts ∈ out ↔
      ∃ x ∈ volumes, (describe x.1 x.2 disks overlays).eval w.query = .ok facts := by
  rw [describeAll, Prog.eval_foldlM] at h
  have hloop := foldlM_append_eq_ok (fun _ => True) (g := fun x =>
    ((describe x.1 x.2 disks overlays).eval w.query).toOption.toList) ?_ h
  · rw [hloop.2, List.nil_append, List.mem_flatMap]
    refine exists_congr fun x => and_congr_right fun _ => ?_
    cases (describe x.1 x.2 disks overlays).eval w.query with
    | error e => simp [Except.toOption]
    | ok found => simp [Except.toOption, eq_comm]
  · intro out out' x _ hstep
    rw [Prog.eval_bind] at hstep
    obtain ⟨found, hfound, hout⟩ := except_bind_eq_ok.mp hstep
    cases hout
    exact ⟨trivial, by simp [hfound, Except.toOption]⟩

-- The list has the facts of each volume that libvirt finds after the refresh.
theorem volumesOn_run {volumes : List Facts} {t : Calm}
    (h : calmly (volumesOn id) ⟨w, []⟩ = (.ok volumes, t)) (hlaw : Lawful t.world) :
    ∃ p, t.world.pools.lookup id = some p ∧ p.active = true ∧ AllParse p ∧
      ∀ facts, facts ∈ volumes ↔ ∃ vol ∈ p.scan.volumes, ∃ xml, VolumeXml.parse vol.xml = .ok xml ∧
        facts = factsIn t.world vol xml (p.scan.volumes.flatMap (volumeXml p)) := by
  obtain ⟨ref, s₁, hrun₁, h⟩ := Prog.run_bind_eq_ok h
  obtain ⟨hpool, rfl⟩ := calmly_reading_ok hrun₁
  obtain ⟨old, hold, hactive, rfl⟩ := runningPool_ok hpool
  obtain ⟨_, s₂, hrun₂, h⟩ := Prog.run_bind_eq_ok h
  obtain ⟨done, hdone, rfl⟩ := calmly_command_eq_ok hrun₂
  obtain ⟨disks, s₃, hrun₃, h⟩ := Prog.run_bind_eq_ok h
  obtain ⟨hdisks, rfl⟩ := calmly_reading_ok hrun₃
  obtain ⟨found, s₄, hrun₄, h⟩ := Prog.run_bind_eq_ok h
  obtain ⟨hfound, rfl⟩ := calmly_reading_ok hrun₄
  obtain ⟨out, s₅, hrun₅, h⟩ := Prog.run_bind_eq_ok h
  obtain ⟨hout, rfl⟩ := calmly_reading_ok hrun₅
  cases h
  -- The refresh.
  have hrefresh : w.perform (.poolRefresh ⟨id, old.name⟩) = .ok {
      result := (), world := w.setPool id { old with scan := old.storage } } := by
    simp only [World.perform, activePool_eq_ok.mpr ⟨pool_eq_ok.mpr hold, hactive⟩, bind, Except.bind]
  obtain rfl := Except.ok.inj (hrefresh.symm.trans hdone)
  have hp : (w.setPool id { old with scan := old.storage }).pools.lookup id =
      some { old with scan := old.storage } := by
    simp only [World.setPool, lookup_insert_eq, if_true]
  -- The facts.
  obtain rfl := Except.ok.inj (disksOfAllDomains_eval.symm.trans hdisks)
  obtain ⟨hall, rfl⟩ := (readVolumes_eval hlaw hp hactive _ _).mp hfound
  refine ⟨_, hp, hactive, hall, ?_⟩
  intro facts
  rw [sortByName, List.mem_mergeSort, describeAll_ok hout]
  constructor
  · rintro ⟨x, hx, hfacts⟩
    obtain ⟨vol, hvol, hx⟩ := List.mem_flatMap.mp hx
    obtain ⟨xml, hxml⟩ := hall vol hvol
    simp only [volumeXml, hxml, Except.toOption, Option.map_some, Option.mem_toList,
      Option.some.injEq] at hx
    subst hx
    have hdescribe := describe_eval (hlaw.world_vol hp hactive hvol) xml
      (old.storage.volumes.flatMap (volumeXml { old with scan := old.storage }))
    exact ⟨vol, hvol, xml, hxml, Except.ok.inj (hfacts.symm.trans hdescribe)⟩
  · rintro ⟨vol, hvol, xml, hxml, rfl⟩
    have hmem : (({ old with scan := old.storage } : StoragePool).volRef vol, xml) ∈
        volumeXml { old with scan := old.storage } vol := by
      simp [volumeXml, hxml, Except.toOption]
    exact ⟨_, List.mem_flatMap.mpr ⟨vol, hvol, hmem⟩,
      describe_eval (hlaw.world_vol hp hactive hvol) xml _⟩

end Listing

end Volume

namespace Pools

section Users

variable [Libvirtd] [Xmltree] {w : World} {id : Uuid} {p : StoragePool}

-- A data disk of the domain names the pool, or a path that begins with its folder.
def NamesPool (name : String) (folder : Option (List Char)) (d : Domain) : Prop :=
  ∃ xml ∈ documents d, ∃ disks, domainDisks xml = .ok disks ∧ ∃ disk ∈ disks,
    inPool name folder disk.source = true

omit [Libvirtd] in
theorem any_diskIn {name : String} {folder : Option (List Char)} {d : Domain} :
    (documents d).any (diskIn name folder) = true ↔ NamesPool name folder d := by
  simp only [NamesPool, List.any_eq_true, diskIn]
  refine exists_congr fun xml => and_congr_right fun _ => ?_
  cases domainDisks xml with
  | error e => simp [Except.toOption]
  | ok disks => simp [Except.toOption]

theorem scanUsers_eval (name : String) (folder : Option (List Char)) :
    (scanUsers name folder).eval w.query = .ok (w.domains.entries.flatMap fun e =>
      if (documents e.2).any (diskIn name folder) then [e.2.name] else []) := by
  refine (eval_get_bind _ _).trans ?_
  show Prog.eval w.query ((w.domains.entries.map fun e => (⟨e.1, e.2.name⟩ : Ref)).foldlM _ []) = _
  rw [Prog.eval_foldlM, List.foldlM_map]
  refine (foldlM_append_ok ?_).trans (by rw [List.nil_append])
  intro users e he
  rw [Prog.eval_bind, Volume.documentsOf_eval he]
  by_cases huse : (documents e.2).any (diskIn name folder) = true
  · simp [bind, Except.bind, huse]
  · simp [bind, Except.bind, huse]

variable [PoolXmlDesc]

omit [Xmltree] in
theorem scanning_eval {α : Type} (p : Read α) :
    (scanning p).eval (poolQuery w) = p.eval w.query := by
  apply Prog.eval_lift
  intro q
  show (w.query q).map (fun r => r) = _
  cases w.query q with
  | error e => rfl
  | ok a => rfl

theorem poolUsers_ok {users : List String} (h : (poolUsers id).eval (poolQuery w) = .ok users) :
    ∃ p doc, w.pools.lookup id = some p ∧ PoolXml.parse (PoolXmlDesc.xmlDesc p) = .ok doc ∧
      ∀ vm, vm ∈ users ↔ ∃ e ∈ w.domains.entries,
        e.2.name = vm ∧ NamesPool p.name (doc.targetPath.map folderOf) e.2 := by
  rw [poolUsers] at h
  obtain ⟨ref, href, h⟩ := except_bind_eq_ok.mp ((Prog.eval_bind _ _).symm.trans h)
  obtain ⟨p, hp, rfl⟩ := except_map_eq_ok.mp href
  obtain ⟨text, htext, h⟩ := except_bind_eq_ok.mp ((Prog.eval_bind _ _).symm.trans h)
  have hxml : poolQuery w (.xmlDesc ⟨id, p.name⟩) = .ok (PoolXmlDesc.xmlDesc p : String) := by
    simp [poolQuery, hp, Except.map]
  obtain rfl := Except.ok.inj (hxml.symm.trans htext)
  obtain ⟨doc, hdoc, h⟩ := except_bind_eq_ok.mp ((Prog.eval_bind _ _).symm.trans h)
  rw [scanning_eval] at hdoc
  obtain ⟨found, hfound, h⟩ := except_bind_eq_ok.mp ((Prog.eval_bind _ _).symm.trans h)
  rw [scanning_eval, scanUsers_eval] at hfound
  cases hfound
  cases h
  have hparse : PoolXml.parse (PoolXmlDesc.xmlDesc p) = .ok doc := by
    cases hx : PoolXml.parse (PoolXmlDesc.xmlDesc p) with
    | error e =>
        rw [hx] at hdoc
        cases hdoc
    | ok found =>
        rw [hx] at hdoc
        cases hdoc
        rfl
  refine ⟨p, doc, pool_eq_ok.mp hp, hparse, ?_⟩
  intro vm
  simp only [List.mem_mergeSort, List.mem_dedup, List.mem_flatMap]
  refine exists_congr fun e => and_congr_right fun _ => ?_
  rw [← any_diskIn]
  by_cases huse : (documents e.2).any (diskIn p.name (doc.targetPath.map folderOf)) = true
  · simp [huse, eq_comm]
  · simp [huse]

end Users

section Page

variable [Libvirtd] [FileSystem] [Xmltree] [PoolXmlDesc]

-- The pool page names every VM that the volume list names, exactly if each VM with a
-- disk of any device on a volume of the pool has a data disk that names the pool, or
-- a path that begins with its folder.
theorem pool_page_names_users (id : Uuid) (w : World) (volumes : List Volume.Facts) (t : Calm)
    (users : List String) (hlaw : Lawful t.world)
    (hvolumes : calmly (Volume.volumesOn id) ⟨w, []⟩ = (.ok volumes, t))
    (husers : (poolUsers id).eval (poolQuery t.world) = .ok users) :
    ∃ p doc, t.world.pools.lookup id = some p ∧ PoolXml.parse (PoolXmlDesc.xmlDesc p) = .ok doc ∧
      ((∀ facts ∈ volumes, ∀ vm ∈ facts.usedBy, vm ∈ users) ↔
        ∀ e ∈ t.world.domains.entries,
          (∃ vol ∈ p.scan.volumes, Volume.LeadsTo t.world e.2 (canonical vol.path)) →
          ∃ e' ∈ t.world.domains.entries, e'.2.name = e.2.name ∧
            NamesPool p.name (doc.targetPath.map folderOf) e'.2) := by
  obtain ⟨p, hp, -, hall, hlisted⟩ := Volume.volumesOn_run hvolumes hlaw
  obtain ⟨p', doc, hp', hdoc, hnamed⟩ := poolUsers_ok husers
  obtain rfl : p = p' := Option.some.inj (hp.symm.trans hp')
  refine ⟨p, doc, hp, hdoc, ?_⟩
  constructor
  · rintro hpage e he ⟨vol, hvol, hleads⟩
    obtain ⟨xml, hxml⟩ := hall vol hvol
    have hfacts := (hlisted _).mpr ⟨vol, hvol, xml, hxml, rfl⟩
    have huse := Volume.mem_usersOf.mpr (Volume.mem_disks.mpr ⟨e, he, rfl, hleads⟩)
    exact (hnamed e.2.name).mp (hpage _ hfacts e.2.name huse)
  · intro hcovered facts hfacts vm hvm
    obtain ⟨vol, hvol, xml, hxml, rfl⟩ := (hlisted facts).mp hfacts
    obtain ⟨e, he, rfl, hleads⟩ := Volume.mem_disks.mp (Volume.mem_usersOf.mp hvm)
    exact (hnamed e.2.name).mpr (hcovered e he ⟨vol, hvol, hleads⟩)

end Page

-- The pool of the two VMs, with its folder.
section Runs

open Delete

def srvXml : String :=
  "<pool type='dir'><name>srv</name><target><path>/srv</path></target></pool>"

def srvTree : Element :=
  .mk "pool" [("type", "dir")] [.element (.mk "name" [] [.text "srv"]),
    .element (.mk "target" [] [.element (.mk "path" [] [.text "/srv"])])]

def plainXml : String := "<domain><devices/></domain>"

local instance pageTrees : Xmltree where
  parse xml :=
    if xml = srvXml then .ok srvTree
    else if xml = plainXml then .ok (domainTree [])
    else hostTrees.parse xml

local instance srvDesc : PoolXmlDesc := ⟨fun _ => srvXml⟩

attribute [local instance] noLinks plainLibvirtd

set_option maxRecDepth 8000 in
theorem web_namesPool {d : Domain} (h : d.config = .shutOff webXml) :
    NamesPool "srv" (some "/srv/".toList) d := by
  have hweb : domainDisks webXml = .ok [⟨none, .file "/srv/web", false⟩] := rfl
  have hin : inPool "srv" (some "/srv/".toList) (.file "/srv/web") = true := by decide
  exact ⟨webXml, by simp [documents, Domain.xmlDesc, h], _, hweb, _, List.mem_singleton_self _, hin⟩

theorem plain_leadsTo {w : World} {d : Domain} {key : String}
    (h : d.config = .running (some plainXml) plainXml) : ¬Volume.LeadsTo w d key := by
  rintro ⟨xml, hxml, source, hsource, -⟩
  have hplain : Volume.allSources plainXml = [] := rfl
  obtain rfl : xml = plainXml := by
    simpa [documents, Domain.xmlDesc, Domain.isActive, h] using hxml
  rw [hplain] at hsource
  cases hsource

theorem pool_page_names_users_web : ∃ volumes t,
    calmly (Volume.volumesOn 1) ⟨host webXml plainXml [webVol], []⟩ = (.ok volumes, t) ∧
      (poolUsers 1).eval (poolQuery t.world) = .ok ["web"] ∧
      ∀ facts ∈ volumes, ∀ vm ∈ facts.usedBy, vm ∈ ["web"] := by
  have hruns : (calmly (Volume.volumesOn 1) ⟨host webXml plainXml [webVol], []⟩).1.isOk = true ∧
      (calmly (Volume.volumesOn 1) ⟨host webXml plainXml [webVol], []⟩).2.world.pools.entries =
        [⟨1, srvPool [webVol]⟩] ∧
      (calmly (Volume.volumesOn 1) ⟨host webXml plainXml [webVol], []⟩).2.world.domains.entries =
        (host webXml plainXml [webVol]).domains.entries ∧
      (poolUsers 1).eval (poolQuery (calmly (Volume.volumesOn 1)
        ⟨host webXml plainXml [webVol], []⟩).2.world) = .ok ["web"] := by
    decide +kernel
  obtain ⟨hok, hpools, hdomains, husers⟩ := hruns
  have hsrv : (PoolXml.parse srvXml).map PoolXml.targetPath = .ok (some "/srv") := by
    decide +kernel
  cases hrun : calmly (Volume.volumesOn 1) ⟨host webXml plainXml [webVol], []⟩ with
  | mk r t =>
      rw [hrun] at hok hpools hdomains husers
      cases r with
      | error e => cases hok
      | ok volumes =>
          obtain ⟨p, doc, hp, hdoc, hpage⟩ := pool_page_names_users 1 _ volumes t _
            (lawful_of_entries hpools (by decide)) hrun husers
          refine ⟨volumes, t, rfl, husers, hpage.mpr ?_⟩
          have hdoc : PoolXml.parse srvXml = .ok doc := hdoc
          rw [hdoc, Except.map, Except.ok.injEq] at hsrv
          have hfolder : folderOf "/srv" = "/srv/".toList := by decide +kernel
          rw [(pool_of_entries hpools hp).2, hsrv, Option.map_some, hfolder]
          rintro e he ⟨vol, -, hleads⟩
          refine ⟨e, he, rfl, ?_⟩
          have he : e ∈ [_, _] := hdomains ▸ he
          simp only [List.mem_cons, List.not_mem_nil, or_false] at he
          obtain rfl | rfl := he
          · exact absurd hleads (plain_leadsTo rfl)
          · exact web_namesPool rfl

-- The other VM has the volume as its CD-ROM: the list of the volumes names it, the
-- pool page does not.
theorem cdrom_user_missing : ∃ volumes t,
    calmly (Volume.volumesOn 1) ⟨host dbXml isoXml [webVol], []⟩ = (.ok volumes, t) ∧
      (poolUsers 1).eval (poolQuery t.world) = .ok ["web"] ∧
      ∃ facts ∈ volumes, "db" ∈ facts.usedBy := by
  have hruns : (calmly (Volume.volumesOn 1) ⟨host dbXml isoXml [webVol], []⟩).1.toOption.any
        (fun volumes => volumes.any fun facts => facts.usedBy.contains "db") = true ∧
      (poolUsers 1).eval (poolQuery (calmly (Volume.volumesOn 1)
        ⟨host dbXml isoXml [webVol], []⟩).2.world) = .ok ["web"] := by
    decide +kernel
  obtain ⟨hok, husers⟩ := hruns
  cases hrun : calmly (Volume.volumesOn 1) ⟨host dbXml isoXml [webVol], []⟩ with
  | mk r t =>
      rw [hrun] at hok husers
      cases r with
      | error e => cases hok
      | ok volumes =>
          simp only [Except.toOption, Option.any_some, List.any_eq_true, List.contains_iff_mem] at hok
          exact ⟨volumes, t, rfl, husers, hok⟩

end Runs

end Pools

end Lodger
