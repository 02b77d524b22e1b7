import Lodger.Delete.Paths

namespace Lodger.Delete

open Lodger.Lib Lodger.Libvirt Lodger.Cache Lodger.Xml

-- The documents of a domain: the saved one and, if it runs, the live one.
def documents (d : Domain) : List String :=
  d.xmlDesc true :: if d.isActive then [d.xmlDesc false] else []

section Disks

variable [Libvirtd] [FileSystem] (w : World)

def target (disk : Disk) : Option Target :=
  (diskPath w disk.source).map fun path => ⟨path, canonical path, disk.shared⟩

def unresolved (disk : Disk) : Option Skipped :=
  match diskPath w disk.source, disk.source with
  | none, .volume pool volume => some ⟨pool ++ "/" ++ volume, .notInPool⟩
  | _, _ => none

-- What the report calls a disk.
def diskName (disk : Disk) : String :=
  match diskPath w disk.source, disk.source with
  | some path, _ => path
  | none, .volume pool volume => pool ++ "/" ++ volume
  | none, .file path => path
  | none, .block path => path

-- What `resolve` does with one disk.
def resolveDisk (found : List Target × Removal) (disk : Disk) : List Target × Removal :=
  (found.1 ++ (target w disk).toList,
    { found.2 with skipped := found.2.skipped ++ (unresolved w disk).toList })

variable {w}

theorem foldl_resolveDisk (disks : List Disk) (found : List Target × Removal) :
    disks.foldl (resolveDisk w) found = (found.1 ++ disks.filterMap (target w),
      { found.2 with skipped := found.2.skipped ++ disks.filterMap (unresolved w) }) := by
  induction disks generalizing found with
  | nil => simp
  | cons disk rest ih =>
      rw [List.foldl_cons, ih]
      cases ht : target w disk with
      | none => cases hu : unresolved w disk <;> simp [resolveDisk, ht, hu]
      | some t => cases hu : unresolved w disk <;> simp [resolveDisk, ht, hu]

theorem resolve_eval (disks : List Disk) : (resolve disks).eval w.query =
    .ok (disks.filterMap (target w), { skipped := disks.filterMap (unresolved w) }) := by
  have hloop : (resolve disks).eval w.query = .ok (disks.foldl (resolveDisk w) ([], {})) := by
    apply Prog.eval_foldlM_ok
    rintro ⟨targets, report⟩ disk -
    rw [Prog.eval_bind, pathOf_eval]
    cases hp : diskPath w disk.source with
    | some path => simp [target, unresolved, resolveDisk, hp, bind, Except.bind]
    | none =>
        cases hs : disk.source with
        | file written => simp [diskPath, hs] at hp
        | block written => simp [diskPath, hs] at hp
        | volume pool volume =>
            rw [hs] at hp
            simp [target, unresolved, resolveDisk, hp, hs, bind, Except.bind]
  rw [hloop, foldl_resolveDisk]
  simp

end Disks

section Users

variable [Libvirtd] [FileSystem] (w : World)

-- The entry that one disk adds.
def sourceUse (name : String) (source : DiskSource) : List (String × String) :=
  ((diskPath w source).map fun path => (canonical path, name)).toList

-- The sources of the data disks of a document, if it can be read.
def dataSources [Xmltree] (xml : String) : List DiskSource :=
  ((domainDisks xml).toOption.getD []).map (·.source)

def domainUses [Xmltree] (id : Uuid) (e : Sigma fun _ : Uuid => Domain) :
    List (String × String) :=
  if e.1 = id then []
  else (documents e.2).flatMap fun xml => (dataSources xml).flatMap (sourceUse w e.2.name)

variable {w}

theorem addUsers_eval (name : String) (disks : List Disk) (users : List (String × String)) :
    (addUsers name disks users).eval w.query =
      .ok (users ++ (disks.map (·.source)).flatMap (sourceUse w name)) := by
  rw [List.flatMap_map, addUsers, Prog.eval_foldlM]
  apply foldlM_append_ok
  intro users disk _
  rw [Prog.eval_bind, pathOf_eval]
  cases hp : diskPath w disk.source with
  | none => simp [sourceUse, hp, bind, Except.bind]
  | some path => simp [sourceUse, hp, bind, Except.bind]

omit [Libvirtd] [FileSystem] in
theorem domain_of_mem {e : Sigma fun _ : Uuid => Domain} (he : e ∈ w.domains.entries) :
    w.domain e.1 = .ok e.2 := by
  have hl : w.domains.lookup e.1 = some e.2 := AList.mem_lookup_iff.mpr he
  simp [World.domain, hl]

omit [FileSystem] in
theorem disksConfig_eval {e : Sigma fun _ : Uuid => Domain} (he : e ∈ w.domains.entries) (id : Uuid) :
    (disksConfig ⟨e.1, e.2.name⟩ id).eval w.query =
      .ok (if e.1 = id then none else some (e.2.name, documents e.2)) := by
  have hdomain := domain_of_mem he
  have hxml : ∀ inactive, w.query (.domainXmlDesc ⟨e.1, e.2.name⟩ inactive) =
      .ok (e.2.xmlDesc inactive : String) := by
    intro inactive
    simp [World.query, hdomain, Except.map]
  have hactive : w.query (.domainIsActive ⟨e.1, e.2.name⟩) = .ok (e.2.isActive : Bool) := by
    simp [World.query, hdomain, Except.map]
  rw [disksConfig]
  by_cases hid : e.1 = id
  · rw [if_pos hid, if_pos hid]
    rfl
  · rw [if_neg hid, if_neg hid]
    refine (eval_get_bind _ _).trans ?_
    rw [hxml]
    refine (eval_get_bind _ _).trans ?_
    rw [hactive]
    by_cases ha : e.2.isActive = true
    · simp only [bind, Except.bind, ha, if_true]
      refine (eval_get_bind _ _).trans ?_
      rw [hxml]
      refine (eval_get_bind _ _).trans ?_
      simp [documents, ha, World.query, bind, Except.bind]
    · simp only [bind, Except.bind, ha, Bool.false_eq_true, if_false]
      refine (eval_get_bind _ _).trans ?_
      simp [documents, ha, World.query, bind, Except.bind]

variable [Xmltree]

-- Every document of another domain can be read.
def Legible (w : World) (id : Uuid) : Prop :=
  ∀ e ∈ w.domains.entries, e.1 ≠ id → ∀ xml ∈ documents e.2, ∃ disks, domainDisks xml = .ok disks

-- What the loop over the documents of one domain adds.
theorem addDocuments_eval {name : String} {docs : List String} {users users' : List (String × String)}
    (h : (docs.foldlM (fun users xml => do
        let disks ← readable (domainDisks xml)
        addUsers name disks users) users : Read (List (String × String))).eval w.query = .ok users') :
    (∀ xml ∈ docs, ∃ disks, domainDisks xml = .ok disks) ∧
      users' = users ++ docs.flatMap fun xml => (dataSources xml).flatMap (sourceUse w name) := by
  rw [Prog.eval_foldlM] at h
  refine foldlM_append_eq_ok (fun xml => ∃ disks, domainDisks xml = .ok disks) ?_ h
  intro out out' xml _ hxml
  rw [Prog.eval_bind] at hxml
  cases hd : domainDisks xml with
  | error e =>
      rw [hd] at hxml
      cases hxml
  | ok disks =>
      rw [hd] at hxml
      have heval := (addUsers_eval name disks out).symm.trans hxml
      cases heval
      refine ⟨⟨disks, rfl⟩, ?_⟩
      simp [dataSources, hd, Except.toOption]

-- A scan that succeeds has read every document of the other domains.
theorem pathsOfOtherDomains_eval {id : Uuid} {users : List (String × String)}
    (h : (pathsOfOtherDomains (w.domains.entries.map fun e => ⟨e.1, e.2.name⟩) id).eval w.query =
      .ok users) :
    Legible w id ∧ users = w.domains.entries.flatMap (domainUses w id) := by
  rw [pathsOfOtherDomains, Prog.eval_foldlM, List.foldlM_map] at h
  have hloop := foldlM_append_eq_ok (fun e => e.1 ≠ id → ∀ xml ∈ documents e.2, ∃ disks,
    domainDisks xml = .ok disks) (g := domainUses w id) ?_ h
  · exact hloop
  · intro out out' e he hstep
    rw [Prog.eval_bind, Prog.eval_attempt, disksConfig_eval he] at hstep
    by_cases hid : e.1 = id
    · simp only [hid, if_true, bind, Except.bind] at hstep
      cases hstep
      simp [domainUses, hid]
    · rw [if_neg hid] at hstep
      have hdocs := addDocuments_eval hstep
      rw [domainUses, if_neg hid]
      exact ⟨fun _ => hdocs.1, hdocs.2⟩

-- A data disk of another domain leads to the file.
def OtherUses (w : World) (id : Uuid) (key : String) : Prop :=
  ∃ e ∈ w.domains.entries, e.1 ≠ id ∧ ∃ xml ∈ documents e.2, ∃ disks,
    domainDisks xml = .ok disks ∧ ∃ disk ∈ disks, ∃ path,
      diskPath w disk.source = some path ∧ canonical path = key

theorem mem_domainUses {e : Sigma fun _ : Uuid => Domain} {id : Uuid} {key user : String} :
    (key, user) ∈ domainUses w id e ↔ e.1 ≠ id ∧ user = e.2.name ∧ ∃ xml ∈ documents e.2, ∃ disks,
      domainDisks xml = .ok disks ∧ ∃ disk ∈ disks, ∃ path,
        diskPath w disk.source = some path ∧ canonical path = key := by
  by_cases hid : e.1 = id
  · simp [domainUses, hid]
  · rw [domainUses, if_neg hid]
    simp only [List.mem_flatMap, sourceUse, dataSources, Option.mem_toList, Option.map_eq_some_iff,
      List.mem_map]
    constructor
    · rintro ⟨xml, hxml, source, ⟨disk, hdisk, rfl⟩, path, hpath, heq⟩
      cases hd : domainDisks xml with
      | error err => simp [hd, Except.toOption] at hdisk
      | ok disks =>
          simp only [hd, Except.toOption, Option.getD_some] at hdisk
          cases heq
          exact ⟨hid, rfl, xml, hxml, disks, hd, disk, hdisk, path, hpath, rfl⟩
    · rintro ⟨-, rfl, xml, hxml, disks, hd, disk, hdisk, path, hpath, rfl⟩
      refine ⟨xml, hxml, disk.source, ⟨disk, ?_, rfl⟩, path, hpath, rfl⟩
      simpa [hd, Except.toOption] using hdisk

theorem lookup_users_eq_none {id : Uuid} {key : String} :
    (w.domains.entries.flatMap (domainUses w id)).lookup key = none ↔ ¬OtherUses w id key := by
  rw [List.lookup_eq_none_iff]
  constructor
  · rintro h ⟨e, he, hid, xml, hxml, disks, hd, disk, hdisk, path, hpath, hkey⟩
    have hm : (key, e.2.name) ∈ domainUses w id e :=
      mem_domainUses.mpr ⟨hid, rfl, xml, hxml, disks, hd, disk, hdisk, path, hpath, hkey⟩
    have hne := h _ (List.mem_flatMap.mpr ⟨e, he, hm⟩)
    simp at hne
  · rintro h ⟨other, user⟩ hm
    obtain ⟨e, he, hm⟩ := List.mem_flatMap.mp hm
    obtain ⟨hid, -, hrest⟩ := mem_domainUses.mp hm
    by_cases hkey : key = other
    · subst hkey
      exact absurd ⟨e, he, hid, hrest⟩ h
    · simpa using hkey

end Users

end Lodger.Delete
