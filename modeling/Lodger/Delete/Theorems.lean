import Lodger.Delete.Outcome

namespace Lodger.Delete

open Lodger.Lib Lodger.Libvirt Lodger.Cache Lodger.Xml

section Keeps

variable [Libvirtd] [FileSystem] [Xmltree]

-- VM delete keeps the data disks of other VMs: the report has one entry for each data
-- disk, and a volume goes only if a data disk of the domain leads to it that is not
-- shared and whose file no data disk of another domain leads to.
theorem delete_keeps_others (id : Uuid) (w : World) (o : Outside) (halone : Alone o)
    (hscan : (deleteOn id true).Along (Busy.answer o) (ScanAnswered o) ⟨w, []⟩)
    (report : Removal) (t : Busy) (h : busily o (deleteOn id true) w = (.ok report, t)) :
    ∃ d disks, w.domains.lookup id = some d ∧ domainDisks (d.xmlDesc true) = .ok disks ∧
      (report.removed ++ report.skipped.map (·.path)).Perm (disks.map (diskName w)) ∧
      ∀ v, Deleted t.log v →
        ∃ disk ∈ disks, disk.shared = false ∧ ∃ path, diskPath w disk.source = some path ∧
          VolAt w path v ∧ ∀ e ∈ w.domains.entries, e.1 ≠ id → ∀ xml ∈ documents e.2, ∃ others,
            domainDisks xml = .ok others ∧ ∀ other ∈ others, ∀ path',
              diskPath w other.source = some path' → canonical path' ≠ canonical path := by
  have hstart : Scanning w ⟨w, []⟩ := ⟨rfl, fun _ hm => absurd hm List.not_mem_nil⟩
  have hend := (deleteOn_scanned halone hstart).along hscan
  have hrun : (deleteOn id true).run (Busy.answer o) ⟨w, []⟩ = (.ok report, t) := h
  rw [hrun] at hend
  obtain ⟨d, disks, users, removed, skipped, gone, hd, hdisks, hkeys, hhandled, rfl, hdeleted⟩ :=
    hend report rfl
  refine ⟨d, disks, hd, hdisks, ?_, ?_⟩
  · rw [List.map_append]
    have hswap : (removed ++ ((disks.filterMap (unresolved w)).map (·.path) ++
        skipped.map (·.path))).Perm ((removed ++ skipped.map (·.path)) ++
          (disks.filterMap (unresolved w)).map (·.path)) := by
      rw [List.append_assoc]
      exact List.perm_append_comm.append_left _
    exact hswap.trans ((hhandled.perm.append_right _).trans (names_perm disks))
  · intro v hv
    obtain ⟨x, hx, ⟨hshared, hunused⟩, hat⟩ := hhandled.gone_spec v (hdeleted v hv)
    obtain ⟨disk, hdisk, hpath, hkey, hsh⟩ := mem_targets hx
    obtain ⟨hread, huse⟩ := hkeys x hx
    refine ⟨disk, hdisk, by rw [← hsh, hshared], x.path, hpath, hat, ?_⟩
    intro e he hid xml hxml'
    obtain ⟨others, hothers⟩ := hread e he hid xml hxml'
    refine ⟨others, hothers, ?_⟩
    intro other hother path' hpath' heq
    apply huse.mp hunused
    exact ⟨e, he, hid, xml, hxml', others, hothers, other, hother, path', hpath', by rw [heq, hkey]⟩

end Keeps

-- What an entry of a report names.
section Names

variable [Libvirtd] [FileSystem]

-- An entry names a volume by a path that libvirt finds it at, as pool and volume, or by a path
-- that leads to the volume's file.
def Names (w : World) (entry : String) (v : VolRef) : Prop :=
  VolAt w entry v ∨ entry = v.pool ++ "/" ++ v.name ∨
    ∃ path, volPathOf w v = some path ∧ canonical path = canonical entry

-- In the states of a run, a disk may lead to the volume.
def LeadsIn (W : World → Prop) (source : DiskSource) (v : VolRef) : Prop :=
  ∃ path, PathIn W source path ∧ ∃ x, W x ∧ VolAt x path v

-- In the states of a run, the entry of a disk may name the volume.
def NamedIn (W : World → Prop) (source : DiskSource) (v : VolRef) : Prop :=
  ∃ x, W x ∧ ((∃ path, PathIn W source path ∧ Names x path v) ∨
    ∃ pool volume, source = .volume pool volume ∧ Names x (pool ++ "/" ++ volume) v)

-- Neither of two data disks names a volume that the other one leads to and may take with it.
def ApartIn (W : World → Prop) (a b : Disk) : Prop :=
  ∀ v, ¬(a.shared = false ∧ LeadsIn W a.source v ∧ NamedIn W b.source v) ∧
    ¬(b.shared = false ∧ LeadsIn W b.source v ∧ NamedIn W a.source v)

def SeparateIn (W : World → Prop) (disks : List Disk) : Prop := disks.Pairwise (ApartIn W)

instance (W : World → Prop) : Std.Symm (ApartIn W) := ⟨fun _ _ h v => ⟨(h v).2, (h v).1⟩⟩

variable {W : World → Prop} {disks : List Disk} {targets : List Target} {early : List Skipped}
  {users : List (String × String)} {removed : List String} {skipped : List Skipped}
  {gone : List VolRef}

theorem Handled.leads (hresolved : Resolved W disks targets early)
    (hhandled : Handled (fun path v => ∃ x, W x ∧ VolAt x path v) users targets removed skipped gone)
    {v : VolRef} (hv : v ∈ gone) :
    ∃ disk ∈ disks, disk.shared = false ∧ LeadsIn W disk.source v := by
  obtain ⟨x, hx, ⟨hshared, -⟩, hat⟩ := hhandled.gone_spec v hv
  obtain ⟨disk, hdisk, hpath, hsame⟩ := hresolved.mem_targets x hx
  exact ⟨disk, hdisk, by rw [← hsame, hshared], x.path, hpath, hat⟩

-- The disks stand apart, so the targets and the entries that have no path do.
theorem Resolved.apart (h : Resolved W disks targets early) (hsep : SeparateIn W disks) :
    (∀ entry ∈ early, ∀ x ∈ targets, ∀ v, ¬(x.shared = false ∧
      (∃ y, W y ∧ VolAt y x.path v) ∧ ∃ y, W y ∧ Names y entry.path v)) ∧
    targets.Pairwise fun a b => ∀ v,
      ¬(a.shared = false ∧ (∃ x, W x ∧ VolAt x a.path v) ∧ ∃ x, W x ∧ Names x b.path v) ∧
        ¬(b.shared = false ∧ (∃ x, W x ∧ VolAt x b.path v) ∧ ∃ x, W x ∧ Names x a.path v) := by
  induction h with
  | nil => simp
  | @target disk path rest targets early hpath h ih =>
      obtain ⟨hhead, hrest⟩ := List.pairwise_cons.mp hsep
      obtain ⟨hearly, htargets⟩ := ih hrest
      constructor
      · intro entry hentry x hx v
        obtain rfl | hx := List.mem_cons.mp hx
        · rintro ⟨hshared, hat, y, hy, hname⟩
          obtain ⟨other, hm, pool, volume, hsource, heq⟩ := h.mem_early entry hentry
          rw [heq] at hname
          exact (hhead other hm v).1 ⟨hshared, ⟨path, hpath, hat⟩,
            y, hy, .inr ⟨pool, volume, hsource, hname⟩⟩
        · exact hearly entry hentry x hx v
      · refine List.pairwise_cons.mpr ⟨?_, htargets⟩
        intro x hx v
        obtain ⟨other, hm, hother, hsame⟩ := h.mem_targets x hx
        rw [hsame]
        constructor
        · rintro ⟨hshared, hat, y, hy, hname⟩
          exact (hhead other hm v).1 ⟨hshared, ⟨path, hpath, hat⟩, y, hy, .inl ⟨x.path, hother, hname⟩⟩
        · rintro ⟨hshared, hat, y, hy, hname⟩
          exact (hhead other hm v).2 ⟨hshared, ⟨x.path, hother, hat⟩, y, hy, .inl ⟨path, hpath, hname⟩⟩
  | @missing disk pool volume rest targets early hsource h ih =>
      obtain ⟨hhead, hrest⟩ := List.pairwise_cons.mp hsep
      obtain ⟨hearly, htargets⟩ := ih hrest
      refine ⟨?_, htargets⟩
      intro entry hentry x hx v
      obtain rfl | hentry := List.mem_cons.mp hentry
      · rintro ⟨hshared, hat, y, hy, hname⟩
        obtain ⟨other, hm, hother, hsame⟩ := h.mem_targets x hx
        rw [hsame] at hshared
        exact (hhead other hm v).2 ⟨hshared, ⟨x.path, hother, hat⟩,
          y, hy, .inr ⟨pool, volume, hsource, hname⟩⟩
      · exact hearly entry hentry x hx v

theorem separateIn_keeps (hresolved : Resolved W disks targets early)
    (hhandled : Handled (fun path v => ∃ x, W x ∧ VolAt x path v) users targets removed skipped gone)
    (hsep : SeparateIn W disks) :
    ∀ entry ∈ early ++ skipped, ∀ v ∈ gone, ∀ x, W x → ¬Names x entry.path v := by
  obtain ⟨hearly, htargets⟩ := hresolved.apart hsep
  intro entry hentry v hv x hx hname
  obtain hentry | hentry := List.mem_append.mp hentry
  · obtain ⟨y, hy, ⟨hshared, -⟩, hat⟩ := hhandled.gone_spec v hv
    exact hearly entry hentry y hy v ⟨hshared, hat, x, hx, hname⟩
  · refine hhandled.apart (fun path v => ∃ x, W x ∧ Names x path v) ?_ v hv entry hentry
      ⟨x, hx, hname⟩
    refine htargets.imp fun {a b} hab v => ?_
    exact ⟨fun h => (hab v).1 ⟨h.1.1, h.2⟩, fun h => (hab v).2 ⟨h.1.1, h.2⟩⟩

theorem shared_not_gone (hresolved : Resolved W disks targets early)
    (hhandled : Handled (fun path v => ∃ x, W x ∧ VolAt x path v) users targets removed skipped gone)
    (hsep : SeparateIn W disks) {disk : Disk} (hdisk : disk ∈ disks) (hshared : disk.shared = true)
    {v : VolRef} (hname : NamedIn W disk.source v) : v ∉ gone := by
  intro hv
  obtain ⟨other, hother, hunshared, hleads⟩ := hhandled.leads hresolved hv
  have hne : disk ≠ other := by
    rintro rfl
    rw [hshared] at hunshared
    cases hunshared
  exact (List.Pairwise.forall hsep hdisk hother hne v).2 ⟨hunshared, hleads, hname⟩

end Names

section Report

variable [Libvirtd] [FileSystem] [Xmltree] {w : World} {id : Uuid} {report : Removal} {t : Calm}

-- The delete of the domain takes the disk for one that only this domain uses.
def Doomed (w : World) (id : Uuid) (disk : Disk) (v : VolRef) : Prop :=
  disk.shared = false ∧ ∃ path, diskPath w disk.source = some path ∧
    ¬OtherUses w id (canonical path) ∧ VolAt w path v

-- One data disk dooms a volume that the other one names, and the other one dooms none that goes
-- in its place.
def Clashes (w : World) (id : Uuid) (a b : Disk) (v : VolRef) : Prop :=
  Doomed w id a v ∧ Names w (diskName w b) v ∧ ¬∃ x, x ≠ v ∧ Doomed w id b x

def Apart (w : World) (id : Uuid) (a b : Disk) : Prop :=
  ∀ v, ¬Clashes w id a b v ∧ ¬Clashes w id b a v

instance : Std.Symm (Apart w id) := ⟨fun _ _ h v => ⟨(h v).2, (h v).1⟩⟩

def Separate (w : World) (id : Uuid) (disks : List Disk) : Prop := disks.Pairwise (Apart w id)

section Targets

variable {disks : List Disk} {users : List (String × String)}

theorem deletable_iff {disk : Disk} {path : String} (hpath : diskPath w disk.source = some path)
    (hdisk : disk ∈ disks) (hkeys : ∀ x ∈ disks.filterMap (target w),
      Legible w id ∧ (users.lookup x.key = none ↔ ¬OtherUses w id x.key)) (v : VolRef) :
    Deletable users ⟨path, canonical path, disk.shared⟩ ∧ VolAt w path v ↔ Doomed w id disk v := by
  have hx : ⟨path, canonical path, disk.shared⟩ ∈ disks.filterMap (target w) :=
    List.mem_filterMap.mpr ⟨disk, hdisk, target_of_path hpath⟩
  have huse := (hkeys _ hx).2
  simp only [Deletable, Doomed, huse, hpath, Option.some.injEq, exists_eq_left', and_assoc]

theorem clash_iff {a b : Disk} {pathA pathB : String} (ha : a ∈ disks) (hb : b ∈ disks)
    (hpathA : diskPath w a.source = some pathA) (hpathB : diskPath w b.source = some pathB)
    (hkeys : ∀ x ∈ disks.filterMap (target w),
      Legible w id ∧ (users.lookup x.key = none ↔ ¬OtherUses w id x.key)) (v : VolRef) :
    Clash w users (Names w) ⟨pathA, canonical pathA, a.shared⟩ ⟨pathB, canonical pathB, b.shared⟩ v ↔
      Clashes w id a b v := by
  unfold Clash Clashes
  rw [diskName_of_path hpathB, ← deletable_iff hpathA ha hkeys v, and_assoc]
  simp only [deletable_iff hpathB hb hkeys]

theorem targets_pairwise (hsep : Separate w id disks) (hkeys : ∀ x ∈ disks.filterMap (target w),
      Legible w id ∧ (users.lookup x.key = none ↔ ¬OtherUses w id x.key)) :
    (disks.filterMap (target w)).Pairwise fun a b => ∀ v,
      ¬Clash w users (Names w) a b v ∧ ¬Clash w users (Names w) b a v := by
  rw [List.pairwise_filterMap]
  refine List.Pairwise.imp_of_mem ?_ hsep
  intro a b ha hb hab x hx y hy v
  obtain ⟨pathA, hpathA, rfl⟩ := Option.map_eq_some_iff.mp hx
  obtain ⟨pathB, hpathB, rfl⟩ := Option.map_eq_some_iff.mp hy
  rw [clash_iff ha hb hpathA hpathB hkeys, clash_iff hb ha hpathB hpathA hkeys]
  exact hab v

end Targets

section Loop

variable {disks : List Disk} {users : List (String × String)} {removed : List String}
  {skipped : List Skipped} {gone : List VolRef} {ref : Ref} {flags : Nat}
  (hkeys : ∀ x ∈ disks.filterMap (target w),
    Legible w id ∧ (users.lookup x.key = none ↔ ¬OtherUses w id x.key))
  (hloop : Removing users ⟨w.eraseDomain id, [(.domainUndefineFlags ref flags, w.eraseDomain id)]⟩
    (disks.filterMap (target w)) removed skipped gone t)
include hkeys hloop

theorem doomed_of_gone {v : VolRef} (hv : v ∈ gone) : ∃ disk ∈ disks, Doomed w id disk v := by
  have hhandled : Handled (VolAt w) users (disks.filterMap (target w)) removed skipped gone :=
    hloop.handled fun _ _ hv => hv
  obtain ⟨x, hx, ⟨hshared, hunused⟩, hat⟩ := hhandled.gone_spec v hv
  obtain ⟨disk, hdisk, hpath, hkey, hsh⟩ := mem_targets hx
  refine ⟨disk, hdisk, by rw [← hsh, hshared], x.path, hpath, ?_, hat⟩
  rw [← hkey]
  exact (hkeys x hx).2.mp hunused

theorem gone_of_doomed (hlaw : Lawful w) (hunique : PathsUnique w) {disk : Disk} (hdisk : disk ∈ disks)
    {v : VolRef} (h : Doomed w id disk v) : v ∈ gone := by
  obtain ⟨hshared, path, hpath, hunused, hat⟩ := h
  have hx : ⟨path, canonical path, disk.shared⟩ ∈ disks.filterMap (target w) :=
    List.mem_filterMap.mpr ⟨disk, hdisk, target_of_path hpath⟩
  have hlaw' : Lawful (w.eraseDomain id) := ⟨hlaw.pools, hlaw.volumes, hlaw.clean⟩
  exact hloop.gone_of (fun _ _ hv => hv) hlaw' hunique hx ⟨hshared, (hkeys _ hx).2.mpr hunused⟩ hat

theorem separate_keeps (hlaw : Lawful w) (hunique : PathsUnique w) (hsep : Separate w id disks) :
    ∀ entry ∈ disks.filterMap (unresolved w) ++ skipped, ∀ v ∈ gone, ¬Names w entry.path v := by
  intro entry hentry v hv hname
  obtain hentry | hentry := List.mem_append.mp hentry
  · obtain ⟨a, ha, hunresolved⟩ := List.mem_filterMap.mp hentry
    obtain ⟨hnone, hnameA⟩ := unresolved_name hunresolved
    obtain ⟨b, hb, hdoomed⟩ := doomed_of_gone hkeys hloop hv
    have hpathless : ∀ x, ¬Doomed w id a x := by
      rintro x ⟨-, path, hpath, -⟩
      rw [hnone] at hpath
      cases hpath
    have hne : a ≠ b := by
      rintro rfl
      exact hpathless v hdoomed
    refine (List.Pairwise.forall hsep ha hb hne v).2 ⟨hdoomed, by rwa [hnameA], ?_⟩
    rintro ⟨x, -, hx⟩
    exact hpathless x hx
  · have hlaw' : Lawful (w.eraseDomain id) := ⟨hlaw.pools, hlaw.volumes, hlaw.clean⟩
    exact (hloop.apart (w := w) (fun _ _ hat => .inl hat) (fun _ _ hv => hv) hlaw' hunique
      (fun _ _ _ hat => hat) (targets_pairwise hsep hkeys)).2 v hv entry hentry hname

theorem shared_stays (hsep : Separate w id disks) (hlaw : Lawful w) {disk : Disk} (hdisk : disk ∈ disks)
    (hshared : disk.shared = true) {v : VolRef} (hname : Names w (diskName w disk) v) {path : String}
    (hat : VolAt w path v) : VolAt t.world path v := by
  have hlaw' : Lawful (w.eraseDomain id) := ⟨hlaw.pools, hlaw.volumes, hlaw.clean⟩
  have hnone : ∀ x, ¬Doomed w id disk x := by
    rintro x ⟨hunshared, -⟩
    rw [hshared] at hunshared
    cases hunshared
  refine hloop.stays hlaw' hat ?_
  intro hv
  obtain ⟨b, hb, hdoomed⟩ := doomed_of_gone hkeys hloop hv
  have hne : disk ≠ b := by
    rintro rfl
    exact hnone v hdoomed
  refine (List.Pairwise.forall hsep hdisk hb hne v).2 ⟨hdoomed, hname, ?_⟩
  rintro ⟨x, -, hx⟩
  exact hnone x hx

-- If one disk dooms a volume that another one names, a skipped entry names it.
theorem entry_of_clash (hlaw : Lawful w) (hunique : PathsUnique w) {a b : Disk} (hb : b ∈ disks)
    (hm : ∀ x y, target w a = some x → target w b = some y →
      [x, y].Sublist (disks.filterMap (target w)) ∨ [y, x].Sublist (disks.filterMap (target w)))
    {v : VolRef} (hclash : Clashes w id a b v) :
    ∃ entry ∈ disks.filterMap (unresolved w) ++ skipped, Names w entry.path v := by
  obtain ⟨⟨hshared, pathA, hpathA, hunused, hat⟩, hname, hno⟩ := hclash
  cases hpath : diskPath w b.source with
  | none =>
      obtain ⟨entry, hentry, heq⟩ := unresolved_of_none hpath
      refine ⟨entry, List.mem_append_left _ (List.mem_filterMap.mpr ⟨b, hb, hentry⟩), ?_⟩
      rwa [← heq]
  | some path =>
      rw [diskName_of_path hpath] at hname
      have hy := target_of_path hpath
      have hymem : ⟨path, canonical path, b.shared⟩ ∈ disks.filterMap (target w) :=
        List.mem_filterMap.mpr ⟨b, hb, hy⟩
      have hlaw' : Lawful (w.eraseDomain id) := ⟨hlaw.pools, hlaw.volumes, hlaw.clean⟩
      by_cases hown : ∃ x, Deletable users ⟨path, canonical path, b.shared⟩ ∧ VolAt w path x
      · -- Both lead to the volume, so one of them finds nothing.
        obtain ⟨x, hx⟩ := hown
        have hdoomed := (deletable_iff hpath hb hkeys x).mp hx
        obtain rfl : x = v := by
          by_contra hne
          exact hno ⟨x, hne, hdoomed⟩
        have htwo : ∃ entry ∈ skipped, entry.path = pathA ∨ entry.path = path := by
          obtain hm | hm := hm _ _ (target_of_path hpathA) hy
          · exact hloop.skipped_of_two (fun _ _ hv => hv) hlaw' hunique hm hat hx.2
          · obtain ⟨entry, he, hp⟩ :=
              hloop.skipped_of_two (fun _ _ hv => hv) hlaw' hunique hm hx.2 hat
            exact ⟨entry, he, hp.symm⟩
        obtain ⟨entry, he, hp⟩ := htwo
        refine ⟨entry, List.mem_append_right _ he, .inl ?_⟩
        obtain hp | hp := hp
        · rwa [hp]
        · rw [hp]
          exact hx.2
      · have hkept : ¬Deletable users ⟨path, canonical path, b.shared⟩ ∨ ∀ x, ¬VolAt w path x := by
          by_contra hneither
          simp only [not_or, not_not, not_forall] at hneither
          obtain ⟨hdel, x, hx⟩ := hneither
          exact hown ⟨x, hdel, hx⟩
        obtain ⟨entry, he, hp⟩ := hloop.kept_of (fun _ _ hv => hv) hymem hkept
        refine ⟨entry, List.mem_append_right _ he, ?_⟩
        rw [hp]
        exact hname

-- The other direction for two data disks at different places.
theorem not_clashes (hlaw : Lawful w) (hunique : PathsUnique w) {a b : Disk}
    (hstay : ∀ entry ∈ disks.filterMap (unresolved w) ++ skipped, ∀ v ∈ gone,
      ¬Names w entry.path v) (ha : a ∈ disks) (hb : b ∈ disks)
    (hm : ∀ x y, target w a = some x → target w b = some y →
      [x, y].Sublist (disks.filterMap (target w)) ∨ [y, x].Sublist (disks.filterMap (target w)))
    (v : VolRef) : ¬Clashes w id a b v := by
  intro hclash
  obtain ⟨entry, hentry, hname⟩ := entry_of_clash hkeys hloop hlaw hunique hb hm hclash
  exact hstay entry hentry v (gone_of_doomed hkeys hloop hlaw hunique ha hclash.1) hname

theorem separate_of_keeps (hlaw : Lawful w) (hunique : PathsUnique w)
    (hstay : ∀ entry ∈ disks.filterMap (unresolved w) ++ skipped, ∀ v ∈ gone,
      ¬Names w entry.path v) : Separate w id disks := by
  refine List.pairwise_iff_forall_sublist.mpr ?_
  intro a b hab v
  have ha : a ∈ disks := hab.subset (by simp)
  have hb : b ∈ disks := hab.subset (by simp)
  have hsub : ∀ p q, target w a = some p → target w b = some q →
      [p, q].Sublist (disks.filterMap (target w)) := by
    intro p q hp hq
    have hfm := hab.filterMap (target w)
    simpa [hp, hq] using hfm
  constructor
  · exact not_clashes hkeys hloop hlaw hunique hstay ha hb (fun p q hp hq => .inl (hsub p q hp hq)) v
  · exact not_clashes hkeys hloop hlaw hunique hstay hb ha (fun p q hp hq => .inr (hsub q p hq hp)) v

end Loop

-- What the report lists as kept is kept in every run, with other clients and failing calls, if no
-- data disk names a volume that another one leads to that is not shared. In a run without them,
-- on a libvirt that keeps its promises, it is kept exactly if no two data disks clash.
theorem skipped_disks_stay (id : Uuid) (w : World) :
    (∀ (o : Outside) (W : World → Prop) (report : Removal) (t : Busy),
      (deleteOn id true).Along (Busy.answer o) (Meets W o) ⟨w, []⟩ →
      busily o (deleteOn id true) w = (.ok report, t) →
      ∃ d saved disks, d.id = id ∧ ⟨.query (.domainXmlDesc d true), .ok saved⟩ ∈ t.log ∧
        domainDisks saved = .ok disks ∧ (SeparateIn W disks →
          (∀ entry ∈ report.skipped, ∀ v, Deleted t.log v → ∀ x, W x → ¬Names x entry.path v) ∧
          ∀ disk ∈ disks, disk.shared = true → ∀ v, NamedIn W disk.source v → ¬Deleted t.log v)) ∧
    ∀ (report : Removal) (t : Calm), calmly (deleteOn id true) ⟨w, []⟩ = (.ok report, t) →
      ∃ d disks, w.domains.lookup id = some d ∧ domainDisks (d.xmlDesc true) = .ok disks ∧
        (Lawful w → PathsUnique w →
          ((∀ entry ∈ report.skipped, ∀ v u, (Command.volDelete v, u) ∈ t.log →
            ¬Names w entry.path v) ↔ Separate w id disks) ∧
          (Separate w id disks → ∀ disk ∈ disks, disk.shared = true → ∀ v,
            Names w (diskName w disk) v → ∀ path, VolAt w path v → VolAt t.world path v)) := by
  constructor
  · intro o W report t halong h
    have hstart : ∀ v, ¬Deleted (⟨w, []⟩ : Busy).log v := fun _ hv => absurd hv List.not_mem_nil
    have hend := (deleteOn_reported hstart).along halong
    have hrun : (deleteOn id true).run (Busy.answer o) ⟨w, []⟩ = (.ok report, t) := h
    rw [hrun] at hend
    obtain ⟨d, saved, disks, targets, early, users, removed, skipped, gone, hd, hlog, hdisks,
      hresolved, hhandled, rfl, hdeleted⟩ := hend report rfl
    refine ⟨d, saved, disks, hd, hlog, hdisks, fun hsep => ⟨?_, ?_⟩⟩
    · intro entry hentry v hv
      exact separateIn_keeps hresolved hhandled hsep entry hentry v (hdeleted v hv)
    · intro disk hdisk hshared v hname hv
      exact shared_not_gone hresolved hhandled hsep hdisk hshared hname (hdeleted v hv)
  · intro report t h
    obtain ⟨d, saved, disks, users, flags, skipped, gone, hd, hc, hdisks, hkeys, hloop, hskipped⟩ :=
      deleteOn_run h
    have hxml : d.xmlDesc true = saved := by simp [Domain.xmlDesc, hc]
    refine ⟨d, disks, hd, by rw [hxml, hdisks], fun hlaw hunique => ⟨?_, ?_⟩⟩
    · rw [hskipped]
      constructor
      · intro hstay
        refine separate_of_keeps hkeys hloop hlaw hunique ?_
        intro entry hentry v hv
        obtain ⟨u, hu⟩ := (mem_log_iff hloop v).mpr hv
        exact hstay entry hentry v u hu
      · intro hsep entry hentry v u hv
        exact separate_keeps hkeys hloop hlaw hunique hsep entry hentry v
          ((mem_log_iff hloop v).mp ⟨u, hv⟩)
    · intro hsep disk hdisk hshared v hname path hat
      exact shared_stays hkeys hloop hsep hlaw hdisk hshared hname hat

end Report

-- A pool with the volumes of two VMs: `web` is shut off and `db` runs.
section Runs

def fileDisk (device path : String) (flags : List String) : Element :=
  .mk "disk" [("type", "file"), ("device", device)] (.element (.mk "source" [("file", path)] []) ::
    flags.map fun flag => .element (.mk flag [] []))

def domainTree (disks : List Element) : Element :=
  .mk "domain" [] [.element (.mk "devices" [] (disks.map .element))]

def webXml : String :=
  "<domain><devices><disk type='file' device='disk'><source file='/srv/web'/></disk>" ++
    "</devices></domain>"

def dbXml : String :=
  "<domain><devices><disk type='file' device='disk'><source file='/srv/db'/></disk>" ++
    "</devices></domain>"

def seedXml : String :=
  "<domain><devices><disk type='file' device='disk'><source file='/srv/web'/><readonly/></disk>" ++
    "</devices></domain>"

def twiceXml : String :=
  "<domain><devices><disk type='file' device='disk'><source file='/srv/web'/><readonly/></disk>" ++
    "<disk type='file' device='disk'><source file='/srv/web'/></disk></devices></domain>"

def pairXml : String :=
  "<domain><devices><disk type='file' device='disk'><source file='/srv/web'/></disk>" ++
    "<disk type='file' device='disk'><source file='/srv/spare'/></disk></devices></domain>"

def isoXml : String :=
  "<domain><devices><disk type='file' device='cdrom'><source file='/srv/web'/></disk>" ++
    "</devices></domain>"

local instance hostTrees : Xmltree where
  parse xml :=
    if xml = webXml then .ok (domainTree [fileDisk "disk" "/srv/web" []])
    else if xml = dbXml then .ok (domainTree [fileDisk "disk" "/srv/db" []])
    else if xml = seedXml then .ok (domainTree [fileDisk "disk" "/srv/web" ["readonly"]])
    else if xml = twiceXml then
      .ok (domainTree [fileDisk "disk" "/srv/web" ["readonly"], fileDisk "disk" "/srv/web" []])
    else if xml = pairXml then
      .ok (domainTree [fileDisk "disk" "/srv/web" [], fileDisk "disk" "/srv/spare" []])
    else if xml = isoXml then .ok (domainTree [fileDisk "cdrom" "/srv/web" []])
    else if xml = "<volume/>" then .ok (.mk "volume" [] [])
    else .error "not a document of this host"

local instance noLinks : FileSystem := ⟨some⟩

local instance plainLibvirtd : Libvirtd where
  sanitizePath := id
  liveXml := id
  stopsAtOnce _ := false
  definePool _ _ := .error ⟨.other, "not used"⟩
  defineNetwork _ _ := .error ⟨.other, "not used"⟩
  createVol _ _ := .error ⟨.other, "not used"⟩

def webVol : Vol := ⟨"web", "/srv/web", "/srv/web", 0, 10, 5, "<volume/>"⟩
def dbVol : Vol := ⟨"db", "/srv/db", "/srv/db", 0, 10, 5, "<volume/>"⟩
def spareVol : Vol := ⟨"spare", "/srv/spare", "/srv/spare", 0, 10, 5, "<volume/>"⟩

def srvPool (volumes : List Vol) : StoragePool where
  name := "srv"
  state := 2
  active := true
  persistent := true
  autostart := false
  scan := ⟨volumes, 100, 10, 90⟩
  storage := ⟨volumes, 100, 10, 90⟩

def host (saved other : String) (volumes : List Vol) : World where
  domains := (AList.singleton 7 ⟨"web", 5, 1, 1024, .shutOff saved, false⟩).insert 8
    ⟨"db", 1, 1, 1024, .running (some other) other, false⟩
  pools := .singleton 1 (srvPool volumes)
  networks := ∅

theorem pool_of_entries {w : World} {volumes : List Vol} (h : w.pools.entries = [⟨1, srvPool volumes⟩])
    {id : Uuid} {p : StoragePool} (hp : w.pools.lookup id = some p) : id = 1 ∧ p = srvPool volumes := by
  have hm : (⟨id, p⟩ : Sigma fun _ : Uuid => StoragePool) ∈ w.pools.entries :=
    AList.mem_lookup_iff.mp hp
  rw [h, List.mem_singleton] at hm
  cases hm
  exact ⟨rfl, rfl⟩

theorem lawful_of_entries {w : World} {volumes : List Vol}
    (h : w.pools.entries = [⟨1, srvPool volumes⟩]) (hn : (volumes.map Vol.name).Nodup) : Lawful w := by
  refine ⟨?_, ?_, fun _ _ _ _ _ => rfl⟩
  · intro id id' p p' hp hp' _
    rw [(pool_of_entries h hp).1, (pool_of_entries h hp').1]
  · intro id p hp
    rw [(pool_of_entries h hp).2]
    exact hn

theorem pathsUnique_of_entries {w : World} {volumes : List Vol}
    (h : w.pools.entries = [⟨1, srvPool volumes⟩]) (hn : (volumes.map Vol.path).Nodup) :
    PathsUnique w := by
  rintro path v v' hv hv'
  obtain ⟨id, p, vol, hp, -, hvol, hpath, rfl⟩ := volAt_pool hv
  obtain ⟨id', p', vol', hp', -, hvol', hpath', rfl⟩ := volAt_pool hv'
  rw [(pool_of_entries h hp).2] at hvol ⊢
  rw [(pool_of_entries h hp').2] at hvol' ⊢
  rw [List.inj_on_of_nodup_map hn hvol hvol' (hpath.trans hpath'.symm)]

theorem web_volAt (saved other : String) :
    VolAt (host saved other [webVol, dbVol]) "/srv/web" ⟨"srv", "web", "/srv/web"⟩ := by
  have hp : (host saved other [webVol, dbVol]).pools.lookup 1 = some (srvPool [webVol, dbVol]) := rfl
  exact volAt_of_pool (p := srvPool [webVol, dbVol]) hp rfl List.mem_cons_self rfl

theorem exists_run {α σ : Type} {x : Except Error α × σ} {r : Except Error α} (h : x.1 = r) :
    ∃ t, x = (r, t) := ⟨x.2, by rw [← h]⟩

-- libvirt refuses to delete the volume `web`.
def refusing : Outside where
  faults _ c :=
    match c with
    | .command (.volDelete v) => if v.name = "web" then some ⟨.other, "in use"⟩ else none
    | _ => none

def pairHost : World := host pairXml dbXml [webVol, spareVol, dbVol]

-- One of the two deletes fails, and the other volume goes.
theorem delete_keeps_others_pair : ∃ t disks,
    busily refusing (deleteOn 7 true) pairHost =
      (.ok ⟨["/srv/spare"], [⟨"/srv/web", .failed "in use"⟩]⟩, t) ∧
    domainDisks pairXml = .ok disks ∧
    ["/srv/spare", "/srv/web"].Perm (disks.map (diskName pairHost)) := by
  have hscan : (deleteOn 7 true).Along (Busy.answer refusing) (ScanAnswered refusing)
      ⟨pairHost, []⟩ := by
    refine Prog.Along.of_calls (fun _ => True) ?_ (Prog.calls_trivial _) trivial
    rintro c - s -
    refine ⟨?_, trivial⟩
    rintro - q rfl
    rfl
  have hreport : (busily refusing (deleteOn 7 true) pairHost).1 =
      .ok ⟨["/srv/spare"], [⟨"/srv/web", .failed "in use"⟩]⟩ := by
    decide +kernel
  obtain ⟨t, hrun⟩ := exists_run hreport
  obtain ⟨d, disks, hd, hdisks, hperm, -⟩ :=
    delete_keeps_others 7 pairHost refusing (fun _ _ => rfl) hscan _ t hrun
  cases hd
  exact ⟨t, disks, hrun, hdisks, hperm⟩

theorem skipped_disks_stay_seed : ∃ t,
    calmly (deleteOn 7 true) ⟨host seedXml dbXml [webVol, dbVol], []⟩ =
      (.ok { skipped := [⟨"/srv/web", .shared⟩] }, t) ∧
      VolAt t.world "/srv/web" ⟨"srv", "web", "/srv/web"⟩ := by
  have hreport : (calmly (deleteOn 7 true) ⟨host seedXml dbXml [webVol, dbVol], []⟩).1 =
      .ok { skipped := [⟨"/srv/web", .shared⟩] } := by
    decide +kernel
  obtain ⟨t, hrun⟩ := exists_run hreport
  obtain ⟨d, disks, hd, hdisks, hstay⟩ := (skipped_disks_stay 7 _).2 _ t hrun
  cases hd
  have hseed : domainDisks seedXml = .ok [⟨none, .file "/srv/web", true⟩] := by decide +kernel
  obtain rfl := Except.ok.inj (hseed.symm.trans hdisks)
  have hkept := (hstay (lawful_of_entries rfl (by decide))
    (pathsUnique_of_entries rfl (by decide))).2 (List.pairwise_singleton _ _)
  have hat := web_volAt seedXml dbXml
  have hpath : diskPath (host seedXml dbXml [webVol, dbVol]) (.file "/srv/web") =
      some "/srv/web" := by
    decide +kernel
  refine ⟨t, hrun, hkept _ (List.mem_singleton_self _) rfl _ (.inl ?_) _ hat⟩
  rwa [diskName_of_path hpath]

-- A path that libvirt knows nothing of names the volume whose file it links to.
example : @Names plainLibvirtd ⟨fun path => some (if path = "/data/link" then "/srv/web" else path)⟩
    (host webXml dbXml [webVol, dbVol]) "/data/link" ⟨"srv", "web", "/srv/web"⟩ :=
  .inr (.inr ⟨"/srv/web", by decide +kernel, by decide⟩)

-- One disk of the VM is read-only and stays, says the report. Another disk is the same file.
theorem skipped_disk_deleted : ∃ t,
    calmly (deleteOn 7 true) ⟨host twiceXml dbXml [webVol, dbVol], []⟩ =
      (.ok ⟨["/srv/web"], [⟨"/srv/web", .shared⟩]⟩, t) ∧
    ∃ v u, (Command.volDelete v, u) ∈ t.log ∧
      VolAt (host twiceXml dbXml [webVol, dbVol]) "/srv/web" v ∧ ¬VolAt t.world "/srv/web" v := by
  have hruns : (calmly (deleteOn 7 true) ⟨host twiceXml dbXml [webVol, dbVol], []⟩).1 =
        .ok ⟨["/srv/web"], [⟨"/srv/web", .shared⟩]⟩ ∧
      Command.volDelete ⟨"srv", "web", "/srv/web"⟩ ∈ (calmly (deleteOn 7 true)
        ⟨host twiceXml dbXml [webVol, dbVol], []⟩).2.log.map Prod.fst ∧
      (calmly (deleteOn 7 true) ⟨host twiceXml dbXml [webVol, dbVol], []⟩).2.world.volByPath
        "/srv/web" = none := by
    decide +kernel
  obtain ⟨hreport, hlog, hgone⟩ := hruns
  obtain ⟨t, hrun⟩ := exists_run hreport
  rw [hrun] at hlog hgone
  obtain ⟨⟨c, u⟩, hu, rfl⟩ := List.mem_map.mp hlog
  refine ⟨t, hrun, _, u, hu, ?_, volByPath_eq_none hgone⟩
  exact web_volAt _ _

end Runs

end Lodger.Delete
