import Lodger.Delete.Lemmas
import Lodger.Lib.Table

namespace Lodger

open Lodger.Lib Lodger.Libvirt Lodger.Cache Lodger.Xml
open Jobs (NamesUnique pool_eq_ok poolByName_lookup activePool_eq_ok)

section Volumes

variable [Libvirtd] (w : World)

-- A volume of a running pool that libvirt can find at the path.
def VolAt (path : String) (v : VolRef) : Prop :=
  ∃ e ∈ w.pools.entries, e.2.active = true ∧ ∃ vol ∈ e.2.scan.volumes,
    vol.path = Libvirtd.sanitizePath path ∧ v = e.2.volRef vol

def volPathOf (v : VolRef) : Option String := (w.vol v).toOption.map (·.path)

-- The path of a disk, as `pathOf` computes it in one state of libvirt.
def diskPath : DiskSource → Option String
  | .file path | .block path => some (((w.volByPath path).bind (volPathOf w)).getD path)
  | .volume pool volume => do
      let (id, _) ← w.poolByName pool
      let p ← (w.activePool id).toOption
      let v ← (p.vol volume).toOption
      volPathOf w (p.volRef v)

variable {w} {path : String} {v : VolRef}

theorem volAt_of_volByPath (h : w.volByPath path = some v) : VolAt w path v := by
  obtain ⟨e, he, hv⟩ := List.exists_of_findSome?_eq_some h
  by_cases ha : e.2.active = true
  · rw [if_pos ha] at hv
    obtain ⟨vol, hvol, rfl⟩ := Option.map_eq_some_iff.mp hv
    have hpath := List.find?_some hvol
    simp only [decide_eq_true_eq] at hpath
    exact ⟨e, he, ha, vol, List.mem_of_find?_eq_some hvol, hpath, rfl⟩
  · rw [if_neg ha] at hv
    cases hv

theorem volAt_of_lookup (h : w.query (.lookupStorageVolByPath path) = .ok v) : VolAt w path v := by
  cases hpath : w.volByPath path with
  | none => simp [World.query, hpath] at h
  | some ref =>
      simp only [World.query, hpath, Option.elim_some] at h
      obtain rfl := Except.ok.inj h
      exact volAt_of_volByPath hpath

theorem volByPath_eq_none (h : w.volByPath path = none) : ¬VolAt w path v := by
  rintro ⟨e, he, ha, vol, hvol, hpath, -⟩
  have hnone := List.findSome?_eq_none_iff.mp h e he
  rw [if_pos ha, Option.map_eq_none_iff] at hnone
  have hne := List.find?_eq_none.mp hnone vol hvol
  simp [hpath] at hne

theorem eval_get_bind {α : Type} (q : Query) (f : q.Result → Read α) :
    (get q >>= f).eval w.query = w.query q >>= fun a => (f a).eval w.query :=
  Prog.eval_bind _ _

theorem writtenPath_eval (path : String) :
    (do
      let found ← Prog.attempt do
        let v : VolRef ← get (.lookupStorageVolByPath path)
        get (.volPath v)
      return some (found.toOption.getD path) : Read (Option String)).eval w.query =
      .ok (some (((w.volByPath path).bind (volPathOf w)).getD path)) := by
  have hlookup : (do
      let v : VolRef ← get (.lookupStorageVolByPath path)
      get (.volPath v) : Read String).eval w.query =
      ((w.volByPath path).elim (.error noStorageVolume) .ok >>= fun v =>
        (w.vol v).map (·.path)) := eval_get_bind _ _
  simp only [Prog.eval_bind, Prog.eval_attempt, hlookup]
  cases hv : w.volByPath path with
  | none => rfl
  | some v =>
      cases hp : w.vol v with
      | error e => simp [bind, Except.bind, hp, volPathOf, Except.map, Except.toOption]
      | ok vol => simp [bind, Except.bind, hp, volPathOf, Except.map, Except.toOption]

theorem pathOf_eval [FileSystem] (source : DiskSource) :
    (pathOf source).eval w.query = .ok (diskPath w source) := by
  cases source with
  | file path => exact writtenPath_eval path
  | block path => exact writtenPath_eval path
  | volume pool volume =>
      have hlookup : (do
          let p : Ref ← get (.lookupStoragePoolByName pool)
          let v : VolRef ← get (.poolLookupStorageVolByName p volume)
          get (.volPath v) : Read String).eval w.query =
          ((w.poolByName pool).elim (.error noStoragePool) (fun (id, p) => .ok ⟨id, p.name⟩) >>=
            fun p : Ref => (w.activePool p.id >>= fun q => (q.vol volume).map q.volRef) >>=
              fun v => (w.vol v).map (·.path)) :=
        (eval_get_bind _ _).trans (bind_congr fun _ => eval_get_bind _ _)
      simp only [pathOf, Prog.eval_bind, Prog.eval_attempt, hlookup, diskPath]
      cases hp : w.poolByName pool with
      | none => rfl
      | some found =>
          obtain ⟨id, p⟩ := found
          simp only [Option.elim_some]
          cases ha : w.activePool id with
          | error e => simp [bind, Except.bind, ha, Except.toOption]
          | ok q =>
              cases hv : q.vol volume with
              | error e => simp [bind, Except.bind, ha, hv, Except.toOption, Except.map]
              | ok vol =>
                  cases hw : w.vol (q.volRef vol) with
                  | error e =>
                      simp [bind, Except.bind, ha, hv, hw, Except.toOption, Except.map, volPathOf]
                  | ok found =>
                      simp [bind, Except.bind, ha, hv, hw, Except.toOption, Except.map, volPathOf]

end Volumes

-- What libvirt promises of its pools: no two have a name in common, no two volumes of
-- one pool do, and it finds a volume under the path that it gives for it.
structure Lawful [Libvirtd] (w : World) : Prop where
  pools : NamesUnique w
  volumes : ∀ id p, w.pools.lookup id = some p → (p.scan.volumes.map Vol.name).Nodup
  clean : ∀ id p, w.pools.lookup id = some p → ∀ vol ∈ p.scan.volumes,
    Libvirtd.sanitizePath vol.path = vol.path

section Lawful

variable [Libvirtd] {w : World} {path : String} {v : VolRef} {id : Uuid} {p : StoragePool} {vol : Vol}

omit [Libvirtd] in
theorem vol_eq_ok (hn : (p.scan.volumes.map Vol.name).Nodup) (hvol : vol ∈ p.scan.volumes) :
    p.vol vol.name = .ok vol := by
  rw [StoragePool.vol, (find?_key_eq_some hn).mpr ⟨hvol, rfl⟩]
  rfl

omit [Libvirtd] in
theorem vol_mem {name : String} (h : p.vol name = .ok vol) : vol ∈ p.scan.volumes ∧ vol.name = name := by
  unfold StoragePool.vol at h
  cases hf : p.scan.volumes.find? (·.name = name) with
  | none => simp [hf] at h
  | some found =>
      simp only [hf, Option.elim_some, Except.ok.injEq] at h
      subst h
      exact ⟨List.mem_of_find?_eq_some hf, by simpa using List.find?_some hf⟩

-- A volume that a handle leads to is one of a running pool.
omit [Libvirtd] in
theorem world_vol_mem (h : w.vol v = .ok vol) :
    ∃ id p, w.pools.lookup id = some p ∧ vol ∈ p.scan.volumes := by
  unfold World.vol at h
  cases hpool : w.poolByName v.pool with
  | none => simp [hpool] at h
  | some found =>
      obtain ⟨id, p⟩ := found
      simp only [hpool] at h
      by_cases ha : p.active = true
      · rw [if_pos ha] at h
        exact ⟨id, p, pool_eq_ok.mp (poolByName_lookup hpool), (vol_mem h).1⟩
      · simp [ha] at h

theorem Lawful.world_vol (h : Lawful w) (hp : w.pools.lookup id = some p) (ha : p.active = true)
    (hvol : vol ∈ p.scan.volumes) : w.vol (p.volRef vol) = .ok vol := by
  have hname : w.poolByName (p.volRef vol).pool = some (id, p) := h.pools.poolByName hp
  simp only [World.vol, hname, ha, if_true]
  exact vol_eq_ok (h.volumes id p hp) hvol

-- A volume at a path, with its pool.
theorem volAt_pool (h : VolAt w path v) : ∃ id p vol, w.pools.lookup id = some p ∧
    p.active = true ∧ vol ∈ p.scan.volumes ∧ vol.path = Libvirtd.sanitizePath path ∧
      v = p.volRef vol := by
  obtain ⟨e, he, ha, vol, hvol, hpath, rfl⟩ := h
  exact ⟨e.1, e.2, vol, AList.mem_lookup_iff.mpr he, ha, hvol, hpath, rfl⟩

theorem volAt_of_pool (hp : w.pools.lookup id = some p) (ha : p.active = true)
    (hvol : vol ∈ p.scan.volumes) (hpath : vol.path = Libvirtd.sanitizePath path) :
    VolAt w path (p.volRef vol) :=
  ⟨⟨id, p⟩, AList.mem_lookup_iff.mp hp, ha, vol, hvol, hpath, rfl⟩

-- Where libvirt finds a volume, the path of the disk is the volume's own.
theorem Lawful.diskPath_clean (h : Lawful w) {source : DiskSource} (hp : diskPath w source = some path)
    (hv : VolAt w path v) : Libvirtd.sanitizePath path = path := by
  have hown : ∀ ref, volPathOf w ref = some path → Libvirtd.sanitizePath path = path := by
    intro ref href
    obtain ⟨vol, hvol, rfl⟩ := Option.map_eq_some_iff.mp href
    cases hfound : w.vol ref with
    | error e => simp [hfound, Except.toOption] at hvol
    | ok found =>
        obtain rfl : found = vol := by simpa [hfound, Except.toOption] using hvol
        obtain ⟨id, p, hp, hmem⟩ := world_vol_mem hfound
        exact h.clean id p hp found hmem
  have hwritten : ∀ written, ((w.volByPath written).bind (volPathOf w)).getD written = path →
      Libvirtd.sanitizePath path = path := by
    intro written heq
    cases hfind : w.volByPath written with
    | none =>
        simp only [hfind, Option.bind_none, Option.getD_none] at heq
        subst heq
        exact absurd hv (volByPath_eq_none hfind)
    | some ref =>
        cases href : volPathOf w ref with
        | some own =>
            simp only [hfind, Option.bind_some, href, Option.getD_some] at heq
            subst heq
            exact hown ref href
        | none =>
            obtain ⟨id, p, vol, hpool, ha, hvol, -, rfl⟩ := volAt_pool (volAt_of_volByPath hfind)
            simp [volPathOf, h.world_vol hpool ha hvol, Except.toOption] at href
  cases source with
  | file written => exact hwritten written (Option.some.inj hp)
  | block written => exact hwritten written (Option.some.inj hp)
  | volume pool volume =>
      simp only [diskPath, Option.bind_eq_bind, Option.bind_eq_some_iff] at hp
      obtain ⟨_, _, _, _, _, _, hp⟩ := hp
      exact hown _ hp

end Lawful

section Deletes

variable [Libvirtd] {w : World} {v x : VolRef} {path : String} {p : Performed Unit}

theorem volDelete_effect (h : w.perform (.volDelete v) = .ok p) : ∃ id q found,
    w.pools.lookup id = some q ∧ q.name = v.pool ∧ q.active = true ∧ q.vol v.name = .ok found ∧
      p.world = w.setPool id { q with
        scan := q.scan.remove found, storage := q.storage.remove found } := by
  simp only [World.perform] at h
  cases hname : w.poolByName v.pool with
  | none => simp [hname] at h
  | some found =>
      obtain ⟨id, q⟩ := found
      simp only [hname] at h
      by_cases ha : q.active = true
      · rw [if_pos ha] at h
        obtain ⟨found, hfound, rfl⟩ := except_map_eq_ok.mp h
        obtain ⟨e, he, heq⟩ := Option.map_eq_some_iff.mp hname
        have hq : q.name = v.pool := by
          cases heq
          simpa using List.find?_some he
        exact ⟨id, q, found, pool_eq_ok.mp (poolByName_lookup hname), hq, ha, hfound, rfl⟩
      · rw [if_neg ha] at h
        cases h

theorem undefine_pools {d : Ref} {flags : Nat}
    (h : w.perform (.domainUndefineFlags d flags) = .ok p) : p.world.pools = w.pools := by
  simp only [World.perform] at h
  obtain ⟨dom, hdom, h⟩ := except_bind_eq_ok.mp h
  cases hc : dom.config with
  | shutOff saved =>
      rw [hc] at h
      cases h
      rfl
  | running saved live =>
      rw [hc] at h
      cases saved with
      | none => cases h
      | some saved =>
          cases h
          rfl

theorem volAt_pools {x : World} (h : x.pools = w.pools) (hv : VolAt x path v) : VolAt w path v := by
  obtain ⟨e, he, hrest⟩ := hv
  rw [h] at he
  exact ⟨e, he, hrest⟩

-- A delete makes no volume appear.
theorem volAt_of_deleted (h : w.perform (.volDelete v) = .ok p) (hx : VolAt p.world path x) :
    VolAt w path x := by
  obtain ⟨id, q, found, hq, hname, ha, hfound, hworld⟩ := volDelete_effect h
  obtain ⟨id', q', vol, hq', ha', hvol, hpath, rfl⟩ := volAt_pool hx
  rw [hworld] at hq'
  simp only [World.setPool, Cache.lookup_insert_eq] at hq'
  split at hq'
  · cases hq'
    have hmem : vol ∈ q.scan.volumes :=
      List.mem_of_mem_filter (show vol ∈ q.scan.volumes.filter (·.name ≠ found.name) from hvol)
    exact volAt_of_pool (p := q) hq ha hmem hpath
  · exact volAt_of_pool hq' ha' hvol hpath

theorem Lawful.perform_volDelete (h : Lawful w) (hv : VolAt w path v) :
    ∃ p, w.perform (.volDelete v) = .ok p := by
  obtain ⟨id, q, vol, hq, ha, hvol, -, rfl⟩ := volAt_pool hv
  have hname : w.poolByName (q.volRef vol).pool = some (id, q) := h.pools.poolByName hq
  have hfind : q.vol (q.volRef vol).name = .ok vol := vol_eq_ok (h.volumes id q hq) hvol
  simp only [World.perform, hname, ha, if_true, hfind]
  exact ⟨_, rfl⟩

theorem Lawful.deleted (h : Lawful w) (hp : w.perform (.volDelete v) = .ok p) : Lawful p.world := by
  obtain ⟨id, q, found, hq, hname, ha, hfound, hworld⟩ := volDelete_effect hp
  have hother : ∀ id' q', p.world.pools.lookup id' = some q' →
      ∃ q'', w.pools.lookup id' = some q'' ∧ q'.scan.volumes.Sublist q''.scan.volumes := by
    intro id' q' hq'
    rw [hworld] at hq'
    simp only [World.setPool, Cache.lookup_insert_eq] at hq'
    split at hq'
    · next hid =>
      subst hid
      cases hq'
      exact ⟨q, hq, List.filter_sublist⟩
    · exact ⟨q', hq', List.Sublist.refl _⟩
  refine ⟨?_, ?_, ?_⟩
  · rw [hworld]
    exact h.pools.update hq rfl
  · intro id' q' hq'
    obtain ⟨q'', hq'', hsub⟩ := hother id' q' hq'
    exact (h.volumes id' q'' hq'').sublist (hsub.map _)
  · intro id' q' hq' vol hvol
    obtain ⟨q'', hq'', hsub⟩ := hother id' q' hq'
    exact h.clean id' q'' hq'' vol (hsub.subset hvol)

-- Under these promises the volume itself is gone, and every other one stays.
theorem Lawful.not_volAt_deleted (h : Lawful w) (hp : w.perform (.volDelete v) = .ok p) :
    ¬VolAt p.world path v := by
  intro hv
  obtain ⟨id, q, found, hq, hname, ha, hfound, hworld⟩ := volDelete_effect hp
  obtain ⟨id', q', vol, hq', ha', hvol, hpath, rfl⟩ := volAt_pool hv
  have hlookup : p.world.pools.lookup id = some { q with
      scan := q.scan.remove found, storage := q.storage.remove found } := by
    rw [hworld]
    simp only [World.setPool, Cache.lookup_insert_eq, if_true]
  have hid : id' = id := (h.deleted hp).pools id' id q' _ hq' hlookup hname.symm
  subst hid
  rw [hlookup, Option.some.injEq] at hq'
  subst hq'
  have hne := List.of_mem_filter hvol
  have hfoundName : found.name = vol.name := (vol_mem hfound).2
  simp [hfoundName] at hne

theorem Lawful.volAt_deleted (h : Lawful w) (hp : w.perform (.volDelete v) = .ok p)
    {other : String} (hv : VolAt w other v) (hx : VolAt w path x) (hne : x ≠ v) :
    VolAt p.world path x := by
  obtain ⟨id, q, found, hq, hname, ha, hfound, hworld⟩ := volDelete_effect hp
  obtain ⟨id₁, q₁, vol₁, hq₁, -, hvol₁, -, rfl⟩ := volAt_pool hv
  obtain ⟨id₂, q₂, vol₂, hq₂, ha₂, hvol₂, hpath, rfl⟩ := volAt_pool hx
  obtain rfl : id₁ = id := h.pools id₁ id q₁ q hq₁ hq hname.symm
  obtain rfl : q₁ = q := Option.some.inj (hq₁.symm.trans hq)
  have hvolFound : vol₁ = found := by
    have hown := vol_eq_ok (h.volumes id₁ q₁ hq) hvol₁
    exact Except.ok.inj (hown.symm.trans hfound)
  subst hvolFound
  by_cases hid : id₂ = id₁
  · subst hid
    obtain rfl : q₂ = q₁ := Option.some.inj (hq₂.symm.trans hq)
    have hnames : vol₂.name ≠ vol₁.name := by
      intro heq
      have hsame := List.inj_on_of_nodup_map (h.volumes id₂ q₂ hq) hvol₂ hvol₁ heq
      exact hne (by rw [hsame])
    have hlookup : p.world.pools.lookup id₂ = some { q₂ with
        scan := q₂.scan.remove vol₁, storage := q₂.storage.remove vol₁ } := by
      rw [hworld]
      simp only [World.setPool, Cache.lookup_insert_eq, if_true]
    have hmem : vol₂ ∈ (q₂.scan.remove vol₁).volumes :=
      List.mem_filter.mpr ⟨hvol₂, by simpa using hnames⟩
    exact volAt_of_pool (p := { q₂ with
      scan := q₂.scan.remove vol₁, storage := q₂.storage.remove vol₁ }) hlookup ha hmem hpath
  · have hlookup : p.world.pools.lookup id₂ = some q₂ := by
      rw [hworld]
      simp only [World.setPool, Cache.lookup_insert_eq]
      rw [if_neg (Ne.symm hid)]
      exact hq₂
    exact volAt_of_pool hlookup ha₂ hvol₂ hpath

end Deletes

end Lodger
