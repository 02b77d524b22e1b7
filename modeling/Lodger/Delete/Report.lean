import Lodger.Delete.Loop

namespace Lodger.Delete

open Lodger.Lib Lodger.Libvirt Lodger.Cache Lodger.Xml

section Run

variable [Libvirtd] {w : World} {id : Uuid} {d : Domain}

theorem calmly_query_ok {q : Query} {s u : Calm} {a : q.Result}
    (h : calmly (query q) s = (.ok a, u)) : s.world.query q = .ok a ∧ u = s := by
  rw [calmly_query, Prod.mk.injEq] at h
  exact ⟨h.1, h.2.symm⟩

theorem calmly_reading_ok {α : Type} {p : Read α} {s u : Calm} {a : α}
    (h : calmly (reading p) s = (.ok a, u)) : p.eval s.world.query = .ok a ∧ u = s := by
  rw [calmly_reading, Prod.mk.injEq] at h
  exact ⟨h.1, h.2.symm⟩

theorem undefine_run {saved : String} (hd : w.domains.lookup id = some d)
    (hc : d.config = .shutOff saved) (ref : Ref) (href : ref.id = id) (log : List (Command × World)) :
    ∃ flags, calmly (undefine ref) ⟨w, log⟩ = (.ok (), ⟨w.eraseDomain id,
      log ++ [(.domainUndefineFlags ref flags, w.eraseDomain id)]⟩) := by
  subst href
  have hdomain : w.domain ref.id = .ok d := by
    simp [World.domain, hd]
  have hp : ∀ flags, w.perform (.domainUndefineFlags ref flags) = .ok {
      result := (), world := w.eraseDomain ref.id, events := [domainEvent ref.id 1] } := by
    intro flags
    simp only [World.perform, hdomain, bind, Except.bind, hc]
  have hrun : ∀ flags, calmly (command (.domainUndefineFlags ref flags)).attempt ⟨w, log⟩ =
      (.ok (.ok ()), ⟨w.eraseDomain ref.id,
        log ++ [(.domainUndefineFlags ref flags, w.eraseDomain ref.id)]⟩) := by
    intro flags
    rw [calmly_attempt, calmly_command_ok (hp flags)]
  exact ⟨_, Prog.run_bind_ok (hrun _)⟩

variable [FileSystem] [Xmltree] {report : Removal} {t : Calm}

-- What the two scans find, in one state of libvirt.
theorem targets_of_eval {ref : Ref} {found : List Target × Removal} (hdomain : w.domain ref.id = .ok d)
    (h : (do
      let xml : String ← get (.domainXmlDesc ref true)
      let disks ← readable (domainDisks xml)
      resolve disks : Read (List Target × Removal)).eval w.query = .ok found) :
    ∃ disks, domainDisks (d.xmlDesc true) = .ok disks ∧
      found = (disks.filterMap (target w), { skipped := disks.filterMap (unresolved w) }) := by
  have hxml : w.query (.domainXmlDesc ref true) = .ok (d.xmlDesc true : String) := by
    simp [World.query, hdomain, Except.map]
  obtain ⟨xml, hget, hrest⟩ := except_bind_eq_ok.mp ((eval_get_bind _ _).symm.trans h)
  obtain rfl : xml = d.xmlDesc true := Except.ok.inj (hget.symm.trans hxml)
  rw [Prog.eval_bind] at hrest
  cases hd : domainDisks (d.xmlDesc true) with
  | error e =>
      rw [hd] at hrest
      cases hrest
  | ok disks =>
      rw [hd] at hrest
      exact ⟨disks, rfl, (Except.ok.inj ((resolve_eval disks).symm.trans hrest)).symm⟩

theorem keys_of_eval {targets : List Target} {users : List (String × String)}
    (h : (if targets.isEmpty then return []
      else do
        let domains : List Ref ← get .listAllDomains
        pathsOfOtherDomains domains id : Read (List (String × String))).eval w.query = .ok users) :
    ∀ x ∈ targets, Legible w id ∧ (users.lookup x.key = none ↔ ¬OtherUses w id x.key) := by
  intro x hx
  have hne : targets.isEmpty = false := by
    rw [List.isEmpty_eq_false_iff]
    exact List.ne_nil_of_mem hx
  simp only [hne, Bool.false_eq_true, if_false] at h
  obtain ⟨refs, hget, hrest⟩ := except_bind_eq_ok.mp ((eval_get_bind _ _).symm.trans h)
  obtain rfl := Except.ok.inj hget
  obtain ⟨hread, heq⟩ := pathsOfOtherDomains_eval hrest
  rw [heq]
  exact ⟨hread, lookup_users_eq_none⟩

-- A delete that answers has found the domain shut off, has read its data disks and
-- those of the others, and has gone through the targets after the undefine.
theorem deleteOn_run (h : calmly (deleteOn id true) ⟨w, []⟩ = (.ok report, t)) :
    ∃ d saved disks users flags skipped gone, w.domains.lookup id = some d ∧
      d.config = .shutOff saved ∧ domainDisks saved = .ok disks ∧
      (∀ x ∈ disks.filterMap (target w),
        Legible w id ∧ (users.lookup x.key = none ↔ ¬OtherUses w id x.key)) ∧
      Removing users ⟨w.eraseDomain id, [(.domainUndefineFlags ⟨id, d.name⟩ flags, w.eraseDomain id)]⟩
        (disks.filterMap (target w)) report.removed skipped gone t ∧
      report.skipped = disks.filterMap (unresolved w) ++ skipped := by
  obtain ⟨ref, s₁, hrun₁, h⟩ := Prog.run_bind_eq_ok h
  obtain ⟨href, rfl⟩ := calmly_query_ok hrun₁
  obtain ⟨active, s₂, hrun₂, h⟩ := Prog.run_bind_eq_ok h
  obtain ⟨hactive, rfl⟩ := calmly_query_ok hrun₂
  -- The domain and its reference.
  cases hlookup : w.domains.lookup id with
  | none => simp [World.query, World.domain, hlookup, Except.map] at href
  | some d =>
      have hdomain : w.domain id = .ok d := by simp [World.domain, hlookup]
      have hquery : w.query (.lookupDomainByUuid id) = .ok (⟨id, d.name⟩ : Ref) := by
        simp [World.query, hdomain, Except.map]
      obtain rfl : ref = ⟨id, d.name⟩ := Except.ok.inj (href.symm.trans hquery)
      have hquery : w.query (.domainIsActive ⟨id, d.name⟩) = .ok (d.isActive : Bool) := by
        simp [World.query, hdomain, Except.map]
      obtain rfl : active = d.isActive := Except.ok.inj (hactive.symm.trans hquery)
      by_cases ha : d.isActive = true
      · rw [if_pos ha] at h
        cases h
      · rw [if_neg ha] at h
        cases hc : d.config with
        | running saved live => simp [Domain.isActive, hc] at ha
        | shutOff saved =>
            obtain ⟨found, s₃, hrun₃, h⟩ := Prog.run_bind_eq_ok h
            obtain ⟨hfound, rfl⟩ := calmly_reading_ok hrun₃
            obtain ⟨users, s₄, hrun₄, h⟩ := Prog.run_bind_eq_ok h
            obtain ⟨husers, rfl⟩ := calmly_reading_ok hrun₄
            obtain ⟨disks, hdisks, rfl⟩ := targets_of_eval hdomain hfound
            have hxml : d.xmlDesc true = saved := by simp [Domain.xmlDesc, hc]
            rw [hxml] at hdisks
            obtain ⟨flags, hundefine⟩ := undefine_run hlookup hc ⟨id, d.name⟩ rfl []
            obtain ⟨_, s₅, hu, h⟩ := Prog.run_bind_eq_ok h
            have hs₅ := hundefine.symm.trans hu
            cases hs₅
            have hkeys := keys_of_eval husers
            -- The domain is gone, so the loop runs.
            have hgone : calmly (query (.lookupDomainByUuid id)).attempt
                ⟨w.eraseDomain id, [(.domainUndefineFlags ⟨id, d.name⟩ flags, w.eraseDomain id)]⟩ =
                (.ok (.error noDomain),
                  ⟨w.eraseDomain id, [(.domainUndefineFlags ⟨id, d.name⟩ flags, w.eraseDomain id)]⟩) := by
              have hnone : (w.eraseDomain id).domain id = .error noDomain := by
                simp [World.domain, World.eraseDomain]
              rw [calmly_attempt, calmly_query]
              simp only [World.query, hnone, Except.map]
            have hloop := (Prog.run_bind_ok hgone).symm.trans h
            obtain ⟨removed, skipped, gone, hloop, hremoved, hskipped⟩ := removeTargets_run _ _ _ hloop
            simp only [List.nil_append] at hremoved
            subst hremoved
            exact ⟨d, saved, disks, users, flags, skipped, gone, rfl, hc, hdisks, hkeys, hloop,
              hskipped⟩

end Run

section Report

variable [Libvirtd] {w : World} {id : Uuid} {t : Calm}

theorem mem_log_iff {users : List (String × String)} {targets : List Target} {removed : List String}
    {skipped : List Skipped} {gone : List VolRef} {ref : Ref} {flags : Nat}
    (h : Removing users ⟨w.eraseDomain id, [(.domainUndefineFlags ref flags, w.eraseDomain id)]⟩
      targets removed skipped gone t) (v : VolRef) :
    (∃ u, (Command.volDelete v, u) ∈ t.log) ↔ v ∈ gone := by
  rw [h.mem_log v]
  simp

theorem diskName_of_path {disk : Disk} {path : String} (h : diskPath w disk.source = some path) :
    diskName w disk = path := by
  simp [diskName, h]

theorem unresolved_name {disk : Disk} {entry : Skipped} (h : unresolved w disk = some entry) :
    diskPath w disk.source = none ∧ diskName w disk = entry.path := by
  cases hp : diskPath w disk.source with
  | some path => simp [unresolved, hp] at h
  | none =>
      cases hs : disk.source with
      | file written => simp [diskPath, hs] at hp
      | block written => simp [diskPath, hs] at hp
      | volume pool volume =>
          rw [hs] at hp
          simp only [unresolved, hs, hp, Option.some.injEq] at h
          simp [diskName, hs, hp, ← h]

theorem unresolved_of_none {disk : Disk} (h : diskPath w disk.source = none) :
    ∃ entry, unresolved w disk = some entry ∧ diskName w disk = entry.path := by
  cases hs : disk.source with
  | file written => simp [diskPath, hs] at h
  | block written => simp [diskPath, hs] at h
  | volume pool volume =>
      rw [hs] at h
      exact ⟨⟨pool ++ "/" ++ volume, .notInPool⟩, by simp [unresolved, hs, h],
        by simp [diskName, hs, h]⟩

variable [FileSystem]

theorem target_of_path {disk : Disk} {path : String} (h : diskPath w disk.source = some path) :
    target w disk = some ⟨path, canonical path, disk.shared⟩ := by
  simp [target, h]

theorem mem_targets {disks : List Disk} {x : Target} (h : x ∈ disks.filterMap (target w)) :
    ∃ disk ∈ disks, diskPath w disk.source = some x.path ∧ x.key = canonical x.path ∧
      x.shared = disk.shared := by
  obtain ⟨disk, hdisk, ht⟩ := List.mem_filterMap.mp h
  obtain ⟨path, hpath, rfl⟩ := Option.map_eq_some_iff.mp ht
  exact ⟨disk, hdisk, hpath, rfl, rfl⟩

-- Each disk is a target or goes to the report at once.
theorem names_perm (disks : List Disk) :
    ((disks.filterMap (target w)).map (·.path) ++ (disks.filterMap (unresolved w)).map (·.path)).Perm
      (disks.map (diskName w)) := by
  induction disks with
  | nil => simp
  | cons disk rest ih =>
      cases hp : diskPath w disk.source with
      | some path =>
          have hn : diskName w disk = path := by simp [diskName, hp]
          simp only [List.filterMap_cons, target, unresolved, hp, Option.map_some, List.map_cons, hn]
          exact ih.cons path
      | none =>
          cases hs : disk.source with
          | file written => simp [diskPath, hs] at hp
          | block written => simp [diskPath, hs] at hp
          | volume pool volume =>
              rw [hs] at hp
              have hn : diskName w disk = pool ++ "/" ++ volume := by simp [diskName, hp, hs]
              simp only [List.filterMap_cons, target, unresolved, hs, hp, Option.map_none,
                List.map_cons, hn]
              exact List.perm_middle.trans (ih.cons _)

end Report

end Lodger.Delete
