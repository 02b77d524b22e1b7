import Lodger.Delete.Race
import Lodger.Delete.Report

namespace Lodger.Delete

open Lodger.Lib Lodger.Libvirt Lodger.Cache Lodger.Xml

-- The call has deleted the volume.
def Deleted (log : List Made) (v : VolRef) : Prop := ⟨.command (.volDelete v), .ok ()⟩ ∈ log

theorem not_deleted_of_log {s t : Busy} {c : Call} {r : Except Error c.Result}
    (hnone : ∀ v, ¬Deleted s.log v) (hc : ∀ v, c ≠ .command (.volDelete v))
    (hlog : t.log = s.log ++ [⟨c, r⟩]) : ∀ v, ¬Deleted t.log v := by
  intro v hv
  rw [Deleted, hlog] at hv
  obtain hv | hv := List.mem_append.mp hv
  · exact hnone v hv
  · exact hc v (congrArg Made.call (List.mem_singleton.mp hv)).symm

section Loop

variable [Libvirtd] {o : Outside} {ok : Busy → Call → Prop} {users : List (String × String)}
  {found : String → VolRef → Prop} {inv : Busy → Prop} {s : Busy}

-- The calls from the undefine on.
def Ending : Call → Prop
  | .query _ | .command (.domainUndefineFlags ..) | .command (.volDelete _) => True
  | _ => False

-- While `inv` holds, libvirt finds only what `found` allows.
structure Tracks (o : Outside) (ok : Busy → Call → Prop) (found : String → VolRef → Prop)
    (inv : Busy → Prop) : Prop where
  step : ∀ c, Ending c → ∀ s r t, fair o ok s c r t → inv s → inv t
  lookup : ∀ path v s t, fair o ok s (.query (.lookupStorageVolByPath path)) (.ok v) t → inv s →
    found path v

theorem removeTarget_handled (htracks : Tracks o ok found inv) (target : Target) (hs : inv s) :
    (removeTarget users target).Wp (fair o ok) (fun r t => inv t ∧
      ((∃ reason, r = .ok (some reason) ∧ ∀ v, Deleted t.log v → Deleted s.log v) ∨
        ∃ v, r = .ok none ∧ Deletable users target ∧ found target.path v ∧
          ∀ x, Deleted t.log x → Deleted s.log x ∨ x = v)) s := by
  have hsame : ∀ v, Deleted s.log v → Deleted s.log v := fun _ hv => hv
  refine Prog.Wp.ite (fun _ => ⟨hs, .inl ⟨_, rfl, hsame⟩⟩) fun hshared => ?_
  cases hlookup : users.lookup target.key with
  | some user => exact ⟨hs, .inl ⟨_, rfl, hsame⟩⟩
  | none =>
      have hdeletable : Deletable users target := ⟨by simpa using hshared, hlookup⟩
      intro r t hmay
      have ht := htracks.step (.query (.lookupStorageVolByPath target.path)) trivial _ _ _ hmay hs
      have hlog := turn_log (turn_of_fair hmay)
      have hnone : ∀ v, Deleted t.log v → Deleted s.log v := by
        intro v hv
        rw [Deleted, hlog] at hv
        obtain hv | hv := List.mem_append.mp hv
        · exact hv
        · cases List.mem_singleton.mp hv
      cases r with
      | error e =>
          exact Prog.Wp.ite (fun _ => ⟨ht, .inl ⟨_, rfl, hnone⟩⟩) fun _ =>
            ⟨ht, .inl ⟨_, rfl, hnone⟩⟩
      | ok v =>
          have hat := htracks.lookup _ _ _ _ hmay hs
          intro r u hdelete
          have hu := htracks.step (.command (.volDelete v)) trivial _ _ _ hdelete ht
          have hlog' := turn_log (turn_of_fair hdelete)
          cases r with
          | error e =>
              refine ⟨hu, .inl ⟨_, rfl, ?_⟩⟩
              intro x hx
              rw [Deleted, hlog'] at hx
              obtain hx | hx := List.mem_append.mp hx
              · exact hnone x hx
              · cases List.mem_singleton.mp hx
          | ok a =>
              refine ⟨hu, .inr ⟨v, rfl, hdeletable, hat, ?_⟩⟩
              intro x hx
              rw [Deleted, hlog'] at hx
              obtain hx | hx := List.mem_append.mp hx
              · exact .inl (hnone x hx)
              · cases List.mem_singleton.mp hx
                exact .inr rfl

theorem removeTargets_handled (htracks : Tracks o ok found inv) (targets : List Target)
    (report : Removal) (hs : inv s) :
    (removeTargets users targets report).Wp (fair o ok) (fun r t => inv t ∧ ∃ removed skipped gone,
      r = .ok ⟨report.removed ++ removed, report.skipped ++ skipped⟩ ∧
      Handled found users targets removed skipped gone ∧
      ∀ v, Deleted t.log v → Deleted s.log v ∨ v ∈ gone) s := by
  induction targets generalizing s report with
  | nil =>
      refine ⟨hs, [], [], [], ?_, .nil, fun _ hv => .inl hv⟩
      simp
  | cons target rest ih =>
      rw [removeTargets, List.foldlM_cons]
      refine Prog.wp_bind.mpr (Prog.wp_bind.mpr ((removeTarget_handled htracks target hs).imp ?_))
      intro r t ht
      obtain ⟨hinv, hstep⟩ := ht
      cases hstep with
      | inl hkept =>
          obtain ⟨reason, rfl, hlog⟩ := hkept
          refine (ih { report with skipped := report.skipped ++ [⟨target.path, reason⟩] } hinv).imp ?_
          intro r u hu
          obtain ⟨hend, removed, skipped, gone, hr, hrest, hdeleted⟩ := hu
          refine ⟨hend, removed, ⟨target.path, reason⟩ :: skipped, gone, ?_, .kept hrest, ?_⟩
          · rw [hr]
            simp
          · intro v hv
            exact (hdeleted v hv).imp_left (hlog v)
      | inr hremoved =>
          obtain ⟨v, rfl, hdeletable, hat, hlog⟩ := hremoved
          refine (ih { report with removed := report.removed ++ [target.path] } hinv).imp ?_
          intro r u hu
          obtain ⟨hend, removed, skipped, gone, hr, hrest, hdeleted⟩ := hu
          refine ⟨hend, target.path :: removed, skipped, v :: gone, ?_,
            .removed hdeletable hat hrest, ?_⟩
          · rw [hr]
            simp
          · intro x hx
            obtain hx | hx := hdeleted x hx
            · exact (hlog x hx).imp_right fun heq => List.mem_cons.mpr (.inl heq)
            · exact .inr (List.mem_cons_of_mem _ hx)

theorem undefine_handled (htracks : Tracks o ok found inv) (d : Ref) (hs : inv s)
    (hnone : ∀ v, ¬Deleted s.log v) :
    (undefine d).Wp (fair o ok) (fun _ t => inv t ∧ ∀ v, ¬Deleted t.log v) s := by
  have hcalls : (undefine d).Calls fun c => ∃ flags, c = .command (.domainUndefineFlags d flags) := by
    refine Prog.Calls.bind (Prog.Calls.attempt ⟨⟨_, rfl⟩, fun _ => trivial⟩) fun r => ?_
    cases r with
    | ok a => trivial
    | error e => exact Prog.Calls.ite ⟨⟨_, rfl⟩, fun _ => trivial⟩ trivial
  refine Prog.Wp.of_calls (fun t => inv t ∧ ∀ v, ¬Deleted t.log v) ?_ hcalls ⟨hs, hnone⟩
  rintro c ⟨flags, rfl⟩ s r t hmay ⟨hs, hnone⟩
  exact ⟨htracks.step (.command (.domainUndefineFlags d flags)) trivial _ _ _ hmay hs,
    not_deleted_of_log (c := .command (.domainUndefineFlags d flags)) hnone nofun
      (turn_log (turn_of_fair hmay))⟩

-- The end of a delete, from the undefine on.
theorem finish_handled (htracks : Tracks o ok found inv) (id : Uuid) (d : Ref)
    (targets : List Target) (report : Removal) (hs : inv s) (hnone : ∀ v, ¬Deleted s.log v) :
    (do
      undefine d
      match ← (query (.lookupDomainByUuid id)).attempt with
      | .ok _ => .fail (.wrongState ("the VM started during the delete: libvirt removed its " ++
          "definition, but it runs until it stops, and every disk stays"))
      | .error e =>
          if e.isCode .noDomain then removeTargets users targets report
          else .fail e : Job Removal).Wp (fair o ok)
      (fun r t => ∀ report', r = .ok report' → inv t ∧ ∃ removed skipped gone,
        report' = ⟨report.removed ++ removed, report.skipped ++ skipped⟩ ∧
        Handled found users targets removed skipped gone ∧ ∀ v, Deleted t.log v → v ∈ gone) s := by
  refine Prog.wp_bind.mpr ((undefine_handled htracks d hs hnone).imp ?_)
  rintro r t ⟨ht, hnone⟩
  cases r with
  | error e => exact nofun
  | ok a =>
      rw [outcome_ok, Prog.wp_bind, Prog.wp_attempt]
      intro r u hmay
      have hu := htracks.step (.query (.lookupDomainByUuid id)) trivial _ _ _ hmay ht
      have hnone := not_deleted_of_log (c := .query (.lookupDomainByUuid id)) hnone nofun
        (turn_log (turn_of_fair hmay))
      cases r with
      | ok found => exact nofun
      | error e =>
          refine Prog.Wp.ite (fun _ => ?_) fun _ => nofun
          refine (removeTargets_handled htracks targets report hu).imp ?_
          rintro r x ⟨hinv, removed, skipped, gone, rfl, hhandled, hdeleted⟩ report' heq
          refine ⟨hinv, removed, skipped, gone, (Except.ok.inj heq).symm, hhandled, ?_⟩
          exact fun v hv => (hdeleted v hv).resolve_left (hnone v)

end Loop

-- A run with no other client, in which no call fails for a reason of its own until the undefine.
section Scanned

variable [Libvirtd] {w : World} {o : Outside} {s t : Busy} {id : Uuid}

def Alone (o : Outside) : Prop := ∀ i x, o.acts i x = x

def ScanAnswered (o : Outside) (s : Busy) (c : Call) : Prop :=
  (∀ m ∈ s.log, ∀ d flags, m.call ≠ .command (.domainUndefineFlags d flags)) →
    ∀ q, c = .query q → o.faults s.log.length c = none

-- Only queries so far.
def Scanning (w : World) (s : Busy) : Prop := s.world = w ∧ ∀ m ∈ s.log, ∃ q, m.call = .query q

theorem Scanning.query (halone : Alone o) (hs : Scanning w s) {q : Query} {r : Except Error q.Result}
    (hmay : fair o (ScanAnswered o) s (.query q) r t) : r = w.query q ∧ Scanning w t := by
  have hbefore : ∀ m ∈ s.log, ∀ d flags, m.call ≠ .command (.domainUndefineFlags d flags) := by
    intro m hm d flags heq
    obtain ⟨q, hq⟩ := hs.2 m hm
    rw [heq] at hq
    cases hq
  have harrive : s.arrive o = w := (halone _ _).trans hs.1
  have hreply := turn_reply (turn_of_fair hmay)
  rw [hmay.2 hbefore q rfl, harrive] at hreply
  obtain ⟨hr, hworld⟩ := Prod.mk.inj hreply
  refine ⟨hr.symm, hworld.symm, ?_⟩
  intro m hm
  rw [turn_log (turn_of_fair hmay)] at hm
  obtain hm | hm := List.mem_append.mp hm
  · exact hs.2 m hm
  · exact ⟨q, congrArg Made.call (List.mem_singleton.mp hm)⟩

theorem Scanning.reading (halone : Alone o) {α : Type} {p : Read α} (hs : Scanning w s) :
    (reading p).Wp (fair o (ScanAnswered o)) (fun r t => r = p.eval w.query ∧ Scanning w t) s := by
  refine reading_wp ?_
  induction p generalizing s with
  | done r => exact ⟨rfl, hs⟩
  | call q k ih =>
      intro r t hmay
      obtain ⟨rfl, ht⟩ := hs.query halone hmay
      exact ih _ ht

omit [Libvirtd] in
theorem Scanning.not_deleted (hs : Scanning w s) (v : VolRef) : ¬Deleted s.log v := by
  intro hv
  obtain ⟨q, hq⟩ := hs.2 _ hv
  cases hq

-- From the undefine on libvirt has only volumes that it had before.
theorem alone_tracks (halone : Alone o) : Tracks o (ScanAnswered o) (VolAt w)
    fun s => ∀ path v, VolAt s.world path v → VolAt w path v := by
  constructor
  · intro c hc s r t hmay hs path v hv
    have harrive : s.arrive o = s.world := halone _ _
    cases c with
    | send e => cases hc
    | query q =>
        have hworld : t.world = s.arrive o := turn_query_world (turn_of_fair hmay)
        rw [hworld, harrive] at hv
        exact hs path v hv
    | command x =>
        cases r with
        | error e =>
            have hworld : t.world = s.arrive o := (turn_command_error (turn_of_fair hmay)).1
            rw [hworld, harrive] at hv
            exact hs path v hv
        | ok a =>
            obtain ⟨-, p, hp, -, hworld⟩ := turn_command_ok (turn_of_fair hmay)
            rw [harrive] at hp
            rw [← hworld] at hv
            cases x with
            | domainUndefineFlags d flags => exact hs path v (volAt_pools (undefine_pools hp) hv)
            | volDelete x => exact hs path v (volAt_of_deleted hp hv)
            | _ => cases hc
  · intro path v s t hmay hs
    obtain ⟨-, hquery, -⟩ := turn_query_ok (turn_of_fair hmay)
    rw [show s.arrive o = s.world from halone _ _] at hquery
    exact hs path v (volAt_of_lookup hquery)

variable [FileSystem] [Xmltree]

theorem deleteOn_scanned (halone : Alone o) (hs : Scanning w s) :
    (deleteOn id true).Wp (fair o (ScanAnswered o)) (fun r t => ∀ report, r = .ok report →
      ∃ d disks users removed skipped gone, w.domains.lookup id = some d ∧
        domainDisks (d.xmlDesc true) = .ok disks ∧
        (∀ x ∈ disks.filterMap (target w),
          Legible w id ∧ (users.lookup x.key = none ↔ ¬OtherUses w id x.key)) ∧
        Handled (VolAt w) users (disks.filterMap (target w)) removed skipped gone ∧
        report = ⟨removed, disks.filterMap (unresolved w) ++ skipped⟩ ∧
        ∀ v, Deleted t.log v → v ∈ gone) s := by
  intro r t hmay
  obtain ⟨rfl, ht⟩ := hs.query halone hmay
  cases hlookup : w.domains.lookup id with
  | none =>
      have hnone : w.query (.lookupDomainByUuid id) = .error noDomain := by
        simp [World.query, World.domain, hlookup, Except.map]
      rw [hnone]
      intro report h
      cases h
  | some d =>
      have hdomain : w.domain id = .ok d := by simp [World.domain, hlookup]
      have hfound : w.query (.lookupDomainByUuid id) = .ok (⟨id, d.name⟩ : Ref) := by
        simp [World.query, hdomain, Except.map]
      rw [hfound]
      intro (r : Except Error Bool) u hmay
      obtain ⟨-, hu⟩ := ht.query halone hmay
      cases r with
      | error e =>
          intro report h
          cases h
      | ok active =>
          refine Prog.Wp.ite (fun _ report h => ?_) fun _ => ?_
          · cases h
          refine Prog.wp_bind.mpr ((hu.reading halone).imp ?_)
          rintro r x ⟨htargets, hx⟩
          cases r with
          | error e =>
              intro report h
              cases h
          | ok found =>
              obtain ⟨disks, hdisks, rfl⟩ := targets_of_eval hdomain htargets.symm
              refine Prog.wp_bind.mpr ((hx.reading halone).imp ?_)
              rintro r y ⟨husers, hy⟩
              cases r with
              | error e =>
                  intro report h
                  cases h
              | ok users =>
                  have hkeys := keys_of_eval husers.symm
                  have hsame : ∀ path v, VolAt y.world path v → VolAt w path v := by
                    rw [hy.1]
                    exact fun _ _ hv => hv
                  refine (finish_handled (alone_tracks halone) id ⟨id, d.name⟩
                    (disks.filterMap (target w)) { skipped := disks.filterMap (unresolved w) } hsame
                    hy.not_deleted).imp ?_
                  intro r z hz report hr
                  obtain ⟨-, removed, skipped, gone, rfl, hhandled, hdeleted⟩ := hz report hr
                  exact ⟨d, disks, users, removed, skipped, gone, rfl, hdisks, hkeys, hhandled, rfl,
                    hdeleted⟩

end Scanned

-- A run with other clients, in which any call may fail. `W` holds of the states that it meets.
section Reported

variable [Libvirtd] {W : World → Prop} {o : Outside} {s t : Busy} {id : Uuid}

-- libvirt may give this answer.
def Answers (W : World → Prop) (q : Query) (a : q.Result) : Prop := ∃ x, W x ∧ x.query q = .ok a

-- The paths that `pathOf` may give a disk.
def PathIn (W : World → Prop) : DiskSource → String → Prop
  | .file written, path | .block written, path => path = written ∨
      ∃ v, Answers W (.lookupStorageVolByPath written) v ∧ Answers W (.volPath v) path
  | .volume pool volume, path => ∃ p v, Answers W (.lookupStoragePoolByName pool) p ∧
      Answers W (.poolLookupStorageVolByName p volume) v ∧ Answers W (.volPath v) path

abbrev Told (W : World → Prop) (q : Query) (r : Except Error q.Result) : Prop :=
  ∀ a, r = .ok a → Answers W q a

theorem pathOf_holds (source : DiskSource) : (pathOf source).Holds (Told W)
    fun r => ∃ found, r = .ok found ∧ (∀ path, found = some path → PathIn W source path) ∧
      (found = none → ∃ pool volume, source = .volume pool volume) := by
  have hwritten : ∀ written, (do
      let found ← Prog.attempt do
        let v : VolRef ← get (.lookupStorageVolByPath written)
        get (.volPath v)
      return some (found.toOption.getD written) : Read (Option String)).Holds (Told W) fun r =>
        ∃ path, r = .ok (some path) ∧ (path = written ∨
          ∃ v, Answers W (.lookupStorageVolByPath written) v ∧ Answers W (.volPath v) path) := by
    intro written (r : Except Error VolRef) hlookup
    cases r with
    | error e => exact ⟨written, rfl, .inl rfl⟩
    | ok v =>
        intro (r : Except Error String) hpath
        cases r with
        | error e => exact ⟨written, rfl, .inl rfl⟩
        | ok path => exact ⟨path, rfl, .inr ⟨v, hlookup v rfl, hpath path rfl⟩⟩
  cases source with
  | file written =>
      refine (hwritten written).imp ?_
      rintro r ⟨path, rfl, hpath⟩
      refine ⟨some path, rfl, ?_, nofun⟩
      intro found heq
      cases heq
      exact hpath
  | block written =>
      refine (hwritten written).imp ?_
      rintro r ⟨path, rfl, hpath⟩
      refine ⟨some path, rfl, ?_, nofun⟩
      intro found heq
      cases heq
      exact hpath
  | volume pool volume =>
      have hnone : ∃ found : Option String, (Except.ok none : Except Error (Option String)) =
          .ok found ∧ (∀ path, found = some path → PathIn W (.volume pool volume) path) ∧
            (found = none → ∃ p v, DiskSource.volume pool volume = .volume p v) :=
        ⟨none, rfl, nofun, fun _ => ⟨pool, volume, rfl⟩⟩
      intro (r : Except Error Ref) hpool
      cases r with
      | error e => exact hnone
      | ok p =>
          intro (r : Except Error VolRef) hvol
          cases r with
          | error e => exact hnone
          | ok v =>
              intro (r : Except Error String) hpath
              cases r with
              | error e => exact hnone
              | ok path =>
                  refine ⟨some path, rfl, ?_, nofun⟩
                  intro found heq
                  cases heq
                  exact ⟨p, v, hpool p rfl, hvol v rfl, hpath path rfl⟩

variable [FileSystem]

-- The targets of the disks, and the entries of the disks that have no path.
inductive Resolved (W : World → Prop) : List Disk → List Target → List Skipped → Prop where
  | nil : Resolved W [] [] []
  | target {disk : Disk} {path : String} {rest : List Disk} {targets : List Target}
      {early : List Skipped} (hpath : PathIn W disk.source path)
      (h : Resolved W rest targets early) :
      Resolved W (disk :: rest) (⟨path, canonical path, disk.shared⟩ :: targets) early
  | missing {disk : Disk} {pool volume : String} {rest : List Disk} {targets : List Target}
      {early : List Skipped} (hsource : disk.source = .volume pool volume)
      (h : Resolved W rest targets early) :
      Resolved W (disk :: rest) targets (⟨pool ++ "/" ++ volume, .notInPool⟩ :: early)

theorem Resolved.mem_targets {disks : List Disk} {targets : List Target} {early : List Skipped}
    (h : Resolved W disks targets early) : ∀ x ∈ targets, ∃ disk ∈ disks,
      PathIn W disk.source x.path ∧ x.shared = disk.shared := by
  induction h with
  | nil => simp
  | @target disk path rest targets early hpath h ih =>
      intro x hx
      obtain rfl | hx := List.mem_cons.mp hx
      · exact ⟨disk, List.mem_cons_self, hpath, rfl⟩
      · obtain ⟨other, hm, hspec⟩ := ih x hx
        exact ⟨other, List.mem_cons_of_mem _ hm, hspec⟩
  | missing hsource h ih =>
      intro x hx
      obtain ⟨other, hm, hspec⟩ := ih x hx
      exact ⟨other, List.mem_cons_of_mem _ hm, hspec⟩

theorem Resolved.mem_early {disks : List Disk} {targets : List Target} {early : List Skipped}
    (h : Resolved W disks targets early) : ∀ entry ∈ early, ∃ disk ∈ disks, ∃ pool volume,
      disk.source = .volume pool volume ∧ entry.path = pool ++ "/" ++ volume := by
  induction h with
  | nil => simp
  | target hpath h ih =>
      intro entry hentry
      obtain ⟨other, hm, hspec⟩ := ih entry hentry
      exact ⟨other, List.mem_cons_of_mem _ hm, hspec⟩
  | @missing disk pool volume rest targets early hsource h ih =>
      intro entry hentry
      obtain rfl | hentry := List.mem_cons.mp hentry
      · exact ⟨disk, List.mem_cons_self, pool, volume, hsource, rfl⟩
      · obtain ⟨other, hm, hspec⟩ := ih entry hentry
        exact ⟨other, List.mem_cons_of_mem _ hm, hspec⟩

-- What the loop of `resolve` does with one disk.
def resolveOne : List Target × Removal → Disk → Read (List Target × Removal) :=
  fun (targets, report) disk => do
    match ← pathOf disk.source, disk.source with
    | some path, _ =>
        return (targets ++ [⟨path, canonical path, disk.shared⟩], report)
    | none, .volume pool volume =>
        return (targets, { report with
          skipped := report.skipped ++ [⟨pool ++ "/" ++ volume, .notInPool⟩] })
    | none, _ => return (targets, report)

theorem resolveOne_holds (disks : List Disk) (before : List Target) (report : Removal) :
    (disks.foldlM resolveOne (before, report)).Holds (Told W) fun r => ∃ targets early,
      r = .ok (before ++ targets, { report with skipped := report.skipped ++ early }) ∧
        Resolved W disks targets early := by
  induction disks generalizing before report with
  | nil => exact ⟨[], [], by simp, .nil⟩
  | cons disk rest ih =>
      rw [List.foldlM_cons]
      refine Prog.Holds.bind (Prog.Holds.bind ((pathOf_holds disk.source).imp ?_))
      rintro r ⟨found, rfl, hpath, hnone⟩
      cases found with
      | some path =>
          refine (ih (before ++ [⟨path, canonical path, disk.shared⟩]) report).imp ?_
          rintro r ⟨targets, early, rfl, hrest⟩
          exact ⟨_ :: targets, early, by simp, .target (hpath path rfl) hrest⟩
      | none =>
          obtain ⟨pool, volume, hsource⟩ := hnone rfl
          rw [hsource]
          refine (ih before { report with
            skipped := report.skipped ++ [⟨pool ++ "/" ++ volume, .notInPool⟩] }).imp ?_
          rintro r ⟨targets, early, rfl, hrest⟩
          exact ⟨targets, _ :: early, by simp, .missing hsource hrest⟩

theorem resolve_reported (disks : List Disk) : (resolve disks).Holds (Told W) fun r =>
    ∃ targets early, r = .ok (targets, { skipped := early }) ∧ Resolved W disks targets early := by
  refine (resolveOne_holds disks [] {}).imp ?_
  rintro r ⟨targets, early, rfl, hresolved⟩
  exact ⟨targets, early, rfl, hresolved⟩

abbrev Meets (W : World → Prop) (o : Outside) (s : Busy) (_ : Call) : Prop := W (s.arrive o)

omit [FileSystem] in
theorem told_of_meets {q : Query} {r : Except Error q.Result}
    (hmay : fair o (Meets W o) s (.query q) r t) : Told W q r := by
  intro a heq
  subst heq
  obtain ⟨-, hquery, -⟩ := turn_query_ok (turn_of_fair hmay)
  exact ⟨_, hmay.2, hquery⟩

omit [FileSystem] in
theorem meets_tracks (m : Made) : Tracks o (Meets W o) (fun path v => ∃ x, W x ∧ VolAt x path v)
    fun s => m ∈ s.log := by
  constructor
  · intro c _ s r t hmay hm
    rw [turn_log (turn_of_fair hmay)]
    exact List.mem_append_left _ hm
  · intro path v s t hmay _
    obtain ⟨x, hx, hquery⟩ := told_of_meets hmay v rfl
    exact ⟨x, hx, volAt_of_lookup hquery⟩

omit [FileSystem] in
-- Before the undefine only queries are made.
theorem reading_reported {α : Type} {p : Read α} {post : List Made → Except Error α → Prop}
    {before : List Made} (hnone : ∀ v, ¬Deleted s.log v) (hbefore : before ⊆ s.log)
    (h : ∀ log, p.Holds (fun q r => ⟨.query q, r⟩ ∈ log ∧ Told W q r) (post log)) :
    (reading p).Wp (fair o (Meets W o))
      (fun r t => ((∀ v, ¬Deleted t.log v) ∧ before ⊆ t.log) ∧ post t.log r) s := by
  have hstep : ∀ q, True → ∀ s r t, fair o (Meets W o) s (.query q) r t →
      ((∀ v, ¬Deleted s.log v) ∧ before ⊆ s.log) →
        ((∀ v, ¬Deleted t.log v) ∧ before ⊆ t.log) ∧ Told W q r := by
    intro q _ s r t hmay hs
    have hlog := turn_log (turn_of_fair hmay)
    refine ⟨⟨not_deleted_of_log (c := .query q) hs.1 nofun hlog, ?_⟩, told_of_meets hmay⟩
    rw [hlog]
    exact List.subset_append_of_subset_left _ hs.2
  exact reading_wp (wp_of_holds hstep p.calls_trivial ⟨hnone, hbefore⟩ fun log _ => h log)

variable [Xmltree]

theorem targets_reported (d : Ref) (log : List Made) : (do
      let xml : String ← get (.domainXmlDesc d true)
      let disks ← readable (domainDisks xml)
      resolve disks : Read (List Target × Removal)).Holds
      (fun q r => ⟨.query q, r⟩ ∈ log ∧ Told W q r) fun r => ∀ found, r = .ok found →
        ∃ saved disks targets early, ⟨.query (.domainXmlDesc d true), .ok saved⟩ ∈ log ∧
          domainDisks saved = .ok disks ∧ found = (targets, { skipped := early }) ∧
          Resolved W disks targets early := by
  intro (xml : Except Error String) hxml
  cases xml with
  | error e => exact nofun
  | ok saved =>
      show Prog.Holds _ _ (readable (domainDisks saved) >>= resolve)
      cases hdisks : domainDisks saved with
      | error e => exact nofun
      | ok disks =>
          refine ((resolve_reported disks).mono fun q r hr => hr.2).imp ?_
          rintro r ⟨targets, early, rfl, hresolved⟩ found heq
          cases heq
          exact ⟨saved, disks, targets, early, hxml.1, hdisks, rfl, hresolved⟩

-- What a delete that answers has read, deleted, and reported.
theorem deleteOn_reported (hnone : ∀ v, ¬Deleted s.log v) :
    (deleteOn id true).Wp (fair o (Meets W o)) (fun r t => ∀ report, r = .ok report →
      ∃ d saved disks targets early users removed skipped gone, d.id = id ∧
        ⟨.query (.domainXmlDesc d true), .ok saved⟩ ∈ t.log ∧ domainDisks saved = .ok disks ∧
        Resolved W disks targets early ∧
        Handled (fun path v => ∃ x, W x ∧ VolAt x path v) users targets removed skipped gone ∧
        report = ⟨removed, early ++ skipped⟩ ∧ ∀ v, Deleted t.log v → v ∈ gone) s := by
  intro r t hmay
  have ht := not_deleted_of_log (c := .query (.lookupDomainByUuid id)) hnone nofun
    (turn_log (turn_of_fair hmay))
  cases r with
  | error e => exact nofun
  | ok d =>
      have hd : d.id = id := lookup_id (turn_of_fair hmay)
      intro (r : Except Error Bool) u hmay
      have hu := not_deleted_of_log (c := .query (.domainIsActive d)) ht nofun
        (turn_log (turn_of_fair hmay))
      cases r with
      | error e => exact nofun
      | ok active =>
          refine Prog.Wp.ite (fun _ => nofun) fun _ => ?_
          refine Prog.wp_bind.mpr ((reading_reported hu (List.nil_subset _)
            fun log => targets_reported d log).imp ?_)
          rintro r x ⟨⟨hx, -⟩, htargets⟩
          cases r with
          | error e => exact nofun
          | ok found =>
              obtain ⟨saved, disks, targets, early, hlog, hdisks, rfl, hresolved⟩ := htargets found rfl
              have hbefore : [⟨.query (.domainXmlDesc d true), .ok saved⟩] ⊆ x.log :=
                List.cons_subset.mpr ⟨hlog, List.nil_subset _⟩
              refine Prog.wp_bind.mpr ((reading_reported hx hbefore
                fun log => Prog.Holds.trivial _).imp ?_)
              rintro r y ⟨⟨hy, hmem⟩, -⟩
              cases r with
              | error e => exact nofun
              | ok users =>
                  refine (finish_handled (meets_tracks ⟨.query (.domainXmlDesc d true), .ok saved⟩)
                    id d targets { skipped := early } (hmem (List.mem_singleton_self _)) hy).imp ?_
                  intro r z hz report hr
                  obtain ⟨hend, removed, skipped, gone, rfl, hhandled, hdeleted⟩ := hz report hr
                  exact ⟨d, saved, disks, targets, early, users, removed, skipped, gone, hd, hend,
                    hdisks, hresolved, hhandled, rfl, hdeleted⟩

end Reported

end Lodger.Delete
