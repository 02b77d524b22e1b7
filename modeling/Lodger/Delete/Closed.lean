import Lodger.Delete.Settled
import Lodger.Delete.Theorems

namespace Lodger

open Lodger.Lib Lodger.Libvirt Lodger.Cache Lodger.Xml

namespace Delete

section Scan

variable [Libvirtd] [FileSystem] [Xmltree] {w : World} {log : List Made} {id : Uuid}

-- The data disks of a document.
def dataDisks (xml : String) : Except XmlError (List DiskSource) :=
  (domainDisks xml).map (·.map (·.source))

-- The replies that are in the log, with libvirt's own answers to the calls of `pathOf`.
abbrev heard (w : World) (log : List Made) (q : Query) (r : Except Error q.Result) : Prop :=
  ⟨.query q, r⟩ ∈ log ∧ (pathCall q = true → r = w.query q)

omit [Libvirtd] [Xmltree] in
theorem resolve_calls (disks : List Disk) : (resolve disks).Calls fun q => pathCall q = true := by
  refine Prog.Calls.foldlM (fun found (disk : Disk) => (pathOf_calls disk.source).bind fun path => ?_) _ _
  cases path with
  | some path => trivial
  | none =>
      cases disk.source with
      | file path => trivial
      | block path => trivial
      | volume pool volume => trivial

omit [Xmltree] in
theorem resolve_holds (disks : List Disk) : (resolve disks).Holds (heard w log) fun r =>
    r = .ok (disks.filterMap (target w), { skipped := disks.filterMap (unresolved w) }) := by
  refine (Prog.Holds.of_eval (resolve_calls disks) fun q r hq hr => hr.2 hq).imp ?_
  rintro r rfl
  exact resolve_eval disks

omit [Libvirtd] [Xmltree] in
theorem addUsers_calls (name : String) (disks : List Disk) (users : List (String × String)) :
    (addUsers name disks users).Calls fun q => pathCall q = true := by
  refine Prog.Calls.foldlM (fun users (disk : Disk) => (pathOf_calls disk.source).bind fun path => ?_) _ _
  cases path with
  | none => trivial
  | some path => trivial

theorem addDocuments_holds (name : String) (docs : List String) (users : List (String × String)) :
    (docs.foldlM (fun users xml => do
      let disks ← readable (domainDisks xml)
      addUsers name disks users) users : Read (List (String × String))).Holds (heard w log)
      fun r => ∀ users', r = .ok users' → (∀ xml ∈ docs, ∃ disks, domainDisks xml = .ok disks) ∧
        users' = users ++ docs.flatMap fun xml => (dataSources xml).flatMap (sourceUse w name) := by
  have hcalls := Prog.Calls.foldlM (fun users xml =>
    (readable_calls (domainDisks xml)).bind fun disks => addUsers_calls name disks users) docs users
  have hanswer : ∀ q r, pathCall q = true → heard w log q r → r = w.query q :=
    fun q r hq hr => hr.2 hq
  refine (Prog.Holds.of_eval hcalls hanswer).imp ?_
  rintro r rfl users' heq
  exact addDocuments_eval heq

-- A domain that is not read completely has been found gone, or the scan fails.
omit [FileSystem] [Xmltree] in
theorem disksConfig_holds (d : Ref) (hd : d.id ≠ id) : (disksConfig d id).Holds (heard w log)
    fun r => (∃ name docs, r = .ok (some (name, docs)) ∧ ReadFully log d docs) ∨
      ∃ e, r = .error e ∧ (e.isCode .noDomain = true → Missing log d) := by
  rw [disksConfig, if_neg hd]
  have hfailed : ∀ {q : Query} {e : Error}, domainRead q = some d → ⟨.query q, .error e⟩ ∈ log →
      e.isCode .noDomain = true → Missing log d :=
    fun hq hmem he => ⟨_, _, hq, hmem, he⟩
  intro (saved : Except Error String) hsaved
  cases saved with
  | error e => exact .inr ⟨e, rfl, hfailed rfl hsaved.1⟩
  | ok saved =>
      intro (active : Except Error Bool) hactive
      cases active with
      | error e => exact .inr ⟨e, rfl, hfailed rfl hactive.1⟩
      | ok active =>
          cases active with
          | false =>
              intro (name : Except Error String) hname
              cases name with
              | error e => exact .inr ⟨e, rfl, hfailed rfl hname.1⟩
              | ok name => exact .inl ⟨name, _, rfl, .shutOff saved hsaved.1 hactive.1⟩
          | true =>
              intro (live : Except Error String) hlive
              cases live with
              | error e => exact .inr ⟨e, rfl, hfailed rfl hlive.1⟩
              | ok live =>
                  intro (name : Except Error String) hname
                  cases name with
                  | error e => exact .inr ⟨e, rfl, hfailed rfl hname.1⟩
                  | ok name => exact .inl ⟨name, _, rfl, .running saved live hsaved.1 hactive.1 hlive.1⟩

theorem pathsOfOtherDomains_holds (domains : List Ref) (id : Uuid) :
    (pathsOfOtherDomains domains id).Holds (heard w log) fun r => ∀ users, r = .ok users →
      ∀ d ∈ domains, d.id ≠ id →
        Settled dataDisks w log d fun file => ∃ user, (file, user) ∈ users := by
  apply Prog.Holds.foldlM (fun rest users => ∀ d ∈ domains, d ∉ rest → d.id ≠ id →
    Settled dataDisks w log d fun file => ∃ user, (file, user) ∈ users)
  · intro users h found heq d hd hid
    cases heq
    exact h d hd List.not_mem_nil hid
  · intro d rest users h
    have hmore : ∀ {users' : List (String × String)}, users ⊆ users' → ∀ x : Ref,
        (x.id ≠ id → Settled dataDisks w log x fun file => ∃ user, (file, user) ∈ users) →
          x.id ≠ id → Settled dataDisks w log x fun file => ∃ user, (file, user) ∈ users' := by
      intro users' hsub x hx hid
      refine (hx hid).mono (List.Subset.refl _) ?_
      rintro file ⟨user, huser⟩
      exact ⟨user, hsub huser⟩
    refine Prog.Holds.bind (Prog.Holds.attempt ?_)
    by_cases hid : d.id = id
    · rw [disksConfig, if_pos hid]
      exact settled_next h (hmore (List.Subset.refl _)) (absurd hid)
    · refine (disksConfig_holds d hid).imp ?_
      rintro r (⟨name, docs, rfl, hread⟩ | ⟨e, rfl, hmissing⟩)
      · refine (addDocuments_holds name docs users).imp ?_
        intro r hr
        cases r with
        | error e =>
            intro found heq
            cases heq
        | ok users' =>
            obtain ⟨hparsed, rfl⟩ := hr users' rfl
            refine settled_next h (hmore (List.subset_append_left _ _)) fun _ => ?_
            refine .inr ⟨docs, hread, ?_⟩
            intro xml hxml
            obtain ⟨disks, hparse⟩ := hparsed xml hxml
            refine ⟨disks.map (·.source), by rw [dataDisks, hparse]; rfl, ?_⟩
            intro source hsource path hpath
            refine ⟨name, List.mem_append_right _ ?_⟩
            simp only [List.mem_flatMap]
            refine ⟨xml, hxml, source, ?_, ?_⟩
            · simpa [dataSources, hparse, Except.toOption] using hsource
            · simp [sourceUse, hpath]
      · by_cases he : e.isCode .noDomain = true
        · simp only [outcome_ok, he, if_true]
          exact settled_next h (hmore (List.Subset.refl _)) fun _ => .inl (hmissing he)
        · simp only [outcome_ok, he, Bool.false_eq_true, if_false]
          intro found heq
          cases heq
  · intro d hd hnot
    exact absurd hd hnot

end Scan

-- Until the undefine no call of `pathOf` has a fault.
def PathsReadable (o : Outside) (s : Busy) (c : Call) : Prop :=
  (∀ m ∈ s.log, ∀ d flags, m.call ≠ .command (.domainUndefineFlags d flags)) →
    ∀ q, c = .query q → pathCall q = true → o.faults s.log.length c = none

section Loop

variable [Libvirtd] [FileSystem] {w : World} {o : Outside} {s t : Busy} {id : Uuid}
  {log : List Made} {targets : List Target} {users : List (String × String)}

-- What the two scans have found before the undefine.
structure Found [Xmltree] (w : World) (id : Uuid) (log : List Made) (targets : List Target)
    (users : List (String × String)) : Prop where
  paths : ∀ x ∈ targets, x.key = canonical x.path ∧ ∃ source, diskPath w source = some x.path
  others : targets ≠ [] → ∃ domains : List Ref, ⟨.query .listAllDomains, .ok domains⟩ ∈ log ∧
    ∀ d ∈ domains, d.id ≠ id →
      Settled dataDisks w log d fun file => ∃ user, (file, user) ∈ users

-- A volume that no other domain was found to use.
theorem Found.unused [Xmltree] (h : Found w id log targets users) (hlaw : Lawful w) {x : Target}
    (hx : x ∈ targets) (hnone : users.lookup x.key = none) {v : VolRef} (hv : VolAt w x.path v) :
    Unused dataDisks (·.id ≠ id) w log v := by
  obtain ⟨hkey, source, hpath⟩ := h.paths x hx
  obtain ⟨domains, hlist, hsettled⟩ := h.others (List.ne_nil_of_mem hx)
  have hclean := hlaw.diskPath_clean hpath hv
  obtain ⟨pool, p, vol, hp, ha, hvol, hat, rfl⟩ := volAt_pool hv
  refine ⟨domains, vol, hlist, hlaw.world_vol hp ha hvol, ?_⟩
  intro d hd hid
  refine (hsettled d hd hid).mono (List.Subset.refl _) ?_
  rintro file ⟨user, huser⟩ rfl
  have hne := List.lookup_eq_none_iff.mp hnone _ huser
  simp [hkey, hat, hclean] at hne

-- The state in which the disks go: each volume that libvirt has was there before, and each
-- delete so far was safe.
structure Removes [Xmltree] (w : World) (id : Uuid) (log : List Made) (s : Busy) : Prop where
  vols : ∀ path v, VolAt s.world path v → VolAt w path v
  grown : log ⊆ s.log
  safe : FailsClosed dataDisks (·.id ≠ id) w s.log

variable [Xmltree] {ok : Busy → Call → Prop}

theorem Removes.keep (h : Removes w id log s) {c : Call} {r : Except Error c.Result}
    (hmay : fair o ok s c r t) (hc : ∀ v, c ≠ .command (.volDelete v))
    (hpools : t.world.pools = s.world.pools) : Removes w id log t := by
  have hlog : t.log = s.log ++ [⟨c, r⟩] := turn_log (turn_of_fair hmay)
  refine ⟨fun path v hv => h.vols path v (volAt_pools hpools hv), ?_, ?_⟩
  · rw [hlog]
    exact List.subset_append_of_subset_left _ h.grown
  · rw [hlog]
    exact h.safe.append fun v heq => absurd heq (hc v)

theorem Removes.query (ho : Steady o) (h : Removes w id log s) {q : Query}
    {r : Except Error q.Result} (hmay : fair o ok s (.query q) r t) : Removes w id log t :=
  h.keep hmay nofun (ho.query_pools hmay)

theorem Removes.delete (ho : Steady o) (h : Removes w id log s) {v : VolRef}
    (hv : Unused dataDisks (·.id ≠ id) w log v) {r : Except Error Unit}
    (hmay : fair o ok s (.command (.volDelete v)) r t) : Removes w id log t := by
  have hlog : t.log = s.log ++ [⟨.command (.volDelete v), r⟩] := turn_log (turn_of_fair hmay)
  refine ⟨?_, ?_, ?_⟩
  · intro path x hx
    have harrive : VolAt (s.arrive o) path x := by
      cases r with
      | error e =>
          have hworld : t.world = s.arrive o := (turn_command_error (turn_of_fair hmay)).1
          rwa [hworld] at hx
      | ok a =>
          obtain ⟨-, p, hp, -, hworld⟩ := turn_command_ok (turn_of_fair hmay)
          rw [← hworld] at hx
          exact volAt_of_deleted hp hx
    exact h.vols path x (volAt_pools ho.arrive harrive)
  · rw [hlog]
    exact List.subset_append_of_subset_left _ h.grown
  · rw [hlog]
    refine h.safe.append ?_
    intro x heq
    cases heq
    exact hv.mono h.grown

theorem removeTarget_removes (ho : Steady o) (hlaw : Lawful w) (hfound : Found w id log targets users)
    {x : Target} (hx : x ∈ targets) (hs : Removes w id log s) :
    (removeTarget users x).Wp (fair o ok) (fun _ t => Removes w id log t) s := by
  refine Prog.Wp.ite (fun _ => hs) fun _ => ?_
  cases hlookup : users.lookup x.key with
  | some user => exact hs
  | none =>
      intro r t hmay
      have ht := hs.query ho hmay
      cases r with
      | error e => exact Prog.Wp.ite (fun _ => ht) fun _ => ht
      | ok v =>
          obtain ⟨-, hquery, hworld⟩ := turn_query_ok (turn_of_fair hmay)
          have hv : VolAt w x.path v := hs.vols _ _ (volAt_pools ho.arrive (volAt_of_lookup hquery))
          intro r u hdelete
          have hu := ht.delete ho (hfound.unused hlaw hx hlookup hv) hdelete
          cases r with
          | error e => exact hu
          | ok a => exact hu

theorem removeTargets_removes (ho : Steady o) (hlaw : Lawful w)
    (hfound : Found w id log targets users) (report : Removal) (hs : Removes w id log s) :
    (removeTargets users targets report).Wp (fair o ok) (fun _ t => Removes w id log t) s := by
  apply Prog.Wp.foldlM (fun rest _ t => (∀ x ∈ rest, x ∈ targets) ∧ Removes w id log t)
  · exact fun _ _ h => h.2
  · rintro x rest report t ⟨hrest, ht⟩
    refine Prog.wp_bind.mpr ((removeTarget_removes ho hlaw hfound
      (hrest x List.mem_cons_self) ht).imp ?_)
    intro r u hu
    have hnext : ∀ x ∈ rest, x ∈ targets := fun x hx => hrest x (List.mem_cons_of_mem _ hx)
    cases r with
    | error e => exact hu
    | ok reason =>
        cases reason with
        | none => exact ⟨hnext, hu⟩
        | some reason => exact ⟨hnext, hu⟩
  · exact ⟨fun x hx => hx, hs⟩

end Loop

section Run

variable [Libvirtd] [FileSystem] [Xmltree] {w : World} {o : Outside} {s t : Busy} {id : Uuid}

abbrev AnyCall (_ : Query) : Prop := True

omit [FileSystem] [Xmltree] in
theorem heard_of_fair (ho : Steady o) (hs : Reads AnyCall w s) {q : Query}
    {r : Except Error q.Result} (hmay : fair o (PathsReadable o) s (.query q) r t) :
    pathCall q = true → r = w.query q := by
  intro hq
  have hbefore : ∀ m ∈ s.log, ∀ d flags, m.call ≠ .command (.domainUndefineFlags d flags) := by
    intro m hm d flags heq
    obtain ⟨q, hquery, -⟩ := hs.2 m hm
    rw [heq] at hquery
    cases hquery
  rw [fair_query hmay (hmay.2 hbefore q rfl hq)]
  exact query_pools (ho.arrive.trans hs.1) hq

-- A part before the undefine, by what it finds from the replies in the log.
omit [FileSystem] [Xmltree] in
theorem reading_holds (ho : Steady o) (hs : Reads AnyCall w s) {α : Type} {p : Read α}
    {post : List Made → Except Error α → Prop}
    (h : ∀ log, s.log ⊆ log → p.Holds (heard w log) (post log)) :
    (reading p).Wp (fair o (PathsReadable o)) (fun r t => Reads AnyCall w t ∧ post t.log r) s := by
  have hstep : ∀ q, AnyCall q → ∀ s r t, fair o (PathsReadable o) s (.query q) r t →
      Reads AnyCall w s → Reads AnyCall w t ∧ (pathCall q = true → r = w.query q) := by
    intro q hq s r t hmay hs
    exact ⟨hs.step ho hq hmay, heard_of_fair ho hs hmay⟩
  exact reading_wp (wp_of_holds hstep p.calls_trivial hs h)

theorem undefine_removes (ho : Steady o) (d : Ref) {log : List Made} (hs : Removes w id log s) :
    (undefine d).Wp (fair o (PathsReadable o)) (fun _ t => Removes w id log t) s := by
  have hone : ∀ flags (s : Busy), Removes w id log s →
      (command (.domainUndefineFlags d flags)).Wp (fair o (PathsReadable o))
        (fun _ t => Removes w id log t) s := by
    intro flags s hs r t hmay
    refine hs.keep hmay nofun ?_
    cases r with
    | error e =>
        have hworld : t.world = s.arrive o := (turn_command_error (turn_of_fair hmay)).1
        rw [hworld, ho.arrive]
    | ok a =>
        obtain ⟨-, p, hp, -, hworld⟩ := turn_command_ok (turn_of_fair hmay)
        rw [← hworld, undefine_pools hp, ho.arrive]
  refine Prog.wp_bind.mpr (Prog.wp_attempt.mpr ((hone _ s hs).imp ?_))
  intro r t ht
  cases r with
  | ok a => exact ht
  | error e => exact Prog.Wp.ite (fun _ => hone _ t ht) fun _ => ht

theorem targets_holds (d : Ref) (log : List Made) : (do
      let xml : String ← get (.domainXmlDesc d true)
      let disks ← readable (domainDisks xml)
      resolve disks : Read (List Target × Removal)).Holds (heard w log) fun r => ∀ found,
        r = .ok found → ∀ x ∈ found.1,
          x.key = canonical x.path ∧ ∃ source, diskPath w source = some x.path := by
  intro (xml : Except Error String) _
  cases xml with
  | error e => exact nofun
  | ok xml =>
      show Prog.Holds _ _ (readable (domainDisks xml) >>= resolve)
      cases domainDisks xml with
      | error e => exact nofun
      | ok disks =>
          refine (resolve_holds disks).imp ?_
          rintro r rfl found heq x hx
          cases heq
          obtain ⟨disk, -, hdisk⟩ := List.mem_filterMap.mp hx
          obtain ⟨path, hpath, rfl⟩ := Option.map_eq_some_iff.mp hdisk
          exact ⟨rfl, disk.source, hpath⟩

theorem users_holds (targets : List Target) (id : Uuid) (log : List Made) :
    (if targets.isEmpty then return []
      else do
        let domains : List Ref ← get .listAllDomains
        pathsOfOtherDomains domains id : Read (List (String × String))).Holds (heard w log)
      fun r => ∀ users, r = .ok users → targets ≠ [] → ∃ domains : List Ref,
        ⟨.query .listAllDomains, .ok domains⟩ ∈ log ∧ ∀ d ∈ domains, d.id ≠ id →
          Settled dataDisks w log d fun file => ∃ user, (file, user) ∈ users := by
  by_cases hempty : targets.isEmpty = true
  · rw [if_pos hempty]
    intro users _ hne
    exact absurd (List.isEmpty_iff.mp hempty) hne
  · rw [if_neg hempty]
    intro (domains : Except Error (List Ref)) ⟨hlist, _⟩
    cases domains with
    | error e => exact nofun
    | ok domains =>
        refine (pathsOfOtherDomains_holds domains id).imp ?_
        intro r hr users heq _
        exact ⟨domains, hlist, hr users heq⟩

-- The end of a delete, from the undefine on.
theorem finish_removes (ho : Steady o) (hlaw : Lawful w) (d : Ref) {log : List Made}
    {targets : List Target} {users : List (String × String)}
    (hfound : Found w id log targets users) (report : Removal) (hs : Removes w id log s) :
    (do
      undefine d
      match ← (query (.lookupDomainByUuid id)).attempt with
      | .ok _ => .fail (.wrongState ("the VM started during the delete: libvirt removed its " ++
          "definition, but it runs until it stops, and every disk stays"))
      | .error e =>
          if e.isCode .noDomain then removeTargets users targets report
          else .fail e : Job Removal).Wp (fair o (PathsReadable o))
      (fun _ t => Removes w id log t) s := by
  refine Prog.wp_bind.mpr ((undefine_removes ho d hs).imp ?_)
  intro r t ht
  cases r with
  | error e => exact ht
  | ok a =>
      intro r u hmay
      have hu := ht.query ho hmay
      cases r with
      | ok found => exact hu
      | error e =>
          exact Prog.Wp.ite (fun _ => removeTargets_removes ho hlaw hfound report hu) fun _ => hu

theorem deleteOn_closed (ho : Steady o) (hlaw : Lawful w) (id : Uuid) (hs : Reads AnyCall w s) :
    (deleteOn id true).Wp (fair o (PathsReadable o))
      (fun _ t => FailsClosed dataDisks (·.id ≠ id) w t.log) s := by
  have hfailed : ∀ {t : Busy}, Reads AnyCall w t → FailsClosed dataDisks (·.id ≠ id) w t.log :=
    fun ht => .of_keeps ht.keeps
  intro r s' hmay
  replace hs := hs.step ho trivial hmay
  cases r with
  | error e => exact hfailed hs
  | ok d =>
      intro (r : Except Error Bool) s' hmay
      replace hs := hs.step ho trivial hmay
      cases r with
      | error e => exact hfailed hs
      | ok active =>
          refine Prog.Wp.ite (fun _ => hfailed hs) fun _ => ?_
          refine Prog.wp_bind.mpr ((reading_holds ho hs fun log _ => targets_holds d log).imp ?_)
          rintro r t ⟨ht, htargets⟩
          cases r with
          | error e => exact hfailed ht
          | ok found =>
              refine Prog.wp_bind.mpr ((reading_holds ho ht fun log _ =>
                users_holds found.1 id log).imp ?_)
              rintro r u ⟨hu, husers⟩
              cases r with
              | error e => exact hfailed hu
              | ok users =>
                  have hfound : Found w id u.log found.1 users :=
                    ⟨htargets found rfl, husers users rfl⟩
                  have hstart : Removes w id u.log u :=
                    ⟨fun path v hv => volAt_pools hu.1 hv, List.Subset.refl _, hfailed hu⟩
                  refine (finish_removes ho hlaw d hfound found.2 hstart).imp ?_
                  exact fun r x hx => hx.safe

end Run

section Theorem

variable [Libvirtd] [FileSystem] [Xmltree]

-- The use scans fail closed in every run in which libvirt answers the calls that they take
-- a failure of for an answer: it then deletes a volume only if each listed domain that is
-- not gone was read completely and has no disk with the volume's file.
theorem use_scans_fail_closed (o : Outside) (ho : Steady o) (w : World) :
    (∀ id name, (Volume.deleteOn id name).Along (Busy.answer o) (Volume.ScanReadable o) ⟨w, []⟩ →
      FailsClosed domainDiskSources (fun _ => True) w
        (busily o (Volume.deleteOn id name) w).2.log) ∧
    (Lawful w → ∀ id, (deleteOn id true).Along (Busy.answer o) (PathsReadable o) ⟨w, []⟩ →
      FailsClosed dataDisks (·.id ≠ id) w (busily o (deleteOn id true) w).2.log) := by
  refine ⟨?_, ?_⟩
  · intro id name halong
    have hstart : Reads Volume.BeforeFacts w ⟨w, []⟩ :=
      ⟨rfl, fun _ hm => absurd hm List.not_mem_nil⟩
    exact (Volume.deleteOn_wp ho id name hstart).along halong
  · intro hlaw id halong
    have hstart : Reads AnyCall w ⟨w, []⟩ :=
      ⟨rfl, fun _ hm => absurd hm List.not_mem_nil⟩
    exact (deleteOn_closed ho hlaw id hstart).along halong

end Theorem

-- Checks on the calls of a log.
section Replies

def saysGone : Made → Bool
  | ⟨.query q, .error e⟩ => (domainRead q).isSome && e.isCode .noDomain
  | _ => false

def deletesVolume : Made → Bool
  | ⟨.command (.volDelete _), _⟩ => true
  | _ => false

def lists (d : Ref) : Made → Bool
  | ⟨.query .listAllDomains, .ok domains⟩ => List.elem d domains
  | _ => true

-- Each saved document of the domain that was read is one of these.
def readsFrom (d : Ref) (docs : List String) : Made → Bool
  | ⟨.query (.domainXmlDesc x true), .ok xml⟩ => x ≠ d || docs.contains xml
  | _ => true

variable {log : List Made}

theorem exists_delete (h : log.any deletesVolume = true) :
    ∃ front v r back, log = front ++ ⟨.command (.volDelete v), r⟩ :: back := by
  obtain ⟨⟨c, r⟩, hmem, hdel⟩ := List.any_eq_true.mp h
  cases c with
  | query q => cases r <;> cases hdel
  | send e => cases r <;> cases hdel
  | command x =>
      cases x with
      | volDelete v =>
          obtain ⟨front, back, hlog⟩ := List.append_of_mem hmem
          exact ⟨front, v, r, back, hlog⟩
      | _ => cases r <;> cases hdel

-- A delete, no domain that is gone, and a domain that every list names and whose saved document,
-- when it is read, is one of these.
def unseen (d : Ref) (docs : List String) (log : List Made) : Bool :=
  log.any deletesVolume && !log.any saysGone && log.all fun m => lists d m && readsFrom d docs m

-- A delete after a scan that has not seen what the saved document of a domain names.
theorem not_failsClosed [Libvirtd] [FileSystem] {parse : String → Except XmlError (List DiskSource)}
    {counts : Ref → Prop} {w : World} {d : Ref} {docs : List String} (hcounts : counts d)
    (hunseen : unseen d docs log = true)
    (hdocs : ∀ xml ∈ docs, ∀ v vol, w.vol v = .ok vol → ∃ sources, parse xml = .ok sources ∧
      ∃ source ∈ sources, ∃ path, diskPath w source = some path ∧
        canonical path = canonical vol.path) :
    ¬FailsClosed parse counts w log := by
  intro hclosed
  simp only [unseen, Bool.and_eq_true, Bool.not_eq_true'] at hunseen
  obtain ⟨⟨hdelete, hgone⟩, hall⟩ := hunseen
  have hmade : ∀ m ∈ log, lists d m = true ∧ readsFrom d docs m = true := by
    intro m hm
    simpa using List.all_eq_true.mp hall m hm
  obtain ⟨front, v, r, back, hlog⟩ := exists_delete hdelete
  obtain ⟨domains, vol, hdomains, hvol, heach⟩ := hclosed front v r back hlog
  have hsub : front ⊆ log := by simp [hlog]
  have hd : d ∈ domains := List.mem_of_elem_eq_true (hmade _ (hsub hdomains)).1
  rcases heach d hd hcounts with ⟨q, e, hq, hmem, he⟩ | ⟨found, hread, hparsed⟩
  · have hfalse := List.any_eq_false.mp hgone _ (hsub hmem)
    simp [saysGone, hq, he] at hfalse
  · have hsaved : ∃ saved ∈ found, ⟨.query (.domainXmlDesc d true), .ok saved⟩ ∈ front := by
      cases hread with
      | shutOff saved hsaved _ => exact ⟨saved, List.mem_cons_self, hsaved⟩
      | running saved live hsaved _ _ => exact ⟨saved, List.mem_cons_self, hsaved⟩
    obtain ⟨saved, hmem, hsaved⟩ := hsaved
    have hdoc : saved ∈ docs := by
      simpa [readsFrom] using (hmade _ (hsub hsaved)).2
    obtain ⟨sources, hparse, source, hsource, path, hpath, heq⟩ := hdocs saved hdoc v vol hvol
    obtain ⟨sources', hparse', hfree⟩ := hparsed saved hmem
    rw [hparse] at hparse'
    cases hparse'
    exact hfree source hsource path hpath heq

end Replies

section Runs

def poolDiskXml : String :=
  "<domain><devices><disk type='volume' device='disk'><source pool='srv' volume='web'/></disk>" ++
    "</devices></domain>"

def poolDisk : Element :=
  .mk "disk" [("type", "volume"), ("device", "disk")]
    [.element (.mk "source" [("pool", "srv"), ("volume", "web")] [])]

local instance scanTrees : Xmltree where
  parse xml :=
    if xml = webXml then .ok (domainTree [fileDisk "disk" "/srv/web" []])
    else if xml = dbXml then .ok (domainTree [fileDisk "disk" "/srv/db" []])
    else if xml = poolDiskXml then .ok (domainTree [poolDisk])
    else if xml = "<volume/>" then .ok (.mk "volume" [] [])
    else .error "not a document of this host"

attribute [local instance] noLinks plainLibvirtd

-- Nothing uses the volume `spare`.
def spareHost : World := host webXml dbXml [webVol, spareVol]

theorem volume_deleteOn_calls (id : Uuid) (name : String) : (Volume.deleteOn id name).Calls fun c =>
    (∃ q, c = .query q) ∨ ∃ v, c = .command (.volDelete v) := by
  refine Prog.Calls.bind (reading_calls (fun q => .inl ⟨q, rfl⟩) _) ?_
  rintro ⟨v, facts⟩
  exact Prog.Calls.ite ⟨.inr ⟨v, rfl⟩, fun _ => trivial⟩ trivial

theorem volDelete_domains {w : World} {v : VolRef} {p : Performed Unit}
    (h : w.perform (.volDelete v) = .ok p) : p.world.domains = w.domains := by
  obtain ⟨id, q, found, -, -, -, -, hworld⟩ := volDelete_effect h
  rw [hworld]
  rfl

theorem spare_readable (id : Uuid) (name : String) :
    (Volume.deleteOn id name).Along (Busy.answer {}) (Volume.ScanReadable {}) ⟨spareHost, []⟩ := by
  have hdocs : ∀ xml ∈ [webXml, dbXml], ∃ sources, domainDiskSources xml = .ok sources := by
    have hweb : domainDiskSources webXml = .ok [.file "/srv/web"] := by decide +kernel
    have hdb : domainDiskSources dbXml = .ok [.file "/srv/db"] := by decide +kernel
    simp only [List.mem_cons, List.not_mem_nil, or_false, forall_eq_or_imp, forall_eq]
    exact ⟨⟨_, hweb⟩, _, hdb⟩
  refine Prog.Along.of_calls (fun s : Busy => s.world.domains = spareHost.domains) ?_
    (volume_deleteOn_calls id name) rfl
  intro c hc s hs
  refine ⟨?_, ?_⟩
  · rintro - q -
    refine ⟨fun _ => rfl, ?_⟩
    intro d inactive dom _ hdom
    have hlookup : spareHost.domain d.id = .ok dom := by
      rw [← hdom, World.domain, World.domain, ← hs]
      rfl
    have hmem : (⟨d.id, dom⟩ : Sigma fun _ : Uuid => Domain) ∈ spareHost.domains.entries := by
      refine AList.mem_lookup_iff.mp ?_
      unfold World.domain at hlookup
      cases hd : spareHost.domains.lookup d.id with
      | none => simp [hd] at hlookup
      | some found => simpa [hd] using hlookup
    refine hdocs _ ?_
    have hmem : (⟨d.id, dom⟩ : Sigma fun _ : Uuid => Domain) ∈ [_, _] := hmem
    simp only [List.mem_cons, List.not_mem_nil, or_false, Sigma.mk.injEq, heq_eq_eq] at hmem
    obtain ⟨-, rfl⟩ | ⟨-, rfl⟩ := hmem
    · simp [Domain.xmlDesc]
    · simp [Domain.xmlDesc]
  · obtain ⟨q, rfl⟩ | ⟨v, rfl⟩ := hc
    · exact hs
    · show (reply s.world none (.command (.volDelete v))).2.domains = _
      cases hp : s.world.perform (.volDelete v) with
      | error e =>
          simp only [reply, hp]
          exact hs
      | ok p =>
          simp only [reply, hp]
          exact (volDelete_domains hp).trans hs

-- No call fails, and both deletes remove a volume.
theorem use_scans_fail_closed_spare :
    ((busily {} (Volume.deleteOn 1 "spare") spareHost).2.log.any deletesVolume = true ∧
      FailsClosed domainDiskSources (fun _ => True) spareHost
        (busily {} (Volume.deleteOn 1 "spare") spareHost).2.log) ∧
    ((busily {} (deleteOn 7 true) spareHost).2.log.any deletesVolume = true ∧
      FailsClosed dataDisks (·.id ≠ 7) spareHost
        (busily {} (deleteOn 7 true) spareHost).2.log) := by
  have hclosed := use_scans_fail_closed {} ⟨fun _ _ => rfl, nofun⟩ spareHost
  refine ⟨⟨by decide +kernel, ?_⟩, by decide +kernel, ?_⟩
  · exact hclosed.1 1 "spare" (spare_readable 1 "spare")
  · have hlaw : Lawful spareHost := lawful_of_entries rfl (by decide)
    refine hclosed.2 hlaw 7 (Prog.Along.of_calls (fun _ => True) ?_ (Prog.calls_trivial _) trivial)
    intro c _ s _
    exact ⟨fun _ _ _ _ => rfl, trivial⟩

-- libvirt does not answer one kind of call.
def silent (p : Query → Bool) : Outside where
  faults _ c :=
    match c with
    | .query q => if p q then some ⟨.other, "timed out"⟩ else none
    | _ => none

theorem silent_steady (p : Query → Bool) : Steady (silent p) where
  pools _ _ := rfl
  faults i c e h := by
    cases c with
    | query q =>
        by_cases hq : p q = true
        · simp only [silent, hq, if_true, Option.some.injEq] at h
          exact h ▸ nofun
        · simp [silent, hq] at h
    | _ => cases h

def isXmlDesc : Query → Bool
  | .domainXmlDesc .. => true
  | _ => false

def isPoolLookup : Query → Bool
  | .lookupStoragePoolByName _ => true
  | _ => false

-- The VM `db` runs on the volume `web`.
def shared : World := host webXml poolDiskXml [webVol]

-- The scan of a volume delete goes on without the documents of a VM, and the scan of a VM
-- delete without the path of a disk: each deletes the volume that the VM runs on.
theorem unread_disk_deleted :
    (¬∀ o, Steady o → ∀ w id name, FailsClosed domainDiskSources (fun _ => True) w
      (busily o (Volume.deleteOn id name) w).2.log) ∧
    ¬∀ o, Steady o → ∀ w, Lawful w → ∀ id, FailsClosed dataDisks (·.id ≠ id) w
      (busily o (deleteOn id true) w).2.log := by
  refine ⟨?_, ?_⟩
  · intro h
    have hlog : unseen ⟨8, "db"⟩ []
        (busily (silent isXmlDesc) (Volume.deleteOn 1 "web") shared).2.log = true := by
      decide +kernel
    exact not_failsClosed trivial hlog nofun (h _ (silent_steady isXmlDesc) shared 1 "web")
  · intro h
    have hlaw : Lawful shared := lawful_of_entries rfl (by decide)
    have hother : (⟨8, "db"⟩ : Ref).id ≠ 7 := by decide
    have hlog : unseen ⟨8, "db"⟩ [poolDiskXml]
        (busily (silent isPoolLookup) (deleteOn 7 true) shared).2.log = true := by
      decide +kernel
    have hparse : dataDisks poolDiskXml = .ok [.volume "srv" "web"] := by decide +kernel
    have hpath : diskPath shared (.volume "srv" "web") = some "/srv/web" := by decide +kernel
    refine not_failsClosed hother hlog ?_ (h _ (silent_steady isPoolLookup) shared hlaw 7)
    intro xml hxml v vol hvol
    obtain rfl := List.mem_singleton.mp hxml
    obtain ⟨id, p, hp, hmem⟩ := world_vol_mem hvol
    rw [(pool_of_entries rfl hp).2] at hmem
    obtain rfl : vol = webVol := List.mem_singleton.mp hmem
    exact ⟨_, hparse, _, List.mem_singleton_self _, _, hpath, rfl⟩

end Runs

end Delete

end Lodger
