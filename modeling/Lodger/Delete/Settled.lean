import Lodger.Delete.Volumes
import Lodger.Delete.Race

namespace Lodger

open Lodger.Lib Lodger.Libvirt Lodger.Cache Lodger.Xml

-- The calls of `pathOf`, and the domain that a call of a scan reads.
def pathCall : Query → Bool
  | .lookupStorageVolByPath _ | .lookupStoragePoolByName _ => true
  | .poolLookupStorageVolByName .. | .volPath _ => true
  | _ => false

def domainRead : Query → Option Ref
  | .domainName d | .domainXmlDesc d _ | .domainIsActive d => some d
  | _ => none

section Reads

variable (log : List Made) (d : Ref)

-- libvirt has answered that the domain is gone.
def Missing : Prop :=
  ∃ q e, domainRead q = some d ∧ ⟨.query q, .error e⟩ ∈ log ∧ e.isCode .noDomain = true

-- The documents of a domain that was read completely.
inductive ReadFully : List String → Prop where
  | shutOff (saved : String) : ⟨.query (.domainXmlDesc d true), .ok saved⟩ ∈ log →
      ⟨.query (.domainIsActive d), .ok false⟩ ∈ log → ReadFully [saved]
  | running (saved live : String) : ⟨.query (.domainXmlDesc d true), .ok saved⟩ ∈ log →
      ⟨.query (.domainIsActive d), .ok true⟩ ∈ log →
      ⟨.query (.domainXmlDesc d false), .ok live⟩ ∈ log → ReadFully [saved, live]

variable {log d} {log' : List Made} {docs : List String}

theorem Missing.mono (h : Missing log d) (hsub : log ⊆ log') : Missing log' d := by
  obtain ⟨q, e, hq, hmem, he⟩ := h
  exact ⟨q, e, hq, hsub hmem, he⟩

theorem ReadFully.mono (h : ReadFully log d docs) (hsub : log ⊆ log') : ReadFully log' d docs := by
  cases h with
  | shutOff saved hsaved hactive => exact .shutOff saved (hsub hsaved) (hsub hactive)
  | running saved live hsaved hactive hlive =>
      exact .running saved live (hsub hsaved) (hsub hactive) (hsub hlive)

end Reads

section Disks

variable [Libvirtd] [FileSystem]

-- The domain is gone, or it was read completely and the file of each of its disks is one
-- of `files`. `parse` gives the disks of a document that count.
def Settled (parse : String → Except XmlError (List DiskSource)) (w : World) (log : List Made)
    (d : Ref) (files : String → Prop) : Prop :=
  Missing log d ∨ ∃ docs, ReadFully log d docs ∧ ∀ xml ∈ docs, ∃ sources, parse xml = .ok sources ∧
    ∀ source ∈ sources, ∀ path, diskPath w source = some path → files (canonical path)

theorem Settled.mono {parse : String → Except XmlError (List DiskSource)} {w : World}
    {log log' : List Made} {d : Ref} {files files' : String → Prop}
    (h : Settled parse w log d files) (hsub : log ⊆ log') (hfiles : ∀ file, files file → files' file) :
    Settled parse w log' d files' := by
  rcases h with hgone | ⟨docs, hread, hdocs⟩
  · exact .inl (hgone.mono hsub)
  · refine .inr ⟨docs, hread.mono hsub, ?_⟩
    intro xml hxml
    obtain ⟨sources, hparse, hsources⟩ := hdocs xml hxml
    exact ⟨sources, hparse, fun source hs path hp => hfiles _ (hsources source hs path hp)⟩

-- While nobody changes the pools, libvirt's own answers to these calls stay the same.
omit [FileSystem] in
theorem query_pools {w x : World} (h : x.pools = w.pools) {q : Query} (hq : pathCall q = true) :
    x.query q = w.query q := by
  cases q with
  | lookupStorageVolByPath path => simp only [World.query, World.volByPath, h]
  | lookupStoragePoolByName name => simp only [World.query, World.poolByName, h]
  | poolLookupStorageVolByName p name =>
      simp only [World.query, World.activePool, World.pool, h]
  | volPath v => simp only [World.query, World.vol, World.poolByName, h]
  | _ => cases hq

omit [Libvirtd] [FileSystem] in
theorem pathOf_calls (source : DiskSource) : (pathOf source).Calls fun q => pathCall q = true := by
  have hdone : ∀ {α : Type} (r : Except Error α),
      (Prog.done r : Read α).Calls fun q => pathCall q = true := fun _ => trivial
  cases source with
  | file path =>
      refine Prog.Calls.bind (Prog.Calls.attempt ?_) fun _ => hdone _
      exact Prog.Calls.bind ⟨rfl, fun _ => hdone _⟩ fun _ => ⟨rfl, fun _ => hdone _⟩
  | block path =>
      refine Prog.Calls.bind (Prog.Calls.attempt ?_) fun _ => hdone _
      exact Prog.Calls.bind ⟨rfl, fun _ => hdone _⟩ fun _ => ⟨rfl, fun _ => hdone _⟩
  | volume pool volume =>
      refine Prog.Calls.bind (Prog.Calls.attempt ?_) fun _ => hdone _
      refine Prog.Calls.bind ⟨rfl, fun _ => hdone _⟩ fun _ => ?_
      exact Prog.Calls.bind ⟨rfl, fun _ => hdone _⟩ fun _ => ⟨rfl, fun _ => hdone _⟩

-- One more domain of a loop is settled.
omit [Libvirtd] [FileSystem] in
theorem settled_next {settled settled' : Ref → Prop} {domains rest : List Ref} {d : Ref}
    (h : ∀ x ∈ domains, x ∉ d :: rest → settled x) (hmore : ∀ x, settled x → settled' x)
    (hd : settled' d) : ∀ x ∈ domains, x ∉ rest → settled' x := by
  intro x hx hrest
  by_cases heq : x = d
  · exact heq ▸ hd
  · have hnot : x ∉ d :: rest := by simp [heq, hrest]
    exact hmore x (h x hx hnot)

-- A delete of the volume is safe: the domains were listed, and each one that counts is
-- gone or was read completely, with no disk that leads to the volume's file.
def Unused (parse : String → Except XmlError (List DiskSource)) (counts : Ref → Prop) (w : World)
    (log : List Made) (v : VolRef) : Prop :=
  ∃ (domains : List Ref) (vol : Vol), ⟨.query .listAllDomains, .ok domains⟩ ∈ log ∧ w.vol v = .ok vol ∧
    ∀ d ∈ domains, counts d → Settled parse w log d fun file => file ≠ canonical vol.path

-- Every delete of a volume was safe when it was made.
def FailsClosed (parse : String → Except XmlError (List DiskSource)) (counts : Ref → Prop)
    (w : World) (log : List Made) : Prop :=
  ∀ front v r back, log = front ++ ⟨.command (.volDelete v), r⟩ :: back →
    Unused parse counts w front v

theorem Unused.mono {parse : String → Except XmlError (List DiskSource)} {counts : Ref → Prop}
    {w : World} {log log' : List Made} {v : VolRef} (h : Unused parse counts w log v)
    (hsub : log ⊆ log') : Unused parse counts w log' v := by
  obtain ⟨domains, vol, hlist, hvol, hall⟩ := h
  exact ⟨domains, vol, hsub hlist, hvol, fun d hd hc => (hall d hd hc).mono hsub fun _ h => h⟩

theorem FailsClosed.of_keeps {parse : String → Except XmlError (List DiskSource)}
    {counts : Ref → Prop} {w : World} {log : List Made} (h : Delete.Keeps log) :
    FailsClosed parse counts w log := by
  rintro front v r back rfl
  exact absurd rfl (h ⟨.command (.volDelete v), r⟩ (by simp) v)

theorem FailsClosed.append {parse : String → Except XmlError (List DiskSource)}
    {counts : Ref → Prop} {w : World} {log : List Made} (h : FailsClosed parse counts w log)
    {c : Call} {r : Except Error c.Result}
    (hc : ∀ v, c = .command (.volDelete v) → Unused parse counts w log v) :
    FailsClosed parse counts w (log ++ [⟨c, r⟩]) := by
  intro front v reply back heq
  -- The delete is the last call, or it was made before.
  rcases List.eq_nil_or_concat back with rfl | ⟨back, m, rfl⟩
  · obtain ⟨rfl, hlast⟩ := List.append_inj' heq rfl
    obtain ⟨hlast, -⟩ := List.cons.inj hlast
    exact hc v (congrArg Made.call hlast)
  · rw [List.concat_eq_append, ← List.cons_append, ← List.append_assoc] at heq
    obtain ⟨heq, -⟩ := List.append_inj' heq rfl
    exact h front v reply back heq

end Disks

-- The other clients change no pool, and a call fails for other reasons than that the
-- domain is gone.
structure Steady (o : Outside) : Prop where
  pools : ∀ i w, (o.acts i w).pools = w.pools
  faults : ∀ i c e, o.faults i c = some e → e.code ≠ .noDomain

section Steady

variable [Libvirtd] {o : Outside} {ok : Busy → Call → Prop} {s t : Busy} {q : Query}
  {r : Except Error q.Result}

omit [Libvirtd] in
theorem Steady.arrive (h : Steady o) : (s.arrive o).pools = s.world.pools := h.pools _ _

theorem Steady.query_pools (h : Steady o) (hmay : fair o ok s (.query q) r t) :
    t.world.pools = s.world.pools := by
  have hworld : t.world = s.arrive o := turn_query_world (turn_of_fair hmay)
  rw [hworld]
  exact h.arrive

theorem fair_query (hmay : fair o ok s (.query q) r t)
    (hfault : o.faults s.log.length (.query q) = none) : r = (s.arrive o).query q := by
  have hreply := turn_reply (turn_of_fair hmay)
  simp only [reply, hfault] at hreply
  exact (congrArg Prod.fst hreply).symm

-- So far only calls of one kind were made, and the pools are as they were.
def Reads (P : Query → Prop) (w : World) (s : Busy) : Prop :=
  s.world.pools = w.pools ∧ ∀ m ∈ s.log, ∃ q, m.call = .query q ∧ P q

variable {P : Query → Prop} {w : World}

omit [Libvirtd] in
theorem Reads.keeps (h : Reads P w s) : Delete.Keeps s.log := by
  intro m hm v heq
  obtain ⟨q, hq, -⟩ := h.2 m hm
  rw [heq] at hq
  cases hq

theorem Reads.step (ho : Steady o) (hs : Reads P w s) (hq : P q)
    (hmay : fair o ok s (.query q) r t) : Reads P w t := by
  refine ⟨(ho.query_pools hmay).trans hs.1, ?_⟩
  intro m hm
  rw [turn_log (turn_of_fair hmay)] at hm
  rcases List.mem_append.mp hm with hm | hm
  · exact hs.2 m hm
  · obtain rfl := List.mem_singleton.mp hm
    exact ⟨q, rfl, hq⟩

theorem Reads.bind (ho : Steady o) {α β : Type} {p : Read β} {f : β → Read α}
    {post : Except Error α → Busy → Prop} (hs : Reads P w s) (hp : p.Calls P)
    (hok : ∀ a t, Reads P w t → (f a).Wp (fun s q r t => fair o ok s (.query q) r t) post t)
    (herror : ∀ e t, Reads P w t → post (.error e) t) :
    (p >>= f).Wp (fun s q r t => fair o ok s (.query q) r t) post s := by
  refine Prog.wp_bind.mpr ((Prog.Wp.of_calls (Reads P w) (fun _ hq _ _ _ hmay h =>
    h.step ho hq hmay) hp hs).imp ?_)
  intro r t ht
  cases r with
  | error e => exact herror e t ht
  | ok a => exact hok a t ht

omit [Libvirtd] in
theorem readable_calls {α : Type} (r : Except XmlError α) : (readable r).Calls P := by
  cases r with
  | error e => trivial
  | ok a => trivial

end Steady

namespace Volume

variable [Libvirtd] [FileSystem] [Xmltree]

-- What the scan is told while no call of it has a fault and every document can be read.
def told (w : World) : (q : Query) → Except Error q.Result → Prop
  | .domainXmlDesc _ _, r => (∃ e, r = .error e ∧ e.isCode .noDomain = true) ∨
      ∃ xml sources, r = .ok xml ∧ domainDiskSources xml = .ok sources
  | .domainName _, r => ∀ e, r = .error e → e.isCode .noDomain = true
  | .domainIsActive _, r => ∀ e, r = .error e → e.isCode .noDomain = true
  | q, r => pathCall q = true → r = w.query q

variable {w : World} {log : List Made}

omit [FileSystem] in
theorem told_path (q : Query) (r : Except Error q.Result) (hq : pathCall q = true) (h : told w q r) :
    r = w.query q := by
  cases q with
  | lookupStorageVolByPath path => exact h hq
  | lookupStoragePoolByName name => exact h hq
  | poolLookupStorageVolByName p name => exact h hq
  | volPath v => exact h hq
  | _ => cases hq

-- The replies that are in the log.
abbrev heard (w : World) (log : List Made) (q : Query) (r : Except Error q.Result) : Prop :=
  ⟨.query q, r⟩ ∈ log ∧ told w q r

omit [FileSystem] in
theorem documentsOf_holds (d : Ref) : (documentsOf d).Holds (heard w log) fun r =>
    ∃ docs, r = .ok docs ∧ (∀ xml ∈ docs, ∃ sources, domainDiskSources xml = .ok sources) ∧
      (Missing log d ∨ ReadFully log d docs) := by
  have hparsed : ∀ {inactive : Bool} {r : Except Error String},
      told w (.domainXmlDesc d inactive) r → ∀ xml ∈ r.toOption.toList,
        ∃ sources, domainDiskSources xml = .ok sources := by
    intro inactive r htold xml hxml
    rcases htold with ⟨e, rfl, -⟩ | ⟨doc, sources, rfl, hparse⟩
    · cases hxml
    · obtain rfl := List.mem_singleton.mp hxml
      exact ⟨sources, hparse⟩
  intro (saved : Except Error String) ⟨hsaved, htold⟩ (active : Except Error Bool)
    ⟨hactive, hreplied⟩
  -- Either one of the two calls has found the domain gone, or both are answered.
  have hfirst : Missing log d ∨ (∃ a, active = .ok a) ∧ ∃ xml, saved = .ok xml := by
    cases active with
    | error e => exact .inl ⟨_, e, rfl, hactive, hreplied e rfl⟩
    | ok a =>
        rcases htold with ⟨e, rfl, he⟩ | ⟨xml, -, rfl, -⟩
        · exact .inl ⟨_, e, rfl, hsaved, he⟩
        · exact .inr ⟨⟨a, rfl⟩, xml, rfl⟩
  show Prog.Holds _ _ (if active.toOption.getD false = true then _ else _)
  by_cases hrun : active.toOption.getD false = true
  · rw [if_pos hrun]
    intro (live : Except Error String) ⟨hlive, htold'⟩
    refine ⟨_, rfl, ?_, ?_⟩
    · intro xml hxml
      rcases List.mem_append.mp hxml with hxml | hxml
      · exact hparsed htold xml hxml
      · exact hparsed htold' xml hxml
    · rcases hfirst with hmissing | ⟨⟨a, rfl⟩, xml, rfl⟩
      · exact .inl hmissing
      · obtain rfl : a = true := hrun
        rcases htold' with ⟨e, rfl, he⟩ | ⟨doc, -, rfl, -⟩
        · exact .inl ⟨_, e, rfl, hlive, he⟩
        · exact .inr (.running xml doc hsaved hactive hlive)
  · rw [if_neg hrun]
    refine ⟨_, rfl, hparsed htold, ?_⟩
    rcases hfirst with hmissing | ⟨⟨a, rfl⟩, xml, rfl⟩
    · exact .inl hmissing
    · obtain rfl : a = false := Bool.eq_false_iff.mpr hrun
      exact .inr (.shutOff xml hsaved hactive)

omit [Libvirtd] [Xmltree] in
theorem addUses_calls (name : String) (sources : List DiskSource) (uses : List UseOf) :
    (addUses name sources uses).Calls fun q => pathCall q = true := by
  refine Prog.Calls.foldlM (fun uses source => (pathOf_calls source).bind fun path => ?_) _ _
  cases path with
  | none => trivial
  | some path => trivial

-- The loop over the documents of one domain.
theorem addDocuments_holds (name : String) (docs : List String) (uses : List UseOf) :
    (docs.foldlM (fun uses xml =>
      addUses name ((domainDiskSources xml).toOption.getD []) uses) uses).Holds (heard w log)
      fun r => r = .ok (uses ++ docs.flatMap fun xml =>
        (allSources xml).flatMap (sourceUseOf w name)) := by
  have hcalls := Prog.Calls.foldlM (fun uses xml =>
    addUses_calls name ((domainDiskSources xml).toOption.getD []) uses) docs uses
  have hanswer : ∀ q r, pathCall q = true → heard w log q r → r = w.query q :=
    fun q r hq hr => told_path q r hq hr.2
  refine (Prog.Holds.of_eval hcalls hanswer).imp ?_
  rintro r rfl
  rw [Prog.eval_foldlM]
  apply foldlM_append_ok
  intro uses xml _
  exact addUses_eval name (allSources xml) uses

-- What the loop of `disksOfAllDomains` does with one domain.
def scanDomain (uses : List UseOf) (d : Ref) : Read (List UseOf) := do
  let name : Except Error String ← (Cache.get (.domainName d)).attempt
  match name with
  | .error _ => return uses
  | .ok name =>
      let xmls ← documentsOf d
      xmls.foldlM (fun uses xml =>
        addUses name ((domainDiskSources xml).toOption.getD []) uses) uses

-- Every domain of the list is settled: the files of its disks are among the uses.
theorem scan_holds (domains : List Ref) : (domains.foldlM scanDomain []).Holds (heard w log)
    fun r => ∃ uses, r = .ok uses ∧ ∀ d ∈ domains,
        Settled domainDiskSources w log d fun file => ∃ user, ⟨file, user⟩ ∈ uses := by
  apply Prog.Holds.foldlM (fun rest uses => ∀ d ∈ domains, d ∉ rest →
    Settled domainDiskSources w log d fun file => ∃ user, ⟨file, user⟩ ∈ uses)
  · intro uses h
    exact ⟨uses, rfl, fun d hd => h d hd (List.not_mem_nil)⟩
  · intro d rest uses h
    have hmore : ∀ {uses' : List UseOf}, uses ⊆ uses' → ∀ x : Ref,
        (Settled domainDiskSources w log x fun file => ∃ user, ⟨file, user⟩ ∈ uses) →
          Settled domainDiskSources w log x fun file => ∃ user, ⟨file, user⟩ ∈ uses' := by
      intro uses' hsub x hx
      refine hx.mono (List.Subset.refl _) ?_
      rintro file ⟨user, huser⟩
      exact ⟨user, hsub huser⟩
    intro (name : Except Error String) ⟨hname, htold⟩
    cases name with
    | error e =>
        exact settled_next h (hmore (List.Subset.refl _)) (.inl ⟨_, e, rfl, hname, htold e rfl⟩)
    | ok name =>
        show Prog.Holds _ _ (documentsOf d >>= _)
        refine Prog.Holds.bind ((documentsOf_holds d).imp ?_)
        rintro r ⟨docs, rfl, hparsed, hread⟩
        refine (addDocuments_holds name docs uses).imp ?_
        rintro r rfl
        refine settled_next h (hmore (List.subset_append_left _ _)) ?_
        rcases hread with hmissing | hread
        · exact .inl hmissing
        · refine .inr ⟨docs, hread, ?_⟩
          intro xml hxml
          obtain ⟨sources, hparse⟩ := hparsed xml hxml
          refine ⟨sources, hparse, ?_⟩
          intro source hsource path hpath
          refine ⟨name, List.mem_append_right _ ?_⟩
          simp only [List.mem_flatMap]
          refine ⟨xml, hxml, source, ?_, ?_⟩
          · simpa [allSources, hparse, Except.toOption] using hsource
          · simp [sourceUseOf, hpath]
  · intro d hd hnot
    exact absurd hd hnot

-- The facts of the volume are read after the scan.
abbrev BeforeFacts (q : Query) : Prop := ∀ v, q ≠ .volInfo v

-- The scan goes on: the domains are listed, and the facts of the volume are not yet read.
def Scanning (log : List Made) : Prop :=
  (∃ m ∈ log, m.call = .query .listAllDomains) ∧ ∀ m ∈ log, ∀ v, m.call ≠ .query (.volInfo v)

-- No call of the scan has a fault, and each document that it gets can be read.
def ScanReadable (o : Outside) (s : Busy) (c : Call) : Prop :=
  Scanning s.log → ∀ q, c = .query q →
    (pathCall q = true ∨ (domainRead q).isSome → o.faults s.log.length c = none) ∧
    ∀ d inactive dom, q = .domainXmlDesc d inactive → (s.arrive o).domain d.id = .ok dom →
      ∃ sources, domainDiskSources (dom.xmlDesc inactive) = .ok sources

variable {o : Outside} {s t : Busy}

omit [Libvirtd] [FileSystem] [Xmltree] in
theorem domain_error {x : World} {id : Uuid} {e : Error} (h : x.domain id = .error e) :
    e.isCode .noDomain = true := by
  unfold World.domain at h
  cases hd : x.domains.lookup id with
  | none =>
      rw [hd] at h
      cases h
      rfl
  | some d =>
      rw [hd] at h
      cases h

omit [FileSystem] in
theorem told_of_fair (ho : Steady o) {q : Query} (hq : pathCall q = true ∨ (domainRead q).isSome)
    {r : Except Error q.Result} (hmay : fair o (ScanReadable o) s (.query q) r t)
    (hpools : s.world.pools = w.pools) (hs : Scanning s.log) : told w q r := by
  obtain ⟨hfault, hdocs⟩ := hmay.2 hs q rfl
  have hr := fair_query hmay (hfault hq)
  have hpath : pathCall q = true → r = w.query q := by
    intro hq
    rw [hr]
    exact query_pools (ho.arrive.trans hpools) hq
  cases q with
  | domainXmlDesc d inactive =>
      simp only [World.query] at hr
      cases hd : (s.arrive o).domain d.id with
      | error e =>
          rw [hd] at hr
          exact .inl ⟨e, hr, domain_error hd⟩
      | ok dom =>
          rw [hd] at hr
          obtain ⟨sources, hparse⟩ := hdocs d inactive dom rfl hd
          exact .inr ⟨dom.xmlDesc inactive, sources, hr, hparse⟩
  | domainIsActive d =>
      rintro e rfl
      simp only [World.query] at hr
      cases hd : (s.arrive o).domain d.id with
      | error fault =>
          rw [hd] at hr
          cases hr
          exact domain_error hd
      | ok dom =>
          rw [hd] at hr
          cases hr
  | domainName d =>
      rintro e rfl
      cases hr
  | _ => exact hpath

omit [Libvirtd] [FileSystem] in
theorem readVolumes_calls (p : Ref) : (readVolumes p).Calls BeforeFacts := by
  have hdone : ∀ {α : Type} (r : Except Error α),
      (Prog.done r : Read α).Calls BeforeFacts := fun _ => trivial
  refine Prog.Calls.bind ⟨nofun, fun _ => hdone _⟩ fun volumes => ?_
  refine Prog.Calls.foldlM (fun out v => ?_) _ _
  refine Prog.Calls.bind ⟨nofun, fun _ => hdone _⟩ fun text => ?_
  refine Prog.Calls.bind ?_ fun _ => hdone _
  cases VolumeXml.parse text with
  | error e => trivial
  | ok xml => trivial

omit [Libvirtd] in
theorem scan_calls (domains : List Ref) : (domains.foldlM scanDomain []).Calls fun q =>
    pathCall q = true ∨ (domainRead q).isSome := by
  have hdone : ∀ {α : Type} (r : Except Error α), (Prog.done r : Read α).Calls fun q =>
      pathCall q = true ∨ (domainRead q).isSome := fun _ => trivial
  have hdocs : ∀ d, (documentsOf d).Calls fun q => pathCall q = true ∨ (domainRead q).isSome := by
    intro d
    refine Prog.Calls.bind ⟨.inr rfl, fun _ => hdone _⟩ fun saved => ?_
    refine Prog.Calls.bind ⟨.inr rfl, fun _ => hdone _⟩ fun active => ?_
    refine Prog.Calls.ite ?_ (hdone _)
    exact Prog.Calls.bind ⟨.inr rfl, fun _ => hdone _⟩ fun live => hdone _
  refine Prog.Calls.foldlM (fun uses d => ?_) _ _
  refine Prog.Calls.bind ⟨.inr rfl, fun _ => hdone _⟩ fun (name : Except Error String) => ?_
  cases name with
  | error e => exact hdone _
  | ok name =>
      refine Prog.Calls.bind (hdocs d) fun docs => Prog.Calls.foldlM (fun uses xml => ?_) _ _
      exact (addUses_calls _ _ _).imp fun q hq => .inl hq

theorem disksOfAllDomains_wp (ho : Steady o) (hs : Reads BeforeFacts w s) :
    disksOfAllDomains.Wp (fun s q r t => fair o (ScanReadable o) s (.query q) r t)
      (fun r t => Reads BeforeFacts w t ∧ ∀ uses, r = .ok uses → ∃ domains : List Ref,
        ⟨.query .listAllDomains, .ok domains⟩ ∈ t.log ∧ ∀ d ∈ domains,
          Settled domainDiskSources w t.log d fun file => ∃ user, ⟨file, user⟩ ∈ uses) s := by
  intro r t hmay
  have hcall : BeforeFacts .listAllDomains := nofun
  have ht : Reads BeforeFacts w t := hs.step ho hcall hmay
  cases r with
  | error e => exact ⟨ht, nofun⟩
  | ok domains =>
      have hlog : t.log = s.log ++ [⟨.query .listAllDomains, .ok domains⟩] :=
        turn_log (turn_of_fair hmay)
      have hlist : ⟨.query .listAllDomains, .ok domains⟩ ∈ t.log := by simp [hlog]
      have hstep : ∀ q, (pathCall q = true ∨ (domainRead q).isSome) → ∀ s r t,
          fair o (ScanReadable o) s (.query q) r t →
          Reads BeforeFacts w s ∧ ⟨.query .listAllDomains, .ok domains⟩ ∈ s.log →
          (Reads BeforeFacts w t ∧ ⟨.query .listAllDomains, .ok domains⟩ ∈ t.log) ∧ told w q r := by
        rintro q hq s r t hmay ⟨hs, hlist⟩
        have hinfo : BeforeFacts q := by
          rintro v rfl
          simp [pathCall, domainRead] at hq
        refine ⟨⟨hs.step ho hinfo hmay, ?_⟩, ?_⟩
        · rw [turn_log (turn_of_fair hmay)]
          exact List.mem_append_left _ hlist
        · refine told_of_fair ho hq hmay hs.1 ⟨⟨_, hlist, rfl⟩, ?_⟩
          intro m hm v heq
          obtain ⟨q, hq, hbefore⟩ := hs.2 m hm
          exact hbefore v (Call.query.inj (hq.symm.trans heq))
      refine (wp_of_holds hstep (scan_calls domains) ⟨ht, hlist⟩
        fun log _ => scan_holds domains).imp ?_
      rintro r u ⟨⟨hu, hlist⟩, uses, rfl, hsettled⟩
      refine ⟨hu, ?_⟩
      intro found heq
      cases heq
      exact ⟨domains, hlist, hsettled⟩

-- The last two calls give the facts of the volume, and its path with them.
theorem describe_wp (ho : Steady o) (v : VolRef) (xml : VolumeXml) (disks overlays : List UseOf)
    (hpools : s.world.pools = w.pools) (hkeeps : Delete.Keeps s.log) :
    (describe v xml disks overlays).Wp (fun s q r t => fair o (ScanReadable o) s (.query q) r t)
      (fun r t => Delete.Keeps t.log ∧ s.log ⊆ t.log ∧ ∀ facts, r = .ok facts →
        ∃ vol, w.vol v = .ok vol ∧ facts.usedBy = usersOf (canonical vol.path) disks) s := by
  intro r t hinfo
  have ht : t.log = s.log ++ [⟨.query (.volInfo v), r⟩] := turn_log (turn_of_fair hinfo)
  have hkeeps' : Delete.Keeps t.log := by
    rw [ht]
    exact hkeeps.append nofun
  have hsub : s.log ⊆ t.log := by simp [ht]
  cases r with
  | error e => exact ⟨hkeeps', hsub, nofun⟩
  | ok info =>
      intro r u hpath
      have hu : u.log = t.log ++ [⟨.query (.volPath v), r⟩] := turn_log (turn_of_fair hpath)
      have hkeeps'' : Delete.Keeps u.log := by
        rw [hu]
        exact hkeeps'.append nofun
      have hsub' : s.log ⊆ u.log := by
        rw [hu]
        exact List.subset_append_of_subset_left _ hsub
      cases r with
      | error e => exact ⟨hkeeps'', hsub', nofun⟩
      | ok path =>
          refine ⟨hkeeps'', hsub', ?_⟩
          intro facts heq
          cases heq
          obtain ⟨-, hquery, -⟩ := turn_query_ok (turn_of_fair hpath)
          have hsame : (t.arrive o).pools = w.pools :=
            ho.arrive.trans ((ho.query_pools hinfo).trans hpools)
          rw [query_pools hsame rfl] at hquery
          obtain ⟨vol, hvol, rfl⟩ := except_map_eq_ok.mp hquery
          exact ⟨vol, hvol, rfl⟩

theorem factsOf_wp (ho : Steady o) (id : Uuid) (name : String) (hs : Reads BeforeFacts w s) :
    (factsOf id name).Wp (fun s q r t => fair o (ScanReadable o) s (.query q) r t)
      (fun r t => Delete.Keeps t.log ∧ ∀ v facts, r = .ok (v, facts) → facts.usedBy = [] →
        Unused domainDiskSources (fun _ => True) w t.log v) s := by
  have hdone : ∀ {α : Type} (r : Except Error α),
      (Prog.done r : Read α).Calls BeforeFacts := fun _ => trivial
  have hpool : (runningPool id).Calls BeforeFacts := by
    refine Prog.Calls.bind ⟨nofun, fun _ => hdone _⟩ fun pool => ?_
    exact Prog.Calls.bind ⟨nofun, fun _ => hdone _⟩ fun active => Prog.Calls.ite (hdone _) (hdone _)
  have hfailed : ∀ (e : Error) (t : Busy), Reads BeforeFacts w t → Delete.Keeps t.log ∧ ∀ v facts,
      (.error e : Except Error (VolRef × Facts)) = .ok (v, facts) → facts.usedBy = [] →
        Unused domainDiskSources (fun _ => True) w t.log v := fun e t ht => ⟨ht.keeps, nofun⟩
  refine hs.bind ho hpool ?_ hfailed
  intro pool s hs
  refine hs.bind ho ⟨nofun, fun _ => hdone _⟩ ?_ hfailed
  intro v s hs
  refine hs.bind ho ⟨nofun, fun _ => hdone _⟩ ?_ hfailed
  intro text s hs
  refine hs.bind ho (readable_calls _) ?_ hfailed
  intro xml s hs
  refine hs.bind ho (readVolumes_calls pool) ?_ hfailed
  intro volumes s hs
  refine Prog.wp_bind.mpr ((disksOfAllDomains_wp ho hs).imp ?_)
  rintro r s ⟨hs, hscan⟩
  cases r with
  | error e => exact hfailed e s hs
  | ok disks =>
      obtain ⟨domains, hlist, hsettled⟩ := hscan disks rfl
      refine Prog.wp_bind.mpr ((describe_wp ho v xml disks (overlaysOf volumes) hs.1 hs.keeps).imp ?_)
      rintro r t ⟨hkeeps, hsub, hfacts⟩
      cases r with
      | error e => exact ⟨hkeeps, nofun⟩
      | ok facts =>
          refine ⟨hkeeps, ?_⟩
          intro v' facts' heq hused
          cases heq
          obtain ⟨vol, hvol, husers⟩ := hfacts facts rfl
          refine ⟨domains, vol, hsub hlist, hvol, ?_⟩
          intro d hd _
          refine (hsettled d hd).mono hsub ?_
          rintro file ⟨user, huser⟩ rfl
          have hmem := mem_usersOf.mpr huser
          rw [← husers, hused] at hmem
          cases hmem

theorem deleteOn_wp (ho : Steady o) (id : Uuid) (name : String) (hs : Reads BeforeFacts w s) :
    (deleteOn id name).Wp (fair o (ScanReadable o))
      (fun _ t => FailsClosed domainDiskSources (fun _ => True) w t.log) s := by
  refine Prog.wp_bind.mpr (reading_wp ((factsOf_wp ho id name hs).imp ?_))
  rintro r t ⟨hkeeps, hfacts⟩
  cases r with
  | error e => exact .of_keeps hkeeps
  | ok found =>
      obtain ⟨v, facts⟩ := found
      refine Prog.Wp.ite (fun hempty => ?_) fun _ => .of_keeps hkeeps
      have hused : facts.usedBy = [] := by
        rw [List.isEmpty_iff, List.append_eq_nil_iff] at hempty
        exact hempty.1
      intro r u hmay
      have hlog : u.log = t.log ++ [⟨.command (.volDelete v), r⟩] := turn_log (turn_of_fair hmay)
      show FailsClosed domainDiskSources (fun _ => True) w u.log
      rw [hlog]
      refine (FailsClosed.of_keeps hkeeps).append ?_
      intro x heq
      cases heq
      exact hfacts v facts rfl hused

end Volume

end Lodger
