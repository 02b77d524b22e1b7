import Lodger.Creates
import Lodger.Xml.Overlap

namespace Lodger.Creates

open Validate Xml Lib

section Places

variable [Xmltree]

-- The plain target path of a pool.
def folder (xml : String) : Option String :=
  (PoolXml.parse xml).toOption.bind fun doc => doc.targetPath.bind plain

def exportKey (host exported : String) : List Char × String :=
  (host.toList.map Char.toLower, exported)

-- The server without regard to ASCII case and the plain path of an NFS export.
def nfsExport (xml : String) : Option (List Char × String) :=
  (PoolXml.parse xml).toOption.bind fun doc => doc.nfsSource.bind fun (host, exported) =>
    (plain exported).map (exportKey host)

def subnetsOf (xml : String) : List Ipv4Net :=
  match NetworkXml.parse xml with
  | .error _ => []
  | .ok doc => doc.subnets

def SamePlace (a b : String) : Prop :=
  (∃ path, folder a = some path ∧ folder b = some path) ∨
    ∃ key, nfsExport a = some key ∧ nfsExport b = some key

def Overlapping (a b : String) : Prop :=
  ∃ net ∈ subnetsOf a, ∃ other ∈ subnetsOf b, ∃ addr,
    net.containsAddr addr = true ∧ other.containsAddr addr = true

structure Apart (s : State) : Prop where
  pools : s.pools.Pairwise fun a b => ¬SamePlace a.2 b.2
  networks : s.networks.Pairwise fun a b => ¬Overlapping a.2 b.2

def sourceKey : PoolSource → Option (List Char × String)
  | .dir => none
  | .nfs host exported => some (exportKey host.name exported.text)

-- What the check of a new pool or network looks for in one document.
def New.Clashes (new : New) (xml : String) : Prop :=
  match new with
  | .pool new => folder xml = some new.path.text ∨
      ∃ key, sourceKey new.source = some key ∧ nfsExport xml = some key
  | .network new => ∃ net ∈ new.subnet.toList, ∃ other ∈ subnetsOf xml, overlaps net other = true

omit [Xmltree] in
theorem exists_key_iff (a b : Option (List Char × String)) :
    (a.isSome = true ∧ b = a) ↔ ∃ key, a = some key ∧ b = some key := by
  cases a with
  | none => simp
  | some key => simp

instance New.decidableClashes (new : New) (xml : String) : Decidable (new.Clashes xml) :=
  match new with
  | .pool new =>
    have : Decidable (∃ key, sourceKey new.source = some key ∧ nfsExport xml = some key) :=
      decidable_of_iff _ (exists_key_iff (sourceKey new.source) (nfsExport xml))
    inferInstanceAs (Decidable (folder xml = some new.path.text ∨
      ∃ key, sourceKey new.source = some key ∧ nfsExport xml = some key))
  | .network new =>
    inferInstanceAs (Decidable (∃ net ∈ new.subnet.toList, ∃ other ∈ subnetsOf xml,
      overlaps net other = true))

theorem SamePlace.symm {a b : String} (h : SamePlace a b) : SamePlace b a := by
  obtain ⟨path, ha, hb⟩ | ⟨key, ha, hb⟩ := h
  · exact Or.inl ⟨path, hb, ha⟩
  · exact Or.inr ⟨key, hb, ha⟩

theorem Overlapping.symm {a b : String} (h : Overlapping a b) : Overlapping b a := by
  obtain ⟨net, hn, other, ho, addr, h1, h2⟩ := h
  exact ⟨other, ho, net, hn, addr, h2, h1⟩

end Places

section Check

variable (pool : NewPool) (network : NewNetwork)

theorem sharesExport_iff (doc : PoolXml) : pool.sharesExport doc = true ↔
    ∃ key, sourceKey pool.source = some key ∧ (doc.nfsSource.bind fun (host, exported) =>
      (plain exported).map (exportKey host)) = some key := by
  obtain ⟨name, path, source⟩ := pool
  cases source with
  | dir => simp [NewPool.sharesExport, sourceKey]
  | nfs host exported =>
      cases hs : doc.nfsSource with
      | none => simp [NewPool.sharesExport, hs]
      | some other =>
          obtain ⟨otherHost, otherExport⟩ := other
          cases hp : plain otherExport with
          | none => simp [NewPool.sharesExport, sourceKey, hs, hp]
          | some otherPlain =>
              simp only [NewPool.sharesExport, sourceKey, hs, hp, eqIgnoreAsciiCase, exportKey,
                Bool.and_eq_true, decide_eq_true_eq, Option.some.injEq, Option.bind_some,
                Option.map_some, exists_eq_left', Prod.mk.injEq]
              constructor
              · rintro ⟨hh, he⟩
                exact ⟨hh.symm, he⟩
              · rintro ⟨hh, he⟩
                exact ⟨hh.symm, he⟩

theorem checkAgainst_ok {existing : List (String × PoolXml)}
    (h : pool.checkAgainst existing = .ok ()) : ∀ row ∈ existing,
      row.2.targetPath.bind plain ≠ some pool.path.text ∧ pool.sharesExport row.2 = false := by
  induction existing with
  | nil => simp
  | cons row existing ih =>
      obtain ⟨name, doc⟩ := row
      simp only [NewPool.checkAgainst] at h
      split at h
      · cases h
      · next hpath =>
        split at h
        · cases h
        · next hshare =>
          intro row hrow
          obtain rfl | hrow := List.mem_cons.mp hrow
          · exact ⟨hpath, Bool.eq_false_iff.mpr hshare⟩
          · exact ih h row hrow

theorem mem_readable {Doc : Type} {parse : String → Except XmlError Doc} {existing : Rows}
    {name xml : String} {doc : Doc} (hm : (name, xml) ∈ existing) (hp : parse xml = .ok doc) :
    (name, doc) ∈ readable parse existing := by
  simp only [readable, List.mem_filterMap]
  exact ⟨(name, xml), hm, by simp [hp, Except.toOption]⟩

variable [Xmltree]

theorem pool_clear {existing : Rows}
    (h : pool.checkAgainst (readable PoolXml.parse existing) = .ok ()) :
    ∀ row ∈ existing, ¬(New.pool pool).Clashes row.2 := by
  rintro ⟨name, xml⟩ hm hc
  cases hp : PoolXml.parse xml with
  | error e => simp [New.Clashes, folder, nfsExport, hp, Except.toOption] at hc
  | ok doc =>
      have hclear := checkAgainst_ok pool h _ (mem_readable hm hp)
      simp only [New.Clashes, folder, nfsExport, hp, Except.toOption, Option.bind_some] at hc
      obtain hc | hc := hc
      · exact hclear.1 hc
      · have hs := (sharesExport_iff pool doc).mpr hc
        simp [hs] at hclear

theorem network_clear {existing : Rows}
    (h : network.checkAgainst (readable NetworkXml.parse existing) = .ok ()) :
    ∀ row ∈ existing, ¬(New.network network).Clashes row.2 := by
  rintro ⟨name, xml⟩ hm ⟨net, hnet, other, hother, ho⟩
  cases hp : NetworkXml.parse xml with
  | error e => simp [subnetsOf, hp] at hother
  | ok doc =>
      have hsubnet : network.subnet = some net := by simpa using hnet
      simp only [subnetsOf, hp] at hother
      simp only [NewNetwork.checkAgainst, hsubnet] at h
      have hrow : (name, other) ∈ (readable NetworkXml.parse existing).flatMap
          fun row => row.2.subnets.map fun net => (row.1, net) := by
        refine List.mem_flatMap.mpr ⟨(name, doc), mem_readable hm hp, ?_⟩
        exact List.mem_map.mpr ⟨other, hother, rfl⟩
      have hclear := (checkNoOverlap_eq_ok_iff _).mp h _ hrow
      simp [ho] at hclear

variable [Ipnet]

-- A request that passes its check clashes with nothing that it listed.
theorem check_spec {request : Request} {existing : Rows} {hostBridges : List String} {new : New}
    (h : check request existing hostBridges = .ok new) :
    ∀ row ∈ existing, ¬new.Clashes row.2 := by
  cases request with
  | pool request =>
      obtain ⟨pool, hp, rfl⟩ := except_map_eq_ok.mp h
      obtain ⟨name, -, hp⟩ := except_bind_eq_ok.mp hp
      split at hp
      · cases hp
      · obtain ⟨built, -, hp⟩ := except_bind_eq_ok.mp hp
        obtain ⟨_, hcheck, hp⟩ := except_bind_eq_ok.mp hp
        cases hp
        exact pool_clear pool (except_mapError_eq_ok.mp hcheck)
  | network request =>
      obtain ⟨network, hn, rfl⟩ := except_map_eq_ok.mp h
      obtain ⟨name, -, hn⟩ := except_bind_eq_ok.mp hn
      split at hn
      · cases hn
      · obtain ⟨built, -, hn⟩ := except_bind_eq_ok.mp hn
        obtain ⟨_, hcheck, hn⟩ := except_bind_eq_ok.mp hn
        cases hn
        exact network_clear network (except_mapError_eq_ok.mp hcheck)

end Check

section Listings

variable [Xmltree] {xml : String}

theorem folder_listedAs {new : NewPool} (h : (New.pool new).listedAs xml = true) :
    folder xml = some new.path.text := by
  simp only [New.listedAs] at h
  split at h
  · cases h
  · next doc hp =>
    simp only [Bool.and_eq_true, decide_eq_true_eq] at h
    simp [folder, hp, Except.toOption, h.1, new.path.plain_text]

theorem nfsExport_listedAs {new : NewPool} (h : (New.pool new).listedAs xml = true) :
    nfsExport xml = sourceKey new.source := by
  simp only [New.listedAs] at h
  split at h
  · cases h
  · next doc hp =>
    simp only [Bool.and_eq_true, decide_eq_true_eq] at h
    cases hs : new.source with
    | dir => simp [nfsExport, hp, Except.toOption, h.2, hs, listedSource, sourceKey]
    | nfs host exported =>
        simp [nfsExport, hp, Except.toOption, h.2, hs, listedSource, sourceKey, exported.plain_text]

theorem subnetsOf_listedAs {new : NewNetwork} (h : (New.network new).listedAs xml = true) :
    subnetsOf xml = new.subnet.toList := by
  simp only [New.listedAs] at h
  split at h
  · cases h
  · next doc hp =>
    simp only [decide_eq_true_eq] at h
    simp [subnetsOf, hp, h]

-- What the check looks for is what must not be shared.
theorem samePlace_iff {new : NewPool} (h : (New.pool new).listedAs xml = true) (other : String) :
    SamePlace xml other ↔ (New.pool new).Clashes other := by
  have hf := folder_listedAs h
  have he := nfsExport_listedAs h
  simp only [SamePlace, New.Clashes, hf, he, Option.some.injEq, exists_eq_left']

theorem overlapping_iff {new : NewNetwork} (h : (New.network new).listedAs xml = true)
    (other : String) : Overlapping xml other ↔ (New.network new).Clashes other := by
  have hs := subnetsOf_listedAs h
  simp only [Overlapping, New.Clashes, hs, overlaps_iff]

theorem samePlace_row_iff {new : NewPool} (hl : (New.pool new).listedAs xml = true)
    (other : String) : SamePlace other xml ↔ (New.pool new).Clashes other := by
  rw [← samePlace_iff hl]
  exact ⟨SamePlace.symm, SamePlace.symm⟩

theorem overlapping_row_iff {new : NewNetwork}
    (hl : (New.network new).listedAs xml = true) (other : String) :
    Overlapping other xml ↔ (New.network new).Clashes other := by
  rw [← overlapping_iff hl]
  exact ⟨Overlapping.symm, Overlapping.symm⟩

-- A new row keeps the rows apart exactly if it clashes with none of them.
theorem apart_define {s : State} {i : Nat} {new : New} (hl : new.listedAs xml = true)
    (hs : Apart s) (h : ∀ row ∈ s.rows new, ¬new.Clashes row.2) :
    Apart ((s.setRows new (s.rows new ++ [(new.name, xml)])).setStage i (.defined new)) := by
  cases new with
  | pool new =>
      refine ⟨List.pairwise_append.mpr ⟨hs.pools, List.pairwise_singleton _ _, ?_⟩, hs.networks⟩
      intro row hrow last hlast
      rw [List.mem_singleton] at hlast
      subst hlast
      exact fun hsame => h row hrow ((samePlace_row_iff hl _).mp hsame)
  | network new =>
      refine ⟨hs.pools, List.pairwise_append.mpr ⟨hs.networks, List.pairwise_singleton _ _, ?_⟩⟩
      intro row hrow last hlast
      rw [List.mem_singleton] at hlast
      subst hlast
      exact fun hover => h row hrow ((overlapping_row_iff hl _).mp hover)

theorem clear_of_apart_define {s : State} {i : Nat} {new : New} (hl : new.listedAs xml = true)
    (h : Apart ((s.setRows new (s.rows new ++ [(new.name, xml)])).setStage i (.defined new))) :
    ∀ row ∈ s.rows new, ¬new.Clashes row.2 := by
  intro row hrow hclash
  cases new with
  | pool new =>
      have hp := (List.pairwise_append.mp h.pools).2.2 row hrow _ (List.mem_singleton_self _)
      exact hp ((samePlace_row_iff hl _).mpr hclash)
  | network new =>
      have hp := (List.pairwise_append.mp h.networks).2.2 row hrow _ (List.mem_singleton_self _)
      exact hp ((overlapping_row_iff hl _).mpr hclash)

end Listings

section Stages

variable {s t : State} {i : Nat} {stage : Stage}

@[simp] theorem setStage_pools : (s.setStage i stage).pools = s.pools := rfl
@[simp] theorem setStage_networks : (s.setStage i stage).networks = s.networks := rfl

theorem mem_setStage {create : Create} (h : create ∈ (s.setStage i stage).creates) :
    create ∈ s.creates ∨ create.stage = stage := by
  obtain ⟨j, hj⟩ := List.mem_iff_getElem?.mp h
  simp only [State.setStage, List.getElem?_modify] at hj
  obtain ⟨old, hold, hc⟩ := Option.map_eq_some_iff.mp hj
  by_cases hij : i = j
  · rw [if_pos hij] at hc
    exact Or.inr (by rw [← hc])
  · rw [if_neg hij] at hc
    exact Or.inl (by rw [← hc]; exact List.mem_of_getElem? hold)

@[simp] theorem setRows_creates (new : New) (rows : Rows) :
    (s.setRows new rows).creates = s.creates := by
  cases new <;> rfl

end Stages

section Runs

variable [Xmltree] [Ipnet] {s t : State} {a : Action}

-- A request defines its pool or network while nothing that it did not list clashes.
def NoLateClash (s : State) : Action → Prop
  | .define i _ =>
    match s.creates[i]? with
    | some ⟨_, .checked existing new⟩ =>
      ∀ row ∈ s.rows new, row ∉ existing → ¬new.Clashes row.2
    | _ => True
  | _ => True

instance NoLateClash.decidable (s : State) (a : Action) : Decidable (NoLateClash s a) :=
  match a with
  | .define i _ =>
    match h : s.creates[i]? with
    | some ⟨_, .checked existing new⟩ =>
      decidable_of_iff (∀ row ∈ s.rows new, row ∉ existing → ¬new.Clashes row.2)
        (by simp [NoLateClash, h])
    | some ⟨_, .asked⟩ => isTrue (by simp [NoLateClash, h])
    | some ⟨_, .listed _⟩ => isTrue (by simp [NoLateClash, h])
    | some ⟨_, .defined _⟩ => isTrue (by simp [NoLateClash, h])
    | some ⟨_, .answered⟩ => isTrue (by simp [NoLateClash, h])
    | none => isTrue (by simp [NoLateClash, h])
  | .arrive _ => isTrue trivial
  | .list _ => isTrue trivial
  | .check _ _ => isTrue trivial
  | .start _ => isTrue trivial
  | .fail _ _ => isTrue trivial

-- Every request that passed its check clashes with nothing in its list.
def Checked (s : State) : Prop :=
  ∀ create ∈ s.creates, ∀ existing new, create.stage = .checked existing new →
    ∀ row ∈ existing, ¬new.Clashes row.2

-- What a step does to the pools and networks.
inductive Effect (s t : State) : Action → Prop where
  | same (a : Action) (h : t.pools = s.pools ∧ t.networks = s.networks)
      (hd : ∀ i xml, a ≠ .define i xml) : Effect s t a
  | define (i : Nat) (xml : String) (request : Request) (existing : Rows) (new : New)
      (hi : s.creates[i]? = some ⟨request, .checked existing new⟩) (hl : new.listedAs xml = true)
      (ht : t = (s.setRows new (s.rows new ++ [(new.name, xml)])).setStage i (.defined new)) :
      Effect s t (.define i xml)
  | remove (i : Nat) (new : New)
      (ht : t = (s.setRows new ((s.rows new).filter (·.1 ≠ new.name))).setStage i .answered) :
      Effect s t (.fail i true)

theorem step_effect (h : step s a = some t) : Effect s t a := by
  cases a with
  | arrive request =>
      cases h
      exact .same _ ⟨rfl, rfl⟩ (by nofun)
  | list i =>
      simp only [step] at h
      split at h
      · cases h
        exact .same _ ⟨rfl, rfl⟩ (by nofun)
      · cases h
  | check i hostBridges =>
      simp only [step] at h
      split at h
      · split at h
        · cases h
          exact .same _ ⟨rfl, rfl⟩ (by nofun)
        · cases h
          exact .same _ ⟨rfl, rfl⟩ (by nofun)
      · cases h
  | define i xml =>
      simp only [step] at h
      split at h
      · next request existing new hi =>
        split at h
        · next hc =>
          cases h
          exact .define i xml request existing new hi hc.2.2 rfl
        · cases h
      · cases h
  | start i =>
      simp only [step] at h
      split at h
      · cases h
        exact .same _ ⟨rfl, rfl⟩ (by nofun)
      · cases h
  | fail i removed =>
      simp only [step] at h
      split at h
      · cases h
        exact .same _ ⟨rfl, rfl⟩ (by nofun)
      · cases h
        exact .same _ ⟨rfl, rfl⟩ (by nofun)
      · next new hi =>
        split at h
        · next hr =>
          cases h
          subst hr
          exact .remove i new rfl
        · cases h
          exact .same _ ⟨rfl, rfl⟩ (by nofun)
      · cases h

-- The stage that a step gives to a request, if it is a checked one, comes from the check.
theorem step_checked (hc : Checked s) (h : step s a = some t) : Checked t := by
  have keep : ∀ {u : State} {i : Nat} {stage : Stage}, u.creates = s.creates →
      (∀ existing new, stage = .checked existing new → ∀ row ∈ existing, ¬new.Clashes row.2) →
      Checked (u.setStage i stage) := by
    intro u i stage hu hstage create hm existing new hcreate
    obtain hm | hm := mem_setStage hm
    · exact hc create (hu ▸ hm) existing new hcreate
    · exact hstage existing new (hm ▸ hcreate)
  cases a with
  | arrive request =>
      cases h
      intro create hm existing new hcreate
      obtain hm | hm := List.mem_append.mp hm
      · exact hc create hm existing new hcreate
      · rw [List.mem_singleton] at hm
        subst hm
        cases hcreate
  | list i =>
      simp only [step] at h
      split at h
      · cases h
        exact keep rfl (by nofun)
      · cases h
  | check i hostBridges =>
      simp only [step] at h
      split at h
      · split at h
        · next new hnew =>
          cases h
          refine keep rfl ?_
          intro existing new' hstage
          cases hstage
          exact check_spec hnew
        · cases h
          exact keep rfl (by nofun)
      · cases h
  | define i xml =>
      simp only [step] at h
      split at h
      · split at h
        · cases h
          exact keep (setRows_creates _ _) (by nofun)
        · cases h
      · cases h
  | start i =>
      simp only [step] at h
      split at h
      · cases h
        exact keep rfl (by nofun)
      · cases h
  | fail i removed =>
      simp only [step] at h
      split at h
      · cases h
        exact keep rfl (by nofun)
      · cases h
        exact keep rfl (by nofun)
      · split at h
        · cases h
          exact keep (setRows_creates _ _) (by nofun)
        · cases h
          exact keep rfl (by nofun)
      · cases h

theorem step_apart (hs : Apart s ∧ Checked s) (hok : NoLateClash s a) (h : step s a = some t) :
    Apart t ∧ Checked t := by
  refine ⟨?_, step_checked hs.2 h⟩
  cases step_effect h with
  | same _ heq _ =>
      refine ⟨?_, ?_⟩
      · rw [heq.1]
        exact hs.1.pools
      · rw [heq.2]
        exact hs.1.networks
  | define i xml request existing new hi hl ht =>
      subst ht
      refine apart_define hl hs.1 ?_
      intro row hrow
      by_cases hm : row ∈ existing
      · exact hs.2 _ (List.mem_of_getElem? hi) existing new rfl row hm
      · simp only [NoLateClash, hi] at hok
        exact hok row hrow hm
  | remove i new ht =>
      subst ht
      cases new with
      | pool new => exact ⟨hs.1.pools.filter _, hs.1.networks⟩
      | network new => exact ⟨hs.1.pools, hs.1.networks.filter _⟩

theorem noLateClash_of_apart (h : step s a = some t) (ht : Apart t) : NoLateClash s a := by
  cases step_effect h with
  | same _ _ hd =>
      cases a with
      | define i xml => exact absurd rfl (hd i xml)
      | _ => trivial
  | define i xml request existing new hi hl heq =>
      subst heq
      simp only [NoLateClash, hi]
      intro row hrow _
      exact clear_of_apart_define hl ht row hrow
  | remove i new _ => trivial

-- The pools and the networks stay apart in every reachable state exactly if no request
-- defines one that clashes with a row that came after its list.
theorem creates_stay_apart (s t : State) (acts : List Action) (hs : Apart s)
    (hidle : s.creates = []) (hrun : exec step s acts = some t) :
    Along step NoLateClash s acts ↔
      ∀ front back u, acts = front ++ back → exec step s front = some u → Apart u := by
  constructor
  · intro hok front back u hacts hu
    have hchecked : Checked s := by
      intro create hm
      simp [hidle] at hm
    subst hacts
    have hinv := exec_invariant (fun u => Apart u ∧ Checked u)
      (fun s a t hs hok h => step_apart hs hok h) ⟨hs, hchecked⟩ hok.append_left hu
    exact hinv.1
  · intro h
    exact Along.of_states Apart (fun s a t hstep ht => noLateClash_of_apart hstep ht) hrun h

end Runs

section Race

-- Three NAT networks: the subnet of "web" lies in the subnet of "lab".
def webNet : Ipv4Net := ⟨10 * 2 ^ 24 + 20 * 2 ^ 16, 25, by decide, by decide⟩
def dmzNet : Ipv4Net := ⟨10 * 2 ^ 24 + 21 * 2 ^ 16, 24, by decide, by decide⟩

def listedXml (name address : String) (prefixText : String) : String :=
  "<network>\n  <name>" ++ name ++ "</name>\n  <forward mode='nat'/>\n  <ip address='" ++
    address ++ "' prefix='" ++ prefixText ++ "'/>\n</network>\n"

def listedTree (name address : String) (prefixText : String) : Element :=
  (((Element.new "network").push (textElement "name" name)).push
    (elementWith "forward" [("mode", "nat")])).push
    (elementWith "ip" [("address", address), ("prefix", prefixText)])

def labXml : String := listedXml "lab" "10.20.0.1" "24"
def webXml : String := listedXml "web" "10.20.0.1" "25"
def dmzXml : String := listedXml "dmz" "10.21.0.1" "24"

@[reducible] def raceTree : Xmltree where
  parse xml :=
    if xml = labXml then .ok (listedTree "lab" "10.20.0.1" "24")
    else if xml = webXml then .ok (listedTree "web" "10.20.0.1" "25")
    else if xml = dmzXml then .ok (listedTree "dmz" "10.21.0.1" "24")
    else .error "syntax"

@[reducible] def raceIpnet : Ipnet where
  parse text :=
    if text = "10.20.0.0/24" then some labNet
    else if text = "10.20.0.0/25" then some webNet
    else if text = "10.21.0.0/24" then some dmzNet
    else none

def natRequest (name subnet : String) : Request :=
  .network ⟨name, .nat, some subnet, none, true⟩

def idle : State := ⟨[], [], []⟩

-- Both requests list the networks before one of them defines its own.
def race (name subnet xml : String) : List Action :=
  [.arrive (natRequest "lab" "10.20.0.0/24"), .arrive (natRequest name subnet), .list 0, .list 1,
    .check 0 [], .check 1 [], .define 0 labXml, .define 1 xml]

theorem apart_idle : @Apart raceTree idle :=
  @Apart.mk raceTree idle List.Pairwise.nil List.Pairwise.nil

theorem race_networks : (@exec _ _ (@step raceTree raceIpnet) idle
    (race "web" "10.20.0.0/25" webXml)).map State.networks =
      some [("lab", labXml), ("web", webXml)] := by
  decide +kernel

theorem overlapping_networks_defined : ∃ t, @Apart raceTree idle ∧ idle.creates = [] ∧
    @exec _ _ (@step raceTree raceIpnet) idle (race "web" "10.20.0.0/25" webXml) = some t ∧
      ¬@Apart raceTree t := by
  obtain ⟨t, hrun, hnetworks⟩ := Option.map_eq_some_iff.mp race_networks
  refine ⟨t, apart_idle, rfl, hrun, ?_⟩
  intro hapart
  have hlab : labNet ∈ @subnetsOf raceTree labXml := by decide +kernel
  have hweb : webNet ∈ @subnetsOf raceTree webXml := by decide +kernel
  have hnets := @Apart.networks raceTree t hapart
  rw [hnetworks] at hnets
  have hpair := List.rel_of_pairwise_cons hnets (List.mem_singleton_self _)
  exact hpair ⟨labNet, hlab, webNet, hweb, 10 * 2 ^ 24 + 20 * 2 ^ 16, by decide +kernel⟩

theorem creates_stay_apart_dmz : ∃ t,
    @exec _ _ (@step raceTree raceIpnet) idle (race "dmz" "10.21.0.0/24" dmzXml) = some t ∧
      t.networks = [("lab", labXml), ("dmz", dmzXml)] ∧ @Apart raceTree t := by
  obtain ⟨t, hrun, hnetworks⟩ := Option.map_eq_some_iff.mp (show
    (@exec _ _ (@step raceTree raceIpnet) idle (race "dmz" "10.21.0.0/24" dmzXml)).map
      State.networks = some [("lab", labXml), ("dmz", dmzXml)] by decide +kernel)
  have hok : @Along _ _ (@step raceTree raceIpnet) (@NoLateClash raceTree) idle
      (race "dmz" "10.21.0.0/24" dmzXml) := by decide +kernel
  have hall := (@creates_stay_apart raceTree raceIpnet idle t
    (race "dmz" "10.21.0.0/24" dmzXml) apart_idle rfl hrun).mp hok
  exact ⟨t, hrun, hnetworks, hall _ [] t (List.append_nil _).symm hrun⟩

end Race

end Lodger.Creates
