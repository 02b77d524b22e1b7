import Lodger.Xml.Theorems

namespace Lodger.Xml

open Validate

-- Some IPv4 address lies in both subnets.
def Share (net other : Ipv4Net) : Prop :=
  ∃ addr < 2 ^ 32, net.containsAddr addr = true ∧ other.containsAddr addr = true

section Check

variable {subnet : Ipv4Net}

theorem share_iff (net other : Ipv4Net) : Share net other ↔ overlaps net other = true := by
  rw [overlaps_iff]
  constructor
  · rintro ⟨addr, -, h⟩
    exact ⟨addr, h⟩
  · rintro ⟨addr, h⟩
    have hlt := net.broadcast_lt
    have hle := h.1
    simp only [Ipv4Net.containsAddr, Bool.and_eq_true, decide_eq_true_eq] at hle
    exact ⟨addr, by omega, h⟩

theorem Share.symm {net other : Ipv4Net} (h : Share net other) : Share other net := by
  obtain ⟨addr, hlt, hnet, hother⟩ := h
  exact ⟨addr, hlt, hother, hnet⟩

-- The documents of the list, one row for each subnet.
def rows (existing : List (String × NetworkXml)) : List (String × Ipv4Net) :=
  existing.flatMap fun (name, xml) => xml.subnets.map fun net => (name, net)

theorem checkNoOverlap_ok_iff {field : String} {nets : List (String × Ipv4Net)} :
    checkNoOverlap field subnet nets = .ok () ↔ ∀ row ∈ nets, ¬Share subnet row.2 := by
  simp only [checkNoOverlap_eq_ok_iff, share_iff, Bool.not_eq_true]

-- The first network of the list with a common address, and its first such subnet.
theorem find_rows {existing : List (String × NetworkXml)} {found : String × Ipv4Net}
    (h : (rows existing).find? (overlaps subnet ·.2) = some found) :
    ∃ before row after, existing = before ++ row :: after ∧
      (∀ earlier ∈ before, ∀ net ∈ earlier.2.subnets, ¬Share subnet net) ∧
      ∃ nets rest, row.2.subnets = nets ++ found.2 :: rest ∧ (∀ net ∈ nets, ¬Share subnet net) ∧
        Share subnet found.2 ∧ found.1 = row.1 := by
  induction existing with
  | nil => cases h
  | cons row existing ih =>
      have hrows : rows (row :: existing) =
          row.2.subnets.map (fun net => (row.1, net)) ++ rows existing :=
        List.flatMap_cons
      rw [hrows, List.find?_append] at h
      cases hfirst : (row.2.subnets.map fun net => (row.1, net)).find? (overlaps subnet ·.2) with
      | some first =>
          rw [hfirst, Option.some_or, Option.some.injEq] at h
          subst h
          rw [List.find?_map, Option.map_eq_some_iff] at hfirst
          obtain ⟨net, hnet, rfl⟩ := hfirst
          obtain ⟨hshare, nets, rest, hsplit, hearlier⟩ := List.find?_eq_some_iff_append.mp hnet
          refine ⟨[], row, existing, rfl, by simp, nets, rest, hsplit, ?_,
            (share_iff _ _).mpr hshare, rfl⟩
          intro other hother hshared
          have hno := hearlier other hother
          simp only [Function.comp_apply, (share_iff _ _).mp hshared, Bool.not_true] at hno
          cases hno
      | none =>
          rw [hfirst, Option.none_or] at h
          obtain ⟨before, found', after, rfl, hbefore, hrest⟩ := ih h
          refine ⟨row :: before, found', after, rfl, ?_, hrest⟩
          intro earlier hearlier net hnet hshared
          obtain rfl | hearlier := List.mem_cons.mp hearlier
          · have hno := List.find?_eq_none.mp hfirst (earlier.1, net) (List.mem_map_of_mem hnet)
            exact hno ((share_iff _ _).mp hshared)
          · exact hbefore earlier hearlier net hnet hshared

end Check

section Accepted

variable [Ipnet] {name : Name} {text : String} {network : NewNetwork}

-- A network that `nat` or `isolated` accepts.
def Built (name : Name) (text : String) (network : NewNetwork) : Prop :=
  NewNetwork.nat name text = .ok network ∨ NewNetwork.isolated name text = .ok network

theorem Built.spec (h : Built name text network) : ∃ subnet, network.subnet = some subnet ∧
    subnet.text = text ∧ (NetworkXml.mk network.element).subnets = [subnet] := by
  obtain h | h := h
  · obtain ⟨subnet, htext, hsubnet, rfl⟩ := NewNetwork.nat_spec h
    refine ⟨subnet, rfl, htext, ?_⟩
    simp [NetworkXml.subnets, NewNetwork.element, name_ip, subnetOf_ip hsubnet]
  · obtain ⟨subnet, htext, hsubnet, rfl⟩ := NewNetwork.isolated_spec h
    refine ⟨subnet, rfl, htext, ?_⟩
    simp [NetworkXml.subnets, NewNetwork.element, name_ip, subnetOf_ip hsubnet]

omit [Ipnet] in
theorem checkAgainst_eq {subnet : Ipv4Net} (h : network.subnet = some subnet)
    (existing : List (String × NetworkXml)) :
    network.checkAgainst existing = checkNoOverlap "Subnet" subnet (rows existing) := by
  simp only [NewNetwork.checkAgainst, h]
  rfl

variable [Xmltree] [Emitter]

-- The overlap check is exact, names the first network with a common address, and is
-- symmetric for networks that Lodger builds.
theorem overlap_check_exact (name : Name) (text : String) (network : NewNetwork)
    (h : Built name text network) :
    ∃ subnet, network.subnet = some subnet ∧ subnet.text = text ∧
      (∀ existing, network.checkAgainst existing = .ok () ↔
        ∀ row ∈ existing, ∀ net ∈ row.2.subnets, ¬Share subnet net) ∧
      (∀ existing e, network.checkAgainst existing = .error e →
        ∃ before row after, existing = before ++ row :: after ∧
          (∀ earlier ∈ before, ∀ net ∈ earlier.2.subnets, ¬Share subnet net) ∧
          ∃ nets net rest, row.2.subnets = nets ++ net :: rest ∧
            (∀ net ∈ nets, ¬Share subnet net) ∧ Share subnet net ∧
            e = .subnetOverlap "Subnet" row.1 net) ∧
      ∀ name' text' other, Built name' text' other → Emitted network.element →
        Emitted other.element → ∃ doc doc', NetworkXml.parse network.toXml = .ok doc ∧
          NetworkXml.parse other.toXml = .ok doc' ∧ ∀ label label',
            (network.checkAgainst [(label', doc')] = .ok () ↔
              other.checkAgainst [(label, doc)] = .ok ()) := by
  obtain ⟨subnet, hsubnet, htext, hown⟩ := h.spec
  refine ⟨subnet, hsubnet, htext, ?_, ?_, ?_⟩
  · intro existing
    rw [checkAgainst_eq hsubnet, checkNoOverlap_ok_iff]
    constructor
    · intro hrows row hrow net hnet
      have hmem : (row.1, net) ∈ rows existing :=
        List.mem_flatMap.mpr ⟨row, hrow, List.mem_map_of_mem hnet⟩
      exact hrows _ hmem
    · intro hnone row hrow
      obtain ⟨named, hnamed, hmem⟩ := List.mem_flatMap.mp hrow
      obtain ⟨net, hnet, rfl⟩ := List.mem_map.mp hmem
      exact hnone named hnamed net hnet
  · intro existing e he
    rw [checkAgainst_eq hsubnet, checkNoOverlap] at he
    cases hfind : (rows existing).find? (overlaps subnet ·.2) with
    | none =>
        rw [hfind] at he
        cases he
    | some found =>
        rw [hfind] at he
        cases he
        obtain ⟨before, row, after, hsplit, hbefore, nets, rest, hnets, hfirst, hshare, hname⟩ :=
          find_rows hfind
        refine ⟨before, row, after, hsplit, hbefore, nets, found.2, rest, hnets, hfirst, hshare, ?_⟩
        rw [hname]
  · intro name' text' other hother hemit hemit'
    obtain ⟨subnet', hsubnet', -, hown'⟩ := hother.spec
    refine ⟨_, _, NetworkXml.parse_toXml hemit, NetworkXml.parse_toXml hemit', ?_⟩
    intro label label'
    rw [checkAgainst_eq hsubnet, checkAgainst_eq hsubnet', checkNoOverlap_ok_iff, checkNoOverlap_ok_iff]
    simp only [rows, List.flatMap_cons, List.flatMap_nil, List.append_nil, hown, hown', List.map_cons,
      List.map_nil, List.mem_singleton, forall_eq]
    exact not_congr ⟨Share.symm, Share.symm⟩

end Accepted

section Runs

theorem labNet_addr_lt : 10 * 2 ^ 24 + 20 * 2 ^ 16 < 2 ^ 32 := by decide

theorem labNet_prefixLen_le : 24 ≤ 32 := by decide

def labNet : Ipv4Net := ⟨10 * 2 ^ 24 + 20 * 2 ^ 16, 24, labNet_addr_lt, labNet_prefixLen_le⟩

local instance labIpnet : Ipnet := ⟨fun text => if text = "10.20.0.0/24" then some labNet else none⟩

attribute [local instance] hostileTree hostileEmitter

def labName : Name := ⟨"lab", by decide, List.all_eq_true.mp (by decide), by decide⟩

-- An address with host bits and a netmask.
def webDoc : NetworkXml := ⟨.mk "network" [] [.element
  (.mk "ip" [("address", "10.20.0.77"), ("netmask", "255.255.255.128")] [])]⟩

theorem overlap_check_exact_lab : Built labName "10.20.0.0/24" ⟨labName, .nat labNet⟩ ∧
    NewNetwork.checkAgainst ⟨labName, .nat labNet⟩ [("web", webDoc)] ≠ .ok () := by
  have hbuilt : Built labName "10.20.0.0/24" ⟨labName, .nat labNet⟩ := Or.inl (by decide +kernel)
  obtain ⟨subnet, hsubnet, -, hexact, -⟩ := overlap_check_exact labName _ _ hbuilt
  obtain rfl : labNet = subnet := Option.some.inj hsubnet
  refine ⟨hbuilt, ?_⟩
  rw [ne_eq, hexact]
  intro hnone
  have hnet : (⟨10 * 2 ^ 24 + 20 * 2 ^ 16, 25, by decide, by decide⟩ : Ipv4Net) ∈ webDoc.subnets := by
    decide +kernel
  refine hnone _ (List.mem_singleton_self _) _ hnet ?_
  exact ⟨10 * 2 ^ 24 + 20 * 2 ^ 16 + 1, by decide, by decide +kernel, by decide +kernel⟩

end Runs

end Lodger.Xml
