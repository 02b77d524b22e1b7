import Lodger.Validate.Lemmas

namespace Lodger.Validate

-- The block lies inside 10.0.0.0/8, 172.16.0.0/12 or 192.168.0.0/16.
def PrivateBlock (net : Ipv4Net) : Prop :=
  (10 * 2 ^ 24 ≤ net.network ∧ net.broadcast < 11 * 2 ^ 24) ∨
  (172 * 2 ^ 24 + 16 * 2 ^ 16 ≤ net.network ∧ net.broadcast < 172 * 2 ^ 24 + 32 * 2 ^ 16) ∨
  (192 * 2 ^ 24 + 168 * 2 ^ 16 ≤ net.network ∧ net.broadcast < 192 * 2 ^ 24 + 169 * 2 ^ 16)

section Blocks

variable (net : Ipv4Net)

theorem isPrivate_iff : PRIVATE_RANGES.any (·.contains net) = true ↔ PrivateBlock net := by
  have hten : Ipv4Net.network ⟨10 * 2 ^ 24, 8, by decide, by decide⟩ = 10 * 2 ^ 24 ∧
      Ipv4Net.broadcast ⟨10 * 2 ^ 24, 8, by decide, by decide⟩ = 11 * 2 ^ 24 - 1 := by decide
  have htwelve : Ipv4Net.network ⟨172 * 2 ^ 24 + 16 * 2 ^ 16, 12, by decide, by decide⟩ =
        172 * 2 ^ 24 + 16 * 2 ^ 16 ∧
      Ipv4Net.broadcast ⟨172 * 2 ^ 24 + 16 * 2 ^ 16, 12, by decide, by decide⟩ =
        172 * 2 ^ 24 + 32 * 2 ^ 16 - 1 := by decide
  have hsixteen : Ipv4Net.network ⟨192 * 2 ^ 24 + 168 * 2 ^ 16, 16, by decide, by decide⟩ =
        192 * 2 ^ 24 + 168 * 2 ^ 16 ∧
      Ipv4Net.broadcast ⟨192 * 2 ^ 24 + 168 * 2 ^ 16, 16, by decide, by decide⟩ =
        192 * 2 ^ 24 + 169 * 2 ^ 16 - 1 := by decide
  simp only [PRIVATE_RANGES, List.any_cons, List.any_nil, Bool.or_false, Bool.or_eq_true,
    Ipv4Net.contains, Bool.and_eq_true, decide_eq_true_eq, hten, htwelve, hsixteen, PrivateBlock]
  omega

theorem Ipv4Net.network_trunc : net.trunc.network = net.network := by
  have hdvd : net.trunc.size ∣ net.trunc.addr := net.size_dvd_network
  exact Ipv4Net.network_of_dvd hdvd

theorem Ipv4Net.broadcast_trunc : net.trunc.broadcast = net.broadcast := by
  have hsize : net.trunc.size = net.size := rfl
  rw [Ipv4Net.broadcast, Ipv4Net.broadcast, net.network_trunc, hsize]

-- An address with no host bits is the first one of its block.
theorem Ipv4Net.addr_eq_network_iff : net.addr = net.network ↔ net.addr % net.size = 0 := by
  have hle := Nat.mod_le net.addr net.size
  rw [Ipv4Net.network]
  omega

theorem PrivateBlock.trunc {net : Ipv4Net} (h : PrivateBlock net) : PrivateBlock net.trunc := by
  unfold PrivateBlock at h ⊢
  rw [net.network_trunc, net.broadcast_trunc]
  exact h

theorem text_no_nul : '\x00' ∉ net.text.toList := by
  intro hm
  simp only [Ipv4Net.text, String.toList_append, String.toList_ofList, List.mem_append] at hm
  rcases hm with (hm | hm) | hm
  · rcases addrText_chars net.addr _ hm with hdigit | hpoint
    · revert hdigit
      decide
    · revert hpoint
      decide
  · revert hm
    decide
  · exact not_mem_toDigits (by decide) net.prefixLen hm

end Blocks

section Subnets

variable [Ipnet] {field value : String} {net : Ipv4Net}

-- The checks that come before the one for host bits.
theorem parseSubnet_text (hparse : Ipnet.parse net.text = some net) (hprivate : PrivateBlock net)
    (hlength : net.prefixLen ≤ SUBNET_MAX_PREFIX) : parseSubnet field net.text =
      if net.addr ≠ net.network then .error (.subnetHostBits field net.trunc) else .ok net := by
  have hranges := (isPrivate_iff net).mpr hprivate
  have hnul := text_no_nul net
  have hlen : ¬SUBNET_MAX_PREFIX < net.prefixLen := not_lt.mpr hlength
  simp only [parseSubnet, checkText, if_neg hnul, bind, Except.bind, hparse, ne_eq, not_true_eq_false,
    if_false, hranges, Bool.not_true, Bool.false_eq_true, if_neg hlen]

theorem parseSubnet_hostBits {other : String}
    (h : parseSubnet field value = .error (.subnetHostBits other net)) :
    ∃ written : Ipv4Net, net = written.trunc ∧ PrivateBlock written ∧
      written.prefixLen ≤ SUBNET_MAX_PREFIX := by
  unfold parseSubnet at h
  by_cases hnul : '\x00' ∈ value.toList
  · rw [checkText, if_pos hnul] at h
    cases h
  · rw [checkText, if_neg hnul] at h
    simp only [bind, Except.bind] at h
    cases hp : Ipnet.parse value with
    | none =>
        rw [hp] at h
        cases h
    | some written =>
        rw [hp] at h
        simp only at h
        split at h
        · cases h
        · split at h
          · cases h
          · next hprivate =>
            split at h
            · cases h
            · next hlength =>
              split at h
              · cases h
                refine ⟨written, rfl, (isPrivate_iff written).mp ?_, not_lt.mp hlength⟩
                simpa using hprivate
              · cases h

-- `parseSubnet` accepts the canonical text of a private block with room for a VM, and its
-- suggestion is such a text.
theorem parseSubnet_exact (hipnet : ∀ net : Ipv4Net, Ipnet.parse net.text = some net) (field : String) :
    (∀ value net, parseSubnet field value = .ok net ↔ value = net.text ∧ net.prefixLen ≤ 30 ∧
      PrivateBlock net ∧ net.addr % net.size = 0) ∧
    (∀ value other suggested,
      parseSubnet field value = .error (.subnetHostBits other suggested) →
        parseSubnet field suggested.text = .ok suggested) ∧
    ∀ value net, parseSubnet field value = .ok net → parseSubnet field net.text = .ok net := by
  have hiff : ∀ value net, parseSubnet field value = .ok net ↔ value = net.text ∧
      net.prefixLen ≤ 30 ∧ PrivateBlock net ∧ net.addr % net.size = 0 := by
    intro value net
    rw [← net.addr_eq_network_iff]
    constructor
    · intro h
      obtain ⟨htext, hsubnet⟩ := parseSubnet_spec h
      exact ⟨htext.symm, hsubnet.prefixLen_le, (isPrivate_iff net).mp hsubnet.isPrivate,
        hsubnet.plain⟩
    · rintro ⟨rfl, hlength, hprivate, hplain⟩
      rw [parseSubnet_text (hipnet net) hprivate hlength, if_neg (not_not.mpr hplain)]
  refine ⟨hiff, ?_, ?_⟩
  · intro value other suggested h
    obtain ⟨written, rfl, hprivate, hlength⟩ := parseSubnet_hostBits h
    refine (hiff _ _).mpr ⟨rfl, hlength, hprivate.trunc, ?_⟩
    exact Nat.mod_eq_zero_of_dvd written.size_dvd_network
  · intro value net h
    exact (hiff _ _).mpr ⟨rfl, ((hiff _ _).mp h).2⟩

end Subnets

section Texts

-- A crate that reads the canonical texts.
local instance canonicalIpnet : Ipnet where
  parse text :=
    match text.toList.splitOn '/' with
    | [address, digits] => do
        let addr ← parseAddr (String.ofList address)
        let prefixLen ← parseU8 (String.ofList digits)
        Ipv4Net.new addr prefixLen
    | _ => none

theorem canonicalIpnet_text (net : Ipv4Net) : Ipnet.parse net.text = some net := by
  have haddr : '/' ∉ (addrText net.addr).toList := by
    intro hm
    rcases addrText_chars net.addr _ hm with hdigit | hpoint
    · revert hdigit
      decide
    · revert hpoint
      decide
  have hdigits : '/' ∉ Nat.toDigits 10 net.prefixLen := not_mem_toDigits (by decide) _
  have hsplit : net.text.toList.splitOn '/' =
      [(addrText net.addr).toList, Nat.toDigits 10 net.prefixLen] := by
    have hslash : "/".toList = ['/'] := by decide
    simp only [Ipv4Net.text, String.toList_append, String.toList_ofList, hslash, List.append_assoc,
      List.singleton_append]
    rw [List.splitOn_append_cons_self_of_not_mem haddr, List.splitOn_eq_singleton hdigits]
  have hle := net.prefixLen_le
  simp only [Ipnet.parse, hsplit, String.ofList_toList, parseAddr_addrText net.addr_lt,
    parseU8_toDigits (show net.prefixLen < 256 by omega), Option.bind_eq_bind, Option.bind_some]
  exact dif_pos ⟨net.addr_lt, hle⟩

theorem parseSubnet_exact_suggestion :
    parseSubnet "Subnet" "192.168.150.7/24" =
      .error (.subnetHostBits "Subnet" ⟨192 * 2 ^ 24 + 168 * 2 ^ 16 + 150 * 2 ^ 8, 24,
        by decide, by decide⟩) ∧
    parseSubnet "Subnet" "192.168.150.0/24" =
      .ok ⟨192 * 2 ^ 24 + 168 * 2 ^ 16 + 150 * 2 ^ 8, 24, by decide, by decide⟩ := by
  have herror : parseSubnet "Subnet" "192.168.150.7/24" =
      .error (.subnetHostBits "Subnet" ⟨192 * 2 ^ 24 + 168 * 2 ^ 16 + 150 * 2 ^ 8, 24,
        by decide, by decide⟩) := by decide +kernel
  have hok := (parseSubnet_exact canonicalIpnet_text "Subnet").2.1 _ _ _ herror
  have htext : Ipv4Net.text ⟨192 * 2 ^ 24 + 168 * 2 ^ 16 + 150 * 2 ^ 8, 24, by decide,
      by decide⟩ = "192.168.150.0/24" := by decide +kernel
  rw [htext] at hok
  exact ⟨herror, hok⟩

end Texts

end Lodger.Validate
