import Lodger.Lib.Except
import Lodger.Lib.Split
import Lodger.Validate

namespace Lodger.Validate

open Lodger.Lib

section Texts

variable {field value : String}

theorem checkText_eq_ok {text : String} (h : checkText field value = .ok text) : text = value := by
  simp only [checkText] at h
  split at h
  · cases h
  · cases h
    rfl

theorem Name.parse_asStr {name : Name} (h : Name.parse field value = .ok name) :
    name.asStr = value := by
  obtain ⟨text, ht, h⟩ := except_bind_eq_ok.mp h
  have hv := checkText_eq_ok ht
  split at h
  · cases h
  · split at h
    · split at h
      · cases h
      · split at h
        · cases h
        · cases h
          exact hv
    · cases h

theorem parseInterface_name {bridge : Interface} (h : parseInterface field value = .ok bridge) :
    bridge.name = value := by
  obtain ⟨text, ht, h⟩ := except_bind_eq_ok.mp h
  have hv := checkText_eq_ok ht
  split at h
  · cases h
    exact hv
  · cases h

theorem parseHost_name {host : Host} (h : parseHost field value = .ok host) :
    host.name = value := by
  obtain ⟨text, ht, h⟩ := except_bind_eq_ok.mp h
  have hv := checkText_eq_ok ht
  split at h
  · cases h
  · split at h
    · cases h
    · split at h
      · split at h
        · cases h
        · cases h
          exact hv
      · cases h

end Texts

section Paths

-- What `parsePath` accepts.
structure Accepted (value : String) : Prop where
  absolute : value.toList.head? = some '/'
  short : len value ≤ PATH_MAX_LEN
  noDots : ∀ part ∈ segments value, dotSegment part = false
  chars : ∀ c ∈ value.toList, pathChar c

theorem nul_not_pathChar : pathChar '\x00' = false := by decide

theorem parsePath_eq_ok_iff (field value path : String) :
    parsePath field value = .ok path ↔ Accepted value ∧ path = joined (segments value) := by
  constructor
  · intro h
    obtain ⟨text, ht, hrest⟩ := except_bind_eq_ok.mp h
    obtain rfl := checkText_eq_ok ht
    split at hrest
    · cases hrest
    · split at hrest
      · cases hrest
      · next habs =>
        split at hrest
        · cases hrest
        · next hlen =>
          split at hrest
          · cases hrest
          · next hdots =>
            split at hrest
            · cases hrest
            · next hchars =>
              cases hrest
              refine ⟨⟨not_not.mp habs, not_lt.mp hlen, ?_, ?_⟩, rfl⟩
              · simpa using hdots
              · simpa using hchars
  · rintro ⟨ha, rfl⟩
    have hnul : '\x00' ∉ value.toList := by
      intro hm
      have hc := ha.chars _ hm
      simp [nul_not_pathChar] at hc
    have hne : value.toList ≠ [] := by
      intro he
      have hh := ha.absolute
      simp [he] at hh
    have hlen : ¬PATH_MAX_LEN < len value := not_lt.mpr ha.short
    have hdots : (segments value).any dotSegment = false := by
      simpa using ha.noDots
    have hchars : value.toList.any (!pathChar ·) = false := by
      simpa using ha.chars
    simp [parsePath, checkText, bind, Except.bind, hnul, hne, ha.absolute, hlen, hdots, hchars]

theorem segments_joined (parts : List (List Char)) (hsep : ∀ part ∈ parts, '/' ∉ part)
    (hne : ∀ part ∈ parts, part ≠ []) : segments (joined parts) = parts := by
  simp only [segments, joined, String.toList_ofList]
  exact Split.filter_splitOn_cons_intercalate parts hsep hne

theorem segments_joined_segments (value : String) :
    segments (joined (segments value)) = segments value := by
  apply segments_joined
  · intro part hp hc
    exact (Split.mem_of_mem_splitOn _ part (List.mem_of_mem_filter hp) '/' hc).2 rfl
  · intro part hp
    have hf := List.of_mem_filter hp
    simpa using hf

theorem pathChar_joined {value : String} (h : ∀ c ∈ value.toList, pathChar c) :
    ∀ c ∈ (joined (segments value)).toList, pathChar c := by
  intro c hc
  simp only [joined, String.toList_ofList, List.mem_cons] at hc
  have hslash : pathChar '/' = true := by decide
  obtain rfl | hc := hc
  · exact hslash
  · obtain rfl | ⟨part, hp, hm⟩ := Split.mem_intercalate _ c hc
    · exact hslash
    · have hv := Split.mem_of_mem_splitOn _ part (List.mem_of_mem_filter hp) c hm
      exact h c hv.1

-- The plain form of an accepted path is accepted.
theorem Accepted.joined {value : String} (h : Accepted value) :
    Accepted (joined (segments value)) where
  absolute := by simp [Validate.joined]
  short := by
    have hw := Split.weight_filter_splitOn_le Char.utf8Size (by decide) value.toList h.absolute
    have hs := h.short
    simp only [len, Validate.joined, segments, String.toList_ofList] at hs hw ⊢
    omega
  noDots := by
    rw [segments_joined_segments]
    exact h.noDots
  chars := pathChar_joined h.chars

theorem parsePath_idem {field value path : String} (h : parsePath field value = .ok path)
    (other : String) : parsePath other path = .ok path := by
  obtain ⟨ha, rfl⟩ := (parsePath_eq_ok_iff field value path).mp h
  refine (parsePath_eq_ok_iff other _ _).mpr ⟨ha.joined, ?_⟩
  rw [segments_joined_segments]

theorem parsePath_chars {field value path : String} (h : parsePath field value = .ok path) :
    path.toList ≠ [] ∧ ∀ c ∈ path.toList, pathChar c := by
  obtain ⟨ha, rfl⟩ := (parsePath_eq_ok_iff field value path).mp h
  exact ⟨by simp [joined], ha.joined.chars⟩

end Paths

section Addresses

theorem isDigit_toDigits (n : Nat) : (Nat.toDigits 10 n).all Char.isDigit = true := by
  rw [List.all_eq_true]
  intro c hc
  exact Nat.isDigit_of_mem_toDigits (by decide) (by decide) hc

theorem toDigits_short : ∀ n < 256, (Nat.toDigits 10 n).length ≤ 3 ∧
    ((Nat.toDigits 10 n).head? = some '0' → (Nat.toDigits 10 n).length = 1) := by
  decide +kernel

theorem parseOctet_toDigits {n : Nat} (h : n < 256) : parseOctet (Nat.toDigits 10 n) = some n := by
  have hs := toDigits_short n h
  have hv : Nat.ofDigitChars 10 (Nat.toDigits 10 n) 0 = n := Nat.ofDigitChars_ten_toDigits
  simp only [parseOctet, hv]
  rw [if_pos ⟨Nat.toDigits_ne_nil, hs.1, isDigit_toDigits n, hs.2, h⟩]

theorem not_mem_toDigits {c : Char} (hc : c.isDigit = false) (n : Nat) :
    c ∉ Nat.toDigits 10 n := by
  intro hm
  have hd := List.all_eq_true.mp (isDigit_toDigits n) c hm
  simp [hc] at hd

theorem unsigned_toDigits (n : Nat) : unsigned (Nat.toDigits 10 n) = Nat.toDigits 10 n := by
  have hp : '+' ∉ Nat.toDigits 10 n := not_mem_toDigits (by decide) n
  generalize Nat.toDigits 10 n = digits at hp
  unfold unsigned
  split
  · simp at hp
  · rfl

theorem parseU8_toDigits {n : Nat} (h : n < 256) :
    parseU8 (String.ofList (Nat.toDigits 10 n)) = some n := by
  have hv : Nat.ofDigitChars 10 (Nat.toDigits 10 n) 0 = n := Nat.ofDigitChars_ten_toDigits
  simp only [parseU8, String.toList_ofList, unsigned_toDigits, hv]
  rw [if_pos ⟨Nat.toDigits_ne_nil, isDigit_toDigits n, h⟩]

theorem parseAddr_addrText {addr : Nat} (h : addr < 2 ^ 32) :
    parseAddr (addrText addr) = some addr := by
  have hparts : ((addrText addr).toList.splitOn '.') = (octets addr).map (Nat.toDigits 10) := by
    simp only [addrText, String.toList_ofList]
    apply List.splitOn_intercalate
    · intro part hp
      obtain ⟨n, -, rfl⟩ := List.mem_map.mp hp
      exact not_mem_toDigits (by decide) n
    · simp [octets]
  simp only [parseAddr, hparts, octets, List.map_cons, List.map_nil]
  rw [parseOctet_toDigits (Nat.mod_lt _ (by decide)), parseOctet_toDigits (Nat.mod_lt _ (by decide)),
    parseOctet_toDigits (Nat.mod_lt _ (by decide)), parseOctet_toDigits (Nat.mod_lt _ (by decide))]
  simp only [Option.some.injEq]
  omega

-- The text of an address has only digits and points.
theorem addrText_chars (addr : Nat) :
    ∀ c ∈ (addrText addr).toList, c.isDigit = true ∨ c = '.' := by
  intro c hc
  simp only [addrText, String.toList_ofList] at hc
  obtain rfl | ⟨part, hp, hm⟩ := Split.mem_intercalate _ c hc
  · exact Or.inr rfl
  · obtain ⟨n, -, rfl⟩ := List.mem_map.mp hp
    exact Or.inl (List.all_eq_true.mp (isDigit_toDigits n) c hm)

end Addresses

section Subnets

variable [Ipnet] {field value : String} {net : Ipv4Net}

structure Subnet (net : Ipv4Net) : Prop where
  isPrivate : PRIVATE_RANGES.any (·.contains net) = true
  prefixLen_le : net.prefixLen ≤ SUBNET_MAX_PREFIX
  plain : net.addr = net.network

theorem parseSubnet_spec (h : parseSubnet field value = .ok net) :
    net.text = value ∧ Subnet net := by
  obtain ⟨text, ht, hrest⟩ := except_bind_eq_ok.mp h
  obtain rfl := checkText_eq_ok ht
  split at hrest
  · cases hrest
  · next parsed hp =>
    split at hrest
    · cases hrest
    · next htext =>
      split at hrest
      · cases hrest
      · next hprivate =>
        split at hrest
        · cases hrest
        · next hprefix =>
          split at hrest
          · cases hrest
          · next hbits =>
            cases hrest
            refine ⟨not_not.mp htext, ?_, not_lt.mp hprefix, not_not.mp hbits⟩
            simpa using hprivate

end Subnets

section Networks

variable (net : Ipv4Net)

theorem Ipv4Net.size_pos : 0 < net.size := Nat.two_pow_pos _

theorem Ipv4Net.four_le_size (h : net.prefixLen ≤ SUBNET_MAX_PREFIX) : 4 ≤ net.size := by
  simp only [SUBNET_MAX_PREFIX] at h
  have hpow : 2 ^ 2 ≤ 2 ^ (32 - net.prefixLen) := Nat.pow_le_pow_right (by decide) (by omega)
  exact hpow

theorem Ipv4Net.size_dvd_network : net.size ∣ net.network := Nat.dvd_sub_mod net.addr

theorem Ipv4Net.network_of_dvd {net : Ipv4Net} (h : net.size ∣ net.addr) :
    net.network = net.addr := by
  simp [Ipv4Net.network, Nat.mod_eq_zero_of_dvd h]

theorem Ipv4Net.broadcast_lt : net.broadcast < 2 ^ 32 := by
  obtain ⟨k, hk⟩ := net.size_dvd_network
  have hp := net.prefixLen_le
  have hsize : 2 ^ 32 = net.size * 2 ^ net.prefixLen := by
    rw [Ipv4Net.size, ← Nat.pow_add]
    congr 1
    omega
  have hlt : net.network < 2 ^ 32 := lt_of_le_of_lt (Nat.sub_le _ _) net.addr_lt
  have hk' : k < 2 ^ net.prefixLen := by
    rw [hk, hsize] at hlt
    exact Nat.lt_of_mul_lt_mul_left hlt
  have hle : net.size * (k + 1) ≤ net.size * 2 ^ net.prefixLen := Nat.mul_le_mul_left _ hk'
  have hpos := net.size_pos
  rw [Nat.mul_add, Nat.mul_one] at hle
  rw [Ipv4Net.broadcast, hk, hsize]
  omega

-- An address inside the network truncates back to it.
theorem Ipv4Net.network_add {offset : Nat} (h : offset < net.size) :
    net.network + offset - (net.network + offset) % net.size = net.network := by
  obtain ⟨k, hk⟩ := net.size_dvd_network
  rw [hk, Nat.mul_add_mod, Nat.mod_eq_of_lt h]
  omega

variable (other : Ipv4Net)

theorem Ipv4Net.network_le_broadcast : net.network ≤ net.broadcast := Nat.le_add_right _ _

-- Two subnets overlap exactly if they have an address in common.
theorem overlaps_iff : overlaps net other = true ↔
    ∃ addr, net.containsAddr addr = true ∧ other.containsAddr addr = true := by
  have hnet := net.network_le_broadcast
  have hother := other.network_le_broadcast
  simp only [overlaps, Ipv4Net.containsAddr, Bool.or_eq_true, Bool.and_eq_true, decide_eq_true_eq]
  constructor
  · rintro (h | h)
    · exact ⟨other.network, h, by omega⟩
    · exact ⟨net.network, by omega, h⟩
  · rintro ⟨addr, h⟩
    omega

theorem checkNoOverlap_eq_ok_iff {field : String} {existing : List (String × Ipv4Net)} :
    checkNoOverlap field net existing = .ok () ↔
      ∀ row ∈ existing, overlaps net row.2 = false := by
  unfold checkNoOverlap
  cases hfind : existing.find? (overlaps net ·.2) with
  | none => simpa using List.find?_eq_none.mp hfind
  | some row =>
      have hrow := List.find?_some hfind
      have hmem := List.mem_of_find?_eq_some hfind
      constructor
      · intro h
        cases h
      · intro hall
        rw [hall row hmem] at hrow
        cases hrow

end Networks

theorem parseU32_no_dot {s : String} {n : Nat} (h : parseU32 s = some n) : '.' ∉ s.toList := by
  simp only [parseU32, Option.ite_none_right_eq_some] at h
  have hall := List.all_eq_true.mp h.1.2.1
  intro hdot
  have hmem : '.' ∈ unsigned s.toList := by
    unfold unsigned
    split
    · next digits heq =>
        rw [heq, List.mem_cons] at hdot
        exact hdot.resolve_left (by decide)
    · exact hdot
  exact absurd (hall '.' hmem) (by decide)

end Lodger.Validate
