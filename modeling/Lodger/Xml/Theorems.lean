import Lodger.Validate.Lemmas
import Lodger.Xml.Folders
import Lodger.Xml.Pool
import Lodger.Xml.Network
import Lodger.Xml.Volume

namespace Lodger.Xml

open Lib Validate

section Characters

theorem isDigit_toNat {c : Char} (h : c.isDigit = true) : 0x30 ≤ c.toNat ∧ c.toNat ≤ 0x39 := by
  simp only [Char.isDigit, Bool.and_eq_true, decide_eq_true_eq, ge_iff_le,
    UInt32.le_iff_toNat_le] at h
  exact h

theorem isAlphanum_toNat {c : Char} (h : c.isAlphanum = true) :
    0x30 ≤ c.toNat ∧ c.toNat ≤ 0x7a := by
  simp only [Char.isAlphanum, Char.isAlpha, Char.isUpper, Char.isLower, Bool.or_eq_true,
    Bool.and_eq_true, decide_eq_true_eq, ge_iff_le, UInt32.le_iff_toNat_le] at h
  have hA : 'A'.val.toNat = 0x41 := rfl
  have hZ : 'Z'.val.toNat = 0x5a := rfl
  have ha : 'a'.val.toNat = 0x61 := rfl
  have hz : 'z'.val.toNat = 0x7a := rfl
  have hc : c.val.toNat = c.toNat := rfl
  rcases h with (h | h) | h
  · omega
  · omega
  · have hd := isDigit_toNat h
    omega

theorem xmlChar_of_ascii {c : Char} (h : 0x20 ≤ c.toNat ∧ c.toNat < 0x80) : xmlChar c = true := by
  simp only [xmlChar, Bool.and_eq_true, decide_eq_true_eq]
  omega

theorem nameChar_xmlChar {c : Char} (h : nameChar c = true) : xmlChar c = true := by
  simp only [nameChar, Bool.or_eq_true, decide_eq_true_eq] at h
  rcases h with ((h | rfl) | rfl) | rfl
  · have hn := isAlphanum_toNat h
    exact xmlChar_of_ascii (by omega)
  all_goals decide

theorem hostChar_xmlChar {c : Char} (h : hostChar c = true) : xmlChar c = true := by
  simp only [hostChar, Bool.or_eq_true, decide_eq_true_eq] at h
  rcases h with ((h | rfl) | rfl) | rfl
  · have hn := isAlphanum_toNat h
    exact xmlChar_of_ascii (by omega)
  all_goals decide

theorem isDigit_xmlChar {c : Char} (h : c.isDigit = true) : xmlChar c = true := by
  have hn := isDigit_toNat h
  exact xmlChar_of_ascii (by omega)

-- The control characters and the two noncharacters that `parsePath` refuses are all
-- that XML cannot carry.
theorem pathChar_xmlChar {c : Char} (h : pathChar c = true) : xmlChar c = true := by
  simp only [pathChar, isControl, Bool.not_eq_true', Bool.or_eq_false_iff, Bool.and_eq_false_iff,
    decide_eq_false_iff_not] at h
  simp only [xmlChar, Bool.and_eq_true, decide_eq_true_eq]
  omega

theorem xmlText_of_chars {s : String} (p : Char → Bool) (hp : ∀ c, p c = true → xmlChar c = true)
    (h : ∀ c ∈ s.toList, p c = true) : xmlText s = true := by
  simp only [xmlText, List.all_eq_true]
  intro c hc
  exact hp c (h c hc)

theorem Name.xmlText (name : Name) : Xml.xmlText name.asStr = true :=
  xmlText_of_chars nameChar (fun _ => nameChar_xmlChar) name.chars

theorem Interface.xmlText (bridge : Interface) : Xml.xmlText bridge.name = true :=
  xmlText_of_chars nameChar (fun _ => nameChar_xmlChar) bridge.chars

theorem Host.xmlText (host : Host) : Xml.xmlText host.name = true :=
  xmlText_of_chars hostChar (fun _ => hostChar_xmlChar) host.chars

theorem PlainPath.parsePath_text (path : PlainPath) :
    parsePath "path" path.text = .ok path.text := by
  have h := path.plain_text
  simp only [plain] at h
  cases hp : parsePath "path" path.text with
  | error e => simp [hp, Except.toOption] at h
  | ok text =>
      simp only [hp, Except.toOption, Option.some.injEq] at h
      rw [h]

theorem PlainPath.xmlText (path : PlainPath) : Xml.xmlText path.text = true :=
  xmlText_of_chars pathChar (fun _ => pathChar_xmlChar) (parsePath_chars path.parsePath_text).2

theorem PlainPath.ne_nil (path : PlainPath) : path.text.toList ≠ [] :=
  (parsePath_chars path.parsePath_text).1

theorem xmlText_digits (n : Nat) : xmlText (String.ofList (Nat.toDigits 10 n)) = true := by
  apply xmlText_of_chars Char.isDigit (fun _ => isDigit_xmlChar)
  intro c hc
  rw [String.toList_ofList] at hc
  exact List.all_eq_true.mp (isDigit_toDigits n) c hc

theorem xmlText_addrText (addr : Nat) : xmlText (addrText addr) = true := by
  simp only [xmlText, List.all_eq_true]
  intro c hc
  obtain hd | rfl := addrText_chars addr c hc
  · exact isDigit_xmlChar hd
  · decide

end Characters

section Trees

variable (pool : NewPool) (network : NewNetwork) (volume : NewVolume)

theorem NewPool.clean_element : pool.element.clean = true := by
  obtain ⟨name, path, source⟩ := pool
  have hname : xmlText name.asStr = true ∧ name.asStr.toList ≠ [] := ⟨Name.xmlText name, name.ne_nil⟩
  have hpath : xmlText path.text = true ∧ path.text.toList ≠ [] := ⟨path.xmlText, path.ne_nil⟩
  cases source with
  | dir =>
      have hkind : xmlText "dir" = true := by decide
      simp_all [NewPool.element, PoolSource.kind]
  | nfs host exported =>
      have hkind : xmlText "netfs" = true ∧ xmlText "nfs" = true := by decide
      have hhost := Host.xmlText host
      have hexport := exported.xmlText
      simp_all [NewPool.element, PoolSource.kind]

theorem NewPool.names_element : pool.element.names.all tagName = true := by
  obtain ⟨name, path, source⟩ := pool
  cases source with
  | dir =>
      simp only [NewPool.element, names_push, names_elementWith, names_textElement, names_new]
      decide
  | nfs host exported =>
      simp only [NewPool.element, names_push, names_elementWith, names_textElement, names_new]
      decide

theorem clean_ip (subnet : Ipv4Net) : (ip subnet).clean = true := by
  simp [ip, xmlText_addrText, xmlText_digits]

theorem NewNetwork.clean_element : network.element.clean = true := by
  obtain ⟨name, mode⟩ := network
  have hname : xmlText name.asStr = true ∧ name.asStr.toList ≠ [] := ⟨Name.xmlText name, name.ne_nil⟩
  cases mode with
  | nat subnet =>
      have hmode : xmlText "nat" = true := by decide
      simp_all [NewNetwork.element, clean_ip]
  | isolated subnet => simp_all [NewNetwork.element, clean_ip]
  | bridge bridge =>
      have hmode : xmlText "bridge" = true := by decide
      have hbridge := Interface.xmlText bridge
      simp_all [NewNetwork.element]

theorem NewNetwork.names_element : network.element.names.all tagName = true := by
  obtain ⟨name, mode⟩ := network
  cases mode with
  | nat subnet =>
      simp only [NewNetwork.element, ip, names_push, names_elementWith, names_textElement, names_new]
      decide
  | isolated subnet =>
      simp only [NewNetwork.element, ip, names_push, names_elementWith, names_textElement, names_new]
      decide
  | bridge bridge =>
      simp only [NewNetwork.element, names_push, names_elementWith, names_textElement, names_new]
      decide

theorem NewVolume.clean_element : volume.element.clean = true := by
  obtain ⟨name, format, capacityBytes, inRange⟩ := volume
  have hname : xmlText name.asStr = true ∧ name.asStr.toList ≠ [] := ⟨Name.xmlText name, name.ne_nil⟩
  have hunit : xmlText "bytes" = true := by decide
  have hformat : xmlText format.asStr = true := by
    cases format with
    | qcow2 => decide
    | raw => decide
  simp_all [NewVolume.element, xmlText_digits, Nat.toDigits_ne_nil]

theorem NewVolume.names_element : volume.element.names.all tagName = true := by
  simp only [NewVolume.element, names_push, names_pushText, names_elementWith, names_textElement,
    names_new]
  decide

end Trees

section Readers

-- The gateway is an address of the subnet, so it truncates back to the subnet.
theorem subnetOf_ip {subnet : Ipv4Net} (h : Subnet subnet) : subnetOf (ip subnet) = some subnet := by
  have hprefix : subnet.prefixLen ≤ 30 := h.prefixLen_le
  have hsize := subnet.four_le_size hprefix
  have hgateway : subnet.network + 1 < 2 ^ 32 := by
    have hb := subnet.broadcast_lt
    rw [Ipv4Net.broadcast] at hb
    omega
  have haddr : (attr (ip subnet) "address").bind parseAddr = some (subnet.network + 1) := by
    simp only [ip, attr_push, attr_elementWith, List.lookup_cons, beq_self_eq_true,
      Option.bind_some, parseAddr_addrText hgateway]
  have hprefixAttr : attr (ip subnet) "prefix" =
      some (String.ofList (Nat.toDigits 10 subnet.prefixLen)) := by
    simp [ip, List.lookup_cons]
  have hnew : Ipv4Net.new (subnet.network + 1) subnet.prefixLen =
      some ⟨subnet.network + 1, subnet.prefixLen, hgateway, subnet.prefixLen_le⟩ := by
    rw [Ipv4Net.new, dif_pos ⟨hgateway, subnet.prefixLen_le⟩]
  have htrunc : (⟨subnet.network + 1, subnet.prefixLen, hgateway, subnet.prefixLen_le⟩ :
      Ipv4Net).trunc = subnet := by
    have hnet := subnet.network_add (by omega : 1 < subnet.size)
    obtain ⟨addr, prefixLen, haddr', hprefix'⟩ := subnet
    have hplain := h.plain
    simp only [Ipv4Net.trunc, Ipv4Net.network, Ipv4Net.size, Ipv4Net.mk.injEq, and_true] at hnet hplain ⊢
    omega
  simp only [subnetOf, haddr, hprefixAttr, Option.bind_eq_bind, Option.bind_some,
    parseU8_toDigits (by omega : subnet.prefixLen < 256), hnew, htrunc]

theorem name_ip (subnet : Ipv4Net) : (ip subnet).name = "ip" := rfl

variable [Xmltree] [Emitter]

theorem PoolXml.parse_toXml {pool : NewPool} (h : Emitted pool.element) :
    PoolXml.parse pool.toXml = .ok ⟨pool.element⟩ := by
  have hp := parse_write h pool.clean_element pool.names_element
  have hname : pool.element.name = "pool" := by
    simp only [NewPool.element, name_push]
    cases pool.source <;> rfl
  rw [hname] at hp
  simp only [PoolXml.parse, NewPool.toXml, hp, Except.map]

theorem NetworkXml.parse_toXml {network : NewNetwork} (h : Emitted network.element) :
    NetworkXml.parse network.toXml = .ok ⟨network.element⟩ := by
  have hp := parse_write h network.clean_element network.names_element
  have hname : network.element.name = "network" := by
    simp only [NewNetwork.element]
    cases network.mode <;> rfl
  rw [hname] at hp
  simp only [NetworkXml.parse, NewNetwork.toXml, hp, Except.map]

theorem VolumeXml.parse_toXml {volume : NewVolume} (h : Emitted volume.element) :
    VolumeXml.parse volume.toXml = .ok ⟨volume.element⟩ := by
  have hp := parse_write h volume.clean_element volume.names_element
  have hname : volume.element.name = "volume" := rfl
  rw [hname] at hp
  simp only [VolumeXml.parse, NewVolume.toXml, hp, Except.map]

end Readers

section Inputs

theorem NewPool.dir_spec {name : Name} {path : String} {pool : NewPool}
    (h : NewPool.dir name path = .ok pool) :
    ∃ target, parsePath "Pool folder" path = .ok target.text ∧ pool = ⟨name, target, .dir⟩ := by
  obtain ⟨target, ht, h⟩ := except_bind_eq_ok.mp h
  cases h
  exact ⟨target, ((targetPath_eq_ok_iff _ _).mp ht).1, rfl⟩

theorem NewPool.nfs_spec {name : Name} {host source path : String} {pool : NewPool}
    (h : NewPool.nfs name host source path = .ok pool) :
    ∃ target server exported, parsePath "Pool folder" path = .ok target.text ∧
      server.name = host ∧ parsePath "NFS export" source = .ok exported.text ∧
      pool = ⟨name, target, .nfs server exported⟩ := by
  obtain ⟨target, ht, h⟩ := except_bind_eq_ok.mp h
  obtain ⟨server, hs, h⟩ := except_bind_eq_ok.mp h
  obtain ⟨exported, he, h⟩ := except_bind_eq_ok.mp h
  cases h
  exact ⟨target, server, exported, ((targetPath_eq_ok_iff _ _).mp ht).1, parseHost_name hs,
    (plainPath_eq_ok_iff _ _ _).mp he, rfl⟩

theorem NewNetwork.nat_spec [Ipnet] {name : Name} {value : String} {network : NewNetwork}
    (h : NewNetwork.nat name value = .ok network) :
    ∃ subnet, subnet.text = value ∧ Subnet subnet ∧ network = ⟨name, .nat subnet⟩ := by
  obtain ⟨subnet, hs, h⟩ := except_bind_eq_ok.mp h
  cases h
  have hspec := parseSubnet_spec hs
  exact ⟨subnet, hspec.1, hspec.2, rfl⟩

theorem NewNetwork.isolated_spec [Ipnet] {name : Name} {value : String} {network : NewNetwork}
    (h : NewNetwork.isolated name value = .ok network) :
    ∃ subnet, subnet.text = value ∧ Subnet subnet ∧ network = ⟨name, .isolated subnet⟩ := by
  obtain ⟨subnet, hs, h⟩ := except_bind_eq_ok.mp h
  cases h
  have hspec := parseSubnet_spec hs
  exact ⟨subnet, hspec.1, hspec.2, rfl⟩

theorem NewNetwork.bridge_spec {name : Name} {value : String} {hostBridges : List String}
    {network : NewNetwork} (h : NewNetwork.bridge name value hostBridges = .ok network) :
    ∃ bridge, bridge.name = value ∧ network = ⟨name, .bridge bridge⟩ := by
  obtain ⟨bridge, hb, h⟩ := except_bind_eq_ok.mp h
  by_cases hm : hostBridges.contains bridge.name = true
  · rw [if_pos hm] at h
    cases h
    exact ⟨bridge, parseInterface_name hb, rfl⟩
  · rw [if_neg hm] at h
    cases h

theorem NewVolume.new_spec {name : Name} {format : VolumeFormat} {capacityBytes : Nat}
    {volume : NewVolume} (h : NewVolume.new name format capacityBytes = .ok volume) :
    volume.name = name ∧ volume.format = format := by
  simp only [NewVolume.new] at h
  split at h
  · cases h
    exact ⟨rfl, rfl⟩
  · cases h

end Inputs

section RoundTrip

variable [Xmltree] [Emitter] [Ipnet] (field input : String) (name : Name)

-- The document of every accepted pool, network and volume parses, and its readers give
-- the values that were put in. Paths come back in their plain form.
theorem documents_read_back (hname : Name.parse field input = .ok name) :
    (∀ path pool, NewPool.dir name path = .ok pool → Emitted pool.element →
      ∃ doc, PoolXml.parse pool.toXml = .ok doc ∧ doc.name = some input ∧
        doc.poolType = some "dir" ∧ doc.nfsSource = none ∧ doc.targetPath = some pool.path.text ∧
        parsePath "Pool folder" path = .ok pool.path.text) ∧
    (∀ host source path pool, NewPool.nfs name host source path = .ok pool →
      Emitted pool.element →
      ∃ doc exported, PoolXml.parse pool.toXml = .ok doc ∧ doc.name = some input ∧
        doc.poolType = some "netfs" ∧ doc.nfsSource = some (host, exported) ∧
        parsePath "NFS export" source = .ok exported ∧ doc.targetPath = some pool.path.text ∧
        parsePath "Pool folder" path = .ok pool.path.text) ∧
    (∀ value network, NewNetwork.nat name value = .ok network → Emitted network.element →
      ∃ doc subnet, NetworkXml.parse network.toXml = .ok doc ∧ doc.name = some input ∧
        doc.forwardMode = some "nat" ∧ doc.bridge = none ∧ doc.subnets = [subnet] ∧
        network.subnet = some subnet ∧ subnet.text = value) ∧
    (∀ value network, NewNetwork.isolated name value = .ok network → Emitted network.element →
      ∃ doc subnet, NetworkXml.parse network.toXml = .ok doc ∧ doc.name = some input ∧
        doc.forwardMode = none ∧ doc.bridge = none ∧ doc.subnets = [subnet] ∧
        network.subnet = some subnet ∧ subnet.text = value) ∧
    (∀ value hostBridges network, NewNetwork.bridge name value hostBridges = .ok network →
      Emitted network.element →
      ∃ doc, NetworkXml.parse network.toXml = .ok doc ∧ doc.name = some input ∧
        doc.forwardMode = some "bridge" ∧ doc.bridge = some value ∧ doc.subnets = []) ∧
    (∀ format capacityBytes volume, NewVolume.new name format capacityBytes = .ok volume →
      Emitted volume.element →
      ∃ doc, VolumeXml.parse volume.toXml = .ok doc ∧ doc.name = some input ∧
        doc.format = some format.asStr) := by
  have hn := Name.parse_asStr hname
  refine ⟨?_, ?_, ?_, ?_, ?_, ?_⟩
  · intro path pool hpool hemit
    refine ⟨_, PoolXml.parse_toXml hemit, ?_⟩
    obtain ⟨target, hpath, rfl⟩ := NewPool.dir_spec hpool
    simp [PoolXml.name, PoolXml.poolType, PoolXml.nfsSource, PoolXml.targetPath, childText,
      NewPool.element, PoolSource.kind, hn, hpath]
  · intro host source path pool hpool hemit
    obtain ⟨target, server, exported, hpath, hserver, hexport, rfl⟩ := NewPool.nfs_spec hpool
    refine ⟨_, exported.text, PoolXml.parse_toXml hemit, ?_⟩
    simp [PoolXml.name, PoolXml.poolType, PoolXml.nfsSource, PoolXml.targetPath, childText,
      NewPool.element, PoolSource.kind, hn, hpath, hserver, hexport]
  · intro value network hnetwork hemit
    obtain ⟨subnet, htext, hsubnet, rfl⟩ := NewNetwork.nat_spec hnetwork
    refine ⟨_, subnet, NetworkXml.parse_toXml hemit, ?_⟩
    simp [NetworkXml.name, NetworkXml.forwardMode, NetworkXml.bridge, NetworkXml.subnets, childText,
      NewNetwork.element, NewNetwork.subnet, name_ip, subnetOf_ip hsubnet, hn, htext]
  · intro value network hnetwork hemit
    obtain ⟨subnet, htext, hsubnet, rfl⟩ := NewNetwork.isolated_spec hnetwork
    refine ⟨_, subnet, NetworkXml.parse_toXml hemit, ?_⟩
    simp [NetworkXml.name, NetworkXml.forwardMode, NetworkXml.bridge, NetworkXml.subnets, childText,
      NewNetwork.element, NewNetwork.subnet, name_ip, subnetOf_ip hsubnet, hn, htext]
  · intro value hostBridges network hnetwork hemit
    obtain ⟨bridge, hbridge, rfl⟩ := NewNetwork.bridge_spec hnetwork
    refine ⟨_, NetworkXml.parse_toXml hemit, ?_⟩
    simp [NetworkXml.name, NetworkXml.forwardMode, NetworkXml.bridge, NetworkXml.subnets, childText,
      NewNetwork.element, hn, hbridge]
  · intro format capacityBytes volume hvolume hemit
    refine ⟨_, VolumeXml.parse_toXml hemit, ?_⟩
    obtain ⟨hname', hformat⟩ := NewVolume.new_spec hvolume
    simp [VolumeXml.name, VolumeXml.format, childText, NewVolume.element, hname', hformat, hn]

end RoundTrip

section Hostile

-- A directory pool whose folder is called "<!DOCTYPE", with the text that the crate writes.
def hostileName : Name :=
  ⟨"images", by decide, List.all_eq_true.mp (by decide), by decide⟩

def hostilePath : PlainPath := ⟨"/srv/<!DOCTYPE", by decide +kernel⟩

def hostilePool : NewPool := ⟨hostileName, hostilePath, .dir⟩

def hostileText : String :=
  "<pool type=\"dir\">\n  <name>images</name>\n  <target>\n    " ++
    "<path>/srv/&lt;!DOCTYPE</path>\n  </target>\n</pool>"

@[reducible] def hostileEmitter : Emitter := ⟨fun _ => hostileText⟩

@[reducible] def hostileTree : Xmltree :=
  ⟨fun xml => if xml = hostileText then .ok hostilePool.element else .error "syntax"⟩

@[reducible] def noSubnets : Ipnet := ⟨fun _ => none⟩

theorem hostile_escapes : ∀ tail ∈ hostileText.toList.tails, tail.head? = some '<' →
    ['/'] <+: tail.tail ∨ ∃ name ∈ ["pool", "name", "target", "path"], name.toList <+: tail.tail := by
  decide +kernel

theorem hostile_emitted : @Emitted hostileTree hostileEmitter hostilePool.element := by
  let := hostileTree
  let := hostileEmitter
  refine ⟨?_, ?_⟩
  · intro before after heq
    have hwrite : (write hostilePool.element).toList = hostileText.toList := rfl
    have htail : '<' :: after ∈ hostileText.toList.tails := by
      rw [List.mem_tails, ← hwrite, heq]
      exact List.suffix_append _ _
    obtain h | ⟨name, hm, hp⟩ := hostile_escapes _ htail rfl
    · exact Or.inl h
    · refine Or.inr ⟨name, ?_, hp⟩
      simpa [hostilePool, NewPool.element] using hm
  · intro _
    exact if_pos rfl

theorem documents_read_back_doctype :
    NewPool.dir hostileName "/srv//<!DOCTYPE/" = .ok hostilePool ∧
      ∃ doc, @PoolXml.parse hostileTree hostileText = .ok doc ∧
        doc.targetPath = some "/srv/<!DOCTYPE" := by
  have hpool : NewPool.dir hostileName "/srv//<!DOCTYPE/" = .ok hostilePool := by decide +kernel
  have hname : Name.parse "Pool name" "images" = .ok hostileName := by decide +kernel
  refine ⟨hpool, ?_⟩
  obtain ⟨doc, hparse, -, -, -, hpath, -⟩ :=
    (@documents_read_back hostileTree hostileEmitter noSubnets "Pool name" "images" hostileName
      hname).1 "/srv//<!DOCTYPE/" hostilePool hpool hostile_emitted
  exact ⟨doc, hparse, hpath⟩

end Hostile

end Lodger.Xml
