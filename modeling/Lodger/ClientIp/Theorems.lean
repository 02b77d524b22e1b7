import Lodger.ClientIp
import Lodger.Lib.Split

namespace Lodger.ClientIp

open Setup (trim)
open Split

section Lines

variable (headers : HeaderMap)

def lines : List HeaderValue := (headers.filter (·.1 = "x-forwarded-for")).map (·.2)

-- The last comma-separated entry of a line.
def rightmost (line : HeaderValue) : HeaderValue := (line.splitOn 44).getLastD []

-- The entry that the proxy added, and what stands before it: the client may have sent this.
def proxyEntry : Option HeaderValue := (lines headers).getLast?.map rightmost

def earlier : List HeaderValue :=
  (lines headers).dropLast ++
    (lines headers).getLast?.toList.flatMap fun line => (line.splitOn 44).dropLast

-- The address that the last entry of a line gives, if the line is a text.
def addressIn (line : HeaderValue) : Option IpAddr :=
  ((toStr line).map lastEntry).bind fun v => IpAddr.parse (trim v)

theorem get_forwarded : headers.get "x-forwarded-for" = (lines headers).head? := by
  induction headers with
  | nil => rfl
  | cons line rest ih =>
      obtain ⟨name, value⟩ := line
      by_cases hname : name = "x-forwarded-for"
      · simp [HeaderMap.get, lines, hname]
      · have hne : ("x-forwarded-for" == name) = false := by simpa using Ne.symm hname
        have hrest : lines ((name, value) :: rest) = lines rest := by simp [lines, hname]
        rw [hrest, ← ih]
        simp only [HeaderMap.get, List.lookup_cons, hne]

end Lines

section Client

variable {peer : IpAddr} {headers : HeaderMap} {trusted : List IpNet}

theorem clientIp_untrusted (h : trusts trusted peer = false) : clientIp peer headers trusted = peer := by
  simp [clientIp, h]

-- Behind a proxy that sends no X-Real-IP, the code reads the first line.
theorem clientIp_forwarded (h : trusts trusted peer = true) (hreal : headers.get "x-real-ip" = none) :
    clientIp peer headers trusted = ((lines headers).head?.bind addressIn).getD peer := by
  rw [← get_forwarded]
  simp only [clientIp, h, header, hreal, addressIn]
  cases headers.get "x-forwarded-for" with
  | none => rfl
  | some line => rfl

end Client

section Text

-- A visible byte and its character have the same code.
theorem toNat_ofNat_byte (b : UInt8) : (Char.ofNat b.toNat).toNat = b.toNat := by
  have hb := b.toNat_lt
  rw [Char.toNat_ofNat, if_pos]
  exact Or.inl (by omega)

theorem ofNat_byte_eq {b c : UInt8} (h : Char.ofNat b.toNat = Char.ofNat c.toNat) : b = c := by
  have hcode := congrArg Char.toNat h
  rw [toNat_ofNat_byte, toNat_ofNat_byte] at hcode
  exact UInt8.toNat_inj.mp hcode

theorem mem_rightmost {line : HeaderValue} {b : UInt8} (h : b ∈ rightmost line) :
    b ∈ line ∧ b ≠ 44 := by
  obtain ⟨part, hpart, hb⟩ : ∃ part ∈ line.splitOn 44, b ∈ part := by
    have hne := List.splitOn_ne_nil (44 : UInt8) line
    rw [rightmost, List.getLastD_eq_getLast?, List.getLast?_eq_some_getLast hne, Option.getD_some] at h
    exact ⟨_, List.getLast_mem hne, h⟩
  exact mem_of_mem_splitOn line part hpart b hb

theorem toStr_eq {line : HeaderValue} (h : line.all visible = true) :
    toStr line = some (String.ofList (line.map fun b => Char.ofNat b.toNat)) := if_pos h

-- The last entry of a text is the text of the last entry.
theorem lastEntry_toStr (line : HeaderValue) :
    lastEntry (String.ofList (line.map fun b => Char.ofNat b.toNat)) =
      String.ofList ((rightmost line).map fun b => Char.ofNat b.toNat) := by
  have hsplit : (line.map fun b => Char.ofNat b.toNat).splitOn (Char.ofNat (44 : UInt8).toNat) =
      (line.splitOn 44).map (List.map fun b => Char.ofNat b.toNat) :=
    splitOn_map (fun b : UInt8 => Char.ofNat b.toNat) line fun x _ hx => ofNat_byte_eq hx
  have hcomma : Char.ofNat (44 : UInt8).toNat = ',' := by decide
  simp only [hcomma] at hsplit
  rw [lastEntry, String.toList_ofList, hsplit, rightmost]
  rw [List.getLastD_eq_getLast?, List.getLast?_map, List.getLastD_eq_getLast?]
  cases (line.splitOn 44).getLast? with
  | none => rfl
  | some part => rfl

theorem splitOn_rightmost (line : HeaderValue) : (rightmost line).splitOn 44 = [rightmost line] := by
  refine List.splitOnP_eq_singleton ?_
  intro b hb
  simpa using (mem_rightmost hb).2

theorem rightmost_rightmost (line : HeaderValue) : rightmost (rightmost line) = rightmost line := by
  conv_lhs => rw [rightmost, splitOn_rightmost]
  rfl

-- In a line that is a text, only the last entry counts.
theorem addressIn_rightmost {line : HeaderValue} (h : line.all visible = true) :
    addressIn (rightmost line) = addressIn line := by
  have hlast : (rightmost line).all visible = true := by
    rw [List.all_eq_true] at h ⊢
    exact fun b hb => h b (mem_rightmost hb).1
  simp only [addressIn, toStr_eq h, toStr_eq hlast, Option.map_some, lastEntry_toStr,
    rightmost_rightmost]

theorem splitOn_eq (line : HeaderValue) :
    line.splitOn 44 = (line.splitOn 44).dropLast ++ [rightmost line] := by
  have hne := List.splitOn_ne_nil (44 : UInt8) line
  rw [rightmost, List.getLastD_eq_getLast?, List.getLast?_eq_some_getLast hne, Option.getD_some,
    List.dropLast_append_getLast]

-- If the entries before the last one are text, the last one decides.
theorem addressIn_of_text {line : HeaderValue}
    (h : ∀ part ∈ (line.splitOn 44).dropLast, part.all visible = true) :
    addressIn (rightmost line) = addressIn line := by
  by_cases hlast : (rightmost line).all visible = true
  · refine addressIn_rightmost (List.all_eq_true.mpr ?_)
    have hjoin : [44].intercalate (line.splitOn 44) = line := List.intercalate_splitOn 44
    intro b hb
    rw [← hjoin, splitOn_eq line] at hb
    obtain rfl | ⟨part, hpart, hb⟩ := mem_intercalate _ b hb
    · decide
    · obtain hpart | hpart := List.mem_append.mp hpart
      · exact List.all_eq_true.mp (h part hpart) b hb
      · obtain rfl := List.mem_singleton.mp hpart
        exact List.all_eq_true.mp hlast b hb
  · have hline : ¬line.all visible = true := by
      intro hline
      exact hlast (List.all_eq_true.mpr fun b hb =>
        List.all_eq_true.mp hline b (mem_rightmost hb).1)
    simp [addressIn, toStr, hlast, hline]

end Text

-- A request with these lines and this entry of the proxy.
section Forged

variable (front : List HeaderValue) (entry : HeaderValue)

def forged : HeaderMap := (front ++ [entry]).map fun line => ("x-forwarded-for", line)

theorem lines_forged : lines (forged front entry) = front ++ [entry] := by
  simp [lines, forged, List.filter_map, Function.comp_def]

theorem get_forged_realIp : (forged front entry).get "x-real-ip" = none := by
  have hne : ("x-real-ip" != "x-forwarded-for") = true := by decide
  rw [HeaderMap.get, List.lookup_eq_none_iff]
  intro line hline
  obtain ⟨value, -, rfl⟩ := List.mem_map.mp hline
  exact hne

variable {entry}

theorem earlier_forged (h : rightmost entry = entry) : earlier (forged front entry) = front := by
  have hsingle : entry.splitOn 44 = [entry] := by
    rw [← h]
    exact splitOn_rightmost entry
  simp [earlier, lines_forged, hsingle]

end Forged

-- Another request that has no X-Real-IP and the same entry of the proxy.
def Alike (headers headers' : HeaderMap) : Prop :=
  headers'.get "x-real-ip" = none ∧ proxyEntry headers' = proxyEntry headers

-- What stands before the entry of the proxy is text.
def EarlierText (headers : HeaderMap) : Prop := ∀ part ∈ earlier headers, part.all visible = true

section Choose

variable {peer : IpAddr} {headers : HeaderMap} {trusted : List IpNet}
  (htrusted : trusts trusted peer = true)
include htrusted

theorem clientIp_forged (front : List HeaderValue) (entry : HeaderValue) :
    clientIp peer (forged front entry) trusted =
      ((front ++ [entry]).head?.bind addressIn).getD peer := by
  rw [clientIp_forwarded htrusted (get_forged_realIp front entry), lines_forged]

omit htrusted in
theorem alike_forged {last : HeaderValue} (hlast : (lines headers).getLast? = some last)
    (front : List HeaderValue) : Alike headers (forged front (rightmost last)) := by
  refine ⟨get_forged_realIp front _, ?_⟩
  simp [proxyEntry, lines_forged, hlast, rightmost_rightmost]

-- Whoever writes the line before the proxy's entry makes the answer another one.
theorem exists_alike_ne {last : HeaderValue} (hlast : (lines headers).getLast? = some last) (k : Nat)
    (answer : IpAddr) : ∃ headers', Alike headers headers' ∧ (lines headers').length = k + 2 ∧
      EarlierText headers' ∧ clientIp peer headers' trusted ≠ answer := by
  have hforge : ∀ line ip, line.all visible = true → addressIn line = some ip → ip ≠ answer →
      ∃ headers', Alike headers headers' ∧ (lines headers').length = k + 2 ∧
        EarlierText headers' ∧ clientIp peer headers' trusted ≠ answer := by
    intro line ip hvisible hip hne
    refine ⟨forged (List.replicate (k + 1) line) (rightmost last), alike_forged hlast _, ?_, ?_, ?_⟩
    · simp [lines_forged]
    · intro part hpart
      rw [earlier_forged _ (rightmost_rightmost last)] at hpart
      rw [List.eq_of_mem_replicate hpart, hvisible]
    · rw [clientIp_forged htrusted, List.replicate_succ, List.cons_append, List.head?_cons,
        Option.bind_some, hip, Option.getD_some]
      exact hne
  have hsix : addressIn [54, 46, 54, 46, 54, 46, 54] = some (.v4 0x06060606) := by decide +kernel
  have hseven : addressIn [55, 46, 55, 46, 55, 46, 55] = some (.v4 0x07070707) := by decide +kernel
  by_cases hanswer : .v4 0x06060606 = answer
  · refine hforge _ _ (by decide) hseven ?_
    rw [← hanswer]
    decide
  · exact hforge _ _ (by decide) hsix hanswer

-- Two requests with one line each, and text before the same entry, have one answer.
theorem clientIp_text {line : HeaderValue} (hreal : headers.get "x-real-ip" = none)
    (hone : (lines headers).length = 1) (hentry : proxyEntry headers = some (rightmost line))
    (htext : EarlierText headers) :
    clientIp peer headers trusted = (addressIn (rightmost line)).getD peer := by
  obtain ⟨only, hlines⟩ := List.length_eq_one_iff.mp hone
  have hsame : rightmost only = rightmost line := by
    simpa [proxyEntry, hlines] using hentry
  have hentries : ∀ part ∈ (only.splitOn 44).dropLast, part.all visible = true := by
    intro part hpart
    exact htext part (by simp [earlier, hlines, hpart])
  rw [clientIp_forwarded htrusted hreal, hlines, List.head?_cons, Option.bind_some,
    ← addressIn_of_text hentries, hsame]

end Choose

-- A peer that is not trusted is the client, whatever it sends. Behind a trusted one a client that
-- can add a line chooses the answer. In a request with one line of visible characters it does not,
-- whatever it writes before the entry of the proxy.
theorem client_cannot_choose_address (peer : IpAddr) (headers : HeaderMap) (trusted : List IpNet) :
    (trusts trusted peer = false → ∀ headers',
      clientIp peer headers' trusted = clientIp peer headers trusted) ∧
    (trusts trusted peer = true → headers.get "x-real-ip" = none →
      ((∀ headers', Alike headers headers' →
          clientIp peer headers' trusted = clientIp peer headers trusted) ↔ lines headers = []) ∧
      ((∀ headers', Alike headers headers' → (lines headers').length = (lines headers).length →
          EarlierText headers' →
            clientIp peer headers' trusted = clientIp peer headers trusted) ↔
        lines headers = [] ∨ ∃ line, lines headers = [line] ∧
          (line.all visible = true ∨ ∀ ip, addressIn (rightmost line) = some ip → ip = peer))) := by
  refine ⟨?_, ?_⟩
  · intro huntrusted headers'
    rw [clientIp_untrusted huntrusted, clientIp_untrusted huntrusted]
  · intro htrusted hreal
    have hnone : ∀ headers', Alike headers headers' → lines headers = [] →
        clientIp peer headers' trusted = clientIp peer headers trusted := by
      rintro headers' ⟨hreal', hentry⟩ hlines
      have hlines' : lines headers' = [] := by simpa [proxyEntry, hlines] using hentry
      rw [clientIp_forwarded htrusted hreal, clientIp_forwarded htrusted hreal', hlines, hlines']
    refine ⟨⟨?_, fun hlines headers' halike => hnone headers' halike hlines⟩, ?_, ?_⟩
    · intro hsame
      by_contra hlines
      obtain ⟨headers', halike, -, -, hne⟩ := exists_alike_ne htrusted
        (List.getLast?_eq_some_getLast hlines) 0 (clientIp peer headers trusted)
      exact hne (hsame headers' halike)
    · intro hsame
      cases hlines : lines headers with
      | nil => exact .inl rfl
      | cons first rest =>
          have hlast : (lines headers).getLast? = some (rest.getLastD first) := by
            rw [hlines, List.getLast?_cons, List.getLastD_eq_getLast?]
          cases rest with
          | cons second rest =>
              -- The client writes the first line.
              obtain ⟨headers', halike, hlength, htext, hne⟩ := exists_alike_ne htrusted hlast
                rest.length (clientIp peer headers trusted)
              exact absurd (hsame headers' halike (by simp [hlength, hlines]) htext) hne
          | nil =>
              refine .inr ⟨first, rfl, ?_⟩
              by_contra hneither
              simp only [not_or, not_forall] at hneither
              obtain ⟨hinvisible, ip, hip, hne⟩ := hneither
              have hforged := hsame (forged [] (rightmost first)) (alike_forged hlast [])
                (by simp [lines_forged, hlines])
                (by simp [EarlierText, earlier_forged _ (rightmost_rightmost first)])
              have hpeer : addressIn first = none := by simp [addressIn, toStr, hinvisible]
              rw [clientIp_forged htrusted, clientIp_forwarded htrusted hreal, hlines] at hforged
              simp only [List.nil_append, List.head?_cons, Option.bind_some, hip, hpeer,
                Option.getD_some, Option.getD_none] at hforged
              exact hne hforged
    · rintro (hlines | ⟨line, hlines, hline⟩) headers' halike hlength htext
      · exact hnone headers' halike hlines
      · have hentry : proxyEntry headers' = some (rightmost line) := by
          rw [halike.2, proxyEntry, hlines]
          rfl
        rw [hlines] at hlength
        rw [clientIp_text htrusted halike.1 hlength hentry htext, clientIp_forwarded htrusted hreal,
          hlines, List.head?_cons, Option.bind_some]
        by_cases hvisible : line.all visible = true
        · rw [addressIn_rightmost hvisible]
        · have hpeer : addressIn line = none := by simp [addressIn, toStr, hvisible]
          rw [hpeer]
          cases hip : addressIn (rightmost line) with
          | none => rfl
          | some ip =>
              obtain hvisible' | honly := hline
              · exact absurd hvisible' hvisible
              · exact honly ip hip

section Mapped

open Throttle (ipKey)

-- An IPv4 address in IPv6 form, ::ffff:a.b.c.d.
def mapped (p : BitVec 32) : IpAddr := .v6 (0xffff#96 ++ p)

def forwardedAddr (headers : HeaderMap) : Option IpAddr :=
  ((header headers "x-real-ip").bind fun v => IpAddr.parse (trim v)).or
    (((header headers "x-forwarded-for").map lastEntry).bind fun v => IpAddr.parse (trim v))

theorem clientIp_eq (peer : IpAddr) (headers : HeaderMap) (trusted : List IpNet) :
    clientIp peer headers trusted =
      if trusts trusted peer then (forwardedAddr headers).getD peer else peer := by
  unfold clientIp forwardedAddr
  by_cases htrusted : trusts trusted peer = true
  · simp only [htrusted, Bool.not_true, Bool.false_eq_true, if_false, if_true]
    cases (header headers "x-real-ip").bind fun v => IpAddr.parse (trim v) with
    | none => rfl
    | some ip => rfl
  · simp [htrusted]

theorem toCanonical_mapped (p : BitVec 32) : (mapped p).toCanonical = .v4 p := by
  have hhigh : (0xffff#96 ++ p).extractLsb' 32 96 = 0xffff#96 := by
    ext i hi
    simp only [BitVec.getElem_extractLsb', BitVec.getLsbD_append]
    have hge : ¬(32 + i < 32) := by omega
    simp only [hge, if_false, Nat.add_sub_cancel_left]
    exact BitVec.getLsbD_eq_getElem hi
  have hlow : (0xffff#96 ++ p).extractLsb' 0 32 = p := by
    ext i hi
    simp only [BitVec.getElem_extractLsb', BitVec.getLsbD_append, Nat.zero_add, hi, if_true]
    exact BitVec.getLsbD_eq_getElem hi
  have hmapped : (0xffff#96 ++ p).extractLsb' 32 96 = 0xffff := hhigh
  simp only [mapped, IpAddr.toCanonical, hmapped, if_true, hlow]

theorem ipKey_mapped (p : BitVec 32) : ipKey (mapped p) = .v4 p := by
  simp only [ipKey, toCanonical_mapped]

-- An IPv4 peer and its mapped form count as one client, exactly if both are trusted or
-- neither is, or the headers name no client other than the peer.
theorem mapped_peer_is_same_client (p : BitVec 32) (headers : HeaderMap) (trusted : List IpNet) :
    ipKey (clientIp (.v4 p) headers trusted) = ipKey (clientIp (mapped p) headers trusted) ↔
      trusts trusted (.v4 p) = trusts trusted (mapped p) ∨
        ∀ ip, forwardedAddr headers = some ip → ipKey ip = .v4 p := by
  have hplain : ipKey (.v4 p) = .v4 p := rfl
  rw [clientIp_eq, clientIp_eq]
  cases hforwarded : forwardedAddr headers with
  | none =>
      have hboth : ipKey (.v4 p) = ipKey (mapped p) := by rw [hplain, ipKey_mapped]
      simp [hboth]
  | some ip =>
      simp only [Option.getD_some, Option.some.injEq, forall_eq']
      by_cases h4 : trusts trusted (.v4 p) = true
      · by_cases h6 : trusts trusted (mapped p) = true
        · simp [h4, h6]
        · simp [h4, h6, ipKey_mapped]
      · by_cases h6 : trusts trusted (mapped p) = true
        · simp [h4, h6, hplain, eq_comm]
        · simp [h4, h6, hplain, ipKey_mapped]

end Mapped

section Runs

-- The proxy 172.17.0.2 and its network.
def proxy : BitVec 32 := 0xac110002

theorem proxies_prefixLen_le : 16 ≤ 32 := by decide

def proxies : List IpNet := [.v4 ⟨0xac110000, 16, by decide, proxies_prefixLen_le⟩]

def line (name text : String) : String × HeaderValue :=
  (name, text.toList.map fun c => UInt8.ofNat c.toNat)

-- The client sent the first line itself; the proxy added the second one.
theorem first_line_is_the_clients :
    clientIp (.v4 proxy) [line "x-forwarded-for" "6.6.6.6", line "x-forwarded-for" "192.168.1.50"]
      proxies = .v4 0x06060606 ∧
    clientIp (.v4 proxy) [line "x-forwarded-for" "192.168.1.50"] proxies = .v4 0xc0a80132 := by
  decide +kernel

theorem client_cannot_choose_address_entry :
    clientIp (.v4 proxy) [line "x-forwarded-for" "6.6.6.6, 192.168.1.50"] proxies =
      clientIp (.v4 proxy) [line "x-forwarded-for" "7.7.7.7, 8.8.8.8, 192.168.1.50"] proxies := by
  refine ((client_cannot_choose_address (.v4 proxy)
    [line "x-forwarded-for" "7.7.7.7, 8.8.8.8, 192.168.1.50"] proxies).2 (by decide +kernel)
      (by decide +kernel)).2.mpr (.inr ⟨_, rfl, .inl (by decide +kernel)⟩) _ ⟨?_, ?_⟩ rfl ?_
  · decide +kernel
  · decide +kernel
  · have htext : (earlier [line "x-forwarded-for" "6.6.6.6, 192.168.1.50"]).all
        (·.all visible) = true := by
      decide +kernel
    exact List.all_eq_true.mp htext

-- The same proxy, on a dual-stack socket, is not trusted.
theorem mapped_proxy_not_trusted :
    Throttle.ipKey (clientIp (.v4 proxy) [line "x-real-ip" "192.168.1.50"] proxies) ≠
      Throttle.ipKey (clientIp (mapped proxy) [line "x-real-ip" "192.168.1.50"] proxies) := by
  decide +kernel

end Runs

end Lodger.ClientIp
