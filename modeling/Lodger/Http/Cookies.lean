import Lodger.Http
import Lodger.ClientIp.Theorems

namespace Lodger.Http

open ClientIp (HeaderMap HeaderValue toStr visible toStr_eq)
open Security (Panic headerOf fromStr)
open Setup (trim isWhitespace)
open Split (splitOnce splitOnce_eq_some_iff)

-- What a browser does with cookies: it keeps one value for each name and sends them all in
-- one line.
section Browser

abbrev Jar := List (List Char × List Char)

def pairText (cookie : List Char × List Char) : List Char := cookie.1 ++ '=' :: cookie.2

def Jar.line (jar : Jar) : List Char := [';', ' '].intercalate (jar.map pairText)

def bytes (text : List Char) : HeaderValue := text.map fun c => UInt8.ofNat c.toNat

def Jar.put (jar : Jar) (cookie : List Char × List Char) : Jar :=
  jar.filter (·.1 ≠ cookie.1) ++ [cookie]

-- The name and the value of a `Set-Cookie` line are before the first semicolon.
def Jar.receive (jar : Jar) (line : List Char) : Jar :=
  match splitOnce '=' (trim (String.ofList (line.takeWhile (· ≠ ';')))).toList with
  | some cookie => jar.put cookie
  | none => jar

-- A character that a cookie can have.
def octet (c : Char) : Bool := 0x20 < c.toNat && c.toNat < 0x7f && c ≠ ';'

structure Plain (cookie : List Char × List Char) : Prop where
  name : ∀ c ∈ cookie.1, octet c = true ∧ c ≠ '='
  value : ∀ c ∈ cookie.2, octet c = true

end Browser

section Text

theorem octet_iff {c : Char} : octet c = true ↔ 0x20 < c.toNat ∧ c.toNat < 0x7f ∧ c ≠ ';' := by
  simp [octet, and_assoc]

theorem octet_not_whitespace {c : Char} (h : octet c = true) : isWhitespace c = false := by
  obtain ⟨hlo, hhi, -⟩ := octet_iff.mp h
  simp only [isWhitespace, Bool.or_eq_false_iff, Bool.and_eq_false_iff, decide_eq_false_iff_not]
  omega

theorem dropWhile_whitespace {text : List Char} (h : ∀ c ∈ text, isWhitespace c = false) :
    text.dropWhile isWhitespace = text := by
  rw [List.dropWhile_eq_self_iff]
  intro hlen
  simp [h _ (List.getElem_mem hlen)]

theorem trim_plain {text : List Char} (h : ∀ c ∈ text, isWhitespace c = false) :
    (trim (String.ofList text)).toList = text := by
  simp only [trim, String.toList_ofList]
  rw [dropWhile_whitespace h, dropWhile_whitespace fun c hc => h c (List.mem_reverse.mp hc),
    List.reverse_reverse]

theorem trim_space (text : List Char) :
    (trim (String.ofList (' ' :: text))).toList = (trim (String.ofList text)).toList := by
  have hspace : isWhitespace ' ' = true := by decide
  simp only [trim, String.toList_ofList, List.dropWhile_cons_of_pos hspace]

-- The separator is one character, and the next pair starts with a space.
theorem intercalate_space (part : List Char) (parts : List (List Char)) :
    [';', ' '].intercalate (part :: parts) =
      [';'].intercalate (part :: parts.map (' ' :: ·)) := by
  induction parts generalizing part with
  | nil => simp
  | cons next parts ih =>
      rw [List.intercalate_cons_cons, ih, List.map_cons, List.intercalate_cons_cons,
        List.intercalate_cons_cons_left]
      simp

theorem pairText_octets {cookie : List Char × List Char} (h : Plain cookie) :
    ∀ c ∈ pairText cookie, octet c = true := by
  intro c hc
  rcases List.mem_append.mp hc with hc | hc
  · exact (h.name c hc).1
  · rcases List.mem_cons.mp hc with rfl | hc
    · decide
    · exact h.value c hc

theorem splitOnce_pairText {cookie : List Char × List Char} (h : Plain cookie) :
    splitOnce '=' (pairText cookie) = some cookie := by
  rw [splitOnce_eq_some_iff]
  exact ⟨fun hc => (h.name _ hc).2 rfl, rfl⟩

theorem trim_pairText {cookie : List Char × List Char} (h : Plain cookie) :
    (trim (String.ofList (pairText cookie))).toList = pairText cookie :=
  trim_plain fun c hc => octet_not_whitespace (pairText_octets h c hc)

theorem toStr_bytes {text : List Char} (h : ∀ c ∈ text, 0x20 ≤ c.toNat ∧ c.toNat < 0x7f) :
    toStr (bytes text) = some (String.ofList text) := by
  have hbyte : ∀ c ∈ text, (UInt8.ofNat c.toNat).toNat = c.toNat := by
    intro c hc
    have := (h c hc).2
    rw [UInt8.toNat_ofNat']
    omega
  have hvisible : (bytes text).all visible = true := by
    simp only [bytes, List.all_map, List.all_eq_true, Function.comp_apply, visible,
      Bool.or_eq_true, Bool.and_eq_true, decide_eq_true_eq]
    intro c hc
    have := h c hc
    refine .inr ⟨?_, ?_⟩
    · rw [UInt8.le_iff_toNat_le, hbyte c hc]
      exact this.1
    · rw [UInt8.lt_iff_toNat_lt, hbyte c hc]
      exact this.2
  rw [toStr_eq hvisible, bytes, List.map_map]
  congr 2
  conv_rhs => rw [← List.map_id text]
  apply List.map_congr_left
  intro c hc
  simp [hbyte c hc]

-- The bytes of a text of ASCII characters are their codes.
theorem toUTF8_ofList {text : List Char} (h : ∀ c ∈ text, c.toNat < 0x7f) :
    (String.ofList text).toUTF8.data.toList = bytes text := by
  have hutf8 : (String.ofList text).toUTF8 = (text.flatMap String.utf8EncodeChar).toByteArray := rfl
  rw [hutf8, List.toList_data_toByteArray]
  clear hutf8
  induction text with
  | nil => rfl
  | cons c text ih =>
      have hc := h c List.mem_cons_self
      have hval : c.toNat = c.val.toNat := rfl
      have hmax : (127 : UInt32).toNat = 127 := rfl
      have hsize : c.utf8Size = 1 := by
        rw [Char.utf8Size_eq_one_iff, UInt32.le_iff_toNat_le]
        omega
      rw [List.flatMap_cons, String.utf8EncodeChar_eq_singleton hsize, bytes, List.map_cons,
        ← bytes, ← ih fun d hd => h d (List.mem_cons_of_mem _ hd)]
      rfl

end Text

theorem jar_octets {jar : Jar} (h : ∀ cookie ∈ jar, Plain cookie) :
    ∀ part ∈ jar.map pairText, ∀ c ∈ part, octet c = true := by
  intro part hpart c hc
  obtain ⟨cookie, hcookie, rfl⟩ := List.mem_map.mp hpart
  exact pairText_octets (h cookie hcookie) c hc

theorem cookiePairs_line {jar : Jar} (hne : jar ≠ []) (h : ∀ cookie ∈ jar, Plain cookie) :
    cookiePairs (String.ofList jar.line) = jar := by
  obtain ⟨first, rest, rfl⟩ := List.exists_cons_of_ne_nil hne
  have hoctets := jar_octets h
  have hsemi : ∀ part ∈ pairText first :: (rest.map pairText).map (' ' :: ·), ';' ∉ part := by
    intro part hpart hmem
    rcases List.mem_cons.mp hpart with rfl | hpart
    · exact (octet_iff.mp (hoctets _ (by simp) _ hmem)).2.2 rfl
    · obtain ⟨part, hpart, rfl⟩ := List.mem_map.mp hpart
      have hmem : ';' ∈ part := by simpa using hmem
      exact (octet_iff.mp (hoctets part (by simpa using Or.inr hpart) _ hmem)).2.2 rfl
  unfold cookiePairs Jar.line
  rw [String.toList_ofList, List.map_cons, intercalate_space,
    List.splitOn_intercalate ';' hsemi (by simp), List.filterMap_cons,
    trim_pairText (h first List.mem_cons_self), splitOnce_pairText (h first List.mem_cons_self)]
  rw [List.filterMap_map, List.filterMap_map]
  show first :: _ = first :: rest
  congr 1
  refine (List.filterMap_congr ?_).trans List.filterMap_some
  intro cookie hcookie
  have hplain := h cookie (List.mem_cons_of_mem _ hcookie)
  simp only [Function.comp_apply, trim_space]
  rw [trim_pairText hplain, splitOnce_pairText hplain]

theorem line_octets {jar : Jar} (h : ∀ cookie ∈ jar, Plain cookie) :
    ∀ c ∈ jar.line, 0x20 ≤ c.toNat ∧ c.toNat < 0x7f := by
  have hoctet : ∀ part ∈ jar.map pairText, ∀ c ∈ part, 0x20 ≤ c.toNat ∧ c.toNat < 0x7f := by
    intro part hpart c hc
    obtain ⟨hlo, hhi, -⟩ := octet_iff.mp (jar_octets h part hpart c hc)
    exact ⟨hlo.le, hhi⟩
  unfold Jar.line
  intro c hc
  cases hparts : jar.map pairText with
  | nil => simp [hparts] at hc
  | cons first rest =>
      rw [hparts, intercalate_space] at hc
      rw [hparts] at hoctet
      rcases Split.mem_intercalate _ c hc with rfl | ⟨part, hpart, hmem⟩
      · decide
      · rcases List.mem_cons.mp hpart with rfl | hpart
        · exact hoctet part List.mem_cons_self c hmem
        · obtain ⟨inner, hinner, rfl⟩ := List.mem_map.mp hpart
          rcases List.mem_cons.mp hmem with rfl | hmem
          · decide
          · exact hoctet inner (List.mem_cons_of_mem _ hinner) c hmem

-- The first cookie of a name is the one that the server reads.
theorem cookieToken_line {headers : HeaderMap} {jar : Jar} (hne : jar ≠ [])
    (h : ∀ cookie ∈ jar, Plain cookie)
    (hheaders : headers.filter (·.1 = "cookie") = [("cookie", bytes jar.line)]) :
    cookieToken headers = (jar.lookup COOKIE.toList).map String.ofList := by
  simp only [cookieToken, hheaders, List.filterMap_cons, List.filterMap_nil,
    toStr_bytes (line_octets h), List.flatMap_cons, List.flatMap_nil, List.append_nil,
    cookiePairs_line hne h]

theorem lookup_put (jar : Jar) (cookie : List Char × List Char) :
    (jar.put cookie).lookup cookie.1 = some cookie.2 := by
  have hnone : (jar.filter (·.1 ≠ cookie.1)).lookup cookie.1 = none := by
    rw [List.lookup_eq_none_iff]
    intro other hother
    have hne : other.1 ≠ cookie.1 := by simpa using (List.mem_filter.mp hother).2
    exact bne_iff_ne.mpr (Ne.symm hne)
  rw [Jar.put, List.lookup_append, hnone, Option.none_or, List.lookup_cons, beq_self_eq_true]

theorem put_plain {jar : Jar} {cookie : List Char × List Char} (h : ∀ cookie ∈ jar, Plain cookie)
    (hcookie : Plain cookie) : ∀ c ∈ jar.put cookie, Plain c := by
  intro c hc
  rcases List.mem_append.mp hc with hc | hc
  · exact h c (List.mem_filter.mp hc).1
  · rw [List.mem_singleton.mp hc]
    exact hcookie

theorem encode_octets (random : List (BitVec 8)) :
    ∀ c ∈ (Tickets.encode random).toList, octet c = true := by
  have hdigit : ∀ d < 16, octet d.digitChar = true := by decide
  intro c hc
  simp only [Tickets.encode, String.toList_ofList, List.mem_flatMap, List.mem_cons,
    List.not_mem_nil, or_false] at hc
  obtain ⟨b, -, rfl | rfl⟩ := hc
  · exact hdigit _ (by have := b.isLt; omega)
  · exact hdigit _ (Nat.mod_lt _ (by omega))

theorem plain_sid {token : String} (h : ∀ c ∈ token.toList, octet c = true) :
    Plain (COOKIE.toList, token.toList) := by
  refine ⟨?_, h⟩
  have hall : COOKIE.toList.all (fun c => octet c && decide (c ≠ '=')) = true := by decide +kernel
  intro c hc
  simpa using List.all_eq_true.mp hall c hc

-- The header that a login sends is a text, and a browser that gets it puts the token in its jar.
theorem receive_setCookie (jar : Jar) {token : String} (h : ∀ c ∈ token.toList, octet c = true) :
    ∃ value, setCookie token = .ok value ∧ toStr value = some (cookieText token) ∧
      jar.receive (cookieText token).toList = jar.put (COOKIE.toList, token.toList) := by
  have hplain := plain_sid h
  have htext : cookieText token = String.ofList (pairText (COOKIE.toList, token.toList) ++
      "; Path=/; Secure; HttpOnly; SameSite=Strict".toList) := by
    rw [← String.toList_inj]
    simp only [cookieText, String.toList_append, String.toList_ofList, pairText]
    rw [List.append_assoc COOKIE.toList]
    rfl
  have htail : "; Path=/; Secure; HttpOnly; SameSite=Strict".toList.all
      (fun c => decide (0x20 ≤ c.toNat ∧ c.toNat < 0x7f)) = true := by decide +kernel
  have hascii : ∀ c ∈ (cookieText token).toList, 0x20 ≤ c.toNat ∧ c.toNat < 0x7f := by
    intro c hc
    rw [htext, String.toList_ofList] at hc
    rcases List.mem_append.mp hc with hc | hc
    · obtain ⟨hlo, hhi, -⟩ := octet_iff.mp (pairText_octets hplain c hc)
      exact ⟨hlo.le, hhi⟩
    · simpa using List.all_eq_true.mp htail c hc
  have hbytes := toUTF8_ofList fun c hc => (hascii c hc).2
  have hvalue := toStr_bytes hascii
  rw [String.ofList_toList] at hbytes hvalue
  refine ⟨bytes (cookieText token).toList, ?_, hvalue, ?_⟩
  · have hvisible : (bytes (cookieText token).toList).all visible = true := by
      by_contra hno
      simp [toStr, hno] at hvalue
    simp only [setCookie, headerOf, fromStr, hbytes, hvisible, if_true]
  · have htake : (cookieText token).toList.takeWhile (· ≠ ';') =
        pairText (COOKIE.toList, token.toList) := by
      rw [htext, String.toList_ofList, List.takeWhile_append_of_pos]
      · exact List.append_nil _
      · intro c hc
        simpa using (octet_iff.mp (pairText_octets hplain c hc)).2.2
    rw [Jar.receive, htake, trim_pairText hplain, splitOnce_pairText hplain]

-- The cookie that a login sets is the one that the guard reads, whatever other cookies the
-- browser has.
theorem login_cookie_roundtrip (random : Vector (BitVec 8) 32) (jar : Jar)
    (hjar : ∀ cookie ∈ jar, Plain cookie) (headers : HeaderMap)
    (hheaders : headers.filter (·.1 = "cookie") = [("cookie",
      bytes (jar.receive (cookieText (Tickets.encode random.toList)).toList).line)]) :
    (∃ value, setCookie (Tickets.encode random.toList) = .ok value ∧
      toStr value = some (cookieText (Tickets.encode random.toList))) ∧
      cookieToken headers = some (Tickets.encode random.toList) := by
  have hoctets := encode_octets random.toList
  obtain ⟨value, hset, htext, hreceive⟩ := receive_setCookie jar hoctets
  refine ⟨⟨value, hset, htext⟩, ?_⟩
  rw [hreceive] at hheaders
  rw [cookieToken_line (by simp [Jar.put]) (put_plain hjar (plain_sid hoctets)) hheaders,
    lookup_put jar (COOKIE.toList, _), Option.map_some, String.ofList_toList]

theorem login_cookie_roundtrip_beside_theme :
    cookieToken [("cookie", bytes (Jar.receive [(['t'], ['1'])]
      (cookieText (Tickets.encode (Vector.replicate 32 7).toList)).toList).line), ("host", [])] =
        some (Tickets.encode (Vector.replicate 32 7).toList) :=
  (login_cookie_roundtrip (Vector.replicate 32 7) [(['t'], ['1'])]
    (by
      intro cookie hcookie
      rw [List.mem_singleton.mp hcookie]
      exact ⟨List.forall_mem_singleton.mpr (by decide),
        List.forall_mem_singleton.mpr (by decide)⟩) _ rfl).2

end Lodger.Http
