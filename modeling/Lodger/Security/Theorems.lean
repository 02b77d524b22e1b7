import Lodger.Security.Lemmas

namespace Lodger.Security

open Loop (Returns)

-- A text without a script start.
abbrev Words := { text : List Char // ¬SCRIPT <:+: text }

structure Element where
  attrs : List Char
  body : List Char
  oneTag : '>' ∉ attrs ∧ '<' ∉ attrs
  inside : ¬CLOSE <:+: body

def Element.startTag (e : Element) : List Char := SCRIPT ++ (e.attrs ++ ['>'])

def Element.text (e : Element) : List Char := e.startTag ++ (e.body ++ CLOSE)

-- Two texts side by side are one text.
structure Page where
  first : Words
  scripts : List (Element × Words)

def Page.text (page : Page) : List Char :=
  page.first.1 ++ page.scripts.flatMap fun script => script.1.text ++ script.2.1

-- The bodies of the scripts without a `src`, in order.
def inlineBodies (scripts : List (Element × Words)) : List (List Char) :=
  (scripts.filter fun script => ¬SRC <:+: script.1.startTag).map (·.1.body)

-- Reading script by script, from a "<script" to the first "</script>" after it, some script has
-- no '>' between the two.
inductive ClosedEarly : List Char → Prop where
  | here {text mid : List Char} (after : List Char) (htext : ¬SCRIPT <:+: text) (hmid : '>' ∉ mid) :
      ClosedEarly (text ++ (SCRIPT ++ (mid ++ (CLOSE ++ after))))
  | later {text mid after : List Char} (htext : ¬SCRIPT <:+: text) (hmid : ¬CLOSE <:+: mid)
      (h : ClosedEarly after) : ClosedEarly (text ++ (SCRIPT ++ (mid ++ (CLOSE ++ after))))

section Pages

theorem Element.src_infix_startTag (e : Element) :
    SRC <:+: e.startTag ↔ SRC <:+: SCRIPT ++ e.attrs := by
  unfold Element.startTag
  rw [← List.append_assoc]
  exact Search.infix_concat_of_not_mem (by decide)

theorem Element.one_close (e : Element) : ¬CLOSE <:+: e.attrs ++ '>' :: e.body := by
  have htag : '<' ∉ e.attrs ++ ['>'] := by simp [e.oneTag.2]
  have hsplit : e.attrs ++ '>' :: e.body = (e.attrs ++ ['>']) ++ e.body := by simp
  rw [hsplit, CLOSE_eq, Search.infix_append_of_not_mem htag]
  exact e.inside

-- Every page is read from the left in one of these ways.
theorem script_induction {P : List Char → Prop}
    (noScript : ∀ {text}, ¬SCRIPT <:+: text → P text)
    (noClose : ∀ {text after}, ¬SCRIPT <:+: text → ¬CLOSE <:+: after →
      P (text ++ (SCRIPT ++ after)))
    (script : ∀ {text mid after}, ¬SCRIPT <:+: text → ¬CLOSE <:+: mid → P after →
      P (text ++ (SCRIPT ++ (mid ++ (CLOSE ++ after))))) (page : List Char) : P page := by
  induction hn : page.length using Nat.strong_induction_on generalizing page with
  | _ n ih =>
      by_cases hscript : SCRIPT <:+: page
      · obtain ⟨text, rest, rfl, htext⟩ := Search.exists_first (by decide) hscript
        by_cases hclose : CLOSE <:+: rest
        · obtain ⟨mid, after, rfl, hmid⟩ := Search.exists_first (by decide) hclose
          have hshorter : after.length < n := by
            simp only [List.length_append, SCRIPT_eq, List.length_cons] at hn
            omega
          exact script htext hmid (ih _ hshorter after rfl)
        · exact noClose htext hclose
      · exact noScript hscript

variable [Digest] (hashes : List String)

theorem returns_of_no_script {text : List Char} (h : ¬SCRIPT <:+: text) :
    Returns Scan.turn ⟨text, hashes⟩ (.ok hashes) :=
  Loop.returns_of_leave (turn_of_no_script hashes h)

theorem returns_script {text attrs body after : List Char} {result : Except Panic (List String)}
    (htext : ¬SCRIPT <:+: text) (hattrs : '>' ∉ attrs) (hbody : ¬CLOSE <:+: attrs ++ '>' :: body)
    (h : Returns Scan.turn ⟨after, push hashes (SCRIPT ++ attrs) body⟩ result) :
    Returns Scan.turn ⟨text ++ (SCRIPT ++ (attrs ++ '>' :: (body ++ (CLOSE ++ after)))), hashes⟩
      result := by
  have hturn := turn_script hashes htext (attrs ++ '>' :: (body ++ (CLOSE ++ after)))
  rw [element_script hashes hattrs hbody] at hturn
  exact .of_next hturn h

theorem panics_of_no_gt {text mid : List Char} (htext : ¬SCRIPT <:+: text) (hmid : '>' ∉ mid)
    (after : List Char) :
    Returns Scan.turn ⟨text ++ (SCRIPT ++ (mid ++ (CLOSE ++ after))), hashes⟩ (.error .slice) := by
  apply Loop.returns_of_error
  rw [turn_script hashes htext, element_of_no_gt hashes hmid]

theorem panics_of_closedEarly {page : List Char} (h : ClosedEarly page) :
    Returns Scan.turn ⟨page, hashes⟩ (.error .slice) := by
  induction h generalizing hashes with
  | here after htext hmid => exact panics_of_no_gt hashes htext hmid after
  | @later text mid after htext hmid h ih =>
      by_cases hgt : '>' ∈ mid
      · obtain ⟨attrs, body, rfl, hattrs⟩ := List.eq_append_cons_of_mem hgt
        have hrest := returns_script hashes htext hattrs hmid (ih _)
        simpa using hrest
      · exact panics_of_no_gt hashes htext hgt after

-- The hashes are of bodies of the page.
theorem returns_of_not_closedEarly {page : List Char} (h : ¬ClosedEarly page) :
    ∃ bodies : List (List Char),
      Returns Scan.turn ⟨page, hashes⟩ (.ok (hashes ++ bodies.map hashOf)) := by
  induction page using script_induction generalizing hashes with
  | noScript htext => exact ⟨[], by simpa using returns_of_no_script hashes htext⟩
  | @noClose text after htext hclose =>
      refine ⟨[], Loop.returns_of_leave ?_⟩
      rw [turn_script hashes htext, element_of_no_close hashes hclose]
      simp
  | @script text mid after htext hmid ih =>
      have hgt : '>' ∈ mid := by
        by_contra hnone
        exact h (.here after htext hnone)
      obtain ⟨attrs, body, rfl, hattrs⟩ := List.eq_append_cons_of_mem hgt
      obtain ⟨bodies, hbodies⟩ := ih (push hashes (SCRIPT ++ attrs) body)
        fun hafter => h (.later htext hmid hafter)
      have hrest := returns_script hashes htext hattrs hmid hbodies
      by_cases hsrc : SRC <:+: SCRIPT ++ attrs
      · refine ⟨bodies, ?_⟩
        simpa [push, hsrc] using hrest
      · refine ⟨body :: bodies, ?_⟩
        simpa [push, hsrc] using hrest

theorem returns_page (first : Words) (scripts : List (Element × Words)) :
    Returns Scan.turn ⟨(Page.mk first scripts).text, hashes⟩
      (.ok (hashes ++ (inlineBodies scripts).map hashOf)) := by
  induction scripts generalizing first hashes with
  | nil => simpa [Page.text, inlineBodies] using returns_of_no_script hashes first.2
  | cons script scripts ih =>
      obtain ⟨e, next⟩ := script
      have hnext := ih (push hashes (SCRIPT ++ e.attrs) e.body) next
      have hall := returns_script hashes first.2 e.oneTag.1 e.one_close hnext
      have htext : first.1 ++ (SCRIPT ++ (e.attrs ++ '>' :: (e.body ++
          (CLOSE ++ (Page.mk next scripts).text)))) =
          (Page.mk first ((e, next) :: scripts)).text := by
        simp [Page.text, Element.text, Element.startTag]
      rw [htext] at hall
      by_cases hsrc : SRC <:+: SCRIPT ++ e.attrs
      · simpa [push, hsrc, inlineBodies, e.src_infix_startTag] using hall
      · simpa [push, hsrc, inlineBodies, e.src_infix_startTag] using hall

end Pages

section Results

variable [Digest]

-- The loop ends without a slice that is out of order, with the hashes that the page asks for,
-- exactly when no script of the page is closed before its tag ends.
theorem script_hashes_exact (page : String) :
    ((∃ turns hashes, scriptHashes turns page = some (.ok hashes)) ∧
      ∀ parts : Page, parts.text = page.toList → ∃ turns,
        scriptHashes turns page = some (.ok ((inlineBodies parts.scripts).map hashOf))) ↔
      ¬ClosedEarly page.toList := by
  constructor
  · rintro ⟨⟨turns, hashes, hreturns⟩, -⟩ hearly
    have hpanics := panics_of_closedEarly [] hearly
    have hboth := Loop.Returns.unique ⟨turns, hreturns⟩ hpanics
    cases hboth
  · intro hnone
    constructor
    · obtain ⟨bodies, turns, hreturns⟩ := returns_of_not_closedEarly [] hnone
      exact ⟨turns, _, hreturns⟩
    · intro parts hparts
      have hpage := returns_page [] parts.first parts.scripts
      rw [hparts] at hpage
      exact hpage

end Results

-- A page without a whole script tag needs no hash.
@[reducible] def noDigest : Digest where
  sha256 := fun _ => []
  base64 := fun _ => ""

theorem script_hashes_panics_at_tag : ¬∃ turns hashes,
    @scriptHashes noDigest turns "<p><script</script>" = some (.ok hashes) := by
  rintro ⟨turns, hashes, hreturns⟩
  have hpanics : @scriptHashes noDigest 1 "<p><script</script>" = some (.error .slice) := by
    decide +kernel
  have hboth := Loop.Returns.unique ⟨turns, hreturns⟩ ⟨1, hpanics⟩
  cases hboth

section Csp

-- A text that a header can hold.
def plain (text : String) : Bool := text.toUTF8.data.toList.all ClientIp.visible

@[simp] theorem plain_append (a b : String) : plain (a ++ b) = (plain a && plain b) := by
  simp [plain]

theorem headerOf_plain {text : String} (h : plain text = true) :
    ∃ value, headerOf text = .ok value := by
  refine ⟨text.toUTF8.data.toList, ?_⟩
  have hfrom : fromStr text = some text.toUTF8.data.toList := if_pos h
  simp only [headerOf, hfrom]

theorem plain_stripPrefix {pre text rest : String} (h : stripPrefix pre text = some rest)
    (htext : plain text = true) : plain rest = true := by
  unfold stripPrefix at h
  by_cases hpre : pre.toList <+: text.toList
  · rw [if_pos hpre] at h
    obtain ⟨after, hafter⟩ := hpre
    have hrest : rest = String.ofList after := by
      rw [← Option.some.inj h, ← hafter, ← String.length_toList, List.drop_left]
    have hsplit : text = pre ++ rest := by
      rw [← String.toList_inj, String.toList_append, hrest, String.toList_ofList, hafter]
    rw [hsplit, plain_append, Bool.and_eq_true] at htext
    exact htext.2
  · rw [if_neg hpre] at h
    cases h

theorem plain_socket {publicOrigin : Option String}
    (horigin : ∀ o ∈ publicOrigin, plain o = true) : plain (socket publicOrigin) = true := by
  cases publicOrigin with
  | none => rfl
  | some o =>
      have ho := horigin o rfl
      simp only [socket, Option.bind_some]
      cases hsecure : stripPrefix "https://" o with
      | some rest =>
          have hrest := plain_stripPrefix hsecure ho
          simp [hrest]
          decide
      | none =>
          cases hopen : stripPrefix "http://" o with
          | some rest =>
              have hrest := plain_stripPrefix hopen ho
              simp [hrest]
              decide
          | none => rfl

theorem plain_foldl {hashes : List String} (h : ∀ hash ∈ hashes, plain hash = true) {src : String}
    (hsrc : plain src = true) :
    plain (hashes.foldl (fun src hash => src ++ " " ++ hash) src) = true := by
  induction hashes generalizing src with
  | nil => exact hsrc
  | cons hash hashes ih =>
      apply ih (fun other hin => h other (List.mem_cons_of_mem _ hin))
      have hspace : plain " " = true := by decide +kernel
      have hhash := h hash List.mem_cons_self
      simp [hsrc, hspace, hhash]

theorem plain_policy {hashes : List String} {publicOrigin : Option String}
    (hhashes : ∀ hash ∈ hashes, plain hash = true)
    (horigin : ∀ o ∈ publicOrigin, plain o = true) : plain (policy hashes publicOrigin) = true := by
  have hself : plain "'self'" = true := by decide +kernel
  have hsrc := plain_foldl hhashes hself
  have hsocket := plain_socket horigin
  have hscript : plain "default-src 'self'; script-src " = true := by decide +kernel
  have hstyle : plain "; style-src 'self' 'unsafe-inline'; " = true := by decide +kernel
  have himg : plain "img-src 'self' data:; connect-src 'self'" = true := by decide +kernel
  have hobject : plain "; object-src 'none'; base-uri 'none'; " = true := by decide +kernel
  have hform : plain "form-action 'self'; frame-ancestors 'none'" = true := by decide +kernel
  unfold policy
  simp only [plain_append, Bool.and_eq_true]
  exact ⟨⟨⟨⟨⟨⟨hscript, hsrc⟩, hstyle⟩, himg⟩, hsocket⟩, hobject⟩, hform⟩

theorem plain_hashOf [Digest] (hdigest : ∀ bytes, plain (Digest.base64 bytes) = true)
    (body : List Char) : plain (hashOf body) = true := by
  have hstart : plain "'sha256-" = true := by decide +kernel
  have hend : plain "'" = true := by decide +kernel
  simp [hashOf, hstart, hend, hdigest]

-- The server starts exactly when no script of its page is closed before its tag ends.
theorem csp_returns_iff [Digest] (hdigest : ∀ bytes, plain (Digest.base64 bytes) = true)
    (page : String) {publicOrigin : Option String} (horigin : ∀ o ∈ publicOrigin, plain o = true) :
    (∃ turns value, csp turns page publicOrigin = some (.ok value)) ↔ ¬ClosedEarly page.toList := by
  constructor
  · rintro ⟨turns, value, hvalue⟩ hearly
    unfold csp at hvalue
    obtain ⟨result, hresult, hbind⟩ := Option.map_eq_some_iff.mp hvalue
    have hpanic := Loop.Returns.unique ⟨turns, hresult⟩ (panics_of_closedEarly [] hearly)
    rw [hpanic] at hbind
    cases hbind
  · intro hnone
    obtain ⟨bodies, turns, hreturns⟩ := returns_of_not_closedEarly [] hnone
    have hhashes : ∀ hash ∈ [] ++ bodies.map hashOf, plain hash = true := by
      intro hash hin
      obtain ⟨body, -, rfl⟩ := List.mem_map.mp hin
      exact plain_hashOf hdigest body
    obtain ⟨value, hvalue⟩ := headerOf_plain (plain_policy hhashes horigin)
    refine ⟨turns, value, ?_⟩
    have hscan : scriptHashes turns page = some (.ok ([] ++ bodies.map hashOf)) := hreturns
    rw [csp, hscan, Option.map_some, Except.bind, hvalue]

end Csp

end Lodger.Security
