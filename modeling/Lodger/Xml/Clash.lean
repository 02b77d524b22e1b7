import Lodger.Xml.Folders
import Lodger.Xml.Theorems

namespace Lodger.Xml

open Lib Validate

-- The text spells the path with slashes of its own.
structure Spelling (text : String) (path : PlainPath) : Prop where
  absolute : text.toList.head? = some '/'
  same : segments text = segments path.text
  short : len text ≤ PATH_MAX_LEN

-- A document of the pool that another tool wrote.
structure Spells (doc : PoolXml) (pool : NewPool) : Prop where
  folder : ∃ text, doc.targetPath = some text ∧ Spelling text pool.path
  noSource : pool.source = .dir → doc.nfsSource = none
  nfsSource : ∀ host exported, pool.source = .nfs host exported →
    ∃ text, doc.nfsSource = some (host.name, text) ∧ Spelling text exported

-- The pools have a folder or an export in common.
def Clash (p q : NewPool) : Prop :=
  p.path = q.path ∨ ∃ host exported host' exported', p.source = .nfs host exported ∧
    q.source = .nfs host' exported' ∧ eqIgnoreAsciiCase host.name host'.name = true ∧
      exported = exported'

section Spellings

variable {text : String} {path : PlainPath}

theorem PlainPath.accepted (path : PlainPath) :
    Accepted path.text ∧ path.text = joined (segments path.text) :=
  (parsePath_eq_ok_iff _ _ _).mp path.parsePath_text

theorem PlainPath.ext_text {path other : PlainPath} (h : path.text = other.text) : path = other := by
  obtain ⟨text, htext⟩ := path
  obtain ⟨other, hother⟩ := other
  obtain rfl : text = other := h
  rfl

-- A text has only slashes and the characters of its segments.
theorem mem_segments (c : Char) (hc : c ∈ text.toList) :
    c = '/' ∨ ∃ part ∈ segments text, c ∈ part := by
  have hjoin : ['/'].intercalate (text.toList.splitOn '/') = text.toList :=
    List.intercalate_splitOn '/'
  rw [← hjoin] at hc
  obtain rfl | ⟨part, hpart, hmem⟩ := Split.mem_intercalate _ c hc
  · exact Or.inl rfl
  · refine Or.inr ⟨part, List.mem_filter.mpr ⟨hpart, ?_⟩, hmem⟩
    simpa using List.ne_nil_of_mem hmem

theorem mem_of_mem_segments {c : Char} {part : List Char} (hp : part ∈ segments text) (hc : c ∈ part) :
    c ∈ text.toList :=
  (Split.mem_of_mem_splitOn _ part (List.mem_of_mem_filter hp) c hc).1

theorem Spelling.plain_eq (h : Spelling text path) : plain text = some path.text := by
  obtain ⟨haccepted, htext⟩ := path.accepted
  have hchars : ∀ c ∈ text.toList, pathChar c := by
    intro c hc
    obtain rfl | ⟨part, hpart, hmem⟩ := mem_segments c hc
    · decide
    · rw [h.same] at hpart
      exact haccepted.chars c (mem_of_mem_segments hpart hmem)
  have hdots : ∀ part ∈ segments text, dotSegment part = false := by
    rw [h.same]
    exact haccepted.noDots
  have hparse := (parsePath_eq_ok_iff "path" text path.text).mpr
    ⟨⟨h.absolute, h.short, hdots, hchars⟩, by rw [h.same, ← htext]⟩
  rw [plain, hparse]
  rfl

theorem PlainPath.spelling (path : PlainPath) : Spelling path.text path := by
  obtain ⟨haccepted, -⟩ := path.accepted
  exact ⟨haccepted.absolute, rfl, haccepted.short⟩

end Spellings

section Check

variable {p q : NewPool} {doc : PoolXml}

theorem NewPool.spells_element (q : NewPool) : Spells ⟨q.element⟩ q := by
  obtain ⟨name, path, source⟩ := q
  cases source with
  | dir =>
      refine ⟨⟨path.text, ?_, path.spelling⟩, fun _ => ?_, fun _ _ heq => ?_⟩
      · simp [PoolXml.targetPath, NewPool.element, childText]
      · simp [PoolXml.nfsSource, PoolXml.poolType, NewPool.element, PoolSource.kind, List.lookup]
      · cases heq
  | nfs host exported =>
      refine ⟨⟨path.text, ?_, path.spelling⟩, fun heq => ?_, ?_⟩
      · simp [PoolXml.targetPath, NewPool.element, childText]
      · cases heq
      · intro host' exported' heq
        cases heq
        refine ⟨exported.text, ?_, exported.spelling⟩
        simp [PoolXml.nfsSource, PoolXml.poolType, NewPool.element, PoolSource.kind, List.lookup]

-- What the check of one pool looks at.
theorem Spells.folder_eq (h : Spells doc q) : doc.targetPath.bind plain = some q.path.text := by
  obtain ⟨text, htext, hspelling⟩ := h.folder
  rw [htext, Option.bind_some, hspelling.plain_eq]

theorem Spells.sharesExport_iff (h : Spells doc q) : p.sharesExport doc = true ↔
    ∃ host exported host' exported', p.source = .nfs host exported ∧ q.source = .nfs host' exported' ∧
      eqIgnoreAsciiCase host.name host'.name = true ∧ exported = exported' := by
  cases hp : p.source with
  | dir => simp [NewPool.sharesExport, hp]
  | nfs host exported =>
      cases hq : q.source with
      | dir => simp [NewPool.sharesExport, hp, h.noSource hq]
      | nfs host' exported' =>
          obtain ⟨text, hdoc, hspelling⟩ := h.nfsSource host' exported' hq
          simp only [NewPool.sharesExport, hp, hdoc, hspelling.plain_eq, Bool.and_eq_true,
            decide_eq_true_eq, Option.some.injEq]
          constructor
          · rintro ⟨hhost, htext⟩
            exact ⟨_, _, _, _, rfl, rfl, hhost, PlainPath.ext_text htext.symm⟩
          · rintro ⟨_, _, _, _, heq, heq', hhost, hexport⟩
            cases heq
            cases heq'
            exact ⟨hhost, by rw [hexport]⟩

theorem checkAgainst_singleton (p : NewPool) (name : String) (doc : PoolXml) :
    p.checkAgainst [(name, doc)] =
      if doc.targetPath.bind plain = some p.path.text then .error (.pathInUse "Pool folder" name)
      else if p.sharesExport doc then .error (.nfsExportInUse name) else .ok () := rfl

theorem Spells.clash_iff (h : Spells doc q) (p : NewPool) (name : String) :
    (∃ e, p.checkAgainst [(name, doc)] = .error e) ↔ Clash p q := by
  rw [checkAgainst_singleton, h.folder_eq, Clash, ← h.sharesExport_iff]
  by_cases hpath : p.path = q.path
  · simp [hpath]
  · have htext : ¬some q.path.text = some p.path.text := by
      intro heq
      exact hpath (PlainPath.ext_text (Option.some.inj heq).symm)
    rw [if_neg htext]
    by_cases hshares : p.sharesExport doc = true
    · simp [hshares]
    · simp [hshares, hpath]

-- Two documents of one pool get one answer.
theorem Spells.same_answer {other : PoolXml} (h : Spells doc q) (h' : Spells other q) (p : NewPool)
    (name : String) : p.checkAgainst [(name, doc)] = p.checkAgainst [(name, other)] := by
  have hshares : p.sharesExport doc = p.sharesExport other := by
    rw [Bool.eq_iff_iff, h.sharesExport_iff, h'.sharesExport_iff]
  rw [checkAgainst_singleton, checkAgainst_singleton, h.folder_eq, h'.folder_eq, hshares]

theorem eqIgnoreAsciiCase_comm (a b : String) : eqIgnoreAsciiCase a b = eqIgnoreAsciiCase b a := by
  simp only [eqIgnoreAsciiCase, eq_comm]

theorem Clash.symm (h : Clash p q) : Clash q p := by
  rcases h with hpath | ⟨host, exported, host', exported', hp, hq, hhost, hexport⟩
  · exact Or.inl hpath.symm
  · refine Or.inr ⟨host', exported', host, exported, hq, hp, ?_, hexport.symm⟩
    rw [eqIgnoreAsciiCase_comm]
    exact hhost

-- The check of a list is the check of its rows, in their order.
theorem checkAgainst_error_iff (p : NewPool) (existing : List (String × PoolXml)) (e : InputError) :
    p.checkAgainst existing = .error e ↔ ∃ before row after, existing = before ++ row :: after ∧
      (∀ earlier ∈ before, p.checkAgainst [earlier] = .ok ()) ∧ p.checkAgainst [row] = .error e := by
  induction existing with
  | nil => simp [NewPool.checkAgainst]
  | cons row rest ih =>
      obtain ⟨name, doc⟩ := row
      have hcons : p.checkAgainst ((name, doc) :: rest) =
          p.checkAgainst [(name, doc)] >>= fun _ => p.checkAgainst rest := by
        rw [checkAgainst_singleton, NewPool.checkAgainst]
        split
        · rfl
        · split
          · rfl
          · rfl
      cases hfirst : p.checkAgainst [(name, doc)] with
      | error found =>
          rw [hcons, hfirst]
          constructor
          · intro h
            cases h
            exact ⟨[], _, rest, rfl, nofun, hfirst⟩
          · rintro ⟨before, row, after, heq, hbefore, hrow⟩
            cases before with
            | nil =>
                cases heq
                rw [hfirst] at hrow
                exact hrow
            | cons first before =>
                cases heq
                have hok := hbefore _ List.mem_cons_self
                rw [hfirst] at hok
                cases hok
      | ok _ =>
          rw [hcons, hfirst]
          refine ih.trans ?_
          constructor
          · rintro ⟨before, row, after, rfl, hbefore, hrow⟩
            refine ⟨(name, doc) :: before, row, after, rfl, ?_, hrow⟩
            intro earlier hearlier
            obtain rfl | hearlier := List.mem_cons.mp hearlier
            · exact hfirst
            · exact hbefore earlier hearlier
          · rintro ⟨before, row, after, heq, hbefore, hrow⟩
            cases before with
            | nil =>
                cases heq
                rw [hfirst] at hrow
                cases hrow
            | cons first before =>
                cases heq
                exact ⟨before, row, after, rfl,
                  fun earlier he => hbefore earlier (List.mem_cons_of_mem _ he), hrow⟩

-- The error names the pool of the row.
theorem checkAgainst_names {name : String} {e : InputError}
    (h : p.checkAgainst [(name, doc)] = .error e) :
    e = .pathInUse "Pool folder" name ∨ e = .nfsExportInUse name := by
  rw [checkAgainst_singleton] at h
  split at h
  · cases h
    exact Or.inl rfl
  · split at h
    · cases h
      exact Or.inr rfl
    · cases h

variable [Xmltree] [Emitter]

-- The check of a new pool against existing ones is exact and symmetric, whoever wrote their
-- documents, and it names the first pool of the list that clashes.
theorem pool_clash_exact (p q : NewPool) (hp : Emitted p.element) (hq : Emitted q.element) :
    ∃ pDoc qDoc, PoolXml.parse p.toXml = .ok pDoc ∧ PoolXml.parse q.toXml = .ok qDoc ∧
      (∀ name, (∃ e, p.checkAgainst [(name, qDoc)] = .error e) ↔ Clash p q) ∧
      (∀ name, (∃ e, p.checkAgainst [(name, qDoc)] = .error e) ↔
        ∃ e, q.checkAgainst [(name, pDoc)] = .error e) ∧
      (∀ xml doc, PoolXml.parse xml = .ok doc → Spells doc q →
        ∀ name, p.checkAgainst [(name, doc)] = p.checkAgainst [(name, qDoc)]) ∧
      ∀ existing e, p.checkAgainst existing = .error e ↔
        ∃ before row after, existing = before ++ row :: after ∧
          (∀ earlier ∈ before, p.checkAgainst [earlier] = .ok ()) ∧
          p.checkAgainst [row] = .error e ∧
          (e = .pathInUse "Pool folder" row.1 ∨ e = .nfsExportInUse row.1) := by
  refine ⟨_, _, PoolXml.parse_toXml hp, PoolXml.parse_toXml hq, ?_, ?_, ?_, ?_⟩
  · exact q.spells_element.clash_iff p
  · intro name
    rw [q.spells_element.clash_iff p, p.spells_element.clash_iff q]
    exact ⟨Clash.symm, Clash.symm⟩
  · intro xml doc _ hspells name
    exact hspells.same_answer q.spells_element p name
  · intro existing e
    rw [checkAgainst_error_iff]
    constructor
    · rintro ⟨before, row, after, hsplit, hbefore, hrow⟩
      exact ⟨before, row, after, hsplit, hbefore, hrow, checkAgainst_names hrow⟩
    · rintro ⟨before, row, after, hsplit, hbefore, hrow, -⟩
      exact ⟨before, row, after, hsplit, hbefore, hrow⟩

end Check

-- Two NFS pools with one export.
section Exports

def exportText (name host folder : String) : String :=
  "<pool type=\"netfs\">\n  <name>" ++ name ++ "</name>\n  <source>\n    <host name=\"" ++ host ++
    "\" />\n    <dir path=\"/vm\" />\n    <format type=\"nfs\" />\n  </source>\n  <target>\n    " ++
    "<path>" ++ folder ++ "</path>\n  </target>\n</pool>"

def nasText : String := exportText "nas" "nas.lan" "/mnt/nas"
def againText : String := exportText "again" "NAS.lan" "/mnt/again"

def vmExport : PlainPath := ⟨"/vm", by decide +kernel⟩

def nasHost : Host := ⟨"nas.lan", by decide, List.all_eq_true.mp (by decide), by decide⟩
def upperHost : Host := ⟨"NAS.lan", by decide, List.all_eq_true.mp (by decide), by decide⟩

def nasPool : NewPool where
  name := ⟨"nas", by decide, List.all_eq_true.mp (by decide), by decide⟩
  path := ⟨"/mnt/nas", by decide +kernel⟩
  source := .nfs nasHost vmExport

def againPool : NewPool where
  name := ⟨"again", by decide, List.all_eq_true.mp (by decide), by decide⟩
  path := ⟨"/mnt/again", by decide +kernel⟩
  source := .nfs upperHost vmExport

local instance exportEmitter : Emitter where
  write e := if childText e "name" = some "nas" then nasText else againText

local instance exportTree : Xmltree where
  parse xml :=
    if xml = nasText then .ok nasPool.element
    else if xml = againText then .ok againPool.element
    else .error "syntax"

theorem export_escapes : ∀ text ∈ [nasText, againText], ∀ tail ∈ text.toList.tails,
    tail.head? = some '<' → ['/'] <+: tail.tail ∨
      ∃ name ∈ ["pool", "name", "source", "host", "dir", "format", "target", "path"],
        name.toList <+: tail.tail := by
  decide +kernel

theorem export_emitted {pool : NewPool} {text : String} (htext : text ∈ [nasText, againText])
    (hwrite : write pool.element = text) (hparse : Xmltree.parse text = .ok pool.element)
    (hnames : pool.element.names =
      ["pool", "name", "source", "host", "dir", "format", "target", "path"]) :
    Emitted pool.element := by
  refine ⟨?_, fun _ => by rw [hwrite, hparse]⟩
  intro before after heq
  have htail : '<' :: after ∈ text.toList.tails := by
    rw [List.mem_tails, ← hwrite, heq]
    exact List.suffix_append _ _
  rw [hnames]
  exact export_escapes text htext _ htail rfl

theorem pool_clash_exact_export : ∃ nasDoc againDoc, PoolXml.parse nasText = .ok nasDoc ∧
    PoolXml.parse againText = .ok againDoc ∧
    (∃ e, nasPool.checkAgainst [("again", againDoc)] = .error e) ∧
    ∃ e, againPool.checkAgainst [("nas", nasDoc)] = .error e := by
  have hwriteNas : write nasPool.element = nasText := by decide +kernel
  have hwriteAgain : write againPool.element = againText := by decide +kernel
  have hne : againText ≠ nasText := by decide +kernel
  have hnas : Emitted nasPool.element :=
    export_emitted (by simp) hwriteNas (if_pos rfl) (by decide +kernel)
  have hagain : Emitted againPool.element := by
    refine export_emitted (by simp) hwriteAgain ?_ (by decide +kernel)
    simp [Xmltree.parse, hne]
  obtain ⟨nasDoc, againDoc, hnasDoc, hagainDoc, hexact, hsymm, -⟩ :=
    pool_clash_exact nasPool againPool hnas hagain
  have hclash : Clash nasPool againPool :=
    Or.inr ⟨_, _, _, _, rfl, rfl, by decide, rfl⟩
  have herror := (hexact "again").mpr hclash
  refine ⟨nasDoc, againDoc, hnasDoc, hagainDoc, herror, ?_⟩
  exact (hsymm "nas").mp ((hexact "nas").mpr hclash)

end Exports

end Lodger.Xml
