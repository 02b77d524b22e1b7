import Lodger.Audit

namespace Lodger.Audit

open Lodger.Lib Lodger.Lib.Calendar

section Journal

variable [SerdeJson] (display : IpAddr → String)

-- One call of `record`: where the copy goes, and whether the socket takes it.
structure Copy where
  journal : Journal
  sent : Bool
  entry : Entry

def Copy.write (copy : Copy) (out : Output) : Wrote × Output :=
  copy.journal.write copy.sent (copy.entry.line display) out

def written (copies : List Copy) : Output :=
  copies.foldl (fun out copy => (copy.write display out).2) {}

-- The lines of the entries whose copies went to a place.
def linesTo (place : Wrote) (copies : List Copy) : List (List Char) :=
  (copies.filter fun copy => (copy.write display {}).1 = place).map (·.entry.line display)

def fields (line : List Char) : List (List Char) :=
  ["SYSLOG_IDENTIFIER=lodger".toList, "PRIORITY=5".toList, "MESSAGE=".toList ++ line, []]

omit [SerdeJson] in
theorem intercalate_lines (a b c line : List Char) :
    (a ++ '\n' :: (b ++ '\n' :: c)) ++ line ++ ['\n'] =
      ['\n'].intercalate [a, b, c ++ line, []] := by
  simp [List.intercalate_cons_cons]

omit [SerdeJson] in
theorem message_lines (line : List Char) : message line = ['\n'].intercalate (fields line) := by
  have hhead : "SYSLOG_IDENTIFIER=lodger\nPRIORITY=5\nMESSAGE=".toList =
      "SYSLOG_IDENTIFIER=lodger".toList ++
        '\n' :: ("PRIORITY=5".toList ++ '\n' :: "MESSAGE=".toList) := by decide +kernel
  exact (congrArg (fun text => text ++ line ++ ['\n']) hhead).trans (intercalate_lines _ _ _ line)

omit [SerdeJson] in
theorem splitOn_message {line : List Char} (h : '\n' ∉ line) :
    (message line).splitOn '\n' = fields line := by
  have hfixed : ∀ part ∈ ["SYSLOG_IDENTIFIER=lodger".toList, "PRIORITY=5".toList,
      "MESSAGE=".toList], '\n' ∉ part := by decide +kernel
  rw [message_lines]
  refine List.splitOn_intercalate _ ?_ (by simp [fields])
  intro part hpart
  simp only [fields, List.mem_cons, List.not_mem_nil, or_false] at hpart
  obtain rfl | rfl | rfl | rfl := hpart
  · exact hfixed _ (by simp)
  · exact hfixed _ (by simp)
  · rw [List.mem_append, not_or]
    exact ⟨hfixed _ (by simp), h⟩
  · exact List.not_mem_nil

omit [SerdeJson] in
theorem flatMap_lines (lines : List (List Char)) :
    lines.flatMap (· ++ ['\n']) = ['\n'].intercalate (lines ++ [[]]) := by
  induction lines with
  | nil => rfl
  | cons line lines ih =>
      have hne : lines ++ [[]] ≠ [] := by simp
      rw [List.flatMap_cons, ih, List.cons_append, List.intercalate_cons_of_ne_nil hne]

-- What a run of copies leaves is their lines.
theorem written_eq (copies : List Copy) : written display copies =
    ⟨(linesTo display .stderr copies).flatMap (· ++ ['\n']),
      (linesTo display .socket copies).map message⟩ := by
  induction copies using List.reverseRecOn with
  | nil => rfl
  | append_singleton copies copy ih =>
      have hstep : written display (copies ++ [copy]) =
          (copy.write display (written display copies)).2 := by
        simp [written]
      rw [hstep, ih]
      by_cases hsent : copy.journal = .socket ∧ copy.sent
      · simp [Copy.write, Journal.write, hsent, linesTo]
      · simp [Copy.write, Journal.write, hsent, linesTo]

variable {display} in
theorem newline_of_line (hjson : ∀ value, '\n' ∉ (SerdeJson.toString value).toList)
    (entry : Entry) : '\n' ∉ entry.line display := by
  have hhead : '\n' ∉ "lodger: audit: ".toList := by decide +kernel
  intro hmem
  obtain hmem | hmem := List.mem_append.mp hmem
  · exact hhead hmem
  · exact hjson _ hmem

-- Whatever the texts of the entries are, each copy is one line of its own: what stderr has got is
-- the lines of its entries, and each message has the three fields that Lodger writes.
theorem journal_copies_exact (hjson : ∀ value, '\n' ∉ (SerdeJson.toString value).toList)
    (copies : List Copy) :
    (written display copies).stderr.splitOn '\n' = linesTo display .stderr copies ++ [[]] ∧
      (written display copies).socket.map (·.splitOn '\n') =
        (linesTo display .socket copies).map fields := by
  have hline : ∀ place, ∀ line ∈ linesTo display place copies, '\n' ∉ line := by
    intro place line hmem
    obtain ⟨copy, -, rfl⟩ := List.mem_map.mp hmem
    exact newline_of_line hjson copy.entry
  rw [written_eq]
  constructor
  · show ((linesTo display .stderr copies).flatMap (· ++ ['\n'])).splitOn '\n' = _
    rw [flatMap_lines]
    refine List.splitOn_intercalate _ ?_ (by simp)
    intro part hpart
    obtain hpart | hpart := List.mem_append.mp hpart
    · exact hline .stderr part hpart
    · rw [List.mem_singleton.mp hpart]
      exact List.not_mem_nil
  · rw [List.map_map]
    refine List.map_congr_left ?_
    intro line hmem
    exact splitOn_message (hline .socket line hmem)

end Journal

-- A name with a newline in it, which JSON writes as two characters.
section Forged

def forgedEntry : Entry := { event := "login.failed", account := some "a\nb" }

local instance forgedJson : SerdeJson where
  toString
    | .object [("event", .string "login.failed"), ("account", .string "a\nb"), ("result", _)] =>
        "\x7b\"event\":\"login.failed\",\"account\":\"a\\nb\",\"result\":\"ok\"\x7d"
    | _ => ""

theorem journal_copies_exact_forged :
    (written (fun _ => "") [⟨.socket, false, forgedEntry⟩]).stderr.splitOn '\n' =
      [forgedEntry.line fun _ => "", []] := by
  have hjson : ∀ value, '\n' ∉ (SerdeJson.toString value).toList := by
    intro value
    unfold SerdeJson.toString forgedJson
    dsimp only
    split
    · decide +kernel
    · decide +kernel
  exact (journal_copies_exact (fun _ => "") hjson [⟨.socket, false, forgedEntry⟩]).1

end Forged

section Table

variable {s t : State} {act : Action}

def Recorded.row (r : Recorded) : AuditRow := ⟨iso8601 r.time, r.entry⟩

-- The rows that the table must have: those that were stored and are not too old.
def State.kept (s : State) : List Recorded :=
  s.journal.filter fun r => r.stored && s.cutoff.all fun cut => decide (cut ≤ r.time)

structure Inv (start : Int) (s : State) : Prop where
  from_start : start ≤ s.clock
  until_last : s.clock ≤ LAST
  times : ∀ r ∈ s.journal, start ≤ r.time ∧ r.time ≤ s.clock
  cutoff : ∀ cut ∈ s.cutoff, cut ≤ s.clock - KEEP_DAYS * DAY
  rows : s.rows = s.kept.map Recorded.row

-- The statement compares the texts of two times as the times.
theorem young_iff {cut : Int} {r : Recorded} (hcut : FIRST ≤ cut) (hcut' : cut ≤ LAST)
    (hr : FIRST ≤ r.time) (hr' : r.time ≤ LAST) :
    (!decide (r.row.ts < iso8601 cut)) = decide (cut ≤ r.time) := by
  rw [← decide_not, decide_eq_decide, ← not_lt]
  exact not_congr (iso8601_lt_iff hr hr' hcut hcut')

theorem Inv.step {start : Int} (hstart : FIRST + KEEP_DAYS * DAY ≤ start) (h : Inv start s)
    (hstep : Audit.step s act = some t) : Inv start t := by
  have hkeep : (0 : Int) ≤ KEEP_DAYS * DAY := by decide
  unfold Audit.step at hstep
  rw [Option.ite_none_right_eq_some] at hstep
  obtain ⟨⟨hclock, hlast⟩, ht⟩ := hstep
  cases ht
  have hfrom := h.from_start.trans hclock
  cases act with
  | record entry now stored =>
      simp only [Action.now] at hclock hlast hfrom ⊢
      refine ⟨hfrom, hlast, ?_, ?_, ?_⟩
      · intro r hr
        rcases List.mem_append.mp hr with hr | hr
        · exact ⟨(h.times r hr).1, (h.times r hr).2.trans hclock⟩
        · rw [List.mem_singleton.mp hr]
          exact ⟨hfrom, le_refl _⟩
      · intro cut hcut
        have := h.cutoff cut hcut
        show cut ≤ now - _
        omega
      · have hpass : s.cutoff.all (fun cut => decide (cut ≤ now)) = true := by
          rw [Option.all_eq_true]
          intro cut hcut
          have := h.cutoff cut hcut
          exact decide_eq_true (by omega)
        show (if stored then insert now entry s.rows else s.rows) = _
        simp only [State.kept, State.perform, List.filter_append, List.map_append, h.rows]
        cases stored with
        | true => simp [insert, hpass, Recorded.row]
        | false => simp
  | tick now =>
      simp only [Action.now] at hclock hlast hfrom ⊢
      refine ⟨hfrom, hlast, ?_, ?_, ?_⟩
      · exact fun r hr => ⟨(h.times r hr).1, (h.times r hr).2.trans hclock⟩
      · intro cut hcut
        cases hcut
        exact le_refl _
      · show deleteOldAuditRows now KEEP_DAYS s.rows = _
        rw [h.rows, deleteOldAuditRows, List.filter_map]
        congr 1
        simp only [State.kept, State.perform, List.filter_filter]
        apply List.filter_congr
        intro r hr
        obtain ⟨hr, hr'⟩ := h.times r hr
        have hlast' := h.until_last
        have hyoung := young_iff (show FIRST ≤ now - KEEP_DAYS * DAY by omega) (by omega)
          (show FIRST ≤ r.time by omega) (by omega)
        simp only [Function.comp_apply, hyoung, Option.all_some]
        by_cases hnew : now - KEEP_DAYS * DAY ≤ r.time
        · have hpass : s.cutoff.all (fun cut => decide (cut ≤ r.time)) = true := by
            rw [Option.all_eq_true]
            intro cut hcut
            have := h.cutoff cut hcut
            exact decide_eq_true (by omega)
          simp [hnew, hpass]
        · simp [hnew]
  | tickFails now =>
      simp only [Action.now] at hclock hlast hfrom ⊢
      refine ⟨hfrom, hlast, ?_, ?_, h.rows⟩
      · exact fun r hr => ⟨(h.times r hr).1, (h.times r hr).2.trans hclock⟩
      · intro cut hcut
        have := h.cutoff cut hcut
        show cut ≤ now - _
        omega

-- The table is the log of the last 365 days: in every run it has the stored entries, in the
-- order in which they were recorded, from the cutoff of the last deletion on, and a deletion
-- never takes a row of the last 365 days.
theorem audit_rows_exact (start : Int) (hstart : FIRST + KEEP_DAYS * DAY ≤ start)
    (hlast : start ≤ LAST) (acts : List Action) (h : exec step { clock := start } acts = some t) :
    t.rows = t.kept.map Recorded.row ∧
      (∀ cut ∈ t.cutoff, cut ≤ t.clock - KEEP_DAYS * DAY) ∧
      ∀ r ∈ t.journal, r.stored = true → t.clock - KEEP_DAYS * DAY ≤ r.time → r.row ∈ t.rows := by
  have hinv : Inv start t := by
    have hbegin : Inv start { clock := start } :=
      ⟨le_refl _, hlast, by simp, by simp, rfl⟩
    exact exec_invariant_all (Inv start) (fun s a u hs hu => hs.step hstart hu) hbegin h
  refine ⟨hinv.rows, hinv.cutoff, ?_⟩
  intro r hr hstored hyoung
  rw [hinv.rows]
  apply List.mem_map_of_mem
  rw [State.kept, List.mem_filter, hstored, Bool.true_and, Option.all_eq_true]
  refine ⟨hr, fun cut hcut => decide_eq_true ?_⟩
  have := hinv.cutoff cut hcut
  omega

theorem audit_rows_exact_after_a_year : ∃ t, exec step { clock := 1790000000000 }
    [.record (.ok "a") 1790000000000 true, .tick 1830000000000,
      .record (.failed "b" "c") 1830000000000 true] = some t ∧
        t.rows = t.kept.map Recorded.row := by
  have hrun : ∃ t, exec step { clock := 1790000000000 }
      [.record (.ok "a") 1790000000000 true, .tick 1830000000000,
        .record (.failed "b" "c") 1830000000000 true] = some t := ⟨_, rfl⟩
  obtain ⟨t, ht⟩ := hrun
  exact ⟨t, ht, (audit_rows_exact 1790000000000 (by decide) (by decide) _ ht).1⟩

end Table

end Lodger.Audit
