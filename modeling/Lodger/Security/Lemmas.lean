import Lodger.Security

namespace Lodger.Security

open Search (find dropAt takeAt slice size)

theorem SCRIPT_eq : SCRIPT = '<' :: ['s', 'c', 'r', 'i', 'p', 't'] := rfl

theorem CLOSE_eq : CLOSE = '<' :: ['/', 's', 'c', 'r', 'i', 'p', 't', '>'] := rfl

-- The closing tag up to its '>'.
def SHUT : List Char := "</script".toList

theorem CLOSE_eq_append : CLOSE = SHUT ++ ['>'] := rfl

theorem close_infix_script_append (after : List Char) :
    CLOSE <:+: SCRIPT ++ after ↔ CLOSE <:+: after := by
  simp [SCRIPT_eq, CLOSE_eq, List.infix_cons_iff]

theorem gt_not_mem_script_append {mid : List Char} : '>' ∉ SCRIPT ++ mid ↔ '>' ∉ mid := by
  simp [SCRIPT_eq]

section Find

-- Every character takes at least one byte.
theorem dropAt_len_append (text after : List Char) :
    dropAt Char.utf8Size (text ++ after) (len text) = some after :=
  Search.dropAt_append _ Char.utf8Size_pos text after

theorem takeAt_len_append (text after : List Char) :
    takeAt Char.utf8Size (text ++ after) (len text) = some text :=
  Search.takeAt_append _ Char.utf8Size_pos text after

theorem find_script {text : List Char} (h : ¬SCRIPT <:+: text) (after : List Char) :
    find Char.utf8Size SCRIPT (text ++ (SCRIPT ++ after)) = some (len text) := by
  rw [SCRIPT_eq] at h ⊢
  exact Search.find_append _ (by decide) h after

theorem find_close {text : List Char} (h : ¬CLOSE <:+: text) (after : List Char) :
    find Char.utf8Size CLOSE (text ++ (CLOSE ++ after)) = some (len text) := by
  rw [CLOSE_eq] at h ⊢
  exact Search.find_append _ (by decide) h after

theorem find_gt {text : List Char} (h : '>' ∉ text) (after : List Char) :
    find Char.utf8Size ['>'] (text ++ '>' :: after) = some (len text) :=
  Search.find_append _ List.not_mem_nil (fun hin => h ((List.singleton_infix_iff _ _).mp hin)) after

end Find

section Turn

variable [Digest] {text mid after : List Char} (hashes : List String)

theorem turn_of_no_script (h : ¬SCRIPT <:+: text) :
    Scan.turn ⟨text, hashes⟩ = .ok (.inr hashes) := by
  simp only [Scan.turn, (Search.find_eq_none_iff _ text).mpr h]

theorem turn_script (h : ¬SCRIPT <:+: text) (after : List Char) :
    Scan.turn ⟨text ++ (SCRIPT ++ after), hashes⟩ = Scan.element ⟨SCRIPT ++ after, hashes⟩ := by
  simp only [Scan.turn, find_script h, dropAt_len_append]
  rfl

theorem element_of_no_close (h : ¬CLOSE <:+: after) :
    Scan.element ⟨SCRIPT ++ after, hashes⟩ = .ok (.inr hashes) := by
  have hclose : find Char.utf8Size CLOSE (SCRIPT ++ after) = none := by
    rw [Search.find_eq_none_iff, close_infix_script_append]
    exact h
  simp only [Scan.element, hclose]
  cases find Char.utf8Size ['>'] (SCRIPT ++ after) with
  | none => rfl
  | some openEnd => rfl

-- Without a '>' in the script the first one is the last character of the closing tag.
theorem element_of_no_gt (h : '>' ∉ mid) (after : List Char) :
    Scan.element ⟨SCRIPT ++ (mid ++ (CLOSE ++ after)), hashes⟩ = .error .slice := by
  have hinside : ¬CLOSE <:+: SCRIPT ++ mid := by
    intro hin
    exact gt_not_mem_script_append.mpr h (hin.subset (by decide))
  have hopen : find Char.utf8Size ['>'] (SCRIPT ++ (mid ++ (CLOSE ++ after))) =
      some (len (SCRIPT ++ (mid ++ SHUT))) := by
    have hnone : '>' ∉ SCRIPT ++ (mid ++ SHUT) := by
      simp only [List.mem_append, not_or]
      exact ⟨by decide, h, by decide⟩
    have hfind := find_gt hnone after
    simpa [CLOSE_eq_append] using hfind
  have hclose : find Char.utf8Size CLOSE (SCRIPT ++ (mid ++ (CLOSE ++ after))) =
      some (len (SCRIPT ++ mid)) := by
    rw [← List.append_assoc]
    exact find_close hinside after
  have htag : takeAt Char.utf8Size (SCRIPT ++ (mid ++ (CLOSE ++ after)))
      (len (SCRIPT ++ (mid ++ SHUT))) = some (SCRIPT ++ (mid ++ SHUT)) := by
    have htake := takeAt_len_append (SCRIPT ++ (mid ++ SHUT)) ('>' :: after)
    simpa [CLOSE_eq_append] using htake
  have hbody : slice Char.utf8Size (SCRIPT ++ (mid ++ (CLOSE ++ after)))
      (len (SCRIPT ++ (mid ++ SHUT)) + 1) (len (SCRIPT ++ mid)) = none := by
    apply Search.slice_eq_none
    simp only [len, Search.size_append]
    omega
  simp only [Scan.element, hopen, hclose, Scan.script, htag, hbody]
  rfl

theorem element_script {attrs body : List Char} (hattrs : '>' ∉ attrs)
    (hbody : ¬CLOSE <:+: attrs ++ '>' :: body) (after : List Char) :
    Scan.element ⟨SCRIPT ++ (attrs ++ '>' :: (body ++ (CLOSE ++ after))), hashes⟩ =
      .ok (.inl ⟨after, push hashes (SCRIPT ++ attrs) body⟩) := by
  have hinside : ¬CLOSE <:+: SCRIPT ++ (attrs ++ '>' :: body) := by
    rw [close_infix_script_append]
    exact hbody
  have hopen : find Char.utf8Size ['>'] (SCRIPT ++ (attrs ++ '>' :: (body ++ (CLOSE ++ after)))) =
      some (len (SCRIPT ++ attrs)) := by
    rw [← List.append_assoc]
    exact find_gt (gt_not_mem_script_append.mpr hattrs) _
  have hclose : find Char.utf8Size CLOSE (SCRIPT ++ (attrs ++ '>' :: (body ++ (CLOSE ++ after)))) =
      some (len (SCRIPT ++ (attrs ++ '>' :: body))) := by
    have hfind := find_close hinside after
    simpa using hfind
  have htag : takeAt Char.utf8Size (SCRIPT ++ (attrs ++ '>' :: (body ++ (CLOSE ++ after))))
      (len (SCRIPT ++ attrs)) = some (SCRIPT ++ attrs) := by
    rw [← List.append_assoc]
    exact takeAt_len_append _ _
  have hslice : slice Char.utf8Size (SCRIPT ++ (attrs ++ '>' :: (body ++ (CLOSE ++ after))))
      (len (SCRIPT ++ attrs) + 1) (len (SCRIPT ++ (attrs ++ '>' :: body))) = some body := by
    have hfirst : len (SCRIPT ++ attrs) + 1 = len (SCRIPT ++ (attrs ++ ['>'])) := by
      have hgt : Char.utf8Size '>' = 1 := rfl
      simp only [len, Search.size_append, Search.size_cons, Search.size_nil, hgt]
      omega
    have hlast : len (SCRIPT ++ (attrs ++ '>' :: body)) =
        len (SCRIPT ++ (attrs ++ ['>'])) + len body := by
      simp only [len, Search.size_append, Search.size_cons, Search.size_nil]
      omega
    have hpart := Search.slice_append _ Char.utf8Size_pos (SCRIPT ++ (attrs ++ ['>'])) body
      (CLOSE ++ after)
    rw [hfirst, hlast]
    simpa [len] using hpart
  have hrest : dropAt Char.utf8Size (SCRIPT ++ (attrs ++ '>' :: (body ++ (CLOSE ++ after))))
      (len (SCRIPT ++ (attrs ++ '>' :: body)) + len CLOSE) = some after := by
    have hdrop := dropAt_len_append (SCRIPT ++ (attrs ++ '>' :: (body ++ CLOSE))) after
    have hsize : len (SCRIPT ++ (attrs ++ '>' :: (body ++ CLOSE))) =
        len (SCRIPT ++ (attrs ++ '>' :: body)) + len CLOSE := by
      simp only [len, Search.size_append, Search.size_cons]
      omega
    rw [hsize] at hdrop
    simpa using hdrop
  simp only [Scan.element, hopen, hclose, Scan.script, htag, hslice, hrest]
  rfl

end Turn

end Lodger.Security
