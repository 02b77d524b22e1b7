import Lodger.Validate.Paths
import Lodger.Xml.Pool

namespace Lodger.Xml

open Lib Validate

-- The place is a system tree, below one, or a system folder.
def SystemPlace (parts : List (List Char)) : Prop :=
  (∃ tree ∈ SYSTEM_TREES, segments tree <+: parts) ∨
    ∃ folder ∈ SYSTEM_FOLDERS, parts = segments folder

section Folders

variable {value tree path : String}

theorem inTree_iff (htree : tree = joined (segments tree)) (hne : segments tree ≠ [])
    (hpath : path = joined (segments path)) :
    inTree path tree = true ↔ segments tree <+: segments path := by
  simp only [inTree, Bool.or_eq_true, decide_eq_true_eq, List.isPrefixOf_iff_prefix]
  constructor
  · rintro (heq | ⟨rest, hrest⟩)
    · rw [heq]
    · refine ⟨(rest.splitOn '/').filter (· ≠ []), ?_⟩
      simp only [segments]
      rw [← hrest, List.append_assoc, List.singleton_append, List.splitOn_append_cons_self,
        List.filter_append]
  · rintro ⟨more, hmore⟩
    by_cases hnil : more = []
    · rw [hnil, List.append_nil] at hmore
      exact Or.inl (by rw [hpath, ← hmore, ← htree])
    · refine Or.inr ⟨['/'].intercalate more, ?_⟩
      have htext : tree.toList = '/' :: ['/'].intercalate (segments tree) := by
        conv_lhs => rw [htree]
        simp [joined]
      rw [hpath, ← hmore, joined, String.toList_ofList, Split.intercalate_append _ _ hne hnil, htext]
      simp

theorem trees_plain : ∀ tree ∈ SYSTEM_TREES, tree = joined (segments tree) ∧ segments tree ≠ [] := by
  decide +kernel

theorem folders_plain : ∀ folder ∈ SYSTEM_FOLDERS, folder = joined (segments folder) := by
  decide +kernel

theorem refused_iff (hpath : path = joined (segments path)) :
    (SYSTEM_TREES.any (inTree path) || SYSTEM_FOLDERS.contains path) = true ↔
      SystemPlace (segments path) := by
  simp only [SystemPlace, Bool.or_eq_true, List.any_eq_true, List.contains_iff_mem]
  refine or_congr ?_ ?_
  · refine exists_congr fun tree => and_congr_right fun hm => ?_
    obtain ⟨htree, hne⟩ := trees_plain tree hm
    exact inTree_iff htree hne hpath
  · constructor
    · intro hm
      exact ⟨path, hm, rfl⟩
    · rintro ⟨folder, hm, heq⟩
      have hfolder := folders_plain folder hm
      rw [hpath, heq, ← hfolder]
      exact hm

theorem plainPath_eq_ok_iff (field value : String) (plain : PlainPath) :
    plainPath field value = .ok plain ↔ parsePath field value = .ok plain.text := by
  unfold plainPath
  split
  · next e he => simp [he]
  · next text ht =>
    obtain ⟨other, hother⟩ := plain
    simp [ht]

theorem targetPath_eq_ok_iff (value : String) (path : PlainPath) :
    targetPath value = .ok path ↔
      parsePath "Pool folder" value = .ok path.text ∧ ¬SystemPlace (segments value) := by
  have hspec : ∀ found : PlainPath, parsePath "Pool folder" value = .ok found.text →
      ((SYSTEM_TREES.any (inTree found.text) || SYSTEM_FOLDERS.contains found.text) = true ↔
        SystemPlace (segments value)) := by
    intro found hfound
    obtain ⟨-, htext⟩ := (parsePath_eq_ok_iff _ _ _).mp hfound
    have hsame : segments found.text = segments value := by
      rw [htext, segments_joined_segments]
    rw [refused_iff (by rw [hsame, htext]), hsame]
  rw [targetPath, except_bind_eq_ok]
  constructor
  · rintro ⟨found, hfound, hrest⟩
    have hparsed := (plainPath_eq_ok_iff _ _ _).mp hfound
    by_cases hsystem : SystemPlace (segments value)
    · rw [if_pos ((hspec found hparsed).mpr hsystem)] at hrest
      cases hrest
    · rw [if_neg fun hrefused => hsystem ((hspec found hparsed).mp hrefused)] at hrest
      cases hrest
      exact ⟨hparsed, hsystem⟩
  · rintro ⟨hparsed, hsystem⟩
    refine ⟨path, (plainPath_eq_ok_iff _ _ _).mpr hparsed, ?_⟩
    rw [if_neg fun hrefused => hsystem ((hspec path hparsed).mp hrefused)]

theorem exists_targetPath_iff (value : String) : (∃ path, targetPath value = .ok path) ↔
    (∃ path, parsePath "Pool folder" value = .ok path) ∧ ¬SystemPlace (segments value) := by
  constructor
  · rintro ⟨path, hpath⟩
    obtain ⟨hparsed, hsystem⟩ := (targetPath_eq_ok_iff value path).mp hpath
    exact ⟨⟨_, hparsed⟩, hsystem⟩
  · rintro ⟨⟨text, hparsed⟩, hsystem⟩
    have hplain : plain text = some text := by simp [plain, parsePath_idem hparsed, Except.toOption]
    exact ⟨⟨text, hplain⟩, (targetPath_eq_ok_iff value _).mpr ⟨hparsed, hsystem⟩⟩

-- A folder is accepted exactly if its path is and it is no system place, however the path
-- is spelled.
theorem pool_folder_accepted_iff (name : Name) (value : String) :
    ((∃ pool, NewPool.dir name value = .ok pool) ↔
      (∃ path, parsePath "Pool folder" value = .ok path) ∧ ¬SystemPlace (segments value)) ∧
    ∀ host exported, (∃ pool, NewPool.nfs name host exported value = .ok pool) ↔
      (∃ server, parseHost "NFS server" host = .ok server) ∧
      (∃ path, parsePath "NFS export" exported = .ok path) ∧
      (∃ path, parsePath "Pool folder" value = .ok path) ∧ ¬SystemPlace (segments value) := by
  rw [← exists_targetPath_iff]
  refine ⟨?_, ?_⟩
  · constructor
    · rintro ⟨pool, hpool⟩
      obtain ⟨path, hpath, -⟩ := except_bind_eq_ok.mp hpool
      exact ⟨path, hpath⟩
    · rintro ⟨path, hpath⟩
      exact ⟨⟨name, path, .dir⟩, except_bind_eq_ok.mpr ⟨path, hpath, rfl⟩⟩
  · intro host exported
    constructor
    · rintro ⟨pool, hpool⟩
      obtain ⟨path, hpath, hrest⟩ := except_bind_eq_ok.mp hpool
      obtain ⟨server, hserver, hrest⟩ := except_bind_eq_ok.mp hrest
      obtain ⟨mounted, hmounted, -⟩ := except_bind_eq_ok.mp hrest
      exact ⟨⟨server, hserver⟩, ⟨_, (plainPath_eq_ok_iff _ _ _).mp hmounted⟩, path, hpath⟩
    · rintro ⟨⟨server, hserver⟩, ⟨text, hexport⟩, path, hpath⟩
      have hplain : plain text = some text := by
        simp [plain, parsePath_idem hexport, Except.toOption]
      refine ⟨⟨name, path, .nfs server ⟨text, hplain⟩⟩, ?_⟩
      refine except_bind_eq_ok.mpr ⟨path, hpath, ?_⟩
      refine except_bind_eq_ok.mpr ⟨server, hserver, ?_⟩
      exact except_bind_eq_ok.mpr ⟨⟨text, hplain⟩, (plainPath_eq_ok_iff _ _ _).mpr hexport, rfl⟩

end Folders

end Lodger.Xml
