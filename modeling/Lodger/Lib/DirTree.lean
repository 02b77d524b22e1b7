import Mathlib.Data.List.Basic
import Mathlib.Data.List.Infix

namespace Lodger.Lib

-- The directories of a file system, with what the system knows of each one, such as its mode. A
-- directory is the names on the way to it, the innermost first. Its parent is a directory.
@[ext] structure DirTree (α μ : Type) where
  get : List α → Option μ
  root : (get []).isSome
  closed : ∀ name parent, (get (name :: parent)).isSome → (get parent).isSome

namespace DirTree

variable {α μ : Type} {m : μ} {tree t u : DirTree α μ} {d e : List α} {ds : List (List α)}

theorem isSome_of_suffix (hsuffix : e <:+ d) (hd : (tree.get d).isSome) : (tree.get e).isSome := by
  induction d with
  | nil =>
      rw [List.suffix_nil.mp hsuffix]
      exact hd
  | cons name parent ih =>
      cases List.suffix_cons_iff.mp hsuffix with
      | inl heq =>
          rw [heq]
          exact hd
      | inr hparent => exact ih hparent (tree.closed name parent hd)

theorem isSome_tail (hd : (tree.get d).isSome) : (tree.get d.tail).isSome :=
  isSome_of_suffix d.tail_suffix hd

-- Only directories that lie on the way to one of `ds` are new, and each of them has `m`.
def Grown (m : μ) (ds : List (List α)) (t u : DirTree α μ) : Prop :=
  ∀ e, u.get e = t.get e ∨ (∃ d ∈ ds, e <:+ d) ∧ t.get e = none ∧ u.get e = some m

theorem Grown.refl : Grown m ds t t := fun _ => Or.inl rfl

variable [DecidableEq α]

theorem isSome_set (get : List α → Option μ) (d : List α) (m : μ) (b : Prop) [Decidable b]
    {e : List α} (he : (get e).isSome) : (if e = d ∧ b then some m else get e).isSome := by
  split
  · rfl
  · exact he

-- Makes a directory in its parent, or sets what is known of it.
def put (tree : DirTree α μ) (d : List α) (m : μ) : DirTree α μ where
  get e := if e = d ∧ (tree.get d.tail).isSome then some m else tree.get e
  root := isSome_set tree.get d m _ tree.root
  closed := by
    intro name parent h
    apply isSome_set
    split at h
    · rename_i hnew
      have hparent := hnew.2
      rw [← hnew.1] at hparent
      exact hparent
    · exact tree.closed name parent h

theorem get_put (hparent : (tree.get d.tail).isSome) :
    (tree.put d m).get e = if e = d then some m else tree.get e := by
  simp [put, hparent]

theorem put_self (hd : tree.get d = some m) : tree.put d m = tree := by
  ext1
  funext e
  rw [get_put (isSome_tail (by rw [hd]; rfl))]
  split
  · rename_i heq
    rw [heq, hd]
  · rfl

theorem put_put {m' : μ} (hparent : (tree.get d.tail).isSome) :
    (tree.put d m').put d m = tree.put d m := by
  have hstill : ((tree.put d m').get d.tail).isSome := isSome_set tree.get d m' _ hparent
  ext1
  funext e
  rw [get_put hstill, get_put hparent, get_put hparent]
  split
  · rfl
  · rfl

-- Makes a directory and its missing parents.
def ensure (m : μ) (tree : DirTree α μ) : List α → DirTree α μ
  | [] => tree
  | name :: parent =>
      if (tree.get (name :: parent)).isSome then tree
      else (ensure m tree parent).put (name :: parent) m

theorem ensure_of_isSome (hd : (tree.get d).isSome) : ensure m tree d = tree := by
  cases d with
  | nil => rfl
  | cons name parent => rw [ensure, if_pos hd]

theorem get_ensure :
    (ensure m tree d).get e = if e <:+ d then (tree.get e).or (some m) else tree.get e := by
  induction d generalizing e with
  | nil =>
      split
      · rename_i hroot
        rw [List.suffix_nil.mp hroot]
        exact (Option.or_of_isSome tree.root).symm
      · rfl
  | cons name parent ih =>
      by_cases hd : (tree.get (name :: parent)).isSome
      · rw [ensure_of_isSome hd]
        split
        · exact (Option.or_of_isSome (isSome_of_suffix ‹_› hd)).symm
        · rfl
      · have hparent : ((ensure m tree parent).get parent).isSome := by
          rw [ih, if_pos List.suffix_rfl]
          simp
        rw [ensure, if_neg hd, get_put hparent]
        by_cases he : e = name :: parent
        · rw [if_pos he, he, if_pos List.suffix_rfl, Option.not_isSome_iff_eq_none.mp hd]
          rfl
        · rw [if_neg he, ih]
          simp [List.suffix_cons_iff, he]

theorem get_ensure_of_not_suffix (he : ¬e <:+ d) : (ensure m tree d).get e = tree.get e := by
  rw [get_ensure, if_neg he]

theorem isSome_ensure (hd : (tree.get e).isSome) : ((ensure m tree d).get e).isSome := by
  rw [get_ensure]
  split
  · rw [Option.or_of_isSome hd]
    exact hd
  · exact hd

theorem isSome_ensure_self : ((ensure m tree d).get d).isSome := by
  rw [get_ensure, if_pos List.suffix_rfl]
  simp

-- The last step of making a directory.
theorem put_ensure_tail (hd : tree.get d = none) :
    (ensure m tree d.tail).put d m = ensure m tree d := by
  cases d with
  | nil =>
      have hroot := tree.root
      rw [hd] at hroot
      cases hroot
  | cons name parent =>
      have hno : ¬(tree.get (name :: parent)).isSome := by simp [hd]
      rw [ensure, if_neg hno]
      rfl

theorem get_ensure_tail (hd : tree.get d = none) : (ensure m tree d.tail).get d = none := by
  cases d with
  | nil =>
      have hroot := tree.root
      rw [hd] at hroot
      cases hroot
  | cons name parent =>
      have hlonger : ¬name :: parent <:+ parent := by
        intro hsuffix
        have hlength := hsuffix.length_le
        rw [List.length_cons] at hlength
        omega
      exact (get_ensure_of_not_suffix hlonger).trans hd

def ensureAll (m : μ) (tree : DirTree α μ) (ds : List (List α)) : DirTree α μ :=
  ds.foldl (ensure m) tree

theorem get_ensureAll : (ensureAll m tree ds).get e =
    if ∃ d ∈ ds, e <:+ d then (tree.get e).or (some m) else tree.get e := by
  induction ds generalizing tree with
  | nil => simp [ensureAll]
  | cons d rest ih =>
      have hstep : ensureAll m tree (d :: rest) = ensureAll m (ensure m tree d) rest := rfl
      rw [hstep, ih, get_ensure]
      by_cases hd : e <:+ d
      · by_cases hrest : ∃ d ∈ rest, e <:+ d
        · simp [hd, hrest]
        · simp [hd, hrest]
      · simp [hd]

theorem Grown.ensure (hgrown : Grown m ds t u) {d e : List α} (hd : d ∈ ds) (he : e <:+ d) :
    Grown m ds t (u.ensure m e) := by
  intro x
  rw [get_ensure]
  by_cases hx : x <:+ e
  · rw [if_pos hx]
    cases hgrown x with
    | inl hsame =>
        rw [hsame]
        cases hbefore : t.get x with
        | some m' => exact Or.inl rfl
        | none => exact Or.inr ⟨⟨d, hd, hx.trans he⟩, rfl, rfl⟩
    | inr hnew => exact Or.inr ⟨hnew.1, hnew.2.1, by rw [hnew.2.2]; rfl⟩
  · rw [if_neg hx]
    exact hgrown x

-- The rest of the work is the same when a part of it has been done. What the rest leaves out is
-- there.
theorem Grown.ensureAll_eq (hgrown : Grown m ds t u) {rest : List (List α)}
    (hrest : ∀ d ∈ rest, d ∈ ds) (hout : ∀ d ∈ ds, d ∉ rest → (u.get d).isSome) :
    ensureAll m u rest = ensureAll m t ds := by
  ext1
  funext e
  rw [get_ensureAll, get_ensureAll]
  have hor : (u.get e).or (some m) = (t.get e).or (some m) := by
    cases hgrown e with
    | inl hsame => rw [hsame]
    | inr hnew => rw [hnew.2.1, hnew.2.2]; rfl
  by_cases hneeded : ∃ d ∈ ds, e <:+ d
  · rw [if_pos hneeded, ← hor]
    by_cases hstill : ∃ d ∈ rest, e <:+ d
    · rw [if_pos hstill]
    · rw [if_neg hstill]
      obtain ⟨d, hd, he⟩ := hneeded
      have hdone : d ∉ rest := fun hmem => hstill ⟨d, hmem, he⟩
      exact (Option.or_of_isSome (isSome_of_suffix he (hout d hd hdone))).symm
  · have hnot : ¬∃ d ∈ rest, e <:+ d := by
      intro hstill
      obtain ⟨d, hd, he⟩ := hstill
      exact hneeded ⟨d, hrest d hd, he⟩
    rw [if_neg hneeded, if_neg hnot]
    cases hgrown e with
    | inl hsame => exact hsame
    | inr hnew => exact absurd hnew.1 hneeded

end DirTree

end Lodger.Lib
