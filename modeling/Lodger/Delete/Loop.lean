import Lodger.Delete.Scan

namespace Lodger.Delete

open Lodger.Lib Lodger.Libvirt Lodger.Cache Lodger.Xml

-- The loop deletes a volume at the path of this target, if libvirt finds one.
def Deletable (users : List (String × String)) (t : Target) : Prop :=
  t.shared = false ∧ users.lookup t.key = none

-- What the loop over the targets reports and deletes, whichever calls of it fail. `found` says
-- which volumes libvirt may find at a path.
inductive Handled (found : String → VolRef → Prop) (users : List (String × String)) :
    List Target → List String → List Skipped → List VolRef → Prop where
  | nil : Handled found users [] [] [] []
  | removed {target : Target} {v : VolRef} {rest : List Target} {removed : List String}
      {skipped : List Skipped} {gone : List VolRef} (deletable : Deletable users target)
      (hat : found target.path v) (h : Handled found users rest removed skipped gone) :
      Handled found users (target :: rest) (target.path :: removed) skipped (v :: gone)
  | kept {target : Target} {reason : SkipReason} {rest : List Target} {removed : List String}
      {skipped : List Skipped} {gone : List VolRef}
      (h : Handled found users rest removed skipped gone) :
      Handled found users (target :: rest) removed (⟨target.path, reason⟩ :: skipped) gone

section Handled

variable {found : String → VolRef → Prop} {users : List (String × String)} {targets : List Target}
  {removed : List String} {skipped : List Skipped} {gone : List VolRef}

theorem Handled.gone_spec (h : Handled found users targets removed skipped gone) :
    ∀ v ∈ gone, ∃ target ∈ targets, Deletable users target ∧ found target.path v := by
  induction h with
  | nil => simp
  | @removed target v rest removed skipped gone deletable hat h ih =>
      intro x hx
      obtain rfl | hx := List.mem_cons.mp hx
      · exact ⟨target, List.mem_cons_self, deletable, hat⟩
      · obtain ⟨other, hm, hspec⟩ := ih x hx
        exact ⟨other, List.mem_cons_of_mem _ hm, hspec⟩
  | kept h ih =>
      intro x hx
      obtain ⟨other, hm, hspec⟩ := ih x hx
      exact ⟨other, List.mem_cons_of_mem _ hm, hspec⟩

-- One entry of the report for each target.
theorem Handled.perm (h : Handled found users targets removed skipped gone) :
    (removed ++ skipped.map (·.path)).Perm (targets.map (·.path)) := by
  induction h with
  | nil => simp
  | removed deletable hat h ih => exact ih.cons _
  | @kept target reason rest removed skipped gone h ih =>
      have hmiddle : (removed ++ target.path :: skipped.map (·.path)).Perm
          (target.path :: (removed ++ skipped.map (·.path))) := List.perm_middle
      exact hmiddle.trans (ih.cons _)

theorem Handled.skipped_mem (h : Handled found users targets removed skipped gone) :
    ∀ entry ∈ skipped, ∃ target ∈ targets, target.path = entry.path := by
  intro entry he
  have hm : entry.path ∈ removed ++ skipped.map (·.path) :=
    List.mem_append_right _ (List.mem_map_of_mem he)
  exact List.mem_map.mp (h.perm.mem_iff.mp hm)

-- If no target names what another one deletes, no entry of the skipped names it.
theorem Handled.apart (h : Handled found users targets removed skipped gone)
    (names : String → VolRef → Prop) (hpair : targets.Pairwise fun a b => ∀ v,
      ¬(Deletable users a ∧ found a.path v ∧ names b.path v) ∧
        ¬(Deletable users b ∧ found b.path v ∧ names a.path v)) :
    ∀ v ∈ gone, ∀ entry ∈ skipped, ¬names entry.path v := by
  induction h with
  | nil => simp
  | @removed target x rest removed skipped gone deletable hat h ih =>
      obtain ⟨hhead, hrest⟩ := List.pairwise_cons.mp hpair
      intro v hv entry hentry hname
      obtain rfl | hv := List.mem_cons.mp hv
      · obtain ⟨other, hm, hpath⟩ := h.skipped_mem entry hentry
        exact (hhead other hm v).1 ⟨deletable, hat, by rwa [hpath]⟩
      · exact ih hrest v hv entry hentry hname
  | @kept target reason rest removed skipped gone h ih =>
      obtain ⟨hhead, hrest⟩ := List.pairwise_cons.mp hpair
      intro v hv entry hentry hname
      obtain rfl | hentry := List.mem_cons.mp hentry
      · obtain ⟨other, hm, hdel, hat⟩ := h.gone_spec v hv
        exact (hhead other hm v).2 ⟨hdel, hat, hname⟩
      · exact ih hrest v hv entry hentry hname

end Handled

variable [Libvirtd]

-- Why the loop keeps a disk.
def Kept (users : List (String × String)) (w : World) (t : Target) : Prop :=
  t.shared = true ∨ (∃ user, users.lookup t.key = some user) ∨ w.volByPath t.path = none ∨
    ∃ v e, w.volByPath t.path = some v ∧ w.perform (.volDelete v) = .error e

-- The loop over the targets: the paths that it reports as removed, the entries that it
-- reports as skipped, and the volumes that it deletes.
inductive Removing (users : List (String × String)) :
    Calm → List Target → List String → List Skipped → List VolRef → Calm → Prop where
  | nil (s : Calm) : Removing users s [] [] [] [] s
  | removed {s t : Calm} {target : Target} {v : VolRef} {p : Performed Unit}
      {rest : List Target} {removed : List String} {skipped : List Skipped} {gone : List VolRef}
      (hshared : target.shared = false) (hunused : users.lookup target.key = none)
      (hv : s.world.volByPath target.path = some v)
      (hp : s.world.perform (.volDelete v) = .ok p)
      (h : Removing users ⟨p.world, s.log ++ [(.volDelete v, p.world)]⟩ rest removed skipped gone t) :
      Removing users s (target :: rest) (target.path :: removed) skipped (v :: gone) t
  | kept {s t : Calm} {target : Target} {reason : SkipReason}
      {rest : List Target} {removed : List String} {skipped : List Skipped} {gone : List VolRef}
      (why : Kept users s.world target)
      (h : Removing users s rest removed skipped gone t) :
      Removing users s (target :: rest) removed (⟨target.path, reason⟩ :: skipped) gone t

section Steps

variable {users : List (String × String)} {s : Calm}

theorem removeTarget_run (target : Target) :
    (∃ reason, calmly (removeTarget users target) s = (.ok (some reason), s) ∧
      Kept users s.world target) ∨
    ∃ (v : VolRef) (p : Performed Unit), target.shared = false ∧ users.lookup target.key = none ∧
      s.world.volByPath target.path = some v ∧ s.world.perform (.volDelete v) = .ok p ∧
      calmly (removeTarget users target) s =
        (.ok none, ⟨p.world, s.log ++ [(.volDelete v, p.world)]⟩) := by
  by_cases hshared : target.shared = true
  · refine Or.inl ⟨.shared, ?_, Or.inl hshared⟩
    rw [removeTarget, if_pos hshared]
    rfl
  · cases hu : users.lookup target.key with
    | some user =>
        refine Or.inl ⟨.usedBy user, ?_, Or.inr (Or.inl ⟨user, hu⟩)⟩
        rw [removeTarget, if_neg hshared, hu]
        rfl
    | none =>
        have hlookup : calmly (query (.lookupStorageVolByPath target.path)).attempt s =
            (.ok ((s.world.volByPath target.path).elim (.error noStorageVolume) .ok), s) :=
          calmly_attempt _
        rw [removeTarget, if_neg hshared, hu]
        cases hv : s.world.volByPath target.path with
        | none =>
            refine Or.inl ⟨.notInPool, ?_, Or.inr (Or.inr (Or.inl hv))⟩
            rw [hv] at hlookup
            exact Prog.run_bind_ok hlookup
        | some v =>
            rw [hv] at hlookup
            cases hp : s.world.perform (.volDelete v) with
            | ok p =>
                have hdelete : calmly (command (.volDelete v)).attempt s =
                    (.ok (.ok ()), ⟨p.world, s.log ++ [(.volDelete v, p.world)]⟩) := by
                  rw [calmly_attempt, calmly_command_ok hp]
                  rfl
                refine Or.inr ⟨v, p, by simpa using hshared, rfl, rfl, hp, ?_⟩
                exact (Prog.run_bind_ok hlookup).trans (Prog.run_bind_ok hdelete)
            | error e =>
                have hdelete : calmly (command (.volDelete v)).attempt s = (.ok (.error e), s) := by
                  rw [calmly_attempt, calmly_command_error hp]
                refine Or.inl ⟨.failed e.message, ?_, Or.inr (Or.inr (Or.inr ⟨v, e, hv, hp⟩))⟩
                exact (Prog.run_bind_ok hlookup).trans (Prog.run_bind_ok hdelete)

theorem removeTargets_run (targets : List Target) (report report' : Removal) {t : Calm}
    (h : calmly (removeTargets users targets report) s = (.ok report', t)) :
    ∃ removed skipped gone, Removing users s targets removed skipped gone t ∧
      report'.removed = report.removed ++ removed ∧
      report'.skipped = report.skipped ++ skipped := by
  induction targets generalizing s report with
  | nil =>
      cases h
      exact ⟨[], [], [], .nil _, by simp⟩
  | cons target rest ih =>
      simp only [removeTargets, List.foldlM_cons] at h
      obtain ⟨mid, u, hstep, hrest⟩ := Prog.run_bind_eq_ok h
      obtain ⟨reason, hr, why⟩ | ⟨v, p, hshared, hunused, hv, hp, hr⟩ :=
        @removeTarget_run _ users s target
      · have hmid := (Prog.run_bind_ok hr).symm.trans hstep
        cases hmid
        obtain ⟨removed, skipped, gone, hloop, h1, h2⟩ := ih _ hrest
        exact ⟨removed, ⟨target.path, reason⟩ :: skipped, gone, .kept why hloop, h1, by simp [h2]⟩
      · have hmid := (Prog.run_bind_ok hr).symm.trans hstep
        cases hmid
        obtain ⟨removed, skipped, gone, hloop, h1, h2⟩ := ih _ hrest
        exact ⟨target.path :: removed, skipped, v :: gone, .removed hshared hunused hv hp hloop,
          by simp [h1], h2⟩

end Steps

section Loop

variable {users : List (String × String)} {s t : Calm} {targets : List Target}
  {removed : List String} {skipped : List Skipped} {gone : List VolRef} {w : World}

theorem Removing.handled (h : Removing users s targets removed skipped gone t)
    (hsub : ∀ path v, VolAt s.world path v → VolAt w path v) :
    Handled (VolAt w) users targets removed skipped gone := by
  induction h with
  | nil s => exact .nil
  | @removed s t target v p rest removed skipped gone hshared hunused hv hp h ih =>
      refine .removed ⟨hshared, hunused⟩ (hsub _ _ (volAt_of_volByPath hv)) ?_
      exact ih fun path y hy => hsub path y (volAt_of_deleted hp hy)
  | kept why h ih => exact .kept (ih hsub)

theorem Removing.mem_log (h : Removing users s targets removed skipped gone t) (v : VolRef) :
    (∃ u, (Command.volDelete v, u) ∈ t.log) ↔
      (∃ u, (Command.volDelete v, u) ∈ s.log) ∨ v ∈ gone := by
  induction h with
  | nil s => simp
  | @removed s t target x p rest removed skipped gone hshared hunused hv hp h ih =>
      rw [ih]
      constructor
      · rintro (⟨u, hu⟩ | hg)
        · obtain hu | hu := List.mem_append.mp hu
          · exact Or.inl ⟨u, hu⟩
          · rw [List.mem_singleton] at hu
            cases hu
            exact Or.inr List.mem_cons_self
        · exact Or.inr (List.mem_cons_of_mem _ hg)
      · rintro (⟨u, hu⟩ | hg)
        · exact Or.inl ⟨u, List.mem_append_left _ hu⟩
        · obtain rfl | hg := List.mem_cons.mp hg
          · exact Or.inl ⟨p.world, by simp⟩
          · exact Or.inr hg
  | kept why h ih => exact ih

theorem Removing.kept_of (h : Removing users s targets removed skipped gone t)
    (hsub : ∀ path v, VolAt s.world path v → VolAt w path v) {target : Target}
    (hm : target ∈ targets) (hk : ¬Deletable users target ∨ ∀ v, ¬VolAt w target.path v) :
    ∃ entry ∈ skipped, entry.path = target.path := by
  induction h with
  | nil s => simp at hm
  | @removed s t head x p rest removed skipped gone hshared hunused hv hp h ih =>
      obtain rfl | hm := List.mem_cons.mp hm
      · obtain hk | hk := hk
        · exact absurd ⟨hshared, hunused⟩ hk
        · exact absurd (hsub _ _ (volAt_of_volByPath hv)) (hk x)
      · exact ih (fun path y hy => hsub path y (volAt_of_deleted hp hy)) hm
  | @kept s t head reason rest removed skipped gone why h ih =>
      obtain rfl | hm := List.mem_cons.mp hm
      · exact ⟨_, List.mem_cons_self, rfl⟩
      · obtain ⟨entry, he, hpath⟩ := ih hsub hm
        exact ⟨entry, List.mem_cons_of_mem _ he, hpath⟩

-- libvirt lets a volume go.
theorem not_kept (hlaw : Lawful s.world) {target : Target} (hdel : Deletable users target)
    {v : VolRef} (hat : VolAt s.world target.path v) : ¬Kept users s.world target := by
  intro why
  obtain hs | ⟨user, hu⟩ | hnone | ⟨x, e, hx, he⟩ := why
  · simp [hdel.1] at hs
  · simp [hdel.2] at hu
  · exact volByPath_eq_none hnone hat
  · obtain ⟨p, hp⟩ := hlaw.perform_volDelete (volAt_of_volByPath hx)
    rw [hp] at he
    cases he

-- No path leads to two volumes.
def PathsUnique (w : World) : Prop := ∀ path v v', VolAt w path v → VolAt w path v' → v = v'

-- A deletable target whose volume stands before the loop has it deleted.
theorem Removing.gone_of (h : Removing users s targets removed skipped gone t)
    (hsub : ∀ path v, VolAt s.world path v → VolAt w path v) (hlaw : Lawful s.world)
    (hunique : PathsUnique w) {target : Target} (hm : target ∈ targets)
    (hdel : Deletable users target) {v : VolRef} (hat : VolAt s.world target.path v) : v ∈ gone := by
  induction h with
  | nil s => simp at hm
  | @removed s t head x p rest removed skipped gone hshared hunused hv hp h ih =>
      have hx := volAt_of_volByPath hv
      by_cases hxv : x = v
      · subst hxv
        exact List.mem_cons_self
      · have hstay := hlaw.volAt_deleted hp hx hat (Ne.symm hxv)
        obtain rfl | hm := List.mem_cons.mp hm
        · exact absurd (hunique _ _ _ (hsub _ _ hx) (hsub _ _ hat)) hxv
        · exact List.mem_cons_of_mem _ (ih (fun path y hy => hsub path y (volAt_of_deleted hp hy))
            (hlaw.deleted hp) hm hstay)
  | @kept s t head reason rest removed skipped gone why h ih =>
      obtain rfl | hm := List.mem_cons.mp hm
      · exact absurd why (not_kept hlaw hdel hat)
      · exact ih hsub hlaw hm hat

-- Of two targets that lead to one volume, one is skipped.
theorem Removing.skipped_of_two (h : Removing users s targets removed skipped gone t)
    (hsub : ∀ path v, VolAt s.world path v → VolAt w path v) (hlaw : Lawful s.world)
    (hunique : PathsUnique w) {a b : Target} (hm : [a, b].Sublist targets) {v : VolRef}
    (ha : VolAt w a.path v) (hb : VolAt w b.path v) :
    ∃ entry ∈ skipped, entry.path = a.path ∨ entry.path = b.path := by
  induction h with
  | nil s => simp at hm
  | @removed s t head x p rest removed skipped gone hshared hunused hv hp h ih =>
      have hsub' : ∀ path y, VolAt p.world path y → VolAt w path y :=
        fun path y hy => hsub path y (volAt_of_deleted hp hy)
      cases hm with
      | cons _ hm => exact ih hsub' (hlaw.deleted hp) hm
      | cons_cons _ hm =>
          -- The first one has deleted the volume, so the second one finds none.
          have hxv : x = v := hunique _ _ _ (hsub _ _ (volAt_of_volByPath hv)) ha
          subst hxv
          have hgone : ∀ y, ¬VolAt p.world b.path y := by
            intro y hy
            obtain rfl := hunique _ _ _ (hsub' _ _ hy) hb
            exact hlaw.not_volAt_deleted hp hy
          obtain ⟨entry, he, hpath⟩ := h.kept_of (fun _ _ hy => hy)
            (List.singleton_sublist.mp hm) (Or.inr hgone)
          exact ⟨entry, he, Or.inr hpath⟩
  | @kept s t head reason rest removed skipped gone why h ih =>
      cases hm with
      | cons _ hm =>
          obtain ⟨entry, he, hpath⟩ := ih hsub hlaw hm
          exact ⟨entry, List.mem_cons_of_mem _ he, hpath⟩
      | cons_cons _ hm => exact ⟨_, List.mem_cons_self, Or.inl rfl⟩

-- One target deletes a volume that the other one names, and the other one deletes none.
def Clash (w : World) (users : List (String × String)) (names : String → VolRef → Prop)
    (a b : Target) (v : VolRef) : Prop :=
  Deletable users a ∧ VolAt w a.path v ∧ names b.path v ∧
    ¬∃ x, x ≠ v ∧ Deletable users b ∧ VolAt w b.path x

-- The volumes of the later targets stand when no target clashes with another one.
theorem stands_after {names : String → VolRef → Prop} (hnames : ∀ path v, VolAt w path v → names path v)
    (hsub : ∀ path v, VolAt s.world path v → VolAt w path v) (hlaw : Lawful s.world)
    (hunique : PathsUnique w) {head x : Target} {v : VolRef} {p : Performed Unit}
    (hdel : Deletable users head) (hat : VolAt s.world head.path v)
    (hp : s.world.perform (.volDelete v) = .ok p)
    (hstand : ∀ y, VolAt w x.path y → VolAt s.world x.path y)
    (hclash : ¬Clash w users names head x v) : ∀ y, VolAt w x.path y → VolAt p.world x.path y := by
  intro y hy
  by_cases heq : y = v
  · subst heq
    refine absurd ⟨hdel, hsub _ _ hat, hnames _ _ hy, ?_⟩ hclash
    rintro ⟨z, hne, -, hz⟩
    exact hne (hunique _ _ _ hz hy)
  · exact hlaw.volAt_deleted hp hat (hstand y hy) heq

-- If no target clashes with another one, no entry of the skipped names what goes.
theorem Removing.apart {names : String → VolRef → Prop}
    (hnames : ∀ path v, VolAt w path v → names path v)
    (h : Removing users s targets removed skipped gone t)
    (hsub : ∀ path v, VolAt s.world path v → VolAt w path v) (hlaw : Lawful s.world)
    (hunique : PathsUnique w)
    (hstand : ∀ x ∈ targets, ∀ y, VolAt w x.path y → VolAt s.world x.path y)
    (hpair : targets.Pairwise fun a b => ∀ v,
      ¬Clash w users names a b v ∧ ¬Clash w users names b a v) :
    (∀ entry ∈ skipped, ∃ x ∈ targets, x.path = entry.path ∧
      ¬(Deletable users x ∧ ∃ v, VolAt w x.path v)) ∧
    ∀ v ∈ gone, ∀ entry ∈ skipped, ¬names entry.path v := by
  induction h with
  | nil s => simp
  | @removed s t target v p rest removed skipped gone hshared hunused hv hp h ih =>
      obtain ⟨hhead, hrest⟩ := List.pairwise_cons.mp hpair
      have hat := volAt_of_volByPath hv
      obtain ⟨hkept, hapart⟩ := ih (fun path y hy => hsub path y (volAt_of_deleted hp hy))
        (hlaw.deleted hp) (fun x hx => stands_after hnames hsub hlaw hunique ⟨hshared, hunused⟩ hat
          hp (hstand x (List.mem_cons_of_mem _ hx)) (hhead x hx v).1) hrest
      constructor
      · intro entry hentry
        obtain ⟨x, hx, hspec⟩ := hkept entry hentry
        exact ⟨x, List.mem_cons_of_mem _ hx, hspec⟩
      · intro y hy entry hentry hname
        obtain rfl | hy := List.mem_cons.mp hy
        · obtain ⟨x, hx, hpath, hno⟩ := hkept entry hentry
          rw [← hpath] at hname
          refine (hhead x hx y).1 ⟨⟨hshared, hunused⟩, hsub _ _ hat, hname, ?_⟩
          rintro ⟨z, -, hdel, hz⟩
          exact hno ⟨hdel, z, hz⟩
        · exact hapart y hy entry hentry hname
  | @kept s t target reason rest removed skipped gone why h ih =>
      obtain ⟨hhead, hrest⟩ := List.pairwise_cons.mp hpair
      have hno : ¬(Deletable users target ∧ ∃ v, VolAt w target.path v) := by
        rintro ⟨hdel, v, hv⟩
        exact not_kept hlaw hdel (hstand target List.mem_cons_self v hv) why
      obtain ⟨hkept, hapart⟩ := ih hsub hlaw (fun x hx => hstand x (List.mem_cons_of_mem _ hx)) hrest
      constructor
      · intro entry hentry
        obtain rfl | hentry := List.mem_cons.mp hentry
        · exact ⟨target, List.mem_cons_self, rfl, hno⟩
        · obtain ⟨x, hx, hspec⟩ := hkept entry hentry
          exact ⟨x, List.mem_cons_of_mem _ hx, hspec⟩
      · intro v hv entry hentry hname
        obtain rfl | hentry := List.mem_cons.mp hentry
        · obtain ⟨other, hm, hdel, hat⟩ := (h.handled hsub).gone_spec v hv
          refine (hhead other hm v).2 ⟨hdel, hat, hname, ?_⟩
          rintro ⟨z, -, hown, hz⟩
          exact hno ⟨hown, z, hz⟩
        · exact hapart v hv entry hentry hname

-- What the loop does not delete stays where it is.
theorem Removing.stays (h : Removing users s targets removed skipped gone t) (hlaw : Lawful s.world)
    {path : String} {v : VolRef} (hat : VolAt s.world path v) (hv : v ∉ gone) :
    VolAt t.world path v := by
  induction h with
  | nil s => exact hat
  | @removed s t target x p rest removed skipped gone hshared hunused hx hp h ih =>
      simp only [List.mem_cons, not_or] at hv
      have hstay := hlaw.volAt_deleted hp (volAt_of_volByPath hx) hat hv.1
      exact ih (hlaw.deleted hp) hstay hv.2
  | kept why h ih => exact ih hlaw hat hv

end Loop

end Lodger.Delete
