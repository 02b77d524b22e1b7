import Lodger.Jobs.Specs

namespace Lodger.Jobs

open Lodger.Lib Lodger.Libvirt Lodger.Cache

section Pools

variable {op : Op} {before : World} {s : Env} {id : Uuid} {name : String}

-- While the volumes of a pool are deleted: the pool runs, and nothing but its own
-- sizes is without an event.
structure Deleting (id : Uuid) (name : String) (s : Env) : Prop where
  only : Only ⟨.pool, id⟩ s
  names : NamesUnique s.world
  runs : ∃ p, s.world.pools.lookup id = some p ∧ p.active = true ∧ p.name = name

theorem Deleting.of_runs {q : StoragePool} (hs : s.unannounced = []) (hnames : NamesUnique s.world)
    (hq : s.world.pools.lookup id = some q) (hactive : q.active = true) :
    Deleting id q.name s :=
  ⟨.of_nil hs, hnames, q, hq, hactive, rfl⟩

-- The pool did not run when the removal began.
def wasStopped (before : World) (id : Uuid) : Bool :=
  (before.pools.lookup id).any fun p => !p.active

theorem forgiven_removePool {deleteFiles removeEmptyFolder : Bool} {c : Call}
    (h : Forgiven (.removePool id deleteFiles removeEmptyFolder) before s c) :
    s.unannounced = [] ∨ wasStopped before id = true := by
  apply h.imp_right
  intro h
  unfold tolerates at h
  split at h <;> grind [wasStopped]

variable [Libvirtd]

theorem query_poolListAllVolumes {w : World} {p : Ref} {volumes : List VolRef} {q : StoragePool}
    (h : w.query (.poolListAllVolumes p) = .ok volumes) (hq : w.pools.lookup p.id = some q) :
    ∀ v ∈ volumes, v.pool = q.name := by
  obtain ⟨x, hx, rfl⟩ := except_map_eq_ok.mp h
  obtain rfl : q = x := Option.some.inj (hq.symm.trans (pool_eq_ok.mp (activePool_eq_ok.mp hx).1))
  intro v hv
  obtain ⟨y, -, rfl⟩ := List.mem_map.mp hv
  rfl

theorem query_poolIsActive {w : World} {p : Ref} {active : Bool}
    (h : w.query (.poolIsActive p) = .ok active) :
    ∃ q, w.pools.lookup p.id = some q ∧ q.active = active := by
  obtain ⟨q, hq, h⟩ := except_map_eq_ok.mp h
  exact ⟨q, pool_eq_ok.mp hq, h⟩

variable [Xml.Xmltree]

theorem Deleting.refresh {p : Ref} (h : Deleting p.id name s) (r : Performed Unit)
    (hr : s.world.perform (.poolRefresh p) = .ok r)
    (heffect : Effect s.world (.poolRefresh p) r.world r.events) :
    Deleting p.id name (s.after r.world r.events) := by
  refine ⟨h.only.after heffect (by rintro x ⟨⟩; rfl), heffect.namesUnique h.names, ?_⟩
  obtain ⟨q, hq, hactive, hname⟩ := h.runs
  obtain ⟨x, hx, hr⟩ := except_bind_eq_ok.mp hr
  cases hr
  obtain rfl : q = x := Option.some.inj (hq.symm.trans (pool_eq_ok.mp (activePool_eq_ok.mp hx).1))
  exact ⟨_, AList.lookup_insert _, hactive, hname⟩

theorem Deleting.volDelete {v : VolRef} (h : Deleting id name s) (hv : v.pool = name)
    (r : Performed Unit) (hr : s.world.perform (.volDelete v) = .ok r)
    (heffect : Effect s.world (.volDelete v) r.world r.events) :
    Deleting id name (s.after r.world r.events) := by
  obtain ⟨q, hq, hactive, hname⟩ := h.runs
  have hfind : s.world.poolByName v.pool = some (id, q) := by
    rw [hv, ← hname]
    exact h.names.poolByName hq
  refine ⟨h.only.after heffect ?_, heffect.namesUnique h.names, ?_⟩
  · rintro _ (_ | _ | _ | _ | _ | ⟨_, id', q', hname'⟩)
    rw [hfind] at hname'
    cases hname'
    rfl
  · simp only [World.perform, hfind, if_pos hactive] at hr
    obtain ⟨found, -, rfl⟩ := except_map_eq_ok.mp hr
    exact ⟨_, AList.lookup_insert _, hactive, hname⟩

theorem deleteVolumes_wp {p : Ref} {deleteFiles removeEmptyFolder : Bool}
    (h : Deleting p.id name s) : (deleteVolumes p).Wp
      (may (.removePool p.id deleteFiles removeEmptyFolder) before)
      (fun r t => Outcome (fun _ => Deleting p.id name t) (fun _ => Only ⟨.pool, p.id⟩ t ∧
        (t.unannounced = [] ∨ wasStopped before p.id = true)) r) s := by
  refine wp_command_bind ?_ fun _ hforgiven => ⟨h.only, forgiven_removePool hforgiven⟩
  intro r hr heffect
  have h := h.refresh r hr heffect
  refine wp_query_bind ?_ fun _ hforgiven => ⟨h.only, forgiven_removePool hforgiven⟩
  intro (volumes : List VolRef) hvolumes
  obtain ⟨q, hq, -, hname⟩ := h.runs
  have hpool : ∀ v ∈ volumes, v.pool = name := by
    intro v hv
    exact (query_poolListAllVolumes hvolumes hq v hv).trans hname
  apply Prog.Wp.foldlM fun rest _ t => rest ⊆ volumes ∧ Deleting p.id name t
  · exact fun _ t ht => ht.2
  · rintro v rest _ t ⟨hsub, ht⟩
    apply wp_command
    · intro r hr heffect
      refine ⟨fun x hx => hsub (List.mem_cons_of_mem _ hx), ?_⟩
      exact ht.volDelete (hpool v (hsub List.mem_cons_self)) r hr heffect
    · exact fun _ hforgiven => ⟨ht.only, forgiven_removePool hforgiven⟩
  · exact ⟨List.Subset.refl _, h⟩

-- A removal that started the pool itself: the start brings an event.
theorem Deleting.poolCreate {p : Ref} (hs : s.unannounced = []) (hnames : NamesUnique s.world)
    (r : Performed Unit) (hr : s.world.perform (.poolCreate p) = .ok r)
    (heffect : Effect s.world (.poolCreate p) r.world r.events) :
    ∃ name, Deleting p.id name (s.after r.world r.events) := by
  have hsent : (s.after r.world r.events).unannounced = [] :=
    (Only.of_nil hs).announced heffect (by rintro x ⟨⟩) (poolCreate_event r hr)
  obtain ⟨x, -, hr⟩ := except_bind_eq_ok.mp hr
  split at hr
  · cases hr
  · cases hr
    exact ⟨_, .of_runs hsent (heffect.namesUnique hnames) (AList.lookup_insert _) rfl⟩

theorem deleteOrStop_wp {p : Ref} {q : StoragePool} (deleteFiles removeEmptyFolder : Bool)
    (hq : before.pools.lookup p.id = some q) (hs : Deleting p.id name s) :
    (deleteOrStop p q.active).Wp (may (.removePool p.id deleteFiles removeEmptyFolder) before)
      (fun r t => Outcome (fun _ => Deleting p.id name t) (fun _ => t.unannounced = []) r) s := by
  apply Prog.wp_bind.mpr
  apply Prog.wp_attempt.mpr
  apply (deleteVolumes_wp hs).imp
  rintro (e | _) t ht
  · obtain ⟨honly, hforgiven⟩ := ht
    cases hactive : q.active with
    | true =>
        -- The pool ran before, so nothing may have failed too late.
        simp only [wasStopped, hq, Option.any_some, hactive] at hforgiven
        exact hforgiven.resolve_right (by simp)
    | false =>
        show ((command (.poolDestroy p)).attempt >>= fun _ => (Prog.fail e : Job Unit)).Wp _ _ t
        apply Prog.wp_bind.mpr
        apply Prog.wp_attempt.mpr
        exact wp_command_announced honly (by rintro w x ⟨⟩) poolDestroy_event rfl
  · exact ht

theorem deleteFilesOf_wp {p : Ref} {deleteFiles removeEmptyFolder : Bool}
    (hs : s.unannounced = []) (hnames : NamesUnique s.world) :
    (deleteFilesOf p).Wp (may (.removePool p.id deleteFiles removeEmptyFolder) s.world)
      (fun r t => Outcome (fun _ => ∃ name, Deleting p.id name t) (fun _ => t.unannounced = []) r)
      s := by
  have hsome (name : String) (r : Except Error Unit) (t : Env)
      (h : Outcome (fun _ => Deleting p.id name t) (fun _ => t.unannounced = []) r) :
      Outcome (fun _ => ∃ name, Deleting p.id name t) (fun _ => t.unannounced = []) r := by
    cases r with
    | error e => exact h
    | ok _ => exact ⟨name, h⟩
  refine wp_query_bind ?_ fun _ _ => hs
  intro (wasActive : Bool) hactive
  obtain ⟨q, hq, rfl⟩ := query_poolIsActive hactive
  cases hrun : q.active with
  | true =>
      have h := deleteOrStop_wp deleteFiles removeEmptyFolder hq (.of_runs hs hnames hq hrun)
      rw [hrun] at h
      exact h.imp (hsome _)
  | false =>
      show (command (.poolCreate p) >>= fun _ => deleteOrStop p false).Wp _ _ s
      refine wp_command_bind ?_ fun _ _ => hs
      intro r hr heffect
      obtain ⟨name, ht⟩ := Deleting.poolCreate hs hnames r hr heffect
      have h := deleteOrStop_wp deleteFiles removeEmptyFolder hq ht
      rw [hrun] at h
      exact h.imp (hsome _)

theorem stopAndUndefine_wp {p : Ref} {deleteFiles removeEmptyFolder : Bool}
    (h : s.unannounced = [] ∨ ∃ name, Deleting p.id name s) :
    (stopAndUndefine p deleteFiles removeEmptyFolder).Wp
      (may (.removePool p.id deleteFiles removeEmptyFolder) before)
      (fun _ t => t.unannounced = []) s := by
  -- None of the three calls before the stop may fail too late.
  have hlast {c : Call} {t : Env}
      (hc : tolerates (.removePool p.id deleteFiles removeEmptyFolder) before c = false)
      (hforgiven : Forgiven (.removePool p.id deleteFiles removeEmptyFolder) before t c) :
      t.unannounced = [] := hforgiven.resolve_right (by simp [hc])
  refine wp_query_bind ?_ fun _ hforgiven => hlast rfl hforgiven
  intro (persistent : Bool) _
  refine wp_query_bind ?_ fun _ hforgiven => hlast rfl hforgiven
  intro (active : Bool) hactive
  obtain ⟨q, hq, rfl⟩ := query_poolIsActive hactive
  have hrest (t : Env) (ht : t.unannounced = []) :
      (if persistent then undefinePool p deleteFiles removeEmptyFolder else pure ()).Wp
        (may (.removePool p.id deleteFiles removeEmptyFolder) before)
        (fun _ t => t.unannounced = []) t := by
    apply wp_loud _ ht
    cases persistent with
    | true => exact calls_undefinePool p deleteFiles removeEmptyFolder
    | false => trivial
  cases hrun : q.active with
  | true =>
      have honly : Only ⟨.pool, p.id⟩ s := by
        rcases h with h | ⟨name, h⟩
        · exact .of_nil h
        · exact h.only
      show (command (.poolDestroy p) >>= fun _ =>
        if persistent then undefinePool p deleteFiles removeEmptyFolder else pure ()).Wp _ _ s
      refine wp_command_bind ?_ fun _ hforgiven => hlast rfl hforgiven
      intro r hr heffect
      exact hrest _ (honly.announced heffect (by rintro x ⟨⟩) (poolDestroy_event r hr))
  | false =>
      apply hrest
      rcases h with h | ⟨name, h⟩
      · exact h
      · obtain ⟨q', hq', hactive', -⟩ := h.runs
        obtain rfl : q = q' := Option.some.inj (hq.symm.trans hq')
        simp [hrun] at hactive'

theorem removePool_wp (id : Uuid) (deleteFiles removeEmptyFolder : Bool)
    (hs : s.unannounced = []) (hnames : NamesUnique s.world) :
    (removePool id deleteFiles removeEmptyFolder).Wp
      (may (.removePool id deleteFiles removeEmptyFolder) s.world)
      (fun _ t => t.unannounced = []) s := by
  refine wp_query_bind ?_ fun _ _ => hs
  intro p hp
  obtain ⟨x, -, rfl⟩ := except_map_eq_ok.mp hp
  cases deleteFiles with
  | true =>
      apply Prog.wp_bind.mpr
      apply (deleteFilesOf_wp hs hnames).imp
      rintro (e | _) t ht
      · exact ht
      · exact stopAndUndefine_wp (.inr ht)
  | false => exact stopAndUndefine_wp (.inl hs)

end Pools

section Domains

-- The calls of the delete of a VM.
def Delible (c : Call) : Prop := Loud c ∨ ∃ v, c = .command (.volDelete v)

theorem calls_loud {α : Type} {p : Job α} (h : p.Calls Loud) : p.Calls Delible :=
  h.imp fun _ => .inl

theorem calls_removeTarget (users : List (String × String)) (target : Delete.Target) :
    (Delete.removeTarget users target).Calls Delible := by
  unfold Delete.removeTarget
  split
  · trivial
  · split
    · trivial
    · apply (calls_loud (calls_query _)).attempt.bind
      rintro (e | v)
      · simp only
        split <;> trivial
      · have hdelete : (command (.volDelete v)).Calls Delible := ⟨.inr ⟨v, rfl⟩, fun _ => trivial⟩
        apply hdelete.attempt.bind
        rintro (e | _) <;> trivial

theorem calls_undefine (d : Ref) : (Delete.undefine d).Calls Loud := by
  have hundefine (flags : Nat) : (command (.domainUndefineFlags d flags)).Calls Loud :=
    calls_command (by nofun)
  apply (hundefine _).attempt.bind
  rintro (e | _)
  · exact Prog.Calls.ite (hundefine _) trivial
  · trivial

variable [Xml.Xmltree]

-- A volume without an allocation takes nothing from the sizes of its pool.
theorem view_remove {w : World} {id : Uuid} {p : StoragePool} {v : Vol}
    (hp : w.pools.lookup id = some p) (hv : v.allocation = 0) (o : Obj) :
    view (w.setPool id { p with scan := p.scan.remove v, storage := p.storage.remove v }) o =
      view w o := by
  by_cases hne : (⟨.pool, id⟩ : Obj) = o
  · subst hne
    simp [view, thing, World.setPool, hp, Thing.view, poolView, Scan.remove, hv]
  · exact view_setThing (fits_pool id _) hne

theorem calls_deleteOn [FileSystem] (id : Uuid) (removeVolumes : Bool) :
    (Delete.deleteOn id removeVolumes).Calls Delible := by
  refine (calls_loud (calls_query _)).bind fun (d : Ref) =>
    (calls_loud (calls_query _)).bind fun (active : Bool) => ?_
  split
  · trivial
  · refine (calls_loud (calls_reading _)).bind fun (targets, report) =>
      (calls_loud (calls_reading _)).bind fun users =>
      (calls_loud (calls_undefine d)).bind fun _ =>
      (calls_loud (calls_query _)).attempt.bind ?_
    rintro (e | _)
    · simp only
      split
      · apply Prog.Calls.foldlM
        intro report target
        apply (calls_removeTarget users target).bind
        rintro (_ | reason) <;> trivial
      · trivial
    · trivial

variable [Libvirtd]

theorem may_volDelete {id : Uuid} {removeVolumes : Bool} {before : World} {s t : Env} {v : VolRef}
    {r : Except Error Unit}
    (h : may (.delete id removeVolumes) before s (.command (.volDelete v)) r t)
    (hs : s.unannounced = []) : t.unannounced = [] := by
  obtain ⟨fault, hcareful, hreply⟩ := h
  cases fault with
  | some e =>
      cases hreply
      exact hs
  | none =>
      have hempty := hcareful.2 id removeVolumes v
      simp only [Env.reply] at hreply
      split at hreply
      · rename_i p hp
        cases hreply
        simp only [World.perform] at hp
        split at hp
        · cases hp
        · rename_i pid q hname
          split at hp
          · rename_i hactive
            obtain ⟨found, hfound, rfl⟩ := except_map_eq_ok.mp hp
            have hzero : found.allocation = 0 := by
              apply hempty found rfl rfl rfl
              simp only [World.vol, hname, if_pos hactive, hfound]
            have hlookup := pool_eq_ok.mp (poolByName_lookup hname)
            apply List.eq_nil_iff_forall_not_mem.mpr
            intro o ho
            rcases (mem_unannounced_after.mp ho).1 with ho | ho
            · simp [hs] at ho
            · exact ho (view_remove hlookup hzero o).symm
          · cases hp
      · cases hreply
        exact hs

theorem delete_wp [FileSystem] (id : Uuid) (removeVolumes : Bool) {before : World} {s : Env}
    (hs : s.unannounced = []) :
    (Delete.deleteOn id removeVolumes).Wp (may (.delete id removeVolumes) before)
      (fun _ t => t.unannounced = []) s := by
  apply Prog.Wp.of_calls (fun s : Env => s.unannounced = []) _ (calls_deleteOn id removeVolumes) hs
  rintro c (hc | ⟨v, rfl⟩) s r t hr
  · exact may_loud hc hr
  · exact may_volDelete hr

end Domains

end Lodger.Jobs
