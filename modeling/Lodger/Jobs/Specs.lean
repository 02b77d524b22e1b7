import Lodger.Jobs.Rules

namespace Lodger.Jobs

open Lodger.Lib Lodger.Libvirt Lodger.Cache

-- The calls that leave nothing without an event.
def Loud : Call → Prop
  | .command c => ∀ w o, ¬Silent w c o
  | _ => True

section Loud

theorem calls_query (q : Query) : (query q).Calls Loud := ⟨trivial, fun _ => trivial⟩

theorem calls_command {c : Command} (h : ∀ w o, ¬Silent w c o) : (command c).Calls Loud :=
  ⟨h, fun _ => trivial⟩

theorem calls_reading {α : Type} (p : Read α) : (reading p).Calls Loud :=
  reading_calls (fun _ => trivial) p

theorem calls_withAcpi {call : Nat → Job Unit} (h : ∀ flags, (call flags).Calls Loud) (acpi : Nat) :
    (withAcpi call acpi).Calls Loud := by
  apply (h acpi).attempt.bind
  rintro (e | _)
  · simp only
    split
    · exact h 0
    · trivial
  · trivial

theorem calls_power (id : Uuid) (action : Power) : (power id action).Calls Loud := by
  refine (calls_query _).bind fun d => (calls_query _).bind fun info => (calls_query _).bind ?_
  intro active
  split
  · trivial
  · cases action with
    | start | forceOff | pause | resume => exact calls_command (by nofun)
    | shutdown | reboot =>
        simp only [Power.run]
        apply calls_withAcpi
        intro flags
        exact calls_command (by nofun)

theorem calls_setActive (what : String) (active : Bool) {isActive : Job Bool}
    {create destroy : Job Unit} (hisActive : isActive.Calls Loud) (hcreate : create.Calls Loud)
    (hdestroy : destroy.Calls Loud) :
    (setActive what isActive create destroy active).Calls Loud := by
  apply hisActive.bind
  intro isActive
  cases active <;> cases isActive
  · trivial
  · exact hdestroy
  · exact hcreate
  · trivial

theorem calls_setPoolActive (id : Uuid) (active : Bool) : (setPoolActive id active).Calls Loud :=
  (calls_query _).bind fun _ => calls_setActive _ _ (calls_query _) (calls_command (by nofun))
    (calls_command (by nofun))

theorem calls_setNetworkActive (id : Uuid) (active : Bool) :
    (setNetworkActive id active).Calls Loud :=
  (calls_query _).bind fun _ => calls_setActive _ _ (calls_query _) (calls_command (by nofun))
    (calls_command (by nofun))

theorem calls_deleteNetwork (id : Uuid) : (deleteNetwork id).Calls Loud := by
  refine (calls_query _).bind fun (n : Ref) => (calls_query _).bind fun (persistent : Bool) =>
    (calls_query _).bind fun (active : Bool) => ?_
  have hundefine : (if persistent then command (.networkUndefine n) else pure ()).Calls Loud := by
    split
    · exact calls_command (by nofun)
    · trivial
  cases active with
  | true => exact (calls_command (by nofun)).bind fun _ => hundefine
  | false => exact hundefine

theorem calls_undefinePool (p : Ref) (deleteFiles removeEmptyFolder : Bool) :
    (undefinePool p deleteFiles removeEmptyFolder).Calls Loud := by
  have hdelete : (command (.poolDelete p)).Calls Loud := calls_command (by nofun)
  have hundefine : (command (.poolUndefine p)).Calls Loud := calls_command (by nofun)
  cases deleteFiles with
  | true => exact hdelete.bind fun _ => hundefine
  | false =>
      cases removeEmptyFolder with
      | true => exact hdelete.attempt.bind fun _ => hundefine
      | false => exact hundefine

variable [Xml.Xmltree] [Libvirtd] {op : Op} {before : World} {s t : Env} {α : Type}

theorem may_loud {c : Call} {r : Except Error c.Result} (h : Loud c) (hr : may op before s c r t)
    (hs : s.unannounced = []) : t.unannounced = [] := by
  cases c with
  | query q =>
      rw [(may_query hr).1]
      exact hs
  | send e =>
      rw [(may_send hr).2]
      simp [Env.after, hs, touched]
  | command c =>
      rcases may_command hr with ⟨p, hp, -, rfl⟩ | ⟨e, -, rfl, -⟩
      · apply List.eq_nil_iff_forall_not_mem.mpr
        intro o ho
        rcases (perform_effect c p hp).unannounced ho with ho | ho
        · simp [hs] at ho
        · exact h _ _ ho
      · exact hs

theorem wp_loud {p : Job α} (hp : p.Calls Loud) (hs : s.unannounced = []) :
    p.Wp (may op before) (fun _ t => t.unannounced = []) s := by
  apply Prog.Wp.of_calls (fun s : Env => s.unannounced = []) _ hp hs
  exact fun c hc s r t hr => may_loud hc hr

end Loud

-- A silent call and then an event for its object.
section Sent

variable [Xml.Xmltree] [Libvirtd] {op : Op} {before : World} {s : Env}

theorem wp_silent_send {c : Command} {e : Event} {o : Obj} (hs : s.unannounced = [])
    (hsilent : ∀ x, Silent s.world c x → x = o) (he : e.obj = some o) :
    (command c >>= fun _ => send e).Wp (may op before) (fun _ t => t.unannounced = []) s := by
  apply wp_command_bind
  · intro p hp heffect
    apply wp_send
    exact after_send e ((Only.of_nil hs).after heffect hsilent) he
  · exact fun _ _ => hs

theorem setAutostart_wp (id : Uuid) (on : Bool) (hs : s.unannounced = []) :
    (setAutostart id on).Wp (may op before) (fun _ t => t.unannounced = []) s := by
  apply wp_query_bind
  · intro d hd
    obtain ⟨x, -, rfl⟩ := except_map_eq_ok.mp hd
    apply wp_silent_send (o := ⟨.vm, id⟩) hs _ rfl
    rintro _ ⟨⟩
    rfl
  · exact fun _ _ => hs

theorem setPoolAutostart_wp (id : Uuid) (on : Bool) (hs : s.unannounced = []) :
    (setPoolAutostart id on).Wp (may op before) (fun _ t => t.unannounced = []) s := by
  apply wp_query_bind
  · intro p hp
    obtain ⟨x, -, rfl⟩ := except_map_eq_ok.mp hp
    apply wp_silent_send (o := ⟨.pool, id⟩) hs _ rfl
    rintro _ ⟨⟩
    rfl
  · exact fun _ _ => hs

theorem setNetworkAutostart_wp (id : Uuid) (on : Bool) (hs : s.unannounced = []) :
    (setNetworkAutostart id on).Wp (may op before) (fun _ t => t.unannounced = []) s := by
  apply wp_query_bind
  · intro n hn
    obtain ⟨x, -, rfl⟩ := except_map_eq_ok.mp hn
    apply wp_silent_send (o := ⟨.network, id⟩) hs _ rfl
    rintro _ ⟨⟩
    rfl
  · exact fun _ _ => hs

end Sent

section Creates

variable [Xml.Xmltree] [Libvirtd] {op : Op} {before : World} {s : Env} {o : Obj}

theorem wp_query_only {q : Query} (h : Only o s) :
    (query q).Wp (may op before) (fun _ t => Only o t) s :=
  wp_query (fun _ _ => h) fun _ _ => h

theorem wp_command_only {c : Command} (h : Only o s) (hsilent : ∀ w x, Silent w c x → x = o) :
    (command c).Wp (may op before) (fun _ t => Only o t) s :=
  wp_command (fun _ _ heffect => h.after heffect (hsilent _)) fun _ _ => h

-- A call that always brings an event for the object, and that must not fail.
theorem wp_command_announced {c : Command} (h : Only o s) (hsilent : ∀ w x, Silent w c x → x = o)
    (hevent : ∀ p, s.world.perform c = .ok p → some o ∈ p.events.map Event.obj)
    (hlast : tolerates op before (.command c) = false) :
    (command c).Wp (may op before) (fun _ t => t.unannounced = []) s := by
  apply wp_command
  · exact fun p hp heffect => h.announced heffect (hsilent _) (hevent p hp)
  · rintro e (hforgiven | hforgiven)
    · exact hforgiven
    · simp [hlast] at hforgiven

theorem startOrRemove_wp {start : Job Unit} {isActive : Job Bool} {destroy undefine : Job Unit}
    (hstart : start.Wp (may op before)
      (fun r t => Outcome (fun _ => t.unannounced = []) (fun _ => Only o t) r) s)
    (hisActive : ∀ s, Only o s → isActive.Wp (may op before) (fun _ t => Only o t) s)
    (hdestroy : ∀ s, Only o s → destroy.Wp (may op before) (fun _ t => Only o t) s)
    (hundefine : ∀ s, Only o s →
      undefine.Wp (may op before) (fun _ t => t.unannounced = []) s) :
    (startOrRemove start isActive destroy undefine).Wp (may op before)
      (fun _ t => t.unannounced = []) s := by
  apply Prog.wp_bind.mpr
  apply Prog.wp_attempt.mpr
  apply hstart.imp
  rintro (e | _) t ht
  · have hrest (t : Env) (ht : Only o t) :
        (undefine.attempt >>= fun _ => (Prog.fail e : Job Unit)).Wp (may op before)
          (fun _ t => t.unannounced = []) t := by
      apply Prog.wp_bind.mpr
      apply Prog.wp_attempt.mpr
      exact hundefine t ht
    apply Prog.wp_bind.mpr
    apply Prog.wp_attempt.mpr
    apply (hisActive t ht).imp
    intro active t ht
    simp only [outcome_ok]
    split
    · apply Prog.wp_bind.mpr
      apply Prog.wp_attempt.mpr
      exact (hdestroy t ht).imp fun _ t ht => hrest t ht
    · exact hrest t ht
  · exact ht

theorem createPool_wp (xml : String) (autostart : Bool) (hs : s.unannounced = []) :
    (createPool xml autostart).Wp (may (.createPool xml autostart) before)
      (fun _ t => t.unannounced = []) s := by
  apply wp_command_bind
  · intro p _ heffect
    obtain ⟨(p : Ref), w, events⟩ := p
    have hdefined : Only ⟨.pool, p.id⟩ (s.after w events) :=
      (Only.of_nil hs).after heffect (by rintro x ⟨⟩)
    have hstart : (do
        command (.poolBuild p)
        command (.poolSetAutostart p autostart)
        command (.poolCreate p) : Job Unit).Wp (may (.createPool xml autostart) before)
          (fun r t => Outcome (fun _ => t.unannounced = []) (fun _ => Only ⟨.pool, p.id⟩ t) r)
          (s.after w events) := by
      refine wp_command_bind ?_ fun _ _ => hdefined
      intro r _ heffect
      have hbuilt := hdefined.after heffect (by rintro x ⟨⟩)
      refine wp_command_bind ?_ fun _ _ => hbuilt
      intro r _ heffect
      have hset := hbuilt.after heffect (by rintro x ⟨⟩; rfl)
      refine wp_command ?_ fun _ _ => hset
      intro r hr heffect
      exact hset.announced heffect (by rintro x ⟨⟩) (poolCreate_event r hr)
    apply Prog.wp_bind.mpr
    refine (startOrRemove_wp hstart ?_ ?_ ?_).imp ?_
    · exact fun s h => wp_query_only h
    · exact fun s h => wp_command_only h (by rintro w x ⟨⟩)
    · exact fun s h => wp_command_announced h (by rintro w x ⟨⟩) poolUndefine_event rfl
    · rintro (e | _) t ht
      · exact ht
      · exact ht
  · exact fun _ _ => hs

theorem createNetwork_wp (xml : String) (autostart : Bool) (hs : s.unannounced = []) :
    (createNetwork xml autostart).Wp (may (.createNetwork xml autostart) before)
      (fun _ t => t.unannounced = []) s := by
  apply wp_command_bind
  · intro n _ heffect
    obtain ⟨(n : Ref), w, events⟩ := n
    have hdefined : Only ⟨.network, n.id⟩ (s.after w events) :=
      (Only.of_nil hs).after heffect (by rintro x ⟨⟩)
    have hstart : (do
        command (.networkSetAutostart n autostart)
        command (.networkCreate n) : Job Unit).Wp (may (.createNetwork xml autostart) before)
          (fun r t => Outcome (fun _ => t.unannounced = []) (fun _ => Only ⟨.network, n.id⟩ t) r)
          (s.after w events) := by
      refine wp_command_bind ?_ fun _ _ => hdefined
      intro r _ heffect
      have hset := hdefined.after heffect (by rintro x ⟨⟩; rfl)
      refine wp_command ?_ fun _ _ => hset
      intro r hr heffect
      exact hset.announced heffect (by rintro x ⟨⟩) (networkCreate_event r hr)
    apply Prog.wp_bind.mpr
    refine (startOrRemove_wp hstart ?_ ?_ ?_).imp ?_
    · exact fun s h => wp_query_only h
    · exact fun s h => wp_command_only h (by rintro w x ⟨⟩)
    · exact fun s h => wp_command_announced h (by rintro w x ⟨⟩) networkUndefine_event rfl
    · rintro (e | _) t ht
      · exact ht
      · exact ht
  · exact fun _ _ => hs

end Creates

section Volumes

variable [Libvirtd]

theorem runningPool_holds (w : World) (id : Uuid) : (Volume.runningPool id).Returns
    (fun q r => r = w.query q ∨ ∃ e, r = .error e) fun p => p.id = id := by
  apply holds_get _ fun _ _ => trivial
  intro p hp
  have hid : (p : Ref).id = id := by
    rcases hp with hp | ⟨e, hp⟩
    · obtain ⟨x, -, rfl⟩ := except_map_eq_ok.mp hp.symm
      rfl
    · cases hp
  apply holds_get _ fun _ _ => trivial
  intro (active : Bool) _
  cases active with
  | true => exact hid
  | false => trivial

variable [Xml.Xmltree] {op : Op} {before : World} {s : Env}

theorem createVolume_wp (pool : Uuid) (xml : String) (hs : s.unannounced = []) :
    (createVolume pool xml).Wp (may op before) (fun _ t => t.unannounced = []) s := by
  apply Prog.wp_bind.mpr
  apply wp_reading
  apply (runningPool_holds s.world pool).imp
  rintro (e | p) hp
  · exact hs
  · obtain rfl : p.id = pool := hp
    apply wp_silent_send (o := ⟨.pool, p.id⟩) hs _ rfl
    rintro _ ⟨⟩
    rfl

variable [FileSystem]

-- The volume is one of the pool, so its handle names the pool.
theorem factsOf_holds (w : World) (id : Uuid) (name : String) : (Volume.factsOf id name).Returns
    (fun q r => r = w.query q ∨ ∃ e, r = .error e)
    fun found => ∃ p, w.pools.lookup id = some p ∧ found.1.pool = p.name := by
  apply Prog.Holds.bind
  apply (runningPool_holds w id).imp
  rintro (e | pool) hpool
  · trivial
  · rw [outcome_ok] at hpool ⊢
    apply holds_get _ fun _ _ => trivial
    intro v hv
    have hfound : ∃ p, w.pools.lookup id = some p ∧ (v : VolRef).pool = p.name := by
      rcases hv with hv | ⟨e, hv⟩
      · obtain ⟨p, hp, hv⟩ := except_bind_eq_ok.mp hv.symm
        obtain ⟨x, -, rfl⟩ := except_map_eq_ok.mp hv
        rw [hpool] at hp
        exact ⟨p, pool_eq_ok.mp (activePool_eq_ok.mp hp).1, rfl⟩
      · cases hv
    apply holds_get _ fun _ _ => trivial
    intro text _
    have hrest (xml : Xml.VolumeXml) : (do
        let volumes ← Volume.readVolumes pool
        let disks ← Volume.disksOfAllDomains
        let facts ← Volume.describe v xml disks (Volume.overlaysOf volumes)
        return (v, facts) : Read (VolRef × Volume.Facts)).Returns
          (fun q r => r = w.query q ∨ ∃ e, r = .error e)
          fun found => ∃ p, w.pools.lookup id = some p ∧ found.1.pool = p.name := by
      apply Prog.Holds.bind
      apply (Prog.Holds.trivial _).imp
      rintro (e | volumes) -
      · trivial
      apply Prog.Holds.bind
      apply (Prog.Holds.trivial _).imp
      rintro (e | disks) -
      · trivial
      apply Prog.Holds.bind
      apply (Prog.Holds.trivial _).imp
      rintro (e | facts) -
      · trivial
      · exact hfound
    apply Prog.Holds.bind
    apply (Prog.Holds.trivial _).imp
    rintro (e | xml) -
    · trivial
    · exact hrest xml

theorem deleteVolume_wp (pool : Uuid) (name : String) (hnames : NamesUnique s.world)
    (hs : s.unannounced = []) :
    (deleteVolume pool name).Wp (may op before) (fun _ t => t.unannounced = []) s := by
  apply Prog.wp_bind.mpr
  apply Prog.wp_bind.mpr
  apply wp_reading
  apply (factsOf_holds s.world pool name).imp
  rintro (e | ⟨v, facts⟩) hfound
  · exact hs
  · obtain ⟨p, hp, hv⟩ := hfound
    apply Prog.Wp.ite
    · intro _
      apply wp_command
      · intro r hr heffect
        apply wp_send
        refine after_send (o := ⟨.pool, pool⟩) _ ((Only.of_nil hs).after heffect ?_) rfl
        rintro _ (_ | _ | _ | _ | _ | ⟨_, id, q, hname⟩)
        rw [hv, hnames.poolByName hp] at hname
        cases hname
        rfl
      · exact fun _ _ => hs
    · exact fun _ => hs

end Volumes

end Lodger.Jobs
