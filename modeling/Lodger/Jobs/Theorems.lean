import Lodger.Jobs.Removal

namespace Lodger.Jobs

open Lodger.Lib Lodger.Libvirt Lodger.Cache

section Announced

variable [Xml.Xmltree] [Libvirtd]

theorem reply_namesUnique {s : Env} {fault : Option VirtError} {c : Call}
    (h : NamesUnique s.world) : NamesUnique (s.reply fault c).2.world := by
  cases c with
  | query q => exact h
  | send e => exact h
  | command c =>
      simp only [Env.reply]
      split
      · exact h
      · split
        · rename_i p hp
          exact (perform_effect c p hp).namesUnique h
        · exact h

variable [FileSystem] {s t : State} {a : Action}

-- The specification of every operation, from a state without open changes.
theorem op_wp (op : Op) {s : Env} (hnames : NamesUnique s.world) (hs : s.unannounced = []) :
    op.job.Wp (may op s.world) (fun _ t => t.unannounced = []) s := by
  have hdiscard {α : Type} {p : Job α} {before : World}
      (h : p.Wp (may op before) (fun _ t => t.unannounced = []) s) :
      (p >>= fun _ => (pure () : Job Unit)).Wp (may op before) (fun _ t => t.unannounced = []) s := by
    apply Prog.wp_bind.mpr
    apply h.imp
    rintro (e | _) t ht
    · exact ht
    · exact ht
  cases op with
  | power id action => exact wp_loud (calls_power id action) hs
  | setAutostart id on => exact setAutostart_wp id on hs
  | setPoolActive id active => exact wp_loud (calls_setPoolActive id active) hs
  | setPoolAutostart id on => exact setPoolAutostart_wp id on hs
  | setNetworkActive id active => exact wp_loud (calls_setNetworkActive id active) hs
  | setNetworkAutostart id on => exact setNetworkAutostart_wp id on hs
  | createVolume pool xml => exact createVolume_wp pool xml hs
  | deleteVolume pool name => exact deleteVolume_wp pool name hnames hs
  | createPool xml autostart => exact hdiscard (createPool_wp xml autostart hs)
  | removePool id deleteFiles removeEmptyFolder =>
      exact removePool_wp id deleteFiles removeEmptyFolder hs hnames
  | createNetwork xml autostart => exact hdiscard (createNetwork_wp xml autostart hs)
  | deleteNetwork id => exact wp_loud (calls_deleteNetwork id) hs
  | delete id removeVolumes => exact hdiscard (delete_wp id removeVolumes hs)

-- After every operation all changes have had their events; the rest of the
-- operation in progress sees to that.
structure Announced (s : State) : Prop where
  names : NamesUnique s.world
  idle : s.job = none → s.unannounced = []
  busy : ∀ op before rest, s.job = some ⟨op, before, rest⟩ →
    rest.Wp (may op before) (fun _ t => t.unannounced = []) s.toEnv

theorem Announced.step (h : Announced s) (hcareful : CarefulStep s a) (hs : step s a = some t) :
    Announced t := by
  cases a with
  | begin op =>
      simp only [Jobs.step] at hs
      split at hs
      · rename_i hjob
        cases hs
        refine ⟨h.names, nofun, ?_⟩
        rintro _ _ _ ⟨⟩
        exact op_wp op h.names (h.idle hjob)
      · cases hs
  | call fault =>
      simp only [Jobs.step] at hs
      split at hs
      · rename_i op before c k hjob
        cases hs
        refine ⟨reply_namesUnique h.names, nofun, ?_⟩
        rintro _ _ _ ⟨⟩
        exact h.busy op before _ hjob _ _ ⟨fault, hcareful op before c k hjob, rfl⟩
      · cases hs
  | finish =>
      simp only [Jobs.step] at hs
      split at hs
      · rename_i op before r hjob
        cases hs
        exact ⟨h.names, fun _ => h.busy op before _ hjob, nofun⟩
      · cases hs

-- No operation changes the inventory silently: in a careful run every change has
-- had its event when the operation returns.
theorem changes_announced (w : World) (hnames : NamesUnique w) (acts : List Action) (s : State)
    (hcareful : Along step CarefulStep { world := w } acts)
    (hrun : exec step { world := w } acts = some s) (hreturned : s.job = none) :
    s.unannounced = [] := by
  have hstart : Announced { world := w } := ⟨hnames, fun _ => rfl, nofun⟩
  exact (exec_invariant Announced (fun _ _ _ h hok hs => h.step hok hs) hstart hcareful hrun).idle
    hreturned

end Announced

-- A pool with the volume `root`, and the VM `web` with the volume as its disk.
section Runs

def webXml : String :=
  "<domain><devices><disk><source file='/srv/root'/></disk></devices></domain>"

def webTree : Xml.Element :=
  .mk "domain" [] [.element (.mk "devices" [] [.element (.mk "disk" []
    [.element (.mk "source" [("file", "/srv/root")] [])])])]

local instance webTrees : Xml.Xmltree where
  parse xml := if xml = webXml then .ok webTree else .error "not a document of this host"

local instance noLinks : FileSystem := ⟨some⟩

local instance plainLibvirtd : Libvirtd where
  sanitizePath := id
  liveXml := id
  stopsAtOnce _ := false
  definePool _ _ := .error ⟨.other, "not used"⟩
  defineNetwork _ _ := .error ⟨.other, "not used"⟩
  createVol _ _ := .error ⟨.other, "not used"⟩

def rootVol : Vol := ⟨"root", "/srv/root", "/srv/root", 0, 10, 5, "<volume/>"⟩

def srvPool : StoragePool where
  name := "srv"
  state := 2
  active := true
  persistent := true
  autostart := false
  scan := ⟨[rootVol], 100, 5, 95⟩
  storage := ⟨[rootVol], 100, 5, 95⟩

def web : Domain := ⟨"web", 5, 1, 1024, .shutOff webXml, false⟩

def srvWorld : World := ⟨.singleton 7 web, .singleton 1 srvPool, ∅⟩

-- No call fails, and no VM is deleted.
def calm (s : State) : Action → Bool
  | .call fault =>
      match s.job with
      | some ⟨op, _, .call c _⟩ => !(op matches .delete ..) && (s.toEnv.reply fault c).1.isOk
      | _ => true
  | _ => true

theorem careful_of_calm {s : State} {a : Action} (h : calm s a = true) : CarefulStep s a := by
  cases a with
  | call fault =>
      intro op before c k hjob
      simp only [calm, hjob, Bool.and_eq_true] at h
      refine ⟨fun hfail => ?_, ?_⟩
      · rw [hfail] at h
        cases h.2
      · rintro id removeVolumes v found rfl
        cases h.1
  | _ => trivial

theorem srvWorld_namesUnique : NamesUnique srvWorld := by
  intro id id' p p' h h' _
  have hkeys (id : Uuid) (p : StoragePool) (h : srvWorld.pools.lookup id = some p) : id = 1 := by
    have hmem : id ∈ srvWorld.pools := AList.lookup_isSome.mp (by rw [h]; rfl)
    simpa [srvWorld, AList.keys_singleton] using AList.mem_keys.mp hmem
  exact (hkeys id p h).trans (hkeys id' p' h').symm

theorem changes_announced_autostart :
    ∃ s, exec step { world := srvWorld }
        [.begin (.setPoolAutostart 1 true), .call none, .call none, .call none, .finish] = some s ∧
      s.hub = [.pool 1 POOL_AUTOSTART] ∧ s.unannounced = [] := by
  obtain ⟨s, hrun, hs⟩ := Option.map_eq_some_iff.mp
    (show (exec step { world := srvWorld }
      [.begin (.setPoolAutostart 1 true), .call none, .call none, .call none, .finish]).map
        (fun s => (s.job.isNone, s.hub)) = some (true, [.pool 1 POOL_AUTOSTART]) from rfl)
  simp only [Prod.mk.injEq, Option.isNone_iff_eq_none] at hs
  have hcalm : Along step (fun s a => calm s a = true) { world := srvWorld }
      [.begin (.setPoolAutostart 1 true), .call none, .call none, .call none, .finish] := by decide
  exact ⟨s, hrun, hs.2, changes_announced srvWorld srvWorld_namesUnique _ s
    (hcalm.imp fun _ _ => careful_of_calm) hrun hs.1⟩

-- The delete of the VM with its volume: the pool has more space, and nobody is
-- told.
theorem volume_of_vm_deleted_silently :
    ¬∀ w acts s, NamesUnique w → exec step { world := w } acts = some s → s.job = none →
      s.unannounced = [] := by
  intro h
  obtain ⟨s, hrun, hs⟩ := Option.map_eq_some_iff.mp
    (show (exec step { world := srvWorld }
      (.begin (.delete 7 true) :: List.replicate 10 (.call none) ++ [.finish])).map
        (fun s => (s.job.isNone, s.unannounced)) = some (true, [⟨.pool, 1⟩, ⟨.pool, 1⟩])
      by decide +kernel)
  simp only [Prod.mk.injEq, Option.isNone_iff_eq_none] at hs
  have := h srvWorld _ s srvWorld_namesUnique hrun hs.1
  simp [hs.2] at this

end Runs

end Lodger.Jobs
