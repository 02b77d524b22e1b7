import Lodger.Supervisor.Own

namespace Lodger.Supervisor

open Lodger.Lib Lodger.Libvirt Lodger.Cache

-- What is still to come for an object that the inventory does not show as it
-- is.
inductive Outstanding (s : State) (o : Obj) : Prop where
  | owed (h : o ∈ s.owed)
  | unsent (c : OwnCall) (hc : c ∈ s.calls) (hgen : c.gen = s.gen) (ho : c.obj = o)
      (h : c.progress = .changed)
  | queued (e : Event) (he : e ∈ s.rx.queue) (ho : e.obj = some o)
  | unapplied (e : Event) (p : Read (Option Refresh)) (asked : List Asked)
      (hpc : s.pc = .refreshing e p asked) (ho : e.obj = some o)
  | reloadDue (h : 0 < s.rx.missed)
  | reloading (p : Read Inventory) (asked : List Asked) (hpc : s.pc = .loading false p asked)
  | closing (hlost : s.lost = true) (h : s.closing = true)
  | closed (hlost : s.lost = true) (e : Event) (he : e ∈ s.rx.queue) (h : isClosed e = true)

instance Announced.decidable : ∀ s a, Decidable (Announced s a)
  | s, .act i => inferInstanceAs (Decidable (∀ c ∈ s.calls[i]?, c.gen = s.gen))
  | _, .change .. | _, .deliver .. | _, .lose | _, .deliverClosed _ | _, .open | _, .subscribe
  | _, .call | _, .finish | _, .fail _ | _, .bump | _, .publish | _, .connect | _, .recv
  | _, .forward | _, .retry | _, .take .. | _, .send _ | _, .giveUp _ =>
      inferInstanceAs (Decidable True)

variable {s : State} {o : Obj}

section Follows

variable [Xml.Xmltree]

theorem Noticed.outstanding (h : Noticed s) (hconn : s.conn = .connected) (hlost : s.lost = true) :
    Outstanding s o := by
  have hin := h.connected hconn
  rcases h.lost hlost with hclosing | (hmissed | ⟨e, he, hclosed⟩) | hdoomed
  · exact .closing hlost hclosing
  · exact .reloadDue hmissed
  · exact .closed hlost e he hclosed
  · cases hpc : s.pc with
    | loading first p asked =>
        rw [hpc] at hin
        cases first with
        | true => cases hin
        | false => exact .reloading p asked hpc
    | waiting | opening | opened | counted | published =>
        rw [hpc] at hin
        cases hin
    | loaded first | idle | refreshing e p asked | forwarding e =>
        rw [hpc] at hdoomed
        cases hdoomed

variable [Libvirtd]

theorem Covered.outstanding (h : Covered s) (hn : Noticed s) (hconn : s.conn = .connected)
    (hdiffers : s.inventory.entry o ≠ view s.world o) : Outstanding s o := by
  rcases h.covered o with (howed | (hmissed | ⟨e, he, ho⟩) | ⟨c, hc, hgen, ho, hp⟩ | hlost) | hshown
  · exact .owed howed
  · exact .reloadDue hmissed
  · exact .queued e he ho
  · exact .unsent c hc hgen ho hp
  · exact hn.outstanding hconn hlost
  · have hin := hn.connected hconn
    cases hpc : s.pc with
    | loading first p asked =>
        rw [hpc] at hin
        cases first with
        | true => cases hin
        | false => exact .reloading p asked hpc
    | refreshing e p asked =>
        by_cases he : e.obj = some o
        · exact .unapplied e p asked hpc he
        · rw [hpc] at hshown
          simp only [Shown, if_neg he] at hshown
          exact absurd hshown hdiffers
    | waiting | opening | opened | counted | published =>
        rw [hpc] at hin
        cases hin
    | loaded first | idle | forwarding e =>
        rw [hpc] at hshown
        exact absurd hshown hdiffers

-- The inventory follows libvirt: while the state is `Connected`, an object
-- that the inventory does not show as libvirt has it still has something
-- outstanding.
theorem inventory_follows_libvirt (w : World) (acts : List Action) (s : State)
    (hannounced : Along step Announced { world := w } acts)
    (hrun : exec step { world := w } acts = some s) (hconn : s.conn = .connected) :
    (∀ o, s.inventory.entry o ≠ view s.world o → Outstanding s o) ∧
      ((∀ o, ¬Outstanding s o) → ∀ o, s.inventory.entry o = view s.world o) := by
  have hcovered : Covered s := covered_run hannounced hrun
  have hnoticed : Noticed s :=
    exec_invariant_all Noticed (fun _ _ _ h hs => h.step hs) (noticed_start w) hrun
  have hdiffers (o : Obj) (h : s.inventory.entry o ≠ view s.world o) : Outstanding s o :=
    hcovered.outstanding hnoticed hconn h
  refine ⟨hdiffers, ?_⟩
  intro hquiet o
  by_contra h
  exact hquiet o (hdiffers o h)

def Pc.reading (o : Obj) : Pc → Bool
  | .loading .. => true
  | .refreshing e _ _ => e.obj = some o
  | _ => false

-- While the state is `Connected`, the queue of the supervisor is empty and it
-- does not read the object, the inventory has the change of a finished call: it
-- shows the changed part of the object as libvirt had it at a moment after the
-- change.
def OwnChangesShown (w : World) (acts : List Action) (s : State) : Prop :=
  s.conn = .connected → s.rx = {} → ∀ front i back c,
    acts = front ++ .act i :: back → s.calls[i]? = some c → c.progress = .finished →
    s.pc.reading c.obj = false →
    ∃ mid rest t, back = mid ++ rest ∧
      exec step { world := w } (front ++ .act i :: mid) = some t ∧
      (s.inventory.entry c.obj).map c.change.aspect.detail =
        (view t.world c.obj).map c.change.aspect.detail

theorem Fresh.shown {c c' : OwnCall} {i : Nat} {values : Set (Option Thing)}
    (h : Fresh c i values s) (hn : Noticed s) (hconn : s.conn = .connected) (hempty : s.rx = {})
    (hi : s.calls[i]? = some c') (hfinished : c'.progress = .finished)
    (hreading : s.pc.reading c.obj = false) :
    FreshIn c.change.aspect c.obj.id values (s.inventory.entry c.obj) := by
  have hin := hn.connected hconn
  rcases h.cover with ⟨-, hunsent⟩ | hdue | hcurrent
  · rw [hi, Option.some.injEq] at hunsent
    rw [hunsent] at hfinished
    cases hfinished
  · rw [ReadDue, hempty] at hdue
    exact absurd hdue Receiver.not_due_empty
  · cases hpc : s.pc with
    | loading first p asked =>
        rw [hpc] at hreading
        cases hreading
    | refreshing e p asked =>
        rw [hpc] at hreading hcurrent
        simp only [Pc.reading, decide_eq_false_iff_not] at hreading
        simp only [Current, if_neg hreading] at hcurrent
        exact hcurrent
    | waiting | opening | opened | counted | published =>
        rw [hpc] at hin
        cases hin
    | loaded first | idle | forwarding e =>
        rw [hpc] at hcurrent
        exact hcurrent

-- A change that Lodger made itself reaches the inventory, if each call makes
-- its change in time.
theorem own_changes_reach_inventory (w : World) (acts : List Action) (s : State)
    (htime : Along step InTime { world := w } acts)
    (hrun : exec step { world := w } acts = some s) : OwnChangesShown w acts s := by
  rintro hconn hempty front i back c rfl hi hfinished hreading
  obtain ⟨s₀, hfront, hrest⟩ := exec_append.mp hrun
  obtain ⟨s₁, hact, hback⟩ := exec_cons_eq_some.mp hrest
  have hinit : Aimed .opening ∧ Traced .opening := ⟨trivial, trivial⟩
  have hinv := exec_invariant_all
    (fun s => (Aimed s.pc ∧ Traced s.pc) ∧ ∀ c ∈ s.calls, c.change.fits c.obj = true)
    (fun _ _ _ h hs => ⟨⟨h.1.1.step hs, h.1.2.step hs⟩, step_calls_fit h.2 hs⟩)
    ⟨hinit, by simp⟩ hfront
  have hnoticed : Noticed s :=
    exec_invariant_all Noticed (fun _ _ _ h hs => h.step hs) (noticed_start w) hrun
  have htaken : ∃ c₀ : OwnCall, s₀.calls[i]? = some { c₀ with progress := .taken } := by
    simp only [step] at hact
    split at hact
    · rename_i gen o change hi
      exact ⟨⟨gen, o, change, .taken⟩, hi⟩
    · cases hact
  obtain ⟨c₀, hi₀⟩ := htaken
  have hfits := hinv.2 _ (List.mem_of_getElem? hi₀)
  have hstart := fresh_act hfits hinv.1.2 hi₀ (htime.append_right hfront).1 hact
  obtain ⟨hfresh, -⟩ := fresh_run hstart (hinv.1.1.step hact) hback
  obtain ⟨progress, -, hmade⟩ := hfresh.made
  obtain rfl : c = { c₀ with progress } := Option.some.inj (hi.symm.trans hmade)
  obtain ⟨y, ⟨mid, rest, t, hmid, ht, rfl⟩, hentry⟩ :=
    hfresh.shown hnoticed hconn hempty hi hfinished hreading
  exact ⟨mid, rest, t, hmid, exec_append.mpr ⟨s₀, hfront, exec_cons_eq_some.mpr ⟨s₁, hact, ht⟩⟩,
    hentry⟩

end Follows

-- Runs with one pool. Nothing in them reads a document or a path.
section Runs

local instance noXml : Xml.Xmltree := ⟨fun _ => .error "no document"⟩

local instance storageOnly : Libvirtd where
  sanitizePath := id
  liveXml := id
  stopsAtOnce _ := false
  definePool _ _ := .error ⟨.other, "not used"⟩
  defineNetwork _ _ := .error ⟨.other, "not used"⟩
  createVol _ _ := .error ⟨.other, "not used"⟩

def images : StoragePool where
  name := "images"
  state := 2
  active := true
  persistent := true
  autostart := false
  scan := ⟨[], 1000, 0, 1000⟩
  storage := ⟨[], 1000, 0, 1000⟩

def imagesObj : Obj := ⟨.pool, 1⟩

def imagesWorld : World := ⟨∅, .singleton imagesObj.id images, ∅⟩

def connecting : List Action :=
  [.open, .subscribe, .call, .call, .call, .call, .call, .call, .finish, .bump, .publish, .connect]

-- The call takes its `Virt`, the read connection closes and a new `Virt` opens.
-- Then the old job connection makes the change, before the load or after it.
def reconnecting : List Action :=
  connecting ++ [.take imagesObj (.autostart true), .lose, .deliverClosed 0, .recv, .retry]

def switchedOn : List Action :=
  reconnecting ++ [.open, .subscribe, .act 0, .send 0, .call, .call, .call, .call, .call, .call,
    .finish, .bump, .publish, .connect]

def switchedOnLate : List Action := reconnecting ++ connecting ++ [.act 0, .send 0]

theorem inventory_follows_libvirt_images :
    ∃ s, exec step { world := imagesWorld } (connecting ++ [.change imagesObj none]) = some s ∧
      s.conn = .connected ∧ s.inventory.entry imagesObj ≠ view s.world imagesObj ∧
      Outstanding s imagesObj := by
  obtain ⟨s, hrun, hs⟩ := Option.map_eq_some_iff.mp
    (show (exec step { world := imagesWorld } (connecting ++ [.change imagesObj none])).map
      (fun s => (s.conn, s.inventory.entry imagesObj, view s.world imagesObj)) =
        some (.connected, some (.pool (poolView 1 images)), none) from rfl)
  simp only [Prod.mk.injEq] at hs
  have hdiffers : s.inventory.entry imagesObj ≠ view s.world imagesObj := by simp [hs]
  exact ⟨s, hrun, hs.1, hdiffers,
    (inventory_follows_libvirt _ _ s (by decide) hrun hs.1).1 _ hdiffers⟩

-- A call that uses the last `Virt`, or makes its change before the load begins.
def early (s : State) : Action → Bool
  | .act i => s.calls[i]?.all fun c => c.gen = s.gen || (s.pc matches .loading _ _ [])
  | _ => true

theorem InTime.of_early {s : State} {a : Action} (h : early s a = true) : InTime s a := by
  cases a with
  | act i =>
      intro c hc
      simp only [early, Option.mem_def.mp hc, Option.all_some, Bool.or_eq_true,
        decide_eq_true_eq] at h
      rcases h with hgen | hloading
      · exact .inl hgen
      · right
        right
        unfold StillRead
        cases hpc : s.pc with
        | loading first p asked =>
            rw [hpc] at hloading
            cases asked with
            | nil => simp
            | cons => cases hloading
        | _ =>
            rw [hpc] at hloading
            cases hloading
  | _ => trivial

theorem own_changes_reach_inventory_images :
    ∃ s, exec step { world := imagesWorld } switchedOn = some s ∧ s.gen = 2 ∧
      s.inventory.entry imagesObj = some (.pool (poolView 1 { images with autostart := true })) ∧
      OwnChangesShown imagesWorld switchedOn s := by
  obtain ⟨s, hrun, hs⟩ := Option.map_eq_some_iff.mp
    (show (exec step { world := imagesWorld } switchedOn).map
      (fun s => (s.gen, s.inventory.entry imagesObj)) =
        some (2, some (.pool (poolView 1 { images with autostart := true }))) from rfl)
  simp only [Prod.mk.injEq] at hs
  have hearly : Along step (fun s a => early s a = true) { world := imagesWorld } switchedOn := by
    decide
  exact ⟨s, hrun, hs.1, hs.2,
    own_changes_reach_inventory _ _ s (hearly.imp fun _ _ => InTime.of_early) hrun⟩

theorem own_change_lost_by_reconnect :
    ¬∀ w acts s, exec step { world := w } acts = some s → OwnChangesShown w acts s := by
  intro h
  obtain ⟨s, hrun, hs⟩ := Option.map_eq_some_iff.mp
    (show (exec step { world := imagesWorld } switchedOnLate).map (fun s =>
      (s.conn, s.rx, s.calls, s.pc.reading imagesObj, s.inventory.entry imagesObj)) =
      some (.connected, {}, [⟨1, imagesObj, .autostart true, .finished⟩], false,
        some (.pool (poolView 1 images))) from rfl)
  simp only [Prod.mk.injEq] at hs
  obtain ⟨hconn, hrx, hcalls, hreading, hentry⟩ := hs
  obtain ⟨mid, rest, t, hback, ht, hshown⟩ := h _ _ s hrun hconn hrx (reconnecting ++ connecting) 0
    [.send 0] _ rfl (by rw [hcalls]; rfl) rfl hreading
  -- Libvirt has the flag on at both moments after the change.
  have hon : view t.world imagesObj =
      some (.pool (poolView 1 { images with autostart := true })) := by
    rcases mid with _ | ⟨a, _ | ⟨b, mid⟩⟩
    · have hview : (exec step { world := imagesWorld } (reconnecting ++ connecting ++ [.act 0])).map
          (fun t => view t.world imagesObj) =
            some (some (.pool (poolView 1 { images with autostart := true }))) := rfl
      rw [ht] at hview
      exact Option.some.inj hview
    · obtain rfl : a = .send 0 := by
        simp only [List.cons_append, List.cons.injEq] at hback
        exact hback.1.symm
      have hview : (exec step { world := imagesWorld } switchedOnLate).map
          (fun t => view t.world imagesObj) =
            some (some (.pool (poolView 1 { images with autostart := true }))) := rfl
      rw [show exec step { world := imagesWorld } switchedOnLate = some t from ht] at hview
      exact Option.some.inj hview
    · simp at hback
  rw [hentry, hon] at hshown
  simp [Change.aspect, Aspect.detail, poolView, images] at hshown

end Runs

end Lodger.Supervisor
