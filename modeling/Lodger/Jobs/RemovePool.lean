import Lodger.Jobs.CleanUp
import Lodger.Delete.Paths

namespace Lodger.Jobs

open Lodger.Lib Lodger.Libvirt

-- What is assumed during a removal: no other client is there, and a running pool stops.
structure RemoveSetting (o : Outside) : Prop where
  alone : ∀ i w, o.acts i w = w
  destroy : ∀ i p, o.faults i (.command (.poolDestroy p)) = none

-- The pool has a saved definition and does not run.
def PoolStopped (w : World) (id : Uuid) : Prop := poolLook id w = some (false, true)

-- A query of the pool's state does not fail while a pool runs that was stopped before the
-- removal.
def StateKnown (o : Outside) (before : World) (id : Uuid) (s : Busy) : Call → Prop
  | .query (.poolIsPersistent p) => (o.faults s.log.length (.query (.poolIsPersistent p))).isSome →
      ¬(PoolStopped before id ∧ poolRuns s.world id = true)
  | .query (.poolIsActive p) => (o.faults s.log.length (.query (.poolIsActive p))).isSome →
      ¬(PoolStopped before id ∧ poolRuns s.world id = true)
  | _ => True

-- Calls that succeeded.
def refreshed (p : Ref) : Made := ⟨.command (.poolRefresh p), .ok ()⟩
def listed (p : Ref) (volumes : List VolRef) : Made :=
  ⟨.query (.poolListAllVolumes p), .ok volumes⟩
def deleted (v : VolRef) : Made := ⟨.command (.volDelete v), .ok ()⟩
def folderDeleted (p : Ref) : Made := ⟨.command (.poolDelete p), .ok ()⟩

-- Every volume that was listed after the refresh was deleted before any stop.
def DeletedFirst (log : List Made) : Prop :=
  ∃ front p volumes rest,
    log = front ++ refreshed p :: listed p volumes :: (volumes.map deleted ++ rest) ∧
    ∀ m ∈ front, ∀ p, m.call ≠ .command (.poolDestroy p)

-- No volume that was listed is in the pool any more.
def Cleared (id : Uuid) (s : Busy) : Prop :=
  ∀ p volumes, listed p volumes ∈ s.log → ∀ v ∈ volumes, ∀ pool,
    s.world.pools.lookup id = some pool → ∀ vol ∈ pool.storage.volumes, vol.name ≠ v.name

-- What a removal must leave, whatever fails. libvirt removes a folder by `rmdir` when it
-- gets the delete of a pool.
structure SafelyRemoved (w : World) (id : Uuid) (deleteFiles : Bool)
    (outcome : Except Error Unit × Busy) : Prop where
  kept : deleteFiles = false → ∀ m ∈ outcome.2.log, ∀ c, m.call = .command c →
    ∃ p, p.id = id ∧ (c = .poolDestroy p ∨ c = .poolDelete p ∨ c = .poolUndefine p)
  undefined : outcome.1 = .ok () → ∀ pool, w.pools.lookup id = some pool →
    pool.persistent = true → outcome.2.world.pools.lookup id = none
  emptied : outcome.1 = .ok () → deleteFiles = true → DeletedFirst outcome.2.log
  failed : ∀ e, outcome.1 = .error e → ∀ pool, w.pools.lookup id = some pool →
    pool.persistent = true → ∃ pool', outcome.2.world.pools.lookup id = some pool' ∧
      pool'.persistent = true ∧ (pool'.active = true → pool.active = true)
  folder : ∀ e, outcome.1 = .error e →
    (∃ p, folderDeleted p ∈ outcome.2.log) → Cleared id outcome.2

section State

variable [Libvirtd] {o : Outside} {before : World} {p : Ref} {s t : Busy × Prop}

omit [Libvirtd] in
theorem RemoveSetting.arrive (h : RemoveSetting o) (s : Busy) : s.arrive o = s.world :=
  h.alone _ _

-- What a command that leaves the pool's state alone does.
theorem command_look (h : RemoveSetting o) (before : World) {c : Command}
    (hperform : ∀ w x, w.perform c = .ok x → poolLook p.id x.world = poolLook p.id w) :
    (command c).Wp (turn o (StateKnown o before p.id))
      (fun _ t => poolLook p.id t.1.world = poolLook p.id s.1.world ∧ (t.2 ↔ s.2)) s := by
  intro r t hturn
  have hmark : t.2 ↔ s.2 := by
    rw [turn_mark hturn]
    exact and_iff_left trivial
  refine ⟨?_, hmark⟩
  cases r with
  | error e => rw [(turn_command_error hturn).1, h.arrive]
  | ok a =>
      obtain ⟨-, x, hx, -, hworld⟩ := turn_command_ok hturn
      rw [h.arrive] at hx
      rw [← hworld]
      exact hperform _ x hx

theorem poolDelete_look {w : World} {x : Performed Unit} (h : w.perform (.poolDelete p) = .ok x) :
    poolLook p.id x.world = poolLook p.id w := by
  simp only [World.perform, bind, Except.bind] at h
  cases hp : w.pool p.id with
  | error e => simp [hp] at h
  | ok pool =>
      simp only [hp] at h
      split_ifs at h
      cases h
      rfl

theorem poolRefresh_look {w : World} {x : Performed Unit} (h : w.perform (.poolRefresh p) = .ok x) :
    poolLook p.id x.world = poolLook p.id w := by
  obtain ⟨pool, hpool, h⟩ := except_bind_eq_ok.mp h
  cases h
  have hlookup := pool_eq_ok.mp (activePool_eq_ok.mp hpool).1
  rw [poolLook_setPool]
  simp [poolLook, hlookup]

theorem volDelete_look {w : World} {v : VolRef} {x : Performed Unit} (id : Uuid)
    (h : w.perform (.volDelete v) = .ok x) : poolLook id x.world = poolLook id w := by
  obtain ⟨id', q, found, hq, -, -, -, hworld⟩ := volDelete_effect h
  rw [hworld]
  by_cases hid : id = id'
  · subst hid
    rw [poolLook_setPool]
    simp [poolLook, hq]
  · simp [poolLook, World.setPool, AList.lookup_insert_ne hid]

theorem poolUndefine_state (h : RemoveSetting o) (hs : PoolStopped s.1.world p.id) :
    (command (.poolUndefine p)).Wp (turn o (StateKnown o before p.id)) (fun r t =>
      (r = .ok () → poolLook p.id t.1.world = none ∧ (t.2 ↔ s.2)) ∧
      ∀ e, r = .error e → PoolStopped t.1.world p.id ∧ (t.2 ↔ s.2)) s := by
  intro r t hturn
  have hmark : t.2 ↔ s.2 := by
    rw [turn_mark hturn]
    exact and_iff_left trivial
  refine ⟨?_, ?_⟩
  · rintro rfl
    refine ⟨?_, hmark⟩
    obtain ⟨-, x, hx, -, hworld⟩ := turn_command_ok hturn
    obtain ⟨pool, -, hpool, hactive, hpersistent⟩ := poolLook_eq_some hs
    rw [h.arrive] at hx
    simp only [World.perform, hpool, bind, Except.bind, hactive, hpersistent, Bool.not_true,
      Bool.or_false, Bool.false_eq_true, if_false] at hx
    cases hx
    rw [← hworld]
    simp [poolLook, World.erasePool]
  · rintro e rfl
    refine ⟨?_, hmark⟩
    rw [(turn_command_error hturn).1, h.arrive]
    exact hs

theorem undefinePool_state (h : RemoveSetting o) (deleteFiles removeEmptyFolder : Bool)
    (hs : PoolStopped s.1.world p.id) :
    (undefinePool p deleteFiles removeEmptyFolder).Wp (turn o (StateKnown o before p.id)) (fun r t =>
      (r = .ok () → poolLook p.id t.1.world = none ∧ (t.2 ↔ s.2)) ∧
      ∀ e, r = .error e → PoolStopped t.1.world p.id ∧ (t.2 ↔ s.2)) s := by
  have hundefine : ∀ u : Busy × Prop, PoolStopped u.1.world p.id → (u.2 ↔ s.2) →
      (command (.poolUndefine p)).Wp (turn o (StateKnown o before p.id)) (fun r t =>
        (r = .ok () → poolLook p.id t.1.world = none ∧ (t.2 ↔ s.2)) ∧
        ∀ e, r = .error e → PoolStopped t.1.world p.id ∧ (t.2 ↔ s.2)) u := by
    intro u hu hmark
    refine (poolUndefine_state h hu).imp ?_
    rintro r t ⟨hok, herror⟩
    exact ⟨fun hr => ⟨(hok hr).1, (hok hr).2.trans hmark⟩,
      fun e hr => ⟨(herror e hr).1, (herror e hr).2.trans hmark⟩⟩
  have hdelete := command_look (s := s) h before fun w x => poolDelete_look (p := p)
  refine Prog.Wp.ite (fun _ => ?_) fun _ => Prog.Wp.ite (fun _ => ?_) fun _ => ?_
  · refine Prog.wp_bind.mpr (hdelete.imp ?_)
    rintro r t ⟨hlook, hmark⟩
    have ht : PoolStopped t.1.world p.id := hlook.trans hs
    cases r with
    | error e => exact ⟨nofun, fun _ _ => ⟨ht, hmark⟩⟩
    | ok a => exact hundefine t ht hmark
  · refine Prog.wp_bind.mpr (Prog.wp_attempt.mpr (hdelete.imp ?_))
    rintro r t ⟨hlook, hmark⟩
    exact hundefine t (hlook.trans hs) hmark
  · exact hundefine s hs Iff.rfl

-- The two queries of the pool's state: they answer, or they fail by a fault.
theorem stateQuery_answer (h : RemoveSetting o) {q : Query} {a : q.Result}
    (hknown : StateKnown o before p.id s.1 (.query q) ↔
      ((o.faults s.1.log.length (.query q)).isSome →
        ¬(PoolStopped before p.id ∧ poolRuns s.1.world p.id = true)))
    (hanswer : s.1.world.query q = .ok a) {r : Except Error q.Result}
    (hturn : turn o (StateKnown o before p.id) s (.query q) r t) :
    t.1.world = s.1.world ∧ (∀ b, r = .ok b → b = a ∧ (t.2 ↔ s.2)) ∧
      ∀ e, r = .error e →
        (t.2 ↔ s.2 ∧ ¬(PoolStopped before p.id ∧ poolRuns t.1.world p.id = true)) := by
  have hworld : t.1.world = s.1.world := (turn_query_world hturn).trans (h.arrive _)
  refine ⟨hworld, ?_, ?_⟩
  · rintro b rfl
    obtain ⟨hfault, hquery, -⟩ := turn_query_ok hturn
    rw [h.arrive] at hquery
    refine ⟨Except.ok.inj (hquery.symm.trans hanswer), ?_⟩
    rw [turn_mark hturn, hknown]
    exact and_iff_left fun hsome => by simp [hfault] at hsome
  · rintro e rfl
    rw [← h.arrive] at hanswer
    have hfault := turn_query_error hturn hanswer
    rw [turn_mark hturn, hknown, hworld]
    exact and_congr_right fun _ => ⟨fun hok => hok hfault, fun hnot _ => hnot⟩

omit [Libvirtd] in
theorem pool_of_saved {w : World} {id : Uuid} (h : Saved (poolLook id) w) :
    ∃ pool, w.pools.lookup id = some pool ∧ w.pool id = .ok pool ∧ pool.persistent = true := by
  obtain ⟨a, ha⟩ := h
  obtain ⟨pool, hlookup, hpool, -, hpersistent⟩ := poolLook_eq_some ha
  exact ⟨pool, hlookup, hpool, hpersistent⟩

theorem poolIsPersistent_answer {w : World} (hs : Saved (poolLook p.id) w) :
    w.query (.poolIsPersistent p) = .ok (true : Bool) := by
  obtain ⟨pool, -, hpool, hpersistent⟩ := pool_of_saved hs
  simp [World.query, hpool, Except.map, hpersistent]

theorem poolIsActive_answer {w : World} (hs : Saved (poolLook p.id) w) :
    w.query (.poolIsActive p) = .ok (poolRuns w p.id : Bool) := by
  obtain ⟨pool, hlookup, hpool, -⟩ := pool_of_saved hs
  simp [World.query, hpool, Except.map, poolRuns, hlookup]

omit [Libvirtd] in
theorem stopped_of_not_runs {w : World} {id : Uuid} (h : Saved (poolLook id) w)
    (hruns : poolRuns w id = false) : PoolStopped w id := by
  rcases saved_cases h with ⟨hr, -⟩ | ⟨-, hlook⟩
  · rw [runs_poolLook, hruns] at hr
    cases hr
  · exact hlook

omit [Libvirtd] in
theorem PoolStopped.saved {w : World} {id : Uuid} (h : PoolStopped w id) : Saved (poolLook id) w :=
  ⟨false, h⟩

omit [Libvirtd] in
theorem PoolStopped.not_runs {w : World} {id : Uuid} (h : PoolStopped w id) :
    poolRuns w id = false := by
  rw [← runs_poolLook, Runs, h]
  rfl

theorem poolDestroy_state (h : RemoveSetting o) (hs : Saved (poolLook p.id) s.1.world)
    (hruns : poolRuns s.1.world p.id = true) :
    (command (.poolDestroy p)).Wp (turn o (StateKnown o before p.id)) (fun r t =>
      PoolStopped t.1.world p.id ∧ (t.2 ↔ s.2) ∧ r = .ok ()) s := by
  intro r t hturn
  have hmark : t.2 ↔ s.2 := by
    rw [turn_mark hturn]
    exact and_iff_left trivial
  obtain ⟨pool, hlookup, hpool, hpersistent⟩ := pool_of_saved hs
  have hactive : pool.active = true := by simpa [poolRuns, hlookup] using hruns
  have hx : (s.1.arrive o).perform (.poolDestroy p) = .ok {
      result := (), world := s.1.world.stopPool p.id pool, events := [.pool p.id 3] } := by
    rw [h.arrive]
    simp only [World.perform, World.activePool, hpool, bind, Except.bind, hactive, if_true]
  obtain ⟨hr, hworld⟩ := turn_command_done (h.destroy _ _) hx hturn
  refine ⟨?_, hmark, hr⟩
  rw [hworld]
  simp only [World.stopPool, hpersistent, if_true]
  exact poolLook_setPool _ _ _

-- From a pool with a saved definition: the definition goes, or the removal fails and the
-- definition stays.
theorem stopAndUndefine_state (h : RemoveSetting o) (deleteFiles removeEmptyFolder : Bool)
    (hs : Saved (poolLook p.id) s.1.world) :
    (stopAndUndefine p deleteFiles removeEmptyFolder).Wp (turn o (StateKnown o before p.id))
      (fun r t => (r = .ok () → poolLook p.id t.1.world = none ∧ (t.2 ↔ s.2)) ∧
        ∀ e, r = .error e → Saved (poolLook p.id) t.1.world ∧
          (t.2 ↔ s.2 ∧ ¬(PoolStopped before p.id ∧ poolRuns t.1.world p.id = true))) s := by
  -- Once the pool has stopped, nothing is left that a failure could start.
  have hstopped : ∀ u : Busy × Prop, PoolStopped u.1.world p.id → (u.2 ↔ s.2) →
      (undefinePool p deleteFiles removeEmptyFolder).Wp (turn o (StateKnown o before p.id))
        (fun r t => (r = .ok () → poolLook p.id t.1.world = none ∧ (t.2 ↔ s.2)) ∧
          ∀ e, r = .error e → Saved (poolLook p.id) t.1.world ∧
            (t.2 ↔ s.2 ∧ ¬(PoolStopped before p.id ∧ poolRuns t.1.world p.id = true))) u := by
    intro u hu hmark
    refine (undefinePool_state h deleteFiles removeEmptyFolder hu).imp ?_
    rintro r t ⟨hok, herror⟩
    refine ⟨fun hr => ⟨(hok hr).1, (hok hr).2.trans hmark⟩, fun e hr => ?_⟩
    obtain ⟨ht, hmark'⟩ := herror e hr
    refine ⟨ht.saved, (hmark'.trans hmark).trans ?_⟩
    simp [ht.not_runs]
  refine wp_turn_query ?_ ?_
  · intro (persistent : Bool) t hturn
    obtain ⟨hworld, hok, -⟩ := stateQuery_answer h Iff.rfl (poolIsPersistent_answer hs) hturn
    obtain ⟨rfl, hmark⟩ := hok persistent rfl
    have ht : Saved (poolLook p.id) t.1.world := by
      rw [hworld]
      exact hs
    refine wp_turn_query ?_ ?_
    · intro (active : Bool) u hturn'
      obtain ⟨hworld', hok', -⟩ := stateQuery_answer h Iff.rfl (poolIsActive_answer ht) hturn'
      obtain ⟨rfl, hmark'⟩ := hok' active rfl
      have hu : Saved (poolLook p.id) u.1.world := by
        rw [hworld']
        exact ht
      refine Prog.Wp.ite (fun hruns => ?_) fun hruns => ?_
      · rw [← hworld'] at hruns
        refine Prog.wp_bind.mpr ((poolDestroy_state h hu hruns).imp ?_)
        rintro r x ⟨hx, hmark'', rfl⟩
        exact hstopped x hx (hmark''.trans (hmark'.trans hmark))
      · rw [← hworld', Bool.not_eq_true] at hruns
        exact hstopped u (stopped_of_not_runs hu hruns) (hmark'.trans hmark)
    · intro e u hturn'
      obtain ⟨hworld', -, herror⟩ := stateQuery_answer h Iff.rfl (poolIsActive_answer ht) hturn'
      refine ⟨nofun, fun _ _ => ⟨?_, (herror e rfl).trans ?_⟩⟩
      · rw [hworld']
        exact ht
      · rw [hmark]
  · intro e t hturn
    obtain ⟨hworld, -, herror⟩ := stateQuery_answer h Iff.rfl (poolIsPersistent_answer hs) hturn
    refine ⟨nofun, fun _ _ => ⟨?_, herror e rfl⟩⟩
    rw [hworld]
    exact hs

theorem deleteVolumes_look (h : RemoveSetting o) (before : World) :
    (deleteVolumes p).Wp (turn o (StateKnown o before p.id))
      (fun _ t => poolLook p.id t.1.world = poolLook p.id s.1.world ∧ (t.2 ↔ s.2)) s := by
  refine Prog.wp_bind.mpr ((command_look h before fun w x => poolRefresh_look).imp ?_)
  rintro r t ⟨hlook, hmark⟩
  cases r with
  | error e => exact ⟨hlook, hmark⟩
  | ok a =>
      have hquery : ∀ {r : Except Error (List VolRef)} {u : Busy × Prop},
          turn o (StateKnown o before p.id) t (.query (.poolListAllVolumes p)) r u →
            poolLook p.id u.1.world = poolLook p.id s.1.world ∧ (u.2 ↔ s.2) := by
        intro r u hturn
        refine ⟨?_, ?_⟩
        · rw [turn_query_world hturn, h.arrive, hlook]
        · rw [turn_mark hturn]
          exact (and_iff_left trivial).trans hmark
      refine wp_turn_query ?_ fun e u hturn => hquery hturn
      intro (volumes : List VolRef) u hturn
      apply Prog.Wp.foldlM fun _ _ x =>
        poolLook p.id x.1.world = poolLook p.id s.1.world ∧ (x.2 ↔ s.2)
      · exact fun _ _ hx => hx
      · rintro v rest _ x ⟨hx, hmark'⟩
        refine (command_look h before fun w y => volDelete_look p.id).imp ?_
        rintro r y ⟨hy, hmark''⟩
        have hnext := And.intro (hy.trans hx) (hmark''.trans hmark')
        cases r with
        | error e => exact hnext
        | ok a => exact hnext
      · exact hquery hturn

-- The volumes go while the pool runs. If that fails, a pool that was stopped is stopped
-- again.
theorem deleteFilesOf_state (h : RemoveSetting o) (hs : Saved (poolLook p.id) s.1.world)
    (hbefore : PoolStopped before p.id → poolRuns s.1.world p.id = false) :
    (deleteFilesOf p).Wp (turn o (StateKnown o before p.id)) (fun r t =>
      Saved (poolLook p.id) t.1.world ∧ (t.2 ↔ s.2) ∧ ∀ e, r = .error e →
        ¬(PoolStopped before p.id ∧ poolRuns t.1.world p.id = true)) s := by
  have hquiet : ¬(PoolStopped before p.id ∧ poolRuns s.1.world p.id = true) := by
    rintro ⟨hstopped, hruns⟩
    rw [hbefore hstopped] at hruns
    cases hruns
  -- The end, from a pool that runs.
  have hend : ∀ (wasActive : Bool) (u : Busy × Prop), Saved (poolLook p.id) u.1.world →
      poolRuns u.1.world p.id = true → (u.2 ↔ s.2) → (wasActive = true → ¬PoolStopped before p.id) →
      (deleteOrStop p wasActive).Wp (turn o (StateKnown o before p.id)) (fun r t =>
        Saved (poolLook p.id) t.1.world ∧ (t.2 ↔ s.2) ∧ ∀ e, r = .error e →
          ¬(PoolStopped before p.id ∧ poolRuns t.1.world p.id = true)) u := by
    intro wasActive u hu hruns hmark hwas
    refine Prog.wp_bind.mpr (Prog.wp_attempt.mpr ((deleteVolumes_look h before).imp ?_))
    rintro r t ⟨hlook, hmark'⟩
    have ht : Saved (poolLook p.id) t.1.world := by
      obtain ⟨a, ha⟩ := hu
      exact ⟨a, hlook.trans ha⟩
    cases r with
    | ok a =>
        refine ⟨ht, hmark'.trans hmark, fun e heq => ?_⟩
        cases heq
    | error e =>
        have hrun : poolRuns t.1.world p.id = true := by
          rw [← runs_poolLook, Runs, hlook]
          rw [← runs_poolLook, Runs] at hruns
          exact hruns
        cases wasActive with
        | true => exact ⟨ht, hmark'.trans hmark, fun _ _ hnot => hwas rfl hnot.1⟩
        | false =>
            refine Prog.wp_bind.mpr (Prog.wp_attempt.mpr ((poolDestroy_state h ht hrun).imp ?_))
            rintro r x ⟨hx, hmark'', -⟩
            refine ⟨hx.saved, hmark''.trans (hmark'.trans hmark), ?_⟩
            rintro _ _ ⟨-, hruns'⟩
            rw [hx.not_runs] at hruns'
            cases hruns'
  refine wp_turn_query ?_ ?_
  · intro (wasActive : Bool) t hturn
    obtain ⟨hworld, hok, -⟩ := stateQuery_answer h Iff.rfl (poolIsActive_answer hs) hturn
    obtain ⟨rfl, hmark⟩ := hok wasActive rfl
    have ht : Saved (poolLook p.id) t.1.world := by
      rw [hworld]
      exact hs
    cases hruns : poolRuns s.1.world p.id with
    | true =>
        refine hend true t ht (hworld ▸ hruns) hmark fun _ hstopped => ?_
        exact hquiet ⟨hstopped, hruns⟩
    | false =>
        refine wp_turn_command ?_ ?_
        · intro _ u hturn'
          have hmark' : u.2 ↔ t.2 := by
            rw [turn_mark hturn']
            exact and_iff_left trivial
          obtain ⟨-, x, hx, -, hworld'⟩ := turn_command_ok hturn'
          rw [h.arrive] at hx
          obtain ⟨pool, -, hpool, hpersistent⟩ := pool_of_saved ht
          simp only [World.perform, hpool, bind, Except.bind] at hx
          split_ifs at hx
          cases hx
          have hlook : poolLook p.id u.1.world = some (true, true) := by
            rw [← hworld', poolLook_setPool, hpersistent]
          refine hend false u ⟨true, hlook⟩ ?_ (hmark'.trans hmark) fun hwas => ?_
          · rw [← runs_poolLook, Runs, hlook]
            rfl
          · cases hwas
        · intro e u hturn'
          have hmark' : u.2 ↔ t.2 := by
            rw [turn_mark hturn']
            exact and_iff_left trivial
          have hsame : u.1.world = s.1.world := by
            rw [(turn_command_error hturn').1, h.arrive, hworld]
          refine ⟨hsame ▸ hs, hmark'.trans hmark, fun _ _ => ?_⟩
          rw [hsame]
          exact hquiet
  · intro e t hturn
    obtain ⟨hworld, -, herror⟩ := stateQuery_answer h Iff.rfl (poolIsActive_answer hs) hturn
    refine ⟨hworld ▸ hs, (herror e rfl).trans ?_, fun _ _ => ?_⟩
    · rw [hworld]
      exact and_iff_left hquiet
    · rw [hworld]
      exact hquiet

end State

section Removal

variable [Libvirtd] {o : Outside} {w : World} {id : Uuid} (deleteFiles removeEmptyFolder : Bool)

theorem lookupPool_answer {ok : Busy → Call → Prop} {s t : Busy × Prop} {p : Ref}
    (hturn : turn o ok s (.query (.lookupStoragePoolByUuid id)) (.ok p) t) : p.id = id := by
  obtain ⟨-, hquery, -⟩ := turn_query_ok hturn
  obtain ⟨pool, -, rfl⟩ := except_map_eq_ok.mp hquery
  rfl

-- A removal of a pool with a saved definition.
theorem removePool_state (h : RemoveSetting o) (hw : Saved (poolLook id) w) :
    (removePool id deleteFiles removeEmptyFolder).Wp (turn o (StateKnown o w id)) (fun r t =>
      (r = .ok () → poolLook id t.1.world = none ∧ t.2) ∧
      ∀ e, r = .error e → Saved (poolLook id) t.1.world ∧
        (t.2 ↔ ¬(PoolStopped w id ∧ poolRuns t.1.world id = true))) (⟨w, []⟩, True) := by
  have hquiet : ¬(PoolStopped w id ∧ poolRuns w id = true) := by
    rintro ⟨hstopped, hruns⟩
    rw [hstopped.not_runs] at hruns
    cases hruns
  refine wp_turn_query ?_ ?_
  · intro (p : Ref) s hturn
    obtain rfl := lookupPool_answer hturn
    have hworld : s.1.world = w := (turn_query_world hturn).trans (h.arrive _)
    have hmark : s.2 := by
      rw [turn_mark hturn]
      exact ⟨trivial, trivial⟩
    have hs : Saved (poolLook p.id) s.1.world := hworld ▸ hw
    have hend : ∀ u : Busy × Prop, Saved (poolLook p.id) u.1.world → u.2 →
        (stopAndUndefine p deleteFiles removeEmptyFolder).Wp (turn o (StateKnown o w p.id))
          (fun r t => (r = .ok () → poolLook p.id t.1.world = none ∧ t.2) ∧
            ∀ e, r = .error e → Saved (poolLook p.id) t.1.world ∧
              (t.2 ↔ ¬(PoolStopped w p.id ∧ poolRuns t.1.world p.id = true))) u := by
      intro u hu hmark'
      refine (stopAndUndefine_state h deleteFiles removeEmptyFolder hu).imp ?_
      rintro r t ⟨hok, herror⟩
      refine ⟨fun hr => ⟨(hok hr).1, (hok hr).2.mpr hmark'⟩, fun e hr => ?_⟩
      refine ⟨(herror e hr).1, (herror e hr).2.trans ?_⟩
      exact and_iff_right hmark'
    refine Prog.Wp.ite (fun _ => ?_) fun _ => hend s hs hmark
    have hstopped : PoolStopped w p.id → poolRuns s.1.world p.id = false := by
      intro hstopped
      rw [hworld]
      exact hstopped.not_runs
    refine Prog.wp_bind.mpr ((deleteFilesOf_state h hs hstopped).imp ?_)
    rintro r t ⟨ht, hmark', herror⟩
    cases r with
    | ok a => exact hend t ht (hmark'.mpr hmark)
    | error e =>
        refine ⟨nofun, fun _ _ => ⟨ht, ?_⟩⟩
        exact ⟨fun _ => herror e rfl, fun _ => hmark'.mpr hmark⟩
  · intro e s hturn
    have hworld : s.1.world = w := (turn_query_world hturn).trans (h.arrive _)
    have hmark : s.2 := by
      rw [turn_mark hturn]
      exact ⟨trivial, trivial⟩
    refine ⟨nofun, fun _ _ => ⟨hworld ▸ hw, ?_⟩⟩
    rw [hworld]
    exact ⟨fun _ => hquiet, fun _ => hmark⟩

-- Without a saved definition nothing can be left running.
theorem removePool_unsaved (hw : ¬Saved (poolLook id) w) :
    (removePool id deleteFiles removeEmptyFolder).Wp (turn o (StateKnown o w id)) (fun _ t => t.2)
      (⟨w, []⟩, True) := by
  have hknown : ∀ s c, StateKnown o w id s c := by
    intro s c
    have hnot : ¬(PoolStopped w id ∧ poolRuns s.world id = true) := fun hboth =>
      hw hboth.1.saved
    unfold StateKnown
    split
    · exact fun _ => hnot
    · exact fun _ => hnot
    · trivial
  refine Prog.Wp.of_calls (fun t : Busy × Prop => t.2) ?_ (Prog.calls_trivial _) trivial
  intro c _ s r t hturn hs
  rw [turn_mark hturn]
  exact ⟨hs, hknown _ _⟩

end Removal

section Logs

variable [Libvirtd] {o : Outside} {ok : Busy → Call → Prop} {s : Busy × Prop} {p : Ref}

-- The calls of the two halves of a removal.
inductive Ending (p : Ref) : Call → Prop where
  | isPersistent : Ending p (.query (.poolIsPersistent p))
  | isActive : Ending p (.query (.poolIsActive p))
  | destroy : Ending p (.command (.poolDestroy p))
  | delete : Ending p (.command (.poolDelete p))
  | undefine : Ending p (.command (.poolUndefine p))

inductive Emptying (p : Ref) : Call → Prop where
  | isActive : Emptying p (.query (.poolIsActive p))
  | create : Emptying p (.command (.poolCreate p))
  | refresh : Emptying p (.command (.poolRefresh p))
  | list : Emptying p (.query (.poolListAllVolumes p))
  | volDelete (v : VolRef) : Emptying p (.command (.volDelete v))
  | destroy : Emptying p (.command (.poolDestroy p))

omit [Libvirtd] in
theorem query_calls {P : Call → Prop} {q : Query} (h : P (.query q)) : (query q).Calls P :=
  ⟨h, fun _ => trivial⟩

omit [Libvirtd] in
theorem command_calls {P : Call → Prop} {c : Command} (h : P (.command c)) : (command c).Calls P :=
  ⟨h, fun _ => trivial⟩

omit [Libvirtd] in
theorem stopAndUndefine_calls (p : Ref) (deleteFiles removeEmptyFolder : Bool) :
    (stopAndUndefine p deleteFiles removeEmptyFolder).Calls (Ending p) := by
  have hundefine : (undefinePool p deleteFiles removeEmptyFolder).Calls (Ending p) := by
    refine Prog.Calls.ite ?_ (Prog.Calls.ite ?_ ?_)
    · exact (command_calls .delete).bind fun _ => command_calls .undefine
    · exact (command_calls .delete).attempt.bind fun _ => command_calls .undefine
    · exact command_calls .undefine
  refine (query_calls .isPersistent).bind fun (persistent : Bool) =>
    (query_calls .isActive).bind fun (active : Bool) => ?_
  have hrest : (if persistent then undefinePool p deleteFiles removeEmptyFolder else pure ()).Calls
      (Ending p) := Prog.Calls.ite hundefine trivial
  exact Prog.Calls.ite ((command_calls .destroy).bind fun _ => hrest) hrest

omit [Libvirtd] in
theorem deleteFilesOf_calls (p : Ref) : (deleteFilesOf p).Calls (Emptying p) := by
  have hvolumes : (deleteVolumes p).Calls (Emptying p) := by
    refine (command_calls .refresh).bind fun _ => (query_calls .list).bind ?_
    intro (volumes : List VolRef)
    apply Prog.Calls.foldlM
    exact fun _ v => command_calls (.volDelete v)
  have hend : ∀ wasActive, (deleteOrStop p wasActive).Calls (Emptying p) := by
    intro wasActive
    refine hvolumes.attempt.bind ?_
    rintro (e | a)
    · exact Prog.Calls.ite ((command_calls .destroy).attempt.bind fun _ => trivial) trivial
    · trivial
  refine (query_calls .isActive).bind fun (wasActive : Bool) => ?_
  exact Prog.Calls.ite ((command_calls .create).bind fun _ => hend wasActive) (hend wasActive)

-- The pool while its volumes go: those in `gone` are not in it any more.
structure Shrinking (id : Uuid) (name : String) (gone : List VolRef) (w : World) : Prop where
  names : NamesUnique w
  pool : ∃ pool, w.pools.lookup id = some pool ∧ pool.name = name ∧
    ∀ v ∈ gone, ∀ vol ∈ pool.storage.volumes, vol.name ≠ v.name

theorem Shrinking.volDelete {id : Uuid} {name : String} {gone : List VolRef} {w : World} {v : VolRef}
    {x : Performed Unit} (h : Shrinking id name gone w) (hv : v.pool = name)
    (hx : w.perform (.volDelete v) = .ok x) : Shrinking id name (gone ++ [v]) x.world := by
  obtain ⟨pool, hpool, hname, hgone⟩ := h.pool
  obtain ⟨id', q, found, hq, hqname, -, hfound, hworld⟩ := volDelete_effect hx
  obtain rfl : id' = id := h.names id' id q pool hq hpool (by rw [hqname, hv, hname])
  obtain rfl : q = pool := Option.some.inj (hq.symm.trans hpool)
  rw [hworld]
  refine ⟨h.names.update hq rfl, _, AList.lookup_insert _, hname, ?_⟩
  intro u hu vol hvol
  obtain ⟨hmem, hne⟩ := List.mem_filter.mp hvol
  rcases List.mem_append.mp hu with hu | hu
  · exact hgone u hu vol hmem
  · obtain rfl := List.mem_singleton.mp hu
    rw [← (vol_mem hfound).2]
    simpa using hne

theorem deleteVolumes_empties (h : RemoveSetting o) (hnames : NamesUnique s.1.world) :
    (deleteVolumes p).Wp (turn o ok) (fun r t => r = .ok () → ∃ volumes,
      t.1.log = s.1.log ++ refreshed p :: listed p volumes :: volumes.map deleted ∧
      ∀ pool, t.1.world.pools.lookup p.id = some pool → ∀ v ∈ volumes,
        ∀ vol ∈ pool.storage.volumes, vol.name ≠ v.name) s := by
  refine wp_turn_command ?_ fun _ _ _ => nofun
  intro _ t hrefresh
  have hlog : t.1.log = s.1.log ++ [refreshed p] := turn_log hrefresh
  have hnames' : NamesUnique t.1.world := by
    obtain ⟨-, x, hx, -, hworld⟩ := turn_command_ok hrefresh
    rw [h.arrive] at hx
    obtain ⟨pool, hpool, hx⟩ := except_bind_eq_ok.mp hx
    cases hx
    rw [← hworld]
    exact hnames.update (pool_eq_ok.mp (activePool_eq_ok.mp hpool).1) rfl
  refine wp_turn_query ?_ fun _ _ _ => nofun
  intro (volumes : List VolRef) u hlist
  have hlog' : u.1.log = s.1.log ++ [refreshed p, listed p volumes] := by
    rw [turn_log hlist, hlog, List.append_assoc]
    rfl
  obtain ⟨-, hquery, hworld⟩ := turn_query_ok hlist
  rw [h.arrive] at hquery hworld
  obtain ⟨pool, hpool, hvolumes⟩ := except_map_eq_ok.mp hquery
  have hlookup := pool_eq_ok.mp (activePool_eq_ok.mp hpool).1
  have hof : ∀ v ∈ volumes, v.pool = pool.name := by
    intro v hv
    rw [← hvolumes] at hv
    obtain ⟨vol, -, rfl⟩ := List.mem_map.mp hv
    rfl
  -- The volumes before the current one are gone.
  apply Prog.Wp.foldlM fun rest _ x => ∃ gone, volumes = gone ++ rest ∧
    x.1.log = u.1.log ++ gone.map deleted ∧ Shrinking p.id pool.name gone x.1.world
  · rintro _ x ⟨gone, hgone, hx, hshrink⟩ -
    rw [List.append_nil] at hgone
    subst hgone
    refine ⟨volumes, by rw [hx, hlog']; simp, ?_⟩
    intro pool' hpool' v hv
    obtain ⟨pool'', hpool'', -, hall⟩ := hshrink.pool
    obtain rfl := Option.some.inj (hpool'.symm.trans hpool'')
    exact hall v hv
  · rintro v rest _ x ⟨gone, hgone, hx, hshrink⟩ r y hturn
    cases r with
    | error e => exact nofun
    | ok a =>
        obtain ⟨-, done, hdone, -, hworld'⟩ := turn_command_ok hturn
        rw [h.arrive] at hdone
        have hv : v.pool = pool.name := hof v (by simp [hgone])
        refine ⟨gone ++ [v], by simp [hgone], ?_, ?_⟩
        · rw [turn_log hturn, hx]
          simp [deleted]
          rfl
        · rw [← hworld']
          exact hshrink.volDelete hv hdone
  · refine ⟨[], rfl, by simp, ?_⟩
    rw [hworld]
    exact ⟨hnames', pool, hlookup, rfl, nofun⟩

-- Nothing was listed or stopped yet.
def Fresh (log : List Made) : Prop := ∀ m ∈ log, ∀ p,
  m.call ≠ .command (.poolDestroy p) ∧ m.call ≠ .query (.poolListAllVolumes p)

omit [Libvirtd] in
theorem Fresh.append {log : List Made} {c : Call} {r : Except Error c.Result} (h : Fresh log)
    (hc : ∀ p, c ≠ .command (.poolDestroy p) ∧ c ≠ .query (.poolListAllVolumes p)) :
    Fresh (log ++ [⟨c, r⟩]) := by
  intro m hm
  rcases List.mem_append.mp hm with hm | hm
  · exact h m hm
  · obtain rfl := List.mem_singleton.mp hm
    exact hc

theorem deleteFilesOf_empties (h : RemoveSetting o) (hnames : NamesUnique s.1.world)
    (hfresh : Fresh s.1.log) :
    (deleteFilesOf p).Wp (turn o ok) (fun r t =>
      r = .ok () → DeletedFirst t.1.log ∧ Cleared p.id t.1) s := by
  have hend : ∀ (wasActive : Bool) (u : Busy × Prop), NamesUnique u.1.world → Fresh u.1.log →
      (deleteOrStop p wasActive).Wp (turn o ok) (fun r t =>
        r = .ok () → DeletedFirst t.1.log ∧ Cleared p.id t.1) u := by
    intro wasActive u hu hfresh
    refine Prog.wp_bind.mpr (Prog.wp_attempt.mpr ((deleteVolumes_empties h hu).imp ?_))
    intro r t ht
    cases r with
    | error e =>
        refine Prog.Wp.ite (fun _ => ?_) fun _ => nofun
        exact fun _ _ _ => nofun
    | ok a =>
        intro _
        obtain ⟨volumes, hlog, hgone⟩ := ht rfl
        refine ⟨⟨u.1.log, p, volumes, [], by simp [hlog], fun m hm p => (hfresh m hm p).1⟩, ?_⟩
        intro p' volumes' hmem v hv pool hpool
        rw [hlog] at hmem
        -- The log has one listing only.
        rcases List.mem_append.mp hmem with hmem | hmem
        · exact absurd rfl (hfresh _ hmem p').2
        · simp only [List.mem_cons, List.mem_map, refreshed, listed, deleted, Made.mk.injEq,
            Call.query.injEq, Query.poolListAllVolumes.injEq, reduceCtorEq, false_and, false_or,
            and_false, exists_false, or_false] at hmem
          obtain ⟨rfl, heq⟩ := hmem
          obtain rfl : volumes' = volumes := Except.ok.inj (eq_of_heq heq)
          exact hgone pool hpool v hv
  refine wp_turn_query ?_ fun _ _ _ => nofun
  intro (wasActive : Bool) t hturn
  have hfresh' : Fresh t.1.log := by
    rw [turn_log hturn]
    exact hfresh.append fun _ => ⟨nofun, nofun⟩
  have hworld : t.1.world = s.1.world := (turn_query_world hturn).trans (h.arrive _)
  have hnames' : NamesUnique t.1.world := hworld ▸ hnames
  refine Prog.Wp.ite (fun _ => ?_) fun _ => hend wasActive t hnames' hfresh'
  refine wp_turn_command ?_ fun _ _ _ => nofun
  intro _ u hturn'
  have hfresh'' : Fresh u.1.log := by
    rw [turn_log hturn']
    exact hfresh'.append fun _ => ⟨nofun, nofun⟩
  refine hend wasActive u ?_ hfresh''
  obtain ⟨-, x, hx, -, hworld'⟩ := turn_command_ok hturn'
  rw [h.arrive] at hx
  obtain ⟨pool, hpool, hx⟩ := except_bind_eq_ok.mp hx
  split_ifs at hx
  cases hx
  rw [← hworld']
  exact hnames'.update (pool_eq_ok.mp hpool) rfl

omit [Libvirtd] in
theorem DeletedFirst.append {log : List Made} (h : DeletedFirst log) (tail : List Made) :
    DeletedFirst (log ++ tail) := by
  obtain ⟨front, p, volumes, rest, rfl, hstop⟩ := h
  exact ⟨front, p, volumes, rest ++ tail, by simp, hstop⟩

-- The end of a removal brings no volume back: the pool keeps its storage, or it is gone.
theorem Ending.storage (h : RemoveSetting o) {t : Busy × Prop} {c : Call} {r : Except Error c.Result}
    (hc : Ending p c) (hturn : turn o ok s c r t) {pool : StoragePool}
    (hpool : t.1.world.pools.lookup p.id = some pool) :
    ∃ pool', s.1.world.pools.lookup p.id = some pool' ∧ pool.storage = pool'.storage := by
  have hsame : t.1.world = s.1.world →
      ∃ pool', s.1.world.pools.lookup p.id = some pool' ∧ pool.storage = pool'.storage := by
    intro hworld
    exact ⟨pool, hworld ▸ hpool, rfl⟩
  have hfailed : ∀ {x : Command} {e : Error}, turn o ok s (.command x) (.error e) t →
      t.1.world = s.1.world := fun hturn => (turn_command_error hturn).1.trans (h.arrive _)
  cases hc with
  | isPersistent => exact hsame ((turn_query_world hturn).trans (h.arrive _))
  | isActive => exact hsame ((turn_query_world hturn).trans (h.arrive _))
  | destroy =>
      cases r with
      | error e => exact hsame (hfailed hturn)
      | ok a =>
          obtain ⟨-, x, hx, -, hworld⟩ := turn_command_ok hturn
          rw [h.arrive] at hx
          obtain ⟨found, hfound, hx⟩ := except_bind_eq_ok.mp hx
          cases hx
          have hlookup := pool_eq_ok.mp (activePool_eq_ok.mp hfound).1
          refine ⟨found, hlookup, ?_⟩
          rw [← hworld, World.stopPool] at hpool
          by_cases hp : found.persistent = true
          · rw [if_pos hp, World.setPool, AList.lookup_insert] at hpool
            cases hpool
            rfl
          · simp [hp, World.erasePool] at hpool
  | delete =>
      cases r with
      | error e => exact hsame (hfailed hturn)
      | ok a =>
          obtain ⟨-, x, hx, -, hworld⟩ := turn_command_ok hturn
          rw [h.arrive] at hx
          obtain ⟨found, -, hx⟩ := except_bind_eq_ok.mp hx
          split_ifs at hx
          cases hx
          exact hsame hworld.symm
  | undefine =>
      cases r with
      | error e => exact hsame (hfailed hturn)
      | ok a =>
          obtain ⟨-, x, hx, -, hworld⟩ := turn_command_ok hturn
          obtain ⟨found, -, hx⟩ := except_bind_eq_ok.mp hx
          split_ifs at hx
          cases hx
          rw [← hworld] at hpool
          simp [World.erasePool] at hpool

theorem Ending.cleared (h : RemoveSetting o) {t : Busy × Prop} {c : Call} {r : Except Error c.Result}
    (hc : Ending p c) (hturn : turn o ok s c r t) (hs : Cleared p.id s.1) : Cleared p.id t.1 := by
  intro p' volumes hmem v hv pool hpool
  obtain ⟨pool', hpool', heq⟩ := hc.storage h hturn hpool
  rw [turn_log hturn] at hmem
  rcases List.mem_append.mp hmem with hmem | hmem
  · rw [heq]
    exact hs p' volumes hmem v hv pool' hpool'
  · have hcall : (listed p' volumes).call = c := by rw [List.mem_singleton.mp hmem]
    rw [← hcall] at hc
    cases hc

theorem stopAndUndefine_log (h : RemoveSetting o) (deleteFiles removeEmptyFolder : Bool) :
    (stopAndUndefine p deleteFiles removeEmptyFolder).Wp (turn o ok) (fun _ t =>
      (∃ tail, t.1.log = s.1.log ++ tail ∧ ∀ m ∈ tail, Ending p m.call) ∧
        (Cleared p.id s.1 → Cleared p.id t.1)) s := by
  have hcalls := stopAndUndefine_calls p deleteFiles removeEmptyFolder
  refine (wp_turn_calls hcalls).and ?_
  refine Prog.Wp.of_calls (fun t : Busy × Prop => Cleared p.id s.1 → Cleared p.id t.1) ?_ hcalls id
  intro c hc t r u hturn ht hs
  exact hc.cleared h hturn (ht hs)

-- The log of a removal, whatever fails.
theorem removePool_log (h : RemoveSetting o) (ok : Busy → Call → Prop) {w : World} (id : Uuid)
    (hnames : NamesUnique w) (deleteFiles removeEmptyFolder : Bool) :
    (removePool id deleteFiles removeEmptyFolder).Wp (turn o ok) (fun r t =>
      (deleteFiles = false → ∀ m ∈ t.1.log, ∀ c, m.call = .command c → ∃ p, p.id = id ∧
        (c = .poolDestroy p ∨ c = .poolDelete p ∨ c = .poolUndefine p)) ∧
      (r = .ok () → deleteFiles = true → DeletedFirst t.1.log) ∧
      ((∃ p, folderDeleted p ∈ t.1.log) → Cleared id t.1)) (⟨w, []⟩, True) := by
  refine wp_turn_query ?_ ?_
  · intro (p : Ref) s hturn
    obtain rfl := lookupPool_answer hturn
    have hlog := turn_log hturn
    have hworld : s.1.world = w := (turn_query_world hturn).trans (h.arrive _)
    cases deleteFiles with
    | false =>
        refine (stopAndUndefine_log h false removeEmptyFolder).imp ?_
        rintro r t ⟨⟨tail, ht, htail⟩, hcleared⟩
        refine ⟨fun _ m hm c hc => ?_, nofun, fun _ => hcleared ?_⟩
        · rw [ht, hlog] at hm
          rcases List.mem_append.mp hm with hm | hm
          · simp only [List.nil_append, List.mem_singleton] at hm
            subst hm
            cases hc
          · have hending := htail m hm
            rw [hc] at hending
            cases hending with
            | destroy => exact ⟨p, rfl, Or.inl rfl⟩
            | delete => exact ⟨p, rfl, Or.inr (Or.inl rfl)⟩
            | undefine => exact ⟨p, rfl, Or.inr (Or.inr rfl)⟩
        · intro p' volumes hmem
          rw [hlog] at hmem
          simp [listed] at hmem
    | true =>
        have hfresh : Fresh s.1.log := by
          rw [hlog]
          have hnil : Fresh [] := fun _ hm => absurd hm List.not_mem_nil
          exact hnil.append fun _ => ⟨nofun, nofun⟩
        refine Prog.wp_bind.mpr (((deleteFilesOf_empties h (hworld ▸ hnames) hfresh).and
          (wp_turn_calls (deleteFilesOf_calls p))).imp ?_)
        rintro r t ⟨hempty, tail, ht, htail⟩
        cases r with
        | error e =>
            refine ⟨nofun, nofun, ?_⟩
            rintro ⟨p', hmem⟩
            rw [ht, hlog] at hmem
            rcases List.mem_append.mp hmem with hmem | hmem
            · simp [folderDeleted] at hmem
            · cases htail _ hmem
        | ok a =>
            obtain ⟨hdeleted, hcleared⟩ := hempty rfl
            refine (stopAndUndefine_log h true removeEmptyFolder).imp ?_
            rintro r u ⟨⟨tail', hu, -⟩, hcleared'⟩
            refine ⟨nofun, fun _ _ => ?_, fun _ => hcleared' hcleared⟩
            rw [hu]
            exact hdeleted.append tail'
  · intro e s hturn
    have hlog := turn_log hturn
    refine ⟨fun _ m hm c hc => ?_, nofun, ?_⟩
    · rw [hlog] at hm
      simp only [List.nil_append, List.mem_singleton] at hm
      subst hm
      cases hc
    · rintro ⟨p', hmem⟩
      rw [hlog] at hmem
      simp [folderDeleted] at hmem

end Logs

section Safety

variable [Libvirtd]

-- A removal is safe at every failure point exactly if no query of the pool's state fails
-- while a pool runs that was stopped before.
theorem removal_is_safe (o : Outside) (h : RemoveSetting o) (w : World) (hnames : NamesUnique w)
    (id : Uuid) (deleteFiles removeEmptyFolder : Bool) :
    SafelyRemoved w id deleteFiles (busily o (removePool id deleteFiles removeEmptyFolder) w) ↔
      (removePool id deleteFiles removeEmptyFolder).Along (Busy.answer o) (StateKnown o w id)
        ⟨w, []⟩ := by
  obtain ⟨hkept, hemptied, hfolder⟩ := (removePool_log h (StateKnown o w id) id hnames deleteFiles
    removeEmptyFolder).run
  by_cases hw : Saved (poolLook id) w
  · obtain ⟨hok, herror⟩ := (removePool_state deleteFiles removeEmptyFolder h hw).run
    rw [true_and] at hok herror
    obtain ⟨pool, hlookup, -, hpersistent⟩ := pool_of_saved hw
    constructor
    · intro hsafe
      cases hr : (busily o (removePool id deleteFiles removeEmptyFolder) w).1 with
      | ok a => exact (hok hr).2
      | error e =>
          refine (herror e hr).2.mpr ?_
          rintro ⟨hstopped, hruns⟩
          obtain ⟨pool', hpool', -, hactive⟩ := hsafe.failed e hr pool hlookup hpersistent
          have hruns' : pool'.active = true := by
            have hsame := congrArg (Option.any (·.active)) hpool'
            exact hsame.symm.trans hruns
          have hbefore := hstopped.not_runs
          simp [poolRuns, hlookup, hactive hruns'] at hbefore
    · intro halong
      refine ⟨hkept, ?_, hemptied, ?_, fun _ _ => hfolder⟩
      · intro hr _ _ _
        exact Option.map_eq_none_iff.mp (hok hr).1
      · intro e hr found hfound _
        obtain rfl : pool = found := Option.some.inj (hlookup.symm.trans hfound)
        obtain ⟨hsaved, hmark⟩ := herror e hr
        obtain ⟨pool', hpool', -, hpersistent'⟩ := pool_of_saved hsaved
        refine ⟨pool', hpool', hpersistent', fun hactive => ?_⟩
        by_contra hstopped
        refine hmark.mp halong ⟨?_, ?_⟩
        · simp [PoolStopped, poolLook, hlookup, hpersistent, Bool.eq_false_iff.mpr hstopped]
        · have hsame := congrArg (Option.any (·.active)) hpool'
          exact hsame.trans hactive
  · have halong := (removePool_unsaved (o := o) deleteFiles removeEmptyFolder hw).run
    refine ⟨fun _ => halong.2, fun _ => ⟨hkept, ?_, hemptied, ?_, fun _ _ => hfolder⟩⟩
    · intro _ pool hpool hpersistent
      exact absurd ⟨pool.active, by simp [poolLook, hpool, hpersistent]⟩ hw
    · intro _ _ pool hpool hpersistent
      exact absurd ⟨pool.active, by simp [poolLook, hpool, hpersistent]⟩ hw

end Safety

section Runs

attribute [local instance] defining

-- A stopped pool with one volume.
def idlePool : StoragePool where
  name := "srv"
  state := 0
  active := false
  persistent := true
  autostart := false
  scan := ⟨[], 0, 0, 0⟩
  storage := ⟨[⟨"root", "/srv/root", "/srv/root", 0, 10, 5, "<volume/>"⟩], 100, 5, 95⟩

def idleWorld : World := ⟨∅, .singleton 1 idlePool, ∅⟩

theorem idleWorld_namesUnique : NamesUnique idleWorld := by
  intro id id' p p' h h' _
  have hkeys (id : Uuid) (p : StoragePool) (h : idleWorld.pools.lookup id = some p) : id = 1 := by
    have hmem : id ∈ idleWorld.pools := AList.lookup_isSome.mp (by rw [h]; rfl)
    simpa [idleWorld, AList.keys_singleton] using AList.mem_keys.mp hmem
  exact (hkeys id p h).trans (hkeys id' p' h').symm

-- Every call like `c` fails.
def failing (c : Call) : Outside where
  faults _ x := if x = c then some ⟨.other, "failed"⟩ else none

theorem failing_setting {c : Call} (h : ∀ p, c ≠ .command (.poolDestroy p)) :
    RemoveSetting (failing c) where
  alone _ _ := rfl
  destroy _ p := if_neg fun heq => h p heq.symm

-- The volume cannot be deleted: the pool is stopped again.
def stuckVolume : Call := .command (.volDelete ⟨"srv", "root", "/srv/root"⟩)

theorem removal_is_safe_idle :
    (∃ e, (busily (failing stuckVolume) (removePool 1 true false) idleWorld).1 = .error e) ∧
    SafelyRemoved idleWorld 1 true
      (busily (failing stuckVolume) (removePool 1 true false) idleWorld) := by
  have hsetting : RemoveSetting (failing stuckVolume) := failing_setting fun _ => nofun
  refine ⟨⟨_, rfl⟩, (removal_is_safe (failing stuckVolume) hsetting idleWorld idleWorld_namesUnique 1
    true false).mpr ?_⟩
  refine ⟨trivial, ?_, trivial, trivial, trivial, trivial, trivial, trivial⟩
  intro hsome
  cases hsome

-- The volumes are gone and the query of the definition fails: the pool goes on running.
theorem removal_leaves_pool_running :
    ¬∀ o : Outside, RemoveSetting o → ∀ w, NamesUnique w → ∀ id deleteFiles removeEmptyFolder,
      SafelyRemoved w id deleteFiles (busily o (removePool id deleteFiles removeEmptyFolder) w) := by
  intro h
  have hsafe := h (failing (.query (.poolIsPersistent ⟨1, "srv"⟩))) (failing_setting fun _ => nofun)
    idleWorld idleWorld_namesUnique 1 true false
  obtain ⟨pool, hpool, -, hactive⟩ := hsafe.failed _ rfl idlePool rfl rfl
  have hruns : poolRuns (busily (failing (.query (.poolIsPersistent ⟨1, "srv"⟩)))
      (removePool 1 true false) idleWorld).2.world 1 = true := rfl
  have hsame := congrArg (Option.any (·.active)) hpool
  cases hactive (hsame.symm.trans hruns)

end Runs

end Lodger.Jobs
