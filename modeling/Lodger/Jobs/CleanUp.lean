import Lodger.Jobs
import Lodger.Busy

namespace Lodger.Jobs

open Lodger.Lib Lodger.Libvirt

def poolRuns (w : World) (id : Uuid) : Bool := (w.pools.lookup id).any (·.active)

def networkRuns (w : World) (id : Uuid) : Bool := (w.networks.lookup id).any (·.active)

-- What another client does when it starts a pool or a network.
def poolStarted (p : StoragePool) : StoragePool :=
  if p.active then p else { p with active := true, state := 2, scan := p.storage }

def networkStarted (n : Network) : Network := { n with active := true }

-- What is assumed of libvirt and of the other clients during a create: a define makes a
-- stopped object with a saved definition, a destroy and an undefine do not fail for a reason
-- of their own, and the other clients only start pools and networks.
structure CreateSetting [Libvirtd] (o : Outside) : Prop where
  definePool : ∀ xml w id p, Libvirtd.definePool xml w = .ok (id, p) →
    p.active = false ∧ p.persistent = true
  defineNetwork : ∀ xml w id n, Libvirtd.defineNetwork xml w = .ok (id, n) →
    n.active = false ∧ n.persistent = true
  destroyPool : ∀ i p, o.faults i (.command (.poolDestroy p)) = none
  undefinePool : ∀ i p, o.faults i (.command (.poolUndefine p)) = none
  destroyNetwork : ∀ i n, o.faults i (.command (.networkDestroy n)) = none
  undefineNetwork : ∀ i n, o.faults i (.command (.networkUndefine n)) = none
  pools : ∀ i w id, (o.acts i w).pools.lookup id = w.pools.lookup id ∨
    (o.acts i w).pools.lookup id = (w.pools.lookup id).map poolStarted
  networks : ∀ i w id, (o.acts i w).networks.lookup id = w.networks.lookup id ∨
    (o.acts i w).networks.lookup id = (w.networks.lookup id).map networkStarted

-- The is-active query does not fail while the object runs, and no other client starts the
-- object right before the undefine.
def Undisturbed (o : Outside) (s : Busy) : Call → Prop
  | .query (.poolIsActive p) => (o.faults s.log.length (.query (.poolIsActive p))).isSome →
      poolRuns (s.arrive o) p.id = false
  | .command (.poolUndefine p) => poolRuns (s.arrive o) p.id = true → poolRuns s.world p.id = true
  | .query (.networkIsActive n) => (o.faults s.log.length (.query (.networkIsActive n))).isSome →
      networkRuns (s.arrive o) n.id = false
  | .command (.networkUndefine n) =>
      networkRuns (s.arrive o) n.id = true → networkRuns s.world n.id = true
  | _ => True

-- A create that fails after its define leaves nothing of the object.
def LeavesNothing (defined : Ref → Made) (gone : Uuid → World → Prop)
    (outcome : Except Error Uuid × Busy) : Prop :=
  ∀ e x tail, outcome.1 = .error e → outcome.2.log = defined x :: tail → gone x.id outcome.2.world

def poolDefined (xml : String) (p : Ref) : Made := ⟨.command (.defineStoragePoolXml xml), .ok p⟩

def networkDefined (xml : String) (n : Ref) : Made := ⟨.command (.defineNetworkXml xml), .ok n⟩

section CleanUp

variable [Libvirtd] {o : Outside} {ok : Busy → Call → Prop}

-- What is known of an object, for pools and networks alike: whether it runs and whether it
-- has a saved definition; `none` if it does not exist.
variable {look : World → Option (Bool × Bool)}

def Saved (look : World → Option (Bool × Bool)) (w : World) : Prop := ∃ a, look w = some (a, true)

def Runs (look : World → Option (Bool × Bool)) (w : World) : Bool := (look w).any (·.1)

def OnlyStarts (look : World → Option (Bool × Bool)) (o : Outside) : Prop :=
  ∀ i w, look (o.acts i w) = look w ∨ look (o.acts i w) = (look w).map fun x => (true, x.2)

omit [Libvirtd] in
theorem OnlyStarts.saved (h : OnlyStarts look o) {s : Busy} (hs : Saved look s.world) :
    Saved look (s.arrive o) := by
  obtain ⟨a, ha⟩ := hs
  rcases h s.log.length s.world with hsame | hstarted
  · exact ⟨a, hsame.trans ha⟩
  · exact ⟨true, by rw [Busy.arrive, hstarted, ha]; rfl⟩

omit [Libvirtd] in
theorem OnlyStarts.runs (h : OnlyStarts look o) {s : Busy} (hs : Runs look s.world = true) :
    Runs look (s.arrive o) = true := by
  unfold Runs at hs ⊢
  rcases h s.log.length s.world with hsame | hstarted
  · rw [Busy.arrive, hsame]
    exact hs
  · rw [Busy.arrive, hstarted]
    cases hx : look s.world with
    | none => simp [hx] at hs
    | some x => rfl

omit [Libvirtd] in
theorem saved_cases {w : World} (h : Saved look w) :
    (Runs look w = true ∧ look w = some (true, true)) ∨
      (Runs look w = false ∧ look w = some (false, true)) := by
  obtain ⟨a, ha⟩ := h
  cases a with
  | true => exact Or.inl ⟨by simp [Runs, ha], ha⟩
  | false => exact Or.inr ⟨by simp [Runs, ha], ha⟩

-- A command that keeps the definition, and that nobody can disturb.
theorem command_saved (hstarts : OnlyStarts look o) {c : Command}
    (hperform : ∀ w x, Saved look w → w.perform c = .ok x → Saved look x.world)
    (hok : ∀ s, ok s (.command c)) {s : Busy × Prop} (hs : Saved look s.1.world) :
    (command c).Wp (turn o ok) (fun _ t => Saved look t.1.world ∧ (t.2 ↔ s.2)) s := by
  intro r t hmay
  have hmark : t.2 ↔ s.2 := by
    rw [turn_mark hmay]
    exact and_iff_left (hok s.1)
  refine ⟨?_, hmark⟩
  have harrive := hstarts.saved hs
  cases r with
  | error e =>
      rw [(turn_command_error hmay).1]
      exact harrive
  | ok a =>
      obtain ⟨-, x, hx, -, hworld⟩ := turn_command_ok hmay
      rw [← hworld]
      exact hperform _ x harrive hx

theorem destroy_stops (hstarts : OnlyStarts look o) {c : Command}
    (hfault : ∀ i, o.faults i (.command c) = none)
    (hperform : ∀ w, look w = some (true, true) →
      ∃ x, w.perform c = .ok x ∧ look x.world = some (false, true))
    (hok : ∀ s, ok s (.command c)) {s : Busy × Prop} (hs : Saved look s.1.world)
    (hruns : Runs look s.1.world = true) :
    (command c).Wp (turn o ok) (fun _ t => Saved look t.1.world ∧ Runs look t.1.world = false ∧
      (t.2 ↔ s.2)) s := by
  intro r t hmay
  have hmark : t.2 ↔ s.2 := by
    rw [turn_mark hmay]
    exact and_iff_left (hok s.1)
  rcases saved_cases (hstarts.saved hs) with ⟨-, hlook⟩ | ⟨hstopped, -⟩
  · obtain ⟨x, hx, hafter⟩ := hperform _ hlook
    rw [← (turn_command_done (hfault _) hx hmay).2] at hafter
    exact ⟨⟨false, hafter⟩, by simp [Runs, hafter], hmark⟩
  · rw [hstarts.runs hruns] at hstopped
    cases hstopped

-- Nothing is left after the undefine if the object does not run when it arrives.
theorem undefine_removes (hstarts : OnlyStarts look o) {c : Command}
    (hfault : ∀ i, o.faults i (.command c) = none)
    (hstopped : ∀ w, look w = some (false, true) →
      ∃ x, w.perform c = .ok x ∧ look x.world = none)
    (hrunning : ∀ w x, look w = some (true, true) → w.perform c = .ok x → look x.world ≠ none)
    (hok : ∀ s, ok s (.command c) ↔
      (Runs look (s.arrive o) = true → Runs look s.world = true))
    {s : Busy × Prop} (hs : Saved look s.1.world) (hmark : s.2 ↔ Runs look s.1.world = false) :
    (command c).Wp (turn o ok) (fun _ t => look t.1.world = none ↔ t.2) s := by
  intro r t hmay
  have ht : t.2 ↔ Runs look (s.1.arrive o) = false := by
    rw [turn_mark hmay, hmark, hok]
    constructor
    · rintro ⟨hstop, himp⟩
      rw [← Bool.not_eq_true]
      intro hruns
      rw [himp hruns] at hstop
      cases hstop
    · intro hstop
      refine ⟨?_, fun hruns => absurd hruns (by simp [hstop])⟩
      rw [← Bool.not_eq_true]
      intro hruns
      rw [hstarts.runs hruns] at hstop
      cases hstop
  refine Iff.trans ?_ ht.symm
  rcases saved_cases (hstarts.saved hs) with ⟨hruns, hlook⟩ | ⟨hstop, hlook⟩
  · have hleft : look t.1.world ≠ none := by
      cases r with
      | error e =>
          rw [(turn_command_error hmay).1, hlook]
          exact nofun
      | ok a =>
          obtain ⟨-, x, hx, -, hworld⟩ := turn_command_ok hmay
          rw [← hworld]
          exact hrunning _ x hlook hx
    exact ⟨fun h => absurd h hleft, fun h => absurd h (by simp [hruns])⟩
  · obtain ⟨x, hx, hafter⟩ := hstopped _ hlook
    rw [(turn_command_done (hfault _) hx hmay).2]
    exact ⟨fun _ => hstop, fun _ => hafter⟩

-- The answer of the is-active query.
omit [Libvirtd] in
theorem isActive_answer (hstarts : OnlyStarts look o) {s : Busy × Prop}
    (hs : Saved look s.1.world) {r : Except Error Bool} {t : Busy × Prop}
    (hworld : t.1.world = s.1.arrive o)
    (hanswer : ∀ a, r = .ok a → look (s.1.arrive o) = some (a, true) ∧ (t.2 ↔ s.2))
    (hfailed : ∀ e, r = .error e → (t.2 ↔ s.2 ∧ Runs look (s.1.arrive o) = false)) :
    Saved look t.1.world ∧ (∀ a, r = .ok a → a = Runs look t.1.world ∧ (t.2 ↔ s.2)) ∧
      ∀ e, r = .error e → (t.2 ↔ s.2 ∧ Runs look t.1.world = false) := by
  rw [hworld]
  refine ⟨hstarts.saved hs, ?_, hfailed⟩
  intro a ha
  obtain ⟨hlook, hmark⟩ := hanswer a ha
  exact ⟨by simp [Runs, hlook], hmark⟩

-- The end of a create: what is left of the object tells whether it was undisturbed.
theorem startOrRemove_cleans {start : Job Unit} {isActive : Job Bool} {destroy undefine : Job Unit}
    (hstart : ∀ s : Busy × Prop, Saved look s.1.world → start.Wp (turn o ok)
      (fun _ t => Saved look t.1.world ∧ (t.2 ↔ s.2)) s)
    (hactive : ∀ s : Busy × Prop, Saved look s.1.world → isActive.Wp (turn o ok)
      (fun r t => Saved look t.1.world ∧ (∀ a, r = .ok a → a = Runs look t.1.world ∧ (t.2 ↔ s.2)) ∧
        ∀ e, r = .error e → (t.2 ↔ s.2 ∧ Runs look t.1.world = false)) s)
    (hdestroy : ∀ s : Busy × Prop, Saved look s.1.world → Runs look s.1.world = true →
      destroy.Wp (turn o ok) (fun _ t => Saved look t.1.world ∧ Runs look t.1.world = false ∧
        (t.2 ↔ s.2)) s)
    (hundefine : ∀ s : Busy × Prop, Saved look s.1.world → (s.2 ↔ Runs look s.1.world = false) →
      undefine.Wp (turn o ok) (fun _ t => look t.1.world = none ↔ t.2) s)
    {s : Busy × Prop} (hs : Saved look s.1.world) (hmark : s.2) :
    (startOrRemove start isActive destroy undefine).Wp (turn o ok) (fun r t =>
      ((∃ e, r = .error e) → look t.1.world = none) ↔ t.2) s := by
  refine Prog.wp_bind.mpr (Prog.wp_attempt.mpr ((hstart s hs).imp ?_))
  rintro r t ⟨ht, hsame⟩
  cases r with
  | ok a =>
      have hnot : ¬∃ e, (Except.ok () : Except Error Unit) = .error e := nofun
      exact ⟨fun _ => hsame.mpr hmark, fun _ h => absurd h hnot⟩
  | error e =>
      refine Prog.wp_bind.mpr (Prog.wp_attempt.mpr ((hactive t ht).imp ?_))
      rintro active u ⟨hu, hok, herror⟩
      -- Up to here every call was undisturbed if the object does not run now.
      have hlast : ∀ x : Busy × Prop, Saved look x.1.world → (x.2 ↔ Runs look x.1.world = false) →
          (do
            let _ ← undefine.attempt
            Prog.fail e : Job Unit).Wp (turn o ok)
              (fun r t => ((∃ e, r = .error e) → look t.1.world = none) ↔ t.2) x := by
        intro x hx hiff
        refine Prog.wp_bind.mpr (Prog.wp_attempt.mpr ((hundefine x hx hiff).imp ?_))
        intro r y hy
        refine Iff.trans ?_ hy
        exact ⟨fun h => h ⟨e, rfl⟩, fun h _ => h⟩
      cases active with
      | error e' =>
          refine hlast u hu ((herror e' rfl).trans ?_)
          exact ⟨fun h => h.2, fun h => ⟨hsame.mpr hmark, h⟩⟩
      | ok a =>
          obtain ⟨rfl, hmark'⟩ := hok a rfl
          have hu2 : u.2 := hmark'.mpr (hsame.mpr hmark)
          refine Prog.Wp.ite (fun hruns => ?_) fun hruns => ?_
          · refine Prog.wp_bind.mpr (Prog.wp_attempt.mpr ((hdestroy u hu hruns).imp ?_))
            rintro r x ⟨hx, hstopped, hmark''⟩
            exact hlast x hx ⟨fun _ => hstopped, fun _ => hmark''.mpr hu2⟩
          · have hstopped : Runs look u.1.world = false := Bool.eq_false_iff.mpr hruns
            exact hlast u hu ⟨fun _ => hstopped, fun _ => hu2⟩

theorem created_wp {defined : Ref → Made} (hinj : Function.Injective defined)
    {gone : Uuid → World → Prop} {x : Ref} {job : Job Unit} {s : Busy × Prop}
    (hlog : s.1.log = [defined x])
    (hend : job.Wp (turn o ok)
      (fun r t => ((∃ e, r = .error e) → gone x.id t.1.world) ↔ t.2) s) :
    (do
      job
      return x.id : Job Uuid).Wp (turn o ok)
        (fun r t => LeavesNothing defined gone (r, t.1) ↔ t.2) s := by
  refine Prog.wp_bind.mpr ((hend.and (wp_turn_log _)).imp ?_)
  rintro r t ⟨hiff, tail, ht⟩
  rw [hlog] at ht
  cases r with
  | ok a =>
      have hdone : t.2 := hiff.mp (by rintro ⟨e, he⟩; cases he)
      exact ⟨fun _ => hdone, fun _ e x tail he => by cases he⟩
  | error e =>
      refine Iff.trans ?_ hiff
      constructor
      · intro hall _
        exact hall e x tail rfl ht
      · rintro hgone e' x' tail' - hlog'
        have hlist := hlog'.symm.trans ht
        obtain rfl := hinj (List.cons.inj hlist).1
        exact hgone ⟨e, rfl⟩

-- A create whose define fails leaves nothing either.
omit [Libvirtd] in
theorem leavesNothing_of_error {defined : Ref → Made} {gone : Uuid → World → Prop} {m : Made}
    (hne : ∀ x, defined x ≠ m) {r : Except Error Uuid} {s : Busy} (hlog : s.log = [m]) :
    LeavesNothing defined gone (r, s) := by
  intro e x tail _ hlog'
  have hlist := hlog'.symm.trans hlog
  exact absurd (List.cons.inj hlist).1 (hne x)

end CleanUp

section Kinds

variable [Libvirtd] {o : Outside}

def poolLook (id : Uuid) (w : World) : Option (Bool × Bool) :=
  (w.pools.lookup id).map fun p => (p.active, p.persistent)

def networkLook (id : Uuid) (w : World) : Option (Bool × Bool) :=
  (w.networks.lookup id).map fun n => (n.active, n.persistent)

omit [Libvirtd] in
theorem runs_poolLook (id : Uuid) (w : World) : Runs (poolLook id) w = poolRuns w id := by
  unfold Runs poolLook poolRuns
  cases w.pools.lookup id <;> rfl

omit [Libvirtd] in
theorem runs_networkLook (id : Uuid) (w : World) : Runs (networkLook id) w = networkRuns w id := by
  unfold Runs networkLook networkRuns
  cases w.networks.lookup id <;> rfl

theorem CreateSetting.poolStarts (h : CreateSetting o) (id : Uuid) : OnlyStarts (poolLook id) o := by
  intro i w
  unfold poolLook
  rcases h.pools i w id with hsame | hstarted
  · exact Or.inl (by rw [hsame])
  · rw [hstarted]
    cases w.pools.lookup id with
    | none => exact Or.inr rfl
    | some p =>
        by_cases hp : p.active = true
        · exact Or.inl (by simp [poolStarted, hp])
        · exact Or.inr (by simp [poolStarted, hp])

theorem CreateSetting.networkStarts (h : CreateSetting o) (id : Uuid) :
    OnlyStarts (networkLook id) o := by
  intro i w
  unfold networkLook
  rcases h.networks i w id with hsame | hstarted
  · exact Or.inl (by rw [hsame])
  · rw [hstarted]
    exact Or.inr (by cases w.networks.lookup id <;> rfl)

omit [Libvirtd] in
theorem poolLook_eq_some {id : Uuid} {w : World} {a b : Bool} (h : poolLook id w = some (a, b)) :
    ∃ p, w.pools.lookup id = some p ∧ w.pool id = .ok p ∧ p.active = a ∧ p.persistent = b := by
  obtain ⟨p, hp, heq⟩ := Option.map_eq_some_iff.mp h
  cases heq
  exact ⟨p, hp, by simp [World.pool, hp], rfl, rfl⟩

omit [Libvirtd] in
theorem networkLook_eq_some {id : Uuid} {w : World} {a b : Bool}
    (h : networkLook id w = some (a, b)) :
    ∃ n, w.networks.lookup id = some n ∧ w.network id = .ok n ∧ n.active = a ∧ n.persistent = b := by
  obtain ⟨n, hn, heq⟩ := Option.map_eq_some_iff.mp h
  cases heq
  exact ⟨n, hn, by simp [World.network, hn], rfl, rfl⟩

omit [Libvirtd] in
theorem poolLook_setPool (id : Uuid) (w : World) (p : StoragePool) :
    poolLook id (w.setPool id p) = some (p.active, p.persistent) := by
  simp [poolLook, World.setPool]

omit [Libvirtd] in
theorem networkLook_setNetwork (id : Uuid) (w : World) (n : Network) :
    networkLook id (w.setNetwork id n) = some (n.active, n.persistent) := by
  simp [networkLook, World.setNetwork]

-- The steps of the start of a pool: none of them takes the definition away.
theorem createPool_start (h : CreateSetting o) (p : Ref) (autostart : Bool) {s : Busy × Prop}
    (hs : Saved (poolLook p.id) s.1.world) :
    (do
      command (.poolBuild p)
      command (.poolSetAutostart p autostart)
      command (.poolCreate p) : Job Unit).Wp (turn o (Undisturbed o))
      (fun _ t => Saved (poolLook p.id) t.1.world ∧ (t.2 ↔ s.2)) s := by
  have hstarts := h.poolStarts p.id
  have hbuild : ∀ w x, Saved (poolLook p.id) w → w.perform (.poolBuild p) = .ok x →
      Saved (poolLook p.id) x.world := by
    rintro w x ⟨a, ha⟩ hx
    obtain ⟨pool, -, hpool, rfl, -⟩ := poolLook_eq_some ha
    simp only [World.perform, hpool, bind, Except.bind] at hx
    split_ifs at hx
    cases hx
    exact ⟨_, ha⟩
  have hauto : ∀ w x, Saved (poolLook p.id) w → w.perform (.poolSetAutostart p autostart) = .ok x →
      Saved (poolLook p.id) x.world := by
    rintro w x ⟨a, ha⟩ hx
    obtain ⟨pool, -, hpool, rfl, hpersistent⟩ := poolLook_eq_some ha
    simp only [World.perform, hpool, bind, Except.bind, hpersistent, if_true] at hx
    cases hx
    exact ⟨pool.active, poolLook_setPool _ _ _⟩
  have hcreate : ∀ w x, Saved (poolLook p.id) w → w.perform (.poolCreate p) = .ok x →
      Saved (poolLook p.id) x.world := by
    rintro w x ⟨a, ha⟩ hx
    obtain ⟨pool, -, hpool, rfl, hpersistent⟩ := poolLook_eq_some ha
    simp only [World.perform, hpool, bind, Except.bind] at hx
    split_ifs at hx
    cases hx
    exact ⟨true, by rw [poolLook_setPool, hpersistent]⟩
  refine Prog.wp_bind.mpr ((command_saved hstarts hbuild (fun _ => trivial) hs).imp ?_)
  rintro r t ⟨ht, hmark⟩
  cases r with
  | error e => exact ⟨ht, hmark⟩
  | ok a =>
      refine Prog.wp_bind.mpr ((command_saved hstarts hauto (fun _ => trivial) ht).imp ?_)
      rintro r u ⟨hu, hmark'⟩
      cases r with
      | error e => exact ⟨hu, hmark'.trans hmark⟩
      | ok a =>
          refine (command_saved hstarts hcreate (fun _ => trivial) hu).imp ?_
          rintro r x ⟨hx, hmark''⟩
          exact ⟨hx, hmark''.trans (hmark'.trans hmark)⟩

theorem poolIsActive_wp (h : CreateSetting o) (p : Ref) {s : Busy × Prop}
    (hs : Saved (poolLook p.id) s.1.world) :
    (query (.poolIsActive p)).Wp (turn o (Undisturbed o)) (fun (r : Except Error Bool) t =>
      Saved (poolLook p.id) t.1.world ∧
      (∀ a, r = .ok a → a = Runs (poolLook p.id) t.1.world ∧ (t.2 ↔ s.2)) ∧
      ∀ e, r = .error e → (t.2 ↔ s.2 ∧ Runs (poolLook p.id) t.1.world = false)) s := by
  intro r t hmay
  have hstarts := h.poolStarts p.id
  obtain ⟨b, hb⟩ := hstarts.saved hs
  obtain ⟨pool, -, hpool, rfl, -⟩ := poolLook_eq_some hb
  have hanswer : (s.1.arrive o).query (.poolIsActive p) = .ok (pool.active : Bool) := by
    simp [World.query, hpool, Except.map]
  refine isActive_answer hstarts hs (turn_query_world hmay) ?_ ?_
  · rintro a rfl
    obtain ⟨hfault, hquery, -⟩ := turn_query_ok hmay
    obtain rfl := Except.ok.inj (hquery.symm.trans hanswer)
    refine ⟨hb, ?_⟩
    rw [turn_mark hmay]
    exact and_iff_left fun hsome => by simp [hfault] at hsome
  · rintro e rfl
    have hfault := turn_query_error hmay hanswer
    rw [turn_mark hmay, runs_poolLook]
    exact and_congr_right fun _ => ⟨fun hok => hok hfault, fun hstopped _ => hstopped⟩

theorem poolDestroy_wp (h : CreateSetting o) (p : Ref) {s : Busy × Prop}
    (hs : Saved (poolLook p.id) s.1.world) (hruns : Runs (poolLook p.id) s.1.world = true) :
    (command (.poolDestroy p)).Wp (turn o (Undisturbed o)) (fun _ t =>
      Saved (poolLook p.id) t.1.world ∧ Runs (poolLook p.id) t.1.world = false ∧ (t.2 ↔ s.2)) s := by
  refine destroy_stops (h.poolStarts p.id) (fun i => h.destroyPool i p) ?_ (fun _ => trivial) hs hruns
  intro w hw
  obtain ⟨pool, -, hpool, hactive, hpersistent⟩ := poolLook_eq_some hw
  have hx : w.perform (.poolDestroy p) = .ok {
      result := (), world := w.stopPool p.id pool, events := [.pool p.id 3] } := by
    simp only [World.perform, World.activePool, hpool, bind, Except.bind, hactive, if_true]
  refine ⟨_, hx, ?_⟩
  simp only [World.stopPool, hpersistent, if_true]
  exact poolLook_setPool _ _ _

theorem poolUndefine_wp (h : CreateSetting o) (p : Ref) {s : Busy × Prop}
    (hs : Saved (poolLook p.id) s.1.world)
    (hmark : s.2 ↔ Runs (poolLook p.id) s.1.world = false) :
    (command (.poolUndefine p)).Wp (turn o (Undisturbed o))
      (fun _ t => poolLook p.id t.1.world = none ↔ t.2) s := by
  refine undefine_removes (h.poolStarts p.id) (fun i => h.undefinePool i p) ?_ ?_ ?_ hs hmark
  · intro w hw
    obtain ⟨pool, -, hpool, hactive, hpersistent⟩ := poolLook_eq_some hw
    have hx : w.perform (.poolUndefine p) = .ok {
        result := (), world := w.erasePool p.id, events := [.pool p.id 1] } := by
      simp only [World.perform, hpool, bind, Except.bind, hactive, hpersistent, Bool.not_true,
        Bool.or_false, Bool.false_eq_true, if_false]
    exact ⟨_, hx, by simp [poolLook, World.erasePool]⟩
  · intro w x hw hx
    obtain ⟨pool, -, hpool, hactive, -⟩ := poolLook_eq_some hw
    simp [World.perform, hpool, bind, Except.bind, hactive] at hx
  · intro s
    simp only [Undisturbed, runs_poolLook]

theorem createPool_cleans (h : CreateSetting o) (xml : String) (autostart : Bool) (w : World) :
    (createPool xml autostart).Wp (turn o (Undisturbed o)) (fun r t =>
      LeavesNothing (poolDefined xml) (fun id w => poolLook id w = none) (r, t.1) ↔ t.2)
      (⟨w, []⟩, True) := by
  refine wp_turn_command ?_ ?_
  · intro (p : Ref) s hdefine
    have hmark : s.2 := by
      rw [turn_mark hdefine]
      exact ⟨trivial, trivial⟩
    have hsaved : Saved (poolLook p.id) s.1.world := by
      obtain ⟨-, x, hx, hresult, hworld⟩ := turn_command_ok hdefine
      simp only [World.perform] at hx
      cases hd : Libvirtd.definePool xml (Busy.arrive o ⟨w, []⟩) with
      | error e => simp [hd] at hx
      | ok found =>
          obtain ⟨id, pool⟩ := found
          obtain ⟨hstopped, hpersistent⟩ := h.definePool _ _ _ _ hd
          simp only [hd] at hx
          split_ifs at hx
          cases hx
          obtain rfl : (⟨id, pool.name⟩ : Ref) = p := hresult
          rw [← hworld]
          exact ⟨false, by rw [poolLook_setPool, hstopped, hpersistent]⟩
    have hend := startOrRemove_cleans (fun s hs => createPool_start h p autostart hs)
      (fun s hs => poolIsActive_wp h p hs) (fun s hs => poolDestroy_wp h p hs)
      (fun s hs => poolUndefine_wp h p hs) hsaved hmark
    refine created_wp ?_ (turn_log hdefine) hend
    intro x y hxy
    simp only [poolDefined, Made.mk.injEq, heq_eq_eq, true_and] at hxy
    exact Except.ok.inj hxy
  · intro e s hdefine
    have hmark : s.2 := by
      rw [turn_mark hdefine]
      exact ⟨trivial, trivial⟩
    refine ⟨fun _ => hmark, fun _ => leavesNothing_of_error ?_ (turn_log hdefine)⟩
    intro x hx
    simp [poolDefined] at hx

theorem createNetwork_start (h : CreateSetting o) (n : Ref) (autostart : Bool) {s : Busy × Prop}
    (hs : Saved (networkLook n.id) s.1.world) :
    (do
      command (.networkSetAutostart n autostart)
      command (.networkCreate n) : Job Unit).Wp (turn o (Undisturbed o))
      (fun _ t => Saved (networkLook n.id) t.1.world ∧ (t.2 ↔ s.2)) s := by
  have hstarts := h.networkStarts n.id
  have hauto : ∀ w x, Saved (networkLook n.id) w →
      w.perform (.networkSetAutostart n autostart) = .ok x → Saved (networkLook n.id) x.world := by
    rintro w x ⟨a, ha⟩ hx
    obtain ⟨network, -, hnetwork, rfl, hpersistent⟩ := networkLook_eq_some ha
    simp only [World.perform, hnetwork, bind, Except.bind, hpersistent, if_true] at hx
    cases hx
    exact ⟨network.active, networkLook_setNetwork _ _ _⟩
  have hcreate : ∀ w x, Saved (networkLook n.id) w → w.perform (.networkCreate n) = .ok x →
      Saved (networkLook n.id) x.world := by
    rintro w x ⟨a, ha⟩ hx
    obtain ⟨network, -, hnetwork, rfl, hpersistent⟩ := networkLook_eq_some ha
    simp only [World.perform, hnetwork, bind, Except.bind] at hx
    split_ifs at hx
    cases hx
    exact ⟨true, by rw [networkLook_setNetwork, hpersistent]⟩
  refine Prog.wp_bind.mpr ((command_saved hstarts hauto (fun _ => trivial) hs).imp ?_)
  rintro r t ⟨ht, hmark⟩
  cases r with
  | error e => exact ⟨ht, hmark⟩
  | ok a =>
      refine (command_saved hstarts hcreate (fun _ => trivial) ht).imp ?_
      rintro r u ⟨hu, hmark'⟩
      exact ⟨hu, hmark'.trans hmark⟩

theorem networkIsActive_wp (h : CreateSetting o) (n : Ref) {s : Busy × Prop}
    (hs : Saved (networkLook n.id) s.1.world) :
    (query (.networkIsActive n)).Wp (turn o (Undisturbed o)) (fun (r : Except Error Bool) t =>
      Saved (networkLook n.id) t.1.world ∧
      (∀ a, r = .ok a → a = Runs (networkLook n.id) t.1.world ∧ (t.2 ↔ s.2)) ∧
      ∀ e, r = .error e → (t.2 ↔ s.2 ∧ Runs (networkLook n.id) t.1.world = false)) s := by
  intro r t hmay
  have hstarts := h.networkStarts n.id
  obtain ⟨b, hb⟩ := hstarts.saved hs
  obtain ⟨network, -, hnetwork, rfl, -⟩ := networkLook_eq_some hb
  have hanswer : (s.1.arrive o).query (.networkIsActive n) = .ok (network.active : Bool) := by
    simp [World.query, hnetwork, Except.map]
  refine isActive_answer hstarts hs (turn_query_world hmay) ?_ ?_
  · rintro a rfl
    obtain ⟨hfault, hquery, -⟩ := turn_query_ok hmay
    obtain rfl := Except.ok.inj (hquery.symm.trans hanswer)
    refine ⟨hb, ?_⟩
    rw [turn_mark hmay]
    exact and_iff_left fun hsome => by simp [hfault] at hsome
  · rintro e rfl
    have hfault := turn_query_error hmay hanswer
    rw [turn_mark hmay, runs_networkLook]
    exact and_congr_right fun _ => ⟨fun hok => hok hfault, fun hstopped _ => hstopped⟩

theorem networkDestroy_wp (h : CreateSetting o) (n : Ref) {s : Busy × Prop}
    (hs : Saved (networkLook n.id) s.1.world) (hruns : Runs (networkLook n.id) s.1.world = true) :
    (command (.networkDestroy n)).Wp (turn o (Undisturbed o)) (fun _ t =>
      Saved (networkLook n.id) t.1.world ∧ Runs (networkLook n.id) t.1.world = false ∧
        (t.2 ↔ s.2)) s := by
  refine destroy_stops (h.networkStarts n.id) (fun i => h.destroyNetwork i n) ?_ (fun _ => trivial) hs
    hruns
  intro w hw
  obtain ⟨network, -, hnetwork, hactive, hpersistent⟩ := networkLook_eq_some hw
  have hx : w.perform (.networkDestroy n) = .ok {
      result := (), world := w.stopNetwork n.id network, events := [.network n.id 3] } := by
    simp only [World.perform, hnetwork, bind, Except.bind, hactive, if_true]
  refine ⟨_, hx, ?_⟩
  simp only [World.stopNetwork, hpersistent, if_true]
  exact networkLook_setNetwork _ _ _

-- The undefine of a running network leaves a transient one.
theorem networkUndefine_wp (h : CreateSetting o) (n : Ref) {s : Busy × Prop}
    (hs : Saved (networkLook n.id) s.1.world)
    (hmark : s.2 ↔ Runs (networkLook n.id) s.1.world = false) :
    (command (.networkUndefine n)).Wp (turn o (Undisturbed o))
      (fun _ t => networkLook n.id t.1.world = none ↔ t.2) s := by
  refine undefine_removes (h.networkStarts n.id) (fun i => h.undefineNetwork i n) ?_ ?_ ?_ hs hmark
  · intro w hw
    obtain ⟨network, -, hnetwork, hactive, hpersistent⟩ := networkLook_eq_some hw
    have hx : w.perform (.networkUndefine n) = .ok {
        result := (), world := w.eraseNetwork n.id, events := [.network n.id 1] } := by
      simp [World.perform, hnetwork, bind, Except.bind, hactive, hpersistent]
    exact ⟨_, hx, by simp [networkLook, World.eraseNetwork]⟩
  · intro w x hw hx
    obtain ⟨network, -, hnetwork, hactive, hpersistent⟩ := networkLook_eq_some hw
    simp only [World.perform, hnetwork, bind, Except.bind, hactive, hpersistent, not_true_eq_false,
      if_false, if_true] at hx
    cases hx
    rw [networkLook_setNetwork]
    exact nofun
  · intro s
    simp only [Undisturbed, runs_networkLook]

theorem createNetwork_cleans (h : CreateSetting o) (xml : String) (autostart : Bool) (w : World) :
    (createNetwork xml autostart).Wp (turn o (Undisturbed o)) (fun r t =>
      LeavesNothing (networkDefined xml) (fun id w => networkLook id w = none) (r, t.1) ↔ t.2)
      (⟨w, []⟩, True) := by
  refine wp_turn_command ?_ ?_
  · intro (n : Ref) s hdefine
    have hmark : s.2 := by
      rw [turn_mark hdefine]
      exact ⟨trivial, trivial⟩
    have hsaved : Saved (networkLook n.id) s.1.world := by
      obtain ⟨-, x, hx, hresult, hworld⟩ := turn_command_ok hdefine
      simp only [World.perform] at hx
      cases hd : Libvirtd.defineNetwork xml (Busy.arrive o ⟨w, []⟩) with
      | error e => simp [hd] at hx
      | ok found =>
          obtain ⟨id, network⟩ := found
          obtain ⟨hstopped, hpersistent⟩ := h.defineNetwork _ _ _ _ hd
          simp only [hd] at hx
          cases hx
          obtain rfl : (⟨id, network.name⟩ : Ref) = n := hresult
          rw [← hworld]
          exact ⟨false, by rw [networkLook_setNetwork, hstopped, hpersistent]⟩
    have hend := startOrRemove_cleans (fun s hs => createNetwork_start h n autostart hs)
      (fun s hs => networkIsActive_wp h n hs) (fun s hs => networkDestroy_wp h n hs)
      (fun s hs => networkUndefine_wp h n hs) hsaved hmark
    refine created_wp ?_ (turn_log hdefine) hend
    intro x y hxy
    simp only [networkDefined, Made.mk.injEq, heq_eq_eq, true_and] at hxy
    exact Except.ok.inj hxy
  · intro e s hdefine
    have hmark : s.2 := by
      rw [turn_mark hdefine]
      exact ⟨trivial, trivial⟩
    refine ⟨fun _ => hmark, fun _ => leavesNothing_of_error ?_ (turn_log hdefine)⟩
    intro x hx
    simp [networkDefined] at hx

-- A failed create leaves no definition and nothing that runs exactly if nobody starts the
-- object right before the undefine and the is-active query does not fail while it runs.
theorem failed_create_leaves_nothing (o : Outside) (h : CreateSetting o) (xml : String)
    (autostart : Bool) (w : World) :
    (LeavesNothing (poolDefined xml) (fun id w => w.pools.lookup id = none)
        (busily o (createPool xml autostart) w) ↔
      (createPool xml autostart).Along (Busy.answer o) (Undisturbed o) ⟨w, []⟩) ∧
    (LeavesNothing (networkDefined xml) (fun id w => w.networks.lookup id = none)
        (busily o (createNetwork xml autostart) w) ↔
      (createNetwork xml autostart).Along (Busy.answer o) (Undisturbed o) ⟨w, []⟩) := by
  have hpool := (createPool_cleans h xml autostart w).run
  have hnetwork := (createNetwork_cleans h xml autostart w).run
  simp only [poolLook, networkLook, Option.map_eq_none_iff, true_and] at hpool hnetwork
  exact ⟨hpool, hnetwork⟩

end Kinds

section Runs

def newPool : StoragePool where
  name := "new"
  state := 0
  active := false
  persistent := true
  autostart := false
  scan := ⟨[], 0, 0, 0⟩
  storage := ⟨[], 100, 0, 100⟩

local instance defining : Libvirtd where
  sanitizePath := id
  liveXml := id
  stopsAtOnce _ := false
  definePool _ _ := .ok (1, newPool)
  defineNetwork _ _ := .ok (2, ⟨"new", false, true, false, none⟩)
  createVol _ _ := .error ⟨.other, "not used"⟩

def emptyWorld : World := ⟨∅, ∅, ∅⟩

def startPool (id : Uuid) (w : World) : World :=
  match w.pools.lookup id with
  | some p => w.setPool id (poolStarted p)
  | none => w

theorem lookup_startPool (id other : Uuid) (w : World) :
    (startPool id w).pools.lookup other = w.pools.lookup other ∨
      (startPool id w).pools.lookup other = (w.pools.lookup other).map poolStarted := by
  unfold startPool
  cases hp : w.pools.lookup id with
  | none => exact Or.inl rfl
  | some p =>
      by_cases heq : other = id
      · subst heq
        exact Or.inr (by simp [World.setPool, hp])
      · exact Or.inl (by simp [World.setPool, AList.lookup_insert_ne heq])

-- The start of the new pool fails. Another client starts the pool before call `i`.
def unlucky (i : Nat) : Outside where
  acts n w := if n = i then startPool 1 w else w
  faults _ c := if c = .command (.poolCreate ⟨1, "new"⟩) then some ⟨.other, "start"⟩ else none

theorem unlucky_setting (i : Nat) : CreateSetting (unlucky i) where
  definePool xml w id p h := by
    cases h
    exact ⟨rfl, rfl⟩
  defineNetwork xml w id n h := by
    cases h
    exact ⟨rfl, rfl⟩
  destroyPool _ _ := rfl
  undefinePool _ _ := rfl
  destroyNetwork _ _ := rfl
  undefineNetwork _ _ := rfl
  pools n w id := by
    by_cases hn : n = i
    · simpa [unlucky, hn] using lookup_startPool 1 id w
    · exact Or.inl (by simp [unlucky, hn])
  networks n w id := by
    refine Or.inl ?_
    by_cases hn : n = i
    · simp only [unlucky, hn, if_true, startPool]
      cases w.pools.lookup 1 <;> rfl
    · simp [unlucky, hn]

-- The pool runs before Lodger's own start: the clean-up stops it and removes it.
theorem failed_create_leaves_nothing_started :
    (∃ e, (busily (unlucky 3) (createPool "<pool/>" true) emptyWorld).1 = .error e) ∧
    LeavesNothing (poolDefined "<pool/>") (fun id w => w.pools.lookup id = none)
      (busily (unlucky 3) (createPool "<pool/>" true) emptyWorld) := by
  refine ⟨⟨_, rfl⟩, (failed_create_leaves_nothing (unlucky 3) (unlucky_setting 3) "<pool/>" true
    emptyWorld).1.mpr ?_⟩
  refine ⟨trivial, trivial, trivial, trivial, ?_, trivial, ?_, trivial⟩
  · intro hsome
    cases hsome
  · intro hruns
    cases hruns

-- The pool starts right before the undefine: it stays, with its definition, and it runs.
theorem failed_create_leaves_pool :
    ¬∀ o : Outside, CreateSetting o → ∀ xml autostart w,
      LeavesNothing (poolDefined xml) (fun id w => w.pools.lookup id = none)
        (busily o (createPool xml autostart) w) := by
  intro h
  have hgone : (busily (unlucky 5) (createPool "<pool/>" true) emptyWorld).2.world.pools.lookup 1 =
      none := h (unlucky 5) (unlucky_setting 5) "<pool/>" true emptyWorld _ ⟨1, "new"⟩ _ rfl rfl
  have hruns : poolRuns (busily (unlucky 5) (createPool "<pool/>" true) emptyWorld).2.world 1 = true :=
    rfl
  rw [poolRuns, hgone] at hruns
  cases hruns

end Runs

end Lodger.Jobs
