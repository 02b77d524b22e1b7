import Lodger.Supervisor
import Lodger.Cache.Sound

namespace Lodger.Supervisor

open Lodger.Lib Lodger.Libvirt Lodger.Cache

section Worlds

variable {o : Obj}

theorem Change.kind_apply (change : Change) (t : Thing) : (change.apply t).kind = t.kind := by
  cases change <;> cases t <;> rfl

theorem Change.event_obj {change : Change} (h : change.fits o = true) :
    (change.event o).obj = some o := by
  obtain ⟨kind, id⟩ := o
  cases change with
  | autostart on => cases kind <;> rfl
  | volumes scan =>
      simp only [fits, decide_eq_true_eq] at h
      simp [event, Event.obj, h]

end Worlds

theorem mem_set_of_ne {α : Type} {l : List α} {i : Nat} {a b c : α} (hi : l[i]? = some a)
    (hc : c ∈ l) (hne : c ≠ a) : c ∈ l.set i b := by
  obtain ⟨j, hj⟩ := List.mem_iff_getElem?.mp hc
  have hij : i ≠ j := by
    rintro rfl
    exact hne (Option.some.inj (hj.symm.trans hi))
  exact List.mem_of_getElem? ((List.getElem?_set_ne hij).trans hj)

-- A send to the hub touches nothing but the receiver.
theorem State.sendHub_eq (s : State) (e : Event) :
    s.sendHub e = { s with rx := (s.sendHub e).rx } := by
  unfold State.sendHub
  split <;> rfl

section Invariant

variable {s t : State} {a : Action} {o : Obj} {e : Event} {now : Option Thing} {inv : Inventory}
  {pc : Pc}

-- Every change sends an event to the hub that the supervisor listens to. For
-- libvirt's own changes the step function says so; a call of Lodger changes
-- its object only while its `Virt` is the last one opened.
def Announced (s : State) : Action → Prop
  | .act i => ∀ c ∈ s.calls[i]?, c.gen = s.gen
  | _ => True

-- Something is still on its way that will make the supervisor read the object
-- again: a callback of libvirt, an event in the hub or the notice that events
-- were dropped, the own event of a call that uses this hub, or the loss of the
-- connection.
def Pending (s : State) (o : Obj) : Prop :=
  o ∈ s.owed ∨ s.rx.Due (fun e => e.obj = some o) ∨
    (∃ c ∈ s.calls, c.gen = s.gen ∧ c.obj = o ∧ c.progress = .changed) ∨ s.lost = true

theorem Pending.mono (h : Pending s o) (howed : o ∈ s.owed → o ∈ t.owed)
    (hrx : s.rx.Due (fun e => e.obj = some o) → t.rx.Due fun e => e.obj = some o)
    (hcalls : ∀ c ∈ s.calls, c.gen = s.gen → c.obj = o → c.progress = .changed → c ∈ t.calls)
    (hgen : t.gen = s.gen) (hlost : s.lost = true → t.lost = true) : Pending t o := by
  rcases h with h | h | ⟨c, hc, hg, ho, hp⟩ | h
  · exact .inl (howed h)
  · exact .inr (.inl (hrx h))
  · exact .inr (.inr (.inl ⟨c, hcalls c hc hg ho hp, hg.trans hgen.symm, ho, hp⟩))
  · exact .inr (.inr (.inr (hlost h)))

theorem Pending.sendHub (h : Pending s o) : Pending (s.sendHub e) o := by
  unfold State.sendHub
  split
  · exact h.mono id (fun hdue => hdue.send) (fun _ hc _ _ _ => hc) rfl id
  · exact h

variable [Libvirtd]

theorem State.reply_tells (h : s.lost = false) (o : Obj) (q : Query) :
    Tells o (thing s.world o) q (s.reply q) := by
  rw [State.reply, h]
  exact tells_query _ _ _

variable [Xml.Xmltree]

-- The inventory shows the object, or will when the read in progress ends: the
-- read ends right if nothing changes until then.
def Shown (o : Obj) (inv : Inventory) (now : Option Thing) : Pc → Prop
  | .waiting | .opening | .opened => True
  | .loading _ p _ => p.Returns (Tells o now) fun inv =>
      inv.entry o = now.map (Thing.view o.id)
  | .refreshing e p _ =>
      if e.obj = some o then
        p.Returns (Tells o now) fun r => ∃ f, r = some f ∧ f.entry = now.map (Thing.view o.id)
      else inv.entry o = now.map (Thing.view o.id)
  | .loaded _ | .counted | .published | .idle | .forwarding _ =>
      inv.entry o = now.map (Thing.view o.id)

def Pc.isRead : Pc → Bool
  | .loading .. | .refreshing .. => true
  | _ => false

-- A read starts as a load or a refresh and then goes on with the replies; no
-- other step touches it.
theorem step_pc {P : Pc → Prop} (hrest : ∀ pc, pc.isRead = false → P pc)
    (hload : ∀ first, P (.loading first load []))
    (hrefresh : ∀ e, P (.refreshing e (refresh e) []))
    (hloading : ∀ first q k asked r, P (.loading first (.call q k) asked) →
      P (.loading first (k r) (⟨q, r⟩ :: asked)))
    (hrefreshing : ∀ e q k asked r, P (.refreshing e (.call q k) asked) →
      P (.refreshing e (k r) (⟨q, r⟩ :: asked)))
    (h : P s.pc) (hs : step s a = some t) : P t.pc := by
  cases a with
  | change o x =>
      simp only [Supervisor.step] at hs
      split at hs <;> cases hs
      exact h
  | deliver e settles =>
      simp only [Supervisor.step] at hs
      split at hs <;> cases hs
      rw [State.sendHub_eq]
      exact h
  | lose =>
      simp only [Supervisor.step] at hs
      split at hs <;> cases hs
      exact h
  | deliverClosed reason =>
      simp only [Supervisor.step] at hs
      split at hs <;> cases hs
      rw [State.sendHub_eq]
      exact h
  | call =>
      simp only [Supervisor.step] at hs
      split at hs
      · rename_i first q k asked hpc
        cases hs
        rw [hpc] at h
        exact hloading _ _ _ _ _ h
      · rename_i e q k asked hpc
        cases hs
        rw [hpc] at h
        exact hrefreshing _ _ _ _ _ h
      · cases hs
  | recv =>
      simp only [Supervisor.step] at hs
      split at hs
      · cases hs
        exact hrest _ rfl
      · cases hs
        exact hrefresh _
      · cases hs
        exact hload false
      · cases hs
  | subscribe =>
      simp only [Supervisor.step] at hs
      split at hs <;> cases hs
      exact hload true
  | bump =>
      simp only [Supervisor.step] at hs
      split at hs
      · rename_i first hpc
        cases hs
        cases first <;> exact hrest _ rfl
      · cases hs
  | «open» | finish | fail error | publish | connect | forward | retry =>
      simp only [Supervisor.step] at hs
      split at hs <;> cases hs <;> exact hrest _ rfl
  | take o change =>
      simp only [Supervisor.step] at hs
      split at hs
      · obtain ⟨gen, -, rfl⟩ := Option.map_eq_some_iff.mp hs
        exact h
      · cases hs
  | act i =>
      simp only [Supervisor.step] at hs
      split at hs
      · obtain ⟨x, -, rfl⟩ := Option.map_eq_some_iff.mp hs
        exact h
      · cases hs
  | send i =>
      simp only [Supervisor.step] at hs
      split at hs
      · cases hs
        split
        · rw [State.sendHub_eq]
          exact h
        · exact h
      · cases hs
  | giveUp i =>
      simp only [Supervisor.step] at hs
      split at hs <;> cases hs
      exact h

-- A refresh in progress writes nothing but the object of its event.
def Aimed : Pc → Prop
  | .refreshing e p _ => p.Returns (fun _ _ => True) fun r => ∀ f ∈ r, some f.obj = e.obj
  | _ => True

theorem Aimed.step (h : Aimed s.pc) (hs : step s a = some t) : Aimed t.pc := by
  refine step_pc ?_ (fun _ => trivial) (fun e => refresh_obj e _) (fun _ _ _ _ _ _ => trivial)
    (fun _ _ _ _ r h => h r trivial) h hs
  intro pc hpc
  cases pc <;> trivial

structure Covered (s : State) : Prop where
  fits : ∀ c ∈ s.calls, c.change.fits c.obj = true
  covered : ∀ o, Pending s o ∨ Shown o s.inventory (thing s.world o) s.pc

theorem shown_of_not_subscribed (h : pc.subscribed = false) : Shown o inv now pc := by
  cases pc <;> trivial

theorem shown_loading (first : Bool) (hnow : Fits o now) :
    Shown o inv now (.loading first load []) :=
  load_sound hnow

theorem shown_refreshing (hnow : Fits o now)
    (he : e.obj = some o ∨ inv.entry o = now.map (Thing.view o.id)) :
    Shown o inv now (.refreshing e (refresh e) []) := by
  simp only [Shown]
  split
  · rename_i heq
    exact refresh_sound hnow heq
  · rename_i hne
    exact he.resolve_left hne

-- The step lemma, one lemma for each group of actions.
theorem Covered.disconnect (h : Covered s) (error : String) :
    Covered (s.disconnect error) :=
  ⟨h.fits, fun _ => .inr trivial⟩

theorem Covered.change {t : Option Thing} (h : Covered s) (hfits : Fits o t) :
    Covered { s with world := setThing s.world o t, owed := s.owed ++ [o] } := by
  refine ⟨h.fits, ?_⟩
  intro o'
  by_cases ho : o = o'
  · subst ho
    exact .inl (.inl (List.mem_append_right _ List.mem_cons_self))
  · simp only [thing_setThing hfits, if_neg ho]
    apply (h.covered o').imp _ id
    exact fun hp => hp.mono (List.mem_append_left _) id (fun _ hc _ _ _ => hc) rfl id

theorem Covered.sendHub (h : Covered s) (e : Event) : Covered (s.sendHub e) := by
  refine ⟨?_, ?_⟩
  · rw [State.sendHub_eq]
    exact h.fits
  · intro o
    rcases h.covered o with hp | hshown
    · exact .inl hp.sendHub
    · right
      rw [State.sendHub_eq]
      exact hshown

-- Right after the send of an event the object of it is covered.
theorem covered_sendHub (s : State) (he : e.obj = some o) :
    (s.sendHub e).rx.Due (fun e => e.obj = some o) ∨
      Shown o (s.sendHub e).inventory (thing (s.sendHub e).world o) (s.sendHub e).pc := by
  unfold State.sendHub
  split
  · exact .inl (Receiver.Due.send_self he)
  · rename_i hsub
    exact .inr (shown_of_not_subscribed (by simpa using hsub))

theorem Covered.call (h : Covered s) (hs : step s .call = some t) : Covered t := by
  cases hlost : s.lost with
  | true =>
      simp only [step] at hs
      split at hs <;> cases hs
      · exact ⟨h.fits, fun _ => .inl (.inr (.inr (.inr hlost)))⟩
      · exact ⟨h.fits, fun _ => .inl (.inr (.inr (.inr hlost)))⟩
  | false =>
      simp only [step] at hs
      split at hs
      · rename_i first q k asked hpc
        cases hs
        refine ⟨h.fits, fun o => (h.covered o).imp id ?_⟩
        intro hshown
        rw [hpc] at hshown
        exact hshown _ (State.reply_tells hlost o q)
      · rename_i e q k asked hpc
        cases hs
        refine ⟨h.fits, fun o => (h.covered o).imp id ?_⟩
        intro hshown
        rw [hpc] at hshown
        simp only [Shown] at hshown ⊢
        split
        · rename_i he
          rw [if_pos he] at hshown
          exact hshown _ (State.reply_tells hlost o q)
        · rename_i he
          rw [if_neg he] at hshown
          exact hshown
      · cases hs

theorem Covered.finish (h : Covered s) (haimed : Aimed s.pc)
    (hs : step s .finish = some t) : Covered t := by
  simp only [step] at hs
  split at hs
  · rename_i first inv asked hpc
    cases hs
    refine ⟨h.fits, ?_⟩
    intro o
    apply (h.covered o).imp id
    intro hshown
    rw [hpc] at hshown
    exact hshown
  · rename_i e f asked hpc
    cases hs
    refine ⟨h.fits, ?_⟩
    intro o
    apply (h.covered o).imp id
    intro hshown
    have hobj : some f.obj = e.obj := by
      rw [hpc] at haimed
      exact haimed f rfl
    rw [hpc] at hshown
    simp only [Shown, ← hobj, Option.some.injEq] at hshown ⊢
    rw [Inventory.entry_apply]
    split
    · rename_i ho
      rw [if_pos ho] at hshown
      obtain ⟨f', hf', hentry⟩ := hshown
      cases hf'
      exact hentry
    · rename_i ho
      rw [if_neg ho] at hshown
      exact hshown
  · rename_i e asked hpc
    cases hs
    refine ⟨h.fits, ?_⟩
    intro o
    apply (h.covered o).imp id
    intro hshown
    rw [hpc] at hshown
    simp only [Shown] at hshown ⊢
    split at hshown
    · obtain ⟨f, hf, -⟩ := hshown
      cases hf
    · exact hshown
  · cases hs
    exact h.disconnect _
  · cases hs
    exact h.disconnect _
  · cases hs

theorem Covered.recv (h : Covered s) (hs : step s .recv = some t) : Covered t := by
  simp only [step] at hs
  split at hs
  · cases hs
    exact h.disconnect _
  · rename_i e rx hne hpc hrecv
    cases hs
    refine ⟨h.fits, ?_⟩
    intro o
    rcases h.covered o with (howed | hdue | hcall | hlost) | hshown
    · exact .inl (.inl howed)
    · rcases hdue.recv_ok hrecv with he | hdue
      · exact .inr (shown_refreshing (fits_thing _ _) (.inl he))
      · exact .inl (.inr (.inl hdue))
    · exact .inl (.inr (.inr (.inl hcall)))
    · exact .inl (.inr (.inr (.inr hlost)))
    · rw [hpc] at hshown
      exact .inr (shown_refreshing (fits_thing _ _) (.inr hshown))
  · cases hs
    exact ⟨h.fits, fun o => .inr (shown_loading false (fits_thing _ _))⟩
  · cases hs

-- A new connection and a new hub: nothing is shown before the load.
theorem Covered.open (h : Covered s) (hs : step s .open = some t) : Covered t := by
  simp only [step] at hs
  split at hs
  · cases hs
    exact ⟨h.fits, fun o => .inr trivial⟩
  · cases hs

theorem Covered.subscribe (h : Covered s) (hs : step s .subscribe = some t) :
    Covered t := by
  simp only [step] at hs
  split at hs
  · cases hs
    exact ⟨h.fits, fun o => .inr (shown_loading true (fits_thing _ _))⟩
  · cases hs

theorem Covered.deliver (h : Covered s) {settles : Bool}
    (hs : step s (.deliver e settles) = some t) : Covered t := by
  simp only [step] at hs
  split at hs
  · cases hs
  · rename_i o ho
    cases hs
    refine ⟨(h.sendHub e).fits, ?_⟩
    intro o'
    by_cases hsame : o' = o
    · subst hsame
      rcases covered_sendHub s ho with hdue | hshown
      · exact .inl (.inr (.inl hdue))
      · exact .inr hshown
    · apply ((h.sendHub e).covered o').imp _ id
      intro hp
      refine hp.mono ?_ id (fun _ hc _ _ _ => hc) rfl id
      intro howed
      rw [State.sendHub_eq] at howed
      split
      · exact List.mem_filter.mpr ⟨howed, by simpa using hsame⟩
      · exact howed

theorem Covered.take (h : Covered s) {change : Change}
    (hs : step s (.take o change) = some t) : Covered t := by
  simp only [step] at hs
  split at hs
  · rename_i hfits
    obtain ⟨gen, -, rfl⟩ := Option.map_eq_some_iff.mp hs
    refine ⟨?_, ?_⟩
    · intro c hc
      rcases List.mem_append.mp hc with hc | hc
      · exact h.fits c hc
      · rw [List.mem_singleton.mp hc]
        exact hfits
    · intro o'
      apply (h.covered o').imp _ id
      exact fun hp => hp.mono id id (fun _ hc _ _ _ => List.mem_append_left _ hc) rfl id
  · cases hs

theorem Covered.set_call (h : Covered s) {i : Nat} {c : OwnCall} {progress : Progress}
    (hi : s.calls[i]? = some c) :
    ∀ c' ∈ s.calls.set i { c with progress }, c'.change.fits c'.obj = true := by
  intro c' hc'
  rcases List.mem_or_eq_of_mem_set hc' with hc' | rfl
  · exact h.fits c' hc'
  · exact h.fits c (List.mem_of_getElem? hi)

theorem Covered.act (h : Covered s) {i : Nat} (hannounced : Announced s (.act i))
    (hs : step s (.act i) = some t) : Covered t := by
  simp only [step] at hs
  split at hs
  · rename_i gen o change hi
    obtain ⟨x, hx, rfl⟩ := Option.map_eq_some_iff.mp hs
    have hfits : Fits o (some (change.apply x)) := by
      rintro _ ⟨⟩
      exact (change.kind_apply x).trans (fits_thing s.world o x hx)
    refine ⟨h.set_call hi, ?_⟩
    intro o'
    by_cases hne : o = o'
    · subst hne
      have hlt : i < s.calls.length := (List.getElem?_eq_some_iff.mp hi).1
      have hgen : gen = s.gen := hannounced _ hi
      exact .inl (.inr (.inr (.inl ⟨_, List.mem_set hlt _, hgen, rfl, rfl⟩)))
    · simp only [thing_setThing hfits, if_neg hne]
      apply (h.covered o').imp _ id
      intro hp
      refine hp.mono id id ?_ rfl id
      intro c hc _ _ hchanged
      apply mem_set_of_ne hi hc
      rintro rfl
      cases hchanged
  · cases hs

theorem Covered.send (h : Covered s) {i : Nat} (hs : step s (.send i) = some t) :
    Covered t := by
  simp only [step] at hs
  split at hs
  · rename_i gen o change hi
    cases hs
    by_cases hgen : gen = s.gen
    · simp only [if_pos hgen]
      refine ⟨h.set_call hi, ?_⟩
      intro o'
      by_cases hne : o = o'
      · subst hne
        have hobj := Change.event_obj (h.fits _ (List.mem_of_getElem? hi))
        rcases covered_sendHub s hobj with hdue | hshown
        · exact .inl (.inr (.inl hdue))
        · exact .inr hshown
      · apply ((h.sendHub (change.event o)).covered o').imp _ id
        intro hp
        refine hp.mono id id ?_ rfl id
        intro c hc _ ho _
        rw [State.sendHub_eq] at hc
        apply mem_set_of_ne hi hc
        rintro rfl
        exact hne ho
    · simp only [if_neg hgen]
      refine ⟨h.set_call hi, ?_⟩
      intro o'
      apply (h.covered o').imp _ id
      intro hp
      refine hp.mono id id ?_ rfl id
      intro c hc hg _ _
      apply mem_set_of_ne hi hc
      rintro rfl
      exact hgen hg
  · cases hs

theorem Covered.giveUp (h : Covered s) {i : Nat} (hs : step s (.giveUp i) = some t) :
    Covered t := by
  simp only [step] at hs
  split at hs
  · rename_i gen o change hi
    cases hs
    refine ⟨h.set_call hi, ?_⟩
    intro o'
    apply (h.covered o').imp _ id
    intro hp
    refine hp.mono id id ?_ rfl id
    intro c hc _ _ hchanged
    apply mem_set_of_ne hi hc
    rintro rfl
    cases hchanged
  · cases hs

theorem Covered.step (h : Covered s) (haimed : Aimed s.pc) (hannounced : Announced s a)
    (hs : step s a = some t) : Covered t := by
  cases a with
  | change o x =>
      simp only [Supervisor.step] at hs
      split at hs
      · rename_i hfits
        cases hs
        exact h.change hfits
      · cases hs
  | deliver e settles => exact h.deliver hs
  | lose =>
      simp only [Supervisor.step] at hs
      split at hs
      · cases hs
      · cases hs
        refine ⟨h.fits, fun o => (h.covered o).imp ?_ id⟩
        exact fun hp => hp.mono id id (fun _ hc _ _ _ => hc) rfl fun _ => rfl
  | deliverClosed reason =>
      simp only [Supervisor.step] at hs
      split at hs
      · cases hs
        exact ⟨(h.sendHub _).fits, (h.sendHub _).covered⟩
      · cases hs
  | «open» => exact h.open hs
  | subscribe => exact h.subscribe hs
  | call => exact h.call hs
  | finish => exact h.finish haimed hs
  | fail error =>
      simp only [Supervisor.step] at hs
      split at hs <;> cases hs <;> exact h.disconnect _
  | bump =>
      simp only [Supervisor.step] at hs
      split at hs
      · rename_i first hpc
        cases hs
        refine ⟨h.fits, fun o => (h.covered o).imp id ?_⟩
        intro hshown
        rw [hpc] at hshown
        cases first <;> exact hshown
      · cases hs
  | publish =>
      simp only [Supervisor.step] at hs
      split at hs
      · rename_i hpc
        cases hs
        refine ⟨h.fits, fun o => (h.covered o).imp id ?_⟩
        intro hshown
        rw [hpc] at hshown
        exact hshown
      · cases hs
  | connect =>
      simp only [Supervisor.step] at hs
      split at hs
      · rename_i hpc
        cases hs
        refine ⟨h.fits, fun o => (h.covered o).imp id ?_⟩
        intro hshown
        rw [hpc] at hshown
        exact hshown
      · cases hs
  | recv => exact h.recv hs
  | forward =>
      simp only [Supervisor.step] at hs
      split at hs
      · rename_i hpc
        cases hs
        refine ⟨h.fits, fun o => (h.covered o).imp id ?_⟩
        intro hshown
        rw [hpc] at hshown
        exact hshown
      · cases hs
  | retry =>
      simp only [Supervisor.step] at hs
      split at hs
      · cases hs
        exact ⟨h.fits, fun o => .inr trivial⟩
      · cases hs
  | take o change => exact h.take hs
  | act i => exact h.act hannounced hs
  | send i => exact h.send hs
  | giveUp i => exact h.giveUp hs

-- The run lemma.
theorem covered_run {w : World} {acts : List Action}
    (hannounced : Along step Announced { world := w } acts)
    (hrun : exec step { world := w } acts = some s) : Covered s := by
  have hstart : Covered { world := w } := ⟨by simp, fun _ => .inr trivial⟩
  exact (exec_invariant (fun s => Covered s ∧ Aimed s.pc)
    (fun _ _ _ h hok hs => ⟨h.1.step h.2 hok hs, h.2.step hs⟩) ⟨hstart, trivial⟩ hannounced hrun).1

end Invariant

end Lodger.Supervisor
