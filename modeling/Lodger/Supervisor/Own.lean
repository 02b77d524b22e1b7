import Lodger.Cache.Fresh
import Lodger.Supervisor.Session

namespace Lodger.Supervisor

open Lodger.Lib Lodger.Libvirt Lodger.Cache

-- The part of an entry that an own change is about.
def Change.aspect : Change → Aspect
  | .autostart _ => .autostart
  | .volumes _ => .sizes

theorem Change.aspect_fits {change : Change} {o : Obj} (h : change.fits o = true) :
    change.aspect = .sizes → o.kind = .pool := by
  cases change with
  | autostart on => rintro ⟨⟩
  | volumes scan => exact fun _ => by simpa [fits] using h

variable {s t : State} {a : Action} {o : Obj} {α : Type}

-- What one step can do to the own calls.
theorem step_calls [Libvirtd] [Xml.Xmltree] (hs : step s a = some t) :
    t.calls = s.calls ∨
    (∃ c, c.change.fits c.obj = true ∧ t.calls = s.calls ++ [c]) ∨
    ∃ i c progress, s.calls[i]? = some c ∧ t.calls = s.calls.set i { c with progress } := by
  cases a with
  | take o change =>
      simp only [step] at hs
      split at hs
      · rename_i hfits
        obtain ⟨gen, -, rfl⟩ := Option.map_eq_some_iff.mp hs
        exact .inr (.inl ⟨_, hfits, rfl⟩)
      · cases hs
  | act i =>
      simp only [step] at hs
      split at hs
      · rename_i gen o change hi
        obtain ⟨x, -, rfl⟩ := Option.map_eq_some_iff.mp hs
        exact .inr (.inr ⟨i, _, .changed, hi, rfl⟩)
      · cases hs
  | send i =>
      simp only [step] at hs
      split at hs
      · rename_i gen o change hi
        cases hs
        refine .inr (.inr ⟨i, _, .finished, hi, ?_⟩)
        split
        · rw [State.sendHub_eq]
        · rfl
      · cases hs
  | giveUp i =>
      simp only [step] at hs
      split at hs
      · rename_i gen o change hi
        cases hs
        exact .inr (.inr ⟨i, _, .failed, hi, rfl⟩)
      · cases hs
  | deliver | deliverClosed =>
      simp only [step] at hs
      split at hs <;> cases hs
      left
      rw [State.sendHub_eq]
  | _ =>
      left
      simp only [step] at hs
      split at hs <;> cases hs <;> rfl

theorem step_calls_fit [Libvirtd] [Xml.Xmltree] (h : ∀ c ∈ s.calls, c.change.fits c.obj = true)
    (hs : step s a = some t) : ∀ c ∈ t.calls, c.change.fits c.obj = true := by
  rcases step_calls hs with hc | ⟨c, hfits, hc⟩ | ⟨i, c, progress, hi, hc⟩ <;> rw [hc]
  · exact h
  · intro c' hc'
    rcases List.mem_append.mp hc' with hc' | hc'
    · exact h c' hc'
    · rw [List.mem_singleton.mp hc']
      exact hfits
  · intro c' hc'
    rcases List.mem_or_eq_of_mem_set hc' with hc' | rfl
    · exact h c' hc'
    · exact h c (List.mem_of_getElem? hi)

-- What the supervisor will receive makes it read the object again, or ends the
-- session.
def ReadDue (s : State) (o : Obj) : Prop :=
  s.rx.Due fun e => e.obj = some o ∨ isClosed e = true

theorem ReadDue.sendHub (h : ReadDue s o) (e : Event) : ReadDue (s.sendHub e) o := by
  unfold State.sendHub
  split
  · exact Receiver.Due.send h
  · exact h

-- The rest of a read gives what the whole read gives for the replies so far.
def Follows (start p : Read α) (asked : List Asked) : Prop :=
  ∀ (may : (q : Query) → Except Error q.Result → Prop) (post : Except Error α → Prop),
    start.Holds may post → (∀ x ∈ asked, may x.1 x.2) → p.Holds may post

theorem Follows.call {start : Read α} {q : Query} {k : Except Error q.Result → Read α}
    {asked : List Asked} (h : Follows start (.call q k) asked) (r : Except Error q.Result) :
    Follows start (k r) (⟨q, r⟩ :: asked) := by
  intro may post hstart hasked
  exact h may post hstart (fun x hx => hasked x (List.mem_cons_of_mem _ hx)) r
    (hasked ⟨q, r⟩ List.mem_cons_self)

section Moments

variable [Libvirtd] [Xml.Xmltree]

-- An own call through an older `Virt` changes its object before the supervisor
-- reads it: no reply to the read in progress has told the part that it changes.
def StillRead (s : State) (c : OwnCall) : Prop :=
  match s.pc with
  | .waiting | .opening | .opened => True
  | .loading _ _ asked => ∀ x ∈ asked, LeavesOpen c.change.aspect c.obj x.1 x.2
  | .refreshing e _ asked =>
      e.obj = some c.obj ∧ ∀ x ∈ asked, LeavesOpen c.change.aspect c.obj x.1 x.2
  | _ => False

def InTime (s : State) : Action → Prop
  | .act i => ∀ c ∈ s.calls[i]?, c.gen = s.gen ∨ ReadDue s c.obj ∨ StillRead s c
  | _ => True

-- What the object was in libvirt from a state on.
def Since (s : State) (o : Obj) (acts : List Action) : Set (Option Thing) :=
  { y | ∃ mid rest t, acts = mid ++ rest ∧ exec step s mid = some t ∧ thing t.world o = y }

theorem since_subset (s : State) (o : Obj) (acts rest : List Action) :
    Since s o acts ⊆ Since s o (acts ++ rest) := by
  rintro y ⟨mid, rest', t, hacts, ht, hy⟩
  exact ⟨mid, rest' ++ rest, t, by rw [hacts, List.append_assoc], ht, hy⟩

theorem now_mem_since {acts : List Action} (h : exec step s acts = some t) :
    thing t.world o ∈ Since s o acts :=
  ⟨acts, [], t, by simp, h, rfl⟩

theorem fits_since {acts : List Action} : ∀ y ∈ Since s o acts, Fits o y := by
  rintro y ⟨-, -, t, -, -, rfl⟩
  exact fits_thing t.world o

def Traced : Pc → Prop
  | .loading _ p asked => Follows load p asked
  | .refreshing e p asked => Follows (refresh e) p asked
  | _ => True

theorem Traced.step (h : Traced s.pc) (hs : step s a = some t) : Traced t.pc := by
  refine step_pc ?_ (fun _ _ _ h _ => h) (fun _ _ _ h _ => h) (fun _ _ _ _ r h => h.call r)
    (fun _ _ _ _ r h => h.call r) h hs
  intro pc hpc
  cases pc <;> trivial

-- The inventory shows this part of the object as one of the values has it, or
-- will when the read in progress ends.
def Current (aspect : Aspect) (o : Obj) (values : Set (Option Thing)) (inv : Inventory) :
    Pc → Prop
  | .waiting | .opening | .opened => True
  | .loading _ p _ => ∀ later, values ⊆ later → (∀ y ∈ later, Fits o y) →
      p.Returns (Answers aspect o later) fun inv => FreshIn aspect o.id later (inv.entry o)
  | .refreshing e p _ =>
      if e.obj = some o then ∀ later, values ⊆ later → (∀ y ∈ later, Fits o y) →
        p.Returns (Answers aspect o later) fun r =>
          ∃ f, r = some f ∧ FreshIn aspect o.id later f.entry
      else FreshIn aspect o.id values (inv.entry o)
  | .loaded _ | .counted | .published | .idle | .forwarding _ =>
      FreshIn aspect o.id values (inv.entry o)

variable {aspect : Aspect} {values values' : Set (Option Thing)} {inv : Inventory}
  {pc : Pc} {c : OwnCall} {i : Nat} {e : Event}

theorem Current.mono (h : Current aspect o values inv pc) (hsub : values ⊆ values') :
    Current aspect o values' inv pc := by
  cases pc with
  | waiting | opening | opened => trivial
  | loading first p asked => exact fun later hlater => h later (hsub.trans hlater)
  | refreshing e p asked =>
      simp only [Current] at h ⊢
      split
      · rename_i he
        rw [if_pos he] at h
        exact fun later hlater => h later (hsub.trans hlater)
      · rename_i he
        rw [if_neg he] at h
        exact h.mono hsub
  | loaded first | counted | published | idle | forwarding e => exact FreshIn.mono h hsub

theorem current_of_not_subscribed (h : pc.subscribed = false) :
    Current aspect o values inv pc := by
  cases pc <;> trivial

theorem current_loading (first : Bool) (haspect : aspect = .sizes → o.kind = .pool) :
    Current aspect o values inv (.loading first load []) :=
  fun _ _ hfits => load_fresh haspect hfits

theorem current_refreshing (haspect : aspect = .sizes → o.kind = .pool)
    (h : e.obj = some o ∨ FreshIn aspect o.id values (inv.entry o)) :
    Current aspect o values inv (.refreshing e (refresh e) []) := by
  simp only [Current]
  split
  · rename_i he
    exact fun _ _ hfits => refresh_fresh haspect hfits he
  · rename_i hne
    exact h.resolve_left hne

-- The call has made its change, and since then libvirt had the object as
-- `values`: the inventory shows the change, or what is still to come will.
structure Fresh (c : OwnCall) (i : Nat) (values : Set (Option Thing)) (s : State) : Prop where
  fits : c.change.fits c.obj = true
  made : ∃ progress, progress ≠ .taken ∧ s.calls[i]? = some { c with progress }
  fitting : ∀ y ∈ values, Fits c.obj y
  now : thing s.world c.obj ∈ values
  cover : (c.gen = s.gen ∧ s.calls[i]? = some { c with progress := .changed }) ∨
    ReadDue s c.obj ∨ Current c.change.aspect c.obj values s.inventory s.pc

theorem Fresh.grow (h : Fresh c i values s) (hsub : values ⊆ values')
    (hvalues : ∀ y ∈ values', Fits c.obj y) : Fresh c i values' s :=
  ⟨h.fits, h.made, hvalues, hsub h.now, h.cover.imp_right (·.imp_right (·.mono hsub))⟩

-- A step that keeps the call and the connection, and leaves the change on its way.
theorem Fresh.of (h : Fresh c i values s) (hcall : t.calls[i]? = s.calls[i]?)
    (hgen : t.gen = s.gen) (hnow : thing t.world c.obj ∈ values)
    (hdue : ReadDue s c.obj →
      ReadDue t c.obj ∨ Current c.change.aspect c.obj values t.inventory t.pc)
    (hcurrent : Current c.change.aspect c.obj values s.inventory s.pc →
      Current c.change.aspect c.obj values t.inventory t.pc) : Fresh c i values t := by
  refine ⟨h.fits, ?_, h.fitting, hnow, ?_⟩
  · rw [hcall]
    exact h.made
  · rcases h.cover with hunsent | h | h
    · rw [hcall, hgen]
      exact .inl hunsent
    · exact .inr (hdue h)
    · exact .inr (.inr (hcurrent h))

-- The step lemma, one lemma for each group of actions.
theorem Fresh.disconnect (h : Fresh c i values s) (error : String) :
    Fresh c i values (s.disconnect error) :=
  h.of rfl rfl h.now (fun _ => .inr trivial) fun _ => trivial

theorem Fresh.sendHub (h : Fresh c i values s) (e : Event) : Fresh c i values (s.sendHub e) := by
  apply h.of <;> rw [State.sendHub_eq]
  · exact h.now
  · exact fun hdue => .inl (hdue.sendHub e)
  · exact id

theorem Fresh.call (h : Fresh c i values s) (hs : step s .call = some t) :
    Fresh c i values t := by
  have hanswers (later : Set (Option Thing)) (hsub : values ⊆ later) (q : Query) :
      Answers c.change.aspect c.obj later q (s.reply q) := by
    cases hlost : s.lost with
    | true =>
        refine .inr (.inr ⟨lostError, ?_, rfl⟩)
        rw [State.reply, if_pos hlost]
    | false => exact .inl ⟨_, hsub h.now, State.reply_tells hlost c.obj q⟩
  simp only [step] at hs
  split at hs
  · rename_i first q k asked hpc
    cases hs
    refine h.of rfl rfl h.now .inl ?_
    rw [hpc]
    exact fun hcurrent later hsub hfits => hcurrent later hsub hfits _ (hanswers later hsub q)
  · rename_i e q k asked hpc
    cases hs
    refine h.of rfl rfl h.now .inl ?_
    rw [hpc]
    simp only [Current]
    split
    · exact fun hcurrent later hsub hfits => hcurrent later hsub hfits _ (hanswers later hsub q)
    · exact id
  · cases hs

theorem Fresh.finish (h : Fresh c i values s) (haimed : Aimed s.pc)
    (hs : step s .finish = some t) : Fresh c i values t := by
  simp only [step] at hs
  split at hs
  · rename_i first inv asked hpc
    cases hs
    refine h.of rfl rfl h.now .inl ?_
    rw [hpc]
    exact fun hcurrent => hcurrent values subset_rfl h.fitting
  · rename_i e f asked hpc
    cases hs
    refine h.of rfl rfl h.now .inl ?_
    have hobj : some f.obj = e.obj := by
      rw [hpc] at haimed
      exact haimed f rfl
    rw [hpc]
    simp only [Current, ← hobj, Option.some.injEq]
    rw [Inventory.entry_apply]
    split
    · intro hcurrent
      obtain ⟨f', hf', hfresh⟩ := hcurrent values subset_rfl h.fitting
      cases hf'
      exact hfresh
    · exact id
  · rename_i e asked hpc
    cases hs
    refine h.of rfl rfl h.now .inl ?_
    rw [hpc]
    simp only [Current]
    split
    · intro hcurrent
      obtain ⟨f, hf, -⟩ := hcurrent values subset_rfl h.fitting
      cases hf
    · exact id
  · cases hs
    exact h.disconnect _
  · cases hs
    exact h.disconnect _
  · cases hs

theorem Fresh.recv (h : Fresh c i values s) (hs : step s .recv = some t) :
    Fresh c i values t := by
  have haspect := Change.aspect_fits h.fits
  simp only [step] at hs
  split at hs
  · cases hs
    exact h.disconnect _
  · rename_i e rx hne hpc hrecv
    cases hs
    refine h.of rfl rfl h.now ?_ ?_
    · intro hdue
      rcases hdue.recv_ok hrecv with (he | hclosed) | hdue
      · exact .inr (current_refreshing haspect (.inl he))
      · -- The event is not a close event: those end the session.
        cases e with
        | closed reason => exact (hne reason rfl).elim
        | _ => cases hclosed
      · exact .inl hdue
    · rw [hpc]
      exact fun hcurrent => current_refreshing haspect (.inr hcurrent)
  · cases hs
    exact h.of rfl rfl h.now (fun _ => .inr (current_loading false haspect))
      fun _ => current_loading false haspect
  · cases hs

theorem Fresh.set_other (h : Fresh c i values s) {j : Nat} (hne : j ≠ i) (c' : OwnCall) :
    Fresh c i values { s with calls := s.calls.set j c' } :=
  h.of (List.getElem?_set_ne hne) rfl h.now .inl id

-- The event of the call itself: its hub is the one that the supervisor listens
-- to, or it is not, and then the change was made in time without it.
theorem Fresh.send_self (h : Fresh c i values s)
    (hi : s.calls[i]? = some { c with progress := .changed }) :
    Fresh c i values { (if c.gen = s.gen then s.sendHub (c.change.event c.obj) else s) with
      calls := s.calls.set i { c with progress := .finished } } := by
  have hlt : i < s.calls.length := (List.getElem?_eq_some_iff.mp hi).1
  have hmade : ∃ progress, progress ≠ Progress.taken ∧
      (s.calls.set i { c with progress := .finished })[i]? = some { c with progress } :=
    ⟨.finished, by simp, by rw [List.getElem?_set_self hlt]⟩
  by_cases hgen : c.gen = s.gen
  · rw [if_pos hgen, State.sendHub_eq]
    refine ⟨h.fits, hmade, h.fitting, h.now, .inr ?_⟩
    by_cases hsub : s.pc.subscribed = true
    · left
      simp only [ReadDue, State.sendHub, if_pos hsub]
      exact Receiver.Due.send_self (.inl (Change.event_obj h.fits))
    · exact .inr (current_of_not_subscribed (by simpa using hsub))
  · rw [if_neg hgen]
    refine ⟨h.fits, hmade, h.fitting, h.now, .inr ?_⟩
    rcases h.cover with ⟨hsame, -⟩ | hcover
    · exact absurd hsame hgen
    · exact hcover

theorem Fresh.send (h : Fresh c i values s) {j : Nat} (hs : step s (.send j) = some t) :
    Fresh c i values t := by
  simp only [step] at hs
  split at hs
  · rename_i gen o change hj
    cases hs
    by_cases hji : j = i
    · subst hji
      obtain ⟨progress, -, hmade⟩ := h.made
      rw [hj] at hmade
      cases hmade
      exact h.send_self hj
    · have hcalls : (if gen = s.gen then s.sendHub (change.event o) else s).calls = s.calls := by
        split
        · rw [State.sendHub_eq]
        · rfl
      rw [← hcalls]
      apply Fresh.set_other _ hji
      split
      · exact h.sendHub _
      · exact h
  · cases hs

-- The steps that change a call before it made its change.
theorem Fresh.set_taken (h : Fresh c i values s) {j gen : Nat} {change : Change}
    (hj : s.calls[j]? = some ⟨gen, o, change, .taken⟩) (c' : OwnCall) :
    Fresh c i values { s with calls := s.calls.set j c' } := by
  apply h.set_other
  rintro rfl
  obtain ⟨progress, hne, hmade⟩ := h.made
  rw [hj] at hmade
  exact hne (congrArg OwnCall.progress (Option.some.inj hmade)).symm

theorem Fresh.step (h : Fresh c i values s) (haimed : Aimed s.pc) (hs : step s a = some t)
    (hnow : thing t.world c.obj ∈ values) : Fresh c i values t := by
  cases a with
  | change o x =>
      simp only [Supervisor.step] at hs
      split at hs <;> cases hs
      exact h.of rfl rfl hnow .inl id
  | deliver e settles =>
      simp only [Supervisor.step] at hs
      split at hs <;> cases hs
      exact (h.sendHub e).of rfl rfl hnow .inl id
  | lose =>
      simp only [Supervisor.step] at hs
      split at hs <;> cases hs
      exact h.of rfl rfl hnow .inl id
  | deliverClosed reason =>
      simp only [Supervisor.step] at hs
      split at hs <;> cases hs
      exact (h.sendHub _).of rfl rfl hnow .inl id
  | «open» =>
      simp only [Supervisor.step] at hs
      split at hs <;> cases hs
      exact ⟨h.fits, h.made, h.fitting, hnow, .inr (.inr trivial)⟩
  | subscribe =>
      simp only [Supervisor.step] at hs
      split at hs <;> cases hs
      have hloading : Current c.change.aspect c.obj values s.inventory (.loading true load []) :=
        current_loading true (Change.aspect_fits h.fits)
      exact h.of rfl rfl hnow (fun _ => .inr hloading) fun _ => hloading
  | call => exact h.call hs
  | finish => exact h.finish haimed hs
  | recv => exact h.recv hs
  | send j => exact h.send hs
  | fail error =>
      simp only [Supervisor.step] at hs
      split at hs <;> cases hs <;> exact h.disconnect _
  | bump =>
      simp only [Supervisor.step] at hs
      split at hs
      · rename_i first hpc
        cases hs
        refine h.of rfl rfl hnow .inl ?_
        rw [hpc]
        cases first <;> exact id
      · cases hs
  | publish | connect | forward =>
      simp only [Supervisor.step] at hs
      split at hs
      · rename_i hpc
        cases hs
        refine h.of rfl rfl hnow .inl ?_
        rw [hpc]
        exact id
      · cases hs
  | retry =>
      simp only [Supervisor.step] at hs
      split at hs <;> cases hs
      exact h.of rfl rfl hnow .inl fun _ => trivial
  | take o change =>
      simp only [Supervisor.step] at hs
      split at hs
      · obtain ⟨gen, -, rfl⟩ := Option.map_eq_some_iff.mp hs
        obtain ⟨progress, -, hmade⟩ := h.made
        have hlt : i < s.calls.length := (List.getElem?_eq_some_iff.mp hmade).1
        exact h.of (List.getElem?_append_left hlt) rfl hnow .inl id
      · cases hs
  | act j =>
      simp only [Supervisor.step] at hs
      split at hs
      · rename_i gen o change hj
        obtain ⟨x, -, rfl⟩ := Option.map_eq_some_iff.mp hs
        exact (h.set_taken hj _).of rfl rfl hnow .inl id
      · cases hs
  | giveUp j =>
      simp only [Supervisor.step] at hs
      split at hs
      · rename_i gen o change hj
        cases hs
        exact h.set_taken hj _
      · cases hs

-- Right after its change in time a call is on its way to the inventory.
theorem fresh_act (hfits : c.change.fits c.obj = true) (htraced : Traced s.pc)
    (hi : s.calls[i]? = some { c with progress := .taken }) (htime : InTime s (.act i))
    (hs : Supervisor.step s (.act i) = some t) : Fresh c i {thing t.world c.obj} t := by
  have hvalues : ∀ y ∈ ({thing t.world c.obj} : Set (Option Thing)), Fits c.obj y := by
    rintro y rfl
    exact fits_thing t.world c.obj
  have hlt : i < s.calls.length := (List.getElem?_eq_some_iff.mp hi).1
  have haspect := Change.aspect_fits hfits
  simp only [Supervisor.step, hi] at hs
  obtain ⟨x, -, rfl⟩ := Option.map_eq_some_iff.mp hs
  have hset : (s.calls.set i { c with progress := .changed })[i]? =
      some { c with progress := .changed } := by
    rw [List.getElem?_set_self hlt]
  refine ⟨hfits, ⟨.changed, by simp, hset⟩, hvalues, rfl, ?_⟩
  rcases htime _ hi with hgen | hdue | hread
  · exact .inl ⟨hgen, hset⟩
  · exact .inr (.inl hdue)
  · right
    right
    unfold StillRead at hread
    simp only
    split at hread
    · rename_i hpc
      rw [hpc]
      trivial
    · rename_i hpc
      rw [hpc]
      trivial
    · rename_i hpc
      rw [hpc]
      trivial
    · rename_i first p asked hpc
      rw [hpc] at htraced ⊢
      exact fun later _ hfits => htraced _ _ (load_fresh haspect hfits)
        fun x hx => .inr (hread x hx)
    · rename_i e p asked hpc
      rw [hpc] at htraced ⊢
      simp only [Current, if_pos hread.1]
      exact fun later _ hfits => htraced _ _ (refresh_fresh haspect hfits hread.1)
        fun x hx => .inr (hread.2 x hx)
    · cases hread

-- The run lemma, for the steps after the change.
theorem fresh_run {s₀ : State} {acts : List Action} (h : Fresh c i {thing s₀.world c.obj} s₀)
    (haimed : Aimed s₀.pc) (hrun : exec Supervisor.step s₀ acts = some s) :
    Fresh c i (Since s₀ c.obj acts) s ∧ Aimed s.pc := by
  induction acts using List.reverseRecOn generalizing s with
  | nil =>
      cases hrun
      refine ⟨h.grow ?_ fits_since, haimed⟩
      rintro y rfl
      have hnone : exec Supervisor.step s₀ [] = some s₀ := rfl
      exact now_mem_since hnone
  | append_singleton acts a ih =>
      obtain ⟨u, hu, hs⟩ := exec_concat.mp hrun
      obtain ⟨hfresh, haimed⟩ := ih hu
      have hgrown := hfresh.grow (since_subset s₀ c.obj acts [a]) fits_since
      exact ⟨hgrown.step haimed hs (now_mem_since hrun), haimed.step hs⟩

end Moments

end Lodger.Supervisor
