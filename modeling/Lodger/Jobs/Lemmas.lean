import Lodger.Lib.Except
import Lodger.Jobs
import Lodger.Cache.Lemmas

namespace Lodger.Jobs

open Lodger.Lib Lodger.Libvirt Lodger.Cache

section Objects

variable {w w' : World} {o o' : Obj}

theorem mem_objsOf : o ∈ objsOf w ↔ (thing w o).isSome := by
  obtain ⟨kind, id⟩ := o
  cases kind <;> simp [objsOf, thing, AList.mem_keys, AList.lookup_isSome]

variable [Xml.Xmltree]

theorem view_setThing {t : Option Thing} (hfits : Fits o t) (hne : o ≠ o') :
    view (setThing w o t) o' = view w o' := by
  rw [view, thing_setThing hfits, if_neg hne]
  rfl

theorem mem_touched : o ∈ touched w w' ↔ view w o ≠ view w' o := by
  simp only [touched, List.mem_filter, List.mem_append, mem_objsOf, decide_eq_true_eq]
  refine ⟨fun h => h.2, fun h => ⟨?_, h⟩⟩
  by_contra hnone
  simp only [not_or, Option.not_isSome_iff_eq_none] at hnone
  simp [view, hnone] at h

variable {s : Env} {events : List Event}

theorem mem_unannounced_after : o ∈ (s.after w events).unannounced ↔
    (o ∈ s.unannounced ∨ view s.world o ≠ view w o) ∧ some o ∉ events.map Event.obj := by
  simp only [Env.after, List.mem_filter, List.mem_append, mem_touched, decide_eq_true_eq]

end Objects

-- Two pools never share a name.
section Names

def NamesUnique (w : World) : Prop :=
  ∀ id id' p p', w.pools.lookup id = some p → w.pools.lookup id' = some p' → p.name = p'.name →
    id = id'

variable {w : World} {id : Uuid} {p p' : StoragePool}

theorem pool_eq_ok : w.pool id = .ok p ↔ w.pools.lookup id = some p := by
  unfold World.pool
  cases w.pools.lookup id <;> simp

theorem NamesUnique.setPool (h : NamesUnique w)
    (hname : ∀ id' q, id' ≠ id → w.pools.lookup id' = some q → q.name ≠ p.name) :
    NamesUnique (w.setPool id p) := by
  intro id₁ id₂ p₁ p₂ h₁ h₂ heq
  simp only [World.setPool, lookup_insert_eq] at h₁ h₂
  split at h₁ <;> split at h₂
  · simp_all
  · rename_i hid₁ hid₂
    cases h₁
    exact absurd heq.symm (hname id₂ p₂ (Ne.symm hid₂) h₂)
  · rename_i hid₁ hid₂
    cases h₂
    exact absurd heq (hname id₁ p₁ (Ne.symm hid₁) h₁)
  · exact h id₁ id₂ p₁ p₂ h₁ h₂ heq

theorem NamesUnique.update (h : NamesUnique w) (hp : w.pools.lookup id = some p)
    (hname : p'.name = p.name) : NamesUnique (w.setPool id p') := by
  apply h.setPool
  intro id' q hne hq heq
  exact hne (h id' id q p hq hp (heq.trans hname))

theorem NamesUnique.erasePool (h : NamesUnique w) : NamesUnique (w.erasePool id) := by
  intro id₁ id₂ p₁ p₂ h₁ h₂ heq
  simp only [World.erasePool, lookup_erase_eq] at h₁ h₂
  split at h₁
  · cases h₁
  · split at h₂
    · cases h₂
    · exact h id₁ id₂ p₁ p₂ h₁ h₂ heq

theorem NamesUnique.poolByName (h : NamesUnique w) (hp : w.pools.lookup id = some p) :
    w.poolByName p.name = some (id, p) := by
  have hmem : ⟨id, p⟩ ∈ w.pools.entries := AList.mem_lookup_iff.mp hp
  unfold World.poolByName
  cases hfind : w.pools.entries.find? fun e => e.2.name = p.name with
  | none => simpa using List.find?_eq_none.mp hfind _ hmem
  | some e =>
      have he := AList.mem_lookup_iff.mpr (List.mem_of_find?_eq_some hfind)
      have hname : e.2.name = p.name := by simpa using List.find?_some hfind
      obtain rfl := h e.1 id e.2 p he hp hname
      have heq : e.2 = p := Option.some.inj (he.symm.trans hp)
      simp [heq]

end Names

section Commands

-- The calls that change an object without an event of libvirt.
inductive Silent (w : World) : Command → Obj → Prop where
  | domainSetAutostart (d : Ref) (on : Bool) : Silent w (.domainSetAutostart d on) ⟨.vm, d.id⟩
  | poolSetAutostart (p : Ref) (on : Bool) : Silent w (.poolSetAutostart p on) ⟨.pool, p.id⟩
  | networkSetAutostart (n : Ref) (on : Bool) :
      Silent w (.networkSetAutostart n on) ⟨.network, n.id⟩
  | poolRefresh (p : Ref) : Silent w (.poolRefresh p) ⟨.pool, p.id⟩
  | volCreateXml (p : Ref) (xml : String) : Silent w (.volCreateXml p xml) ⟨.pool, p.id⟩
  | volDelete (v : VolRef) (id : Uuid) (p : StoragePool) (h : w.poolByName v.pool = some (id, p)) :
      Silent w (.volDelete v) ⟨.pool, id⟩

-- What one successful call can do: nothing, or one change of one object, with an
-- event for it or silently.
inductive Effect (w : World) (c : Command) : World → List Event → Prop where
  | none (events : List Event) : Effect w c w events
  | change (o : Obj) (t : Option Thing) (events : List Event) (hfits : Fits o t)
      (hnames : NamesUnique w → NamesUnique (setThing w o t))
      (h : some o ∈ events.map Event.obj ∨ Silent w c o) : Effect w c (setThing w o t) events

variable {w : World}

theorem fits_vm (id : Uuid) (d : Domain) : Fits ⟨.vm, id⟩ (some (.domain d)) := by
  rintro _ ⟨⟩
  rfl

theorem fits_pool (id : Uuid) (p : StoragePool) : Fits ⟨.pool, id⟩ (some (.pool p)) := by
  rintro _ ⟨⟩
  rfl

theorem fits_network (id : Uuid) (n : Network) : Fits ⟨.network, id⟩ (some (.network n)) := by
  rintro _ ⟨⟩
  rfl

theorem fits_none (o : Obj) : Fits o none := nofun

theorem activePool_eq_ok {id : Uuid} {p : StoragePool} :
    w.activePool id = .ok p ↔ w.pool id = .ok p ∧ p.active = true := by
  unfold World.activePool
  rw [except_bind_eq_ok]
  constructor
  · rintro ⟨q, hq, h⟩
    split at h <;> cases h
    exact ⟨hq, ‹_›⟩
  · rintro ⟨hq, h⟩
    exact ⟨p, hq, if_pos h⟩

theorem poolByName_lookup {name : String} {id : Uuid} {p : StoragePool}
    (h : w.poolByName name = some (id, p)) : w.pool id = .ok p := by
  obtain ⟨e, he, heq⟩ := Option.map_eq_some_iff.mp h
  cases heq
  exact pool_eq_ok.mpr (AList.mem_lookup_iff.mpr (List.mem_of_find?_eq_some he))

section Changes

variable {c : Command} {id : Uuid} {events : List Event}

theorem effect_setDomain (d : Domain)
    (h : some ⟨.vm, id⟩ ∈ events.map Event.obj ∨ Silent w c ⟨.vm, id⟩) :
    Effect w c (w.setDomain id d) events := .change _ _ _ (fits_vm id d) (fun h => h) h

theorem effect_setPool (p : StoragePool) (hnames : NamesUnique w → NamesUnique (w.setPool id p))
    (h : some ⟨.pool, id⟩ ∈ events.map Event.obj ∨ Silent w c ⟨.pool, id⟩) :
    Effect w c (w.setPool id p) events := .change _ _ _ (fits_pool id p) hnames h

theorem effect_updatePool {p p' : StoragePool} (hp : w.pool id = .ok p) (hname : p'.name = p.name)
    (h : some ⟨.pool, id⟩ ∈ events.map Event.obj ∨ Silent w c ⟨.pool, id⟩) :
    Effect w c (w.setPool id p') events :=
  effect_setPool p' (fun hnames => hnames.update (pool_eq_ok.mp hp) hname) h

theorem effect_setNetwork (n : Network)
    (h : some ⟨.network, id⟩ ∈ events.map Event.obj ∨ Silent w c ⟨.network, id⟩) :
    Effect w c (w.setNetwork id n) events :=
  .change _ _ _ (fits_network id n) (fun h => h) h

theorem effect_eraseDomain (h : some ⟨.vm, id⟩ ∈ events.map Event.obj) :
    Effect w c (w.eraseDomain id) events :=
  .change ⟨.vm, id⟩ _ _ (fits_none _) (fun h => h) (.inl h)

theorem effect_erasePool (h : some ⟨.pool, id⟩ ∈ events.map Event.obj) :
    Effect w c (w.erasePool id) events :=
  .change ⟨.pool, id⟩ _ _ (fits_none _) (fun h => h.erasePool) (.inl h)

theorem effect_eraseNetwork (h : some ⟨.network, id⟩ ∈ events.map Event.obj) :
    Effect w c (w.eraseNetwork id) events :=
  .change ⟨.network, id⟩ _ _ (fits_none _) (fun h => h) (.inl h)

theorem effect_stopDomain (d : Domain) (h : some ⟨.vm, id⟩ ∈ events.map Event.obj) :
    Effect w c (w.stopDomain id d) events := by
  unfold World.stopDomain
  split
  · exact effect_setDomain _ (.inl h)
  · exact effect_eraseDomain h

theorem effect_stopPool {p : StoragePool} (hp : w.pool id = .ok p)
    (h : some ⟨.pool, id⟩ ∈ events.map Event.obj) :
    Effect w c (w.stopPool id p) events := by
  unfold World.stopPool
  split
  · exact effect_updatePool hp rfl (.inl h)
  · exact effect_erasePool h

theorem effect_stopNetwork (n : Network) (h : some ⟨.network, id⟩ ∈ events.map Event.obj) :
    Effect w c (w.stopNetwork id n) events := by
  unfold World.stopNetwork
  split
  · exact effect_setNetwork _ (.inl h)
  · exact effect_eraseNetwork h

end Changes

theorem domainEvent_obj (id : Uuid) (event : Int) :
    some ⟨.vm, id⟩ ∈ [domainEvent id event].map Event.obj := List.mem_singleton_self _

theorem poolEvent_obj (id : Uuid) (event : Int) :
    some ⟨.pool, id⟩ ∈ [Event.pool id event].map Event.obj := List.mem_singleton_self _

theorem networkEvent_obj (id : Uuid) (event : Int) :
    some ⟨.network, id⟩ ∈ [Event.network id event].map Event.obj := List.mem_singleton_self _

variable [Libvirtd]

theorem perform_effect (c : Command) (p : Performed c.Result) (h : w.perform c = .ok p) :
    Effect w c p.world p.events := by
  cases c with
  | domainCreate d =>
      obtain ⟨x, -, h⟩ := except_bind_eq_ok.mp h
      split at h <;> cases h
      exact effect_setDomain _ (.inl (domainEvent_obj _ _))
  | domainShutdownFlags d flags =>
      obtain ⟨x, -, h⟩ := except_bind_eq_ok.mp h
      split at h
      · cases h
      · split at h <;> cases h
        · exact effect_stopDomain x (domainEvent_obj _ _)
        · exact .none []
  | domainDestroy d =>
      obtain ⟨x, -, h⟩ := except_bind_eq_ok.mp h
      split at h <;> cases h
      exact effect_stopDomain x (domainEvent_obj _ _)
  | domainReboot d flags =>
      obtain ⟨x, -, h⟩ := except_bind_eq_ok.mp h
      split at h <;> cases h
      exact .none []
  | domainSuspend d | domainResume d =>
      obtain ⟨x, -, h⟩ := except_bind_eq_ok.mp h
      split at h <;> cases h
      exact effect_setDomain _ (.inl (domainEvent_obj _ _))
  | domainSetAutostart d on =>
      obtain ⟨x, -, h⟩ := except_bind_eq_ok.mp h
      split at h <;> cases h
      exact effect_setDomain _ (.inr (.domainSetAutostart d on))
  | domainUndefineFlags d flags =>
      obtain ⟨x, -, h⟩ := except_bind_eq_ok.mp h
      split at h <;> cases h
      · exact effect_eraseDomain (domainEvent_obj _ _)
      · exact effect_setDomain _ (.inl (domainEvent_obj _ _))
  | defineStoragePoolXml xml =>
      simp only [World.perform] at h
      split at h
      · cases h
      · rename_i id x hx
        split at h
        · cases h
        · rename_i hother
          cases h
          apply effect_setPool x _ (.inl (poolEvent_obj _ _))
          refine fun hnames => hnames.setPool ?_
          intro id' q hne hq heq
          apply hother
          exact List.any_eq_true.mpr ⟨⟨id', q⟩, AList.mem_lookup_iff.mp hq, by simp [hne, heq]⟩
  | poolBuild q | poolDelete q =>
      obtain ⟨x, -, h⟩ := except_bind_eq_ok.mp h
      split at h <;> cases h
      exact .none []
  | poolCreate q =>
      obtain ⟨x, hx, h⟩ := except_bind_eq_ok.mp h
      split at h <;> cases h
      exact effect_updatePool hx rfl (.inl (poolEvent_obj _ _))
  | poolDestroy q =>
      obtain ⟨x, hx, h⟩ := except_bind_eq_ok.mp h
      cases h
      exact effect_stopPool (activePool_eq_ok.mp hx).1 (poolEvent_obj _ _)
  | poolUndefine q =>
      obtain ⟨x, -, h⟩ := except_bind_eq_ok.mp h
      split at h <;> cases h
      exact effect_erasePool (poolEvent_obj _ _)
  | poolRefresh q =>
      obtain ⟨x, hx, h⟩ := except_bind_eq_ok.mp h
      cases h
      exact effect_updatePool (activePool_eq_ok.mp hx).1 rfl (.inr (.poolRefresh q))
  | poolSetAutostart q on =>
      obtain ⟨x, hx, h⟩ := except_bind_eq_ok.mp h
      split at h <;> cases h
      exact effect_updatePool hx rfl (.inr (.poolSetAutostart q on))
  | defineNetworkXml xml =>
      simp only [World.perform] at h
      split at h <;> cases h
      exact effect_setNetwork _ (.inl (networkEvent_obj _ _))
  | networkCreate n =>
      obtain ⟨x, -, h⟩ := except_bind_eq_ok.mp h
      split at h <;> cases h
      exact effect_setNetwork _ (.inl (networkEvent_obj _ _))
  | networkDestroy n =>
      obtain ⟨x, -, h⟩ := except_bind_eq_ok.mp h
      split at h <;> cases h
      exact effect_stopNetwork x (networkEvent_obj _ _)
  | networkUndefine n =>
      obtain ⟨x, -, h⟩ := except_bind_eq_ok.mp h
      split at h
      · cases h
      · cases h
        split
        · exact effect_setNetwork _ (.inl (networkEvent_obj _ _))
        · exact effect_eraseNetwork (networkEvent_obj _ _)
  | networkSetAutostart n on =>
      obtain ⟨x, -, h⟩ := except_bind_eq_ok.mp h
      split at h <;> cases h
      exact effect_setNetwork _ (.inr (.networkSetAutostart n on))
  | volCreateXml q xml =>
      obtain ⟨x, hx, h⟩ := except_bind_eq_ok.mp h
      split at h
      · cases h
      · split at h <;> cases h
        exact effect_updatePool (activePool_eq_ok.mp hx).1 rfl (.inr (.volCreateXml q xml))
  | volDelete v =>
      simp only [World.perform] at h
      split at h
      · cases h
      · rename_i id q hname
        split at h
        · obtain ⟨found, -, rfl⟩ := except_map_eq_ok.mp h
          exact effect_updatePool (poolByName_lookup hname) rfl (.inr (.volDelete v id q hname))
        · cases h

-- The calls that always bring an event.
theorem poolCreate_event {w : World} {p : Ref} (r : Performed Unit)
    (h : w.perform (.poolCreate p) = .ok r) : some ⟨.pool, p.id⟩ ∈ r.events.map Event.obj := by
  obtain ⟨x, -, h⟩ := except_bind_eq_ok.mp h
  split at h <;> cases h
  exact poolEvent_obj _ _

theorem poolDestroy_event {w : World} {p : Ref} (r : Performed Unit)
    (h : w.perform (.poolDestroy p) = .ok r) : some ⟨.pool, p.id⟩ ∈ r.events.map Event.obj := by
  obtain ⟨x, -, h⟩ := except_bind_eq_ok.mp h
  cases h
  exact poolEvent_obj _ _

theorem poolUndefine_event {w : World} {p : Ref} (r : Performed Unit)
    (h : w.perform (.poolUndefine p) = .ok r) : some ⟨.pool, p.id⟩ ∈ r.events.map Event.obj := by
  obtain ⟨x, -, h⟩ := except_bind_eq_ok.mp h
  split at h <;> cases h
  exact poolEvent_obj _ _

theorem networkCreate_event {w : World} {n : Ref} (r : Performed Unit)
    (h : w.perform (.networkCreate n) = .ok r) :
    some ⟨.network, n.id⟩ ∈ r.events.map Event.obj := by
  obtain ⟨x, -, h⟩ := except_bind_eq_ok.mp h
  split at h <;> cases h
  exact networkEvent_obj _ _

theorem networkUndefine_event {w : World} {n : Ref} (r : Performed Unit)
    (h : w.perform (.networkUndefine n) = .ok r) :
    some ⟨.network, n.id⟩ ∈ r.events.map Event.obj := by
  obtain ⟨x, -, h⟩ := except_bind_eq_ok.mp h
  split at h <;> cases h
  exact networkEvent_obj _ _

end Commands

section Unannounced

variable {s : Env} {c : Command} {w : World} {events : List Event} {o : Obj}

theorem Effect.namesUnique {w₀ : World} (h : Effect w₀ c w events) (hnames : NamesUnique w₀) :
    NamesUnique w := by
  cases h with
  | none => exact hnames
  | change o t _ hfits hset h => exact hset hnames

-- Nothing but the object is without an event.
def Only (o : Obj) (s : Env) : Prop := ∀ x ∈ s.unannounced, x = o

theorem Only.of_nil (h : s.unannounced = []) : Only o s := by
  simp [Only, h]

theorem Only.eq_nil (h : Only o s) (ho : o ∉ s.unannounced) : s.unannounced = [] := by
  apply List.eq_nil_iff_forall_not_mem.mpr
  intro x hx
  exact ho (h x hx ▸ hx)

variable [Xml.Xmltree]

-- A change that has no event after a call had none before it, or the call is one
-- of the silent ones.
theorem Effect.unannounced (h : Effect s.world c w events)
    (ho : o ∈ (s.after w events).unannounced) : o ∈ s.unannounced ∨ Silent s.world c o := by
  obtain ⟨ho, hevents⟩ := mem_unannounced_after.mp ho
  apply ho.imp_right
  intro hview
  cases h with
  | none => exact absurd rfl hview
  | change o' t _ hfits hnames h =>
      by_cases hne : o' = o
      · subst hne
        exact h.resolve_left hevents
      · exact absurd (view_setThing hfits hne).symm hview

theorem not_unannounced (h : some o ∈ events.map Event.obj) :
    o ∉ (s.after w events).unannounced :=
  fun ho => (mem_unannounced_after.mp ho).2 h

theorem Only.after (h : Only o s) (heffect : Effect s.world c w events)
    (hsilent : ∀ x, Silent s.world c x → x = o) : Only o (s.after w events) := by
  intro x hx
  rcases heffect.unannounced hx with hx | hx
  · exact h x hx
  · exact hsilent x hx

theorem Only.announced (h : Only o s) (heffect : Effect s.world c w events)
    (hsilent : ∀ x, Silent s.world c x → x = o) (hevent : some o ∈ events.map Event.obj) :
    (s.after w events).unannounced = [] :=
  (h.after heffect hsilent).eq_nil (not_unannounced hevent)

theorem after_send (e : Event) (h : Only o s) (he : e.obj = some o) :
    (s.after s.world [e]).unannounced = [] := by
  apply List.eq_nil_iff_forall_not_mem.mpr
  intro x hx
  obtain ⟨hx, hevents⟩ := mem_unannounced_after.mp hx
  rcases hx with hx | hx
  · apply hevents
    simp [he, h x hx]
  · exact hx rfl

end Unannounced

end Lodger.Jobs
