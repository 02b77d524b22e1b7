import Lodger.Cache.Lemmas

namespace Lodger.Cache

open Lodger.Lib Lodger.Libvirt

-- A read that libvirt answers while it has one value for the object shows that value,
-- whatever happens to the other objects meanwhile.

section Replies

variable {o : Obj} {y : Option Thing} {q : Query}

theorem Lists.of_ok {refs : List Ref}
    (h : ∃ refs', (.ok refs : Except Error (List Ref)) = .ok refs' ∧ Lists o y refs') :
    Lists o y refs := by
  obtain ⟨refs', h, hlists⟩ := h
  cases h
  exact hlists

variable [Libvirtd]

theorem Tells.eq {r : Except Error q.Result} (h : Tells o y q r) (habout : about q = some o) :
    r = (only o y).query q := by
  cases q with
  | listAllDomains | listAllStoragePools | listAllNetworks => cases habout
  | _ => exact h habout

theorem Tells.ok_inj {a b : q.Result} (h : Tells o y q (.ok a)) (habout : about q = some o)
    (hq : (only o y).query q = .ok b) : a = b :=
  Except.ok.inj ((h.eq habout).trans hq)

-- While libvirt has the object, no call about it says that it is gone.
theorem Tells.not_error {e : Error} {a : q.Result} (h : Tells o y q (.error e))
    (habout : about q = some o) (hq : (only o y).query q = .ok a) : False := by
  have := (h.eq habout).trans hq
  cases this

end Replies

section Details

variable [Libvirtd] {y : Option Thing} {ref : Ref}

theorem poolOf_self [Xml.Xmltree] (hfits : Fits ⟨.pool, ref.id⟩ y)
    (hname : ∀ t ∈ y, t.name = ref.name) :
    DetailsTo (Tells ⟨.pool, ref.id⟩ y) (· = y.map (Thing.view ref.id)) Entry.pool
      (poolOf ref) := by
  rcases y with _ | (d | p | n)
  · apply holds_get _ (fun _ _ _ => rfl)
    intro info hinfo
    cases hinfo.eq rfl
  · cases hfits _ rfl
  · have hinfo : (only ⟨.pool, ref.id⟩ (some (.pool p))).query (.poolInfo ref) =
        .ok (⟨p.state, p.scan.capacity, p.scan.allocation, p.scan.available⟩ : PoolInfo) := by
      simp [World.query, Except.map]
    have hpersistent : (only ⟨.pool, ref.id⟩ (some (.pool p))).query (.poolIsPersistent ref) =
        .ok (p.persistent : Bool) := by
      simp [World.query, Except.map]
    have hautostart : (only ⟨.pool, ref.id⟩ (some (.pool p))).query (.poolAutostart ref) =
        .ok (p.autostart : Bool) := by
      simp [World.query, Except.map]
    apply holds_get _ (fun e he => (he.not_error rfl hinfo).elim)
    intro info h
    rw [h.ok_inj rfl hinfo]
    apply holds_get _ (fun e he => (he.not_error rfl hpersistent).elim)
    intro persistent h
    rw [h.ok_inj rfl hpersistent]
    apply holds_get _ (fun e he => (he.not_error rfl hautostart).elim)
    intro autostart h
    rw [h.ok_inj rfl hautostart]
    simp [Thing.view, poolView, ← hname _ rfl, Thing.name]
  · cases hfits _ rfl

theorem networkOf_self [Xml.Xmltree] (hfits : Fits ⟨.network, ref.id⟩ y)
    (hname : ∀ t ∈ y, t.name = ref.name) :
    DetailsTo (Tells ⟨.network, ref.id⟩ y) (· = y.map (Thing.view ref.id)) Entry.network
      (networkOf ref) := by
  rcases y with _ | (d | p | n)
  · apply holds_get _ (fun _ _ _ => rfl)
    intro active hactive
    cases hactive.eq rfl
  · cases hfits _ rfl
  · cases hfits _ rfl
  · have hactive : (only ⟨.network, ref.id⟩ (some (.network n))).query (.networkIsActive ref) =
        .ok (n.active : Bool) := by
      simp [World.query, Except.map]
    have hpersistent : (only ⟨.network, ref.id⟩ (some (.network n))).query
        (.networkIsPersistent ref) = .ok (n.persistent : Bool) := by
      simp [World.query, Except.map]
    have hautostart : (only ⟨.network, ref.id⟩ (some (.network n))).query
        (.networkAutostart ref) = .ok (n.autostart : Bool) := by
      simp [World.query, Except.map]
    apply holds_get _ (fun e he => (he.not_error rfl hactive).elim)
    intro active h
    rw [h.ok_inj rfl hactive]
    apply holds_get _ (fun e he => (he.not_error rfl hpersistent).elim)
    intro persistent h
    rw [h.ok_inj rfl hpersistent]
    apply holds_get _ (fun e he => (he.not_error rfl hautostart).elim)
    intro autostart h
    rw [h.ok_inj rfl hautostart]
    apply Prog.Holds.bind
    apply Prog.Holds.attempt
    -- The one call whose error is not passed on.
    intro r hr
    have hbridge : @Except.toOption Error String r = n.bridge := by
      rw [hr.eq rfl]
      cases hb : n.bridge <;>
        simp [World.query, bind, Except.bind, hb, Except.toOption]
    change some (Entry.network ⟨ref.id, ref.name, n.active, n.persistent, n.autostart,
      @Except.toOption Error String r⟩) = _
    simp [Thing.view, networkView, ← hname _ rfl, Thing.name, hbridge]

theorem vmOf_self [Xml.Xmltree] (hfits : Fits ⟨.vm, ref.id⟩ y)
    (hname : ∀ t ∈ y, t.name = ref.name) :
    DetailsTo (Tells ⟨.vm, ref.id⟩ y) (· = y.map (Thing.view ref.id)) Entry.vm (vmOf ref) := by
  rcases y with _ | (d | p | n)
  · apply holds_get _ (fun _ _ _ => rfl)
    intro info hinfo
    cases hinfo.eq rfl
  · have hinfo : (only ⟨.vm, ref.id⟩ (some (.domain d))).query (.domainInfo ref) =
        .ok (⟨d.state, d.nrVirtCpu, d.memory⟩ : DomainInfo) := by
      simp [World.query, Except.map]
    have hxml : (only ⟨.vm, ref.id⟩ (some (.domain d))).query (.domainXmlDesc ref false) =
        .ok (d.xmlDesc false : String) := by
      simp [World.query, Except.map]
    have hpersistent : (only ⟨.vm, ref.id⟩ (some (.domain d))).query (.domainIsPersistent ref) =
        .ok (d.isPersistent : Bool) := by
      simp [World.query, Except.map]
    have hautostart : (only ⟨.vm, ref.id⟩ (some (.domain d))).query (.domainAutostart ref) =
        .ok (d.autostart : Bool) := by
      simp [World.query, Except.map]
    apply holds_get _ (fun e he => (he.not_error rfl hinfo).elim)
    intro info h
    rw [h.ok_inj rfl hinfo]
    apply holds_get _ (fun e he => (he.not_error rfl hxml).elim)
    intro xml h
    rw [h.ok_inj rfl hxml]
    apply holds_get _ (fun e he => (he.not_error rfl hpersistent).elim)
    intro persistent h
    rw [h.ok_inj rfl hpersistent]
    apply holds_get _ (fun e he => (he.not_error rfl hautostart).elim)
    intro autostart h
    rw [h.ok_inj rfl hautostart]
    simp [Thing.view, vmView, ← hname _ rfl, Thing.name]
  · cases hfits _ rfl
  · cases hfits _ rfl

end Details

section Reads

variable [Libvirtd] [Xml.Xmltree] {o : Obj} {y : Option Thing} {α : Type}

theorem Lists.listTo {refs : List Ref} {detailsOf : Ref → Read α} {toEntry : α → Entry}
    (hlists : Lists o y refs)
    (hself : ∀ ref, ref.id = o.id → (∀ t ∈ y, t.name = ref.name) →
      DetailsTo (Tells o y) (· = y.map (Thing.view o.id)) toEntry (detailsOf ref)) :
    ListTo (Tells o y) (· = y.map (Thing.view o.id)) o detailsOf toEntry refs where
  absent h := by
    cases y with
    | none => rfl
    | some t => exact absurd (hlists.found rfl) h
  details ref href hid := by
    apply hself ref hid
    intro t ht
    have hname := hlists.named ref href hid
    rw [ht] at hname
    exact Option.some.inj hname

theorem load_sound (hfits : Fits o y) :
    load.Returns (Tells o y) fun inv => inv.entry o = y.map (Thing.view o.id) := by
  obtain ⟨kind, id⟩ := o
  apply load_returns (P := (· = y.map (Thing.view id)))
  · rintro ⟨⟩ refs hrefs
    apply (Lists.of_ok (hrefs rfl)).listTo
    rintro ref rfl hname
    exact vmOf_self hfits hname
  · rintro ⟨⟩ refs hrefs
    apply (Lists.of_ok (hrefs rfl)).listTo
    rintro ref rfl hname
    exact poolOf_self hfits hname
  · rintro ⟨⟩ refs hrefs
    apply (Lists.of_ok (hrefs rfl)).listTo
    rintro ref rfl hname
    exact networkOf_self hfits hname

-- The look-up by UUID gives a handle of the object, or says that it is gone.
theorem lookup_detailsTo {toEntry : α → Entry} {detailsOf : Ref → Read α} {lookup : Read Ref}
    (hlookup : lookup.Holds (Tells o y) (Outcome
      (fun ref => ref.id = o.id ∧ ∀ t ∈ y, t.name = ref.name) fun _ => y = none))
    (hself : ∀ ref, ref.id = o.id → (∀ t ∈ y, t.name = ref.name) →
      DetailsTo (Tells o y) (· = y.map (Thing.view o.id)) toEntry (detailsOf ref)) :
    DetailsTo (Tells o y) (· = y.map (Thing.view o.id)) toEntry (lookup >>= detailsOf) := by
  apply Prog.Holds.bind
  apply hlookup.imp
  rintro (e | ref) h
  · intro _
    rw [show y = none from h]
    rfl
  · exact hself ref h.1 h.2

theorem refresh_sound {e : Event} (hfits : Fits o y) (he : e.obj = some o) :
    (refresh e).Returns (Tells o y) fun r =>
      ∃ f, r = some f ∧ f.entry = y.map (Thing.view o.id) := by
  obtain ⟨kind, id⟩ := o
  apply refresh_returns (P := (· = y.map (Thing.view id))) he
  · rintro ⟨⟩
    refine lookup_detailsTo ?_ (by rintro ref rfl hname; exact vmOf_self hfits hname)
    intro r hr
    rcases y with _ | (d | p | n)
    · rw [hr.eq rfl]
      rfl
    · have hfound : r = .ok (⟨id, d.name⟩ : Ref) :=
        (hr.eq rfl).trans (by simp [World.query, Except.map])
      rw [hfound]
      exact ⟨rfl, by rintro _ ⟨⟩; rfl⟩
    · cases hfits _ rfl
    · cases hfits _ rfl
  · rintro ⟨⟩
    refine lookup_detailsTo ?_ (by rintro ref rfl hname; exact poolOf_self hfits hname)
    intro r hr
    rcases y with _ | (d | p | n)
    · rw [hr.eq rfl]
      rfl
    · cases hfits _ rfl
    · have hfound : r = .ok (⟨id, p.name⟩ : Ref) :=
        (hr.eq rfl).trans (by simp [World.query, Except.map])
      rw [hfound]
      exact ⟨rfl, by rintro _ ⟨⟩; rfl⟩
    · cases hfits _ rfl
  · rintro ⟨⟩
    refine lookup_detailsTo ?_ (by rintro ref rfl hname; exact networkOf_self hfits hname)
    intro r hr
    rcases y with _ | (d | p | n)
    · rw [hr.eq rfl]
      rfl
    · cases hfits _ rfl
    · cases hfits _ rfl
    · have hfound : r = .ok (⟨id, n.name⟩ : Ref) :=
        (hr.eq rfl).trans (by simp [World.query, Except.map])
      rw [hfound]
      exact ⟨rfl, by rintro _ ⟨⟩; rfl⟩

end Reads

end Lodger.Cache
