import Lodger.Cache.Sound

namespace Lodger.Cache

open Lodger.Lib Lodger.Libvirt

-- One part of an entry. While other clients change the object, a read may mix
-- several moments, but each part is what libvirt had at one moment.

inductive Aspect where
  | autostart
  | sizes
deriving DecidableEq, Repr

inductive Detail where
  | autostart (on : Bool)
  | sizes (capacity allocation available : Nat)
deriving DecidableEq, Repr

def Aspect.detail : Aspect → Entry → Option Detail
  | .autostart, .vm vm => some (.autostart vm.autostart)
  | .autostart, .pool pool => some (.autostart pool.autostart)
  | .autostart, .network net => some (.autostart net.autostart)
  | .sizes, .pool pool =>
      some (.sizes pool.capacityBytes pool.allocationBytes pool.availableBytes)
  | .sizes, _ => none

-- Only a pool has sizes.
theorem Aspect.eq_autostart {aspect : Aspect} {o : Obj} (h : aspect = .sizes → o.kind = .pool)
    (hkind : o.kind ≠ .pool) : aspect = .autostart := by
  cases aspect with
  | autostart => rfl
  | sizes => exact absurd (h rfl) hkind

-- The one call of a read that tells this part of the object.
def Aspect.shownBy (o : Obj) : Aspect → Query → Bool
  | .autostart, .domainAutostart d => o = ⟨.vm, d.id⟩
  | .autostart, .poolAutostart p => o = ⟨.pool, p.id⟩
  | .autostart, .networkAutostart n => o = ⟨.network, n.id⟩
  | .sizes, .poolInfo p => o = ⟨.pool, p.id⟩
  | _, _ => false

section Fresh

variable [Xml.Xmltree]

-- The entry shows this part as one of the values has it.
def FreshIn (aspect : Aspect) (id : Uuid) (values : Set (Option Thing)) (e : Option Entry) : Prop :=
  ∃ y ∈ values, e.map aspect.detail = (y.map (Thing.view id)).map aspect.detail

variable {aspect : Aspect} {o : Obj} {values : Set (Option Thing)} {t : Thing} {ref : Ref}

theorem freshIn_none {id : Uuid} (h : none ∈ values) : FreshIn aspect id values none :=
  ⟨none, h, rfl⟩

theorem FreshIn.mono {id : Uuid} {values' : Set (Option Thing)} {e : Option Entry}
    (h : FreshIn aspect id values e) (hsub : values ⊆ values') : FreshIn aspect id values' e := by
  obtain ⟨y, hy, he⟩ := h
  exact ⟨y, hsub hy, he⟩

end Fresh

variable [Libvirtd] {aspect : Aspect} {o : Obj} {values : Set (Option Thing)} {t : Thing}
  {ref : Ref}

-- The reply does not tell this part yet: it shows the object, or it is an error
-- that ends the read.
def LeavesOpen (aspect : Aspect) (o : Obj) (q : Query) (r : Except Error q.Result) : Prop :=
  (aspect.shownBy o q = false ∧ ∃ t, t.kind = o.kind ∧ Tells o (some t) q r) ∨
    ∃ e, r = .error e ∧ gone e = false

-- The replies to a read that shows this part with one of the values.
def Answers (aspect : Aspect) (o : Obj) (values : Set (Option Thing)) (q : Query)
    (r : Except Error q.Result) : Prop :=
  (∃ y ∈ values, Tells o y q r) ∨ LeavesOpen aspect o q r

theorem query_only_some {q : Query} (habout : about q = some o) (hkind : t.kind = o.kind)
    (hbridge : ∀ n, q ≠ .networkBridgeName n) : ∃ a, (only o (some t)).query q = .ok a := by
  cases q <;> simp only [about, Option.some.injEq, reduceCtorEq] at habout <;> subst habout <;>
    cases t <;> cases hkind <;>
    first
      | exact absurd rfl (hbridge _)
      | exact ⟨_, by simp only [World.query, only_domain, only_pool, only_network]; rfl⟩

-- No call says that the object is gone, unless it was at one of the moments.
theorem Answers.gone {q : Query} {e : Error} (h : Answers aspect o values q (.error e))
    (habout : about q = some o) (hbridge : ∀ n, q ≠ .networkBridgeName n)
    (hfits : ∀ y ∈ values, Fits o y) (hgone : gone e = true) : none ∈ values := by
  have hnot {t : Thing} (hkind : t.kind = o.kind) (ht : Tells o (some t) q (.error e)) : False := by
    obtain ⟨a, ha⟩ := query_only_some habout hkind hbridge
    exact ht.not_error habout ha
  rcases h with ⟨y, hy, ht⟩ | ⟨-, t, hkind, ht⟩ | ⟨e', he, hlost⟩
  · cases y with
    | none => exact hy
    | some t => exact (hnot (hfits _ hy t rfl) ht).elim
  · exact (hnot hkind ht).elim
  · cases he
    rw [hgone] at hlost
    cases hlost

-- The call that tells the part is answered by one of the values.
theorem Answers.shown {q : Query} {a : q.Result} (h : Answers aspect o values q (.ok a))
    (hshown : aspect.shownBy o q = true) (habout : about q = some o) :
    ∃ y ∈ values, (only o y).query q = .ok a := by
  rcases h with ⟨y, hy, ht⟩ | ⟨hnot, -⟩ | ⟨e, he, -⟩
  · exact ⟨y, hy, (ht.eq habout).symm⟩
  · rw [hshown] at hnot
    cases hnot
  · cases he

-- A reply that is not an error comes from a value of the object.
theorem Answers.told {q : Query} {a : q.Result} (h : Answers aspect o values q (.ok a))
    (hfits : ∀ y ∈ values, Fits o y) : ∃ y, Fits o y ∧ Tells o y q (.ok a) := by
  rcases h with ⟨y, hy, ht⟩ | ⟨-, t, hkind, ht⟩ | ⟨e, he, -⟩
  · exact ⟨y, hfits y hy, ht⟩
  · refine ⟨some t, ?_, ht⟩
    rintro _ ⟨⟩
    exact hkind
  · cases he

-- A list leaves the object out only if it was not there at one of the moments.
theorem Answers.absent {q : Query} {a : q.Result} {refs : List Ref}
    (h : Answers aspect o values q (.ok a)) (hlists : ∀ y, Tells o y q (.ok a) → Lists o y refs)
    (habsent : o.id ∉ refs.map (·.id)) : none ∈ values := by
  rcases h with ⟨y, hy, ht⟩ | ⟨-, t, -, ht⟩ | ⟨e, he, -⟩
  · cases y with
    | none => exact hy
    | some t => exact absurd ((hlists _ ht).found rfl) habsent
  · exact absurd ((hlists _ ht).found rfl) habsent
  · cases he

section Reads

variable [Xml.Xmltree]

theorem poolOf_fresh (hfits : ∀ y ∈ values, Fits ⟨.pool, ref.id⟩ y) :
    DetailsTo (Answers aspect ⟨.pool, ref.id⟩ values) (FreshIn aspect ref.id values) Entry.pool
      (poolOf ref) := by
  apply holds_get _ (fun e he hgone => freshIn_none (he.gone rfl (by simp) hfits hgone))
  intro info hinfo
  apply holds_get _ (fun e he hgone => freshIn_none (he.gone rfl (by simp) hfits hgone))
  intro persistent _
  apply holds_get _ (fun e he hgone => freshIn_none (he.gone rfl (by simp) hfits hgone))
  intro autostart hautostart
  cases aspect with
  | autostart =>
      obtain ⟨y, hy, hq⟩ := hautostart.shown (by simp [Aspect.shownBy]) rfl
      refine ⟨y, hy, ?_⟩
      rcases y with _ | (d | p | n)
      · cases hq
      · cases hfits _ hy _ rfl
      · simp only [World.query, only_pool, Except.map] at hq
        cases hq
        rfl
      · cases hfits _ hy _ rfl
  | sizes =>
      obtain ⟨y, hy, hq⟩ := hinfo.shown (by simp [Aspect.shownBy]) rfl
      refine ⟨y, hy, ?_⟩
      rcases y with _ | (d | p | n)
      · cases hq
      · cases hfits _ hy _ rfl
      · simp only [World.query, only_pool, Except.map] at hq
        cases hq
        rfl
      · cases hfits _ hy _ rfl

theorem networkOf_fresh (hfits : ∀ y ∈ values, Fits ⟨.network, ref.id⟩ y) :
    DetailsTo (Answers .autostart ⟨.network, ref.id⟩ values) (FreshIn .autostart ref.id values)
      Entry.network (networkOf ref) := by
  apply holds_get _ (fun e he hgone => freshIn_none (he.gone rfl (by simp) hfits hgone))
  intro active _
  apply holds_get _ (fun e he hgone => freshIn_none (he.gone rfl (by simp) hfits hgone))
  intro persistent _
  apply holds_get _ (fun e he hgone => freshIn_none (he.gone rfl (by simp) hfits hgone))
  intro autostart hautostart
  apply Prog.Holds.bind
  apply Prog.Holds.attempt
  intro bridge _
  obtain ⟨y, hy, hq⟩ := hautostart.shown (by simp [Aspect.shownBy]) rfl
  refine ⟨y, hy, ?_⟩
  rcases y with _ | (d | p | n)
  · cases hq
  · cases hfits _ hy _ rfl
  · cases hfits _ hy _ rfl
  · simp only [World.query, only_network, Except.map] at hq
    cases hq
    rfl

theorem vmOf_fresh (hfits : ∀ y ∈ values, Fits ⟨.vm, ref.id⟩ y) :
    DetailsTo (Answers .autostart ⟨.vm, ref.id⟩ values) (FreshIn .autostart ref.id values) Entry.vm
      (vmOf ref) := by
  apply holds_get _ (fun e he hgone => freshIn_none (he.gone rfl (by simp) hfits hgone))
  intro info _
  apply holds_get _ (fun e he hgone => freshIn_none (he.gone rfl (by simp) hfits hgone))
  intro xml _
  apply holds_get _ (fun e he hgone => freshIn_none (he.gone rfl (by simp) hfits hgone))
  intro persistent _
  apply holds_get _ (fun e he hgone => freshIn_none (he.gone rfl (by simp) hfits hgone))
  intro autostart hautostart
  obtain ⟨y, hy, hq⟩ := hautostart.shown (by simp [Aspect.shownBy]) rfl
  refine ⟨y, hy, ?_⟩
  rcases y with _ | (d | p | n)
  · cases hq
  · simp only [World.query, only_domain, Except.map] at hq
    cases hq
    rfl
  · cases hfits _ hy _ rfl
  · cases hfits _ hy _ rfl

-- The details after a look-up by UUID, whose handle is always one of the object.
theorem lookup_fresh {α : Type} {toEntry : α → Entry} {detailsOf : Ref → Read α}
    {lookup : Read Ref}
    (hlookup : lookup.Holds (Answers aspect o values) (Outcome (fun ref => ref.id = o.id)
      fun e => gone e = true → none ∈ values))
    (hdetails : ∀ ref, ref.id = o.id → DetailsTo (Answers aspect o values)
      (FreshIn aspect o.id values) toEntry (detailsOf ref)) :
    DetailsTo (Answers aspect o values) (FreshIn aspect o.id values) toEntry
      (lookup >>= detailsOf) := by
  apply Prog.Holds.bind
  apply hlookup.imp
  rintro (e | ref) h
  · exact fun hgone => freshIn_none (h hgone)
  · exact hdetails ref h

theorem load_fresh (haspect : aspect = .sizes → o.kind = .pool) (hfits : ∀ y ∈ values, Fits o y) :
    load.Returns (Answers aspect o values) fun inv =>
      FreshIn aspect o.id values (inv.entry o) := by
  obtain ⟨kind, id⟩ := o
  apply load_returns (P := FreshIn aspect id values)
  · rintro ⟨⟩ refs hrefs
    obtain rfl := Aspect.eq_autostart haspect (by simp)
    refine ⟨fun h => freshIn_none (hrefs.absent (fun _ ht => Lists.of_ok (ht rfl)) h), ?_⟩
    rintro ref - rfl
    exact vmOf_fresh hfits
  · rintro ⟨⟩ refs hrefs
    refine ⟨fun h => freshIn_none (hrefs.absent (fun _ ht => Lists.of_ok (ht rfl)) h), ?_⟩
    rintro ref - rfl
    exact poolOf_fresh hfits
  · rintro ⟨⟩ refs hrefs
    obtain rfl := Aspect.eq_autostart haspect (by simp)
    refine ⟨fun h => freshIn_none (hrefs.absent (fun _ ht => Lists.of_ok (ht rfl)) h), ?_⟩
    rintro ref - rfl
    exact networkOf_fresh hfits

theorem refresh_fresh {e : Event} (haspect : aspect = .sizes → o.kind = .pool)
    (hfits : ∀ y ∈ values, Fits o y) (he : e.obj = some o) :
    (refresh e).Returns (Answers aspect o values) fun r =>
      ∃ f, r = some f ∧ FreshIn aspect o.id values f.entry := by
  obtain ⟨kind, id⟩ := o
  apply refresh_returns (P := FreshIn aspect id values) he
  · rintro ⟨⟩
    obtain rfl := Aspect.eq_autostart haspect (by simp)
    refine lookup_fresh ?_ (by rintro ref rfl; exact vmOf_fresh hfits)
    rintro (e | ref) hr
    · exact fun hgone => hr.gone rfl (by simp) hfits hgone
    · obtain ⟨y, hy, ht⟩ := hr.told hfits
      have hq := ht.eq rfl
      rcases y with _ | (d | p | n)
      · cases hq
      · simp only [World.query, only_domain, Except.map] at hq
        cases hq
        rfl
      · cases hy _ rfl
      · cases hy _ rfl
  · rintro ⟨⟩
    refine lookup_fresh ?_ (by rintro ref rfl; exact poolOf_fresh hfits)
    rintro (e | ref) hr
    · exact fun hgone => hr.gone rfl (by simp) hfits hgone
    · obtain ⟨y, hy, ht⟩ := hr.told hfits
      have hq := ht.eq rfl
      rcases y with _ | (d | p | n)
      · cases hq
      · cases hy _ rfl
      · simp only [World.query, only_pool, Except.map] at hq
        cases hq
        rfl
      · cases hy _ rfl
  · rintro ⟨⟩
    obtain rfl := Aspect.eq_autostart haspect (by simp)
    refine lookup_fresh ?_ (by rintro ref rfl; exact networkOf_fresh hfits)
    rintro (e | ref) hr
    · exact fun hgone => hr.gone rfl (by simp) hfits hgone
    · obtain ⟨y, hy, ht⟩ := hr.told hfits
      have hq := ht.eq rfl
      rcases y with _ | (d | p | n)
      · cases hq
      · cases hy _ rfl
      · cases hy _ rfl
      · simp only [World.query, only_network, Except.map] at hq
        cases hq
        rfl

end Reads

end Lodger.Cache
