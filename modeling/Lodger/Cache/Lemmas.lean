import Lodger.Cache.View

namespace Lodger.Cache

open Lodger.Lib Lodger.Libvirt

variable {o : Obj} {y : Option Thing} {ref : Ref} {α : Type}

def Refresh.obj : Refresh → Obj
  | .vm id _ => ⟨.vm, id⟩
  | .pool id _ => ⟨.pool, id⟩
  | .network id _ => ⟨.network, id⟩

def Refresh.entry : Refresh → Option Entry
  | .vm _ found => found.map .vm
  | .pool _ found => found.map .pool
  | .network _ found => found.map .network

section Rules

variable {may : (q : Query) → Except Error q.Result → Prop}

theorem holds_get {q : Query} {f : q.Result → Read α} {post : Except Error α → Prop}
    (hok : ∀ a, may q (.ok a) → (f a).Holds may post)
    (herror : ∀ e, may q (.error e) → post (.error e)) : (get q >>= f).Holds may post := by
  apply Prog.Holds.bind
  apply Prog.Holds.ask
  intro r hr
  cases r with
  | ok a => exact hok a hr
  | error e => exact herror e hr

theorem holds_goneIsNone {p : Read α} {post : Except Error (Option α) → Prop}
    (h : p.Holds may (Outcome
      (fun a => post (.ok (some a)))
      fun e => (gone e = true → post (.ok none)) ∧ (gone e = false → post (.error e)))) :
    (goneIsNone p).Holds may post := by
  apply Prog.Holds.bind
  apply Prog.Holds.attempt
  apply h.imp
  intro r hr
  cases r with
  | ok a => exact hr
  | error e =>
      cases hgone : gone e with
      | true => simpa [hgone] using hr.1 hgone
      | false => simpa [hgone] using hr.2 hgone

variable {detailsOf : Ref → Read α} {insert : Inventory → α → Inventory} {refs : List Ref}
  {inv : Inventory}

-- The loop of another kind of object does not touch the entry.
theorem loadEach_other (insert : Inventory → α → Inventory) {v : Option Entry}
    (hinsert : ∀ inv a, (insert inv a).entry o = inv.entry o) (hinv : inv.entry o = v) :
    (loadEach detailsOf insert refs inv).Returns may fun inv' => inv'.entry o = v := by
  apply Prog.Holds.foldlM fun _ inv => inv.entry o = v
  · exact fun _ h => h
  · intro ref rest acc hacc
    apply Prog.Holds.bind
    apply holds_goneIsNone
    have hall : (detailsOf ref).Holds may fun _ => True := Prog.Holds.trivial _
    apply hall.imp
    rintro (e | a) -
    · exact ⟨fun _ => hacc, fun _ => trivial⟩
    · exact (hinsert acc a).trans hacc
  · exact hinv

-- What the details of the object lead to: its entry, or none if it is gone.
def DetailsTo (may : (q : Query) → Except Error q.Result → Prop) (P : Option Entry → Prop)
    (toEntry : α → Entry) (p : Read α) : Prop :=
  p.Holds may (Outcome (fun a => P (some (toEntry a))) fun e => gone e = true → P none)

-- The same for a list of the objects of its kind.
structure ListTo (may : (q : Query) → Except Error q.Result → Prop) (P : Option Entry → Prop)
    (o : Obj) (detailsOf : Ref → Read α) (toEntry : α → Entry) (refs : List Ref) : Prop where
  absent : o.id ∉ refs.map (·.id) → P none
  details : ∀ ref ∈ refs, ref.id = o.id → DetailsTo may P toEntry (detailsOf ref)

variable {P : Option Entry → Prop} {toEntry : α → Entry}

-- The loop of the object's own kind. `toEntry` and `uuid` say what it stores and under
-- which id.
theorem loadEach_self {uuid : α → Uuid}
    (hinsert : ∀ inv a, (insert inv a).entry o =
      if uuid a = o.id then some (toEntry a) else inv.entry o)
    (huuid : ∀ ref, (detailsOf ref).Returns may fun a => uuid a = ref.id)
    (hlist : ListTo may P o detailsOf toEntry refs) (hinv : inv.entry o = none) :
    (loadEach detailsOf insert refs inv).Returns may fun inv' => P (inv'.entry o) := by
  apply Prog.Holds.foldlM fun rest acc => rest ⊆ refs ∧
    ((o.id ∈ rest.map (·.id) ∧ acc.entry o = none) ∨ P (acc.entry o))
  · rintro acc ⟨-, ⟨hmem, -⟩ | h⟩
    · simp at hmem
    · exact h
  · rintro ref rest acc ⟨hsub, hacc⟩
    have hrest : rest ⊆ refs := fun x hx => hsub (List.mem_cons_of_mem _ hx)
    apply Prog.Holds.bind
    apply holds_goneIsNone
    by_cases hid : ref.id = o.id
    · have hdetails := hlist.details ref (hsub List.mem_cons_self) hid
      apply ((huuid ref).and hdetails).imp
      rintro (e | a) ⟨hu, h⟩
      · refine ⟨fun hgone => ⟨hrest, .inr ?_⟩, fun _ => trivial⟩
        rcases hacc with ⟨-, hnone⟩ | hacc
        · rw [hnone]
          exact h hgone
        · exact hacc
      · refine ⟨hrest, .inr ?_⟩
        rw [hinsert, if_pos (Eq.trans hu hid)]
        exact h
    · have hacc : (o.id ∈ rest.map (·.id) ∧ acc.entry o = none) ∨ P (acc.entry o) := by
        simpa [Ne.symm hid] using hacc
      apply (huuid ref).imp
      rintro (e | a) hu
      · exact ⟨fun _ => ⟨hrest, hacc⟩, fun _ => trivial⟩
      · refine ⟨hrest, ?_⟩
        rw [hinsert, if_neg (fun h => hid (Eq.trans (Eq.symm hu) h))]
        exact hacc
  · refine ⟨List.Subset.refl _, ?_⟩
    by_cases hmem : o.id ∈ refs.map (·.id)
    · exact .inl ⟨hmem, hinv⟩
    · right
      rw [hinv]
      exact hlist.absent hmem

theorem goneIsNone_returns {toRefresh : Option α → Refresh} {p : Read α}
    (hentry : ∀ a, (toRefresh a).entry = a.map toEntry) (h : DetailsTo may P toEntry p) :
    (goneIsNone p >>= fun a => pure (some (toRefresh a))).Returns may fun r =>
      ∃ f, r = some f ∧ P f.entry := by
  apply Prog.Holds.bind
  apply holds_goneIsNone
  apply h.imp
  rintro (e | a) h
  · refine ⟨fun hgone => ⟨_, rfl, ?_⟩, fun _ => trivial⟩
    rw [hentry]
    exact h hgone
  · refine ⟨_, rfl, ?_⟩
    rw [hentry]
    exact h

end Rules

section Entries

theorem lookup_insert_eq {β : Type} (l : AList fun _ : Uuid => β) (a id : Uuid) (b : β) :
    (l.insert a b).lookup id = if a = id then some b else l.lookup id := by
  by_cases h : a = id
  · simp [h]
  · simp [h, AList.lookup_insert_ne (Ne.symm h)]

theorem lookup_erase_eq {β : Type} (l : AList fun _ : Uuid => β) (a id : Uuid) :
    (l.erase a).lookup id = if a = id then none else l.lookup id := by
  by_cases h : a = id
  · simp [h]
  · simp [h, AList.lookup_erase_ne (Ne.symm h)]

variable (inv : Inventory) (id : Uuid)

theorem Inventory.entry_insertVm (vm : Vm) : (inv.insertVm vm).entry ⟨.vm, id⟩ =
    if vm.uuid = id then some (.vm vm) else inv.entry ⟨.vm, id⟩ := by
  simp only [entry, insertVm, lookup_insert_eq]
  split <;> rfl

theorem Inventory.entry_insertPool (pool : Pool) : (inv.insertPool pool).entry ⟨.pool, id⟩ =
    if pool.uuid = id then some (.pool pool) else inv.entry ⟨.pool, id⟩ := by
  simp only [entry, insertPool, lookup_insert_eq]
  split <;> rfl

theorem Inventory.entry_insertNetwork (net : Net) :
    (inv.insertNetwork net).entry ⟨.network, id⟩ =
      if net.uuid = id then some (.network net) else inv.entry ⟨.network, id⟩ := by
  simp only [entry, insertNetwork, lookup_insert_eq]
  split <;> rfl

theorem Inventory.entry_apply (r : Refresh) (o : Obj) :
    (inv.apply r).entry o = if r.obj = o then r.entry else inv.entry o := by
  obtain ⟨kind, id⟩ := o
  rcases r with ⟨id', _ | vm⟩ | ⟨id', _ | pool⟩ | ⟨id', _ | net⟩ <;> cases kind <;>
    simp only [apply, entry, Refresh.obj, Refresh.entry, lookup_insert_eq, lookup_erase_eq,
      Obj.mk.injEq, reduceCtorEq, true_and, false_and, if_false] <;>
    split <;> rfl

end Entries

section Details

-- Whatever the replies are, the details carry the id of the handle.
theorem poolOf_uuid (ref : Ref) (may : (q : Query) → Except Error q.Result → Prop) :
    (poolOf ref).Returns may fun pool => pool.uuid = ref.id := by
  apply holds_get _ (fun _ _ => trivial)
  intro _ _
  apply holds_get _ (fun _ _ => trivial)
  intro _ _
  apply holds_get _ (fun _ _ => trivial)
  intro _ _
  rfl

theorem vmOf_uuid [Xml.Xmltree] (ref : Ref) (may : (q : Query) → Except Error q.Result → Prop) :
    (vmOf ref).Returns may fun vm => vm.uuid = ref.id := by
  apply holds_get _ (fun _ _ => trivial)
  intro _ _
  apply holds_get _ (fun _ _ => trivial)
  intro _ _
  apply holds_get _ (fun _ _ => trivial)
  intro _ _
  apply holds_get _ (fun _ _ => trivial)
  intro _ _
  rfl

theorem networkOf_uuid (ref : Ref) (may : (q : Query) → Except Error q.Result → Prop) :
    (networkOf ref).Returns may fun net => net.uuid = ref.id := by
  apply holds_get _ (fun _ _ => trivial)
  intro _ _
  apply holds_get _ (fun _ _ => trivial)
  intro _ _
  apply holds_get _ (fun _ _ => trivial)
  intro _ _
  apply Prog.Holds.bind
  apply Prog.Holds.attempt
  exact fun _ _ => rfl

-- A refresh is about the object of its event.
theorem refresh_obj [Xml.Xmltree] (e : Event) (may : (q : Query) → Except Error q.Result → Prop) :
    (refresh e).Returns may fun r => ∀ f ∈ r, some f.obj = e.obj := by
  cases e with
  | domain id change =>
      apply Prog.Holds.bind
      apply (Prog.Holds.trivial _).imp
      rintro (e | vm) -
      · trivial
      · rintro _ ⟨⟩
        rfl
  | pool id event =>
      apply Prog.Holds.bind
      apply (Prog.Holds.trivial _).imp
      rintro (e | pool) -
      · trivial
      · rintro _ ⟨⟩
        rfl
  | network id event =>
      apply Prog.Holds.bind
      apply (Prog.Holds.trivial _).imp
      rintro (e | net) -
      · trivial
      · rintro _ ⟨⟩
        rfl
  | closed reason =>
      rintro _ ⟨⟩

-- The value is one that the object can have.
def Fits (o : Obj) (y : Option Thing) : Prop := ∀ t ∈ y, t.kind = o.kind

theorem fits_thing (w : World) (o : Obj) : Fits o (thing w o) := by
  intro t ht
  unfold thing at ht
  split at ht <;> rename_i hkind <;>
    · obtain ⟨_, -, rfl⟩ := Option.mem_map.mp ht
      exact hkind.symm

theorem thing_setThing {w : World} {o' : Obj} {t : Option Thing} (hfits : Fits o t) :
    thing (setThing w o t) o' = if o = o' then t else thing w o' := by
  obtain ⟨kind, id⟩ := o
  obtain ⟨kind', id'⟩ := o'
  rcases t with _ | (d | p | n)
  · cases kind <;> cases kind' <;>
      simp only [setThing, thing, lookup_erase_eq, Obj.mk.injEq, reduceCtorEq, true_and,
        false_and, if_false] <;>
      split <;> rfl
  · cases hfits _ rfl
    cases kind' <;>
      simp only [setThing, thing, lookup_insert_eq, Obj.mk.injEq, reduceCtorEq, true_and,
        false_and, if_false]
    split <;> rfl
  · cases hfits _ rfl
    cases kind' <;>
      simp only [setThing, thing, lookup_insert_eq, Obj.mk.injEq, reduceCtorEq, true_and,
        false_and, if_false]
    split <;> rfl
  · cases hfits _ rfl
    cases kind' <;>
      simp only [setThing, thing, lookup_insert_eq, Obj.mk.injEq, reduceCtorEq, true_and,
        false_and, if_false]
    split <;> rfl

@[simp] theorem only_domain (id : Uuid) (d : Domain) :
    (only ⟨.vm, id⟩ (some (.domain d))).domain id = .ok d := by
  simp [only, World.domain, AList.lookup]

@[simp] theorem only_pool (id : Uuid) (p : StoragePool) :
    (only ⟨.pool, id⟩ (some (.pool p))).pool id = .ok p := by
  simp [only, World.pool, AList.lookup]

@[simp] theorem only_network (id : Uuid) (n : Network) :
    (only ⟨.network, id⟩ (some (.network n))).network id = .ok n := by
  simp [only, World.network, AList.lookup]

section Reads

variable [Xml.Xmltree] {may : (q : Query) → Except Error q.Result → Prop}
  {P : Option Entry → Prop}

-- A load reads the object in the loop of its kind, whatever the other calls return.
theorem load_returns
    (hvm : o.kind = .vm → ∀ refs, may .listAllDomains (.ok refs) →
      ListTo may P o vmOf Entry.vm refs)
    (hpool : o.kind = .pool → ∀ refs, may .listAllStoragePools (.ok refs) →
      ListTo may P o poolOf Entry.pool refs)
    (hnetwork : o.kind = .network → ∀ refs, may .listAllNetworks (.ok refs) →
      ListTo may P o networkOf Entry.network refs) :
    load.Returns may fun inv => P (inv.entry o) := by
  obtain ⟨kind, id⟩ := o
  cases kind with
  | vm =>
      apply holds_get _ (fun _ _ => trivial)
      intro refs hrefs
      apply Prog.Holds.bind
      apply (loadEach_self (fun inv => inv.entry_insertVm id) (fun ref => vmOf_uuid ref may)
        (hvm rfl refs hrefs) rfl).imp
      rintro (e | inv) hinv
      · trivial
      apply holds_get _ (fun _ _ => trivial)
      intro pools _
      apply Prog.Holds.bind
      apply (loadEach_other (o := ⟨.vm, id⟩) Inventory.insertPool (fun _ _ => rfl) rfl).imp
      rintro (e | inv') hinv'
      · trivial
      apply holds_get _ (fun _ _ => trivial)
      intro networks _
      apply (loadEach_other (o := ⟨.vm, id⟩) Inventory.insertNetwork (fun _ _ => rfl) hinv').imp
      rintro (e | inv'') hinv''
      · trivial
      · rw [outcome_ok] at hinv'' ⊢
        rw [hinv'']
        exact hinv
  | pool =>
      apply holds_get _ (fun _ _ => trivial)
      intro domains _
      apply Prog.Holds.bind
      apply (loadEach_other (o := ⟨.pool, id⟩) Inventory.insertVm (fun _ _ => rfl) rfl).imp
      rintro (e | inv) hinv
      · trivial
      apply holds_get _ (fun _ _ => trivial)
      intro refs hrefs
      apply Prog.Holds.bind
      apply (loadEach_self (fun inv => inv.entry_insertPool id) (fun ref => poolOf_uuid ref may)
        (hpool rfl refs hrefs) hinv).imp
      rintro (e | inv') hinv'
      · trivial
      apply holds_get _ (fun _ _ => trivial)
      intro networks _
      apply (loadEach_other (o := ⟨.pool, id⟩) Inventory.insertNetwork (fun _ _ => rfl) rfl).imp
      rintro (e | inv'') hinv''
      · trivial
      · rw [outcome_ok] at hinv'' ⊢
        rw [hinv'']
        exact hinv'
  | network =>
      apply holds_get _ (fun _ _ => trivial)
      intro domains _
      apply Prog.Holds.bind
      apply (loadEach_other (o := ⟨.network, id⟩) Inventory.insertVm (fun _ _ => rfl) rfl).imp
      rintro (e | inv) hinv
      · trivial
      apply holds_get _ (fun _ _ => trivial)
      intro pools _
      apply Prog.Holds.bind
      apply (loadEach_other (o := ⟨.network, id⟩) Inventory.insertPool (fun _ _ => rfl) hinv).imp
      rintro (e | inv') hinv'
      · trivial
      apply holds_get _ (fun _ _ => trivial)
      intro refs hrefs
      exact loadEach_self (fun inv => inv.entry_insertNetwork id)
        (fun ref => networkOf_uuid ref may) (hnetwork rfl refs hrefs) hinv'

-- A refresh looks the object up and reads its details.
theorem refresh_returns {e : Event} (he : e.obj = some o)
    (hvm : o.kind = .vm → DetailsTo may P Entry.vm (do
      let d : Ref ← get (.lookupDomainByUuid o.id)
      vmOf d))
    (hpool : o.kind = .pool → DetailsTo may P Entry.pool (do
      let p : Ref ← get (.lookupStoragePoolByUuid o.id)
      poolOf p))
    (hnetwork : o.kind = .network → DetailsTo may P Entry.network (do
      let n : Ref ← get (.lookupNetworkByUuid o.id)
      networkOf n)) :
    (refresh e).Returns may fun r => ∃ f, r = some f ∧ P f.entry := by
  cases e with
  | domain id change =>
      cases he
      exact goneIsNone_returns (fun _ => rfl) (hvm rfl)
  | pool id event =>
      cases he
      exact goneIsNone_returns (fun _ => rfl) (hpool rfl)
  | network id event =>
      cases he
      exact goneIsNone_returns (fun _ => rfl) (hnetwork rfl)
  | closed reason => cases he

end Reads

end Details

end Lodger.Cache
