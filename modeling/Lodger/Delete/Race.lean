import Lodger.Delete
import Lodger.Busy

namespace Lodger.Delete

open Lodger.Lib Lodger.Libvirt Lodger.Cache Lodger.Xml

section Logs

variable {id : Uuid} {log : List Made}

-- The calls made so far delete no volume.
def Keeps (log : List Made) : Prop := ∀ m ∈ log, ∀ v, m.call ≠ .command (.volDelete v)

-- A lookup of the domain, made after its undefine, has answered NoDomain.
def Gone (id : Uuid) (log : List Made) : Prop :=
  ∃ before d flags between e after, log =
    before ++ ⟨.command (.domainUndefineFlags d flags), .ok ()⟩ ::
      (between ++ ⟨.query (.lookupDomainByUuid id), .error e⟩ :: after) ∧
    d.id = id ∧ e.isCode .noDomain = true

-- What the log of a delete must look like at its end.
def Guarded (id : Uuid) (log : List Made) : Prop :=
  ∀ front v reply back, log = front ++ ⟨.command (.volDelete v), reply⟩ :: back → Gone id front

theorem Keeps.append {c : Call} {r : Except Error c.Result} (h : Keeps log)
    (hc : ∀ v, c ≠ .command (.volDelete v)) : Keeps (log ++ [⟨c, r⟩]) := by
  intro m hm
  rcases List.mem_append.mp hm with hm | hm
  · exact h m hm
  · obtain rfl := List.mem_singleton.mp hm
    exact hc

theorem Gone.append (h : Gone id log) (tail : List Made) : Gone id (log ++ tail) := by
  obtain ⟨before, d, flags, between, e, after, rfl, hid, he⟩ := h
  exact ⟨before, d, flags, between, e, after ++ tail, by simp, hid, he⟩

theorem Keeps.guarded (h : Keeps log) : Guarded id log := by
  rintro front v reply back rfl
  exact absurd rfl (h ⟨.command (.volDelete v), reply⟩ (by simp) v)

-- What comes after the lookup is guarded.
theorem Gone.guarded (hgone : Gone id log) (hkeeps : Keeps log) (tail : List Made) :
    Guarded id (log ++ tail) := by
  intro front v reply back heq
  rcases List.append_eq_append_iff.mp heq with ⟨mid, hfront, -⟩ | ⟨mid, hlog, -⟩
  · rw [hfront]
    exact hgone.append mid
  · cases mid with
    | nil =>
        rw [List.append_nil] at hlog
        exact hlog ▸ hgone
    | cons m rest =>
        -- The call would be one of those before the lookup.
        have hsplit := heq
        rw [hlog, List.append_assoc, List.append_cancel_left_eq, List.cons_append,
          List.cons.injEq] at hsplit
        exact absurd (by rw [hsplit.1]) (hkeeps m (by simp [hlog]) v)

end Logs

section Calls

variable [Libvirtd] {o : Outside} {ok : Busy → Call → Prop} {s : Busy × Prop} {id : Uuid}

theorem keeps_of_calls {α : Type} {p : Job α} (hs : Keeps s.1.log)
    (hp : p.Calls fun c => ∀ v, c ≠ .command (.volDelete v)) :
    p.Wp (turn o ok) (fun _ t => Keeps t.1.log) s := by
  refine Prog.Wp.of_calls (fun s : Busy × Prop => Keeps s.1.log) ?_ hp hs
  intro c hc s r t hmay hkeeps
  rw [turn_log hmay]
  exact hkeeps.append hc

theorem undefine_wp (d : Ref) (hs : Keeps s.1.log) :
    (undefine d).Wp (turn o ok) (fun r t => Keeps t.1.log ∧ (r = .ok () → ∃ front flags,
      t.1.log = front ++ [⟨.command (.domainUndefineFlags d flags), .ok ()⟩])) s := by
  have hone : ∀ flags (s : Busy × Prop), Keeps s.1.log →
      (command (.domainUndefineFlags d flags)).Wp (turn o ok) (fun r t => Keeps t.1.log ∧
        (r = .ok () → ∃ front flags,
          t.1.log = front ++ [⟨.command (.domainUndefineFlags d flags), .ok ()⟩])) s := by
    intro flags s hs r t hmay
    have hlog := turn_log hmay
    refine ⟨?_, ?_⟩
    · rw [hlog]
      exact hs.append nofun
    · rintro rfl
      exact ⟨s.1.log, flags, hlog⟩
  rw [undefine, Prog.wp_bind, Prog.wp_attempt]
  refine (hone _ s hs).imp ?_
  intro r t ht
  cases r with
  | ok a => exact ht
  | error e =>
      refine Prog.Wp.ite (fun _ => hone _ t ht.1) (fun _ => ?_)
      exact ⟨ht.1, nofun⟩

-- The loop reports its failures: it never fails itself.
theorem removeTargets_wp (users : List (String × String)) (targets : List Target) (report : Removal) :
    (removeTargets users targets report).Wp (turn o ok) (fun r t => (∃ report, r = .ok report) ∧
      ∃ tail, t.1.log = s.1.log ++ tail) s := by
  have hone : ∀ (target : Target) (t : Busy × Prop), (removeTarget users target).Wp (turn o ok)
      (fun r u => (∃ reason, r = .ok reason) ∧ ∃ tail, u.1.log = t.1.log ++ tail) t := by
    intro target t
    have hnone : ∃ tail, t.1.log = t.1.log ++ tail := ⟨[], by simp⟩
    refine Prog.Wp.ite (fun _ => ⟨⟨_, rfl⟩, hnone⟩) fun _ => ?_
    cases users.lookup target.key with
    | some user => exact ⟨⟨_, rfl⟩, hnone⟩
    | none =>
        simp only [Prog.wp_bind, Prog.wp_attempt]
        intro r u hlookup
        have hu := turn_log hlookup
        cases r with
        | error e =>
            refine Prog.Wp.ite (fun _ => ⟨⟨_, rfl⟩, _, hu⟩) fun _ => ⟨⟨_, rfl⟩, _, hu⟩
        | ok v =>
            simp only [outcome_ok]
            intro r x hdelete
            have hx := turn_log hdelete
            rw [hu, List.append_assoc] at hx
            cases r with
            | error e => exact ⟨⟨_, rfl⟩, _, hx⟩
            | ok a => exact ⟨⟨_, rfl⟩, _, hx⟩
  apply Prog.Wp.foldlM (fun _ _ t => ∃ tail, t.1.log = s.1.log ++ tail)
  · intro report t ht
    exact ⟨⟨report, rfl⟩, ht⟩
  · rintro target rest report t ⟨tail, ht⟩
    rw [Prog.wp_bind]
    refine (hone target t).imp ?_
    rintro r u ⟨⟨reason, rfl⟩, more, hu⟩
    have hlog : ∃ tail, u.1.log = s.1.log ++ tail := ⟨tail ++ more, by rw [hu, ht, List.append_assoc]⟩
    cases reason with
    | none => exact hlog
    | some reason => exact hlog
  · exact ⟨[], by simp⟩

theorem lookup_id {s t : Busy × Prop} {d : Ref}
    (h : turn o ok s (.query (.lookupDomainByUuid id)) (.ok d) t) : d.id = id := by
  obtain ⟨-, hquery, -⟩ := turn_query_ok h
  simp only [World.query] at hquery
  cases hd : (s.1.arrive o).domain id with
  | error e => simp [hd, Except.map] at hquery
  | ok x =>
      rw [hd] at hquery
      obtain rfl := Except.ok.inj hquery
      rfl

-- The end of a delete, from the undefine on.
theorem finish_wp {d : Ref} (hd : d.id = id) (users : List (String × String)) (targets : List Target)
    (report : Removal) (hs : Keeps s.1.log) :
    (do
      undefine d
      match ← (query (.lookupDomainByUuid id)).attempt with
      | .ok _ => .fail (.wrongState ("the VM started during the delete: libvirt removed its " ++
          "definition, but it runs until it stops, and every disk stays"))
      | .error e =>
          if e.isCode .noDomain then removeTargets users targets report
          else .fail e : Job Removal).Wp (turn o ok)
      (fun r t => ((∃ e, r = .error e) → Keeps t.1.log) ∧ Guarded id t.1.log) s := by
  rw [Prog.wp_bind]
  refine (undefine_wp d hs).imp ?_
  intro r t ht
  obtain ⟨hkeeps, hundefined⟩ := ht
  cases r with
  | error e => exact ⟨fun _ => hkeeps, hkeeps.guarded⟩
  | ok a =>
      obtain ⟨front, flags, hlog⟩ := hundefined rfl
      rw [outcome_ok, Prog.wp_bind, Prog.wp_attempt]
      intro r u hlookup
      have hu := turn_log hlookup
      have hkeeps' : Keeps u.1.log := by
        rw [hu]
        exact hkeeps.append nofun
      cases r with
      | ok found => exact ⟨fun _ => hkeeps', hkeeps'.guarded⟩
      | error e =>
          refine Prog.Wp.ite (fun he => ?_) fun _ => ⟨fun _ => hkeeps', hkeeps'.guarded⟩
          have hgone : Gone id u.1.log := by
            refine ⟨front, d, flags, [], e, [], ?_, hd, he⟩
            rw [hu, hlog]
            simp
          refine (removeTargets_wp users targets report).imp ?_
          rintro r x ⟨⟨report, rfl⟩, tail, hx⟩
          refine ⟨nofun, ?_⟩
          rw [hx]
          exact hgone.guarded hkeeps' tail

variable [FileSystem] [Xmltree]

theorem deleteOn_wp (id : Uuid) (removeVolumes : Bool) (hs : Keeps s.1.log) :
    (deleteOn id removeVolumes).Wp (turn o ok)
      (fun r t => ((∃ e, r = .error e) → Keeps t.1.log) ∧ Guarded id t.1.log) s := by
  have hquery : ∀ {s t : Busy × Prop} {q : Query} {r : Except Error q.Result},
      Keeps s.1.log → turn o ok s (.query q) r t → Keeps t.1.log := by
    intro s t q r hs hmay
    rw [turn_log hmay]
    exact hs.append nofun
  refine wp_turn_query ?_ fun e t hmay => ⟨fun _ => hquery hs hmay, (hquery hs hmay).guarded⟩
  intro d t hlookup
  have hd := lookup_id hlookup
  have ht := hquery hs hlookup
  refine wp_turn_query ?_ fun e t hmay => ⟨fun _ => hquery ht hmay, (hquery ht hmay).guarded⟩
  intro (active : Bool) u hactive
  have hu := hquery ht hactive
  refine Prog.Wp.ite (fun _ => ⟨fun _ => hu, hu.guarded⟩) fun _ => ?_
  refine Prog.wp_bind.mpr ((keeps_of_calls hu (reading_calls (fun _ _ => nofun) _)).imp ?_)
  intro r x hx
  cases r with
  | error e => exact ⟨fun _ => hx, hx.guarded⟩
  | ok found =>
      refine Prog.wp_bind.mpr ((keeps_of_calls hx (reading_calls (fun _ _ => nofun) _)).imp ?_)
      intro r y hy
      cases r with
      | error e => exact ⟨fun _ => hy, hy.guarded⟩
      | ok users => exact finish_wp hd users found.1 found.2 hy

-- A delete that fails, or that another client's start races with, deletes no disk,
-- whatever the other clients do between its calls and whichever calls fail.
theorem failed_delete_keeps_disks (o : Outside) (w : World) (id : Uuid) (removeVolumes : Bool) :
    ((∃ e, (busily o (deleteOn id removeVolumes) w).1 = .error e) →
      Keeps (busily o (deleteOn id removeVolumes) w).2.log) ∧
    Guarded id (busily o (deleteOn id removeVolumes) w).2.log := by
  have hstart : Keeps (⟨w, []⟩ : Busy).log :=
    fun _ hm => absurd hm List.not_mem_nil
  have hwp : (deleteOn id removeVolumes).Wp (turn o fun _ _ => True) _ (⟨w, []⟩, True) :=
    deleteOn_wp id removeVolumes hstart
  exact hwp.run

end Calls

end Lodger.Delete
