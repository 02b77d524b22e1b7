import Lodger.Libvirt.Command

namespace Lodger

open Lodger.Lib Lodger.Libvirt

-- Libvirt with other clients and failures. Before each call the other clients may do
-- something, and a call may fail for a reason of its own. Both may depend on the number of
-- calls so far, so nothing is said about when they happen.
structure Outside where
  acts : Nat → World → World := fun _ w => w
  faults : Nat → Call → Option VirtError := fun _ _ => none

structure Made where
  call : Call
  reply : Except Error call.Result

structure Busy where
  world : World
  log : List Made := []

variable [Libvirtd]

-- A call that fails changes nothing.
def reply (w : World) (fault : Option VirtError) (c : Call) : Except Error c.Result × World :=
  match fault with
  | some e => (.error (.libvirt e), w)
  | none =>
      match c with
      | .query q => (w.query q, w)
      | .send _ => (.ok (), w)
      | .command c =>
          match w.perform c with
          | .ok p => (.ok p.result, p.world)
          | .error e => (.error e, w)

-- The state in which libvirt gets the next call.
def Busy.arrive (o : Outside) (s : Busy) : World := o.acts s.log.length s.world

def Busy.answer (o : Outside) (c : Call) (s : Busy) : Except Error c.Result × Busy :=
  let (r, w) := reply (s.arrive o) (o.faults s.log.length c) c
  (r, ⟨w, s.log ++ [⟨c, r⟩]⟩)

def busily {α : Type} (o : Outside) (p : Job α) (w : World) : Except Error α × Busy :=
  p.run (Busy.answer o) ⟨w, []⟩

section Rules

variable {o : Outside} {ok : Busy → Call → Prop} {s t : Busy × Prop} {c : Call}
  {r : Except Error c.Result}

-- What one call can do, for the rules of `Wp`.
abbrev turn (o : Outside) (ok : Busy → Call → Prop) := Prog.marked (Busy.answer o) ok

theorem turn_log (h : turn o ok s c r t) : t.1.log = s.1.log ++ [⟨c, r⟩] := by
  have hanswer := h.1
  simp only [Busy.answer, Prod.mk.injEq] at hanswer
  rw [← hanswer.2, ← hanswer.1]

theorem turn_reply (h : turn o ok s c r t) :
    reply (s.1.arrive o) (o.faults s.1.log.length c) c = (r, t.1.world) := by
  have hanswer := h.1
  simp only [Busy.answer, Prod.mk.injEq] at hanswer
  rw [← hanswer.2, ← hanswer.1]

theorem turn_mark (h : turn o ok s c r t) : t.2 = (s.2 ∧ ok s.1 c) := h.2

-- A call that succeeds has no fault and does what libvirt does.
theorem turn_query_ok {q : Query} {a : q.Result} (h : turn o ok s (.query q) (.ok a) t) :
    o.faults s.1.log.length (.query q) = none ∧ (s.1.arrive o).query q = .ok a ∧
      t.1.world = s.1.arrive o := by
  have hreply := turn_reply h
  cases hf : o.faults s.1.log.length (.query q) with
  | some e => simp [reply, hf] at hreply
  | none =>
      simp only [reply, hf] at hreply
      obtain ⟨hanswer, hworld⟩ := Prod.mk.inj hreply
      exact ⟨rfl, hanswer, hworld.symm⟩

-- A query that libvirt answers fails only by a fault.
theorem turn_query_error {q : Query} {e : Error} {a : q.Result}
    (h : turn o ok s (.query q) (.error e) t) (ha : (s.1.arrive o).query q = .ok a) :
    (o.faults s.1.log.length (.query q)).isSome := by
  have hreply := turn_reply h
  cases hf : o.faults s.1.log.length (.query q) with
  | some fault => rfl
  | none =>
      simp only [reply, hf] at hreply
      rw [ha] at hreply
      cases congrArg Prod.fst hreply

theorem turn_query_world {q : Query} {r : Except Error q.Result} (h : turn o ok s (.query q) r t) :
    t.1.world = s.1.arrive o := by
  have hreply := turn_reply h
  cases hf : o.faults s.1.log.length (.query q) with
  | some e =>
      rw [hf] at hreply
      exact (congrArg Prod.snd hreply).symm
  | none =>
      rw [hf] at hreply
      exact (congrArg Prod.snd hreply).symm

theorem turn_command_ok {x : Command} {a : x.Result} (h : turn o ok s (.command x) (.ok a) t) :
    o.faults s.1.log.length (.command x) = none ∧ ∃ p, (s.1.arrive o).perform x = .ok p ∧
      p.result = a ∧ p.world = t.1.world := by
  have hreply := turn_reply h
  cases hf : o.faults s.1.log.length (.command x) with
  | some e => simp [reply, hf] at hreply
  | none =>
      cases hp : (s.1.arrive o).perform x with
      | error e => simp [reply, hf, hp] at hreply
      | ok p =>
          simp only [reply, hf, hp] at hreply
          obtain ⟨hanswer, hworld⟩ := Prod.mk.inj hreply
          exact ⟨rfl, p, rfl, Except.ok.inj hanswer, hworld⟩

-- A command that fails changes nothing: it has a fault, or libvirt refuses it.
theorem turn_command_error {x : Command} {e : Error} (h : turn o ok s (.command x) (.error e) t) :
    t.1.world = s.1.arrive o ∧ (o.faults s.1.log.length (.command x) = none →
      (s.1.arrive o).perform x = .error e) := by
  have hreply := turn_reply h
  cases hf : o.faults s.1.log.length (.command x) with
  | some fault =>
      rw [hf] at hreply
      exact ⟨(congrArg Prod.snd hreply).symm, nofun⟩
  | none =>
      cases hp : (s.1.arrive o).perform x with
      | ok p => simp [reply, hf, hp] at hreply
      | error fault =>
          simp only [reply, hf, hp] at hreply
          obtain ⟨hanswer, hworld⟩ := Prod.mk.inj hreply
          exact ⟨hworld.symm, fun _ => congrArg Except.error (Except.error.inj hanswer)⟩

-- A command that libvirt does and that has no fault is done.
theorem turn_command_done {x : Command} {r : Except Error x.Result} {p : Performed x.Result}
    (hfault : o.faults s.1.log.length (.command x) = none)
    (hp : (s.1.arrive o).perform x = .ok p) (h : turn o ok s (.command x) r t) :
    r = .ok p.result ∧ t.1.world = p.world := by
  have hreply := turn_reply h
  simp only [reply, hfault, hp] at hreply
  obtain ⟨hanswer, hworld⟩ := Prod.mk.inj hreply
  exact ⟨hanswer.symm, hworld.symm⟩

variable {α : Type} {post : Except Error α → Busy × Prop → Prop}

theorem wp_turn_query {q : Query} {f : q.Result → Job α}
    (hok : ∀ a t, turn o ok s (.query q) (.ok a) t → (f a).Wp (turn o ok) post t)
    (herror : ∀ e t, turn o ok s (.query q) (.error e) t → post (.error e) t) :
    (query q >>= f).Wp (turn o ok) post s := by
  intro r t h
  cases r with
  | ok a => exact hok a t h
  | error e => exact herror e t h

theorem wp_turn_command {x : Command} {f : x.Result → Job α}
    (hok : ∀ a t, turn o ok s (.command x) (.ok a) t → (f a).Wp (turn o ok) post t)
    (herror : ∀ e t, turn o ok s (.command x) (.error e) t → post (.error e) t) :
    (command x >>= f).Wp (turn o ok) post s := by
  intro r t h
  cases r with
  | ok a => exact hok a t h
  | error e => exact herror e t h

-- The log only grows, by the calls of the job.
theorem wp_turn_calls {P : Call → Prop} {p : Job α} (hp : p.Calls P) :
    p.Wp (turn o ok) (fun _ t => ∃ tail, t.1.log = s.1.log ++ tail ∧ ∀ m ∈ tail, P m.call) s := by
  refine Prog.Wp.of_calls (fun t : Busy × Prop => ∃ tail, t.1.log = s.1.log ++ tail ∧
    ∀ m ∈ tail, P m.call) ?_ hp
    ⟨[], (List.append_nil _).symm, fun _ hm => absurd hm List.not_mem_nil⟩
  rintro c hc t r u hturn ⟨tail, ht, htail⟩
  refine ⟨tail ++ [⟨c, r⟩], by rw [turn_log hturn, ht, List.append_assoc], ?_⟩
  intro m hm
  rcases List.mem_append.mp hm with hm | hm
  · exact htail m hm
  · obtain rfl := List.mem_singleton.mp hm
    exact hc

theorem wp_turn_log (p : Job α) :
    p.Wp (turn o ok) (fun _ t => ∃ tail, t.1.log = s.1.log ++ tail) s := by
  refine (wp_turn_calls p.calls_trivial).imp ?_
  rintro r t ⟨tail, ht, -⟩
  exact ⟨tail, ht⟩

end Rules

-- The rules for a run whose calls are all permitted.
section Permitted

variable {o : Outside} {ok : Busy → Call → Prop} {s t : Busy} {c : Call} {r : Except Error c.Result}

abbrev fair (o : Outside) (ok : Busy → Call → Prop) := Prog.permitted (Busy.answer o) ok

theorem turn_of_fair (h : fair o ok s c r t) :
    turn o (fun _ _ => True) (s, True) c r (t, True) := ⟨h.1, (and_true True).symm⟩

-- A part that only reads. What it finds depends on the replies alone, and all of these are
-- in the log at its end.
theorem wp_of_holds {α : Type} {P : Query → Prop} {known : (q : Query) → Except Error q.Result → Prop}
    {post : List Made → Except Error α → Prop} {inv : Busy → Prop}
    (hstep : ∀ q, P q → ∀ s r t, fair o ok s (.query q) r t → inv s → inv t ∧ known q r)
    {p : Prog Query Query.Result Error α} (hp : p.Calls P) (hs : inv s)
    (h : ∀ log, s.log ⊆ log → p.Holds (fun q r => ⟨.query q, r⟩ ∈ log ∧ known q r) (post log)) :
    p.Wp (fun s q r t => fair o ok s (.query q) r t) (fun r t => inv t ∧ post t.log r) s := by
  induction p generalizing s with
  | done r => exact ⟨hs, h s.log (List.Subset.refl _)⟩
  | call q k ih =>
      intro r t hmay
      obtain ⟨ht, hknown⟩ := hstep q hp.1 s r t hmay hs
      have hlog : t.log = s.log ++ [⟨.query q, r⟩] := turn_log (turn_of_fair hmay)
      refine ih r (hp.2 r) ht ?_
      intro log hsub
      rw [hlog] at hsub
      have hmem : ⟨.query q, r⟩ ∈ log := hsub (by simp)
      exact h log (fun m hm => hsub (List.mem_append_left _ hm)) r ⟨hmem, hknown⟩

end Permitted

end Lodger
