import Lodger.Jobs.Lemmas

namespace Lodger.Jobs

open Lodger.Lib Lodger.Libvirt Lodger.Cache

variable [Xml.Xmltree] [Libvirtd]

-- The replies of libvirt to the calls of one operation in a careful run.
def may (op : Op) (before : World) (s : Env) (c : Call) (r : Except Error c.Result) (t : Env) :
    Prop :=
  ∃ fault, Careful s op before fault c ∧ s.reply fault c = (r, t)

-- Right after a call that failed.
def Forgiven (op : Op) (before : World) (s : Env) (c : Call) : Prop :=
  s.unannounced = [] ∨ tolerates op before c = true

variable {op : Op} {before : World} {s t : Env} {α : Type}

section Replies

theorem may_query {q : Query} {r : Except Error q.Result} (h : may op before s (.query q) r t) :
    t = s ∧ (r = s.world.query q ∨ ∃ e, r = .error e) ∧
      (∀ e, r = .error e → Forgiven op before s (.query q)) := by
  obtain ⟨fault, hcareful, hreply⟩ := h
  cases hreply
  refine ⟨rfl, ?_, ?_⟩
  · cases fault with
    | none => exact .inl rfl
    | some e => exact .inr ⟨_, rfl⟩
  · intro e he
    apply hcareful.1
    simp only [Env.reply, he]
    rfl

theorem may_send {e : Event} {r : Except Error Unit} (h : may op before s (.send e) r t) :
    r = .ok () ∧ t = s.after s.world [e] := by
  obtain ⟨fault, -, hreply⟩ := h
  cases hreply
  exact ⟨rfl, rfl⟩

theorem may_command {c : Command} {r : Except Error c.Result}
    (h : may op before s (.command c) r t) :
    (∃ p, s.world.perform c = .ok p ∧ r = .ok p.result ∧ t = s.after p.world p.events) ∨
    (∃ e, r = .error e ∧ t = s ∧ Forgiven op before s (.command c)) := by
  obtain ⟨fault, hcareful, hreply⟩ := h
  have hfails (hfail : (s.reply fault (.command c)).1.isOk = false) :
      Forgiven op before s (.command c) := hcareful.1 hfail
  cases fault with
  | some e =>
      cases hreply
      exact .inr ⟨_, rfl, rfl, hfails rfl⟩
  | none =>
      simp only [Env.reply] at hreply hfails
      split at hreply
      · rename_i p hp
        cases hreply
        exact .inl ⟨p, hp, rfl, rfl⟩
      · rename_i e he
        cases hreply
        rw [he] at hfails
        exact .inr ⟨e, rfl, rfl, hfails rfl⟩

end Replies

-- One rule for each kind of call.
section Rules

variable {post : Except Error α → Env → Prop}

theorem wp_query {q : Query} {post : Except Error q.Result → Env → Prop}
    (hok : ∀ a, s.world.query q = .ok a → post (.ok a) s)
    (herror : ∀ e, Forgiven op before s (.query q) → post (.error e) s) :
    (query q).Wp (may op before) post s := by
  intro r t hr
  obtain ⟨rfl, hr, hforgiven⟩ := may_query hr
  cases r with
  | ok a =>
      rcases hr with hr | ⟨e, hr⟩
      · exact hok a hr.symm
      · cases hr
  | error e => exact herror e (hforgiven e rfl)

theorem wp_command {c : Command} {post : Except Error c.Result → Env → Prop}
    (hok : ∀ p, s.world.perform c = .ok p → Effect s.world c p.world p.events →
      post (.ok p.result) (s.after p.world p.events))
    (herror : ∀ e, Forgiven op before s (.command c) → post (.error e) s) :
    (command c).Wp (may op before) post s := by
  intro r t hr
  rcases may_command hr with ⟨p, hp, rfl, rfl⟩ | ⟨e, rfl, rfl, hforgiven⟩
  · exact hok p hp (perform_effect c p hp)
  · exact herror e hforgiven

theorem wp_send {e : Event} {post : Except Error Unit → Env → Prop}
    (h : post (.ok ()) (s.after s.world [e])) : (send e).Wp (may op before) post s := by
  intro r t hr
  obtain ⟨rfl, rfl⟩ := may_send hr
  exact h

-- Reads change nothing, and each reply is libvirt's own or an error.
theorem wp_reading {p : Read α}
    (h : p.Holds (fun q r => r = s.world.query q ∨ ∃ e, r = .error e) fun r => post r s) :
    (reading p).Wp (may op before) post s := by
  induction p with
  | done r => exact h
  | call q k ih =>
      intro r t hr
      obtain ⟨rfl, hr, -⟩ := may_query hr
      have hmap : r.map (fun a => a) = r := by cases r <;> rfl
      simp only
      rw [hmap]
      exact ih r (h r hr)

theorem wp_query_bind {q : Query} {f : q.Result → Job α}
    (hok : ∀ a, s.world.query q = .ok a → (f a).Wp (may op before) post s)
    (herror : ∀ e, Forgiven op before s (.query q) → post (.error e) s) :
    (query q >>= f).Wp (may op before) post s :=
  Prog.wp_bind.mpr (wp_query hok herror)

theorem wp_command_bind {c : Command} {f : c.Result → Job α}
    (hok : ∀ p, s.world.perform c = .ok p → Effect s.world c p.world p.events →
      (f p.result).Wp (may op before) post (s.after p.world p.events))
    (herror : ∀ e, Forgiven op before s (.command c) → post (.error e) s) :
    (command c >>= f).Wp (may op before) post s :=
  Prog.wp_bind.mpr (wp_command hok herror)

end Rules

end Lodger.Jobs
