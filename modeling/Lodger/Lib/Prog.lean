import Mathlib

namespace Lodger.Lib

-- A program that makes calls to another party, one at a time, and may fail.
-- Between two calls the other party may do anything, so what a program sees is
-- only the replies. `done (.error e)` is an early return with the error.
inductive Prog (C : Type) (T : C → Type) (ε α : Type) where
  | done (r : Except ε α)
  | call (c : C) (k : Except ε (T c) → Prog C T ε α)

-- A postcondition with one part for each way to end.
def Outcome {ε α : Type} (ok : α → Prop) (error : ε → Prop) : Except ε α → Prop
  | .ok a => ok a
  | .error e => error e

@[simp] theorem outcome_ok {ε α : Type} {ok : α → Prop} {error : ε → Prop} {a : α} :
    Outcome ok error (.ok a) ↔ ok a := Iff.rfl

@[simp] theorem outcome_error {ε α : Type} {ok : α → Prop} {error : ε → Prop} {e : ε} :
    Outcome ok error (.error e) ↔ error e := Iff.rfl

namespace Prog

variable {C : Type} {T : C → Type} {ε α β : Type}

def bind : Prog C T ε α → (α → Prog C T ε β) → Prog C T ε β
  | .done (.ok a), f => f a
  | .done (.error e), _ => .done (.error e)
  | .call c k, f => .call c fun r => (k r).bind f

instance : Monad (Prog C T ε) where
  pure a := .done (.ok a)
  bind := bind

def fail (e : ε) : Prog C T ε α := .done (.error e)

def ask (c : C) : Prog C T ε (T c) := .call c .done

-- The result as a value, for code that looks at an error instead of passing
-- it on.
def attempt : Prog C T ε α → Prog C T ε (Except ε α)
  | .done r => .done (.ok r)
  | .call c k => .call c fun r => (k r).attempt

@[simp] theorem pure_eq (a : α) : (pure a : Prog C T ε α) = .done (.ok a) := rfl

@[simp] theorem done_ok_bind (a : α) (f : α → Prog C T ε β) : (.done (.ok a) >>= f) = f a := rfl

@[simp] theorem done_error_bind (e : ε) (f : α → Prog C T ε β) :
    ((.done (.error e) : Prog C T ε α) >>= f) = .done (.error e) := rfl

@[simp] theorem call_bind (c : C) (k : Except ε (T c) → Prog C T ε α) (f : α → Prog C T ε β) :
    (.call c k >>= f) = .call c fun r => k r >>= f := rfl

-- Every result that is reached when each reply is one that `may` allows.
section Holds

variable {may may' : (c : C) → Except ε (T c) → Prop} {post post' : Except ε α → Prop}

def Holds (may : (c : C) → Except ε (T c) → Prop) (post : Except ε α → Prop) :
    Prog C T ε α → Prop
  | .done r => post r
  | .call c k => ∀ r, may c r → (k r).Holds may post

-- The same for programs whose errors say nothing.
abbrev Returns (may : (c : C) → Except ε (T c) → Prop) (ok : α → Prop) (p : Prog C T ε α) : Prop :=
  p.Holds may (Outcome ok fun _ => True)

@[simp] theorem holds_done {r : Except ε α} :
    (.done r : Prog C T ε α).Holds may post ↔ post r := Iff.rfl

@[simp] theorem holds_fail {e : ε} :
    (fail e : Prog C T ε α).Holds may post ↔ post (.error e) := Iff.rfl

theorem Holds.imp {p : Prog C T ε α} (h : p.Holds may post) (hpost : ∀ r, post r → post' r) :
    p.Holds may post' := by
  induction p with
  | done r => exact hpost r h
  | call c k ih => exact fun r hr => ih r (h r hr)

theorem Holds.mono {p : Prog C T ε α} (h : p.Holds may post) (hmay : ∀ c r, may' c r → may c r) :
    p.Holds may' post := by
  induction p with
  | done r => exact h
  | call c k ih => exact fun r hr => ih r (h r (hmay c r hr))

theorem Holds.and {p : Prog C T ε α} (h : p.Holds may post) (h' : p.Holds may post') :
    p.Holds may fun r => post r ∧ post' r := by
  induction p with
  | done r => exact ⟨h, h'⟩
  | call c k ih => exact fun r hr => ih r (h r hr) (h' r hr)

theorem Holds.trivial (p : Prog C T ε α) : p.Holds may fun _ => True := by
  induction p with
  | done r => exact True.intro
  | call c k ih => exact fun r _ => ih r

theorem Holds.ask {c : C} {post : Except ε (T c) → Prop} (h : ∀ r, may c r → post r) :
    (Prog.ask c).Holds may post := h

theorem Holds.bind {p : Prog C T ε α} {f : α → Prog C T ε β} {post : Except ε β → Prop}
    (h : p.Holds may (Outcome (fun a => (f a).Holds may post) fun e => post (.error e))) :
    (p >>= f).Holds may post := by
  induction p with
  | done r =>
      cases r with
      | ok a => exact h
      | error e => exact h
  | call c k ih => exact fun r hr => ih r (h r hr)

theorem Holds.attempt {p : Prog C T ε α} {post : Except ε (Except ε α) → Prop}
    (h : p.Holds may fun r => post (.ok r)) : p.attempt.Holds may post := by
  induction p with
  | done r => exact h
  | call c k ih => exact fun r hr => ih r (h r hr)

-- A loop with an accumulator: `inv` describes it before each item.
theorem Holds.foldlM {δ : Type} {f : β → δ → Prog C T ε β} {post : Except ε β → Prop}
    (inv : List δ → β → Prop) (hnil : ∀ b, inv [] b → post (.ok b))
    (hcons : ∀ x rest b, inv (x :: rest) b →
      (f b x).Holds may (Outcome (inv rest) fun e => post (.error e)))
    {items : List δ} {b : β} (h : inv items b) : (items.foldlM f b).Holds may post := by
  induction items generalizing b with
  | nil => exact hnil b h
  | cons x rest ih =>
      rw [List.foldlM_cons]
      apply Holds.bind
      apply (hcons x rest b h).imp
      intro r hr
      cases r with
      | ok b' => exact ih hr
      | error e => exact hr

end Holds

-- The same against a party with a state: `may s c r t` says that in state `s`
-- the call may return `r` and leave `t`.
section Wp

variable {σ : Type} {may : σ → (c : C) → Except ε (T c) → σ → Prop} {s : σ}

def Wp (may : σ → (c : C) → Except ε (T c) → σ → Prop) (post : Except ε α → σ → Prop) :
    Prog C T ε α → σ → Prop
  | .done r, s => post r s
  | .call c k, s => ∀ r t, may s c r t → (k r).Wp may post t

@[simp] theorem wp_done {r : Except ε α} {post : Except ε α → σ → Prop} :
    (.done r : Prog C T ε α).Wp may post s ↔ post r s := Iff.rfl

@[simp] theorem wp_fail {e : ε} {post : Except ε α → σ → Prop} :
    (fail e : Prog C T ε α).Wp may post s ↔ post (.error e) s := Iff.rfl

theorem wp_ask {c : C} {post : Except ε (T c) → σ → Prop} :
    (ask c).Wp may post s ↔ ∀ r t, may s c r t → post r t := Iff.rfl

theorem wp_bind {p : Prog C T ε α} {f : α → Prog C T ε β} {post : Except ε β → σ → Prop} :
    (p >>= f).Wp may post s ↔ p.Wp may (fun r t =>
      Outcome (fun a => (f a).Wp may post t) (fun e => post (.error e) t) r) s := by
  induction p generalizing s with
  | done r => cases r <;> rfl
  | call c k ih => exact forall₃_congr fun r t _ => ih r

theorem wp_attempt {p : Prog C T ε α} {post : Except ε (Except ε α) → σ → Prop} :
    p.attempt.Wp may post s ↔ p.Wp may (fun r t => post (.ok r) t) s := by
  induction p generalizing s with
  | done r => rfl
  | call c k ih => exact forall₃_congr fun r t _ => ih r

theorem Wp.ite {b : Prop} [Decidable b] {p q : Prog C T ε α} {post : Except ε α → σ → Prop}
    (hp : b → p.Wp may post s) (hq : ¬b → q.Wp may post s) :
    (if b then p else q).Wp may post s := by
  split
  · exact hp ‹_›
  · exact hq ‹_›

theorem Wp.imp {p : Prog C T ε α} {post post' : Except ε α → σ → Prop} (h : p.Wp may post s)
    (hpost : ∀ r t, post r t → post' r t) : p.Wp may post' s := by
  induction p generalizing s with
  | done r => exact hpost r s h
  | call c k ih => exact fun r t hr => ih r (h r t hr)

theorem Wp.and {p : Prog C T ε α} {post post' : Except ε α → σ → Prop} (h : p.Wp may post s)
    (h' : p.Wp may post' s) : p.Wp may (fun r t => post r t ∧ post' r t) s := by
  induction p generalizing s with
  | done r => exact ⟨h, h'⟩
  | call c k ih => exact fun r t hr => ih r (h r t hr) (h' r t hr)

theorem Wp.foldlM {δ : Type} {f : β → δ → Prog C T ε β} {post : Except ε β → σ → Prop}
    (inv : List δ → β → σ → Prop) (hnil : ∀ b s, inv [] b s → post (.ok b) s)
    (hcons : ∀ x rest b s, inv (x :: rest) b s → (f b x).Wp may (fun r t =>
      Outcome (fun b => inv rest b t) (fun e => post (.error e) t) r) s)
    {items : List δ} {b : β} (h : inv items b s) : (items.foldlM f b).Wp may post s := by
  induction items generalizing b s with
  | nil => exact hnil b s h
  | cons x rest ih =>
      rw [List.foldlM_cons, wp_bind]
      apply (hcons x rest b s h).imp
      rintro (e | b') t hr
      · exact hr
      · exact ih hr

end Wp

-- The calls that a program can make, whatever the replies are.
section Calls

variable {P : C → Prop}

def Calls (P : C → Prop) : Prog C T ε α → Prop
  | .done _ => True
  | .call c k => P c ∧ ∀ r, (k r).Calls P

theorem Calls.imp {Q : C → Prop} {p : Prog C T ε α} (h : p.Calls P) (hPQ : ∀ c, P c → Q c) :
    p.Calls Q := by
  induction p with
  | done r => trivial
  | call c k ih => exact ⟨hPQ c h.1, fun r => ih r (h.2 r)⟩

theorem calls_trivial (p : Prog C T ε α) : p.Calls fun _ => True := by
  induction p with
  | done r => trivial
  | call c k ih => exact ⟨trivial, ih⟩

theorem Calls.bind {p : Prog C T ε α} {f : α → Prog C T ε β} (h : p.Calls P)
    (hf : ∀ a, (f a).Calls P) : (p >>= f).Calls P := by
  induction p with
  | done r =>
      cases r with
      | ok a => exact hf a
      | error e => trivial
  | call c k ih => exact ⟨h.1, fun r => ih r (h.2 r)⟩

theorem Calls.ite {b : Prop} [Decidable b] {p q : Prog C T ε α} (hp : p.Calls P) (hq : q.Calls P) :
    (if b then p else q).Calls P := by
  split
  · exact hp
  · exact hq

theorem Calls.attempt {p : Prog C T ε α} (h : p.Calls P) : p.attempt.Calls P := by
  induction p with
  | done r => trivial
  | call c k ih => exact ⟨h.1, fun r => ih r (h.2 r)⟩

theorem Calls.foldlM {δ : Type} {f : β → δ → Prog C T ε β} (h : ∀ b x, (f b x).Calls P)
    (items : List δ) (b : β) : (items.foldlM f b).Calls P := by
  induction items generalizing b with
  | nil => trivial
  | cons x rest ih =>
      rw [List.foldlM_cons]
      exact (h b x).bind ih

-- What every call keeps holds at the end.
theorem Wp.of_calls {σ : Type} {may : σ → (c : C) → Except ε (T c) → σ → Prop} {s : σ}
    (inv : σ → Prop) (hinv : ∀ c, P c → ∀ s r t, may s c r t → inv s → inv t)
    {p : Prog C T ε α} (hp : p.Calls P) (hs : inv s) : p.Wp may (fun _ => inv) s := by
  induction p generalizing s with
  | done r => exact hs
  | call c k ih => exact fun r t hr => ih r (hp.2 r) (hinv c hp.1 s r t hr hs)

end Calls

-- One run against a party that always answers the same.
section Eval

variable {answer answer' : (c : C) → Except ε (T c)}

def eval (answer : (c : C) → Except ε (T c)) : Prog C T ε α → Except ε α
  | .done r => r
  | .call c k => (k (answer c)).eval answer

@[simp] theorem eval_done (r : Except ε α) : (.done r : Prog C T ε α).eval answer = r := rfl

@[simp] theorem eval_fail (e : ε) : (fail e : Prog C T ε α).eval answer = .error e := rfl

@[simp] theorem eval_ask (c : C) : (ask c : Prog C T ε (T c)).eval answer = answer c := rfl

@[simp] theorem eval_bind (p : Prog C T ε α) (f : α → Prog C T ε β) :
    (p >>= f).eval answer = p.eval answer >>= fun a => (f a).eval answer := by
  induction p with
  | done r => cases r <;> rfl
  | call c k ih => exact ih _

@[simp] theorem eval_attempt (p : Prog C T ε α) :
    p.attempt.eval answer = .ok (p.eval answer) := by
  induction p with
  | done r => rfl
  | call c k ih => exact ih _

theorem eval_foldlM {δ : Type} (f : β → δ → Prog C T ε β) (items : List δ) (b : β) :
    (items.foldlM f b).eval answer = items.foldlM (fun b x => (f b x).eval answer) b := by
  induction items generalizing b with
  | nil => rfl
  | cons x rest ih =>
      simp only [List.foldlM_cons, eval_bind]
      exact bind_congr fun b => ih b

theorem eval_foldlM_ok {δ : Type} {f : β → δ → Prog C T ε β} (g : β → δ → β) (items : List δ) (b : β)
    (h : ∀ b, ∀ x ∈ items, (f b x).eval answer = .ok (g b x)) :
    (items.foldlM f b).eval answer = .ok (items.foldl g b) := by
  induction items generalizing b with
  | nil => rfl
  | cons x rest ih =>
      rw [List.foldlM_cons, eval_bind, h b x List.mem_cons_self]
      exact ih (g b x) fun b y hy => h b y (List.mem_cons_of_mem _ hy)

-- A program that only makes calls with a known answer has a known result.
theorem Holds.of_eval {may : (c : C) → Except ε (T c) → Prop} {P : C → Prop} {p : Prog C T ε α}
    (hp : p.Calls P) (h : ∀ c r, P c → may c r → r = answer c) :
    p.Holds may fun r => r = p.eval answer := by
  induction p with
  | done r => exact rfl
  | call c k ih =>
      intro r hr
      obtain rfl := h c r hp.1 hr
      exact ih _ (hp.2 _)

end Eval

-- A program whose calls are calls of a larger kind.
def lift {C' : Type} {T' : C' → Type} (f : C → C') (g : ∀ c, T' (f c) → T c) :
    Prog C T ε α → Prog C' T' ε α
  | .done r => .done r
  | .call c k => .call (f c) fun r => (k (r.map (g c))).lift f g

theorem eval_lift {C' : Type} {T' : C' → Type} {f : C → C'} {g : ∀ c, T' (f c) → T c}
    {answer : (c : C) → Except ε (T c)} {answer' : (c : C') → Except ε (T' c)}
    (h : ∀ c, (answer' (f c)).map (g c) = answer c) (p : Prog C T ε α) :
    (p.lift f g).eval answer' = p.eval answer := by
  induction p with
  | done r => rfl
  | call c k ih =>
      show ((k ((answer' (f c)).map (g c))).lift f g).eval answer' = _
      rw [ih, h]
      rfl

-- One run, against a party with a state of its own.
section Run

variable {σ : Type}

def run (answer : (c : C) → σ → Except ε (T c) × σ) : Prog C T ε α → σ → Except ε α × σ
  | .done r, s => (r, s)
  | .call c k, s => (k (answer c s).1).run answer (answer c s).2

variable {answer : (c : C) → σ → Except ε (T c) × σ} {s : σ}

@[simp] theorem run_done (r : Except ε α) : (.done r : Prog C T ε α).run answer s = (r, s) := rfl

@[simp] theorem run_ask (c : C) : (ask c : Prog C T ε (T c)).run answer s = answer c s := rfl

theorem run_bind_ok {p : Prog C T ε α} {f : α → Prog C T ε β} {a : α} {t : σ}
    (h : p.run answer s = (.ok a, t)) : (p >>= f).run answer s = (f a).run answer t := by
  induction p generalizing s with
  | done r =>
      cases h
      rfl
  | call c k ih => exact ih _ h

theorem run_bind_error {p : Prog C T ε α} {f : α → Prog C T ε β} {e : ε} {t : σ}
    (h : p.run answer s = (.error e, t)) : (p >>= f).run answer s = (.error e, t) := by
  induction p generalizing s with
  | done r =>
      cases h
      rfl
  | call c k ih => exact ih _ h

theorem run_bind_eq_ok {p : Prog C T ε α} {f : α → Prog C T ε β} {b : β} {t : σ}
    (h : (p >>= f).run answer s = (.ok b, t)) :
    ∃ a u, p.run answer s = (.ok a, u) ∧ (f a).run answer u = (.ok b, t) := by
  cases hp : p.run answer s with
  | mk r u =>
      cases r with
      | error e =>
          rw [run_bind_error hp] at h
          cases h
      | ok a =>
          rw [run_bind_ok hp] at h
          exact ⟨a, u, rfl, h⟩

theorem run_bind_ok_iff {p : Prog C T ε α} {f : α → Prog C T ε β} {b : β} {t : σ} :
    (p >>= f).run answer s = (.ok b, t) ↔
      ∃ a u, p.run answer s = (.ok a, u) ∧ (f a).run answer u = (.ok b, t) := by
  constructor
  · exact run_bind_eq_ok
  · intro h
    obtain ⟨a, u, hp, hf⟩ := h
    rw [run_bind_ok hp, hf]

theorem run_attempt (p : Prog C T ε α) :
    p.attempt.run answer s = (.ok (p.run answer s).1, (p.run answer s).2) := by
  induction p generalizing s with
  | done r => rfl
  | call c k ih => exact ih _

-- Every call of the run meets `ok` in the state before it.
def Along (answer : (c : C) → σ → Except ε (T c) × σ) (ok : σ → C → Prop) :
    Prog C T ε α → σ → Prop
  | .done _, _ => True
  | .call c k, s => ok s c ∧ (k (answer c s).1).Along answer ok (answer c s).2

theorem Along.of_calls {P : C → Prop} {ok : σ → C → Prop} (inv : σ → Prop)
    (hinv : ∀ c, P c → ∀ s, inv s → ok s c ∧ inv (answer c s).2) {p : Prog C T ε α} (hp : p.Calls P)
    (hs : inv s) : p.Along answer ok s := by
  induction p generalizing s with
  | done r => trivial
  | call c k ih => exact ⟨(hinv c hp.1 s hs).1, ih _ (hp.2 _) (hinv c hp.1 s hs).2⟩

theorem along_trivial (p : Prog C T ε α) : p.Along answer (fun _ _ => True) s := by
  induction p generalizing s with
  | done r => trivial
  | call c k ih => exact ⟨trivial, ih _⟩

-- The rules for `Wp` hold of the one run, too. The state beside which they work also says
-- whether every call so far was permitted.
def marked (answer : (c : C) → σ → Except ε (T c) × σ) (ok : σ → C → Prop) (s : σ × Prop) (c : C)
    (r : Except ε (T c)) (t : σ × Prop) : Prop :=
  answer c s.1 = (r, t.1) ∧ t.2 = (s.2 ∧ ok s.1 c)

theorem Wp.run {ok : σ → C → Prop} {p : Prog C T ε α} {post : Except ε α → σ × Prop → Prop}
    {b : Prop} (h : p.Wp (marked answer ok) post (s, b)) :
    post (p.run answer s).1 ((p.run answer s).2, b ∧ p.Along answer ok s) := by
  induction p generalizing s b with
  | done r =>
      have hb : (b ∧ True) = b := and_true b
      simp only [run_done, Along, hb]
      exact h
  | call c k ih =>
      have hnext := ih (answer c s).1 (h _ ((answer c s).2, b ∧ ok s c) ⟨rfl, rfl⟩)
      rw [and_assoc] at hnext
      exact hnext

-- The same for a run whose calls are all known to be permitted.
def permitted (answer : (c : C) → σ → Except ε (T c) × σ) (ok : σ → C → Prop) (s : σ) (c : C)
    (r : Except ε (T c)) (t : σ) : Prop :=
  answer c s = (r, t) ∧ ok s c

theorem Wp.along {ok : σ → C → Prop} {p : Prog C T ε α} {post : Except ε α → σ → Prop}
    (h : p.Wp (permitted answer ok) post s) (hp : p.Along answer ok s) :
    post (p.run answer s).1 (p.run answer s).2 := by
  induction p generalizing s with
  | done r => exact h
  | call c k ih => exact ih _ (h _ _ ⟨rfl, hp.1⟩) hp.2

end Run

end Prog

end Lodger.Lib
