import Mathlib.Data.Nat.Notation
import Mathlib.Tactic.Common

set_option autoImplicit false

namespace NgkNet

/-- Code that reads and changes a state of type `σ`, throws exceptions and calls procedures by their
names in `F`. What follows a call is told whether it returned or threw. -/
inductive Prog (σ ε F α : Type) where
  | ret (a : α)
  | throw (e : ε)
  | update (g : σ → σ) (k : σ → Prog σ ε F α)
  | attempt (f : F) (k : Except ε Unit → Prog σ ε F α)

namespace Prog

variable {σ ε F α β : Type}

protected def bind : Prog σ ε F α → (α → Prog σ ε F β) → Prog σ ε F β
  | .ret a, h => h a
  | .throw e, _ => .throw e
  | .update g k, h => .update g (fun s => (k s).bind h)
  | .attempt f k, h => .attempt f (fun r => (k r).bind h)

instance : Monad (Prog σ ε F) where
  pure := .ret
  bind := .bind

def current : Prog σ ε F σ := .update id .ret

def change (g : σ → σ) : Prog σ ε F Unit := .update g (fun _ => .ret ())

def ofExcept : Except ε α → Prog σ ε F α
  | .ok a => .ret a
  | .error e => .throw e

def call (f : F) : Prog σ ε F Unit := .attempt f ofExcept

def guarded (f : F) (handler : ε → Prog σ ε F Unit) : Prog σ ε F Unit :=
  .attempt f (fun r => match r with
    | .ok _ => .ret ()
    | .error e => handler e)

def when (b : Bool) (p : Prog σ ε F Unit) : Prog σ ε F Unit := if b then p else pure ()

section Execution

def execWith (run : F → σ → Option (Except ε Unit × σ)) : Prog σ ε F α → σ → Option (Except ε α × σ)
  | .ret a, s => some (.ok a, s)
  | .throw e, s => some (.error e, s)
  | .update g k, s => execWith run (k s) (g s)
  | .attempt f k, s =>
    match run f s with
    | none => none
    | some (r, t) => execWith run (k r) t

variable (body : F → Prog σ ε F Unit)

def runProc : ℕ → F → σ → Option (Except ε Unit × σ)
  | 0, _, _ => none
  | n + 1, f, s => execWith (runProc n) (body f) s

def exec (n : ℕ) (p : Prog σ ε F α) (s : σ) : Option (Except ε α × σ) := execWith (runProc body n) p s

variable {body} {run run' : F → σ → Option (Except ε Unit × σ)} {p : Prog σ ε F α} {s t : σ} {r : Except ε α}

theorem execWith_mono (hrun : ∀ f s x, run f s = some x → run' f s = some x)
    (h : execWith run p s = some (r, t)) : execWith run' p s = some (r, t) := by
  induction p generalizing s with
  | ret a => exact h
  | throw e => exact h
  | update g k ih => exact ih s h
  | attempt f k ih =>
    rw [execWith] at h ⊢
    cases hf : run f s with
    | none => simp [hf] at h
    | some x =>
      rw [hf] at h
      rw [hrun f s x hf]
      exact ih x.1 h

theorem runProc_succ {n : ℕ} (f : F) (s : σ) (x : Except ε Unit × σ) (h : runProc body n f s = some x) :
    runProc body (n + 1) f s = some x := by
  induction n generalizing f s x with
  | zero => cases h
  | succ n ih => exact execWith_mono ih h

theorem exec_mono {m n : ℕ} (hmn : m ≤ n) (h : exec body m p s = some (r, t)) : exec body n p s = some (r, t) := by
  induction hmn with
  | refl => exact h
  | step _ ih => exact execWith_mono runProc_succ ih

theorem execWith_bind (h : α → Prog σ ε F β) (s : σ) :
    execWith run (p.bind h) s =
      match execWith run p s with
      | none => none
      | some (.ok a, t) => execWith run (h a) t
      | some (.error e, t) => some (.error e, t) := by
  induction p generalizing s with
  | ret a => rfl
  | throw e => rfl
  | update g k ih => exact ih s (g s)
  | attempt f k ih =>
    rw [Prog.bind, execWith, execWith]
    cases run f s with
    | none => rfl
    | some x => exact ih x.1 x.2

end Execution

section Evaluation

variable (body : F → Prog σ ε F Unit)

def Evals (p : Prog σ ε F α) (s : σ) (r : Except ε α) (t : σ) : Prop := ∃ n, exec body n p s = some (r, t)

variable {body} {p : Prog σ ε F α} {s t u : σ} {r : Except ε α}

theorem Evals.unique {r' : Except ε α} (h : Evals body p s r t) (h' : Evals body p s r' u) : r = r' ∧ t = u := by
  obtain ⟨m, hm⟩ := h
  obtain ⟨n, hn⟩ := h'
  have h := exec_mono (Nat.le_max_left m n) hm
  have h' := exec_mono (Nat.le_max_right m n) hn
  rw [h] at h'
  simpa using h'

theorem evals_pure (a : α) : Evals body (Pure.pure a : Prog σ ε F α) s (.ok a) s := ⟨0, rfl⟩

theorem evals_throw (e : ε) : Evals body (.throw e : Prog σ ε F α) s (.error e) s := ⟨0, rfl⟩

theorem evals_current : Evals body (current : Prog σ ε F σ) s (.ok s) s := ⟨0, rfl⟩

theorem evals_change (g : σ → σ) : Evals body (change g) s (.ok ()) (g s) := ⟨0, rfl⟩

theorem evals_update {g : σ → σ} {k : σ → Prog σ ε F α} (hk : Evals body (k s) (g s) r t) :
    Evals body (.update g k) s r t :=
  hk

theorem evals_bind {h : α → Prog σ ε F β} {a : α} {r : Except ε β} (hp : Evals body p s (.ok a) t)
    (hh : Evals body (h a) t r u) : Evals body (p >>= h) s r u := by
  obtain ⟨m, hm⟩ := hp
  obtain ⟨n, hn⟩ := hh
  refine ⟨max m n, ?_⟩
  have hm := exec_mono (Nat.le_max_left m n) hm
  have hn := exec_mono (Nat.le_max_right m n) hn
  change execWith _ (p.bind h) s = _
  rw [execWith_bind, show execWith _ p s = _ from hm]
  exact hn

theorem evals_bind_error {h : α → Prog σ ε F β} {e : ε} (hp : Evals body p s (.error e) t) :
    Evals body (p >>= h) s (.error e) t := by
  obtain ⟨n, hn⟩ := hp
  refine ⟨n, ?_⟩
  change execWith _ (p.bind h) s = _
  rw [execWith_bind, show execWith _ p s = _ from hn]

theorem evals_attempt {f : F} {k : Except ε Unit → Prog σ ε F α} {q : Except ε Unit}
    (hf : Evals body (body f) s q t) (hk : Evals body (k q) t r u) : Evals body (.attempt f k) s r u := by
  obtain ⟨m, hm⟩ := hf
  obtain ⟨n, hn⟩ := hk
  refine ⟨max m n + 1, ?_⟩
  have hm := exec_mono (Nat.le_max_left m n) hm
  have hn := exec_mono (Nat.le_succ_of_le (Nat.le_max_right m n)) hn
  have hf : runProc body (max m n + 1) f s = some (q, t) := hm
  rw [exec, execWith, hf]
  exact hn

theorem evals_call {f : F} {q : Except ε Unit} (hf : Evals body (body f) s q t) : Evals body (call f) s q t := by
  refine evals_attempt hf ?_
  cases q with
  | ok a => exact ⟨0, rfl⟩
  | error e => exact ⟨0, rfl⟩

theorem evals_guarded_ok {f : F} {handler : ε → Prog σ ε F Unit} (hf : Evals body (body f) s (.ok ()) t) :
    Evals body (guarded f handler) s (.ok ()) t :=
  evals_attempt hf ⟨0, rfl⟩

theorem evals_guarded_error {f : F} {handler : ε → Prog σ ε F Unit} {e : ε} {q : Except ε Unit}
    (hf : Evals body (body f) s (.error e) t) (hh : Evals body (handler e) t q u) :
    Evals body (guarded f handler) s q u :=
  evals_attempt hf hh

end Evaluation

section Ending

variable (body : F → Prog σ ε F Unit)

def Ends (p : Prog σ ε F α) (s : σ) (Q : α → σ → Prop) : Prop := ∃ a t, Evals body p s (.ok a) t ∧ Q a t

variable {body} {p : Prog σ ε F α} {s t : σ} {Q Q' : α → σ → Prop}

theorem ends_mono (h : Ends body p s Q) (hQ : ∀ a t, Q a t → Q' a t) : Ends body p s Q' := by
  obtain ⟨a, t, heval, hpost⟩ := h
  exact ⟨a, t, heval, hQ a t hpost⟩

theorem ends_of_evals {a : α} (h : Evals body p s (.ok a) t) (hQ : Q a t) : Ends body p s Q := ⟨a, t, h, hQ⟩

theorem ends_pure {a : α} (h : Q a s) : Ends body (pure a : Prog σ ε F α) s Q := ⟨a, s, evals_pure a, h⟩

theorem ends_bind {h : α → Prog σ ε F β} {R : β → σ → Prop} (hp : Ends body p s (fun a t => Ends body (h a) t R)) :
    Ends body (p >>= h) s R := by
  obtain ⟨a, t, hp, b, u, hh, hR⟩ := hp
  exact ⟨b, u, evals_bind hp hh, hR⟩

theorem ends_current {h : σ → Prog σ ε F β} {R : β → σ → Prop} (hh : Ends body (h s) s R) :
    Ends body (current >>= h) s R :=
  ends_bind ⟨s, s, evals_current, hh⟩

theorem ends_change {g : σ → σ} {h : Unit → Prog σ ε F β} {R : β → σ → Prop} (hh : Ends body (h ()) (g s) R) :
    Ends body (change g >>= h) s R :=
  ends_bind ⟨(), g s, evals_change g, hh⟩

theorem ends_change_last {g : σ → σ} {Q : Unit → σ → Prop} (h : Q () (g s)) : Ends body (change g) s Q :=
  ⟨(), g s, evals_change g, h⟩

theorem ends_call {f : F} {Q : Unit → σ → Prop} (h : Ends body (body f) s Q) : Ends body (call f) s Q := by
  obtain ⟨a, t, heval, hQ⟩ := h
  exact ⟨a, t, evals_call heval, hQ⟩

theorem ends_guarded {f : F} {handler : ε → Prog σ ε F Unit} {Q : Unit → σ → Prop} (h : Ends body (body f) s Q) :
    Ends body (guarded f handler) s Q := by
  obtain ⟨a, t, heval, hQ⟩ := h
  exact ⟨a, t, evals_guarded_ok heval, hQ⟩

theorem ends_attempt {f : F} {k : Except ε Unit → Prog σ ε F α}
    (h : Ends body (body f) s (fun _ t => Ends body (k (.ok ())) t Q)) : Ends body (.attempt f k) s Q := by
  obtain ⟨_, t, hf, a, u, hk, hQ⟩ := h
  exact ⟨a, u, evals_attempt hf hk, hQ⟩

end Ending

section Failing

variable {body : F → Prog σ ε F Unit} {p : Prog σ ε F α} {s : σ} {Q : σ → Prop}

def Fails (body : F → Prog σ ε F Unit) (p : Prog σ ε F α) (s : σ) (Q : σ → Prop) : Prop :=
  ∃ e t, Evals body p s (.error e) t ∧ Q t

theorem fails_first {h : α → Prog σ ε F β} (hp : Fails body p s Q) : Fails body (p >>= h) s Q := by
  obtain ⟨e, t, hp, hQ⟩ := hp
  exact ⟨e, t, evals_bind_error hp, hQ⟩

theorem fails_bind {h : α → Prog σ ε F β} (hp : Ends body p s (fun a t => Fails body (h a) t Q)) :
    Fails body (p >>= h) s Q := by
  obtain ⟨a, t, hp, e, u, hh, hQ⟩ := hp
  exact ⟨e, u, evals_bind hp hh, hQ⟩

theorem fails_current {h : σ → Prog σ ε F β} (hh : Fails body (h s) s Q) : Fails body (current >>= h) s Q :=
  fails_bind ⟨s, s, evals_current, hh⟩

theorem fails_change {g : σ → σ} {h : Unit → Prog σ ε F β} (hh : Fails body (h ()) (g s) Q) :
    Fails body (change g >>= h) s Q :=
  fails_bind ⟨(), g s, evals_change g, hh⟩

theorem ends_guarded_of_fails {f : F} {handler : ε → Prog σ ε F Unit} {R : Unit → σ → Prop}
    (h : Fails body (body f) s (fun t => ∀ e, Ends body (handler e) t R)) : Ends body (guarded f handler) s R := by
  obtain ⟨e, t, hf, hh⟩ := h
  obtain ⟨a, u, hh, hR⟩ := hh e
  exact ⟨a, u, evals_guarded_error hf hh, hR⟩

end Failing

section Contracts

abbrev Contract (σ ε F : Type) := F → σ → Except ε Unit → σ → Prop

variable (S : Contract σ ε F)

/-- Every end of the code satisfies `Q`, if the procedures that it calls keep their contracts. -/
def Meets : Prog σ ε F α → σ → (Except ε α → σ → Prop) → Prop
  | .ret a, s, Q => Q (.ok a) s
  | .throw e, s, Q => Q (.error e) s
  | .update g k, s, Q => Meets (k s) (g s) Q
  | .attempt f k, s, Q => ∀ r t, S f s r t → Meets (k r) t Q

variable {S} {body : F → Prog σ ε F Unit} {p : Prog σ ε F α} {s t : σ} {Q Q' : Except ε α → σ → Prop}

theorem meets_mono (h : Meets S p s Q) (hQ : ∀ r t, Q r t → Q' r t) : Meets S p s Q' := by
  induction p generalizing s with
  | ret a => exact hQ _ _ h
  | throw e => exact hQ _ _ h
  | update g k ih => exact ih s h
  | attempt f k ih => exact fun r t hf => ih r (h r t hf)

theorem meets_and (h : Meets S p s Q) (h' : Meets S p s Q') : Meets S p s (fun r t => Q r t ∧ Q' r t) := by
  induction p generalizing s with
  | ret a => exact ⟨h, h'⟩
  | throw e => exact ⟨h, h'⟩
  | update g k ih => exact ih s h h'
  | attempt f k ih => exact fun r t hf => ih r (h r t hf) (h' r t hf)

theorem meets_of_contract {S' : Contract σ ε F} (hS : ∀ f s r t, S' f s r t → S f s r t) (h : Meets S p s Q) :
    Meets S' p s Q := by
  induction p generalizing s with
  | ret a => exact h
  | throw e => exact h
  | update g k ih => exact ih s h
  | attempt f k ih => exact fun r t hf => ih r (h r t (hS f s r t hf))

theorem meets_imp {P : Prop} (h : P → Meets S p s Q) : Meets S p s (fun r t => P → Q r t) := by
  by_cases hP : P
  · exact meets_mono (h hP) (fun _ _ hQ _ => hQ)
  · clear h
    induction p generalizing s with
    | ret a => exact fun hP' => absurd hP' hP
    | throw e => exact fun hP' => absurd hP' hP
    | update g k ih => exact ih s
    | attempt f k ih => exact fun r t _ => ih r

theorem meets_bind {h : α → Prog σ ε F β} {R : Except ε β → σ → Prop}
    (hp : Meets S p s (fun r t => match r with
      | .ok a => Meets S (h a) t R
      | .error e => R (.error e) t)) : Meets S (p >>= h) s R := by
  induction p generalizing s with
  | ret a => exact hp
  | throw e => exact hp
  | update g k ih => exact ih s hp
  | attempt f k ih => exact fun r t hf => ih r (hp r t hf)

theorem meets_current {h : σ → Prog σ ε F β} {R : Except ε β → σ → Prop} :
    Meets S (current >>= h) s R = Meets S (h s) s R := rfl

theorem meets_change {g : σ → σ} {h : Unit → Prog σ ε F β} {R : Except ε β → σ → Prop} :
    Meets S (change g >>= h) s R = Meets S (h ()) (g s) R := rfl

theorem meets_call {f : F} {Q : Except ε Unit → σ → Prop} (h : ∀ r t, S f s r t → Q r t) : Meets S (call f) s Q := by
  intro r t hf
  cases r with
  | ok a => exact h _ _ hf
  | error e => exact h _ _ hf

theorem meets_guarded {f : F} {handler : ε → Prog σ ε F Unit} {Q : Except ε Unit → σ → Prop}
    (hok : ∀ t, S f s (.ok ()) t → Q (.ok ()) t)
    (herror : ∀ e t, S f s (.error e) t → Meets S (handler e) t Q) : Meets S (guarded f handler) s Q := by
  intro r t hf
  cases r with
  | ok a => exact hok t hf
  | error e => exact herror e t hf

theorem meets_execWith {run : F → σ → Option (Except ε Unit × σ)} (hrun : ∀ f s r t, run f s = some (r, t) → S f s r t)
    {r : Except ε α} (h : execWith run p s = some (r, t)) (hp : Meets S p s Q) : Q r t := by
  induction p generalizing s with
  | ret a =>
    cases h
    exact hp
  | throw e =>
    cases h
    exact hp
  | update g k ih => exact ih s h hp
  | attempt f k ih =>
    rw [execWith] at h
    cases hf : run f s with
    | none => simp [hf] at h
    | some x =>
      rw [hf] at h
      exact ih x.1 h (hp x.1 x.2 (hrun f s x.1 x.2 hf))

theorem contract_of_meets (hbody : ∀ f s, Meets S (body f) s (S f s)) {n : ℕ} (f : F) (s : σ) (r : Except ε Unit) (t : σ)
    (h : runProc body n f s = some (r, t)) : S f s r t := by
  induction n generalizing f s r t with
  | zero => cases h
  | succ n ih => exact meets_execWith ih h (hbody f s)

theorem Evals.meets (hbody : ∀ f s, Meets S (body f) s (S f s)) {r : Except ε α} (h : Evals body p s r t)
    (hp : Meets S p s Q) : Q r t := by
  obtain ⟨n, hn⟩ := h
  exact meets_execWith (contract_of_meets hbody) hn hp

end Contracts

section Guarantees

/-- An invariant together with a relation between the states before and after. -/
structure Guarantee (σ : Type) where
  inv : σ → Prop
  rel : σ → σ → Prop
  refl : ∀ s, rel s s
  trans : ∀ s t u, rel s t → rel t u → rel s u

def Guarantee.Kept (G : Guarantee σ) (s t : σ) : Prop := G.inv s → G.inv t ∧ G.rel s t

variable (S : Contract σ ε F) (G : Guarantee σ)

def Respects (p : Prog σ ε F α) : Prop := ∀ s, G.inv s → Meets S p s (fun _ t => G.inv t ∧ G.rel s t)

variable {S G} {p : Prog σ ε F α}

theorem Respects.kept (h : Respects S G p) (s : σ) : Meets S p s (fun _ t => G.Kept s t) := meets_imp (h s)

theorem respects_bind {h : α → Prog σ ε F β} (hp : Respects S G p) (hh : ∀ a, Respects S G (h a)) :
    Respects S G (p >>= h) := by
  intro s hs
  refine meets_bind (meets_mono (hp s hs) ?_)
  rintro (e | a) t ⟨ht, hst⟩
  · exact ⟨ht, hst⟩
  · exact meets_mono (hh a t ht) (fun r u hu => ⟨hu.1, G.trans s t u hst hu.2⟩)

theorem Respects.weaken {G' : Guarantee σ} (h : Respects S G p) (hinv : G'.inv = G.inv)
    (hrel : ∀ s t, G.rel s t → G'.rel s t) : Respects S G' p := by
  intro s hs
  rw [hinv] at hs ⊢
  exact meets_mono (h s hs) (fun _ t ht => ⟨ht.1, hrel s t ht.2⟩)

theorem respects_pure (a : α) : Respects S G (pure a) := fun s hs => ⟨hs, G.refl s⟩

theorem respects_throw (e : ε) : Respects S G (.throw e : Prog σ ε F α) := fun s hs => ⟨hs, G.refl s⟩

theorem respects_current : Respects S G current := fun s hs => ⟨hs, G.refl s⟩

theorem respects_change {g : σ → σ} (hg : ∀ s, G.Kept s (g s)) : Respects S G (change g) := hg

theorem respects_update {g : σ → σ} (hg : ∀ s, G.Kept s (g s)) {k : σ → Prog σ ε F α}
    (hk : ∀ s, Respects S G (k s)) : Respects S G (.update g k) := by
  intro s hs
  obtain ⟨ht, hst⟩ := hg s hs
  exact meets_mono (hk s (g s) ht) (fun r u hu => ⟨hu.1, G.trans s (g s) u hst hu.2⟩)

theorem respects_attempt {f : F} (hf : ∀ s r t, S f s r t → G.Kept s t) {k : Except ε Unit → Prog σ ε F α}
    (hk : ∀ r, Respects S G (k r)) : Respects S G (.attempt f k) := by
  intro s hs r t hcall
  obtain ⟨ht, hst⟩ := hf s r t hcall hs
  exact meets_mono (hk r t ht) (fun r u hu => ⟨hu.1, G.trans s t u hst hu.2⟩)

theorem respects_call {f : F} (hf : ∀ s r t, S f s r t → G.Kept s t) : Respects S G (call f) := by
  refine respects_attempt hf fun r => ?_
  cases r with
  | ok a => exact respects_pure a
  | error e => exact respects_throw e

theorem respects_guarded {f : F} (hf : ∀ s r t, S f s r t → G.Kept s t) {handler : ε → Prog σ ε F Unit}
    (hh : ∀ e, Respects S G (handler e)) : Respects S G (guarded f handler) := by
  refine respects_attempt hf fun r => ?_
  cases r with
  | ok a => exact respects_pure ()
  | error e => exact hh e

theorem respects_when {b : Bool} {p : Prog σ ε F Unit} (hp : Respects S G p) : Respects S G (when b p) := by
  cases b with
  | true => exact hp
  | false => exact respects_pure ()

end Guarantees

section Returning

variable (S : Contract σ ε F)

def Returns (p : Prog σ ε F α) : Prop := ∀ s, Meets S p s (fun r _ => ∃ a, r = .ok a)

variable {S} {p : Prog σ ε F α}

theorem returns_pure (a : α) : Returns S (pure a) := fun _ => ⟨a, rfl⟩

theorem returns_current : Returns S current := fun s => ⟨s, rfl⟩

theorem returns_change (g : σ → σ) : Returns S (change g) := fun _ => ⟨(), rfl⟩

theorem returns_bind {h : α → Prog σ ε F β} (hp : Returns S p) (hh : ∀ a, Returns S (h a)) : Returns S (p >>= h) := by
  intro s
  refine meets_bind (meets_mono (hp s) ?_)
  rintro _ t ⟨a, rfl⟩
  exact hh a t

theorem returns_attempt {f : F} {k : Except ε Unit → Prog σ ε F α} (hk : ∀ r, Returns S (k r)) :
    Returns S (.attempt f k) :=
  fun _ r t _ => hk r t

theorem returns_call {f : F} (hf : ∀ s r t, S f s r t → r = .ok ()) : Returns S (call f) :=
  fun s => meets_call fun r t h => ⟨(), hf s r t h⟩

theorem returns_guarded {f : F} {handler : ε → Prog σ ε F Unit} (hh : ∀ e, Returns S (handler e)) :
    Returns S (guarded f handler) := by
  refine returns_attempt fun r => ?_
  cases r with
  | ok a => exact returns_pure ()
  | error e => exact hh e

theorem returns_when {b : Bool} {p : Prog σ ε F Unit} (hp : Returns S p) : Returns S (when b p) := by
  cases b with
  | true => exact hp
  | false => exact returns_pure ()

end Returning

end Prog

end NgkNet
