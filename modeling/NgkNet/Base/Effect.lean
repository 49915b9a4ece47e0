import Mathlib.Data.Nat.Notation
import Mathlib.Tactic.Common

set_option autoImplicit false

namespace NgkNet

/-- A computation that may throw; what it did to the state before it threw stays. -/
structure Eff (ε σ α : Type) where
  run : σ → Except ε α × σ

namespace Eff

variable {ε σ α β : Type}

def throw (e : ε) : Eff ε σ α := ⟨fun s => (.error e, s)⟩

def modify (f : σ → σ) : Eff ε σ Unit := ⟨fun s => (.ok (), f s)⟩

def read (f : σ → α) : Eff ε σ α := ⟨fun s => (.ok (f s), s)⟩

def catchAll (x : Eff ε σ α) (handler : Eff ε σ α) : Eff ε σ α :=
  ⟨fun s =>
    match x.run s with
    | (.ok a, s) => (.ok a, s)
    | (.error _, s) => handler.run s⟩

instance : Monad (Eff ε σ) where
  pure a := ⟨fun s => (.ok a, s)⟩
  bind x f := ⟨fun s =>
    match x.run s with
    | (.ok a, s) => (f a).run s
    | (.error e, s) => (.error e, s)⟩

@[simp] theorem run_pure (a : α) (s : σ) : (pure a : Eff ε σ α).run s = (.ok a, s) := rfl

@[simp] theorem run_throw (e : ε) (s : σ) : (throw e : Eff ε σ α).run s = (.error e, s) := rfl

@[simp] theorem run_modify (f : σ → σ) (s : σ) : (modify f : Eff ε σ Unit).run s = (.ok (), f s) := rfl

@[simp] theorem run_read (f : σ → α) (s : σ) : (read f : Eff ε σ α).run s = (.ok (f s), s) := rfl

theorem run_bind (x : Eff ε σ α) (f : α → Eff ε σ β) (s : σ) : (x >>= f).run s =
    match x.run s with
    | (.ok a, s) => (f a).run s
    | (.error e, s) => (.error e, s) := rfl

variable {x handler : Eff ε σ α} {f : α → Eff ε σ β} {s t : σ} {a : α} {e : ε}

theorem run_catchAll_ok (h : x.run s = (.ok a, t)) : (catchAll x handler).run s = (.ok a, t) := by
  simp only [catchAll, h]

theorem run_catchAll_error (h : x.run s = (.error e, t)) : (catchAll x handler).run s = handler.run t := by
  simp only [catchAll, h]

def Triple (P : σ → Prop) (x : Eff ε σ α) (Q : α → σ → Prop) (E : σ → Prop) : Prop :=
  ∀ s, P s → match x.run s with
    | (.ok a, t) => Q a t
    | (.error _, t) => E t

section Rules

variable {P P' : σ → Prop} {Q Q' : α → σ → Prop} {R : β → σ → Prop} {E E' : σ → Prop}

theorem triple_pure (h : ∀ s, P s → Q a s) : Triple P (pure a : Eff ε σ α) Q E := h

theorem triple_throw (h : ∀ s, P s → E s) : Triple P (throw e : Eff ε σ α) Q E := h

theorem triple_modify {g : σ → σ} {Q : Unit → σ → Prop} (h : ∀ s, P s → Q () (g s)) :
    Triple P (modify g : Eff ε σ Unit) Q E := h

theorem triple_read {g : σ → α} (h : ∀ s, P s → Q (g s) s) : Triple P (read g : Eff ε σ α) Q E := h

theorem triple_bind (hx : Triple P x Q E) (hf : ∀ a, Triple (Q a) (f a) R E) : Triple P (x >>= f) R E := by
  intro s hs
  have h := hx s hs
  rw [run_bind]
  cases hr : x.run s with
  | mk r t =>
    rw [hr] at h
    cases r with
    | ok a => exact hf a t h
    | error e => exact h

theorem triple_catchAll (hx : Triple P x Q E') (hh : Triple E' handler Q E) :
    Triple P (catchAll x handler) Q E := by
  intro s hs
  have h := hx s hs
  cases hr : x.run s with
  | mk r t =>
    rw [hr] at h
    cases r with
    | ok a => rw [run_catchAll_ok hr]; exact h
    | error e => rw [run_catchAll_error hr]; exact hh t h

theorem triple_conseq (h : Triple P x Q E) (hP : ∀ s, P' s → P s) (hQ : ∀ a s, Q a s → Q' a s)
    (hE : ∀ s, E s → E' s) : Triple P' x Q' E' := by
  intro s hs
  have h := h s (hP s hs)
  cases hr : x.run s with
  | mk r t =>
    rw [hr] at h
    cases r with
    | ok a => exact hQ a t h
    | error e => exact hE t h

theorem triple_or (h : Triple P x Q E) (h' : Triple P' x Q E) : Triple (fun s => P s ∨ P' s) x Q E := by
  rintro s (hs | hs)
  · exact h s hs
  · exact h' s hs

def Keeps (P : σ → Prop) (x : Eff ε σ α) : Prop := Triple P x (fun _ => P) P

theorem keeps_pure : Keeps P (pure a : Eff ε σ α) := fun _ hs => hs

theorem keeps_throw : Keeps P (throw e : Eff ε σ α) := fun _ hs => hs

theorem keeps_read {g : σ → α} : Keeps P (read g : Eff ε σ α) := fun _ hs => hs

theorem keeps_modify {g : σ → σ} (h : ∀ s, P s → P (g s)) : Keeps P (modify g : Eff ε σ Unit) := h

theorem keeps_bind (hx : Keeps P x) (hf : ∀ a, Keeps P (f a)) : Keeps P (x >>= f) := triple_bind hx hf

theorem keeps_catchAll (hx : Keeps P x) (hh : Keeps P handler) : Keeps P (catchAll x handler) :=
  triple_catchAll hx hh

theorem Keeps.run_snd (h : Keeps P x) (hs : P s) : P (x.run s).2 := by
  have := h s hs
  cases hr : x.run s with
  | mk r t =>
    rw [hr] at this
    cases r <;> exact this

theorem keeps_of_run (h : ∀ s, P s → P (x.run s).2) : Keeps P x := by
  intro s hs
  have := h s hs
  cases hr : x.run s with
  | mk r t =>
    rw [hr] at this
    cases r <;> exact this

end Rules

end Eff

end NgkNet
