import Mathlib.Data.Nat.Notation
import Mathlib.Tactic.Common

set_option autoImplicit false

namespace NgkNet.DoWhile

variable {ρ σ : Type}

def loop (body : ρ → σ → σ) (again : σ → Bool) : ℕ → (ℕ → ρ) → σ → Option σ
  | 0, _, _ => none
  | fuel + 1, env, s =>
    -- every round consumes one result of the environment
    if again (body (env 0) s) then loop body again fuel (fun i => env (i + 1)) (body (env 0) s)
    else some (body (env 0) s)

def Ends (body : ρ → σ → σ) (again : σ → Bool) (env : ℕ → ρ) (s t : σ) : Prop :=
  ∃ fuel, loop body again fuel env s = some t

variable {body : ρ → σ → σ} {again : σ → Bool} {env : ℕ → ρ} {s t u : σ}

theorem Ends.stop (h : again (body (env 0) s) = false) : Ends body again env s (body (env 0) s) :=
  ⟨1, by simp [loop, h]⟩

theorem ends_again (h : again (body (env 0) s) = true) :
    Ends body again env s t ↔ Ends body again (fun i => env (i + 1)) (body (env 0) s) t := by
  constructor
  · rintro ⟨fuel, hf⟩
    cases fuel with
    | zero => simp [loop] at hf
    | succ fuel => exact ⟨fuel, by simpa [loop, h] using hf⟩
  · rintro ⟨fuel, hf⟩
    exact ⟨fuel + 1, by simpa [loop, h] using hf⟩

theorem ends_stop (h : again (body (env 0) s) = false) :
    Ends body again env s t ↔ t = body (env 0) s := by
  constructor
  · rintro ⟨fuel, hf⟩
    cases fuel with
    | zero => simp [loop] at hf
    | succ fuel => simpa [loop, h, eq_comm] using hf
  · rintro rfl
    exact .stop h

theorem Ends.unique (h : Ends body again env s t) (h' : Ends body again env s u) : t = u := by
  obtain ⟨fuel, hf⟩ := h
  induction fuel generalizing env s with
  | zero => simp [loop] at hf
  | succ fuel ih =>
    cases ha : again (body (env 0) s) with
    | false =>
      rw [ends_stop ha] at h'
      simpa [loop, ha, h'] using hf.symm
    | true =>
      rw [ends_again ha] at h'
      exact ih h' (by simpa [loop, ha] using hf)

theorem not_ends {P : σ → Prop} (hstep : ∀ r s, P s → P (body r s) ∧ again (body r s) = true) (hs : P s) :
    ¬ Ends body again env s t := by
  rintro ⟨fuel, hf⟩
  induction fuel generalizing env s with
  | zero => simp [loop] at hf
  | succ fuel ih =>
    obtain ⟨hp, ha⟩ := hstep (env 0) s hs
    exact ih hp (by simpa [loop, ha] using hf)

end NgkNet.DoWhile
