import Mathlib.Data.List.Nodup
import Mathlib.Data.UInt

set_option autoImplicit false

namespace NgkNet.Restinio.Http

section Limiter

structure ActualLimiter where
  activeAccepts : UInt64
  connections : UInt64
  maxParallelConnections : UInt64
  pendingIndexes : List ℕ

namespace ActualLimiter

variable (l : ActualLimiter)

def hasFreeSlots : Bool := l.activeAccepts + l.connections < l.maxParallelConnections

def incrementParallelConnections : ActualLimiter :=
  { l with activeAccepts := l.activeAccepts - 1, connections := l.connections + 1 }

def decrementParallelConnections : Option ℕ × ActualLimiter :=
  let l := { l with connections := l.connections - 1 }
  match l.hasFreeSlots, l.pendingIndexes with
  | true, index :: rest => (some index, { l with pendingIndexes := rest })
  | _, _ => (none, l)

def acceptNext (index : ℕ) : Bool × ActualLimiter :=
  if l.hasFreeSlots then (true, { l with activeAccepts := l.activeAccepts + 1 })
  else (false, { l with pendingIndexes := index :: l.pendingIndexes })

end ActualLimiter

inductive ConnectionCountLimiter where
  | noop
  | actual (l : ActualLimiter)

namespace ConnectionCountLimiter

def incrementParallelConnections : ConnectionCountLimiter → ConnectionCountLimiter
  | noop => noop
  | actual l => actual l.incrementParallelConnections

def decrementParallelConnections : ConnectionCountLimiter → Option ℕ × ConnectionCountLimiter
  | noop => (none, noop)
  | actual l => (l.decrementParallelConnections.1, actual l.decrementParallelConnections.2)

def acceptNext (index : ℕ) : ConnectionCountLimiter → Bool × ConnectionCountLimiter
  | noop => (true, noop)
  | actual l => ((l.acceptNext index).1, actual (l.acceptNext index).2)

def create : Option UInt64 → ConnectionCountLimiter
  | none => noop
  | some maxParallelConnections => actual ⟨0, 0, maxParallelConnections, []⟩

def pendingIndexes : ConnectionCountLimiter → List ℕ
  | noop => []
  | actual l => l.pendingIndexes

def limit : ConnectionCountLimiter → Option UInt64
  | noop => none
  | actual l => some l.maxParallelConnections

end ConnectionCountLimiter

end Limiter

section Acceptor

/-- Where a socket of the pool is: a call of `accept_next` is ahead, `async_accept` is running, its handler is, the
limiter keeps the index, a new attempt has been posted, or the handler has been given an error. -/
inductive Slot where
  | returning
  | accepting
  | handling
  | pending
  | scheduled
  | failed
  deriving DecidableEq

inductive InspectionResult where
  | deny
  | allow
  deriving DecidableEq

/-- What happens next, on whatever thread; each one is a critical section of the limiter, or touches one slot only.
`inspected` is without a result if something is thrown before there is one. -/
inductive AcceptorEvent where
  | acceptNext (i : ℕ)
  | accepted (i : ℕ) (success : Bool)
  | inspected (i : ℕ) (result : Option InspectionResult)
  | connectionDestroyed
  deriving DecidableEq

structure Acceptor where
  -- `monitors` is the number of lifetime monitors, one for each connection that is being created or alive.
  slots : List Slot
  limiter : ConnectionCountLimiter
  monitors : ℕ

namespace Acceptor

def opened (concurrentAcceptSocketsCount : ℕ) (maxParallelConnections : Option UInt64) : Acceptor :=
  -- After `listen`, in front of the first loop over the sockets.
  ⟨List.replicate concurrentAcceptSocketsCount .returning, .create maxParallelConnections, 0⟩

def step (a : Acceptor) : AcceptorEvent → Option Acceptor
  | .acceptNext i =>
    if a.slots[i]? = some .returning ∨ a.slots[i]? = some .scheduled then
      let next := a.limiter.acceptNext i
      some { a with slots := a.slots.set i (if next.1 then .accepting else .pending), limiter := next.2 }
    else none
  -- With an error the handler does nothing, and the socket is not used again.
  | .accepted i success =>
    if a.slots[i]? = some .accepting then
      some { a with slots := a.slots.set i (if success then .handling else .failed) }
    else none
  | .inspected i result =>
    if a.slots[i]? = some .handling then
      if result = some .allow then
        some ⟨a.slots.set i .returning, a.limiter.incrementParallelConnections, a.monitors + 1⟩
      else some { a with slots := a.slots.set i .returning }
    else none
  | .connectionDestroyed =>
    if a.monitors = 0 then none
    else
      let next := a.limiter.decrementParallelConnections
      some ⟨next.1.elim a.slots fun i => a.slots.set i .scheduled, next.2, a.monitors - 1⟩

def run (a : Acceptor) (events : List AcceptorEvent) : Option Acceptor := events.foldlM step a

end Acceptor

def AcceptorEvent.isFailure : AcceptorEvent → Bool
  | accepted _ success => !success
  | _ => false

def AcceptorEvent.isDiscard : AcceptorEvent → Bool
  | inspected _ result => result ≠ some .allow
  | _ => false

end Acceptor

section Counting

namespace ActualLimiter

structure Counts (l : ActualLimiter) (x y : ℕ) : Prop where
  activeAccepts : l.activeAccepts.toNat = x
  connections : l.connections.toNat = y
  bound : x + y ≤ l.maxParallelConnections.toNat

variable {l : ActualLimiter} {x y : ℕ}

theorem Counts.hasFreeSlots (h : l.Counts x y) :
    l.hasFreeSlots = true ↔ x + y < l.maxParallelConnections.toNat := by
  have hmax := l.maxParallelConnections.toNat_lt
  have hbound := h.bound
  rw [ActualLimiter.hasFreeSlots, decide_eq_true_eq, UInt64.lt_iff_toNat_lt, UInt64.toNat_add, h.activeAccepts, h.connections,
    Nat.mod_eq_of_lt (by omega)]

theorem Counts.accept (h : l.Counts x y) (hfree : x + y < l.maxParallelConnections.toNat) :
    ActualLimiter.Counts { l with activeAccepts := l.activeAccepts + 1 } (x + 1) y := by
  have hmax := l.maxParallelConnections.toNat_lt
  refine ⟨?_, h.connections, by dsimp only; omega⟩
  dsimp only
  rw [UInt64.toNat_add, h.activeAccepts, UInt64.toNat_one, Nat.mod_eq_of_lt (by omega)]

theorem Counts.increment (h : l.Counts (x + 1) y) :
    l.incrementParallelConnections.Counts x (y + 1) := by
  have hmax := l.maxParallelConnections.toNat_lt
  have hbound := h.bound
  have haccepts := h.activeAccepts
  refine ⟨?_, ?_, ?_⟩
  · rw [incrementParallelConnections, UInt64.toNat_sub_of_le _ _ (by rw [UInt64.le_iff_toNat_le, UInt64.toNat_one]; omega),
      haccepts]
    rfl
  · rw [incrementParallelConnections, UInt64.toNat_add, h.connections, UInt64.toNat_one, Nat.mod_eq_of_lt (by omega)]
  · rw [incrementParallelConnections]
    dsimp only
    omega

theorem Counts.decrement (h : l.Counts x (y + 1)) :
    ActualLimiter.Counts { l with connections := l.connections - 1 } x y := by
  have hbound := h.bound
  have hconnections := h.connections
  refine ⟨h.activeAccepts, ?_, by dsimp only; omega⟩
  dsimp only
  rw [UInt64.toNat_sub_of_le _ _ (by rw [UInt64.le_iff_toNat_le, UInt64.toNat_one]; omega), hconnections]
  rfl

theorem Counts.decrementParallelConnections (h : l.Counts x (y + 1)) :
    l.decrementParallelConnections =
      (l.pendingIndexes.head?, { l with connections := l.connections - 1, pendingIndexes := l.pendingIndexes.tail }) := by
  have hfree := h.decrement.hasFreeSlots.mpr (by have hbound := h.bound; dsimp only; omega)
  rw [ActualLimiter.decrementParallelConnections]
  dsimp only
  rw [hfree]
  obtain ⟨activeAccepts, connections, max, _ | ⟨i, rest⟩⟩ := l <;> rfl

end ActualLimiter

theorem length_eq_count {slots : List Slot} (h : ∀ s ∈ slots, s = .accepting ∨ s = .pending ∨ s = .failed) :
    slots.length = slots.count .accepting + slots.count .pending + slots.count .failed := by
  induction slots with
  | nil => rfl
  | cons s slots ih =>
    rw [List.forall_mem_cons] at h
    have hrest := ih h.2
    rcases h.1 with rfl | rfl | rfl
    all_goals
      simp only [List.length_cons, List.count_cons, beq_iff_eq, reduceCtorEq, ↓reduceIte]
      omega

theorem count_set_add {α : Type} [DecidableEq α] {l : List α} {i : ℕ} {p : α} (h : l[i]? = some p) (q b : α) :
    (l.set i q).count b + (if p = b then 1 else 0) = l.count b + (if q = b then 1 else 0) := by
  obtain ⟨hi, rfl⟩ := List.getElem?_eq_some_iff.mp h
  have hmem : l[i] = b → 0 < l.count b := by
    rintro rfl
    exact List.count_pos_iff.mpr (List.getElem_mem hi)
  rw [List.count_set hi]
  simp only [beq_iff_eq]
  split
  · next heq =>
    have := hmem heq
    omega
  · omega

end Counting

section Invariant

namespace ConnectionCountLimiter

def Fits (x y z : ℕ) : ConnectionCountLimiter → Prop
  | noop => True
  | actual l => l.Counts x y ∧ (l.pendingIndexes ≠ [] → l.maxParallelConnections.toNat ≤ x + y + z)

variable {limiter : ConnectionCountLimiter} {x y z : ℕ}

theorem Fits.mono (h : limiter.Fits x y z) {x' z' : ℕ} (hx : x' = x) (hz : z ≤ z') : limiter.Fits x' y z' := by
  subst hx
  cases limiter with
  | noop => trivial
  | actual l =>
    refine ⟨h.1, fun hpending => ?_⟩
    have := h.2 hpending
    omega

theorem Fits.acceptNext (h : limiter.Fits x y z) (i : ℕ) :
    ((limiter.acceptNext i).1 = true ∧ (limiter.acceptNext i).2.pendingIndexes = limiter.pendingIndexes ∧
      ∀ z', z ≤ z' + 1 → (limiter.acceptNext i).2.Fits (x + 1) y z') ∨
    ((limiter.acceptNext i).1 = false ∧ (limiter.acceptNext i).2.pendingIndexes = i :: limiter.pendingIndexes ∧
      ∀ z', (limiter.acceptNext i).2.Fits x y z') := by
  cases limiter with
  | noop => exact .inl ⟨rfl, rfl, fun _ _ => trivial⟩
  | actual l =>
    obtain ⟨hcounts, hwaking⟩ := h
    rw [ConnectionCountLimiter.acceptNext, ActualLimiter.acceptNext]
    by_cases hfree : l.hasFreeSlots = true
    · rw [if_pos hfree]
      refine .inl ⟨rfl, rfl, fun z' hz => ⟨hcounts.accept (hcounts.hasFreeSlots.mp hfree), fun hpending => ?_⟩⟩
      have := hwaking hpending
      dsimp only
      omega
    · rw [if_neg hfree]
      have hfull := hcounts.bound
      rw [hcounts.hasFreeSlots] at hfree
      refine .inr ⟨rfl, rfl, fun z' => ⟨⟨hcounts.activeAccepts, hcounts.connections, hcounts.bound⟩, fun _ => ?_⟩⟩
      dsimp only
      omega

theorem Fits.increment (h : limiter.Fits (x + 1) y z) : limiter.incrementParallelConnections.Fits x (y + 1) z := by
  cases limiter with
  | noop => trivial
  | actual l =>
    refine ⟨h.1.increment, fun hpending => ?_⟩
    have : l.maxParallelConnections.toNat ≤ x + 1 + y + z := h.2 hpending
    rw [ActualLimiter.incrementParallelConnections]
    dsimp only
    omega

theorem pendingIndexes_increment : limiter.incrementParallelConnections.pendingIndexes = limiter.pendingIndexes := by
  cases limiter <;> rfl

theorem limit_increment : limiter.incrementParallelConnections.limit = limiter.limit := by
  cases limiter <;> rfl

theorem limit_decrement : limiter.decrementParallelConnections.2.limit = limiter.limit := by
  cases limiter with
  | noop => rfl
  | actual l =>
    rw [decrementParallelConnections, ActualLimiter.decrementParallelConnections]
    dsimp only
    split <;> rfl

theorem limit_acceptNext {i : ℕ} : (limiter.acceptNext i).2.limit = limiter.limit := by
  cases limiter with
  | noop => rfl
  | actual l =>
    rw [ConnectionCountLimiter.acceptNext, ActualLimiter.acceptNext]
    split <;> rfl

theorem Fits.decrement (h : limiter.Fits x (y + 1) z) :
    limiter.decrementParallelConnections.1 = limiter.pendingIndexes.head? ∧
      limiter.decrementParallelConnections.2.pendingIndexes = limiter.pendingIndexes.tail ∧
      limiter.decrementParallelConnections.2.Fits x y (if limiter.pendingIndexes = [] then z else z + 1) := by
  cases limiter with
  | noop => exact ⟨rfl, rfl, trivial⟩
  | actual l =>
    rw [decrementParallelConnections, h.1.decrementParallelConnections]
    refine ⟨rfl, rfl, ⟨h.1.decrement.activeAccepts, h.1.decrement.connections, h.1.decrement.bound⟩, fun hpending => ?_⟩
    have hne : l.pendingIndexes ≠ [] := fun hnil => hpending (by rw [hnil]; rfl)
    have := h.2 hne
    rw [if_neg (by exact hne)]
    dsimp only
    omega

end ConnectionCountLimiter

namespace Acceptor

structure Sound (count : ℕ) (max : Option UInt64) (failures discards : ℕ) (a : Acceptor) : Prop where
  limit : a.limiter.limit = max
  length : a.slots.length = count
  failed : a.slots.count .failed = failures
  pending : ∀ i, a.slots[i]? = some .pending ↔ i ∈ a.limiter.pendingIndexes
  nodup : a.limiter.pendingIndexes.Nodup
  fits : a.limiter.Fits (a.slots.count .accepting + a.slots.count .handling + failures + discards) a.monitors
    (a.slots.count .scheduled)

variable {count failures discards : ℕ} {max : Option UInt64} {a b : Acceptor} {i : ℕ}

theorem sound_opened (count : ℕ) (max : Option UInt64) : (opened count max).Sound count max 0 0 := by
  have hcount : ∀ s, s ≠ .returning → (List.replicate count Slot.returning).count s = 0 := by
    intro s hs
    rw [List.count_replicate, if_neg (by simpa using hs.symm)]
  have hpending : (ConnectionCountLimiter.create max).pendingIndexes = [] := by cases max <;> rfl
  refine ⟨by cases max <;> rfl, List.length_replicate, hcount _ (by decide), fun i => ?_, ?_, ?_⟩
  · rw [opened, hpending, List.getElem?_replicate]
    split <;> simp
  · rw [opened, hpending]
    exact List.nodup_nil
  · rw [opened]
    dsimp only
    rw [hcount _ (by decide), hcount _ (by decide), hcount _ (by decide)]
    cases max with
    | none => trivial
    | some max => exact ⟨⟨rfl, rfl, Nat.zero_le _⟩, fun h => absurd rfl h⟩

theorem getElem?_set_of_getElem? {slots : List Slot} {p : Slot} (h : slots[i]? = some p) (q : Slot) (j : ℕ) :
    (slots.set i q)[j]? = if i = j then some q else slots[j]? := by
  rw [List.getElem?_set, if_pos (List.getElem?_eq_some_iff.mp h).1]

theorem Sound.move (h : a.Sound count max failures discards) {p q : Slot} (hp : a.slots[i]? = some p) (hpne : p ≠ .pending)
    (hqne : q ≠ .pending) {limiter : ConnectionCountLimiter} (hlimit : limiter.limit = a.limiter.limit)
    (hpending : limiter.pendingIndexes = a.limiter.pendingIndexes)
    {failures' discards' monitors : ℕ} (hfailed : (a.slots.set i q).count .failed = failures')
    (hfits : limiter.Fits ((a.slots.set i q).count .accepting + (a.slots.set i q).count .handling + failures' + discards')
      monitors ((a.slots.set i q).count .scheduled)) :
    Sound count max failures' discards' ⟨a.slots.set i q, limiter, monitors⟩ := by
  refine ⟨hlimit.trans h.limit, ?_, hfailed, fun j => ?_, ?_, hfits⟩
  · rw [List.length_set, h.length]
  · dsimp only
    rw [hpending, ← h.pending, getElem?_set_of_getElem? hp]
    split
    · next hij =>
      subst hij
      simp [hp, hpne, hqne]
    · rfl
  · dsimp only
    rw [hpending]
    exact h.nodup

theorem Sound.acceptNext (h : a.Sound count max failures discards) (hstep : a.step (.acceptNext i) = some b) :
    b.Sound count max failures discards := by
  rw [step] at hstep
  split at hstep
  · next hslot =>
    cases hstep
    obtain ⟨p, hp, hfree⟩ : ∃ p, a.slots[i]? = some p ∧ (p = .returning ∨ p = .scheduled) := by
      rcases hslot with hslot | hslot
      · exact ⟨_, hslot, .inl rfl⟩
      · exact ⟨_, hslot, .inr rfl⟩
    have hne : p ≠ .pending := by rcases hfree with rfl | rfl <;> decide
    have hset := count_set_add hp
    have hfailed := h.failed
    rcases h.fits.acceptNext i with ⟨hnow, hpending, hfits⟩ | ⟨hnow, hpending, hfits⟩
    · rw [hnow, if_pos rfl]
      have haccepting := hset .accepting .accepting
      have hhandling := hset .accepting .handling
      have hscheduled := hset .accepting .scheduled
      have hfailed' := hset .accepting .failed
      refine h.move hp hne (by decide) ConnectionCountLimiter.limit_acceptNext hpending ?_ ((hfits _ ?_).mono ?_ le_rfl)
      all_goals
        rcases hfree with rfl | rfl
        all_goals
          simp only [reduceCtorEq, ↓reduceIte] at haccepting hhandling hscheduled hfailed'
          omega
    · rw [hnow, if_neg Bool.false_ne_true]
      have haccepting := hset .pending .accepting
      have hhandling := hset .pending .handling
      have hfailed' := hset .pending .failed
      refine ⟨ConnectionCountLimiter.limit_acceptNext.trans h.limit, ?_, ?_, fun j => ?_, ?_, (hfits _).mono ?_ le_rfl⟩
      · rw [List.length_set, h.length]
      · dsimp only
        rcases hfree with rfl | rfl <;> simp only [reduceCtorEq, ↓reduceIte] at hfailed' <;> omega
      · dsimp only
        rw [hpending, List.mem_cons, ← h.pending, getElem?_set_of_getElem? hp]
        split
        · next hij => simp [hij]
        · next hij => simp [Ne.symm hij]
      · dsimp only
        rw [hpending, List.nodup_cons, ← h.pending, hp]
        exact ⟨by simpa using hne, h.nodup⟩
      · dsimp only
        rcases hfree with rfl | rfl <;> simp only [reduceCtorEq, ↓reduceIte] at haccepting hhandling <;> omega
  · cases hstep

theorem Sound.accepted (h : a.Sound count max failures discards) {success : Bool}
    (hstep : a.step (.accepted i success) = some b) :
    b.Sound count max (failures + if success then 0 else 1) discards := by
  rw [step] at hstep
  split at hstep
  · next hp =>
    cases hstep
    have hset := count_set_add hp (if success then .handling else .failed)
    have haccepting := hset .accepting
    have hhandling := hset .handling
    have hscheduled := hset .scheduled
    have hfailed' := hset .failed
    have hfailed := h.failed
    refine h.move hp (by decide) ?_ rfl rfl ?_ (h.fits.mono ?_ ?_)
    · cases success <;> decide
    all_goals cases success <;> simp only [reduceCtorEq, ↓reduceIte] at haccepting hhandling hscheduled hfailed' ⊢ <;> omega
  · cases hstep

theorem Sound.inspected (h : a.Sound count max failures discards) {result : Option InspectionResult}
    (hstep : a.step (.inspected i result) = some b) :
    b.Sound count max failures (discards + if result = some .allow then 0 else 1) := by
  rw [step] at hstep
  split at hstep
  · next hp =>
    have hset := count_set_add hp .returning
    have haccepting := hset .accepting
    have hhandling := hset .handling
    have hscheduled := hset .scheduled
    have hfailed' := hset .failed
    have hfailed := h.failed
    simp only [reduceCtorEq, ↓reduceIte] at haccepting hhandling hscheduled hfailed'
    split at hstep
    · next hallow =>
      cases hstep
      rw [if_pos hallow, Nat.add_zero]
      refine h.move hp (by decide) (by decide) ConnectionCountLimiter.limit_increment
        ConnectionCountLimiter.pendingIndexes_increment (hfailed'.trans hfailed)
        (ConnectionCountLimiter.Fits.increment (h.fits.mono ?_ ?_))
      all_goals omega
    · next hallow =>
      cases hstep
      rw [if_neg hallow]
      refine h.move hp (by decide) (by decide) rfl rfl (hfailed'.trans hfailed) (h.fits.mono ?_ ?_)
      all_goals omega
  · cases hstep

theorem Sound.connectionDestroyed (h : a.Sound count max failures discards) (hstep : a.step .connectionDestroyed = some b) :
    b.Sound count max failures discards := by
  rw [step] at hstep
  split at hstep
  · cases hstep
  · next hmonitors =>
    cases hstep
    obtain ⟨monitors, hmonitors⟩ := Nat.exists_eq_succ_of_ne_zero hmonitors
    have hfits := h.fits
    rw [hmonitors] at hfits ⊢
    obtain ⟨hindex, hpending, hfits⟩ := hfits.decrement
    rw [hindex]
    cases hindexes : a.limiter.pendingIndexes with
    | nil =>
      rw [hindexes] at hpending hfits
      refine ⟨ConnectionCountLimiter.limit_decrement.trans h.limit, h.length, h.failed, fun i => ?_, ?_, hfits⟩
      · dsimp only [List.head?_nil, Option.elim_none]
        rw [h.pending, hpending, hindexes]
        rfl
      · dsimp only
        rw [hpending]
        exact List.nodup_nil
    | cons i rest =>
      rw [hindexes] at hpending hfits
      rw [if_neg (List.cons_ne_nil i rest)] at hfits
      have hp : a.slots[i]? = some .pending := by
        rw [h.pending, hindexes]
        exact List.mem_cons_self
      have hnodup := h.nodup
      rw [hindexes, List.nodup_cons] at hnodup
      have hset := count_set_add hp .scheduled
      have haccepting := hset .accepting
      have hhandling := hset .handling
      have hscheduled := hset .scheduled
      have hfailed' := hset .failed
      have hfailed := h.failed
      simp only [reduceCtorEq, ↓reduceIte] at haccepting hhandling hscheduled hfailed'
      refine ⟨ConnectionCountLimiter.limit_decrement.trans h.limit, ?_, hfailed'.trans hfailed, fun j => ?_, ?_,
        ConnectionCountLimiter.Fits.mono hfits ?_ ?_⟩
      · exact (List.length_set).trans h.length
      · dsimp only [List.head?_cons, Option.elim_some]
        rw [hpending, List.tail_cons, getElem?_set_of_getElem? hp]
        split
        · next hij =>
          subst hij
          simp [hnodup.1]
        · next hij => rw [h.pending, hindexes, List.mem_cons, or_iff_right (Ne.symm hij)]
      · dsimp only
        rw [hpending]
        exact hnodup.2
      all_goals
        dsimp only [List.head?_cons, Option.elim_some]
        omega

theorem Sound.step {e : AcceptorEvent} (h : a.Sound count max failures discards) (hstep : a.step e = some b) :
    b.Sound count max (failures + if e.isFailure then 1 else 0) (discards + if e.isDiscard then 1 else 0) := by
  cases e with
  | acceptNext i => exact h.acceptNext hstep
  | accepted i success =>
    have hnext := h.accepted hstep
    cases success <;> exact hnext
  | inspected i result =>
    have hnext := h.inspected hstep
    rw [AcceptorEvent.isDiscard]
    by_cases hallow : result = some .allow
    · rw [if_pos hallow] at hnext
      simpa [AcceptorEvent.isFailure, hallow] using hnext
    · rw [if_neg hallow] at hnext
      simpa [AcceptorEvent.isFailure, hallow] using hnext
  | connectionDestroyed => exact h.connectionDestroyed hstep

theorem Sound.run {events : List AcceptorEvent} (h : a.Sound count max failures discards) (hrun : a.run events = some b) :
    b.Sound count max (failures + events.countP (·.isFailure)) (discards + events.countP (·.isDiscard)) := by
  induction events generalizing a failures discards with
  | nil =>
    cases hrun
    exact h
  | cons e events ih =>
    rw [Acceptor.run, List.foldlM_cons] at hrun
    obtain ⟨c, hstep, hrun⟩ := Option.bind_eq_some_iff.mp hrun
    have hnext := ih (h.step hstep) hrun
    rw [List.countP_cons, List.countP_cons, Nat.add_comm _ (ite _ _ _), Nat.add_comm _ (ite _ _ _), ← Nat.add_assoc,
      ← Nat.add_assoc]
    exact hnext

theorem Sound.counts {max : UInt64} (h : a.Sound count (some max) failures discards) :
    ∃ l, a.limiter = .actual l ∧ l.maxParallelConnections = max ∧
      l.Counts (a.slots.count .accepting + a.slots.count .handling + failures + discards) a.monitors ∧
      (l.pendingIndexes ≠ [] → max.toNat ≤ a.slots.count .accepting + a.slots.count .handling + failures + discards +
        a.monitors + a.slots.count .scheduled) := by
  obtain ⟨hlimit, -, -, -, -, hfits⟩ := h
  cases hlimiter : a.limiter with
  | noop => simp [hlimiter, ConnectionCountLimiter.limit] at hlimit
  | actual l =>
    rw [hlimiter] at hlimit hfits
    obtain rfl : l.maxParallelConnections = max := Option.some_inj.mp hlimit
    exact ⟨l, rfl, rfl, hfits⟩

theorem Sound.bound {max : UInt64} (h : a.Sound count (some max) failures discards) :
    a.monitors + a.slots.count .accepting + a.slots.count .handling + failures + discards ≤ max.toNat ∧
      (a.limiter.pendingIndexes ≠ [] → max.toNat ≤ a.monitors + a.slots.count .accepting + a.slots.count .handling + failures +
        discards + a.slots.count .scheduled) := by
  obtain ⟨l, hlimiter, rfl, hcounts, hwaking⟩ := h.counts
  have hbound := hcounts.bound
  refine ⟨by omega, fun hpending => ?_⟩
  rw [hlimiter] at hpending
  have := hwaking hpending
  omega

theorem Sound.pendingIndexes_length (h : a.Sound count max failures discards) :
    a.limiter.pendingIndexes.length ≤ count := by
  have hsubset : a.limiter.pendingIndexes ⊆ List.range count := by
    intro i hi
    rw [← h.pending] at hi
    rw [List.mem_range, ← h.length]
    exact (List.getElem?_eq_some_iff.mp hi).1
  simpa using (h.nodup.subperm hsubset).length_le

end Acceptor

end Invariant

section Results

variable {count : ℕ} {events : List AcceptorEvent} {a : Acceptor}

/-- Whatever the threads do, connections and running accepts never exceed the limit, together with the accepts that ended in
an error or in a connection that was discarded; the counters are their true numbers, and the limiter never outgrows the room
reserved for its indexes. -/
theorem parallel_connections_bounded {max : UInt64} (hrun : (Acceptor.opened count (some max)).run events = some a) :
    a.monitors + a.slots.count .accepting + a.slots.count .handling + events.countP (·.isFailure) +
      events.countP (·.isDiscard) ≤ max.toNat ∧ a.limiter.pendingIndexes.length ≤ count ∧
      ∃ l, a.limiter = .actual l ∧ l.connections.toNat = a.monitors ∧
        l.activeAccepts.toNat = a.slots.count .accepting + a.slots.count .handling + events.countP (·.isFailure) +
          events.countP (·.isDiscard) := by
  have hsound := (Acceptor.sound_opened count (some max)).run hrun
  rw [Nat.zero_add, Nat.zero_add] at hsound
  obtain ⟨l, hlimiter, -, hcounts, -⟩ := hsound.counts
  exact ⟨hsound.bound.1, hsound.pendingIndexes_length, l, hlimiter, hcounts.connections, hcounts.activeAccepts⟩

theorem parallel_connections_bounded_one :
    ∃ a, (Acceptor.opened 1 (some 1)).run [.acceptNext 0, .accepted 0 true, .inspected 0 (some .allow), .acceptNext 0] = some a ∧
      a.monitors = 1 ∧ a.limiter.pendingIndexes.length ≤ 1 := by
  have hrun : (Acceptor.opened 1 (some 1)).run [.acceptNext 0, .accepted 0 true, .inspected 0 (some .allow), .acceptNext 0] =
      some ⟨[.pending], .actual ⟨0, 1, 1, [0]⟩, 1⟩ := rfl
  exact ⟨_, hrun, rfl, (parallel_connections_bounded hrun).2.1⟩

def expectedAccepts (count failures discards connections : ℕ) : Option UInt64 → ℕ
  | none => count - failures
  | some max => min (count - failures) (max.toNat - (failures + discards) - connections)

/-- No wake-up is lost: when nothing but accepts is under way, as many of them are running as the limit allows, less one for
each accept that ended in an error or in a connection that was discarded. -/
theorem accepts_running_when_quiet {max : Option UInt64} (hrun : (Acceptor.opened count max).run events = some a)
    (hquiet : ∀ s ∈ a.slots, s = .accepting ∨ s = .pending ∨ s = .failed) :
    a.slots.count .accepting =
      expectedAccepts count (events.countP (·.isFailure)) (events.countP (·.isDiscard)) a.monitors max := by
  have hsound := (Acceptor.sound_opened count max).run hrun
  rw [Nat.zero_add, Nat.zero_add] at hsound
  have hnone : ∀ s, s ≠ .accepting → s ≠ .pending → s ≠ .failed → a.slots.count s = 0 := by
    intro s haccepting hpending hfailed
    rw [List.count_eq_zero]
    intro hs
    rcases hquiet s hs with h | h | h
    · exact haccepting h
    · exact hpending h
    · exact hfailed h
  have hhandling := hnone .handling (by decide) (by decide) (by decide)
  have hscheduled := hnone .scheduled (by decide) (by decide) (by decide)
  have htotal := length_eq_count hquiet
  have hlength := hsound.length
  have hfailed := hsound.failed
  have hpending : a.limiter.pendingIndexes = [] → a.slots.count .pending = 0 := by
    intro hnil
    rw [List.count_eq_zero]
    intro hmem
    obtain ⟨i, hi⟩ := List.mem_iff_getElem?.mp hmem
    rw [hsound.pending, hnil] at hi
    exact List.not_mem_nil hi
  cases max with
  | none =>
    have hnil : a.limiter.pendingIndexes = [] := by
      have hlimit := hsound.limit
      cases hlimiter : a.limiter with
      | noop => rfl
      | actual l => simp [hlimiter, ConnectionCountLimiter.limit] at hlimit
    have := hpending hnil
    rw [expectedAccepts]
    omega
  | some max =>
    obtain ⟨hbound, hwaking⟩ := hsound.bound
    rw [expectedAccepts]
    by_cases hnil : a.limiter.pendingIndexes = []
    · have := hpending hnil
      omega
    · have := hwaking hnil
      omega

theorem accepts_running_when_quiet_woken :
    ∃ a, (Acceptor.opened 1 (some 1)).run [.acceptNext 0, .accepted 0 true, .inspected 0 (some .allow), .acceptNext 0,
        .connectionDestroyed, .acceptNext 0] = some a ∧ a.slots.count .accepting = expectedAccepts 1 0 0 0 (some 1) := by
  have hrun : (Acceptor.opened 1 (some 1)).run [.acceptNext 0, .accepted 0 true, .inspected 0 (some .allow), .acceptNext 0,
      .connectionDestroyed, .acceptNext 0] = some ⟨[.accepting], .actual ⟨1, 0, 1, []⟩, 0⟩ := rfl
  exact ⟨_, hrun, accepts_running_when_quiet hrun (by decide)⟩

/-- Each connection that is denied takes one from the limit for good; when all are used up, nothing is accepted any more. -/
theorem discarded_connections_block {max : UInt64} (hrun : (Acceptor.opened count (some max)).run events = some a)
    {later : List AcceptorEvent} {b : Acceptor} (hlater : a.run later = some b) :
    b.monitors + b.slots.count .accepting + b.slots.count .handling + later.countP (·.isDiscard) ≤
        max.toNat - events.countP (·.isDiscard) ∧
      (events.countP (·.isDiscard) = max.toNat →
        b.monitors = 0 ∧ .accepting ∉ b.slots ∧ .handling ∉ b.slots ∧ later.countP (·.isDiscard) = 0) := by
  have hsound := ((Acceptor.sound_opened count (some max)).run hrun).run hlater
  have hbound := hsound.bound.1
  rw [← List.count_eq_zero, ← List.count_eq_zero]
  refine ⟨by omega, fun hdiscards => ?_⟩
  omega

theorem discarded_connections_block_denied :
    ∃ a b, (Acceptor.opened 1 (some 2)).run [.acceptNext 0, .accepted 0 true, .inspected 0 (some .deny)] = some a ∧
      a.run [.acceptNext 0, .accepted 0 true, .inspected 0 (some .allow), .acceptNext 0] = some b ∧
      b.monitors + b.slots.count .accepting + b.slots.count .handling ≤ 1 := by
  have hrun : (Acceptor.opened 1 (some 2)).run [.acceptNext 0, .accepted 0 true, .inspected 0 (some .deny)] =
      some ⟨[.returning], .actual ⟨1, 0, 2, []⟩, 0⟩ := rfl
  have hlater : Acceptor.run ⟨[.returning], .actual ⟨1, 0, 2, []⟩, 0⟩
      [.acceptNext 0, .accepted 0 true, .inspected 0 (some .allow), .acceptNext 0] =
      some ⟨[.pending], .actual ⟨1, 1, 2, [0]⟩, 1⟩ := rfl
  exact ⟨_, _, hrun, hlater, (discarded_connections_block hrun hlater).1⟩

/-- A socket whose accept ended in an error is not used again, with a limiter or without: when this has happened once for each
of them, nothing is accepted any more. -/
theorem failed_accepts_block {max : Option UInt64} (hrun : (Acceptor.opened count max).run events = some a)
    (hfailures : events.countP (·.isFailure) = count) {later : List AcceptorEvent} {b : Acceptor}
    (hlater : a.run later = some b) :
    b.slots = List.replicate count .failed := by
  have hsound := ((Acceptor.sound_opened count max).run hrun).run hlater
  have hfailed := hsound.failed
  have hlength := hsound.length
  have hle := b.slots.count_le_length (a := Slot.failed)
  rw [List.eq_replicate_iff]
  refine ⟨hlength, fun s hs => ?_⟩
  exact (List.count_eq_length.mp (by omega) s hs).symm

theorem failed_accepts_block_default :
    ∃ a b, (Acceptor.opened 1 none).run [.acceptNext 0, .accepted 0 true, .inspected 0 (some .allow), .acceptNext 0,
        .accepted 0 false] = some a ∧
      a.run [.connectionDestroyed] = some b ∧ b.slots = [.failed] := by
  have hrun : (Acceptor.opened 1 none).run [.acceptNext 0, .accepted 0 true, .inspected 0 (some .allow), .acceptNext 0,
    .accepted 0 false] = some ⟨[.failed], .noop, 1⟩ := rfl
  have hlater : Acceptor.run ⟨[.failed], .noop, 1⟩ [.connectionDestroyed] = some ⟨[.failed], .noop, 0⟩ := rfl
  exact ⟨_, _, hrun, hlater, failed_accepts_block hrun (by decide) hlater⟩

end Results

end NgkNet.Restinio.Http
