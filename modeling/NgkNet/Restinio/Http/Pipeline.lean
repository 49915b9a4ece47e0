import NgkNet.Restinio.Http.Coordinator
import Mathlib.Data.UInt

set_option autoImplicit false

namespace NgkNet.Restinio.Http

open ResponseContextTable

section Contexts

inductive Token where
  | item (i : WritableItem)
  | notify (n : Notificator)
  deriving DecidableEq

def WriteGroup.tokens (wg : WriteGroup) : List Token :=
  wg.items.map .item ++ wg.afterWriteNotificator.toList.map .notify

def ResponseContext.tokens (ctx : ResponseContext) : List Token := ctx.writeGroups.flatMap WriteGroup.tokens

theorem WriteGroup.merge_tokens {first : WriteGroup} (h : first.afterWriteNotificator = none) (second : WriteGroup) :
    (first.merge second).tokens = first.tokens ++ second.tokens := by
  simp [tokens, merge, h]

namespace ResponseContext

variable (ctx : ResponseContext) (wg : WriteGroup)

theorem enqueueGroup_tokens : (ctx.enqueueGroup wg).tokens = ctx.tokens ++ wg.tokens := by
  rw [enqueueGroup]
  cases hlast : ctx.writeGroups.getLast? with
  | none =>
    have hnil : ctx.writeGroups = [] := List.getLast?_eq_none_iff.mp hlast
    simp [tokens, hnil]
  | some back =>
    obtain ⟨init, hinit⟩ := List.getLast?_eq_some_iff.mp hlast
    dsimp only
    split
    · next h =>
      rw [Option.isNone_iff_eq_none] at h
      simp [tokens, hinit, WriteGroup.merge_tokens h.1]
    · simp [tokens]

theorem enqueueGroup_ne_nil : (ctx.enqueueGroup wg).writeGroups ≠ [] := by
  rw [enqueueGroup]
  cases ctx.writeGroups.getLast? with
  | none => simp
  | some back =>
    dsimp only
    split <;> simp

@[simp] theorem enqueueGroup_requestId : (ctx.enqueueGroup wg).requestId = ctx.requestId := by
  rw [enqueueGroup]
  cases ctx.writeGroups.getLast? with
  | none => rfl
  | some back =>
    dsimp only
    split <;> rfl

@[simp] theorem enqueueGroup_flags :
    (ctx.enqueueGroup wg).responseOutputFlags = ctx.responseOutputFlags := by
  rw [enqueueGroup]
  cases ctx.writeGroups.getLast? with
  | none => rfl
  | some back =>
    dsimp only
    split <;> rfl

variable {ctx wg}

theorem tokens_of_writeGroups {rest : List WriteGroup} (h : ctx.writeGroups = wg :: rest) :
    ctx.tokens = wg.tokens ++ ctx.dequeueGroup.tokens := by
  simp [tokens, dequeueGroup, h]

end ResponseContext

end Contexts

structure Answer where
  tokens : List Token
  flags : ResponseOutputFlags
  deriving DecidableEq

namespace Answer

def fresh : Answer := ⟨[], ⟨.notFinalParts, .connectionKeepalive⟩⟩

def final (a : Answer) : Prop := a.flags.responseParts = .finalParts

def closing (a : Answer) : Bool := a.flags.responseConnection = .connectionClose

def extend (flags : ResponseOutputFlags) (wg : WriteGroup) (a : Answer) : Answer := ⟨a.tokens ++ wg.tokens, flags⟩

end Answer

/-- The answers to all requests of a connection, in the order of the requests. Of those that are
pending only the first may have been given out in part. -/
structure Pipeline where
  finished : List Answer
  pending : List Answer
  taken : List Token
  deriving DecidableEq

namespace Pipeline

def empty : Pipeline := ⟨[], [], []⟩

variable (p : Pipeline)

def answers : List Answer := p.finished ++ p.pending

def sent : List Token := p.finished.flatMap Answer.tokens ++ p.taken

def offset (id : RequestId) : ℕ := (id - UInt32.ofNat p.finished.length).toNat

def step : Event → Pipeline
  | .registered => { p with pending := p.pending ++ [.fresh] }
  | .appended id flags wg => { p with pending := p.pending.modify (p.offset id) (Answer.extend flags wg) }
  | .popped wg false => { p with taken := p.taken ++ wg.tokens }
  | .popped _ true => ⟨p.finished ++ p.pending.take 1, p.pending.tail, []⟩

def after (events : List Event) : Pipeline := events.foldl step empty

end Pipeline

section Tracking

def Numbered (n : ℕ) (ctxs : List ResponseContext) : Prop :=
  ∀ i ctx, ctxs[i]? = some ctx → ctx.requestId = UInt32.ofNat (n + i)

def Tracks : ℕ → List Token → List ResponseContext → List Answer → Prop
  | _, taken, [], [] => taken = []
  | n, taken, ctx :: ctxs, a :: answers =>
    (ctx.requestId = UInt32.ofNat n ∧ taken ++ ctx.tokens = a.tokens ∧ ctx.responseOutputFlags = a.flags ∧
      (a.final → ctx.writeGroups ≠ [])) ∧ Tracks (n + 1) [] ctxs answers
  | _, _, _, _ => False

variable {n : ℕ} {taken : List Token} {ctxs : List ResponseContext} {answers : List Answer}

theorem Tracks.length_eq (h : Tracks n taken ctxs answers) : ctxs.length = answers.length := by
  induction ctxs generalizing n taken answers with
  | nil =>
    cases answers with
    | nil => rfl
    | cons a answers => exact h.elim
  | cons ctx ctxs ih =>
    cases answers with
    | nil => exact h.elim
    | cons a answers => exact congrArg (· + 1) (ih h.2)

theorem Tracks.numbered (h : Tracks n taken ctxs answers) : Numbered n ctxs := by
  intro i ctx hi
  induction ctxs generalizing n taken answers i with
  | nil => simp at hi
  | cons c ctxs ih =>
    cases answers with
    | nil => exact h.elim
    | cons a answers =>
      cases i with
      | zero =>
        obtain rfl : c = ctx := by simpa using hi
        exact h.1.1
      | succ i =>
        rw [ih h.2 i (by simpa using hi)]
        congr 1
        omega

theorem Tracks.flags (h : Tracks n taken ctxs answers) :
    ctxs.map ResponseContext.responseOutputFlags = answers.map Answer.flags := by
  induction ctxs generalizing n taken answers with
  | nil =>
    cases answers with
    | nil => rfl
    | cons a answers => exact h.elim
  | cons ctx ctxs ih =>
    cases answers with
    | nil => exact h.elim
    | cons a answers => rw [List.map_cons, List.map_cons, h.1.2.2.1, ih h.2]

theorem Tracks.tokens (h : Tracks n taken ctxs answers) :
    taken ++ ctxs.flatMap ResponseContext.tokens = answers.flatMap Answer.tokens := by
  induction ctxs generalizing n taken answers with
  | nil =>
    cases answers with
    | nil => simpa [Tracks] using h
    | cons a answers => exact h.elim
  | cons ctx ctxs ih =>
    cases answers with
    | nil => exact h.elim
    | cons a answers =>
      have hrest := ih h.2
      rw [List.nil_append] at hrest
      rw [List.flatMap_cons, List.flatMap_cons, ← List.append_assoc, h.1.2.1, hrest]

theorem Tracks.concat (h : Tracks n taken ctxs answers) {ctx : ResponseContext}
    (hid : ctx.requestId = UInt32.ofNat (n + ctxs.length)) (hgroups : ctx.writeGroups = [])
    (hflags : ctx.responseOutputFlags = Answer.fresh.flags) :
    Tracks n taken (ctxs ++ [ctx]) (answers ++ [.fresh]) := by
  induction ctxs generalizing n taken answers with
  | nil =>
    cases answers with
    | nil =>
      refine ⟨⟨hid, ?_, hflags, by simp [Answer.final, Answer.fresh]⟩, rfl⟩
      have htaken : taken = [] := h
      simp [htaken, ResponseContext.tokens, hgroups, Answer.fresh]
    | cons a answers => exact h.elim
  | cons c ctxs ih =>
    cases answers with
    | nil => exact h.elim
    | cons a answers =>
      refine ⟨h.1, ih h.2 ?_⟩
      rw [hid, List.length_cons]
      congr 1
      omega

theorem Tracks.modify (h : Tracks n taken ctxs answers) (i : ℕ) (flags : ResponseOutputFlags) (wg : WriteGroup) :
    Tracks n taken (ctxs.modify i (fun ctx => { ctx with responseOutputFlags := flags }.enqueueGroup wg))
      (answers.modify i (Answer.extend flags wg)) := by
  induction ctxs generalizing n taken answers i with
  | nil =>
    cases answers with
    | nil =>
      rw [List.modify_nil, List.modify_nil]
      exact h
    | cons a answers => exact h.elim
  | cons ctx ctxs ih =>
    cases answers with
    | nil => exact h.elim
    | cons a answers =>
      cases i with
      | zero =>
        obtain ⟨⟨hid, htokens, -, -⟩, hrest⟩ := h
        refine ⟨⟨?_, ?_, ?_, fun _ => ResponseContext.enqueueGroup_ne_nil _ _⟩, hrest⟩
        · rw [ResponseContext.enqueueGroup_requestId]
          exact hid
        · rw [ResponseContext.enqueueGroup_tokens, ← List.append_assoc, Answer.extend, ← htokens]
          rfl
        · rw [ResponseContext.enqueueGroup_flags]
          rfl
      | succ i => exact ⟨h.1, ih h.2 i⟩

end Tracking

structure Represents (maxReqCount : ℕ) (c : Coordinator) (p : Pipeline) : Prop where
  tracks : Tracks p.finished.length p.taken c.contextTable.live p.pending
  counter : c.requestIdCounter = UInt32.ofNat p.answers.length
  spare : ∀ ctx ∈ c.contextTable.spare, ctx.writeGroups = []
  finished : ∀ a ∈ p.finished, a.final
  closed : c.closed = p.finished.getLast?.any Answer.closing
  kept : ∀ a ∈ p.finished.dropLast, a.closing = false
  stopped : c.closed = true → p.taken = []
  capacity : c.contextTable.live.length + c.contextTable.spare.length = maxReqCount

namespace ResponseContextTable

variable {t : ResponseContextTable} {id : RequestId} {i n : ℕ}

theorem empty_iff : empty t = true ↔ t.live = [] := by
  rw [empty, decide_eq_true_eq, ← t.live_length, List.length_eq_zero_iff]

theorem isFull_iff : isFull t = true ↔ t.spare = [] := by
  have := t.count_le
  rw [isFull, decide_eq_true_eq, ← List.length_eq_zero_iff, t.spare_length]
  omega

theorem front_eq (h : t.live ≠ []) : front t = t.live.head? := by
  have hpos : 0 < t.count := by rw [← t.live_length]; exact List.length_pos_iff.mpr h
  rw [front, Ring.get?_eq_live hpos, List.head?_eq_getElem?]

theorem back_eq (h : t.live ≠ []) : back t = t.live.getLast? := by
  have hpos : 0 < t.count := by rw [← t.live_length]; exact List.length_pos_iff.mpr h
  rw [back, Ring.get?_eq_live (by omega), List.getLast?_eq_getElem?, t.live_length]

theorem getByReqId_eq (ht : Numbered n t.live) :
    getByReqId t id =
      if t.live ≠ [] ∧ UInt32.ofNat n ≤ id ∧ id ≤ UInt32.ofNat (n + (t.count - 1)) then
        some (id - UInt32.ofNat n).toNat
      else none := by
  rw [getByReqId]
  by_cases hempty : t.live = []
  · rw [if_pos (empty_iff.mpr hempty), if_neg (by simp [hempty])]
  · have hpos : 0 < t.live.length := List.length_pos_iff.mpr hempty
    have hfirst := ht 0 _ (List.getElem?_eq_getElem hpos)
    have hlt : t.count - 1 < t.live.length := by
      rw [t.live_length] at hpos ⊢
      omega
    have hlast := ht _ _ (List.getElem?_eq_getElem hlt)
    rw [if_neg (by rw [empty_iff]; exact hempty), front_eq hempty, back_eq hempty, List.head?_eq_getElem?,
      List.getLast?_eq_getElem?, t.live_length, List.getElem?_eq_getElem hpos, List.getElem?_eq_getElem hlt]
    simp only [hfirst, hlast, Nat.add_zero]
    by_cases hrange : UInt32.ofNat n ≤ id ∧ id ≤ UInt32.ofNat (n + (t.count - 1))
    · rw [if_neg, if_pos ⟨hempty, hrange⟩]
      rw [not_or, UInt32.not_lt, UInt32.not_lt]
      exact hrange
    · rw [if_pos, if_neg (fun h => hrange h.2)]
      rw [← UInt32.not_le, ← UInt32.not_le, ← not_and_or]
      exact hrange

theorem getByReqId_some (ht : Numbered n t.live)
    (h : getByReqId t id = some i) : i < t.count ∧ i = (id - UInt32.ofNat n).toNat := by
  rw [getByReqId_eq ht] at h
  split at h
  · next hrange =>
    obtain ⟨hne, hfirst, hlast⟩ := hrange
    have hpos : 0 < t.count := by rw [← t.live_length]; exact List.length_pos_iff.mpr hne
    obtain rfl : (id - UInt32.ofNat n).toNat = i := by simpa using h
    refine ⟨?_, rfl⟩
    rw [UInt32.toNat_sub_of_le _ _ hfirst]
    rw [UInt32.le_iff_toNat_le, UInt32.toNat_ofNat'] at hfirst hlast
    rw [UInt32.toNat_ofNat']
    omega
  · cases h

theorem getByReqId_isSome_iff (ht : Numbered n t.live)
    (hcount : t.count ≤ 2 ^ 32) :
    getByReqId t id = some (id - UInt32.ofNat n).toNat ↔
      n % 2 ^ 32 + t.count ≤ 2 ^ 32 ∧ (id - UInt32.ofNat n).toNat < t.count := by
  rw [getByReqId_eq ht]
  have hid := id.toNat_lt
  have hsub : (id - UInt32.ofNat n).toNat = (2 ^ 32 - n % 2 ^ 32 + id.toNat) % 2 ^ 32 := by
    rw [UInt32.toNat_sub, UInt32.toNat_ofNat']
  have hle : UInt32.ofNat n ≤ id ∧ id ≤ UInt32.ofNat (n + (t.count - 1)) ↔
      n % 2 ^ 32 ≤ id.toNat ∧ id.toNat ≤ (n + (t.count - 1)) % 2 ^ 32 := by
    rw [UInt32.le_iff_toNat_le, UInt32.le_iff_toNat_le, UInt32.toNat_ofNat', UInt32.toNat_ofNat']
  constructor
  · intro h
    split at h
    · next hrange =>
      have hpos : 0 < t.count := by rw [← t.live_length]; exact List.length_pos_iff.mpr hrange.1
      have := hle.mp hrange.2
      rw [hsub]
      omega
    · cases h
  · rintro ⟨hwrap, hlt⟩
    rw [hsub] at hlt
    rw [if_pos]
    refine ⟨?_, hle.mpr (by omega)⟩
    rw [← List.length_pos_iff, t.live_length]
    omega

end ResponseContextTable

namespace Coordinator

variable {c c' : Coordinator} {ctx : ResponseContext} {ctxs : List ResponseContext}

theorem registerNewRequest_full (h : c.contextTable.spare = []) : c.registerNewRequest = .error .tableIsFull := by
  rw [registerNewRequest, pushResponseContext, if_pos (isFull_iff.mpr h)]
  rfl

theorem registerNewRequest_ok (h : c.contextTable.spare = ctx :: ctxs) :
    ∃ c', c.registerNewRequest = .ok (c.requestIdCounter, c') ∧
      c'.contextTable.live = c.contextTable.live ++ [ctx.reinit c.requestIdCounter] ∧
      c'.contextTable.spare = ctxs ∧ c'.requestIdCounter = c.requestIdCounter + 1 ∧ c'.closed = c.closed := by
  have hfull : ¬ ResponseContextTable.isFull c.contextTable = true := by rw [isFull_iff, h]; simp
  obtain ⟨hlive, hspare⟩ := Ring.push_of_spare (f := ResponseContext.reinit c.requestIdCounter) h
  refine ⟨{ c with contextTable := c.contextTable.push (ResponseContext.reinit c.requestIdCounter)
                   requestIdCounter := c.requestIdCounter + 1 }, ?_, hlive, hspare, rfl, rfl⟩
  rw [registerNewRequest, pushResponseContext, if_neg hfull]
  rfl

theorem registerNewRequest_inv {id : RequestId} (h : c.registerNewRequest = .ok (id, c')) :
    ∃ ctx ctxs, c.contextTable.spare = ctx :: ctxs ∧ id = c.requestIdCounter ∧
      c'.contextTable.live = c.contextTable.live ++ [ctx.reinit c.requestIdCounter] ∧
      c'.contextTable.spare = ctxs ∧ c'.requestIdCounter = c.requestIdCounter + 1 ∧ c'.closed = c.closed := by
  cases hspare : c.contextTable.spare with
  | nil =>
    rw [registerNewRequest_full hspare] at h
    cases h
  | cons ctx ctxs =>
    obtain ⟨c'', hc, hcase⟩ := registerNewRequest_ok hspare
    obtain ⟨rfl, rfl⟩ : c.requestIdCounter = id ∧ c'' = c' := by simpa [hc] using h
    exact ⟨ctx, ctxs, rfl, rfl, hcase⟩

theorem appendResponse_ok {n : ℕ} {id : RequestId} {flags : ResponseOutputFlags} {wg : WriteGroup}
    (ht : Numbered n c.contextTable.live)
    (h : c.appendResponse id flags wg = .ok c') :
    c.closed = false ∧ c'.closed = false ∧ c'.requestIdCounter = c.requestIdCounter ∧
      (id - UInt32.ofNat n).toNat < c.contextTable.count ∧
      c'.contextTable.live = c.contextTable.live.modify (id - UInt32.ofNat n).toNat
        (fun ctx => { ctx with responseOutputFlags := flags }.enqueueGroup wg) ∧
      c'.contextTable.spare = c.contextTable.spare := by
  rw [appendResponse] at h
  split at h
  · cases h
  · next hclosed =>
    rw [Bool.not_eq_true] at hclosed
    cases hi : getByReqId c.contextTable id with
    | none => simp [hi] at h
    | some i =>
      obtain ⟨hlt, rfl⟩ := getByReqId_some ht hi
      rw [hi] at h
      dsimp only at h
      cases hctx : c.contextTable.get? (id - UInt32.ofNat n).toNat with
      | none => simp [hctx] at h
      | some ctx =>
        rw [hctx] at h
        dsimp only at h
        split at h
        · cases h
        · cases h
          exact ⟨hclosed, hclosed, rfl, hlt, Ring.modify_live hlt, Ring.modify_spare hlt⟩

theorem appendResponse_isOk_iff {n : ℕ} {id : RequestId} {flags : ResponseOutputFlags} {wg : WriteGroup}
    (ht : Numbered n c.contextTable.live)
    (hcount : c.contextTable.count ≤ 2 ^ 32) :
    (∃ c', c.appendResponse id flags wg = .ok c') ↔
      c.closed = false ∧ n % 2 ^ 32 + c.contextTable.count ≤ 2 ^ 32 ∧
        ∃ ctx, c.contextTable.live[(id - UInt32.ofNat n).toNat]? = some ctx ∧
          ctx.responseOutputFlags.responseParts ≠ .finalParts := by
  rw [appendResponse]
  cases hclosed : c.closed with
  | true => simp
  | false =>
    rw [if_neg Bool.false_ne_true]
    by_cases hfound : n % 2 ^ 32 + c.contextTable.count ≤ 2 ^ 32 ∧ (id - UInt32.ofNat n).toNat < c.contextTable.count
    · rw [(getByReqId_isSome_iff ht hcount).mpr hfound]
      simp only [Ring.get?_eq_live hfound.2, hfound.1, true_and]
      have hlt : (id - UInt32.ofNat n).toNat < c.contextTable.live.length := by
        rw [Ring.live_length]
        exact hfound.2
      rw [List.getElem?_eq_getElem hlt]
      by_cases hfinal : (c.contextTable.live[(id - UInt32.ofNat n).toNat]).responseOutputFlags.responseParts = .finalParts
      · simp [hfinal]
      · simp [hfinal]
    · have hnone : getByReqId c.contextTable id = none := by
        cases hi : getByReqId c.contextTable id with
        | none => rfl
        | some i =>
          obtain ⟨-, rfl⟩ := getByReqId_some ht hi
          exact absurd ((getByReqId_isSome_iff ht hcount).mp hi) hfound
      rw [hnone]
      refine ⟨fun ⟨c', h⟩ => (by cases h), fun ⟨_, hwrap, ctx, hctx, _⟩ => absurd ⟨hwrap, ?_⟩ hfound⟩
      rw [← Ring.live_length]
      exact (List.getElem?_eq_some_iff.mp hctx).1

theorem popReadyBuffers_closed (h : c.closed = true) : c.popReadyBuffers = .error .popFromClosed := by
  rw [popReadyBuffers, if_pos h]

theorem popReadyBuffers_none (h : c.closed = false) (hlive : ∀ ctx ∈ c.contextTable.live.head?, ctx.writeGroups = []) :
    c.popReadyBuffers = .ok (none, c) := by
  rw [popReadyBuffers, if_neg (by simp [h])]
  split
  · rfl
  · next hempty =>
    rw [empty_iff] at hempty
    rw [front_eq hempty]
    cases hhead : c.contextTable.live.head? with
    | none => rfl
    | some ctx =>
      dsimp only
      rw [hlive ctx hhead]

theorem popReadyBuffers_some (h : c.closed = false) (hlive : c.contextTable.live = ctx :: ctxs) {wg : WriteGroup}
    {rest : List WriteGroup} (hgroups : ctx.writeGroups = wg :: rest) :
    ∃ c', c.popReadyBuffers = .ok (some (wg, ctx.requestId), c') ∧ c'.requestIdCounter = c.requestIdCounter ∧
      if ctx.dequeueGroup.isComplete then
        c'.contextTable.live = ctxs ∧ c'.contextTable.spare = c.contextTable.spare ++ [ctx.dequeueGroup] ∧
          c'.closed = decide (ctx.responseOutputFlags.responseConnection = .connectionClose)
      else c'.contextTable.live = ctx.dequeueGroup :: ctxs ∧ c'.contextTable.spare = c.contextTable.spare ∧
          c'.closed = false := by
  have hne : c.contextTable.live ≠ [] := by simp [hlive]
  have hcount : 0 < c.contextTable.count := by rw [← c.contextTable.live_length, hlive]; simp
  have hmod : (c.contextTable.modify 0 ResponseContext.dequeueGroup).live = ctx.dequeueGroup :: ctxs := by
    rw [Ring.modify_live hcount, hlive]
    rfl
  have hspare := Ring.modify_spare (f := ResponseContext.dequeueGroup) hcount
  rw [popReadyBuffers, if_neg (by simp [h]), if_neg (by rw [empty_iff]; exact hne), front_eq hne, hlive]
  simp only [List.head?_cons, hgroups]
  by_cases hcomplete : ctx.dequeueGroup.isComplete = true
  · have hempty : ¬ ResponseContextTable.empty (c.contextTable.modify 0 ResponseContext.dequeueGroup) = true := by
      rw [empty_iff, hmod]
      simp
    have hpop := Ring.pop_of_live hmod
    have hfinal : ctx.responseOutputFlags.responseParts = .finalParts := by
      rw [ResponseContext.isComplete, decide_eq_true_eq] at hcomplete
      exact hcomplete.2
    simp only [if_pos hcomplete, popResponseContext, if_neg hempty]
    refine ⟨_, rfl, rfl, hpop.1, by rw [hpop.2, hspare], ?_⟩
    simp [closed, ResponseContext.dequeueGroup, hfinal]
  · simp only [if_neg hcomplete]
    exact ⟨_, rfl, rfl, hmod, hspare, h⟩

theorem popReadyBuffers_eq_none (h : c.popReadyBuffers = .ok (none, c')) : c' = c := by
  cases hclosed : c.closed with
  | true =>
    rw [popReadyBuffers_closed hclosed] at h
    cases h
  | false =>
    by_cases hlive : ∀ ctx ∈ c.contextTable.live.head?, ctx.writeGroups = []
    · rw [popReadyBuffers_none hclosed hlive] at h
      simpa using h.symm
    · push Not at hlive
      obtain ⟨ctx, hctx, hne⟩ := hlive
      obtain ⟨ctxs, hlive⟩ := List.head?_eq_some_iff.mp hctx
      obtain ⟨wg, rest, hgroups⟩ := List.exists_cons_of_ne_nil hne
      obtain ⟨c'', hc, -⟩ := popReadyBuffers_some hclosed hlive hgroups
      simp [hc] at h

theorem popReadyBuffers_inv {wg : WriteGroup} {id : RequestId}
    (h : c.popReadyBuffers = .ok (some (wg, id), c')) :
    c.closed = false ∧ c'.requestIdCounter = c.requestIdCounter ∧
      ∃ ctx ctxs rest, c.contextTable.live = ctx :: ctxs ∧ ctx.writeGroups = wg :: rest ∧
        if ctx.dequeueGroup.isComplete then
          c'.contextTable.live = ctxs ∧ c'.contextTable.spare = c.contextTable.spare ++ [ctx.dequeueGroup] ∧
            c'.closed = decide (ctx.responseOutputFlags.responseConnection = .connectionClose)
        else c'.contextTable.live = ctx.dequeueGroup :: ctxs ∧ c'.contextTable.spare = c.contextTable.spare ∧
            c'.closed = false := by
  cases hclosed : c.closed with
  | true =>
    rw [popReadyBuffers_closed hclosed] at h
    cases h
  | false =>
    cases hlive : c.contextTable.live with
    | nil =>
      rw [popReadyBuffers_none hclosed (by simp [hlive])] at h
      cases h
    | cons ctx ctxs =>
      cases hgroups : ctx.writeGroups with
      | nil =>
        rw [popReadyBuffers_none hclosed (by simp [hlive, hgroups])] at h
        cases h
      | cons wg' rest =>
        obtain ⟨c'', hc, hcounter, hcase⟩ := popReadyBuffers_some hclosed hlive hgroups
        obtain ⟨⟨rfl, -⟩, rfl⟩ : (wg' = wg ∧ ctx.requestId = id) ∧ c'' = c' := by simpa [hc] using h
        exact ⟨rfl, hcounter, ctx, ctxs, rest, rfl, hgroups, hcase⟩

theorem resetStep_inv {dropped : Option WriteGroup} (h : c.resetStep = some (dropped, c')) :
    ∃ ctx ctxs, c.contextTable.live = ctx :: ctxs ∧
      (ctx.writeGroups = [] ∧ dropped = none ∧ c' = { c with contextTable := c.contextTable.pop } ∨
        ∃ wg rest, ctx.writeGroups = wg :: rest ∧ dropped = some wg ∧
          c' = { c with contextTable := c.contextTable.modify 0 ResponseContext.dequeueGroup }) := by
  rw [resetStep] at h
  split at h
  · cases h
  · next hempty =>
    rw [ResponseContextTable.empty_iff] at hempty
    obtain ⟨ctx, ctxs, hlive⟩ := List.exists_cons_of_ne_nil hempty
    rw [ResponseContextTable.front_eq hempty, hlive, List.head?_cons, Option.map_some] at h
    refine ⟨ctx, ctxs, hlive, ?_⟩
    cases hgroups : ctx.writeGroups with
    | nil =>
      rw [hgroups] at h
      cases h
      exact .inl ⟨rfl, rfl, rfl⟩
    | cons wg rest =>
      rw [hgroups] at h
      cases h
      exact .inr ⟨wg, rest, rfl, rfl, rfl⟩

end Coordinator

namespace Represents

variable {maxReqCount : ℕ} {c c' : Coordinator} {p : Pipeline}

theorem initial (maxReqCount : ℕ) : Represents maxReqCount (.initial maxReqCount) .empty where
  tracks := by simp [Coordinator.initial, Pipeline.empty, Tracks]
  counter := rfl
  spare := by
    intro ctx hctx
    simp only [Coordinator.initial, Ring.ofCells_spare] at hctx
    rw [List.eq_of_mem_replicate hctx]
    rfl
  finished := by simp [Pipeline.empty]
  closed := rfl
  kept := by simp [Pipeline.empty]
  stopped := fun _ => rfl
  capacity := by simp [Coordinator.initial]

theorem register (h : Represents maxReqCount c p) {id : RequestId} (hok : c.registerNewRequest = .ok (id, c')) :
    Represents maxReqCount c' (p.step .registered) := by
  obtain ⟨ctx, ctxs, hspare, rfl, hlive, hspare', hcounter, hclosed⟩ := Coordinator.registerNewRequest_inv hok
  have hcapacity := h.capacity
  refine ⟨?_, ?_, ?_, h.finished, hclosed.trans h.closed, h.kept, hclosed ▸ h.stopped, ?_⟩
  · rw [hlive]
    refine h.tracks.concat ?_ (h.spare ctx (by simp [hspare])) rfl
    rw [h.tracks.length_eq, ResponseContext.reinit, h.counter, Pipeline.answers, List.length_append]
  · simp only [hcounter, h.counter, Pipeline.answers, Pipeline.step, List.length_append, List.length_singleton,
      ← Nat.add_assoc, UInt32.ofNat_add]
    rfl
  · rw [hspare']
    exact fun ctx' h' => h.spare ctx' (by simp [hspare, h'])
  · rw [hlive, hspare', List.length_append, List.length_singleton, ← hcapacity, hspare, List.length_cons]
    omega

theorem append (h : Represents maxReqCount c p) {id : RequestId} {flags : ResponseOutputFlags} {wg : WriteGroup}
    (hok : c.appendResponse id flags wg = .ok c') : Represents maxReqCount c' (p.step (.appended id flags wg)) := by
  obtain ⟨hopen, hopen', hcounter, -, hlive, hspare⟩ := Coordinator.appendResponse_ok h.tracks.numbered hok
  refine ⟨?_, ?_, ?_, h.finished, ?_, h.kept, by simp [hopen'], ?_⟩
  · rw [hlive]
    exact h.tracks.modify _ flags wg
  · rw [hcounter, h.counter, Pipeline.answers, Pipeline.answers, Pipeline.step, List.length_append,
      List.length_append, List.length_modify]
  · rw [hspare]
    exact h.spare
  · rw [hopen', ← hopen]
    exact h.closed
  · rw [hlive, hspare, List.length_modify]
    exact h.capacity

theorem kept_of_open (h : Represents maxReqCount c p) (hopen : c.closed = false) : ∀ a ∈ p.finished, a.closing = false := by
  rcases List.eq_nil_or_concat p.finished with hnil | ⟨init, last, hlast⟩
  · simp [hnil]
  · have hkept := h.kept
    have hclosed := h.closed
    rw [List.concat_eq_append] at hlast
    rw [hlast, List.dropLast_concat] at hkept
    rw [hopen, hlast, List.getLast?_concat] at hclosed
    intro a ha
    rw [hlast, List.mem_append, List.mem_singleton] at ha
    rcases ha with ha | rfl
    · exact hkept a ha
    · exact hclosed.symm

theorem pop (h : Represents maxReqCount c p) {wg : WriteGroup} {id : RequestId}
    (hok : c.popReadyBuffers = .ok (some (wg, id), c')) :
    ∃ last, last = decide (c'.contextTable.count < c.contextTable.count) ∧
      Represents maxReqCount c' (p.step (.popped wg last)) ∧ (p.step (.popped wg last)).sent = p.sent ++ wg.tokens := by
  obtain ⟨hopen, hcounter, ctx, ctxs, rest, hlive, hgroups, hcase⟩ := Coordinator.popReadyBuffers_inv hok
  have htracks := h.tracks
  rw [hlive] at htracks
  cases hpending : p.pending with
  | nil =>
    rw [hpending] at htracks
    exact htracks.elim
  | cons a pending =>
    rw [hpending] at htracks
    obtain ⟨⟨hid, htokens, hflags, -⟩, hrest⟩ := htracks
    rw [ResponseContext.tokens_of_writeGroups hgroups] at htokens
    have hanswers := h.counter
    rw [Pipeline.answers, hpending] at hanswers
    have hcapacity := h.capacity
    rw [hlive, List.length_cons] at hcapacity
    by_cases hcomplete : ctx.dequeueGroup.isComplete = true
    · obtain ⟨hlive', hspare', hclosed'⟩ := by simpa [hcomplete] using hcase
      rw [ResponseContext.isComplete, decide_eq_true_eq, List.isEmpty_iff] at hcomplete
      have hall : p.taken ++ wg.tokens = a.tokens := by
        rw [← htokens, ResponseContext.tokens, hcomplete.1, List.flatMap_nil, List.append_nil]
      have hfinal : a.final := by
        rw [Answer.final, ← hflags]
        exact hcomplete.2
      have hstep : p.step (.popped wg true) = ⟨p.finished ++ [a], pending, []⟩ := by
        simp [Pipeline.step, hpending]
      refine ⟨true, ?_, ?_, by simp [hstep, Pipeline.sent, hall]⟩
      · rw [← Ring.live_length, ← Ring.live_length, hlive, hlive']
        simp
      rw [hstep]
      refine ⟨?_, ?_, ?_, ?_, ?_, ?_, fun _ => rfl, ?_⟩
      · simpa [hlive'] using hrest
      · simp [hcounter, hanswers, Pipeline.answers]
      · rw [hspare']
        exact List.forall_mem_append.mpr ⟨h.spare, List.forall_mem_singleton.mpr hcomplete.1⟩
      · exact List.forall_mem_append.mpr ⟨h.finished, List.forall_mem_singleton.mpr hfinal⟩
      · simp [hclosed', Answer.closing, hflags]
      · rw [List.dropLast_concat]
        exact h.kept_of_open hopen
      · rw [hlive', hspare', List.length_append, List.length_singleton]
        omega
    · obtain ⟨hlive', hspare', hclosed'⟩ := by simpa [hcomplete] using hcase
      refine ⟨false, ?_, ⟨?_, ?_, ?_, h.finished, hclosed'.trans (hopen.symm.trans h.closed), h.kept,
        by simp [hclosed'], ?_⟩, ?_⟩
      · rw [← Ring.live_length, ← Ring.live_length, hlive, hlive']
        simp
      · rw [hlive']
        simp only [Pipeline.step, hpending]
        refine ⟨⟨hid, by rw [List.append_assoc, htokens], hflags, fun hfinal hnil => hcomplete ?_⟩, hrest⟩
        rw [ResponseContext.isComplete, decide_eq_true_eq, List.isEmpty_iff]
        exact ⟨hnil, by rw [← hfinal, ← hflags]; rfl⟩
      · simp [hcounter, hanswers, Pipeline.answers, Pipeline.step, hpending]
      · rw [hspare']
        exact h.spare
      · rw [hlive', hspare', List.length_cons]
        exact hcapacity
      · simp [Pipeline.sent, Pipeline.step]

theorem conserved (h : Represents maxReqCount c p) :
    p.sent ++ c.contextTable.live.flatMap ResponseContext.tokens = p.answers.flatMap Answer.tokens := by
  rw [Pipeline.sent, Pipeline.answers, List.append_assoc, h.tracks.tokens, List.flatMap_append]

theorem pending_le (h : Represents maxReqCount c p) : p.pending.length ≤ maxReqCount := by
  have := h.capacity
  rw [← h.tracks.length_eq]
  omega

end Represents

section Runs

inductive Call where
  | registerNewRequest
  | appendResponse (id : RequestId) (flags : ResponseOutputFlags) (wg : WriteGroup)
  | popReadyBuffers

namespace Coordinator

variable (c : Coordinator)

def call : Call → Coordinator × List Event
  | .registerNewRequest =>
    match c.registerNewRequest with
    | .ok (_, c') => (c', [.registered])
    | .error _ => (c, [])
  | .appendResponse id flags wg =>
    match c.appendResponse id flags wg with
    | .ok c' => (c', [.appended id flags wg])
    | .error _ => (c, [])
  | .popReadyBuffers =>
    match c.popReadyBuffers with
    | .ok (some (wg, _), c') => (c', [.popped wg (c'.contextTable.count < c.contextTable.count)])
    | .ok (none, _) => (c, [])
    | .error _ => (c, [])

def run : Coordinator → List Call → Coordinator × List Event
  | c, [] => (c, [])
  | c, x :: calls => ((run (c.call x).1 calls).1, (c.call x).2 ++ (run (c.call x).1 calls).2)

end Coordinator

def Event.given : Event → List Token
  | .popped wg _ => wg.tokens
  | _ => []

variable {maxReqCount : ℕ} {c : Coordinator} {p : Pipeline}

theorem Represents.call (h : Represents maxReqCount c p) (x : Call) :
    Represents maxReqCount (c.call x).1 ((c.call x).2.foldl Pipeline.step p) ∧
      ((c.call x).2.foldl Pipeline.step p).sent = p.sent ++ (c.call x).2.flatMap Event.given := by
  cases x with
  | registerNewRequest =>
    rw [Coordinator.call]
    cases hr : c.registerNewRequest with
    | error e => exact ⟨h, by simp⟩
    | ok r => exact ⟨h.register hr, by simp [Pipeline.sent, Pipeline.step, Event.given]⟩
  | appendResponse id flags wg =>
    rw [Coordinator.call]
    cases hr : c.appendResponse id flags wg with
    | error e => exact ⟨h, by simp⟩
    | ok c' => exact ⟨h.append hr, by simp [Pipeline.sent, Pipeline.step, Event.given]⟩
  | popReadyBuffers =>
    rw [Coordinator.call]
    cases hr : c.popReadyBuffers with
    | error e => exact ⟨h, by simp⟩
    | ok r =>
      obtain ⟨_ | ⟨wg, id⟩, c'⟩ := r
      · exact ⟨h, by simp⟩
      · obtain ⟨last, rfl, hrep, hsent⟩ := h.pop hr
        exact ⟨hrep, by simpa [Event.given] using hsent⟩

theorem Represents.run (h : Represents maxReqCount c p) (calls : List Call) :
    Represents maxReqCount (c.run calls).1 ((c.run calls).2.foldl Pipeline.step p) ∧
      ((c.run calls).2.foldl Pipeline.step p).sent = p.sent ++ (c.run calls).2.flatMap Event.given := by
  induction calls generalizing c p with
  | nil => exact ⟨h, by simp [Coordinator.run]⟩
  | cons x calls ih =>
    obtain ⟨hcall, hsent⟩ := h.call x
    obtain ⟨hrun, hsent'⟩ := ih hcall
    rw [Coordinator.run, List.foldl_append, List.flatMap_append, ← List.append_assoc, ← hsent]
    exact ⟨hrun, hsent'⟩

/-- Whatever the order in which requests are registered, parts of responses are appended and groups are
taken to be written: what is taken comes in the order of the requests, each answer in the order of its
parts and complete before the next one begins, and nothing is taken after an answer that closes the
connection; at most `maxReqCount` requests are pending. -/
theorem responses_taken_in_request_order (maxReqCount : ℕ) (calls : List Call) :
    let r := (Coordinator.initial maxReqCount).run calls
    let p := Pipeline.after r.2
    r.2.flatMap Event.given = p.finished.flatMap Answer.tokens ++ p.taken ∧
      (∃ rest, r.2.flatMap Event.given ++ rest = p.answers.flatMap Answer.tokens) ∧
      (∀ a ∈ p.finished, a.final) ∧ (∀ a ∈ p.finished.dropLast, a.closing = false) ∧
      (r.1.closed = true ↔ ∃ a ∈ p.finished.getLast?, a.closing = true) ∧
      (r.1.closed = true → p.taken = []) ∧ p.pending.length ≤ maxReqCount := by
  obtain ⟨h, hsent⟩ := (Represents.initial maxReqCount).run calls
  intro r p
  have hgiven : r.2.flatMap Event.given = p.sent := hsent.symm
  have hclosed : r.1.closed = p.finished.getLast?.any Answer.closing := h.closed
  refine ⟨hgiven, ⟨_, hgiven ▸ h.conserved⟩, h.finished, h.kept, ?_, h.stopped, h.pending_le⟩
  rw [hclosed, Option.any_eq_true]
  rfl

/-- A part of a response is accepted as long as no closing answer has been given out, for a pending
request whose answer is not complete, and only if the numbers of the pending requests do not wrap
around; with a single pending request they never do. -/
theorem append_accepted_iff (maxReqCount : ℕ) (hmax : maxReqCount ≤ 2 ^ 32) (calls : List Call) (id : RequestId)
    (flags : ResponseOutputFlags) (wg : WriteGroup) :
    let r := (Coordinator.initial maxReqCount).run calls
    let p := Pipeline.after r.2
    (∃ c, r.1.appendResponse id flags wg = .ok c) ↔
      r.1.closed = false ∧ p.finished.length % 2 ^ 32 + p.pending.length ≤ 2 ^ 32 ∧
        ∃ a ∈ p.pending[p.offset id]?, ¬ a.final := by
  obtain ⟨h, -⟩ := (Represents.initial maxReqCount).run calls
  intro r p
  have htracks : Tracks p.finished.length p.taken r.1.contextTable.live p.pending := h.tracks
  have hcount : r.1.contextTable.count = p.pending.length := by rw [← Ring.live_length, htracks.length_eq]
  have hle : r.1.contextTable.count ≤ 2 ^ 32 := by rw [hcount]; exact h.pending_le.trans hmax
  rw [Coordinator.appendResponse_isOk_iff htracks.numbered hle, hcount]
  refine and_congr_right fun _ => and_congr_right fun _ => ?_
  have hflags := congrArg (·[p.offset id]?) htracks.flags
  simp only [List.getElem?_map] at hflags
  change (∃ ctx, r.1.contextTable.live[p.offset id]? = some ctx ∧ _) ↔ _
  cases hctx : r.1.contextTable.live[p.offset id]? with
  | none =>
    rw [hctx, Option.map_none, eq_comm, Option.map_eq_none_iff] at hflags
    simp [hflags]
  | some ctx =>
    rw [hctx, Option.map_some, eq_comm, Option.map_eq_some_iff] at hflags
    obtain ⟨a, ha, hflags⟩ := hflags
    simp [ha, Answer.final, hflags]

theorem append_accepted_iff_second :
    ∃ c, ((Coordinator.initial 2).run [.registerNewRequest, .registerNewRequest,
        .appendResponse 0 ⟨.finalParts, .connectionKeepalive⟩ (.ofItems []), .popReadyBuffers]).1.appendResponse 1
      ⟨.finalParts, .connectionKeepalive⟩ (.ofItems []) = .ok c :=
  (append_accepted_iff 2 (by decide) _ 1 ⟨.finalParts, .connectionKeepalive⟩ (.ofItems [])).mpr
    ⟨rfl, by decide, .fresh, rfl, by simp [Answer.final, Answer.fresh]⟩

end Runs

end NgkNet.Restinio.Http
