import NgkNet.Restinio.WebSocket.Lifetime
import NgkNet.Voresmain.Handlers

set_option autoImplicit false

namespace NgkNet.Voresmain

open Restinio WebSocket

namespace Registry

variable {id : ℕ} {ws : Ws} {r : Registry}

def ids (r : Registry) : List ℕ := r.map Prod.fst

theorem mem_emplace {e : ℕ × Ws} (h : e ∈ r.emplace id ws) : e = (id, ws) ∨ e ∈ r := by
  induction r with
  | nil => exact .inl (List.mem_singleton.mp h)
  | cons d r ih =>
    rw [emplace] at h
    split at h
    · exact List.mem_cons.mp h
    split at h
    · exact .inr h
    rcases List.mem_cons.mp h with rfl | h
    · exact .inr List.mem_cons_self
    · exact (ih h).imp_right (List.mem_cons_of_mem d)

theorem mem_ids_emplace {j : ℕ} : j ∈ (r.emplace id ws).ids ↔ j = id ∨ j ∈ r.ids := by
  induction r with
  | nil => simp [emplace, ids]
  | cons d r ih =>
    rw [ids, ids] at ih
    rw [emplace]
    split
    · simp [ids]
    split
    next hd => simp [ids, hd]
    · rw [ids, List.map_cons, List.mem_cons, ih, ids, List.map_cons, List.mem_cons, or_left_comm]

theorem emplace_ordered (h : r.Pairwise (fun a b => a.1 < b.1)) :
    (r.emplace id ws).Pairwise (fun a b => a.1 < b.1) := by
  induction r with
  | nil => exact List.pairwise_singleton _ _
  | cons d r ih =>
    obtain ⟨hd, hr⟩ := List.pairwise_cons.mp h
    rw [emplace]
    split
    next hlt =>
      refine List.pairwise_cons.mpr ⟨fun e he => ?_, h⟩
      rcases List.mem_cons.mp he with rfl | he
      · exact hlt
      · exact hlt.trans (hd e he)
    split
    · exact h
    next hlt hne =>
      refine List.pairwise_cons.mpr ⟨fun e he => ?_, ih hr⟩
      rcases mem_emplace he with rfl | he
      · exact lt_of_le_of_ne (not_lt.mp hlt) (Ne.symm hne)
      · exact hd e he

theorem mem_ids_erase {j : ℕ} : j ∈ (r.erase id).ids ↔ j ∈ r.ids ∧ j ≠ id := by
  simp only [erase, ids, List.mem_map, List.mem_filter, decide_eq_true_eq]
  constructor
  · rintro ⟨e, ⟨he, hne⟩, rfl⟩
    exact ⟨⟨e, he, rfl⟩, hne⟩
  · rintro ⟨⟨e, he, rfl⟩, hne⟩
    exact ⟨e, ⟨he, hne⟩, rfl⟩

theorem find_eq_none (h : id ∉ r.ids) : r.find id = none := by
  rw [find, Option.map_eq_none_iff, List.find?_eq_none]
  intro e he hid
  exact h (List.mem_map.mpr ⟨e, he, by simpa using hid⟩)

theorem find_of_mem (howned : ∀ e ∈ r, e.2.wsConnectionHandle = true) (h : id ∈ r.ids) : r.find id = some ⟨true⟩ := by
  obtain ⟨e, he, rfl⟩ := List.mem_map.mp h
  obtain ⟨d, hd⟩ := Option.isSome_iff_exists.mp
    (List.find?_isSome (p := fun d => decide (d.1 = e.1)).mpr ⟨e, he, by simp⟩)
  have hown := howned d (List.mem_of_find?_eq_some hd)
  rw [find, hd, Option.map_some]
  exact congrArg some (congrArg Ws.mk hown)

end Registry

structure Store.Owning (s : Store) : Prop where
  ordered : s.registry.Pairwise (fun a b => a.1 < b.1)
  owned : ∀ e ∈ s.registry, e.2.wsConnectionHandle = true

namespace Store

variable {s : Store} {id : ℕ} {m : Message}

theorem reply_fst (hm : m.opcode ≠ .connectionCloseFrame) : (s.reply id m).1 = s := by
  rw [reply, send]
  cases s.registry.find id with
  | none => rfl
  | some ws =>
    dsimp only
    rw [if_neg hm]
    cases ws.wsConnectionHandle <;> rfl

theorem mem_reply {out : Message} (h : out ∈ (s.reply id m).2) : out = m := by
  rw [reply] at h
  split at h
  · exact List.mem_singleton.mp h
  · cases h

theorem liveUpdateCall_data (hm : m.opcode ≠ .connectionCloseFrame) : (liveUpdateCall id m s).1 = s := by
  rw [liveUpdateCall]
  split
  · exact reply_fst hm
  split
  · exact reply_fst (by simp)
  · rfl

theorem liveUpdateCall_sends {out : Message} (h : out ∈ (liveUpdateCall id m s).2) :
    out.opcode ≠ .connectionCloseFrame := by
  rw [liveUpdateCall] at h
  split at h
  next hm =>
    rw [mem_reply h]
    rintro hc
    simp [hc] at hm
  split at h
  · rw [mem_reply h]
    simp
  · split at h <;> simp at h

theorem Owning.connectionId (h : s.Owning) (id : ℕ) : s.connectionId id = id := by
  rw [Store.connectionId]
  by_cases hid : id ∈ s.registry.ids
  · rw [Registry.find_of_mem h.owned hid]
    rfl
  · rw [Registry.find_eq_none hid]

theorem Owning.liveUpdateCall_close (h : s.Owning) (hm : m.opcode = .connectionCloseFrame) :
    (liveUpdateCall id m s).1 = { s with registry := s.registry.erase id } := by
  rw [liveUpdateCall, h.connectionId]
  simp [hm]

theorem Owning.erase (h : s.Owning) (id : ℕ) : ({ s with registry := s.registry.erase id } : Store).Owning :=
  ⟨h.ordered.filter _, fun e he => h.owned e (List.mem_filter.mp he).1⟩

theorem Owning.emplace (h : s.Owning) (id : ℕ) :
    ({ s with registry := s.registry.emplace id ⟨true⟩ } : Store).Owning := by
  refine ⟨Registry.emplace_ordered h.ordered, fun e he => ?_⟩
  rcases Registry.mem_emplace he with rfl | he
  · rfl
  · exact h.owned e he

theorem Owning.liveUpdateCall (h : s.Owning) (id : ℕ) (m : Message) : (liveUpdateCall id m s).1.Owning := by
  by_cases hm : m.opcode = .connectionCloseFrame
  · rw [h.liveUpdateCall_close hm]
    exact h.erase id
  · rw [liveUpdateCall_data hm]
    exact h

theorem Owning.send (h : s.Owning) (hid : id ∈ s.registry.ids) (hm : m.opcode ≠ .connectionCloseFrame) :
    s.send id m = .ok s := by
  rw [Store.send, Registry.find_of_mem h.owned hid]
  simp [hm]

end Store

abbrev OwningStore := { s : Store // s.Owning }

def liveUpdateHandler : MessageHandler OwningStore where
  call id m s := (⟨(liveUpdateCall id m s.1).1, s.2.liveUpdateCall id m⟩, (liveUpdateCall id m s.1).2)
  holds s id := id ∈ s.1.registry.ids

theorem liveUpdateHandler_lawful : liveUpdateHandler.Lawful := by
  constructor
  · intro id m s j hm
    simp only [liveUpdateHandler, Store.liveUpdateCall_data hm]
  · intro id m s j hm
    simp only [liveUpdateHandler, s.2.liveUpdateCall_close hm, Registry.mem_ids_erase, Bool.decide_and]
  · intro id m s out hout
    exact Store.liveUpdateCall_sends hout

end NgkNet.Voresmain
