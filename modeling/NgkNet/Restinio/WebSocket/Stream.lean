import NgkNet.Restinio.WebSocket.Fragments
import NgkNet.Restinio.WebSocket.Stability

set_option autoImplicit false

namespace NgkNet.Restinio.WebSocket

open Ascii

/-- A client may have sent these bytes, with this part of a message in front of them, and be served further: every
frame among them is in order, none of them is a close frame, and nothing is wrong yet with the one that is not whole. -/
inductive Survives (limit : ℕ) : Ongoing → Str → Prop
  | header {o : Ongoing} {s : Str} (h : FrameHeader.read s = none) : Survives limit o s
  | payload {o : Ongoing} {s data : Str} {hd : FrameHeader} (h : FrameHeader.read s = some (hd, data))
      (hpart : data.length < hd.length) (hv : hd.Valid o) (hfit : hd.length ≤ limit)
      (ha : Acceptable o (hd.message (mask hd.maskingKey 0 data))) : Survives limit o s
  | frame {o : Ongoing} {s data rest : Str} {hd : FrameHeader} (h : FrameHeader.read s = some (hd, data ++ rest))
      (hwhole : data.length = hd.length) (hv : hd.Valid o) (hfit : hd.length ≤ limit)
      (ha : Acceptable o (hd.message (mask hd.maskingKey 0 data))) (hclose : hd.opcode ≠ .connectionCloseFrame)
      (hu : hd.final = true → Utf8 (o.checked (hd.message (mask hd.maskingKey 0 data))))
      (hrest : Survives limit (o.next (hd.message (mask hd.maskingKey 0 data))) rest) : Survives limit o s

theorem mask_mask (key : Fin 4 → UInt8) (i : ℕ) (s : Str) : mask key i (mask key i s) = s := by
  induction s generalizing i with
  | nil => rfl
  | cons byte s ih => rw [mask, mask, ih, UInt8.xor_assoc, UInt8.xor_self, UInt8.xor_zero]

variable {limit : ℕ} {o : Ongoing} {s : Str} {hd : FrameHeader}

theorem Survives.valid (h : Survives limit o s) {data : Str} (hread : FrameHeader.read s = some (hd, data)) :
    hd.Valid o ∧ hd.length ≤ limit := by
  cases h with
  | header h => cases hread.symm.trans h
  | payload h hpart hv hfit =>
    obtain ⟨rfl, -⟩ := Prod.mk.inj (Option.some.inj (hread.symm.trans h))
    exact ⟨hv, hfit⟩
  | frame h hwhole hv hfit =>
    obtain ⟨rfl, -⟩ := Prod.mk.inj (Option.some.inj (hread.symm.trans h))
    exact ⟨hv, hfit⟩

theorem Survives.acceptable (h : Survives limit o s) {part rest : Str}
    (hread : FrameHeader.read s = some (hd, mask hd.maskingKey 0 part ++ rest)) (hlen : part.length ≤ hd.length) :
    Acceptable o (hd.message part) := by
  cases h with
  | header h => cases hread.symm.trans h
  | payload h hpart hv hfit ha =>
    obtain ⟨rfl, rfl⟩ := Prod.mk.inj (Option.some.inj (hread.symm.trans h))
    rw [mask_append, mask_mask] at ha
    exact ha.of_append
  | @frame _ _ data tail _ h hwhole hv hfit ha =>
    obtain ⟨rfl, hdata⟩ := Prod.mk.inj (Option.some.inj (hread.symm.trans h))
    obtain ⟨b, hb⟩ : mask hd.maskingKey 0 part <+: data := by
      refine List.prefix_of_prefix_length_le ⟨rest, hdata⟩ ⟨tail, rfl⟩ ?_
      rw [mask_length]
      omega
    rw [← hb, mask_append, mask_mask] at ha
    exact ha.of_append

theorem survives_frame_iff {payload rest : Str}
    (hread : FrameHeader.read s = some (hd, mask hd.maskingKey 0 payload ++ rest)) (hlen : payload.length = hd.length)
    (hv : hd.Valid o) (hfit : hd.length ≤ limit) (ha : Acceptable o (hd.message payload)) :
    Survives limit o s ↔ hd.opcode ≠ .connectionCloseFrame ∧
      (hd.final = true → Utf8 (o.checked (hd.message payload))) ∧
      Survives limit (o.next (hd.message payload)) rest := by
  constructor
  · intro h
    cases h with
    | header h => cases hread.symm.trans h
    | payload h hpart =>
      obtain ⟨rfl, rfl⟩ := Prod.mk.inj (Option.some.inj (hread.symm.trans h))
      rw [List.length_append, mask_length] at hpart
      omega
    | @frame _ _ data tail _ h hwhole _ _ _ hclose hu hrest =>
      obtain ⟨rfl, hdata⟩ := Prod.mk.inj (Option.some.inj (hread.symm.trans h))
      obtain ⟨hpayload, rfl⟩ := List.append_inj hdata (by rw [mask_length, hlen, hwhole])
      rw [← hpayload, mask_mask] at hu hrest
      exact ⟨hclose, hu, hrest⟩
  · rintro ⟨hclose, hu, hrest⟩
    have hmask := mask_mask hd.maskingKey 0 payload
    exact .frame hread (by rw [mask_length, hlen]) hv hfit (hmask.symm ▸ ha) hclose (hmask.symm ▸ hu) (hmask.symm ▸ hrest)

inductive Conn.Stands (limit : ℕ) (o : Ongoing) (c : Conn) : Str → Prop
  | header {a : Str} (hr : c.reading = .header) (hv : c.validator.Between o)
      (hp : Parser.initial.parserExecute a = .ok (c.parser, [])) (hnot : FrameHeader.read a = none)
      (hpay : c.payload = []) : Stands limit o c a
  | payload {a part : Str} {hd : FrameHeader} (hr : c.reading = .payload (hd.length - part.length) true)
      (hread : FrameHeader.read a = some (hd, mask hd.maskingKey 0 part)) (hpart : part.length < hd.length)
      (hvalid : hd.Valid o) (hfit : hd.length ≤ limit) (ha : Acceptable o (hd.message part))
      (hv : c.validator.Inside o hd part) (hm : hd.Matches c.parser.currentMsg) (hpay : c.payload = part) :
      Stands limit o c a

theorem Conn.Stands.of_input {c d : Conn} (h : c.Stands limit o s) (hd : d.input = c.input) : d.Stands limit o s := by
  simp only [Conn.input, Prod.mk.injEq] at hd
  obtain ⟨hparser, hpayload, hvalidator, hreading⟩ := hd
  cases h with
  | header hr hv hp hnot hpay =>
    exact .header (hreading.trans hr) (hvalidator ▸ hv) (hparser ▸ hp) hnot (hpayload.trans hpay)
  | payload hr hread hpart hvalid hfit ha hv hm hpay =>
    exact .payload (hreading.trans hr) hread hpart hvalid hfit ha (hvalidator ▸ hv) (hparser ▸ hm)
      (hpayload.trans hpay)

theorem Conn.activated_stands (k : Clock) (response : Str) : (Conn.activated k response).Stands limit .none [] :=
  .header rfl ⟨rfl, rfl, rfl, Utf8Checker.tracks_nil.mpr Utf8Checker.initial_complete⟩ rfl rfl rfl

theorem Conn.Stands.reading_ne {c : Conn} (h : c.Stands limit o s) : c.reading ≠ .nothing := by
  cases h with
  | header hr => rw [hr]; exact fun h => (nomatch h)
  | payload hr => rw [hr]; exact fun h => (nomatch h)

theorem Conn.Stands.survives {c : Conn} (h : c.Stands limit o s) : Survives limit o s := by
  cases h with
  | header hr hv hp hnot => exact .header hnot
  | @payload part hd hr hread hpart hvalid hfit ha =>
    exact .payload hread (by rw [mask_length]; exact hpart) hvalid hfit ((mask_mask hd.maskingKey 0 part).symm ▸ ha)

end NgkNet.Restinio.WebSocket
