import Mathlib.Data.List.DropRight
import NgkNet.Base.Decimal

set_option autoImplicit false

namespace NgkNet

/-- A reader takes what it reads off the front of a text. -/
structure Reader (β α : Type) where
  run : List β → Option (α × List β)

namespace Reader

variable {β α γ : Type}

instance : Monad (Reader β) where
  pure a := ⟨fun s => some (a, s)⟩
  bind r f := ⟨fun s => (r.run s).bind fun p => (f p.1).run p.2⟩

def fail : Reader β α := ⟨fun _ => none⟩

def ofOption : Option α → Reader β α
  | none => fail
  | some a => pure a

def Reads (r : Reader β α) (text : List β) (a : α) : Prop := ∀ rest, r.run (text ++ rest) = some (a, rest)

theorem reads_pure (a : α) : Reads (pure a : Reader β α) [] a := fun _ => rfl

theorem reads_bind {r : Reader β α} {f : α → Reader β γ} {text text' : List β} {a : α} {c : γ} (h : Reads r text a)
    (h' : Reads (f a) text' c) : Reads (r >>= f) (text ++ text') c := by
  intro rest
  change (r.run (text ++ text' ++ rest)).bind (fun p => (f p.1).run p.2) = _
  rw [List.append_assoc, h]
  exact h' rest

theorem reads_last {r : Reader β α} {f : α → Reader β γ} {text : List β} {a : α} {c : γ} (h : Reads r text a)
    (h' : Reads (f a) [] c) : Reads (r >>= f) text c := by
  have := reads_bind h h'
  rwa [List.append_nil] at this

theorem reads_ofOption {o : Option α} {a : α} (h : o = some a) : Reads (ofOption o : Reader β α) [] a := by
  rw [h]
  exact reads_pure a

section Pieces

def exactly (n : ℕ) : Reader β (List β) := ⟨fun s => if n ≤ s.length then some (s.take n, s.drop n) else none⟩

theorem reads_exactly (text : List β) : Reads (exactly text.length) text text := by
  intro rest
  rw [exactly]
  dsimp only
  rw [if_pos (by simp), List.take_left, List.drop_left]

variable [DecidableEq β]

def literal (text : List β) : Reader β Unit := ⟨fun s => if text <+: s then some ((), s.drop text.length) else none⟩

theorem reads_literal (text : List β) : Reads (literal text) text () := by
  intro rest
  rw [literal]
  dsimp only
  rw [if_pos (List.prefix_append text rest), List.drop_left]

def upTo (b : β) : Reader β (List β) := ⟨fun s =>
  match s.dropWhile (· ≠ b) with
  | [] => none
  | _ :: rest => some (s.takeWhile (· ≠ b), rest)⟩

theorem reads_upTo {b : β} {text : List β} (h : b ∉ text) : Reads (upTo b) (text ++ [b]) text := by
  intro rest
  have hall : ∀ x ∈ text, decide (x ≠ b) = true := fun x hx => decide_eq_true fun heq => h (heq ▸ hx)
  rw [upTo, List.append_assoc, List.singleton_append]
  dsimp only
  rw [List.dropWhile_append_of_pos hall, List.takeWhile_append_of_pos hall, List.dropWhile_cons_of_neg (by simp),
    List.takeWhile_cons_of_neg (by simp), List.append_nil]

end Pieces

section Repetition

def itemsWithin (r : Reader β (Option α)) : ℕ → Reader β (List α)
  | 0 => fail
  | fuel + 1 => do
    match ← r with
    | none => pure []
    | some a => do
      let as ← itemsWithin r fuel
      pure (a :: as)

def items (r : Reader β (Option α)) : Reader β (List α) := ⟨fun s => (itemsWithin r (s.length + 1)).run s⟩

variable {r : Reader β (Option α)} {write : α → List β} {last : List β}

theorem reads_itemsWithin {as : List α} (has : ∀ a ∈ as, Reads r (write a) (some a)) (hlast : Reads r last none) {fuel : ℕ}
    (hfuel : as.length < fuel) : Reads (itemsWithin r fuel) (as.flatMap write ++ last) as := by
  induction as generalizing fuel with
  | nil =>
    obtain ⟨fuel, rfl⟩ := Nat.exists_eq_add_of_lt hfuel
    apply reads_last hlast
    apply reads_pure
  | cons a as ih =>
    obtain ⟨fuel, rfl⟩ := Nat.exists_eq_add_of_lt hfuel
    rw [List.flatMap_cons, List.append_assoc]
    apply reads_bind (has a List.mem_cons_self)
    apply reads_last (ih (fun b hb => has b (List.mem_cons_of_mem a hb)) (by simp only [List.length_cons]; omega))
    apply reads_pure

theorem length_le_flatMap {as : List α} (hwrite : ∀ a ∈ as, write a ≠ []) : as.length ≤ (as.flatMap write).length := by
  induction as with
  | nil => simp
  | cons a as ih =>
    have ha := List.length_pos_iff.mpr (hwrite a List.mem_cons_self)
    have hrest := ih fun b hb => hwrite b (List.mem_cons_of_mem a hb)
    rw [List.flatMap_cons, List.length_append, List.length_cons]
    omega

theorem reads_items {as : List α} (has : ∀ a ∈ as, Reads r (write a) (some a)) (hwrite : ∀ a ∈ as, write a ≠ [])
    (hlast : Reads r last none) : Reads (items r) (as.flatMap write ++ last) as := by
  intro rest
  have hlength := length_le_flatMap hwrite
  rw [items]
  dsimp only
  apply reads_itemsWithin has hlast
  simp only [List.length_append]
  omega

def allWithin (r : Reader β α) : ℕ → List β → Option (List α)
  | 0, _ => none
  | _ + 1, [] => some []
  | fuel + 1, b :: s =>
    match r.run (b :: s) with
    | none => none
    | some (a, rest) => (allWithin r fuel rest).map (a :: ·)

def all (r : Reader β α) (s : List β) : Option (List α) := allWithin r (s.length + 1) s

theorem allWithin_mono {r : Reader β α} {m n : ℕ} {s : List β} {as : List α} (hmn : m ≤ n)
    (h : allWithin r m s = some as) : allWithin r n s = some as := by
  induction m generalizing n s as with
  | zero => simp [allWithin] at h
  | succ m ih =>
    obtain ⟨n, rfl⟩ := Nat.exists_eq_succ_of_ne_zero (show n ≠ 0 by omega)
    cases s with
    | nil => exact h
    | cons b s =>
      simp only [allWithin] at h ⊢
      cases hread : r.run (b :: s) with
      | none => simp [hread] at h
      | some p =>
        rw [hread] at h
        obtain ⟨as', has', rfl⟩ := Option.map_eq_some_iff.mp h
        exact Option.map_eq_some_iff.mpr ⟨as', ih (by omega) has', rfl⟩

theorem all_append {r : Reader β α} {text rest : List β} {a : α} {as : List α} (h : Reads r text a) (hne : text ≠ [])
    (hrest : all r rest = some as) : all r (text ++ rest) = some (a :: as) := by
  obtain ⟨b, bs, rfl⟩ := List.exists_cons_of_ne_nil hne
  have hread := h rest
  have hmono := allWithin_mono (n := (b :: bs ++ rest).length)
    (by simp only [List.length_append, List.length_cons]; omega) hrest
  rw [List.cons_append] at hread
  rw [all, List.cons_append, allWithin, hread]
  exact Option.map_eq_some_iff.mpr ⟨as, hmono, rfl⟩

end Repetition

end Reader

namespace Ascii

section Numerals

def readDecimal (s : Str) : Option ℕ := if s ≠ [] ∧ s.all isDigit then some (decimal s) else none

theorem readDecimal_toString (n : ℕ) : readDecimal (ascii (toString n)) = some n := by
  obtain ⟨hdigits, hvalue⟩ := toString_spec n
  rw [readDecimal, if_pos ⟨toString_ne_nil n, List.all_eq_true.mpr hdigits⟩, hvalue]

def hexDigit (d : ℕ) : UInt8 := UInt8.ofNat (if d < 10 then 48 + d else 55 + d)

def hexValue? (c : UInt8) : Option ℕ :=
  if isDigit c then some (c.toNat - 48)
  else if code 'A' ≤ toUpper c ∧ toUpper c ≤ code 'F' then some ((toUpper c).toNat - 55)
  else none

def readHexadecimal (s : Str) : Option ℕ :=
  if s = [] then none else s.foldlM (fun n c => (hexValue? c).map (n * 16 + ·)) 0

end Numerals

end Ascii

end NgkNet
