import NgkNet.Base.Readers
import NgkNet.Restinio.Request

set_option autoImplicit false

namespace NgkNet.Restinio.Http

open Ascii

def isEqualCaseless (a b : Str) : Bool := a.length = b.length && (a.zip b).all (fun p => toLower p.1 = toLower p.2)

def lowerCase (name : Str) : Str := name.map toLower

theorem isEqualCaseless_iff {a b : Str} : isEqualCaseless a b = true ↔ lowerCase a = lowerCase b := by
  induction a generalizing b with
  | nil => cases b <;> simp [isEqualCaseless, lowerCase]
  | cons x a ih =>
    cases b with
    | nil => simp [isEqualCaseless, lowerCase]
    | cons y b =>
      rw [lowerCase, lowerCase, List.map_cons, List.map_cons, List.cons.injEq, ← lowerCase, ← lowerCase, ← ih]
      simp only [isEqualCaseless, List.length_cons, List.zip_cons_cons, List.all_cons, Bool.and_eq_true, decide_eq_true_eq,
        add_left_inj]
      tauto

/-- A field is its name and its value; the id of a field follows from its name. -/
abbrev HeaderFields := List (Str × Str)

namespace HeaderFields

variable (fields : HeaderFields)

def find (name : Str) : Option ℕ := fields.findIdx? (fun f => isEqualCaseless f.1 name)

def hasField (name : Str) : Bool := (fields.find name).isSome

def setField (name value : Str) : HeaderFields :=
  match fields.find name with
  | some i => fields.set i (name, value)
  | none => fields ++ [(name, value)]

def setFieldById (name value : Str) : HeaderFields :=
  match fields.find name with
  | some i => fields.modify i (fun f => (f.1, value))
  | none => fields ++ [(name, value)]

def addField (name value : Str) : HeaderFields := fields ++ [(name, value)]

def appendField (name value : Str) : HeaderFields :=
  match fields.find name with
  | some i => fields.modify i (fun f => (f.1, f.2 ++ value))
  | none => fields ++ [(name, value)]

def tryGetField (name : Str) : Option Str := (fields.find? (fun f => isEqualCaseless f.1 name)).map Prod.snd

def removeField (name : Str) : Bool × HeaderFields :=
  match fields.find name with
  | some i => (true, fields.eraseIdx i)
  | none => (false, fields)

def removeAllOf (name : Str) : ℕ × HeaderFields :=
  (fields.countP (fun f => isEqualCaseless f.1 name), fields.filter (fun f => !isEqualCaseless f.1 name))

def valuesOf (name : Str) : List Str := (fields.filter (fun f => isEqualCaseless f.1 name)).map Prod.snd

end HeaderFields

section Multimap

abbrev Multimap := Str → List Str

def HeaderFields.multimap (fields : HeaderFields) : Multimap :=
  fun key => (fields.filter (fun f => lowerCase f.1 = key)).map Prod.snd

inductive FieldsCall where
  | setField (name value : Str)
  | setFieldById (name value : Str)
  | addField (name value : Str)
  | appendField (name value : Str)
  | removeField (name : Str)
  | removeAllOf (name : Str)

namespace FieldsCall

def run (fields : HeaderFields) : FieldsCall → HeaderFields
  | setField name value => fields.setField name value
  | setFieldById name value => fields.setFieldById name value
  | addField name value => fields.addField name value
  | appendField name value => fields.appendField name value
  | removeField name => (fields.removeField name).2
  | removeAllOf name => (fields.removeAllOf name).2

def effect (m : Multimap) : FieldsCall → Multimap
  | setField name value | setFieldById name value =>
    Function.update m (lowerCase name) (value :: (m (lowerCase name)).tail)
  | addField name value => Function.update m (lowerCase name) (m (lowerCase name) ++ [value])
  | appendField name value =>
    Function.update m (lowerCase name) (((m (lowerCase name)).headD [] ++ value) :: (m (lowerCase name)).tail)
  | removeField name => Function.update m (lowerCase name) (m (lowerCase name)).tail
  | removeAllOf name => Function.update m (lowerCase name) []

end FieldsCall

namespace HeaderFields

variable {fields : HeaderFields} {name : Str} {i : ℕ}

theorem valuesOf_eq : fields.valuesOf name = fields.multimap (lowerCase name) := by
  rw [valuesOf, multimap]
  congr 2
  funext f
  rw [Bool.eq_iff_iff, isEqualCaseless_iff, decide_eq_true_eq]

theorem find_eq_some (h : fields.find name = some i) : ∃ front f back, fields = front ++ f :: back ∧ i = front.length ∧
    lowerCase f.1 = lowerCase name ∧ ∀ g ∈ front, lowerCase g.1 ≠ lowerCase name := by
  rw [find, List.findIdx?_eq_some_iff_getElem] at h
  obtain ⟨hi, hname, hfront⟩ := h
  refine ⟨fields.take i, fields[i], fields.drop (i + 1), ?_, ?_, isEqualCaseless_iff.mp hname, ?_⟩
  · rw [List.getElem_cons_drop, List.take_append_drop]
  · rw [List.length_take_of_le hi.le]
  · intro g hg heq
    obtain ⟨j, hj, rfl⟩ := List.mem_take_iff_getElem.mp hg
    exact hfront j (by omega) (isEqualCaseless_iff.mpr heq)

theorem modify_middle (front back : HeaderFields) (f : Str × Str) (g : Str × Str → Str × Str) :
    (front ++ f :: back).modify front.length g = front ++ g f :: back := by
  induction front with
  | nil => rfl
  | cons f' front ih => rw [List.cons_append, List.length_cons, List.modify_succ_cons, ih, List.cons_append]

theorem find_eq_none (h : fields.find name = none) : fields.multimap (lowerCase name) = [] := by
  rw [find, List.findIdx?_eq_none_iff] at h
  rw [multimap, List.map_eq_nil_iff, List.filter_eq_nil_iff]
  intro f hf heq
  rw [decide_eq_true_eq, ← isEqualCaseless_iff] at heq
  exact Bool.false_ne_true ((h f hf).symm.trans heq)

theorem multimap_split {front back : HeaderFields} {f : Str × Str} (hfront : ∀ g ∈ front, lowerCase g.1 ≠ lowerCase f.1) :
    multimap (front ++ f :: back) =
      Function.update (multimap (front ++ back)) (lowerCase f.1) (f.2 :: multimap (front ++ back) (lowerCase f.1)) := by
  funext key
  by_cases hkey : key = lowerCase f.1
  · subst hkey
    have hnil : front.filter (fun g => lowerCase g.1 = lowerCase f.1) = [] := by
      rw [List.filter_eq_nil_iff]
      intro g hg heq
      exact hfront g hg (of_decide_eq_true heq)
    rw [Function.update_self, multimap, multimap, List.filter_append, List.filter_append, hnil, List.nil_append,
      List.nil_append, List.filter_cons_of_pos (by simp), List.map_cons]
  · rw [Function.update_of_ne hkey, multimap, multimap, List.filter_append, List.filter_append,
      List.filter_cons_of_neg (by simpa using Ne.symm hkey)]

theorem multimap_concat (fields : HeaderFields) (name value : Str) : multimap (fields ++ [(name, value)]) =
    Function.update fields.multimap (lowerCase name) (fields.multimap (lowerCase name) ++ [value]) := by
  funext key
  rw [multimap, List.filter_append, List.map_append]
  by_cases hkey : key = lowerCase name
  · subst hkey
    rw [Function.update_self, List.filter_cons_of_pos (by simp)]
    rfl
  · rw [Function.update_of_ne hkey, List.filter_cons_of_neg (by simpa using Ne.symm hkey)]
    exact List.append_nil _

end HeaderFields

open HeaderFields

theorem FieldsCall.run_effect (fields : HeaderFields) (call : FieldsCall) :
    (call.run fields).multimap = call.effect fields.multimap := by
  -- The first field of the name is replaced, changed or taken out; a new one comes last.
  have hmiss : ∀ {name : Str} (value : Str), fields.find name = none → multimap (fields ++ [(name, value)]) =
      Function.update fields.multimap (lowerCase name) [value] := by
    intro name value hfind
    rw [multimap_concat, find_eq_none hfind, List.nil_append]
  cases call with
  | setField name value =>
    rw [run, HeaderFields.setField, effect]
    cases hfind : fields.find name with
    | none =>
      dsimp only
      rw [hmiss value hfind, find_eq_none hfind, List.tail_nil]
    | some i =>
      obtain ⟨front, f, back, rfl, rfl, hname, hfront⟩ := find_eq_some hfind
      dsimp only
      rw [List.set_append_right _ _ le_rfl, Nat.sub_self, List.set_cons_zero, multimap_split hfront,
        multimap_split (by rwa [hname]), hname]
      simp
  | setFieldById name value =>
    rw [run, HeaderFields.setFieldById, effect]
    cases hfind : fields.find name with
    | none =>
      dsimp only
      rw [hmiss value hfind, find_eq_none hfind, List.tail_nil]
    | some i =>
      obtain ⟨front, f, back, rfl, rfl, hname, hfront⟩ := find_eq_some hfind
      dsimp only
      rw [modify_middle, multimap_split (by rwa [hname]), multimap_split (by rwa [hname]), hname]
      simp
  | addField name value => exact multimap_concat fields name value
  | appendField name value =>
    rw [run, HeaderFields.appendField, effect]
    cases hfind : fields.find name with
    | none =>
      dsimp only
      rw [hmiss value hfind, find_eq_none hfind]
      rfl
    | some i =>
      obtain ⟨front, f, back, rfl, rfl, hname, hfront⟩ := find_eq_some hfind
      dsimp only
      rw [modify_middle, multimap_split (by rwa [hname]), multimap_split (by rwa [hname]), hname]
      simp
  | removeField name =>
    rw [run, HeaderFields.removeField, effect]
    cases hfind : fields.find name with
    | none =>
      dsimp only
      rw [find_eq_none hfind, List.tail_nil, ← find_eq_none hfind, Function.update_eq_self]
    | some i =>
      obtain ⟨front, f, back, rfl, rfl, hname, hfront⟩ := find_eq_some hfind
      dsimp only
      rw [List.eraseIdx_append_of_length_le le_rfl, Nat.sub_self, List.eraseIdx_cons_zero, multimap_split (by rwa [hname]),
        hname]
      simp
  | removeAllOf name =>
    rw [run, HeaderFields.removeAllOf, effect]
    funext key
    rw [multimap, List.filter_filter]
    by_cases hkey : key = lowerCase name
    · rw [hkey, Function.update_self, List.map_eq_nil_iff, List.filter_eq_nil_iff]
      intro f _ h
      rw [Bool.and_eq_true, decide_eq_true_eq, ← isEqualCaseless_iff] at h
      simp [h.1] at h
    · rw [Function.update_of_ne hkey, multimap]
      congr 2
      funext f
      rw [Bool.eq_iff_iff, Bool.and_eq_true, Bool.not_eq_true', ← Bool.not_eq_true, isEqualCaseless_iff, decide_eq_true_eq]
      constructor
      · exact fun h => h.1
      · rintro rfl
        exact ⟨rfl, hkey⟩

theorem FieldsCall.foldl_run (calls : List FieldsCall) (fields : HeaderFields) :
    (calls.foldl run fields).multimap = calls.foldl effect fields.multimap := by
  induction calls generalizing fields with
  | nil => rfl
  | cons call calls ih => rw [List.foldl_cons, List.foldl_cons, ih, run_effect]

def fieldsAfter (calls : List FieldsCall) : HeaderFields := calls.foldl FieldsCall.run []

def multimapAfter (calls : List FieldsCall) : Multimap := calls.foldl FieldsCall.effect (fun _ => [])

/-- The fields are a map from names, in whatever case, to lists of values, and are read as such. -/
theorem header_fields_multimap (calls : List FieldsCall) (name : Str) :
    (fieldsAfter calls).valuesOf name = multimapAfter calls (lowerCase name) ∧
      (fieldsAfter calls).tryGetField name = (multimapAfter calls (lowerCase name)).head? ∧
      ((fieldsAfter calls).hasField name = true ↔ multimapAfter calls (lowerCase name) ≠ []) ∧
      ((fieldsAfter calls).removeAllOf name).1 = (multimapAfter calls (lowerCase name)).length := by
  have hvalues : (fieldsAfter calls).valuesOf name = multimapAfter calls (lowerCase name) := by
    rw [valuesOf_eq, fieldsAfter, FieldsCall.foldl_run]
    rfl
  refine ⟨hvalues, ?_, ?_, ?_⟩
  · rw [← hvalues, valuesOf, List.head?_map, List.head?_filter, tryGetField]
  · rw [← hvalues, hasField, HeaderFields.find, List.findIdx?_isSome, List.any_eq_true, valuesOf, ne_eq, List.map_eq_nil_iff,
      List.filter_eq_nil_iff]
    simp only [not_forall, not_not, exists_prop]
  · rw [← hvalues, valuesOf, List.length_map, removeAllOf, List.countP_eq_length_filter]

end Multimap

section HeaderString

inductive ConnectionHeader where
  | keepAlive
  | close
  | upgrade
  deriving DecidableEq

structure ResponseHeader where
  httpMajor : ℕ
  httpMinor : ℕ
  contentLength : ℕ
  connection : ConnectionHeader
  statusLine : StatusLine
  fields : HeaderFields
  deriving DecidableEq

namespace ResponseHeader

def ofStatusLine (statusLine : StatusLine) (connection : ConnectionHeader) : ResponseHeader :=
  ⟨1, 1, 0, connection, statusLine, []⟩

def shouldKeepAlive (h : ResponseHeader) : Bool := h.connection = .keepAlive

def setShouldKeepAlive (keepAlive : Bool) (h : ResponseHeader) : ResponseHeader :=
  { h with connection := if keepAlive then .keepAlive else .close }

end ResponseHeader

inductive ContentLengthFieldPresence where
  | addContentLength
  | skipContentLength
  deriving DecidableEq

def ConnectionHeader.text : ConnectionHeader → Str
  | keepAlive => ascii "keep-alive"
  | close => ascii "close"
  | upgrade => ascii "Upgrade"

def crlf : Str := ascii "\r\n"

def digitChar (n : ℕ) : UInt8 := UInt8.ofNat (48 + n)

def fieldLine (f : Str × Str) : Str := f.1 ++ ascii ": " ++ f.2 ++ crlf

def statusLineText (h : ResponseHeader) : Str :=
  ascii "HTTP/" ++ [digitChar h.httpMajor] ++ ascii "." ++ [digitChar h.httpMinor] ++ ascii " " ++
    [digitChar (h.statusLine.code / 100 % 10), digitChar (h.statusLine.code / 10 % 10), digitChar (h.statusLine.code % 10)] ++
    ascii " " ++ h.statusLine.reason

def createHeaderString (h : ResponseHeader) (presence : ContentLengthFieldPresence) : Str :=
  statusLineText h ++ crlf ++ fieldLine (ascii "Connection", h.connection.text) ++
    (if presence = .addContentLength then fieldLine (ascii "Content-Length", ascii (toString h.contentLength)) else []) ++
    h.fields.flatMap fieldLine ++ crlf

def calculateStatusLineSize (h : ResponseHeader) : ℕ := 8 + 1 + 3 + 1 + h.statusLine.reason.length

theorem length_statusLineText (h : ResponseHeader) : (statusLineText h).length = calculateStatusLineSize h := by
  simp only [statusLineText, calculateStatusLineSize, List.length_append, List.length_cons, List.length_nil, ascii,
    List.length_map]
  rfl

theorem calculateStatusLineSize_le (h : ResponseHeader) (presence : ContentLengthFieldPresence) :
    calculateStatusLineSize h ≤ (createHeaderString h presence).length := by
  rw [← length_statusLineText]
  simp only [createHeaderString, List.length_append]
  omega

end HeaderString

end NgkNet.Restinio.Http
