import NgkNet.Restinio.Http.Headers

set_option autoImplicit false

namespace NgkNet.Restinio.Http

open Ascii Reader

section Client

/-- A response as a client reads it. -/
structure Message where
  httpMajor : ℕ
  httpMinor : ℕ
  status : StatusLine
  fields : HeaderFields
  body : Str
  deriving DecidableEq

def isOws (c : UInt8) : Bool := c = code ' ' || c = code '\t'

def strip (s : Str) : Str := (s.dropWhile isOws).rdropWhile isOws

def readLine : Reader UInt8 Str := do
  let text ← upTo (code '\r')
  literal [code '\n']
  pure text

def splitField (text : Str) : Option (Str × Str) :=
  match text.dropWhile (· ≠ code ':') with
  | [] => none
  | _ :: value =>
    if text.takeWhile (· ≠ code ':') = [] then none else some (text.takeWhile (· ≠ code ':'), strip value)

def readField : Reader UInt8 (Option (Str × Str)) := do
  let text ← readLine
  if text = [] then pure none
  else do
    let f ← ofOption (splitField text)
    pure (some f)

def readNumber (digits : ℕ) : Reader UInt8 ℕ := do
  let text ← exactly digits
  ofOption (readDecimal text)

def readHeader : Reader UInt8 (ℕ × ℕ × StatusLine × HeaderFields) := do
  literal (ascii "HTTP/")
  let major ← readNumber 1
  literal (ascii ".")
  let minor ← readNumber 1
  literal (ascii " ")
  let code ← readNumber 3
  literal (ascii " ")
  let reason ← readLine
  let fields ← items readField
  pure (major, minor, ⟨code, reason⟩, fields)

inductive Framing where
  | nothing
  | chunked
  | length (n : ℕ)
  deriving DecidableEq

def bodyless (code : ℕ) : Prop := code < 200 ∨ code = 204 ∨ code = 304

instance (code : ℕ) : Decidable (bodyless code) := inferInstanceAs (Decidable (_ ∨ _))

def lastCoding (value : Str) : Str := strip (value.rtakeWhile (· ≠ code ','))

def framing (code : ℕ) (fields : HeaderFields) : Option Framing :=
  -- A client that finds two lengths, or none of the two ways to see where the body ends, gives up.
  if bodyless code then some .nothing
  else
    match (fields.valuesOf (ascii "Transfer-Encoding")).getLast? with
    | some value => if lowerCase (lastCoding value) = ascii "chunked" then some .chunked else none
    | none =>
      match fields.valuesOf (ascii "Content-Length") with
      | [value] => (readDecimal value).map .length
      | _ => none

def readChunk : Reader UInt8 (Option Str) := do
  let text ← readLine
  let size ← ofOption (readHexadecimal (strip (text.takeWhile (· ≠ code ';'))))
  if size = 0 then pure none
  else do
    let data ← exactly size
    literal crlf
    pure (some data)

def readBody : Framing → Reader UInt8 Str
  | .nothing => pure []
  | .length n => exactly n
  | .chunked => do
    let chunks ← items readChunk
    let _ ← items readField
    pure chunks.flatten

def readMessage : Reader UInt8 Message := do
  let (major, minor, status, fields) ← readHeader
  let how ← ofOption (framing status.code fields)
  let body ← readBody how
  pure ⟨major, minor, status, fields, body⟩

end Client

section Lines

theorem reads_readLine {text : Str} (h : code '\r' ∉ text) : Reads readLine (text ++ crlf) text := by
  rw [show text ++ crlf = (text ++ [code '\r']) ++ [code '\n'] by rw [List.append_assoc]; rfl]
  apply reads_bind (reads_upTo h)
  apply reads_last (reads_literal _)
  apply reads_pure

theorem reads_readField_end : Reads readField crlf none := by
  apply reads_last (by exact reads_readLine List.not_mem_nil)
  rw [if_pos rfl]
  apply reads_pure

structure CleanField (f : Str × Str) : Prop where
  name : f.1 ≠ []
  colon : code ':' ∉ f.1
  nameLine : code '\r' ∉ f.1
  valueLine : code '\r' ∉ f.2
  stripped : strip f.2 = f.2

instance (f : Str × Str) : Decidable (CleanField f) :=
  decidable_of_iff (f.1 ≠ [] ∧ code ':' ∉ f.1 ∧ code '\r' ∉ f.1 ∧ code '\r' ∉ f.2 ∧ strip f.2 = f.2)
    ⟨fun h => ⟨h.1, h.2.1, h.2.2.1, h.2.2.2.1, h.2.2.2.2⟩, fun h => ⟨h.name, h.colon, h.nameLine, h.valueLine, h.stripped⟩⟩

theorem splitField_fieldLine {f : Str × Str} (h : CleanField f) : splitField (f.1 ++ ascii ": " ++ f.2) = some f := by
  have hall : ∀ c ∈ f.1, decide (c ≠ code ':') = true := fun c hc => decide_eq_true fun heq => h.colon (heq ▸ hc)
  have hstrip : strip (code ' ' :: f.2) = f.2 := by
    rw [strip, List.dropWhile_cons_of_pos (by decide)]
    exact h.stripped
  rw [splitField, List.append_assoc, List.dropWhile_append_of_pos hall, List.takeWhile_append_of_pos hall]
  change (if f.1 ++ [] = [] then none else some (f.1 ++ [], strip (code ' ' :: f.2))) = some f
  rw [List.append_nil, if_neg h.name, hstrip]

theorem reads_readField {f : Str × Str} (h : CleanField f) : Reads readField (fieldLine f) (some f) := by
  have hline : code '\r' ∉ f.1 ++ ascii ": " ++ f.2 := by
    rw [List.append_assoc, List.mem_append, List.mem_append]
    rintro (hc | hc | hc)
    · exact h.nameLine hc
    · revert hc
      decide
    · exact h.valueLine hc
  apply reads_last (reads_readLine hline)
  rw [if_neg (by simp [h.name])]
  apply reads_last (reads_ofOption (splitField_fieldLine h))
  apply reads_pure

end Lines

section Header

theorem digitChar_spec {d : ℕ} (h : d < 10) : isDigit (digitChar d) = true ∧ digit (digitChar d) = d := by
  have hall : ∀ d : Fin 10, isDigit (digitChar d) = true ∧ digit (digitChar d) = d.1 := by decide
  exact hall ⟨d, h⟩

theorem reads_readNumber {text : Str} {n : ℕ} (h : readDecimal text = some n) : Reads (readNumber text.length) text n := by
  apply reads_last (reads_exactly text)
  apply reads_ofOption h

theorem readDecimal_digit {d : ℕ} (h : d < 10) : readDecimal [digitChar d] = some d := by
  obtain ⟨hdigit, hvalue⟩ := digitChar_spec h
  rw [readDecimal, if_pos (by simp [hdigit])]
  simp [decimal, hvalue]

theorem readDecimal_code {n : ℕ} (h : n < 1000) :
    readDecimal [digitChar (n / 100 % 10), digitChar (n / 10 % 10), digitChar (n % 10)] = some n := by
  obtain ⟨hdigit₁, hvalue₁⟩ := digitChar_spec (Nat.mod_lt (n / 100) (by decide : 0 < 10))
  obtain ⟨hdigit₂, hvalue₂⟩ := digitChar_spec (Nat.mod_lt (n / 10) (by decide : 0 < 10))
  obtain ⟨hdigit₃, hvalue₃⟩ := digitChar_spec (Nat.mod_lt n (by decide : 0 < 10))
  rw [readDecimal, if_pos (by simp [hdigit₁, hdigit₂, hdigit₃])]
  simp only [decimal, List.foldl_cons, List.foldl_nil, hvalue₁, hvalue₂, hvalue₃]
  congr 1
  omega

structure ResponseHeader.Clean (h : ResponseHeader) : Prop where
  major : h.httpMajor < 10
  minor : h.httpMinor < 10
  code : h.statusLine.code < 1000
  reason : Ascii.code '\r' ∉ h.statusLine.reason
  fields : ∀ f ∈ h.fields, CleanField f

def sentFields (h : ResponseHeader) (presence : ContentLengthFieldPresence) : HeaderFields :=
  (ascii "Connection", h.connection.text) ::
    ((if presence = .addContentLength then [(ascii "Content-Length", ascii (toString h.contentLength))] else []) ++ h.fields)

theorem createHeaderString_eq (h : ResponseHeader) (presence : ContentLengthFieldPresence) :
    createHeaderString h presence =
      statusLineText h ++ crlf ++ ((sentFields h presence).flatMap fieldLine ++ crlf) := by
  rw [createHeaderString, sentFields]
  cases presence <;> simp

theorem cleanField_connection (c : ConnectionHeader) : CleanField (ascii "Connection", c.text) := by
  cases c <;> decide

theorem strip_of_no_ows {s : Str} (h : ∀ c ∈ s, isOws c = false) : strip s = s := by
  have hdrop : s.dropWhile isOws = s := by
    rw [List.dropWhile_eq_self_iff]
    intro hlength
    rw [h _ (List.getElem_mem _)]
    exact Bool.false_ne_true
  rw [strip, hdrop, List.rdropWhile_eq_self_iff]
  intro hne
  rw [h _ (List.getLast_mem hne)]
  exact Bool.false_ne_true

theorem cleanField_contentLength (n : ℕ) : CleanField (ascii "Content-Length", ascii (toString n)) := by
  obtain ⟨hdigits, -⟩ := toString_spec n
  have hows : ∀ c ∈ ascii (toString n), isOws c = false := by
    intro c hc
    have hdigit := toNat_of_isDigit (hdigits c hc)
    rw [isOws, Bool.or_eq_false_iff, decide_eq_false_iff_not, decide_eq_false_iff_not]
    constructor <;> rintro rfl <;> revert hdigit <;> decide
  refine ⟨?_, ?_, ?_, ?_, ?_⟩
  iterate 3
    · dsimp only
      decide
  · intro hc
    have hdigit := toNat_of_isDigit (hdigits _ hc)
    revert hdigit
    decide
  · exact strip_of_no_ows hows

theorem ResponseHeader.Clean.sentFields {h : ResponseHeader} (hclean : h.Clean) (presence : ContentLengthFieldPresence) :
    ∀ f ∈ sentFields h presence, CleanField f := by
  rw [Http.sentFields, List.forall_mem_cons, List.forall_mem_append]
  refine ⟨cleanField_connection _, ?_, hclean.fields⟩
  split
  · exact List.forall_mem_singleton.mpr (cleanField_contentLength _)
  · simp

theorem reads_readHeader {h : ResponseHeader} (hclean : h.Clean) (presence : ContentLengthFieldPresence) :
    Reads readHeader (createHeaderString h presence)
      (h.httpMajor, h.httpMinor, h.statusLine, sentFields h presence) := by
  rw [createHeaderString_eq, statusLineText]
  simp only [List.append_assoc]
  apply reads_bind (reads_literal _)
  apply reads_bind (reads_readNumber (readDecimal_digit hclean.major))
  apply reads_bind (reads_literal _)
  apply reads_bind (reads_readNumber (readDecimal_digit hclean.minor))
  apply reads_bind (reads_literal _)
  apply reads_bind (reads_readNumber (readDecimal_code hclean.code))
  apply reads_bind (reads_literal _)
  rw [← List.append_assoc]
  apply reads_bind (reads_readLine hclean.reason)
  apply reads_last (reads_items (fun f hf => reads_readField (hclean.sentFields presence f hf)) ?_ reads_readField_end)
  · apply reads_pure
  · intro f _
    simp [fieldLine, crlf, ascii]

end Header

section Bodies

theorem valuesOf_cons_of_ne {field name : Str} (h : isEqualCaseless field name = false) (value : Str)
    (fields : HeaderFields) : HeaderFields.valuesOf ((field, value) :: fields) name = fields.valuesOf name := by
  rw [HeaderFields.valuesOf, HeaderFields.valuesOf, List.filter_cons_of_neg (by simp [h])]

theorem valuesOf_cons_self (name value : Str) (fields : HeaderFields) :
    HeaderFields.valuesOf ((name, value) :: fields) name = value :: fields.valuesOf name := by
  rw [HeaderFields.valuesOf, HeaderFields.valuesOf, List.filter_cons_of_pos (by exact isEqualCaseless_iff.mpr rfl), List.map_cons]

theorem valuesOf_eq_nil {fields : HeaderFields} {name : Str} (h : ∀ f ∈ fields, isEqualCaseless f.1 name = false) :
    fields.valuesOf name = [] := by
  rw [HeaderFields.valuesOf, List.map_eq_nil_iff, List.filter_eq_nil_iff]
  intro f hf
  rw [h f hf]
  exact Bool.false_ne_true

theorem framing_length {h : ResponseHeader} (hcode : ¬ bodyless h.statusLine.code)
    (hcoding : h.fields.valuesOf (ascii "Transfer-Encoding") = [])
    (hlength : h.fields.valuesOf (ascii "Content-Length") = []) :
    framing h.statusLine.code (sentFields h .addContentLength) = some (.length h.contentLength) := by
  rw [framing, if_neg hcode, sentFields, if_pos rfl, List.singleton_append, valuesOf_cons_of_ne (by decide),
    valuesOf_cons_of_ne (by decide), hcoding, valuesOf_cons_of_ne (by decide), valuesOf_cons_self, hlength]
  change (readDecimal (ascii (toString h.contentLength))).map Framing.length = _
  rw [readDecimal_toString]
  rfl

theorem reads_readMessage_length {h : ResponseHeader} (hclean : h.Clean) {body : Str}
    (hbody : ¬ bodyless h.statusLine.code ∨ body = []) (hcoding : h.fields.valuesOf (ascii "Transfer-Encoding") = [])
    (hlength : h.fields.valuesOf (ascii "Content-Length") = []) (hsize : h.contentLength = body.length) :
    Reads readMessage (createHeaderString h .addContentLength ++ body)
      ⟨h.httpMajor, h.httpMinor, h.statusLine, sentFields h .addContentLength, body⟩ := by
  apply reads_bind (reads_readHeader hclean .addContentLength)
  dsimp only
  by_cases hcode : bodyless h.statusLine.code
  · obtain rfl : body = [] := hbody.resolve_left (not_not_intro hcode)
    apply reads_last (reads_ofOption (if_pos hcode))
    apply reads_last (reads_pure _)
    apply reads_pure
  · rw [← List.nil_append body]
    apply reads_bind (reads_ofOption (framing_length hcode hcoding hlength))
    rw [hsize]
    apply reads_last (reads_exactly body)
    apply reads_pure

end Bodies

end NgkNet.Restinio.Http
