import NgkNet.Base.Ascii

set_option autoImplicit false

namespace NgkNet.Ecma

open Ascii

inductive ClassItem where
  | single (c : UInt8)
  | range (a b : UInt8)
  | digit (negated : Bool)
  | word (negated : Bool)
  | space (negated : Bool)
  deriving DecidableEq

inductive CharSet where
  | literal (c : UInt8)
  | any
  | oneOf (negated : Bool) (items : List ClassItem)
  deriving DecidableEq

inductive Regex where
  | empty
  | set (s : CharSet)
  | atBegin
  | atEnd
  | seq (a b : Regex)
  | alt (a b : Regex)
  | group (i : ℕ) (r : Regex)
  | ahead (r : Regex)
  | rep (min : ℕ) (max : Option ℕ) (greedy : Bool) (r : Regex)
  deriving DecidableEq

namespace Regex

def cat : List Regex → Regex
  | [] => .empty
  | [r] => r
  | r :: rs => .seq r (cat rs)

def groups : Regex → List ℕ
  | .empty | .set _ | .atBegin | .atEnd => []
  | .seq a b | .alt a b => groups a ++ groups b
  | .group i r => i :: groups r
  | .ahead r | .rep _ _ _ r => groups r

end Regex

def classEscape (c : UInt8) : Option ClassItem :=
  if c = code 'd' then some (.digit false)
  else if c = code 'D' then some (.digit true)
  else if c = code 'w' then some (.word false)
  else if c = code 'W' then some (.word true)
  else if c = code 's' then some (.space false)
  else if c = code 'S' then some (.space true)
  else none

def controlEscape (c : UInt8) : Option UInt8 :=
  if c = code 't' then some 9
  else if c = code 'n' then some 10
  else if c = code 'v' then some 11
  else if c = code 'f' then some 12
  else if c = code 'r' then some 13
  else if isWord c then none
  else some c

def escape (c : UInt8) : Option CharSet :=
  match classEscape c with
  | some item => some (.oneOf false [item])
  | none => (controlEscape c).map .literal

def isSyntax (c : UInt8) : Bool := c ∈ ascii "^$\\.*+?()[]\x7b\x7d|"

abbrev Rest := Str × ℕ

def classItems : ℕ → Str → Option (List ClassItem × Str)
  | 0, _ => none
  | _ + 1, [] => none
  | fuel + 1, c :: s =>
    if c = code ']' then some ([], s)
    else if c = code '\\' then
      match s with
      | [] => none
      | e :: s => do
        let item ← (classEscape e).or ((controlEscape e).map .single)
        let (items, s) ← classItems fuel s
        some (item :: items, s)
    else
      match s with
      | d :: b :: s' =>
        if d = code '-' && b ≠ code ']' then do
          guard (b ≠ code '\\' && c ≤ b)
          let (items, s) ← classItems fuel s'
          some (.range c b :: items, s)
        else do
          let (items, s) ← classItems fuel s
          some (.single c :: items, s)
      | _ => do
        let (items, s) ← classItems fuel s
        some (.single c :: items, s)

def charClass (s : Str) : Option (CharSet × Str) :=
  match s with
  | c :: s' =>
    if c = code '^' then (classItems (s.length + 1) s').map (fun r => (.oneOf true r.1, r.2))
    else (classItems (s.length + 1) s).map (fun r => (.oneOf false r.1, r.2))
  | [] => none

def lazily (s : Str) : Bool × Str :=
  match s with
  | c :: s' => if c = code '?' then (false, s') else (true, s)
  | [] => (true, [])

def quantified (r : Regex) (s : Str) : Regex × Str :=
  match s with
  | [] => (r, [])
  | c :: s' =>
    if c = code '*' then (.rep 0 none (lazily s').1 r, (lazily s').2)
    else if c = code '+' then (.rep 1 none (lazily s').1 r, (lazily s').2)
    else if c = code '?' then (.rep 0 (some 1) (lazily s').1 r, (lazily s').2)
    else (r, s)

def closed (r : Regex × Rest) : Option (Regex × Rest) :=
  match r with
  | (r, c :: s, n) => if c = code ')' then some (r, s, n) else none
  | (_, [], _) => none

def requantified (r : Regex × Rest) : Regex × Rest :=
  ((quantified r.1 r.2.1).1, (quantified r.1 r.2.1).2, r.2.2)

mutual

def disjunction : ℕ → Rest → Option (Regex × Rest)
  | 0, _ => none
  | fuel + 1, s => do
    let (terms, s) ← alternative fuel s
    match s with
    | (c :: s', n) =>
      if c = code '|' then do
        let (b, s) ← disjunction fuel (s', n)
        some (.alt (.cat terms) b, s)
      else some (.cat terms, s)
    | ([], _) => some (.cat terms, s)

def alternative : ℕ → Rest → Option (List Regex × Rest)
  | 0, _ => none
  | _ + 1, ([], n) => some ([], [], n)
  | fuel + 1, (c :: s, n) =>
    if c = code '|' || c = code ')' then some ([], c :: s, n)
    else do
      let (t, s) ← term fuel c (s, n)
      let (ts, s) ← alternative fuel s
      some (t :: ts, s)

def term : ℕ → UInt8 → Rest → Option (Regex × Rest)
  | 0, _, _ => none
  | fuel + 1, c, (s, n) =>
    if c = code '^' then some (.atBegin, s, n)
    else if c = code '$' then some (.atEnd, s, n)
    else if c = code '(' then
      if s.take 2 = ascii "?:" then do
        let r ← disjunction fuel (s.drop 2, n)
        (closed r).map requantified
      else if s.take 2 = ascii "?=" then do
        let r ← disjunction fuel (s.drop 2, n)
        (closed r).map (fun r => (.ahead r.1, r.2))
      else do
        let r ← disjunction fuel (s, n + 1)
        (closed r).map (fun r => requantified (.group n r.1, r.2))
    else if c = code '[' then (charClass s).map (fun r => requantified (.set r.1, r.2, n))
    else if c = code '\\' then
      match s with
      | e :: s => (escape e).map (fun set => requantified (.set set, s, n))
      | [] => none
    else if c = code '.' then some (requantified (.set .any, s, n))
    else if isSyntax c then none
    else some (requantified (.set (.literal c), s, n))

end

/-- The pattern of a regular expression; counted repetition, back references and word boundaries are
not part of it. -/
def parse (pattern : Str) : Option Regex :=
  match disjunction (3 * pattern.length + 3) (pattern, 1) with
  | some (r, [], _) => some r
  | _ => none

end NgkNet.Ecma
