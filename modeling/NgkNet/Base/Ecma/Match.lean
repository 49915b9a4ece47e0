import NgkNet.Base.Ecma.Syntax

set_option autoImplicit false

namespace NgkNet.Ecma

open Ascii

def ClassItem.test (c : UInt8) : ClassItem → Bool
  | .single a => c = a
  | .range a b => a ≤ c && c ≤ b
  | .digit negated => isDigit c != negated
  | .word negated => isWord c != negated
  | .space negated => isSpace c != negated

def fold (icase : Bool) (c : UInt8) : UInt8 := if icase then toLower c else c

def CharSet.test (icase : Bool) (c : UInt8) : CharSet → Bool
  | .literal a => fold icase c = fold icase a
  | .any => c ≠ 10 && c ≠ 13
  | .oneOf negated items =>
    items.any (fun item => item.test c || icase && (item.test (toLower c) || item.test (toUpper c))) != negated

structure State where
  pos : ℕ
  rest : Str
  captures : List (ℕ × ℕ × ℕ)
  deriving DecidableEq

namespace State

def clear (groups : List ℕ) (x : State) : State :=
  { x with captures := x.captures.filter (fun c => c.1 ∉ groups) }

def capture (i start : ℕ) (x : State) : State :=
  { x with captures := (i, start, x.pos) :: (x.clear [i]).captures }

def next (n : ℕ) (x : State) : State := { x with pos := x.pos + n, rest := x.rest.drop n }

def captured (i : ℕ) (x : State) : Option (ℕ × ℕ) :=
  (x.captures.find? (fun c => c.1 = i)).map Prod.snd

end State

def repeatMatch (m : State → List State) (greedy : Bool) : ℕ → ℕ → Option ℕ → State → List State
  | 0, _, _, _ => []
  | fuel + 1, min, max, x =>
    if max = some 0 then [x]
    else
      let more := (m x).flatMap (fun y =>
        if min = 0 ∧ y.pos = x.pos then []
        else repeatMatch m greedy fuel (min - 1) (max.map (fun k => k - 1)) y)
      if min ≠ 0 then more else if greedy then more ++ [x] else x :: more

def results (icase : Bool) : Regex → State → List State
  | .empty, x => [x]
  | .set s, x =>
    match x.rest with
    | c :: _ => if s.test icase c then [x.next 1] else []
    | [] => []
  | .atBegin, x => if x.pos = 0 then [x] else []
  | .atEnd, x => if x.rest = [] then [x] else []
  | .seq a b, x => (results icase a x).flatMap (results icase b)
  | .alt a b, x => results icase a x ++ results icase b x
  | .group i r, x => (results icase r x).map (fun y => y.capture i x.pos)
  | .ahead r, x => ((results icase r x).head?.map (fun y => { x with captures := y.captures })).toList
  | .rep min max greedy r, x =>
    repeatMatch (fun y => results icase r (y.clear r.groups)) greedy (min + x.rest.length + 1) min max x

def searchFrom (icase : Bool) (r : Regex) (pos : ℕ) : Str → Option (ℕ × State)
  | [] => (results icase r ⟨pos, [], []⟩).head?.map (fun y => (pos, y))
  | c :: s =>
    match (results icase r ⟨pos, c :: s, []⟩).head? with
    | some y => some (pos, y)
    | none => searchFrom icase r (pos + 1) s

def search (icase : Bool) (r : Regex) (s : Str) : Option (ℕ × State) := searchFrom icase r 0 s

end NgkNet.Ecma
