import NgkNet.Base.Ecma.Match

set_option autoImplicit false

namespace NgkNet.Restinio.Path2Regex

open Ascii Ecma

def escapeGroup (group : Str) : Str :=
  group.flatMap (fun c => if c ∈ ascii "=!:$/()" then [code '\\', c] else [c])

def escapeString (group : Str) : Str :=
  group.flatMap (fun c => if c ∈ ascii ".+*?=^:$\x7b\x7d()[]|\\/" then [code '\\', c] else [c])

structure Options where
  sensitive : Bool
  strict : Bool
  ending : Bool
  delimiter : Str
  delimiters : Str
  endsWith : List Str

namespace Options

def default : Options where
  sensitive := false
  strict := false
  ending := true
  delimiter := ascii "/"
  delimiters := ascii "./"
  endsWith := []

def makeDelimiter (o : Options) (d : Str) : Str := if d = [] then o.delimiter else d

def makeEndsWith (o : Options) : Str :=
  o.endsWith.flatMap (fun e => if e = [] then [] else escapeString e ++ ascii "|") ++ ascii "$"

end Options

inductive ParamName where
  | named (name : Str)
  | indexed
  deriving DecidableEq

inductive Token where
  | plainString (escapedPath : Str) (lastChar : UInt8)
  | parameter (name : ParamName) (escapedPrefix : Str) (isOptional isRepeat isPartial : Bool) (pattern : Str)
  deriving DecidableEq

namespace Token

def plain (path : Str) : Token := .plainString (escapeString path) (path.getLastD 0)

def appendSelfTo (route : Str) (params : List ParamName) : Token → Str × List ParamName
  | .plainString escapedPath _ => (route ++ escapedPath, params)
  | .parameter name pre isOptional isRepeat isPartial pattern =>
    let capture := ascii "(?:" ++ pattern ++ ascii ")"
    let capture := if isRepeat then capture ++ ascii "(?:" ++ pre ++ capture ++ ascii ")*" else capture
    let capture :=
      if isOptional then
        if isPartial then pre ++ ascii "(" ++ capture ++ ascii ")?"
        else ascii "(?:" ++ pre ++ ascii "(" ++ capture ++ ascii "))?"
      else pre ++ ascii "(" ++ capture ++ ascii ")"
    (route ++ capture, params ++ [name])

def isEndDelimited (delimiters : Str) : Token → Bool
  | .plainString _ lastChar => lastChar ∈ delimiters
  | .parameter .. => false

end Token

inductive PathError where
  | unescapedBracket (bracket : UInt8) (pos : ℕ)
  | unableToProcess (path : Str)
  deriving DecidableEq

def checkNoUnescapedBrackets (s : Str) (basePos : ℕ) : Except PathError Str :=
  match s.idxOf? (code '('), s.idxOf? (code ')') with
  | some pos, _ => .error (.unescapedBracket (code '(') (basePos + pos))
  | none, some pos => .error (.unescapedBracket (code ')') (basePos + pos))
  | none, none => .ok s

def pathRegexStr : Str :=
  ascii "(\\\\.)|(?:\\:(\\w+)(?:\\(((?:\\\\.|[^\\\\()])+)\\))?|\\(((?:\\\\.|[^\\\\()])+)\\))([+*?])?"

structure TokenMatch where
  before : Str
  position : ℕ
  length : ℕ
  escaped : Str
  name : Str
  capture : Str
  group : Str
  modifier : Str
  suffix : Str

def slice (s : Str) (range : Option (ℕ × ℕ)) : Str :=
  match range with
  | some (a, b) => (s.drop a).take (b - a)
  | none => []

def tokenMatches (r : Regex) (route : Str) : ℕ → ℕ → List TokenMatch
  | 0, _ => []
  | fuel + 1, pos =>
    match searchFrom false r pos (route.drop pos) with
    | none => []
    | some (start, y) =>
      ⟨slice route (some (pos, start)), start, y.pos - start, slice route (y.captured 1),
        slice route (y.captured 2), slice route (y.captured 3), slice route (y.captured 4),
        slice route (y.captured 5), y.rest⟩ :: tokenMatches r route fuel y.pos

structure Tokens where
  path : Str
  pathEscaped : Bool
  result : List Token

def handleParamToken (options : Options) (m : TokenMatch) (t : Tokens) : Tokens :=
  let delimited := !t.pathEscaped && t.path ≠ [] && t.path.getLastD 0 ∈ options.delimiters
  let pre := if delimited then [t.path.getLastD 0] else []
  let path := if delimited then t.path.dropLast else t.path
  let result := if path = [] then t.result else t.result ++ [.plain path]
  let pathEscaped := if path = [] then t.pathEscaped else false
  let next := m.suffix.take 1
  let isPartial := pre ≠ [] && next ≠ [] && pre ≠ next
  let isOptional := m.modifier = ascii "?" || m.modifier = ascii "*"
  let isRepeat := m.modifier = ascii "+" || m.modifier = ascii "*"
  let delimiter := options.makeDelimiter pre
  let createPattern (pattern : Str) : Str :=
    if pattern = [] then ascii "[^" ++ escapeString delimiter ++ ascii "]+?" else escapeGroup pattern
  let token : Token :=
    if m.name = [] then
      .parameter .indexed (escapeString pre) isOptional isRepeat isPartial (createPattern m.group)
    else
      .parameter (.named m.name) (escapeString pre) isOptional isRepeat isPartial (createPattern m.capture)
  ⟨[], pathEscaped, result ++ [token]⟩

def handleMatches (options : Options) : List TokenMatch → Tokens → Except PathError Tokens
  | [], t => .ok t
  | m :: rest, t => do
    let before ← checkNoUnescapedBrackets m.before (m.position - m.before.length)
    let t := { t with path := t.path ++ before }
    let t := match m.escaped with
      | _ :: c :: _ => { t with path := t.path ++ [c], pathEscaped := true }
      | _ => handleParamToken options m t
    if rest = [] then
      let suffix ← checkNoUnescapedBrackets m.suffix (m.position + m.length)
      .ok { t with path := t.path ++ suffix }
    else handleMatches options rest t

def parse (route : Str) (options : Options) : Except PathError (List Token) := do
  let found := match Ecma.parse pathRegexStr with
    | some r => tokenMatches r route (route.length + 1) 0
    | none => []
  let t ←
    if found = [] then do
      let path ← checkNoUnescapedBrackets route 0
      .ok ⟨path, false, []⟩
    else handleMatches options found ⟨[], false, []⟩
  .ok (if t.path = [] then t.result else t.result ++ [.plain t.path])

structure RouteMatcher where
  regex : Regex
  icase : Bool
  params : List ParamName
  deriving DecidableEq

def routePattern (tokens : List Token) (options : Options) : Str × List ParamName :=
  let appended := tokens.foldl (fun acc t => t.appendSelfTo acc.1 acc.2) ([], [])
  let delimiter := escapeString options.delimiter
  let endsWith := options.makeEndsWith
  let route := appended.1
  let route :=
    if options.ending then
      let route := if options.strict then route else route ++ ascii "(?:" ++ delimiter ++ ascii ")?"
      if endsWith = ascii "$" then route ++ ascii "$" else route ++ ascii "(?=" ++ endsWith ++ ascii ")"
    else
      let route := if options.strict then route
        else route ++ ascii "(?:" ++ delimiter ++ ascii "(?=" ++ endsWith ++ ascii "))?"
      match tokens.getLast? with
      | some t =>
        if t.isEndDelimited options.delimiters then route
        else route ++ ascii "(?=" ++ delimiter ++ ascii "|" ++ endsWith ++ ascii ")"
      | none => route
  (ascii "^" ++ route, appended.2)

def tokens2regexp (path : Str) (tokens : List Token) (options : Options) : Except PathError RouteMatcher :=
  let pattern := routePattern tokens options
  match Ecma.parse pattern.1 with
  | some r => .ok ⟨r, !options.sensitive, pattern.2⟩
  | none => .error (.unableToProcess path)

def path2regex (path : Str) (options : Options) : Except PathError RouteMatcher := do
  let tokens ← parse path options
  tokens2regexp path tokens options

end NgkNet.Restinio.Path2Regex
