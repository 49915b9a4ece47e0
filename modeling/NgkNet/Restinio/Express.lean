import NgkNet.Restinio.Path2Regex

set_option autoImplicit false

namespace NgkNet.Restinio

open Ascii Ecma Path2Regex

inductive Method where
  | delete | get | head | post | put | connect | options | trace | copy | lock | mkcol | move | propfind
  | proppatch | search | unlock | bind | rebind | unbind | acl | report | mkactivity | checkout | merge
  | msearch | notify | subscribe | unsubscribe | patch | purge | mkcalendar | link | unlink | unknown
  deriving DecidableEq

inductive MethodMatcher where
  | simple (method : Method)
  | noneOf (methods : List Method)
  deriving DecidableEq

def MethodMatcher.test (method : Method) : MethodMatcher → Bool
  | .simple m => m = method
  | .noneOf ms => method ∉ ms

structure RouteParams where
  matched : Str
  named : List (Str × Str)
  indexed : List Str

def RouteParams.get (key : Str) (p : RouteParams) : Option Str := p.named.lookup key

def matchRoute (m : RouteMatcher) (path : Str) : Option RouteParams :=
  (search m.icase m.regex path).map (fun found =>
    let values := m.params.zipIdx.map (fun p => (p.1, slice path (found.2.captured (p.2 + 1))))
    { matched := slice path (some (found.1, found.2.pos))
      named := values.filterMap (fun v => match v.1 with
        | .named name => some (name, v.2)
        | .indexed => none)
      indexed := values.filterMap (fun v => match v.1 with
        | .named _ => none
        | .indexed => some v.2) })

structure RouteEntry (H : Type) where
  methodMatcher : MethodMatcher
  matcher : RouteMatcher
  handler : H

variable {H : Type}

def RouteEntry.match (e : RouteEntry H) (method : Method) (path : Str) : Option RouteParams :=
  if e.methodMatcher.test method then matchRoute e.matcher path else none

theorem RouteEntry.match_eq_some_iff {e : RouteEntry H} {method : Method} {path : Str} {params : RouteParams} :
    e.match method path = some params ↔
      e.methodMatcher.test method = true ∧ matchRoute e.matcher path = some params := by
  rw [RouteEntry.match, Option.ite_none_right_eq_some]

def RouteEntry.make (methodMatcher : MethodMatcher) (route : Str) (handler : H) :
    Except PathError (RouteEntry H) := do
  let matcher ← path2regex route .default
  .ok ⟨methodMatcher, matcher, handler⟩

def dispatch (entries : List (RouteEntry H)) (method : Method) (path : Str) : Option (H × RouteParams) :=
  entries.findSome? (fun e => (e.match method path).map (fun params => (e.handler, params)))

def matching (entries : List (RouteEntry H)) (method : Method) (path : Str) : List (RouteEntry H) :=
  entries.filter (fun e => (e.match method path).isSome)

theorem dispatch_matching (entries : List (RouteEntry H)) (method : Method) (path : Str) :
    dispatch entries method path = dispatch (matching entries method path) method path := by
  induction entries with
  | nil => rfl
  | cons e entries ih =>
    simp only [dispatch, matching, List.findSome?_cons, List.filter_cons] at ih ⊢
    cases h : e.match method path with
    | none => simpa [h] using ih
    | some params => simp [h]

theorem dispatch_eq_some_iff {entries : List (RouteEntry H)} {method : Method} {path : Str}
    (h : (matching entries method path).length ≤ 1) {handler : H} {params : RouteParams} :
    dispatch entries method path = some (handler, params) ↔
      ∃ e ∈ entries, e.handler = handler ∧ e.match method path = some params := by
  have hmem : ∀ e, e ∈ matching entries method path ↔ e ∈ entries ∧ (e.match method path).isSome = true :=
    fun e => List.mem_filter
  constructor
  · intro hd
    obtain ⟨e, he, hf⟩ := List.exists_of_findSome?_eq_some hd
    obtain ⟨p, hp, hep⟩ := Option.map_eq_some_iff.mp hf
    obtain ⟨rfl, rfl⟩ := Prod.mk.inj hep
    exact ⟨e, he, rfl, hp⟩
  · rintro ⟨e, he, rfl, hp⟩
    have hm : e ∈ matching entries method path := (hmem e).mpr ⟨he, by rw [hp]; rfl⟩
    obtain ⟨a, ha⟩ : ∃ a, matching entries method path = [a] :=
      List.length_eq_one_iff.mp (by have := List.length_pos_of_mem hm; omega)
    rw [ha, List.mem_singleton] at hm
    rw [dispatch_matching, ha, ← hm, dispatch, List.findSome?_singleton, hp]
    rfl

theorem dispatch_perm {entries entries' : List (RouteEntry H)} {method : Method} {path : Str}
    (h : (matching entries method path).length ≤ 1) (hp : entries'.Perm entries) :
    dispatch entries' method path = dispatch entries method path := by
  have hm : (matching entries' method path).Perm (matching entries method path) := hp.filter _
  have he : matching entries' method path = matching entries method path := by
    by_cases h₀ : matching entries method path = []
    · rw [h₀] at hm ⊢
      exact hm.eq_nil
    · obtain ⟨a, ha⟩ := List.length_eq_one_iff.mp
        (by have := List.length_pos_iff.mpr h₀; omega : (matching entries method path).length = 1)
      rw [ha] at hm ⊢
      exact hm.eq_singleton
  rw [dispatch_matching entries', dispatch_matching entries, he]

end NgkNet.Restinio
