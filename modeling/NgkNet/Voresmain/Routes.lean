import NgkNet.Lab2.Routes

set_option autoImplicit false

namespace NgkNet.Voresmain

open Ascii Restinio Path2Regex Weather

inductive Handler where
  | weathersList
  | weathersGetThreelist
  | options
  | newWeather
  | weatherUpdate
  | liveUpdate
  | methodNotAllowed
  | IDGet
  | weatherGet
  | weatherDelete
  deriving DecidableEq

def routingTable : List (MethodMatcher × Str × Handler) :=
  [ (.simple .get, ascii "/", .weathersList),
    (.simple .get, ascii "/three", .weathersGetThreelist),
    (.simple .options, ascii "/date/:date", .options),
    (.simple .post, ascii "/", .newWeather),
    (.simple .put, ascii "/", .weatherUpdate),
    (.simple .get, ascii "/chat", .liveUpdate),
    (.simple .options, ascii "/", .options),
    (.noneOf [.get, .post, .options], ascii "/", .methodNotAllowed),
    (.simple .get, ascii "/ID/:ID", .IDGet),
    (.noneOf [.get], ascii "/ID/:ID", .methodNotAllowed),
    (.simple .get, ascii "/:weathernum(\\d+)", .weatherGet),
    (.simple .put, ascii "/:weathernum(\\d+)", .weatherUpdate),
    (.simple .delete, ascii "/:weathernum(\\d+)", .weatherDelete),
    (.noneOf [.get, .post, .delete], ascii "/:weathernum(\\d+)", .methodNotAllowed),
    (.simple .options, ascii "/:weatherid(\\d+)", .options) ]

def serverHandler : Except PathError (List (RouteEntry Handler)) :=
  routingTable.mapM (fun r => RouteEntry.make r.1 r.2.1 r.2.2)

def rows : List (Row Handler) :=
  [ .root (.simple .get) .weathersList,
    .three (.simple .get) .weathersGetThreelist,
    .lowerDate (.simple .options) .options,
    .root (.simple .post) .newWeather,
    .root (.simple .put) .weatherUpdate,
    .chat (.simple .get) .liveUpdate,
    .root (.simple .options) .options,
    .root (.noneOf [.get, .post, .options]) .methodNotAllowed,
    .ident (.simple .get) .IDGet,
    .ident (.noneOf [.get]) .methodNotAllowed,
    .weathernum (.simple .get) .weatherGet,
    .weathernum (.simple .put) .weatherUpdate,
    .weathernum (.simple .delete) .weatherDelete,
    .weathernum (.noneOf [.get, .post, .delete]) .methodNotAllowed,
    .weatherid (.simple .options) .options ]

def entries : List (RouteEntry Handler) := rows.map Row.entry

theorem routingTable_eq : routingTable = rows.map Row.source := rfl

theorem serverHandler_eq : serverHandler = .ok entries := by
  rw [serverHandler, routingTable_eq, mapM_make_rows]
  rfl

section Shadowing

def shadowed : MethodMatcher × Str × Handler := (.simple .options, ascii "/:weatherid(\\d+)", .options)

/-- In either server, a request that meets a line gets to its handler exactly if the line is not the shadowed one. -/
theorem dispatched_iff_not_shadowed (method : Method) (q : Str) :
    (∃ entries, Lab2.serverHandler = .ok entries ∧
      ∀ r ∈ Lab2.routingTable, r.2.2 ≠ .methodNotAllowed → Meets r method q →
        (DispatchedTo entries r.2.2 method q ↔ r ≠ Lab2.shadowed)) ∧
    (∃ entries, serverHandler = .ok entries ∧
      ∀ r ∈ routingTable, r.2.2 ≠ .methodNotAllowed → Meets r method q →
        (DispatchedTo entries r.2.2 method q ↔ r ≠ shadowed)) := by
  have hlab2 : OnlyShadowed Lab2.rows .methodNotAllowed Lab2.shadowed method := by cases method <;> decide
  have hvoresmain : OnlyShadowed rows .methodNotAllowed shadowed method := by cases method <;> decide
  exact ⟨⟨_, Lab2.serverHandler_eq, hlab2.dispatched_iff⟩, ⟨_, serverHandler_eq, hvoresmain.dispatched_iff⟩⟩

theorem root_dispatched :
    Meets (.simple .get, ascii "/", Lab2.Handler.weathersList) .get (ascii "/") ∧
      DispatchedTo Lab2.entries .weathersList .get (ascii "/") := by
  have hm : Meets (.simple .get, ascii "/", Lab2.Handler.weathersList) .get (ascii "/") :=
    ⟨rfl, _, path2regex_root, match_root.mpr (.inl rfl)⟩
  refine ⟨hm, ?_⟩
  obtain ⟨⟨entries, he, h⟩, -⟩ := dispatched_iff_not_shadowed .get (ascii "/")
  obtain rfl : Lab2.entries = entries := Except.ok.inj (Lab2.serverHandler_eq.symm.trans he)
  exact (h _ (by decide) (by decide) hm).mpr (by decide)

theorem one_isNumber : Path.number.Contains (ascii "/1") :=
  ⟨ascii "1", [], rfl, by decide, List.all_eq_true.mp (by decide), .inl rfl⟩

theorem numbers_not_dispatched :
    (Lab2.shadowed ∈ Lab2.routingTable ∧ Meets Lab2.shadowed .get (ascii "/1") ∧
      ¬ DispatchedTo Lab2.entries .weathersGetThreelist .get (ascii "/1")) ∧
    (shadowed ∈ routingTable ∧ Meets shadowed .options (ascii "/1") ∧
      ¬ DispatchedTo entries .options .options (ascii "/1")) := by
  have hq : ∀ key, (matchRoute (numberMatcher key) (ascii "/1")).isSome :=
    fun key => match_number_isSome.mpr one_isNumber
  refine ⟨⟨by decide, ⟨by decide, _, path2regex_weathernum, hq _⟩, ?_⟩,
    ⟨by decide, ⟨by decide, _, path2regex_weatherid, hq _⟩, ?_⟩⟩
  · rw [DispatchedTo, Lab2.entries, exists_dispatch_rows_iff one_isNumber]
    decide
  · rw [DispatchedTo, entries, exists_dispatch_rows_iff one_isNumber]
    decide

end Shadowing

end NgkNet.Voresmain
