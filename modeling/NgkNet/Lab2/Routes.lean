import NgkNet.Weather.Paths

set_option autoImplicit false

namespace NgkNet.Lab2

open Ascii Restinio Path2Regex Weather

inductive Handler where
  | weathersList
  | weathersGetThreelist
  | weatherGetDate
  | newWeather
  | weatherUpdate
  | methodNotAllowed
  | IDGet
  | weatherGet
  | weatherDelete
  deriving DecidableEq

def routingTable : List (MethodMatcher × Str × Handler) :=
  [ (.simple .get, ascii "/", .weathersList),
    (.simple .get, ascii "/three", .weathersGetThreelist),
    (.simple .get, ascii "/Date/:Date", .weatherGetDate),
    (.simple .post, ascii "/", .newWeather),
    (.simple .put, ascii "/", .weatherUpdate),
    (.noneOf [.get, .post], ascii "/", .methodNotAllowed),
    (.simple .get, ascii "/ID/:ID", .IDGet),
    (.noneOf [.get], ascii "/ID/:ID", .methodNotAllowed),
    (.simple .get, ascii "/:weathernum(\\d+)", .weatherGet),
    (.simple .get, ascii "/:weathernum(\\d+)", .weathersGetThreelist),
    (.simple .put, ascii "/:weathernum(\\d+)", .weatherUpdate),
    (.simple .delete, ascii "/:weathernum(\\d+)", .weatherDelete),
    (.noneOf [.get, .post, .delete], ascii "/:weathernum(\\d+)", .methodNotAllowed) ]

def shadowed : MethodMatcher × Str × Handler := (.simple .get, ascii "/:weathernum(\\d+)", .weathersGetThreelist)

def serverHandler : Except PathError (List (RouteEntry Handler)) :=
  routingTable.mapM (fun r => RouteEntry.make r.1 r.2.1 r.2.2)

def rows : List (Row Handler) :=
  [ .root (.simple .get) .weathersList,
    .three (.simple .get) .weathersGetThreelist,
    .date (.simple .get) .weatherGetDate,
    .root (.simple .post) .newWeather,
    .root (.simple .put) .weatherUpdate,
    .root (.noneOf [.get, .post]) .methodNotAllowed,
    .ident (.simple .get) .IDGet,
    .ident (.noneOf [.get]) .methodNotAllowed,
    .weathernum (.simple .get) .weatherGet,
    .weathernum (.simple .get) .weathersGetThreelist,
    .weathernum (.simple .put) .weatherUpdate,
    .weathernum (.simple .delete) .weatherDelete,
    .weathernum (.noneOf [.get, .post, .delete]) .methodNotAllowed ]

def entries : List (RouteEntry Handler) := rows.map Row.entry

theorem routingTable_eq : routingTable = rows.map Row.source := rfl

theorem serverHandler_eq : serverHandler = .ok entries := by
  rw [serverHandler, routingTable_eq, mapM_make_rows]
  rfl

end NgkNet.Lab2
