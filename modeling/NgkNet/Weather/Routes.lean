import NgkNet.Restinio.PercentEncoding
import NgkNet.Weather.Paths

set_option autoImplicit false

namespace NgkNet.Weather

open Ascii Restinio Path2Regex

inductive Handler where
  | weatherList
  | postData
  | options
  | weatherLatest
  | liveUpdate
  | methodNotAllowed
  | dateGet
  | weatherUpdate
  | weatherDelete
  deriving DecidableEq

def routingTable : List (MethodMatcher × Str × Handler) :=
  [ (.simple .get, ascii "/", .weatherList),
    (.simple .post, ascii "/", .postData),
    (.simple .options, ascii "/", .options),
    (.simple .get, ascii "/three", .weatherLatest),
    (.simple .options, ascii "/three", .options),
    (.simple .get, ascii "/chat", .liveUpdate),
    (.noneOf [.get, .post, .options], ascii "/", .methodNotAllowed),
    (.simple .get, ascii "/Date/:Date", .dateGet),
    (.simple .options, ascii "/Date/:Date", .options),
    (.simple .put, ascii "/:ID(\\d+)", .weatherUpdate),
    (.simple .options, ascii "/:ID(\\d+)", .options),
    (.simple .delete, ascii "/:ID(\\d+)", .weatherDelete) ]

def serverHandler : Except PathError (List (RouteEntry Handler)) :=
  routingTable.mapM (fun r => RouteEntry.make r.1 r.2.1 r.2.2)

def rows : List (Row Handler) :=
  [ .root (.simple .get) .weatherList,
    .root (.simple .post) .postData,
    .root (.simple .options) .options,
    .three (.simple .get) .weatherLatest,
    .three (.simple .options) .options,
    .chat (.simple .get) .liveUpdate,
    .root (.noneOf [.get, .post, .options]) .methodNotAllowed,
    .date (.simple .get) .dateGet,
    .date (.simple .options) .options,
    .id (.simple .put) .weatherUpdate,
    .id (.simple .options) .options,
    .id (.simple .delete) .weatherDelete ]

def entries : List (RouteEntry Handler) := rows.map Row.entry

theorem routingTable_eq : routingTable = rows.map Row.source := rfl

theorem serverHandler_eq : serverHandler = .ok entries := by
  rw [serverHandler, routingTable_eq, mapM_make_rows]
  rfl

theorem rows_nodup (method : Method) : ((rows.filter (fun r => r.methods.test method)).map Row.path).Nodup := by
  cases method <;> decide

theorem matching_length_le_one (method : Method) (q : Str) : (matching entries method q).length ≤ 1 :=
  matching_rows_length_le_one (rows_nodup method) q

section Handlers

variable {method : Method} {q : Str} {params : RouteParams}

theorem dispatch_row {r : Row Handler} (hr : rows.filter (fun r' => r'.handler = r.handler) = [r]) :
    dispatch entries method q = some (r.handler, params) ↔
      r.methods.test method = true ∧ matchRoute r.matcher q = some params :=
  dispatch_row_iff (matching_length_le_one method q) hr

theorem exists_dispatch_row {r : Row Handler} (hr : rows.filter (fun r' => r'.handler = r.handler) = [r]) :
    (∃ params, dispatch entries method q = some (r.handler, params)) ↔ r.methods.test method = true ∧ r.path.Contains q :=
  exists_dispatch_row_iff (matching_length_le_one method q) hr

theorem test_simple {m : Method} : (MethodMatcher.simple m).test method = true ↔ method = m := by
  simp [MethodMatcher.test, eq_comm]

theorem dispatch_weatherUpdate : dispatch entries method q = some (.weatherUpdate, params) ↔
    method = .put ∧ ∃ ID, IdPath q ID ∧ params = ⟨q, [(ascii "ID", ID)], []⟩ :=
  (dispatch_row (r := .id (.simple .put) .weatherUpdate) rfl).trans (and_congr test_simple match_number)

theorem dispatch_weatherDelete : dispatch entries method q = some (.weatherDelete, params) ↔
    method = .delete ∧ ∃ ID, IdPath q ID ∧ params = ⟨q, [(ascii "ID", ID)], []⟩ :=
  (dispatch_row (r := .id (.simple .delete) .weatherDelete) rfl).trans (and_congr test_simple match_number)

theorem dispatch_dateGet : dispatch entries method q = some (.dateGet, params) ↔
    method = .get ∧ ∃ Date, DatePath q Date ∧ params = ⟨q, [(ascii "Date", Date)], []⟩ :=
  (dispatch_row (r := .date (.simple .get) .dateGet) rfl).trans (and_congr test_simple match_segment)

theorem dispatch_liveUpdate : (∃ params, dispatch entries method q = some (.liveUpdate, params)) ↔
    method = .get ∧ ChatPath q :=
  (exists_dispatch_row (r := .chat (.simple .get) .liveUpdate) rfl).trans (and_congr_left fun _ => test_simple)

theorem dispatch_weatherLatest : (∃ params, dispatch entries method q = some (.weatherLatest, params)) ↔
    method = .get ∧ ThreePath q :=
  (exists_dispatch_row (r := .three (.simple .get) .weatherLatest) rfl).trans (and_congr_left fun _ => test_simple)

theorem dispatch_weatherList : (∃ params, dispatch entries method q = some (.weatherList, params)) ↔
    method = .get ∧ RootPath q :=
  (exists_dispatch_row (r := .root (.simple .get) .weatherList) rfl).trans (and_congr_left fun _ => test_simple)

theorem dispatch_postData : (∃ params, dispatch entries method q = some (.postData, params)) ↔
    method = .post ∧ RootPath q :=
  (exists_dispatch_row (r := .root (.simple .post) .postData) rfl).trans (and_congr_left fun _ => test_simple)

theorem dispatch_methodNotAllowed : (∃ params, dispatch entries method q = some (.methodNotAllowed, params)) ↔
    method ∉ [.get, .post, .options] ∧ RootPath q := by
  refine (exists_dispatch_row (r := .root (.noneOf [.get, .post, .options]) .methodNotAllowed) rfl).trans ?_
  refine and_congr_left fun _ => ?_
  simp [Row.root, MethodMatcher.test]

end Handlers

end NgkNet.Weather
