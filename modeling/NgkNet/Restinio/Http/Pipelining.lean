import NgkNet.Restinio.Http.Conversation

set_option autoImplicit false

namespace NgkNet.Restinio.Http

open Ascii Prog

variable {π ρ τ : Type} {K : Environment π ρ τ} {c : Connection π ρ τ}

theorem Scans.execute {P : HttpParser π ρ} {text : Str} {request : ρ} {after : ℕ → π} (hscans : Scans P text request after)
    (more : Str) : P.execute P.init (text ++ more) = (text.length, true, after text.length) := by
  have hlast := hscans.last 0 more (List.length_pos_iff.mpr hscans.ne_nil)
  rwa [List.drop_zero, Nat.sub_zero, hscans.start] at hlast

section FirstRequest

structure Begun (K : Environment π ρ τ) (response : Whole) (b : τ) (request : ρ) (more : Str) (c d : Connection π ρ τ) :
    Prop where
  writing : ∃ data, Writing response.group data d ∧ data ++ d.output.rest = response.group.bytes
  vacant : d.coordinator.Vacant false K.settings.maxPipelinedRequests
  flag : d.initReadAfterThisWrite = decide (K.settings.maxPipelinedRequests = 1)
  parser : d.parser = K.parser.init
  buf : d.buf = more
  app : d.app = b
  handled : d.handled = c.handled ++ [request]
  wire : d.wire = c.wire

variable {text : Str} {request : ρ} {after : ℕ → π} {b : τ} {response : Whole}

end FirstRequest

section Overrun

variable {text : Str} {request : ρ} {after : ℕ → π} {b : τ} {response : Whole}

end Overrun

end NgkNet.Restinio.Http
