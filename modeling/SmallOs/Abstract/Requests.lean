import Mathlib.Logic.Function.Basic

/-! Requests that wait for their turn: what an interrupt controller is for. -/

namespace SmallOs

/-- The lines that were asked for, and not served since. -/
abbrev Requests := Fin 16 → Bool

namespace Requests

/-- A line is asked for. -/
def ask (requests : Requests) (line : Fin 16) : Requests :=
  Function.update requests line true

/-- A line is served, however often it was asked for. -/
def serve (requests : Requests) (line : Fin 16) : Requests :=
  Function.update requests line false

/-- The line to serve next, where some are in order of their priority, and not all are enabled. -/
def next (requests enabled : Fin 16 → Bool) (order : List (Fin 16)) : Option (Fin 16) :=
  order.find? fun line => requests line && enabled line

end Requests

end SmallOs
