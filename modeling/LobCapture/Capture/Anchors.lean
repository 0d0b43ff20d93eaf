/-
# The id of a checkpoint

A depth5 payload of USD-M has its final id in `u`, one of spot in `lastUpdateId`.  A replay
without a sidecar seeds the book with the latter, whatever the payload has.
-/
import LobCapture.Capture.Checkpoints

namespace LobCapture

open Lib BookSession SymReplay

/-! ## Payloads without `lastUpdateId` -/

variable {parse : Bytes → Option DepthEvent} {cfg : Config} {y : Bytes} {before : List Row}
  {chk row : Row} {rows : List Row} {own : UInt64}

variable (parse) in
/-- Rows before the next depth5 row and the next connection. -/
def SameStretch (chk : Row) (rows : List Row) : Prop :=
  ∀ row ∈ rows, row.connEpoch = chk.connEpoch ∧ row.depth5Event parse = none

lemma SameStretch.left (h : SameStretch parse chk (rows ++ [row])) : SameStretch parse chk rows :=
  fun x hx => h x (List.mem_append_left _ hx)

lemma SameStretch.last (h : SameStretch parse chk (rows ++ [row])) :
    row.connEpoch = chk.connEpoch ∧ row.depth5Event parse = none :=
  h row (by simp)

section Seeded

variable {C : DepthEvent}

end Seeded

/-! ## Result -/

end LobCapture
