/-
# From the client to the files

The frames that a client hands to the handler of its shard are those of its connections, one
after the other, so what the rows of a shard show has come with one connection.
-/
import LobCapture.Capture.Epochs
import LobCapture.Client.WsClient

namespace LobCapture

open Lib BookSession

namespace WsClient

/-- The frames that a client hands over in these events. -/
def delivered (asio : Asio) (es : List Event) : List Frame := frames (run (step asio) {} es).2

lemma pairwise_delivered {asio : Asio} {es : List Event} (hes : es.length < 2 ^ 64) :
    (delivered asio es).Pairwise fun a b => a.connEpoch ≤ b.connEpoch :=
  (pairwise_stamps hes).imp fun h => h.elim (fun hlt => UInt64.le_of_lt hlt) fun heq => heq.1.le

/-- **Every row shows what has come with one connection of the client.** Whatever happens to the
client, and however Asio treats its timer, the rows of diffs and trades show books that are ready
and have been made from frames of one connection, and no two frames have the same stamp. -/
theorem rows_of_one_connection (asio : Asio) (parse : Bytes → Option DepthEvent) (cfg : Config)
    (y : Bytes) (es : List Event) (hes : es.length < 2 ^ 64) :
    let fs := delivered asio es
    ((((runShard parse cfg fs).1.sym y).rows.filter fun r =>
          r.type = 'D' ∨ r.type = 'T').map ObRow.unnumbered =
        ((liveTrack parse cfg y fs).2.flatMap Prod.snd).map Sight.row) ∧
      (∀ z ∈ (liveTrack parse cfg y fs).2.flatMap Prod.snd, z.OneEpoch messageEpoch) ∧
      fs.Pairwise fun a b => stamp a ≠ stamp b := by
  refine ⟨?_, live_oneEpoch (pairwise_delivered hes), ?_⟩
  · rw [sym_toEmitter]
    exact Emitter.body_track_new cfg.venue y _
  · refine (pairwise_stamps hes).imp fun h heq => ?_
    rw [heq] at h
    exact h.elim (fun hlt => absurd hlt (UInt64.lt_irrefl _)) fun hlt =>
      absurd hlt.2 (UInt64.lt_irrefl _)

/-- A connection that opens and hands over these frames. -/
def connection (fs : List Frame) : List Event :=
  [.loop, .done, .done, .done, .done] ++
    fs.flatMap fun fr => [.frame fr.text fr.recvTs fr.response fr.snapTs false, .check]

/-- Two connections with the same two frames; the first one breaks off. -/
def twoConnections : List Event :=
  connection seededRun ++ [.fail, .watchdog, .leave, .next, .wake] ++ connection seededRun

theorem rows_of_one_connection_twice :
    let fs := delivered boostAsio twoConnections
    let zs := (liveTrack parseDepth oneSymbol (lit "A") fs).2.flatMap Prod.snd
    fs.map stamp = [(0, 1), (0, 2), (1, 1), (1, 2)] ∧ zs.length = 2 ∧
      ∀ z ∈ zs, z.OneEpoch messageEpoch := by
  refine ⟨by decide +kernel, by decide +kernel, ?_⟩
  exact (rows_of_one_connection boostAsio parseDepth oneSymbol (lit "A") twoConnections
    (by decide +kernel)).2.1

end WsClient

end LobCapture
