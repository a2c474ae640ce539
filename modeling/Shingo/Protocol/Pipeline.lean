import Shingo.Core.Applier
import Shingo.Edge.Accumulator

/-!
# edge から core までの道

accumulator が outbox に入れた電文を、drainer（`protocol/outbox/drainer.go`）が
bus に出し、core が受け取って適用する。

drainer は pending の行を id の順に一つずつ出す。出せなかった行は試行回数を増やして
飛ばし、次の行に進む。bus は出された電文を一度以上、どの順にでも届ける。
outbox の id は、入れた順の添字で表す。
-/

namespace Shingo.Protocol

open Infra Edge Core

/-! ## outbox と drainer -/

def maxRetries : Nat := 10

structure OutboxRow where
  sent : Bool
  retries : Nat

def OutboxRow.fresh : OutboxRow := { sent := false, retries := 0 }

/-- `publishOne` の顛末。`landed` は、失敗と返ってきたのに bus には出ていたか。 -/
inductive PublishOutcome where
  | acked
  | ackLost
  | failed (landed : Bool)
  | panicked (landed : Bool)

def PublishOutcome.landed : PublishOutcome → Bool
  | .acked | .ackLost => true
  | .failed landed | .panicked landed => landed

def PublishOutcome.mark : PublishOutcome → OutboxRow → OutboxRow
  | .acked, r => { r with sent := true }
  | .ackLost, r => r
  | .failed _, r => { r with retries := r.retries + 1 }
  | .panicked _, r => { r with retries := maxRetries }

/-! ## 全体 -/

/--
edge・outbox・bus・core をつないだもの。

`draining` は drainer の今の一巡で、まだ出していない行。`published` は bus に出た電文、
`deliveries` は届いた電文と apply の返した error で、どちらも控え。
-/
structure Pipeline where
  edge : Accumulator
  rows : Nat → OutboxRow
  draining : List Nat
  published : List Nat
  core : CoreInventory
  deliveries : List (Nat × Option ApplyError)

def Pipeline.start (stationID : String) (seqs : DeltaScope → Nat) (core : CoreInventory) :
    Pipeline where
  edge := newAccumulator stationID seqs
  rows _ := OutboxRow.fresh
  draining := []
  published := []
  core := core
  deliveries := []

variable (w : Pipeline)

def Pipeline.delivered : List Nat := w.deliveries.map Prod.fst

def Pipeline.listPending (limit : Nat) : List Nat :=
  ((List.range w.edge.outbox.length).filter fun i =>
    !(w.rows i).sent && decide ((w.rows i).retries < maxRetries)).take limit

def Pipeline.publishOne (i : Nat) (rest : List Nat) (o : PublishOutcome) : Pipeline :=
  { w with
    rows := fun j => if j = i then o.mark (w.rows j) else w.rows j
    draining := rest
    published := if o.landed then w.published ++ [i] else w.published }

/-- `HandleBinUOPDelta` / `HandleLinesideBucketDelta`。station は電文の差出人。 -/
def applyEnvelope (c : CoreInventory) (station : String) :
    Envelope → CoreInventory × Option ApplyError
  | .bin d => applyBinUOPDelta c station d
  | .bucket _ d => applyLinesideBucketDelta c station d

def Pipeline.deliver (i : Nat) : Pipeline :=
  match w.edge.outbox[i]? with
  | none => w
  | some env =>
    if i ∈ w.published then
      let (core, err) := applyEnvelope w.core w.edge.stationID env
      { w with core, deliveries := w.deliveries ++ [(i, err)] }
    else w

inductive PipeAction where
  | edge (a : AccAction)
  | drain (limit : Nat)
  | publishOne (o : PublishOutcome)
  | requeue (i : Nat)
  | deliver (i : Nat)

def pipeStep : PipeAction → Pipeline
  | .edge a => { w with edge := accStep w.edge a }
  | .drain limit =>
    match w.draining with
    | [] => { w with draining := w.listPending limit }
    | _ => w
  | .publishOne o =>
    match w.draining with
    | [] => w
    | i :: rest => w.publishOne i rest o
  | .requeue i =>
    { w with
      rows := fun j =>
        if j = i ∧ (w.rows j).sent = false then { w.rows j with retries := 0 } else w.rows j }
  | .deliver i => w.deliver i

end Shingo.Protocol
