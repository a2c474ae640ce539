import Shingo.Protocol.Pipeline

/-!
# drainer の輪（`protocol/outbox/drainer.go`）

`run` は、`Notify` の知らせと ticker のどちらでも outbox を一巡する（`drain`）。一巡で出せない行が
あると `muted` になり、知らせでは一巡しなくなる。`muted` は一巡のたびに書き直される。
-/

namespace Shingo.Protocol

inductive DrainEvent where
  | tick
  | failed (id : Nat)
  deriving DecidableEq

/-- `run` の変数と outbox。id は入れた順の添字で、`log` は控え。 -/
structure Drainer where
  size : Nat
  rows : Nat → OutboxRow
  limit : Nat
  wake : Bool := false
  muted : Bool := false
  stopped : Bool := false
  log : List DrainEvent := []

structure DrainPass where
  connected : Bool := true
  listOk : Bool := true
  outcome : Nat → PublishOutcome

def PublishOutcome.ok : PublishOutcome → Bool
  | .acked | .ackLost => true
  | .failed _ | .panicked _ => false

namespace Drainer

def listPendingOutbox (d : Drainer) : List Nat :=
  ((List.range d.size).filter fun i =>
    !(d.rows i).sent && decide ((d.rows i).retries < maxRetries)).take d.limit

def publishOne (d : Drainer) (id : Nat) (o : PublishOutcome) : Drainer × Bool :=
  ({ d with
      rows := fun i => if i = id then o.mark (d.rows i) else d.rows i
      log := if o.ok then d.log else d.log ++ [.failed id] }, o.ok)

def publishAll (outcome : Nat → PublishOutcome) : List Nat → Drainer × Bool → Drainer × Bool
  | [], st => st
  | id :: rest, (d, failed) =>
    let (d, ok) := d.publishOne id (outcome id)
    publishAll outcome rest (d, if ok then failed else true)

/-- 繋がっていないか、読めなければ、失敗とは言わない。 -/
def drain (d : Drainer) (pass : DrainPass) : Drainer × Bool :=
  if !pass.connected then (d, false)
  else if !pass.listOk then (d, false)
  else publishAll pass.outcome d.listPendingOutbox (d, false)

def drainAndMute (d : Drainer) (pass : DrainPass) : Drainer :=
  { (d.drain pass).1 with muted := (d.drain pass).2 }

end Drainer

/-- 起きること。`wake` の `settled` は、`wakeSettle` の間に止められなかったこと。 -/
inductive DrainAction where
  | enqueue
  | requeue (id : Nat)
  | notify
  | stop
  | wake (settled : Bool) (pass : DrainPass)
  | tick (pass : DrainPass)

/-- 輪の一回りか、外の一つの動作。`wake` は容量 1 の channel。 -/
def drainerStep (d : Drainer) : DrainAction → Drainer
  | .enqueue => { d with size := d.size + 1 }
  | .requeue id =>
    { d with
      rows := fun i =>
        if i = id ∧ (d.rows i).sent = false then { d.rows i with retries := 0 } else d.rows i }
  | .notify => { d with wake := true }
  | .stop => { d with stopped := true }
  | .wake settled pass =>
    if d.stopped || !d.wake then d
    else if d.muted then { d with wake := false }
    else if settled then { d with wake := false }.drainAndMute pass
    else { d with wake := false, stopped := true }
  | .tick pass =>
    if d.stopped then d
    else { d with log := d.log ++ [DrainEvent.tick] }.drainAndMute pass

end Shingo.Protocol
