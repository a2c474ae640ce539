import Shingo.Dispatch.Steps

/-!
# order の row

`shingo-core/store/orders` の `Order` のうち dispatch の関数が読み書きする列と、
`protocol` の status の表。
-/

namespace Shingo.Dispatch

inductive OrderStatus where
  | pending
  | sourcing
  | queued
  | submitted
  | dispatched
  | acknowledged
  | inTransit
  | staged
  | delivered
  | confirmed
  | faulted
  | failed
  | cancelled
  | reshuffling
  | skipped
  deriving DecidableEq

def validTransitions : OrderStatus → List OrderStatus
  | .pending => [.sourcing, .submitted, .queued, .reshuffling, .cancelled, .failed, .skipped]
  | .sourcing => [.queued, .submitted, .dispatched, .reshuffling, .cancelled, .failed, .skipped]
  | .submitted => [.acknowledged, .queued, .cancelled, .failed, .skipped]
  | .queued => [.acknowledged, .dispatched, .inTransit, .sourcing, .reshuffling, .cancelled,
      .failed, .skipped]
  | .acknowledged => [.dispatched, .inTransit, .sourcing, .cancelled, .faulted, .failed]
  | .dispatched => [.inTransit, .delivered, .sourcing, .cancelled, .faulted, .failed]
  | .inTransit => [.delivered, .staged, .cancelled, .faulted, .failed]
  | .staged => [.inTransit, .delivered, .cancelled, .faulted, .failed]
  | .faulted => [.inTransit, .delivered, .failed, .cancelled]
  | .delivered => [.confirmed, .cancelled, .failed]
  | .reshuffling => [.confirmed, .queued, .cancelled, .failed]
  | .confirmed | .failed | .cancelled | .skipped => []

def OrderStatus.isTerminal (s : OrderStatus) : Bool := (validTransitions s).isEmpty

def isValidTransition (src dst : OrderStatus) : Bool := (validTransitions src).contains dst

theorem isTerminal_of_validTransition {src dst : OrderStatus}
    (h : isValidTransition src dst = true) : src.isTerminal = false := by
  unfold isValidTransition at h
  unfold OrderStatus.isTerminal
  cases hv : validTransitions src with
  | nil => rw [hv] at h; cases h
  | cons _ _ => rfl

inductive SourceIntent where
  | full
  | empty
  | nodeLocal
  deriving DecidableEq

structure Order where
  id : Nat
  status : OrderStatus
  parentOrderID : Option Nat := none
  processNode : String := ""
  sourceNode : String := ""
  deliveryNode : String := ""
  payloadCode : String := ""
  vendorOrderID : String := ""
  steps : List ResolvedStep := []
  waitIndex : Nat := 0
  deriving DecidableEq

end Shingo.Dispatch
