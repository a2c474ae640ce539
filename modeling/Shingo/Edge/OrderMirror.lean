import Shingo.Core.OrderNotices

/-!
# Edge の order の status

`shingo-edge/orders` の `lifecycle_service.go`・`manager_status.go`・`manager_lifecycle.go` と、
Core の envelope を受ける `messaging/edge_handler.go`、`protocol/types.go` の `IsForwardJump`。

Edge の order は Core の order の写し。envelope の種類ごとに、表に従う遷移（`transition`）、
抜けた知らせを飛び越す遷移（`mirrorTransition`）、確かめずに書く遷移（`forceTransition`）を使い分ける。

後半（`mirrorStep`）は、重なって動く呼び出しの、読み書き一つずつの動き。
-/

namespace Shingo.Edge

open Dispatch
open Core

/-! ## 表を辿る -/

def forwardSearch (dst : OrderStatus) : Nat → List OrderStatus → List OrderStatus → Bool
  | 0, _, _ => false
  | _ + 1, [], _ => false
  | fuel + 1, cur :: queue, seen =>
    if (validTransitions cur).contains dst then true
    else
      let fresh := (validTransitions cur).filter fun s => !seen.contains s
      forwardSearch dst fuel (queue ++ fresh) (seen ++ fresh)

def isForwardJump (src dst : OrderStatus) : Bool :=
  if src = dst ∨ isValidTransition src dst = true then false
  else forwardSearch dst 15 [src] [src]

/-! ## 一つずつ済ませる -/

structure MirrorRow where
  status : OrderStatus
  autoConfirm : Bool := false
  deriving DecidableEq

namespace MirrorRow

variable (row : MirrorRow)

def forceTransition (target : OrderStatus) : MirrorRow :=
  { row with status := target }

def transition (target : OrderStatus) : Option MirrorRow :=
  if isValidTransition row.status target then some (row.forceTransition target)
  else if row.status = target ∨ row.status.isTerminal = true then some row
  else none

def mirrorTransition (target : OrderStatus) : MirrorRow :=
  match row.transition target with
  | some row => row
  | none => if isForwardJump row.status target then row.forceTransition target else row

def tryTransition (target : OrderStatus) : MirrorRow :=
  (row.transition target).getD row

/-- 専用の envelope のある status は、ここでは書かない。 -/
def applyCoreStatus : OrderStatus → MirrorRow
  | .dispatched => adopt .dispatched
  | .inTransit => adopt .inTransit
  | .faulted => adopt .faulted
  | .queued => adopt .queued
  | .sourcing => adopt .sourcing
  | .confirmed => adopt .confirmed
  | _ => row
where
  adopt (status : OrderStatus) : MirrorRow :=
    if row.status.isTerminal then row else row.forceTransition status

def confirmDelivery : MirrorRow :=
  if row.status ≠ .delivered then row else row.tryTransition .confirmed

def handleDelivered : MirrorRow :=
  match row.transition .delivered with
  | none => row
  | some row => if row.autoConfirm then row.confirmDelivery else row

def handleOrderError : OrderErrorCode → MirrorRow
  | .manifestSyncFailed => row.forceTransition .staged
  | .invalidState => if row.status ≠ .inTransit then row else row.forceTransition .staged
  | .other _ => row.tryTransition .failed

def receive : CoreMessage → MirrorRow
  | .ack => row.mirrorTransition .acknowledged
  | .waybill => row.mirrorTransition .inTransit
  | .update status => row.applyCoreStatus status
  | .delivered => row.handleDelivered
  | .error code => row.handleOrderError code
  | .skipped => row.forceTransition .skipped
  | .cancelled => row.mirrorTransition .cancelled
  | .staged => row.mirrorTransition .staged

end MirrorRow

/-! ## 重なって動く呼び出し -/

inductive MirrorCallKind where
  | message (m : CoreMessage)
  | abort
  | release
  | confirm
  deriving DecidableEq

inductive MirrorPC where
  | first
  | waybill
  | enqueue (target : OrderStatus)
  | transition (target : OrderStatus) (mirror : Bool)
  | jump (target : OrderStatus)
  | force (target : OrderStatus)
  | write (old target : OrderStatus)
  | settle (old target : OrderStatus)
  | confirm
  | receipt
  | done
  deriving DecidableEq

/--
進行中の呼び出し。

`thenConfirm` は、届いた後にそのまま確かめること（`AutoConfirm`）。`saw` は、status を確かめた
最後の読みまでに終わりの status の書かれた回数で、どの関数も読まない。
-/
structure MirrorCall where
  kind : MirrorCallKind
  pc : MirrorPC := .first
  thenConfirm : Bool := false
  saw : Nat := 0

inductive MirrorEvent where
  | statusChanged (old new : OrderStatus)
  | delivered
  | completed
  | failed
  deriving DecidableEq

/-- row と、その order について動いている呼び出し。`closes` は終わりの status を書いた回数。 -/
structure MirrorWorld where
  row : MirrorRow
  calls : List MirrorCall := []
  events : List MirrorEvent := []
  closes : Nat := 0

def settleEvents (old target : OrderStatus) : List MirrorEvent :=
  [.statusChanged old target]
    ++ (if target = .delivered then [.delivered] else [])
    ++ (if target.isTerminal then
        [.completed] ++ (if target = .failed then [.failed] else []) else [])

def MirrorCallKind.afterFirst (row : MirrorRow) : MirrorCallKind → MirrorPC
  | .message .ack => .transition .acknowledged true
  | .message .waybill => .waybill
  | .message (.update status) =>
    -- `ApplyCoreStatus`
    if status ∈ [.dispatched, .inTransit, .faulted, .queued, .sourcing, .confirmed]
        ∧ row.status.isTerminal = false then .force status
    else .done
  | .message .delivered => .transition .delivered false
  | .message (.error .manifestSyncFailed) => .force .staged
  | .message (.error .invalidState) => if row.status ≠ .inTransit then .done else .force .staged
  | .message (.error (.other _)) => .transition .failed false
  | .message .skipped => .force .skipped
  | .message .cancelled => .transition .cancelled true
  | .message .staged => .transition .staged true
  | .abort => if row.status.isTerminal then .done else .enqueue .cancelled
  | .release =>
    if row.status.isTerminal ∨ row.status = .pending ∨ row.status = .submitted then .done
    else .enqueue .inTransit
  | .confirm => if row.status ≠ .delivered then .done else .receipt

def MirrorCall.returned (c : MirrorCall) : MirrorCall :=
  if c.thenConfirm then { c with pc := .confirm, thenConfirm := false } else { c with pc := .done }

def callStep (row : MirrorRow) (closes : Nat) (c : MirrorCall) :
    MirrorRow × List MirrorEvent × MirrorCall :=
  match c.pc with
  | .first =>
    (row, [], { c with
      pc := c.kind.afterFirst row
      thenConfirm := decide (c.kind = .message .delivered) && row.autoConfirm
      saw := closes })
  | .waybill => (row, [], { c with pc := .transition .inTransit true })
  | .enqueue target => (row, [], { c with pc := .transition target false })
  | .transition target mirror =>
    if isValidTransition row.status target then
      (row, [], { c with pc := .write row.status target, saw := closes })
    else if row.status = target ∨ row.status.isTerminal = true then (row, [], c.returned)
    else (row, [], { c with pc := if mirror then .jump target else .done })
  | .jump target =>
    if isForwardJump row.status target then
      (row, [], { c with pc := .force target, saw := closes })
    else (row, [], { c with pc := .done })
  | .force target =>
    if row.status = target then (row, [], c.returned)
    else (row, [], { c with pc := .write row.status target })
  | .write old target => ({ row with status := target }, [], { c with pc := .settle old target })
  | .settle old target => (row, settleEvents old target, c.returned)
  | .confirm =>
    (row, [], { c with pc := if row.status ≠ .delivered then .done else .receipt, saw := closes })
  | .receipt => (row, [], { c with pc := .transition .confirmed false })
  | .done => (row, [], c)

def MirrorPC.canFail : MirrorPC → Bool
  | .settle _ _ => false
  | _ => true

inductive MirrorAction where
  | start (kind : MirrorCallKind)
  | step (i : Nat) (ok : Bool)

def closesAfter (closes : Nat) : MirrorPC → Nat
  | .write _ target => if target.isTerminal then closes + 1 else closes
  | _ => closes

def mirrorStep (w : MirrorWorld) : MirrorAction → MirrorWorld
  | .start kind => { w with calls := w.calls ++ [{ kind }] }
  | .step i ok =>
    match w.calls[i]? with
    | none => w
    | some c =>
      if ok = false ∧ c.pc.canFail = true then
        { w with calls := w.calls.set i { c with pc := .done } }
      else
        let (row, events, c') := callStep w.row w.closes c
        { row
          calls := w.calls.set i c'
          events := w.events ++ events
          closes := closesAfter w.closes c.pc }

end Shingo.Edge
