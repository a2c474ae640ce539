import Shingo.Dispatch.Release

/-!
# fleet への引き渡し（handover）

`shingo-core/dispatch/fleet_handover.go` の `handoverToFleet` と、その間に割り込む
`lifecycle.go` の `CancelOrder`・`transition`、`engine/wiring_vendor_status.go` の
grace 切れ。

引き渡しは status の CAS、fleet の create、row の読み直し、vendor_order_id の書き込みの
四つで、別々に落ちる。order を終わらせる側は、row の写しの vendor_order_id で fleet を止める。

fleet の cancel は、いつも効くものとする。終わる order の claim や予約は、ここでは読まない。
-/

namespace Shingo.Dispatch

/-- `fleet.CreateOrderRequest` のうち、id。`mintVendorOrderID` は prefix を付け、uuid で新しくする。 -/
structure CreateOrderRequest (order : Order) where
  orderID : String
  minted : orderID ≠ ""
  fresh : orderID ≠ order.vendorOrderID

inductive HandoverError where
  | illegalTransition
  | concurrentTransition
  | notPersisted
  | fleetRefused
  | wentTerminal
  | vendorIDNotSaved
  deriving DecidableEq

inductive HandoverPC where
  | claim
  | create
  | reread
  | name
  | returned (err : Option HandoverError)
  deriving DecidableEq

inductive TerminalKind where
  | cancelOrder
  | graceExpired
  /-- `Fail`・`Skip`・`ConfirmReceipt`・`FailOrderAtomic`。fleet には触れない。 -/
  | plain
  deriving DecidableEq

inductive TerminalPC where
  | stopFirst (snap : Order)
  | write (kind : TerminalKind) (snap : Order) (dst : OrderStatus)
  | stopAfter (snap : Order)
  | returned
  deriving DecidableEq

/--
order の row、引き渡し、fleet の持っている mission、終わらせる呼び出し。

`loaded` は引き渡しの持つ写しの status、`live` は止めても終わってもいない vendor order。
-/
structure HandoverWorld where
  row : Order
  vendorOrderID : String
  loaded : OrderStatus
  handover : HandoverPC
  live : List String
  calls : List TerminalPC

namespace HandoverWorld

def start (order : Order) (req : CreateOrderRequest order) : HandoverWorld where
  row := order
  vendorOrderID := req.orderID
  loaded := order.status
  handover := .claim
  live := []
  calls := []

variable (w : HandoverWorld)

def cancelVendor (vendorOrderID : String) : HandoverWorld :=
  { w with live := w.live.filter (· != vendorOrderID) }

def finish (err : Option HandoverError) : HandoverWorld :=
  { w with handover := .returned err }

def claim (ok : Bool) : HandoverWorld :=
  if !isValidTransition w.loaded .dispatched then w.finish (some .illegalTransition)
  else if !ok then w.finish (some .notPersisted)
  else if w.row.status = w.loaded then
    { w with row := { w.row with status := .dispatched }, handover := .create }
  else w.finish (some .concurrentTransition)

def create : AppendOutcome → HandoverWorld
  | .ok => { w with live := w.live ++ [w.vendorOrderID], handover := .reread }
  | .failed => w.finish (some .fleetRefused)
  | .lostReply =>
    { w with live := w.live ++ [w.vendorOrderID] }.finish (some .fleetRefused)

def reread (ok : Bool) : HandoverWorld :=
  if ok && w.row.status.isTerminal then
    (w.cancelVendor w.vendorOrderID).finish (some .wentTerminal)
  else { w with handover := .name }

def name (ok : Bool) : HandoverWorld :=
  if ok then { w with row := { w.row with vendorOrderID := w.vendorOrderID } }.finish none
  else (w.cancelVendor w.vendorOrderID).finish (some .vendorIDNotSaved)

def begin (kind : TerminalKind) (dst : OrderStatus) : HandoverWorld :=
  { w with calls := w.calls ++ [
      if w.row.status.isTerminal then .returned
      else match kind with
        | .cancelOrder => .stopFirst w.row
        | .graceExpired =>
          if isValidTransition w.row.status .failed then .write kind w.row .failed
          else .stopAfter w.row
        | .plain =>
          if dst.isTerminal && isValidTransition w.row.status dst then .write kind w.row dst
          else .returned] }

def goto (i : Nat) (pc : TerminalPC) : HandoverWorld :=
  { w with calls := w.calls.set i pc }

def stopFirst (i : Nat) (snap : Order) : HandoverWorld :=
  (if snap.vendorOrderID != "" then w.cancelVendor snap.vendorOrderID else w).goto i
    (if isValidTransition snap.status .cancelled then .write .cancelOrder snap .cancelled
     else .returned)

def afterWrite (kind : TerminalKind) (snap : Order) : TerminalPC :=
  if kind = .graceExpired then .stopAfter snap else .returned

def terminalize (i : Nat) (kind : TerminalKind) (snap : Order)
    (dst : OrderStatus) (ok : Bool) : HandoverWorld :=
  (if ok && !w.row.status.isTerminal then { w with row := { w.row with status := dst } }
   else w).goto i (afterWrite kind snap)

end HandoverWorld

inductive HandoverAction where
  | claim (ok : Bool)
  | create (out : AppendOutcome)
  | reread (ok : Bool)
  | name (ok : Bool)
  | begin (kind : TerminalKind) (dst : OrderStatus)
  | stop (i : Nat)
  | terminalize (i : Nat) (ok : Bool)
  | move (dst : OrderStatus)
  | missionEnds

def handoverStep (w : HandoverWorld) : HandoverAction → HandoverWorld
  | .claim ok => if w.handover = .claim then w.claim ok else w
  | .create out => if w.handover = .create then w.create out else w
  | .reread ok => if w.handover = .reread then w.reread ok else w
  | .name ok => if w.handover = .name then w.name ok else w
  | .begin kind dst => w.begin kind dst
  | .stop i =>
    match w.calls[i]? with
    | some (.stopFirst snap) => w.stopFirst i snap
    | some (.stopAfter snap) => (w.cancelVendor snap.vendorOrderID).goto i .returned
    | _ => w
  | .terminalize i ok =>
    match w.calls[i]? with
    | some (.write kind snap dst) => w.terminalize i kind snap dst ok
    | _ => w
  | .move dst =>
    if isValidTransition w.row.status dst && !dst.isTerminal then
      { w with row := { w.row with status := dst } }
    else w
  | .missionEnds => w.cancelVendor w.vendorOrderID

end Shingo.Dispatch
