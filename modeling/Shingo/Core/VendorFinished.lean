import Shingo.Core.StrandedTransit

/-!
# fleet の「終わった」という報告

`shingo-core/engine/wiring_vendor_status.go` の `handleVendorStatusChange` のうち、fleet の
FINISHED（`fleet.MapState` で delivered）を受けた道と、そこから呼ばれるもの。

* `wiring_completion.go` の `handleOrderDelivered`・`handleOrderCompleted`・
  `handleMultiBinCompleted`
* `arrival_guard.go` の `reapplyRefused`
* `engine/wiring.go` の、order の失敗・取り消し・完了の event を受ける handler
* `dispatch/lifecycle.go` の `Fail`・`MarkDelivered`・`ConfirmReceipt` と、`swap_peer.go` の
  `HandleSwapPeerTerminal`

event はその場で受け手に渡る。掘り出しを進める
`HandleChildOrderComplete` と `HandleChildOrderFailure` が何をするかは `CompoundHooks` に任せる。
-/

namespace Shingo.Core

open Dispatch
open Infra (firstBy)

/-! ## status の書き込み -/

namespace Ledger

def advance (orderID : Nat) (src dst : OrderStatus) (o : OrderRow) : OrderRow :=
  if o.id = orderID ∧ o.status = src then { o with status := dst } else o

variable (orderID : Nat) (src dst : OrderStatus) (o : OrderRow)

theorem advance_id : (advance orderID src dst o).id = o.id := by
  unfold advance
  split <;> rfl

theorem advance_parentOrderID : (advance orderID src dst o).parentOrderID = o.parentOrderID := by
  unfold advance
  split <;> rfl

def updateOrderStatusFrom (w : Ledger) (orderID : Nat) (src dst : OrderStatus) : Ledger × Bool :=
  (w.updateOrders (advance orderID src dst) (advance_id orderID src dst)
    (advance_parentOrderID orderID src dst),
    w.orders.any fun o => o.id == orderID && o.status == src)

end Ledger

def Ledger.ArrivalRefusal.context (r : Ledger.ArrivalRefusal) : String :=
  let node (id : Nat) := if id = 0 then "unknown" else "node " ++ toString id
  "bin is at " ++ node r.atNodeID ++ ", this order's destination was " ++ node r.destNodeID

def Ledger.ArrivalRefusal.detail (r : Ledger.ArrivalRefusal) : String :=
  "cargo does not match the ledger: bin " ++ toString r.binID ++ " is claimed by "
    ++ (match r.claimedBy with
      | none => "nobody"
      | some orderID => "order " ++ toString orderID)
    ++ ", not by this order (" ++ r.context ++ "). Core cannot identify what the robot is "
    ++ "carrying, so the delivery is not recorded and the order is failed rather than reported "
    ++ "delivered."

def firesTerminal (src : OrderStatus) : Bool := !src.isTerminal && src != .submitted

namespace Engine

structure CompoundHooks where
  completed : Engine → Nat → Engine
  failed : Engine → Nat → Nat → Engine

variable (w : Engine)

def sendToEdge (station : String) (m : EdgeMessage) : Engine :=
  { w with outbox := w.outbox ++ [(station, m)] }

def notifyEdge (station uuid : String) (m : EdgeMessage) : Engine :=
  if station ≠ "" ∧ uuid ≠ "" then w.sendToEdge station m else w

/-- `TerminalizeOrderWithReason`。`order_bins` の row も消える。 -/
def terminalizeOrder (orderID : Nat) (status : OrderStatus) : Engine :=
  { w with
    ledger := (w.ledger.terminalizeOrder orderID status).1
    columns := Function.update w.columns orderID { w.columns orderID with orderBins := [] } }

def updateColumns (orderID : Nat) (g : FleetOrder → FleetOrder) : Engine :=
  { w with columns := Function.update w.columns orderID (g (w.columns orderID)) }

/-! ## swap の相手 -/

def getOrderByUUID (uuid : String) : Option FleetOrder :=
  (firstBy (fun a b => b.id ≤ a.id)
    (w.ledger.orders.filter fun o => (w.columns o.id).edgeUUID == uuid)).map w.rowOf

def isEvac (dead : FleetOrder) : Bool :=
  dead.decodeSteps.any fun steps => legTakesLineBin steps dead.processNode

def unwindReason (dead : FleetOrder) (kind : SwapTerminal) : String :=
  if isEvac dead then
    "two-robot swap evac (order " ++ toString dead.id ++ ") " ++ kind.text
      ++ "; cancelling supply so it cannot drop onto an un-cleared line"
  else
    "two-robot swap supply (order " ++ toString dead.id ++ ") " ++ kind.text
      ++ "; cancelling evac so it cannot strand the line"

/-- `HandleSwapPeerTerminal` の取り消す相手。生きている相手だけを取り消す。 -/
def swapPeerToCancel (deadOrderID : Nat) (kind : SwapTerminal) : Option (FleetOrder × FleetOrder) :=
  match w.getOrder deadOrderID with
  | none => none
  | some dead =>
    if dead.siblingOrderUUID = "" then none
    else match w.getOrderByUUID dead.siblingOrderUUID with
      | none => none
      | some peer =>
        if kind = .abandoned then none
        else if isEvac dead && (decide (kind = .skipped)
            || peerIsParkedWaitingForMaterial peer.toComplexOrder) then none
        else if peer.status.isTerminal then none
        else some (dead, peer)

/--
`HandleSwapPeerTerminal`。相手の取り消しは、相手の event の handler をその場で呼ぶ。

`fuel` は、まだ終わっていない order の数だけあればよい。
-/
def handleSwapPeerTerminal : Nat → Engine → Nat → SwapTerminal → Engine
  | 0, w, _, _ => w
  | fuel + 1, w, deadOrderID, kind =>
    match w.swapPeerToCancel deadOrderID kind with
    | none => w
    | some (dead, peer) =>
      let w := w.terminalizeOrder peer.id .cancelled
      if firesTerminal peer.status then
        let w := w.notifyEdge peer.stationID peer.edgeUUID
          (.cancelled peer.edgeUUID (unwindReason dead kind))
        let w := handleSwapPeerTerminal fuel w peer.id .cancelled
        w.inferStrandedTransitBin peer.id
      else w

/-! ## 失敗 -/

variable (hooks : CompoundHooks)

def onOrderFailed (order : FleetOrder) (code detail : String) : Engine :=
  let w := w.notifyEdge order.stationID order.edgeUUID (.error order.edgeUUID code detail)
  let w := match order.parentOrderID with
    | some parentID => hooks.failed w parentID order.id
    | none => handleSwapPeerTerminal w.ledger.orders.length w order.id .failed
  w.inferStrandedTransitBin order.id

def failOrderAndEmit (orderID : Nat) (code detail : String) : Engine :=
  match w.getOrder orderID with
  | none => w
  | some order =>
    if order.status.isTerminal ∨ isValidTransition order.status .failed = false then w
    else
      let w := w.terminalizeOrder order.id .failed
      if firesTerminal order.status then w.onOrderFailed hooks order code detail else w

/-! ## 納品 -/

def selectConsumingBinForNode (rows : List OrderBinRow) (processNode : String) :
    Option OrderBinRow :=
  if processNode = "" then none else rows.find? (·.destNode == processNode)

def deliveredBin (order : FleetOrder) : Option Nat × String :=
  match order.binID with
  | none => (none, "")
  | some binID =>
    if order.orderBins = [] then (some binID, "")
    else match selectConsumingBinForNode order.listOrderBins order.processNode with
      | some ob => (some ob.binID, ob.destNode)
      | none => (none, "")

def handleOrderDelivered (order : FleetOrder) : Engine :=
  match w.ledger.applyBinArrivalForOrder w.isStorageSlot order.toCargoOrder with
  | (ledger, some refusal) =>
    { w with ledger }.failOrderAndEmit hooks order.id "cargo_ledger_mismatch" refusal.detail
  | (ledger, none) =>
    let station := if order.stationID = "" then "*" else order.stationID
    let (binID, binDestNode) := deliveredBin order
    { w with ledger }.sendToEdge station
      (.delivered order.edgeUUID binID order.deliveryNode binDestNode)

/-! ## 完了 -/

def reapplyRefused (order : FleetOrder) (bin : BinRow) (destNodeID : Nat) : Bool :=
  if order.parentOrderID.isSome then false
  else order.status.isTerminal || decide (bin.nodeID = some destNodeID)
    || (Ledger.refuseArrival order.toCargoOrder bin destNodeID .delivery).isSome

def completionOf (order : FleetOrder) (ob : OrderBinRow) : Option Ledger.BinPlacement :=
  if ob.destNode = "" then none
  else match w.ledger.plant.getNodeByDotName ob.destNode, w.ledger.plant.getBin ob.binID with
    | some destNode, some bin =>
      if reapplyRefused order bin destNode.id then none
      else some (Ledger.placementAt w.isStorageSlot order.toCargoOrder ob.binID destNode.id true)
    | _, _ => none

def handleMultiBinCompleted (order : FleetOrder) : Engine :=
  let instructions := order.listOrderBins.filterMap (w.completionOf order)
  let w := { w with ledger := w.ledger.applyMultiBinArrival instructions }
  if order.status.isTerminal then w.updateColumns order.id fun o => { o with orderBins := [] }
  else w

def reapplySingleBin (order : FleetOrder) : Engine :=
  match order.binID.bind w.ledger.plant.getBin,
      w.ledger.plant.getNodeByDotName order.deliveryNode with
  | some bin, some destNode =>
    if reapplyRefused order bin destNode.id then w
    else { w with
      ledger := ledgerStep w.ledger (.placeBin
        (Ledger.placementAt w.isStorageSlot order.toCargoOrder bin.id destNode.id true)) }
  | _, _ => w

def handleOrderCompleted (orderID : Nat) : Engine :=
  match w.getOrder orderID with
  | none => w
  | some order =>
    let w := if order.parentOrderID.isSome then hooks.completed w order.id else w
    if order.sourceNode = "" ∨ order.deliveryNode = "" then w
    else
      -- `order_bins` は、掘り出しを進めた後で読み直す
      let order := { order with orderBins := (w.columns orderID).orderBins }
      if order.orderBins ≠ [] then w.handleMultiBinCompleted order else w.reapplySingleBin order

def onOrderCompleted (order : FleetOrder) (station : String) : Engine :=
  (w.notifyEdge station order.edgeUUID
    (.update order.edgeUUID .confirmed "confirmed at Core")).handleOrderCompleted hooks order.id

def markDelivered (order : FleetOrder) : Engine × FleetOrder :=
  if isValidTransition order.status .delivered then
    match w.ledger.updateOrderStatusFrom order.id order.status .delivered with
    | (ledger, true) =>
      let order := { order with status := .delivered }
      ({ w with ledger }.onOrderCompleted hooks order "", order)
    | (_, false) => (w, order)
  else (w, order)

def confirmReceipt (order : FleetOrder) : Engine :=
  if order.completed || !isValidTransition order.status .confirmed then w
  else
    let won := w.ledger.isLive order.id
    let w := w.terminalizeOrder order.id .confirmed
    if won then
      ((w.onOrderCompleted hooks { order with status := .confirmed } order.stationID).updateColumns
        order.id fun o => { o with completed := true })
    else w

/-! ## 報告 -/

def effectiveRobotID (order : FleetOrder) (robotID : String) : String :=
  if robotID ≠ "" then robotID else order.robotID

def settleFinished (order : FleetOrder) : Engine :=
  let (w, order) := (w.handleOrderDelivered hooks order).markDelivered hooks order
  if order.parentOrderID.isSome then w.confirmReceipt hooks order else w

def handleVendorFinished (orderID : Nat) (robotID : String) : Engine :=
  match w.getOrder orderID with
  | none => w
  | some order =>
    let robot := effectiveRobotID order robotID
    let w := if robotID ≠ "" ∧ order.robotID = "" then
        w.sendToEdge order.stationID (.waybill order.edgeUUID order.vendorOrderID robotID)
      else w
    if order.status = .delivered then w.updateColumns orderID fun o => { o with robotID := robot }
    else
      let w := w.settleFinished hooks order
      let w := w.updateColumns orderID fun o => { o with robotID := robot }
      w.sendToEdge order.stationID (.update order.edgeUUID .delivered "fleet state: FINISHED")

end Engine

/-! ## それまでの歩み -/

def Ledger.transition (w : Ledger) (orderID : Nat) (src dst : OrderStatus) : Ledger :=
  if isValidTransition src dst = false then w
  else if dst.isTerminal then (w.terminalizeOrder orderID dst).1
  else (w.updateOrderStatusFrom orderID src dst).1

/--
帳簿への書き込み一つ。

`transition` の `src` は呼び出しの読んだ status、`move` は `Move` と `RecoverTransitAnomaly` の
`UPDATE`、`create` は order の受け付け。
-/
inductive HistoryAction where
  | txn (a : LedgerAction)
  | create (o : OrderRow)
  | transition (orderID : Nat) (src dst : OrderStatus)
  | toTransit (binID : Nat)
  | move (clearStaging : Bool) (binID toNodeID : Nat)

def historyStep (w : Ledger) : HistoryAction → Ledger
  | .txn a => ledgerStep w a
  | .create o => (w.createOrder o).toOption.getD w
  | .transition orderID src dst => w.transition orderID src dst
  | .toTransit binID => w.moveToTransit binID
  | .move clearStaging binID toNodeID =>
    w.updateBins (Ledger.moved clearStaging binID toNodeID)
      (Ledger.moved_id clearStaging binID toNodeID)

end Shingo.Core
