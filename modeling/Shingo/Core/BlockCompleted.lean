import Shingo.Core.Ledger
import Shingo.Core.Text
import Shingo.Dispatch.OrderBins
import Shingo.Infra.Carriage

/-!
# block の完了と bin の置き場所

`shingo-core/engine/wiring_block_completed.go` の `handleBlockCompleted` と、
`wiring_completion.go` の `handleOrderDelivered` のうち、bin の置き場所を書く部分。

pickup の block が済むと bin は `_TRANSIT` に移り、dropoff の block が済むと、そこが納品先で
なければ `_TRANSIT` に在る bin をその node に置く。納品先に置いた bin は、order の全体が
終わったときに置く。どの bin の話かは block には書かれていないので、pickup は `order_bins` の
row か `orders.bin_id` から、dropoff は order の claim のうち `_TRANSIT` に在るものから決める。
-/

namespace Shingo.Core

open Dispatch
open Infra (Carriage Move Resting)

/-! ## block の種類 -/

structure BlockCompletedEvent where
  location : String
  binTask : String

def containsDropoff (t : List Char) : Bool :=
  containsText t "unload" || containsText t "drop" || containsText t "release"

def isPickupBlock (binTask : String) : Bool :=
  let t := toLower binTask
  if binTask = "" then false
  else if t ∈ ["load", "pickup", "pick", "jackload", "jack_load", "fork_load", "rollerload"].map
      String.toList then true
  else if containsDropoff t then false
  else containsText t "load" || containsText t "pick"

def isDropoffBlock (binTask : String) : Bool :=
  let t := toLower binTask
  if binTask = "" then false
  else if t ∈ ["unload", "dropoff", "drop", "jackunload", "jack_unload", "fork_unload",
      "rollerunload", "release"].map String.toList then true
  else containsDropoff t

/-! ## pickup -/

namespace Plant

def nodeIDOf (w : Plant) (name : String) : Option Nat := (w.getNodeByDotName name).map NodeRow.id

def listBinsByClaim (w : Plant) (orderID : Nat) : List BinRow :=
  (w.bins.filter fun b => b.claimedBy == some orderID && b.status != .retired).insertionSort
    fun a b => a.id ≤ b.id

def awaitsPickup (w : Plant) (location : String) (ob : OrderBinRow) : Bool :=
  ob.action == .pickup && trimSpace ob.nodeName == trimSpace location &&
    match w.getBin ob.binID, w.getNodeByDotName ob.nodeName with
    | some bin, some srcNode => bin.nodeID == some srcNode.id
    | _, _ => false

/-- `resolvePickupBin` の bin。row に当たらなければ、row が在っても `orders.bin_id` を返す。 -/
def resolvePickupBin (w : Plant) (order : CargoOrder) (location : String) : Option Nat :=
  match order.listOrderBins.find? (w.awaitsPickup location) with
  | some ob => some ob.binID
  | none => order.binID.filter fun binID => (w.getBin binID).isSome

/-- order の claim のうち `_TRANSIT` に在るもの。一つでなければ決めない。 -/
def resolveDropoffBin (w : Plant) (order : CargoOrder) : Option Nat :=
  match w.getNodeByDotName Ledger.transitNodeName with
  | none => none
  | some transit =>
    match ((w.listBinsByClaim order.id).filter (·.nodeID == some transit.id)).map BinRow.id with
    | [binID] => some binID
    | _ => none

end Plant

namespace Ledger

def enterTransit (binID transitID : Nat) (b : BinRow) : BinRow :=
  if b.id = binID ∧ b.nodeID ≠ some transitID then { b with nodeID := some transitID } else b

theorem enterTransit_id (binID transitID : Nat) (b : BinRow) :
    (enterTransit binID transitID b).id = b.id := by
  unfold enterTransit
  split <;> rfl

def moveToTransit (w : Ledger) (binID : Nat) : Ledger :=
  match w.plant.getNodeByName transitNodeName with
  | none => w
  | some transit =>
    w.updateBins (enterTransit binID transit.id) (enterTransit_id binID transit.id)

def handlePickupBlockCompleted (w : Ledger) (order : CargoOrder) (location : String) : Ledger :=
  match w.plant.resolvePickupBin order location with
  | none => w
  | some binID => w.moveToTransit binID

/-! ## dropoff -/

section

-- `isStorageSlot`。storage でない node に置いた bin は staged になる（`resolveNodeStaging`）
variable (isStorageSlot : Nat → Bool)

def placementAt (order : CargoOrder) (binID toNodeID : Nat) (releaseClaim : Bool) :
    BinPlacement where
  binID
  toNodeID
  placedByOrder := order.id
  releaseClaim
  staged := !isStorageSlot toNodeID

variable (w : Ledger)

def handleStoreBlockCompleted (order : CargoOrder) (location : String) : Ledger :=
  let location := trimSpace location
  if location = "" ∨ location = trimSpace order.deliveryNode then w
  else match w.plant.resolveDropoffBin order, w.plant.getNodeByDotName location with
    | some binID, some destNode =>
      ledgerStep w (.placeBin (placementAt isStorageSlot order binID destNode.id false))
    | _, _ => w

def handleBlockCompleted (order : CargoOrder) (ev : BlockCompletedEvent) : Ledger :=
  if isPickupBlock ev.binTask then w.handlePickupBlockCompleted order ev.location
  else if isDropoffBlock ev.binTask then handleStoreBlockCompleted isStorageSlot w order ev.location
  else w

/-! ## 納品 -/

inductive ArrivalSite where
  | delivery
  | multiBinDelivery

structure ArrivalRefusal where
  orderID : Nat
  binID : Nat
  claimedBy : Option Nat
  site : ArrivalSite
  atNodeID : Nat
  destNodeID : Nat

def refuseArrival (order : CargoOrder) (bin : BinRow) (destNodeID : Nat) (site : ArrivalSite) :
    Option ArrivalRefusal :=
  if order.parentOrderID.isSome then none
  else if bin.claimedBy = some order.id then none
  else some ⟨order.id, bin.id, bin.claimedBy, site, bin.nodeID.getD 0, destNodeID⟩

inductive ArrivalAnswer where
  | skip
  | refuse (r : ArrivalRefusal)
  | place (p : BinPlacement)

def ArrivalAnswer.refusal? : ArrivalAnswer → Option ArrivalRefusal
  | .refuse r => some r
  | _ => none

def ArrivalAnswer.instruction? : ArrivalAnswer → Option BinPlacement
  | .place p => some p
  | _ => none

def arrivalOf (order : CargoOrder) (ob : OrderBinRow) : ArrivalAnswer :=
  if ob.destNode = "" then .skip
  else match w.plant.getBin ob.binID, w.plant.getNodeByDotName ob.destNode with
    | some bin, some destNode =>
      if bin.nodeID = some destNode.id then .skip
      else match refuseArrival order bin destNode.id .multiBinDelivery with
        | some r => .refuse r
        | none => .place (placementAt isStorageSlot order ob.binID destNode.id true)
    | _, _ => .skip

def applyMultiBinArrival (instructions : List BinPlacement) : Ledger :=
  (instructions.foldlM (fun (w : Ledger) p => (w.placeBin p).map Prod.fst) w).toOption.getD w

def applyMultiBinArrivalForOrder (order : CargoOrder) : Ledger × List ArrivalRefusal :=
  let answers := order.listOrderBins.map (arrivalOf isStorageSlot w order)
  match answers.filterMap ArrivalAnswer.refusal? with
  | [] => (w.applyMultiBinArrival (answers.filterMap ArrivalAnswer.instruction?), [])
  | refusals => (w, refusals)

def applySingleBinArrival (order : CargoOrder) : Ledger × Option ArrivalRefusal :=
  match order.binID.bind w.plant.getBin, w.plant.getNodeByDotName order.deliveryNode with
  | some bin, some destNode =>
    match refuseArrival order bin destNode.id .delivery with
    | some r => (w, some r)
    | none =>
      (ledgerStep w (.placeBin (placementAt isStorageSlot order bin.id destNode.id true)), none)
  | _, _ => (w, none)

def applyBinArrivalForOrder (order : CargoOrder) : Ledger × Option ArrivalRefusal :=
  if order.sourceNode = "" ∨ order.deliveryNode = "" then (w, none)
  else if order.orderBins ≠ [] then
    let (w', refusals) := applyMultiBinArrivalForOrder isStorageSlot w order
    (w', refusals.head?)
  else applySingleBinArrival isStorageSlot w order

def handleOrderDelivered (order : CargoOrder) : Ledger :=
  match applyBinArrivalForOrder isStorageSlot w order with
  | (w', none) => w'
  | (w', some _) => (w'.terminalizeOrder order.id .failed).1

end

end Ledger

/-! ## 行程の実行 -/

structure HaulPlan where
  order : CargoOrder
  claimed : List ClaimedBin
  isStorageSlot : Nat → Bool := fun _ => false

/-- 実行の状態。`robot` は、済んだ block を一つずつ辿った robot と bin。 -/
structure Haul where
  ledger : Ledger
  robot : Carriage Nat String
  done : Nat := 0
  finished : Bool := false

/-- 起きること。`replay i` は、`i` 番目の step の block がもう一度届くこと。 -/
inductive HaulEvent where
  | next
  | replay (i : Nat)
  | finished

namespace HaulPlan

variable (plan : HaulPlan)

def moveAt (i : Nat) (s : ResolvedStep) : Move Nat String :=
  match s.action with
  | .pickup => .take ((plan.claimed.find? (·.stepIndex == i)).map ClaimedBin.binID) s.node
  | .dropoff => .put s.node
  | .wait => .stay

def start (w : Ledger) : Haul where
  ledger := w
  robot := { resting := plan.claimed.map fun c => { item := c.binID, place := c.nodeName } }

def completed (w : Ledger) (s : ResolvedStep) : Ledger :=
  w.handleBlockCompleted plan.isStorageSlot plan.order
    { location := s.node, binTask := binTaskForAction s.action }

def step (s : Haul) : HaulEvent → Haul
  | .next =>
    match plan.order.steps[s.done]? with
    | none => s
    | some st =>
      { s with
        ledger := plan.completed s.ledger st
        robot := (s.robot.step (plan.moveAt s.done st)).getD s.robot
        done := s.done + 1 }
  | .replay i =>
    match plan.order.steps[i]? with
    | none => s
    | some st => { s with ledger := plan.completed s.ledger st }
  | .finished =>
    { s with
      ledger := s.ledger.handleOrderDelivered plan.isStorageSlot plan.order
      finished := true }

end HaulPlan

end Shingo.Core
