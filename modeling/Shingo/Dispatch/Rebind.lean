import Shingo.Dispatch.StoreSlot

/-!
# 門が入る所を決め直す

`shingo-core/dispatch/lane_gate_release.go` の `rebindGatedDropoff` と `rebindGatedPickup`。
門は区間を足す前に、入る一歩の node を今の lane に合わせて選び直す。変わるのは、
入る一歩の node と、order の `source_node` か `delivery_node`。

どちらの関数も表を読んで答えを出す。claim の row は order の row に現れないので、
書き換えは答えの node だけで決まる。
-/

namespace Shingo.Dispatch

open Core

def extractEndpoints (steps : List ResolvedStep) : String × String :=
  steps.foldl (fun (pickup, delivery) s =>
    if s.action = .wait then (pickup, delivery)
    else (if pickup = "" then s.node else pickup, s.node)) ("", "")

/-! ## 断る理由 -/

inductive RebindError where
  | noRows
  | slot (e : StoreSlotError)
  | claim (e : ClaimStoreSlotError)
  | claimRefused (nodeID : Nat)
  | relayOutside (orderID : Nat) (atNode lane : String)
  | binHasNoNode (binID orderID : Nat)
  | pickupNotInLane (binID orderID : Nat) (atNode lane : String)
  | sourceEmpty (node : String)
  deriving DecidableEq

/-! ## dropoff を選び直す -/

variable (v : StoreTables)

def claimSlotAllowed (plant : Plant) (node : NodeRow) (orderID : Nat) : Bool :=
  (v.slotClaim node.id).all (· == orderID) && !v.occupied node &&
    plant.reservations.any fun r => r == ⟨orderID, .slot node.id, .pending⟩

def confirmDropoffSlot (plant : Plant) (orderID : Nat) (node : NodeRow) : Except RebindError Unit :=
  if v.slotClaim node.id = some orderID then .ok ()
  else if claimSlotAllowed v plant node orderID then .ok ()
  else .error (.claimRefused node.id)

def rebindGatedDropoff (order : Order) (lane : NodeRow) : Except RebindError (NodeRow × Bool) :=
  match v.plant.getNodeByDotName order.deliveryNode with
  | none => .error .noRows
  | some current =>
    match findStoreSlotInLaneExcluding v lane.id order.id with
    | .error e => .error (.slot e)
    | .ok best =>
      if best.id = current.id then .ok (current, false)
      else
        match claimStoreSlot v.plant order.id best with
        | .error e => .error (.claim e)
        | .ok plant =>
          match confirmDropoffSlot v plant order.id best with
          | .error e => .error e
          | .ok () => .ok (best, true)

/--
`rebindGatedDropoff` の書く `reservations`。`releaseOk` と `updateOk` は、古い slot を放す文と
`delivery_node` の書き込みの成否で、答えの `none` は後の方の error。
-/
def rebindDropoffRows (order : Order) (lane : NodeRow) (releaseOk updateOk : Bool) :
    List Reservation × Option (Except RebindError (NodeRow × Bool)) :=
  let rows := v.plant.reservations
  match v.plant.getNodeByDotName order.deliveryNode with
  | none => (rows, some (.error .noRows))
  | some current =>
    match findStoreSlotInLaneExcluding v lane.id order.id with
    | .error e => (rows, some (.error (.slot e)))
    | .ok best =>
      if best.id = current.id then (rows, some (.ok (current, false)))
      else
        match claimStoreSlot v.plant order.id best with
        | .error e => (rows, some (.error (.claim e)))
        | .ok plant =>
          match confirmDropoffSlot v plant order.id best with
          | .error e => (plant.reservations, some (.error e))
          | .ok () =>
            let rows := plant.reservations.map fun r =>
              if r.orderID = order.id ∧ r.target = .slot best.id then { r with state := .confirmed }
              else r
            -- 放すのは order の `delivery_node` の slot。失敗は log に残るだけ
            let rows := if releaseOk then
                rows.filter fun r => !(r.orderID == order.id && r.target == .slot current.id)
              else rows
            (rows, if updateOk then some (.ok (best, true)) else none)

/-! ## pickup を選び直す -/

def OrderStatus.isPreDispatch : OrderStatus → Bool
  | .pending | .sourcing | .queued => true
  | _ => false

def entryStepIndex (order : Order) : Option Nat :=
  if order.status.isPreDispatch then (firstActionable 0 order.steps).map (·.2.1)
  else (laneEntryAfterWait order.steps order.waitIndex).map (·.2.1)

/-- `relay` は、order が自分で置いた bin を同じ node から取り直すもの。 -/
inductive StepBin where
  | unknown
  | bin (binID : Nat)
  | relay (atNode : String)
  deriving DecidableEq

def stepBinOfOrder (order : Order) : StepBin :=
  match v.orderBinID order.id with
  | some id => .bin id
  | none => .unknown

def orderDropsAtBefore (steps : List ResolvedStep) (node : String) (stepIndex : Nat) : Bool :=
  (steps.take stepIndex).any fun s => s.action == .dropoff && s.node == node

def binForStep (order : Order) (stepIndex : Nat) : StepBin :=
  match order.steps[stepIndex]? with
  | none => .unknown
  | some step =>
    match v.orderBins.find? fun r => r.orderID == order.id && r.stepIndex == stepIndex with
    | some r => .bin r.binID
    | none =>
      if step.node != "" && orderDropsAtBefore order.steps step.node stepIndex then
        .relay step.node
      else stepBinOfOrder v order

def wantedBin (order : Order) : StepBin :=
  match entryStepIndex order with
  | none => stepBinOfOrder v order
  | some idx =>
    match binForStep v order idx with
    | .unknown => stepBinOfOrder v order
    | known => known

def pickupSlotNow (order : Order) (lane : NodeRow) : Except RebindError (NodeRow × Bool) :=
  match v.plant.getNodeByDotName order.sourceNode with
  | none => .error .noRows
  | some named =>
    match wantedBin v order with
    | .unknown => .ok (named, false)
    | .relay atNode =>
      match v.plant.getNodeByDotName atNode with
      | none => .error .noRows
      | some slot =>
        if slot.parentID = some lane.id then .ok (slot, slot.id != named.id)
        else .error (.relayOutside order.id atNode lane.name)
    | .bin binID =>
      match v.plant.getBin binID with
      | none => .error .noRows
      | some bin =>
        match bin.nodeID with
        | none => .error (.binHasNoNode binID order.id)
        | some nodeID =>
          if nodeID = named.id then .ok (named, false)
          else
            match v.plant.getNode nodeID with
            | none => .error .noRows
            | some slot =>
              if slot.parentID = some lane.id then .ok (slot, true)
              else .error (.pickupNotInLane binID order.id slot.name lane.name)

def rebindGatedPickup (order : Order) (lane : NodeRow) : Except RebindError (NodeRow × Bool) :=
  match pickupSlotNow v order lane with
  | .error e => .error e
  | .ok (slot, true) => .ok (slot, true)
  | .ok (slot, false) =>
    if (v.plant.listBinsByNode slot.id).isEmpty then .error (.sourceEmpty slot.name)
    else .ok (slot, false)

def rebindGated (retrieve : Bool) (v : StoreTables) (order : Order) (lane : NodeRow) :
    Except RebindError (NodeRow × Bool) :=
  if retrieve then rebindGatedPickup v order lane else rebindGatedDropoff v order lane

/-! ## 重なり -/

def ReleaseAction.keepsPlan : ReleaseAction → Bool
  | .rebind .. => false
  | .redirect _ => false
  | _ => true

inductive GateAction where
  /--
  門の `i` 番目の呼び出しが、`v` を読んで `entryIndex` の一歩を選び直す。
  `stepsWritten` は steps_json を書けたか。書けなくても呼び出しは続く。
  -/
  | rebindGated (i : Nat) (retrieve : Bool) (v : StoreTables) (lane : NodeRow) (entryIndex : Nat)
      (stepsWritten : Bool)
  | release (a : ReleaseAction) (keeps : a.keepsPlan = true)

structure RebindWorld where
  world : ReleaseWorld
  entries : List Nat

def RebindWorld.created (o : Order) (loadSeq : List String) : RebindWorld where
  world := ReleaseWorld.created o loadSeq
  entries := []

def ReleaseWorld.applyNodeAtStep (w : ReleaseWorld) (i : Nat) (o : Order) (retrieve : Bool)
    (node : String) (stepIndex : Nat) (stepsWritten : Bool) : ReleaseWorld :=
  if stepsWritten then releaseStep w (.rebind i retrieve node stepIndex)
  else
    -- order の列だけが変わり、行程は前のまま残る
    { (w.goto i (.gate (rebound o o.steps retrieve node))) with
      row := rebound w.row w.row.steps retrieve node }

def gateStep (s : RebindWorld) : GateAction → RebindWorld
  | .rebindGated i retrieve v lane entryIndex stepsWritten =>
    match s.world.calls[i]? with
    | some (.gate o) =>
      match rebindGated retrieve v o lane with
      | .error _ => { s with world := s.world.goto i .returned }
      | .ok (_, false) => s
      | .ok (node, true) =>
        { world := s.world.applyNodeAtStep i o retrieve node.name entryIndex stepsWritten
          entries := entryIndex :: s.entries }
    | _ => s
  | .release a _ => { s with world := releaseStep s.world a }

end Shingo.Dispatch
