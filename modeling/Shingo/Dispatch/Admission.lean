import Shingo.Dispatch.LaneHold
import Shingo.Dispatch.Rebind

/-!
# lane に入ってよいか

`shingo-core/dispatch/admission.go` の `admitPlan` と `admitLane`。plan の一歩ごとに、行き先の
lane によその dig が無いか、ほかの order の occupancy の row が無いか、取り出すなら手前に
bin が無いかを問う。門のある lane の問いは、門で待つ所まで先に送る。
-/

namespace Shingo.Dispatch

open Core

inductive AdmitCause where
  | laneDigActive
  | laneHeldSource
  | laneOccupied
  | gatePickupElsewhere
  | laneTargetBuried
  deriving DecidableEq

inductive AdmitVerdict where
  | admitted
  | refused (cause : AdmitCause) (lane : String)
  | error (e : RebindError)
  deriving DecidableEq

def digHoldOwner (t : MouthTable) (laneID : Nat) : Nat :=
  (((activeMouthRows t laneID).find? (·.mode == .dig)).map MouthRow.orderID).getD 0

def excavationOwner (t : MouthTable) (laneID : Nat) : Nat :=
  (((activeMouthRows t laneID).find? fun r => r.mode == .dig && isExcavation r.reservedBy).map
    MouthRow.orderID).getD 0

def findBuriedBlockers (v : StoreTables) (target : NodeRow) : List NodeRow :=
  v.plant.nodes.filter fun n => v.occupied n && shallowerInSameLane n target &&
    !(v.plant.listBinsByNode n.id).isEmpty

structure Presence where
  orderID : Nat
  laneID : Nat
  deriving DecidableEq

def occupantsOf (rows : List Presence) (laneID : Nat) : List Nat :=
  ((rows.filter (·.laneID == laneID)).map Presence.orderID).insertionSort (· ≤ ·)

structure AdmissionTables where
  store : StoreTables
  mouth : MouthTable := []

def admitLane (m : LaneMap) (t : AdmissionTables) (rows : List Presence) (skip : AdmissionSkips)
    (order : Order) (name : String) (isSource : Bool) : AdmitVerdict :=
  match m.laneOf name with
  | none => .admitted
  | some lane =>
    if m.entryDeferredToGate skip lane then .admitted
    else
      -- よその dig は、源を押さえる hold でも掘る hold でも、同じように断る
      if (askerFor order.id (order.parentOrderID.getD order.id)).excludedBy
          (digHoldOwner t.mouth lane.id) then
        .refused (if excavationOwner t.mouth lane.id = 0 then .laneHeldSource else .laneDigActive)
          lane.name
      else if (occupantsOf rows lane.id).any (· != order.id) then .refused .laneOccupied lane.name
      else if !isSource || skip.reachability then .admitted
      else
        match pickupSlotNow t.store order lane with
        | .error (.relayOutside ..) => .refused .gatePickupElsewhere lane.name
        | .error (.pickupNotInLane ..) => .refused .gatePickupElsewhere lane.name
        | .error e => .error e
        | .ok (target, _) =>
          if (findBuriedBlockers t.store target).isEmpty then .admitted
          else .refused .laneTargetBuried lane.name

def admitPlan (m : LaneMap) (t : AdmissionTables) (rows : List Presence) (skip : AdmissionSkips)
    (order : Order) : List ResolvedStep → AdmitVerdict
  | [] => .admitted
  | step :: rest =>
    if step.action = .wait ∨ step.node = "" then admitPlan m t rows skip order rest
    else
      match admitLane m t rows skip order step.node (step.action == .pickup) with
      | .admitted => admitPlan m t rows skip order rest
      | v => v

end Shingo.Dispatch
