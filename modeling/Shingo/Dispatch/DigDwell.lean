import Shingo.Core.Plant
import Shingo.Dispatch.Release

/-!
# lane の中で行き先を待つ leg（outbound dwell）

`shingo-core/dispatch/dig_dwell.go` と、`lane_gate_release.go` の `gateStagedForLane`、
`store_slot.go` の `claimStoreSlot`。

lane を掘る leg は行き先を持たずに出る。plan は `[pickup, wait]` で終わり、
robot は掘っている lane の中で bin を持ったまま待つ。lane の evaluator が slot を選び、
slot の予約・plan・delivery_node を順に書いてから、残りの区間を fleet に足す。
書き込みは別々で、間で process が落ちれば、次の走査が残っている row だけから続きを決める。

一つの lane の走査は lane ごとの mutex の中で動くので、走っている走査は高々一つ。
-/

namespace Shingo.Dispatch

open Core

/-! ## plan の形 -/

def firstActionable : Nat → List ResolvedStep → Option (ResolvedStep × Nat × Bool)
  | _, [] => none
  | i, s :: rest =>
    match s.action with
    | .pickup => some (s, i, true)
    | .dropoff => some (s, i, false)
    | .wait => firstActionable (i + 1) rest

def laneEntryAfterWait (steps : List ResolvedStep) (waitIndex : Nat) :
    Option (ResolvedStep × Nat × Bool) :=
  (findStart waitIndex 0 0 steps).bind fun start => firstActionable start (steps.drop start)

def waitGatesAnAppend (steps : List ResolvedStep) (waitIndex : Nat) : Bool :=
  ((waitAt steps waitIndex).any fun w => w.waitKind == .lane) &&
    (laneEntryAfterWait steps waitIndex).isNone

def awaitsReleaseTimeDestination (o : Order) : Bool :=
  o.parentOrderID.isSome && o.deliveryNode == ""

variable (w : Plant)

def dwellSlotFor (lane : NodeRow) : Option NodeRow :=
  (w.listLaneSlots lane.id).find? fun s => s.enabled && !s.isSynthetic

inductive DwellPlanError where
  | notLaneSlot (source : String)
  | noDwellSlot (lane : String)

def digDwellPlan (order : Order) (source : NodeRow) :
    Except DwellPlanError (Option (List ResolvedStep × NodeRow)) :=
  if awaitsReleaseTimeDestination order = false then .ok none
  else
    match w.laneForNode source with
    | none => .error (.notLaneSlot source.name)
    | some lane =>
      match dwellSlotFor w lane with
      | none => .error (.noDwellSlot lane.name)
      | some slot =>
        .ok (some ([{ action := .pickup, node := source.name },
          { action := .wait, node := slot.name, waitKind := .lane, waitLane := lane.id }], lane))

/-! ## 走査の候補 -/

inductive GateCandidate where
  | dwell
  | entry (entryIndex : Nat) (retrieve : Bool)

def standsIn (lane : NodeRow) (name : String) : Bool :=
  ((w.getNodeByDotName name).bind w.laneForNode).any (·.id == lane.id)

def gateStagedForLane (lane : NodeRow) (o : Order) : Option GateCandidate :=
  if o.status.isTerminal || !isGateStaged o || o.status == .faulted then none
  else
    match waitAt o.steps o.waitIndex with
    | none => none
    | some wt =>
      if wt.waitLane ≠ lane.id then none
      else
        match laneEntryAfterWait o.steps o.waitIndex with
        | none =>
          if waitGatesAnAppend o.steps o.waitIndex && standsIn w lane wt.node then some .dwell
          else none
        | some (entry, entryIndex, retrieve) =>
          -- 入る一歩がこの lane に無ければ、plan の誤りとして放っておく
          if standsIn w lane entry.node then some (.entry entryIndex retrieve) else none

/-! ## 行き先を選ぶ -/

/-- 断る理由。`admission` は `admit` の返す `QueueCause`。 -/
inductive DwellCause where
  | demandHoldsParking
  | digHoldsParking
  | laneOccupied
  | laneHeldTraffic
  | laneHeldUnreadable
  | noShuffleSlot
  | admission (cause : String)

structure DwellRefusal where
  cause : DwellCause
  lane : String

inductive Admission where
  | admitted
  | refused (r : DwellRefusal)
  | error

inductive ShuffleAnswer where
  | slot (nodeID : Nat) (admission : Admission)
  | parkingHeld (excavation : Bool) (lane : String)
  | laneOccupied (lane : String)
  | mouthHeld (lane : String)
  | mouthUnreadable
  | noShuffleSlot
  | failed

inductive DwellChoice where
  | chosen (dest : NodeRow)
  | bound (dest : NodeRow)
  | refused (r : DwellRefusal)
  | error

def walkCandidates (w : Plant) (lane : NodeRow) (refused : Option DwellRefusal) :
    List ShuffleAnswer → DwellChoice
  | [] => .error
  | .slot nodeID admission :: rest =>
    match w.getNode nodeID, admission with
    | none, _ => .error
    | some dest, .admitted => .chosen dest
    | some _, .refused r => walkCandidates w lane (some r) rest
    | some _, .error => .error
  | .parkingHeld excavation at_ :: _ =>
    .refused ⟨if excavation then .digHoldsParking else .demandHoldsParking, at_⟩
  | .laneOccupied at_ :: _ => .refused ⟨.laneOccupied, at_⟩
  | .mouthHeld at_ :: _ => .refused ⟨.laneHeldTraffic, at_⟩
  | .mouthUnreadable :: _ => .refused ⟨.laneHeldUnreadable, lane.name⟩
  | .noShuffleSlot :: _ => .refused (refused.getD ⟨.noShuffleSlot, lane.name⟩)
  | .failed :: _ => .error

def dwellDestination (leg : Order) (lane : NodeRow) (answers : List ShuffleAnswer) : DwellChoice :=
  if leg.deliveryNode ≠ "" then
    match w.getNodeByDotName leg.deliveryNode with
    | some dest => .bound dest
    | none => .error
  else if lane.parentID = none then .error
  else walkCandidates w lane none answers

/-! ## 行き先を書く -/

def orderHoldsSlotReservation (orderID nodeID : Nat) : Bool :=
  (w.listReservationsByOrder orderID).any fun r => r.target == .slot nodeID

inductive ClaimStoreSlotError where
  | occupied (node : String) (count : Nat)
  | conflict (node : String) (orderID : Nat)
  deriving DecidableEq

def claimStoreSlot (orderID : Nat) (node : NodeRow) : Except ClaimStoreSlotError Plant :=
  if 0 < w.countBinsByNode node.id then .error (.occupied node.name (w.countBinsByNode node.id))
  else if orderHoldsSlotReservation w orderID node.id then .ok w
  else
    match w.reserveSlot node.id orderID with
    | none => .error (.conflict node.name orderID)
    | some w' => .ok w'

theorem claimStoreSlot_rows {plant plant' : Plant} {id : Nat} {node : NodeRow}
    (h : claimStoreSlot plant id node = .ok plant') :
    plant'.reservations = plant.reservations ∧ orderHoldsSlotReservation plant id node.id = true
      ∨ plant'.reservations = plant.reservations ++ [⟨id, .slot node.id, .pending⟩] := by
  unfold claimStoreSlot at h
  split at h
  · cases h
  split at h
  · rename_i hheld
    cases h
    exact Or.inl ⟨rfl, hheld⟩
  · unfold Plant.reserveSlot at h
    split at h
    · cases h
    rename_i hr
    cases h
    split at hr
    · cases hr
    · cases hr
      exact Or.inr rfl

def insideLane (dest lane : NodeRow) : Bool := dest.id == lane.id || dest.parentID == some lane.id

def dwellDropoff (dest : NodeRow) : ResolvedStep := { action := .dropoff, node := dest.name }

/-! ## 走査 -/

inductive DwellPC where
  | idle
  | choosing (leg : Order)
  | chosen (leg : Order) (dest : NodeRow)
  | claimed (leg : Order) (dest : NodeRow)
  | planned (leg : Order) (dest : NodeRow)
  | bound (leg : Order)
  | ready (leg : Order) (g : Segment)
  | landed (leg : Order)
  | entry (leg : Order) (entryIndex : Nat) (retrieve : Bool)

/-- fleet が受け取った区間と、そのときの delivery_node と order の予約。 -/
structure DwellTail where
  segment : List ResolvedStep
  deliveryNode : String
  held : List Reservation
  deriving DecidableEq

structure DwellWorld where
  plant : Plant
  row : Order
  pc : DwellPC := .idle
  tails : List DwellTail := []

inductive DwellAction where
  | pass
  | choose (answers : List ShuffleAnswer)
  | claim (ok : Bool)
  | writePlan (ok : Bool)
  | writeDelivery (ok : Bool)
  | prepare (ok : Bool)
  | append (out : AppendOutcome)
  | writeWaitIndex (ok : Bool)
  | rebind (node : String)
  | crash
  | elsewhere (plant : Plant)
  | setStatus (s : OrderStatus)

namespace DwellWorld

variable (w : DwellWorld)

def stop : DwellWorld := { w with pc := .idle }

def accept (g : Segment) (pc : DwellPC) : DwellWorld :=
  let held := w.plant.listReservationsByOrder w.row.id
  { w with pc, tails := w.tails ++ [⟨g.segment, w.row.deliveryNode, held⟩] }

def startPass (lane : NodeRow) : DwellWorld :=
  match gateStagedForLane w.plant lane w.row with
  | none => w
  | some .dwell => if isGateStaged w.row then { w with pc := .choosing w.row } else w
  | some (.entry entryIndex retrieve) => { w with pc := .entry w.row entryIndex retrieve }

def claimSlot (lane : NodeRow) (leg : Order) (dest : NodeRow) : DwellWorld :=
  if insideLane dest lane then w.stop
  else
    match claimStoreSlot w.plant leg.id dest with
    | .error _ => w.stop
    | .ok plant => { w with plant, pc := .claimed leg dest }

end DwellWorld

def dwellStep (lane : NodeRow) (w : DwellWorld) (a : DwellAction) : DwellWorld :=
  match a, w.pc with
  | .pass, .idle => w.startPass lane
  | .choose answers, .choosing leg =>
    match dwellDestination w.plant leg lane answers with
    | .chosen dest => { w with pc := .chosen leg dest }
    | .bound _ => { w with pc := .bound leg }
    | .refused _ => w.stop
    | .error => w.stop
  | .claim ok, .chosen leg dest => if ok then w.claimSlot lane leg dest else w.stop
  | .writePlan ok, .claimed leg dest =>
    if ok then
      let steps := leg.steps ++ [dwellDropoff dest]
      { w with row := { w.row with steps }, pc := .planned { leg with steps } dest }
    else w.stop
  | .writeDelivery ok, .planned leg dest =>
    if ok then
      { w with
        row := { w.row with deliveryNode := dest.name }
        pc := .bound { leg with deliveryNode := dest.name } }
    else w.stop
  | .prepare ok, .bound leg =>
    match ok, appendGateTail w.row leg with
    | true, some (.ready leg g) => { w with pc := .ready leg g }
    | _, _ => w.stop
  | .append out, .ready leg g =>
    match out with
    | .ok => w.accept g (.landed leg)
    | .lostReply => w.accept g .idle
    | .failed => w.stop
  | .writeWaitIndex ok, .landed leg =>
    if ok then { w with row := { w.row with waitIndex := leg.waitIndex + 1 }, pc := .idle }
    else w.stop
  | .rebind node, .entry leg entryIndex retrieve =>
    let steps := applyPlanNode leg.steps node entryIndex (if retrieve then .pickup else .dropoff)
    { w with
      row := rebound w.row steps retrieve node
      pc := .bound (rebound leg steps retrieve node) }
  | .crash, _ => w.stop
  | .elsewhere plant, _ =>
    if plant.nodes = w.plant.nodes ∧ plant.listReservationsByOrder w.row.id =
        w.plant.listReservationsByOrder w.row.id then { w with plant }
    else w
  | .setStatus s, _ => { w with row := { w.row with status := s } }
  | _, _ => w

end Shingo.Dispatch
