import Shingo.Core.Plant
import Shingo.Dispatch.Order
import Shingo.Infra.FirstMatch

/-!
# 予約の突き合わせ（`reserveComplexPlan`）

`shingo-core/dispatch/allocator.go` の `reserveComplexPlan` と、それが呼ぶ関数。

行程の pickup ごとに、order が既に持っている予約を当て（`matchHeldToNeed`）、
当たらなければ node の bin を新しく予約する（`findAvailableForNeed`）。
最後に、どの pickup にも当たらなかった手持ちの予約を外す。置き先の slot も同じように
突き合わせる（`reserveComplexSlots`）。
-/

namespace Shingo.Dispatch

open Core Infra

/-! ## 行程の pickup -/

structure PickupNeed where
  stepIndex : Nat
  step : ResolvedStep
  potentialRelay : Bool

def complexPickupsFrom : Nat → List String → List ResolvedStep → List PickupNeed
  | _, _, [] => []
  | i, dropped, s :: rest =>
    match s.action with
    | .dropoff =>
      complexPickupsFrom (i + 1) (if s.node ≠ "" then s.node :: dropped else dropped) rest
    | .pickup =>
      { stepIndex := i, step := s, potentialRelay := s.node != "" && dropped.contains s.node }
        :: complexPickupsFrom (i + 1) dropped rest
    | .wait => complexPickupsFrom (i + 1) dropped rest

variable (steps : List ResolvedStep)

def complexPickups : List PickupNeed := complexPickupsFrom 0 [] steps

variable (step : ResolvedStep)

def isRemovalPickup (processNode : String) : Bool :=
  processNode != "" && step.action == .pickup && step.node == processNode

def takesLineBinFrom (processNode : String) : Bool → List ResolvedStep → Bool
  | tookBin, [] => tookBin
  | tookBin, s :: rest =>
    if s.node ≠ processNode then takesLineBinFrom processNode tookBin rest
    else match s.action with
      | .pickup => takesLineBinFrom processNode true rest
      | .dropoff => false
      | .wait => takesLineBinFrom processNode tookBin rest

def legTakesLineBin (processNode : String) : Bool :=
  if processNode = "" then false else takesLineBinFrom processNode false steps

def placesLineBinFrom (processNode : String) : Bool → List ResolvedStep → Bool
  | placedBin, [] => placedBin
  | placedBin, s :: rest =>
    if s.node ≠ processNode then placesLineBinFrom processNode placedBin rest
    else match s.action with
      | .dropoff => placesLineBinFrom processNode true rest
      | .pickup => false
      | .wait => placesLineBinFrom processNode placedBin rest

def legPlacesLineBin (processNode : String) : Bool :=
  if processNode = "" then false else placesLineBinFrom processNode false steps

/-! ## 手持ちの予約 -/

/-- `slot` は kind が `KindSlot` であること。`nodeName` が空なら何にも当たらない。 -/
structure HeldReservation where
  slot : Bool := false
  binID : Nat := 0
  nodeID : Nat := 0
  nodeName : String := ""
  empty : Bool := false
  confirmed : Bool
  used : Bool := false

variable (w : Plant)

def nodeNameOf (nodeID : Nat) : String :=
  match w.getNode nodeID with
  | some node => node.name
  | none => ""

/-- `resolveHeldReservations` の default の枝。bin の今いる node と、空かどうか。 -/
def resolveHeldBin (binID : Nat) (confirmed : Bool) : HeldReservation :=
  match w.getBin binID with
  | none => { binID, confirmed }
  | some b =>
    match b.nodeID with
    | none => { binID, empty := b.payloadCode == "", confirmed }
    | some nodeID =>
      { binID, nodeID, nodeName := nodeNameOf w nodeID, empty := b.payloadCode == "", confirmed }

/-- 予約の row を一つ読む。mouth と occupancy は bin の枝に落ち、`BinID` は 0。 -/
def resolveHeld (r : Reservation) : HeldReservation :=
  let confirmed := r.state == .confirmed
  match r.target with
  | .slot nodeID => { slot := true, nodeID, nodeName := nodeNameOf w nodeID, confirmed }
  | .bin binID => resolveHeldBin w binID confirmed
  | .mouth _ => resolveHeldBin w 0 confirmed
  | .occupancy _ => resolveHeldBin w 0 confirmed

def resolveHeldReservations (rows : List Reservation) : List HeldReservation :=
  rows.map (resolveHeld w)

def heldMatches (hb : HeldReservation) : Bool :=
  !hb.used && !hb.slot && hb.nodeName != "" && (hb.nodeName == step.node && hb.empty == step.empty)

def matchHeldToNeed (held : List HeldReservation) (step : ResolvedStep) : Option HeldReservation :=
  held.find? (heldMatches step)

def useHeld (held : List HeldReservation) : List HeldReservation :=
  modifyFirst (heldMatches step) (fun hb => { hb with used := true }) held

/-! ## 新しい bin -/

def emptyBinsOnly (candidates : List BinRow) : List BinRow :=
  candidates.filter (·.payloadCode == "")

def needCandidates (payloadCode : String) (removal : Bool)
    (bins : List BinRow) : List BinRow × String :=
  if removal then (bins, "")
  else if step.empty then (emptyBinsOnly bins, "")
  else (bins, payloadCode)

def findAvailableForNeed (step : ResolvedStep) (payloadCode : String)
    (removal : Bool) : Option BinRow × Bool :=
  match w.getNodeByDotName step.node with
  | none => (none, false)
  | some node =>
    let bins := w.listBinsByNode node.id
    let (candidates, claimPayload) := needCandidates step payloadCode removal bins
    (candidates.find? fun b => (w.binUnavailableReason b claimPayload).isNone, !bins.isEmpty)

/-! ## 突き合わせ -/

structure ReservedPickup where
  stepIndex : Nat
  nodeName : String
  binID : Nat
  confirmed : Bool
  deriving DecidableEq

inductive ReserveOutcome where
  | reserveComplete
  | reserveHolding
  | reserveMoot
  deriving DecidableEq

structure ReserveLoop where
  plant : Plant
  held : List HeldReservation
  assigned : List ReservedPickup := []
  missing : Nat := 0
  anyMissWithBins : Bool := false
  lineBinGone : Bool := false

def ReserveLoop.assign (st : ReserveLoop) (pk : PickupNeed) (binID : Nat) (confirmed : Bool) :
    ReserveLoop :=
  { st with
    assigned := st.assigned ++
      [{ stepIndex := pk.stepIndex, nodeName := pk.step.node, binID, confirmed }] }

def ReserveLoop.miss (st : ReserveLoop) (withBins lineGone : Bool) : ReserveLoop :=
  { st with
    missing := st.missing + 1
    anyMissWithBins := st.anyMissWithBins || withBins
    lineBinGone := st.lineBinGone || lineGone }

def reserveNeed (order : Order) (st : ReserveLoop) (pk : PickupNeed) : ReserveLoop :=
  match matchHeldToNeed st.held pk.step with
  | some hb => { st with held := useHeld pk.step st.held }.assign pk hb.binID hb.confirmed
  | none =>
    let removal := isRemovalPickup pk.step order.processNode
    match findAvailableForNeed st.plant pk.step order.payloadCode removal with
    | (none, nodeHadBins) =>
      -- 先に降ろした node が今は空なら、これから来る bin の取り直しなので数えない
      if pk.potentialRelay && !nodeHadBins then st
      else st.miss nodeHadBins (!nodeHadBins && removal)
    | (some bin, _) =>
      match st.plant.reserveForDispatch bin.id order.id with
      | none => st.miss true false
      | some plant => { st with plant }.assign pk bin.id false

def reserveNeeds (order : Order) (st : ReserveLoop) (needs : List PickupNeed) : ReserveLoop :=
  needs.foldl (reserveNeed order) st

variable (orderID : Nat)

def releaseStray (w : Plant) (hb : HeldReservation) : Plant :=
  if hb.used || hb.slot then w
  else if hb.confirmed then w.releaseClaimForBin hb.binID orderID
  else w.releaseReservation orderID hb.binID

structure ReserveResult where
  plant : Plant
  assigned : List ReservedPickup
  outcome : ReserveOutcome

def reserveStart (order : Order) : ReserveLoop :=
  { plant := w, held := resolveHeldReservations w (w.listReservationsByOrder order.id) }

def reserveOutcomeOf (order : Order) (steps : List ResolvedStep) (st : ReserveLoop) :
    ReserveOutcome :=
  if st.missing = 0 then .reserveComplete
  else if st.lineBinGone && legTakesLineBin steps order.processNode then .reserveMoot
  else if st.assigned.isEmpty && !st.anyMissWithBins && !legPlacesLineBin steps order.processNode
  then .reserveMoot
  else .reserveHolding

def reserveComplexPlan (order : Order) (steps : List ResolvedStep) : ReserveResult :=
  let st := reserveNeeds order (reserveStart w order) (complexPickups steps)
  { plant := st.held.foldl (releaseStray order.id) st.plant
    assigned := st.assigned
    outcome := reserveOutcomeOf order steps st }

/-! ## ほかの order と競う呼び出し -/

/-- ほかの order の動き。`orderID` の row は足しも消しもしない。 -/
structure Rivals (orderID : Nat) where
  act : Plant → Plant
  own : ∀ w r, r.orderID = orderID → (r ∈ (act w).reservations ↔ r ∈ w.reservations)

/-- 呼び出しの間に外で起きること。`before` は pickup の前、`between` は探してから取るまで。 -/
structure Meanwhile (orderID : Nat) where
  before : Nat → Rivals orderID
  between : Nat → Rivals orderID
  release : Nat → Rivals orderID
  /-- 外す `DELETE` の成否。失敗は log に残るだけで、error にはならない。 -/
  releaseOk : Nat → Bool

def reserveNeedAmid (order : Order) (m : Meanwhile order.id) (st : ReserveLoop) (pk : PickupNeed) :
    ReserveLoop :=
  let st := { st with plant := (m.before pk.stepIndex).act st.plant }
  match matchHeldToNeed st.held pk.step with
  | some hb => { st with held := useHeld pk.step st.held }.assign pk hb.binID hb.confirmed
  | none =>
    let removal := isRemovalPickup pk.step order.processNode
    match findAvailableForNeed st.plant pk.step order.payloadCode removal with
    | (none, nodeHadBins) =>
      if pk.potentialRelay && !nodeHadBins then st
      else st.miss nodeHadBins (!nodeHadBins && removal)
    | (some bin, _) =>
      let plant := (m.between pk.stepIndex).act st.plant
      match plant.reserveForDispatch bin.id order.id with
      | none => { st with plant }.miss true false
      | some plant => { st with plant }.assign pk bin.id false

def releaseStrayAmid (m : Meanwhile orderID) (w : Plant) (hb : HeldReservation) : Plant :=
  let w := (m.release hb.binID).act w
  if m.releaseOk hb.binID then releaseStray orderID w hb else w

def reserveComplexPlanAmid (order : Order) (m : Meanwhile order.id)
    (steps : List ResolvedStep) : ReserveResult :=
  let st := (complexPickups steps).foldl (reserveNeedAmid order m) (reserveStart w order)
  { plant := st.held.foldl (releaseStrayAmid order.id m) st.plant
    assigned := st.assigned
    outcome := reserveOutcomeOf order steps st }

def Meanwhile.quiet : Meanwhile orderID :=
  let still : Rivals orderID := { act := id, own := fun _ _ _ => Iff.rfl }
  { before := fun _ => still, between := fun _ => still, release := fun _ => still
    releaseOk := fun _ => true }

theorem reserveComplexPlanAmid_quiet (order : Order) (steps : List ResolvedStep) :
    reserveComplexPlanAmid w order (.quiet order.id) steps = reserveComplexPlan w order steps :=
  rfl

/-! ## 置き先の slot（`reserveComplexSlots`） -/

structure SlotNeed where
  stepIndex : Nat
  nodeName : String
  group : String

variable (isGroup : NodeRow → Bool)

def isConcreteStorageDropoff (w : Plant) (deliveryNode : String) : Bool :=
  deliveryNode != "" &&
    (w.getNodeByDotName deliveryNode).any fun node =>
      !node.isSynthetic && (node.parentID.bind w.getNode).any fun p => p.isLane || isGroup p

def slotNeeds (w : Plant) (steps : List ResolvedStep) : List SlotNeed :=
  steps.zipIdx.filterMap fun (s, i) =>
    if s.action ≠ .dropoff ∨ s.node = "" then none
    else if !s.exclusiveSlot && !isConcreteStorageDropoff isGroup w s.node then none
    else some { stepIndex := i, nodeName := s.node, group := s.group }

def slotMatches (nodeName : String) (hs : HeldReservation) : Bool :=
  !hs.used && hs.slot && hs.nodeName != "" && hs.nodeName == nodeName

structure SlotLoop where
  plant : Plant
  held : List HeldReservation
  steps : List ResolvedStep
  missing : Nat := 0

def SlotLoop.conflict (st : SlotLoop) (sn : SlotNeed) : SlotLoop :=
  { st with
    missing := st.missing + 1
    steps := if sn.group ≠ "" then
        st.steps.modify sn.stepIndex fun s => { s with node := sn.group }
      else st.steps }

/-- ループ一回。`held` は呼び出しの始めに読んだもので、この中で取った row は入らない。 -/
def reserveSlotNeed (st : SlotLoop) (sn : SlotNeed) : SlotLoop :=
  if st.held.any (slotMatches sn.nodeName) then
    { st with
      held := modifyFirst (slotMatches sn.nodeName) (fun hs => { hs with used := true }) st.held }
  else
    match st.plant.getNodeByDotName sn.nodeName with
    | none => { st with missing := st.missing + 1 }
    | some node =>
      match st.plant.reserveSlot node.id orderID with
      | none => st.conflict sn
      | some plant => { st with plant }

def releaseSlotReservation (nodeID orderID : Nat) : Plant :=
  { w with
    reservations := w.reservations.filter fun r =>
      !(r.orderID == orderID && r.target == .slot nodeID)
    binReserved := Plant.reservedBins_filter _ w.binReserved }

def releaseStraySlot (w : Plant) (hb : HeldReservation) : Plant :=
  if hb.used || !hb.slot then w else releaseSlotReservation w hb.nodeID orderID

structure SlotResult where
  plant : Plant
  steps : List ResolvedStep
  outcome : ReserveOutcome

def slotStart (orderID : Nat) (steps : List ResolvedStep) : SlotLoop :=
  { plant := w, held := resolveHeldReservations w (w.listReservationsByOrder orderID), steps }

def reserveComplexSlots (w : Plant) (orderID : Nat) (steps : List ResolvedStep) : SlotResult :=
  let st := (slotNeeds isGroup w steps).foldl (reserveSlotNeed orderID) (slotStart w orderID steps)
  { plant := st.held.foldl (releaseStraySlot orderID) st.plant
    steps := st.steps
    outcome := if st.missing = 0 then .reserveComplete else .reserveHolding }

end Shingo.Dispatch
