import Shingo.Core.BlockCompleted
import Shingo.Dispatch.SwapHold

/-!
# 置き去りの bin の居場所

`shingo-core/engine/stranded_transit.go` と、それが使う `service/robot_station_resolver.go`、
`service/bin_service.go` の `RecoverTransitAnomaly` と `Move`。

order が途中で終わると、robot の上の bin は `_TRANSIT` に在って、誰のものでもなくなる。
Core は robot の最後の知らせから居場所を推し量る。deck が空なら robot の立つ node に置き、
deck に載っていれば robot ごとの node（`_ROBOT:…`）に移し、どちらとも言えなければ印だけを付ける。
-/

namespace Shingo.Core

open Dispatch
open Infra (firstBy)

/-! ## robot の知らせ -/

/-- `fleet.RobotStatus` のうち、ここで読む列。`liftHeight` の単位は µm。 -/
structure RobotStatus where
  currentStation : String := ""
  lastStation : String := ""
  jackState : Int := 0
  jackIsFull : Bool := false
  isLoaded : Bool := false
  liftHeight : Int := 0

def liftLoadedThreshold : Int := 5000

def robotCarryingBin (r : RobotStatus) : Option Bool :=
  if r.jackState = 1 then some true
  else if r.jackState = 3 then some false
  else if r.jackState = 0 then
    -- jack_state の無い fleet は、deck の高さで代える
    if !r.jackIsFull && !r.isLoaded && r.liftHeight = 0 then none
    else some (decide (liftLoadedThreshold < r.liftHeight) || r.jackIsFull || r.isLoaded)
  else none

def Plant.resolveRobotStation (w : Plant) (r : RobotStatus) : Option NodeRow :=
  [r.currentStation, r.lastStation].findSome? fun name =>
    if trimSpace name = "" then none
    else (w.getNodeByName (trimSpace name)).filter fun n => !n.isSynthetic

def Plant.nodeNameOf (w : Plant) (b : BinRow) : Option String :=
  (b.nodeID.bind w.getNode).map NodeRow.name

/-! ## 置き直す -/

inductive RecoverError where
  | nodeMissing (nodeID : Nat)
  | transit
  | synthetic (name : String)
  | occupied (nodeID count : Nat)

namespace Ledger

def relocate (binID toNodeID : Nat) (b : BinRow) : BinRow :=
  if b.id = binID then { b with nodeID := some toNodeID } else b

theorem relocate_id (binID toNodeID : Nat) (b : BinRow) :
    (relocate binID toNodeID b).id = b.id := by
  unfold relocate
  split <;> rfl

def recoverTransitAnomaly (w : Ledger) (binID toNodeID : Nat) : Except RecoverError Ledger :=
  match w.plant.getNode toNodeID with
  | none => .error (.nodeMissing toNodeID)
  | some dest =>
    if dest.name = transitNodeName then .error .transit
    else if dest.isSynthetic then .error (.synthetic dest.name)
    else if 0 < w.plant.countBinsByNode toNodeID then
      .error (.occupied toNodeID (w.plant.countBinsByNode toNodeID))
    else .ok (w.updateBins (relocate binID toNodeID) (relocate_id binID toNodeID))

def noOrphanedOrder (w : Ledger) (binID : Nat) : Bool :=
  w.orders.all fun o => !(o.binID == some binID) || o.status.isTerminal

def moved (clearStaging : Bool) (binID toNodeID : Nat) (b : BinRow) : BinRow :=
  let b' := relocate binID toNodeID b
  if b.id = binID ∧ clearStaging = true ∧ b.status = .staged then { b' with status := .available }
  else b'

theorem moved_id (clearStaging : Bool) (binID toNodeID : Nat) (b : BinRow) :
    (moved clearStaging binID toNodeID b).id = b.id := by
  unfold moved
  split <;> exact relocate_id binID toNodeID b

def moveBin (isStorageSlot : Nat → Bool) (w : Ledger) (b : BinRow) (toNodeID : Nat) :
    Option Ledger :=
  if toNodeID = 0 ∨ b.nodeID = some toNodeID then none
  else if !w.noOrphanedOrder b.id then none
  else match w.plant.getNode toNodeID with
    | none => none
    | some dest =>
      if !dest.isSynthetic && decide (0 < w.plant.countBinsByNode toNodeID) then none
      else some (w.updateBins (moved (isStorageSlot toNodeID) b.id toNodeID)
        (moved_id (isStorageSlot toNodeID) b.id toNodeID))

def createNode (w : Ledger) (name : String) (isSynthetic : Bool) : Ledger × NodeRow :=
  let node : NodeRow :=
    { id := (w.plant.nodes.map NodeRow.id).max?.getD 0 + 1, name := trimSpace name, isSynthetic }
  ({ w with
      plant := { w.plant with
        nodes := w.plant.nodes ++ [node]
        nodeIDs := by
          rw [List.map_append]
          refine List.nodup_append.mpr ⟨w.plant.nodeIDs, List.nodup_singleton node.id, ?_⟩
          rintro a ha b hb rfl
          have hle : a ≤ (w.plant.nodes.map NodeRow.id).max?.getD 0 :=
            List.le_max?_getD_of_mem ha
          obtain rfl : a = node.id := by simpa using hb
          exact absurd hle (Nat.not_succ_le_self _) } }, node)

end Ledger

/-! ## engine の持つもの -/

/-- order の row。`robotID` は `orders.robot_id`、`completed` は `completed_at` の在ること。 -/
structure FleetOrder extends ComplexOrder, CargoOrder where
  robotID : String := ""
  completed : Bool := false
  deriving DecidableEq

/-- Core から Edge への envelope。時刻と、bin の数と epoch は省く。 -/
inductive EdgeMessage where
  | waybill (orderUUID waybillID robotID : String)
  | update (orderUUID : String) (status : OrderStatus) (detail : String)
  | delivered (orderUUID : String) (binID : Option Nat) (deliveryNode binDestNode : String)
  | error (orderUUID errorCode detail : String)
  | cancelled (orderUUID reason : String)
  deriving DecidableEq

inductive StrandedReason where
  | noTelemetry
  | jackNotAtRest
  | unknownStation
  | couldNotPlace (node : String) (err : RecoverError)
  | namesNoRobot
  | stillOnDeck
  | noClaimingOrder
  | emptiedUnknown
  | emptiedNotPlaced (node : String) (err : RecoverError)

/-- `anomaly_note`。robot の知らせの数値は、そのまま持つ。 -/
structure StrandedNote where
  binID : Nat
  why : StrandedReason
  robotID : String
  robot : Option RobotStatus

/--
engine の読み書きするもの。

order の row のうち、帳簿の transaction が書く列は `ledger.orders` に、残りの列は `columns` に
在る。`robots` は robot の最後の知らせ（`robotsCache`）。
-/
structure Engine where
  ledger : Ledger
  columns : Nat → FleetOrder
  isStorageSlot : Nat → Bool := fun _ => false
  robots : String → Option RobotStatus := fun _ => none
  outbox : List (String × EdgeMessage) := []
  notes : List StrandedNote := []

namespace Engine

variable (w : Engine)

def rowOf (o : OrderRow) : FleetOrder :=
  { w.columns o.id with
    id := o.id
    status := o.status
    parentOrderID := o.parentOrderID
    binID := o.binID }

def getOrder (orderID : Nat) : Option FleetOrder :=
  (w.ledger.orders.find? (·.id == orderID)).map w.rowOf

def strandedAnomaly (binID : Nat) (robotID : String) (robot : Option RobotStatus)
    (why : StrandedReason) : Engine :=
  { w with notes := w.notes ++ [⟨binID, why, robotID, robot⟩] }

/-! ## 推量 -/

def carrierNodeName (robotID : String) : String := "_ROBOT:" ++ robotID

def carrierNode (robotID : String) : Engine × NodeRow :=
  match w.ledger.plant.getNodeByName (carrierNodeName robotID) with
  | some node => (w, node)
  | none =>
    let (ledger, node) := w.ledger.createNode (carrierNodeName robotID) true
    ({ w with ledger }, node)

def parkOnCarrier (binID : Nat) (robotID : String) (robot : RobotStatus) : Engine :=
  if robotID = "" then w.strandedAnomaly binID robotID (some robot) .namesNoRobot
  else
    let (w, node) := w.carrierNode robotID
    match w.ledger.plant.getBin binID with
    | none => w
    | some bin =>
      match w.ledger.moveBin w.isStorageSlot bin node.id with
      | some ledger => { w with ledger }
      | none => w.strandedAnomaly binID robotID (some robot) .stillOnDeck

def placeAtStation (binID : Nat) (robotID : String) (robot : RobotStatus)
    (unknown : StrandedReason) (refused : String → RecoverError → StrandedReason) : Engine :=
  match w.ledger.plant.resolveRobotStation robot with
  | none => w.strandedAnomaly binID robotID (some robot) unknown
  | some node =>
    match w.ledger.recoverTransitAnomaly binID node.id with
    | .error err => w.strandedAnomaly binID robotID (some robot) (refused node.name err)
    | .ok ledger => { w with ledger }

def placeStrandedBin (binID : Nat) (robotID : String) (robot : Option RobotStatus) : Engine :=
  match robot with
  | none => w.strandedAnomaly binID robotID none .noTelemetry
  | some st =>
    match robotCarryingBin st with
    | none => w.strandedAnomaly binID robotID (some st) .jackNotAtRest
    | some true => w.parkOnCarrier binID robotID st
    | some false => w.placeAtStation binID robotID st .unknownStation .couldNotPlace

def isStranded (b : BinRow) : Bool :=
  w.ledger.plant.nodeNameOf b == some Ledger.transitNodeName && b.claimedBy == none

def inferStrandedTransitBin (orderID : Nat) : Engine :=
  match w.getOrder orderID with
  | none => w
  | some order =>
    match order.binID.bind w.ledger.plant.getBin with
    | none => w
    | some bin =>
      if w.isStranded bin then w.placeStrandedBin bin.id order.robotID (w.robots order.robotID)
      else w

/-! ## 見回り -/

def carriedRobot (name : String) : Option String :=
  let cs := "_ROBOT:".toList
  if cs.isPrefixOf name.toList && decide (cs.length < name.toList.length) then
    some (String.ofList (name.toList.drop cs.length))
  else none

def listBinsOnCarrierNodes : List (Nat × String) :=
  (w.ledger.plant.bins.insertionSort fun a b => a.id ≤ b.id).filterMap fun b =>
    ((w.ledger.plant.nodeNameOf b).bind carriedRobot).map fun robotID => (b.id, robotID)

def sweepCarriedBin (carried : Nat × String) : Engine :=
  match w.robots carried.2 with
  | none => w
  | some st =>
    if robotCarryingBin st = some false then
      w.placeAtStation carried.1 carried.2 st .emptiedUnknown .emptiedNotPlaced
    else w

def sweepCarriedBins : Engine := w.listBinsOnCarrierNodes.foldl sweepCarriedBin w

def lastClaimingRobot (binID : Nat) : Option String :=
  (firstBy (fun a b => b.id ≤ a.id) (w.ledger.orders.filter (·.binID == some binID))).map
    fun o => (w.columns o.id).robotID

def listStranded (rank : Nat → Nat) : List Nat :=
  ((w.ledger.plant.bins.filter fun b => w.isStranded b && b.status != .retired).insertionSort
    fun a b => rank a.id < rank b.id ∨ (rank a.id = rank b.id ∧ a.id ≤ b.id)).map BinRow.id

def sweepStrandedBin (binID : Nat) : Engine :=
  match w.lastClaimingRobot binID with
  | none => w.strandedAnomaly binID "" none .noClaimingOrder
  | some robotID => w.placeStrandedBin binID robotID (w.robots robotID)

def sweepStrandedBins (rank : Nat → Nat) : Engine :=
  let w := w.sweepCarriedBins
  (w.listStranded rank).foldl sweepStrandedBin w

end Engine

/-! ## 実際の robot と bin -/

/-- 実際の robot。`last` は前に居た station、`puts` はここで下ろした bin。 -/
structure DeckRobot where
  spot : String := ""
  last : String := ""
  deck : Option Nat := none
  puts : List Nat := []

/--
実際の床。

bin の居る場所は `place` で、deck の上に在る間は無い。`carrier` は最後に持ち上げた robot、
`setDown` は、その後で誰にも持ち上げられていないときの、下ろした robot と場所。
-/
structure Floor where
  isStation : String → Bool
  place : Nat → Option String
  robots : String → DeckRobot := fun _ => {}
  carrier : Nat → Option String := fun _ => none
  setDown : Nat → Option (String × String) := fun _ => none

namespace Floor

def reading (f : Floor) (robotID : String) : String :=
  if f.isStation (f.robots robotID).spot then (f.robots robotID).spot else ""

def drive (f : Floor) (robotID spot : String) : Floor :=
  let r := f.robots robotID
  { f with
    robots := Function.update f.robots robotID
      { spot
        last := if f.isStation r.spot then r.spot else r.last
        deck := r.deck } }

def load (f : Floor) (robotID : String) (binID : Nat) : Floor :=
  let r := f.robots robotID
  if r.deck = none ∧ f.place binID = some r.spot then
    { f with
      robots := Function.update f.robots robotID { r with deck := some binID }
      place := Function.update f.place binID none
      carrier := Function.update f.carrier binID (some robotID)
      setDown := Function.update f.setDown binID none }
  else f

def unload (f : Floor) (robotID : String) : Floor :=
  let r := f.robots robotID
  match r.deck with
  | none => f
  | some binID =>
    { f with
      robots := Function.update f.robots robotID
        { r with deck := none, puts := binID :: r.puts }
      place := Function.update f.place binID (some r.spot)
      setDown := Function.update f.setDown binID (some (robotID, r.spot)) }

def Truthful (f : Floor) (robotID : String) (st : RobotStatus) : Prop :=
  (∀ carrying ∈ robotCarryingBin st, carrying = (f.robots robotID).deck.isSome) ∧
    st.currentStation = f.reading robotID ∧
    (st.lastStation = (f.robots robotID).last ∨ st.lastStation = f.reading robotID)
  deriving Decidable

end Floor

structure Site where
  floor : Floor
  engine : Engine

/-- 起きること。`ended` は order が途中で終わること、`pickedUp` は pickup の block の完了。 -/
inductive SiteAction where
  | drive (robotID spot : String)
  | load (robotID : String) (binID : Nat)
  | unload (robotID : String)
  | sample (robotID : String) (status : RobotStatus)
  | ledger (a : LedgerAction)
  | create (o : OrderRow)
  | assign (orderID : Nat) (robotID : String)
  | pickedUp (binID : Nat)
  | ended (orderID : Nat) (status : OrderStatus)
  | sweepCarried
  | sweepStranded (rank : Nat → Nat)

def Engine.endOrder (w : Engine) (orderID : Nat) (status : OrderStatus) : Engine :=
  { w with ledger := (w.ledger.terminalizeOrder orderID status).1 }

def siteStep (s : Site) : SiteAction → Site
  | .drive robotID spot => { s with floor := s.floor.drive robotID spot }
  | .load robotID binID => { s with floor := s.floor.load robotID binID }
  | .unload robotID => { s with floor := s.floor.unload robotID }
  | .sample robotID st =>
    { s with engine := { s.engine with
        robots := Function.update s.engine.robots robotID (some st) } }
  | .ledger a => { s with engine := { s.engine with ledger := ledgerStep s.engine.ledger a } }
  | .create o =>
    { s with engine := { s.engine with
        ledger := (s.engine.ledger.createOrder o).toOption.getD s.engine.ledger } }
  | .assign orderID robotID =>
    { s with engine := { s.engine with
        columns := Function.update s.engine.columns orderID
          { s.engine.columns orderID with robotID } } }
  | .pickedUp binID =>
    { s with engine := { s.engine with ledger := s.engine.ledger.moveToTransit binID } }
  | .ended orderID status =>
    if s.engine.ledger.isLive orderID then
      { s with engine := (s.engine.endOrder orderID status).inferStrandedTransitBin orderID }
    else s
  | .sweepCarried => { s with engine := s.engine.sweepCarriedBins }
  | .sweepStranded rank => { s with engine := s.engine.sweepStrandedBins rank }

end Shingo.Core
