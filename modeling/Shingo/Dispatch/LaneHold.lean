import Shingo.Core.Plant
import Shingo.Dispatch.LaneEntry
import Shingo.Dispatch.Release

/-!
# lane の口を取って出る

`shingo-core/dispatch/lane_gate.go` の、order が要る口を数えて取るところと、放すところ。
`fulfillment/scanner.go`、`complex_dispatch.go`、`compound.go`、`fleet_handover.go` の
発注の流れのうち、mouth row と vendor_order_id を書く順だけを取り出す。

口を取る道は二つある。

* plain — 取り出し元の lane を dig、置き先の lane を inbound で取る（`resolveOrderLaneHolds`）
* complex — plan の一歩ごとに同じことをする（`resolvePlanLaneHolds`）。
  ただし印のある lane は、門で待たせるので取らない

compound の leg は口を取らずに出る。
-/

namespace Shingo.Dispatch

open Core List

/-! ## node と印 -/

structure LaneMap where
  plant : Plant
  laneWaitPoint : Nat → String

structure AdmissionSkips where
  reachability : Bool := false
  entryWhenGated : Bool := false

def skipsForComplexEntry : AdmissionSkips := { entryWhenGated := true }

namespace LaneMap

def laneIsGated (m : LaneMap) (laneID : Nat) : Bool := m.laneWaitPoint laneID != ""

def entryDeferredToGate (m : LaneMap) (skip : AdmissionSkips) (lane : NodeRow) : Bool :=
  if !skip.entryWhenGated || lane.parentID.isNone then false else m.laneIsGated lane.id

def laneOf (m : LaneMap) (name : String) : Option NodeRow :=
  (m.plant.getNodeByDotName name).bind m.plant.laneForNode

end LaneMap

/-! ## 要る口 -/

structure LaneHold where
  laneID : Nat
  mode : Mode

def strengthen (holds : List LaneHold) (laneID : Nat) (mode : Mode) : List LaneHold :=
  if holds.any (·.laneID == laneID) then
    holds.map fun h => if h.laneID = laneID ∧ mode = .dig then { h with mode } else h
  else holds ++ [⟨laneID, mode⟩]

namespace LaneMap

def addHold (m : LaneMap) (holds : List LaneHold) (name : String) (mode : Mode) : List LaneHold :=
  match m.laneOf name with
  | none => holds
  | some lane => if lane.parentID.isNone then holds else strengthen holds lane.id mode

def resolveOrderLaneHolds (m : LaneMap) (source dest : String) : List LaneHold :=
  m.addHold (m.addHold [] source .dig) dest .inbound

def planHold (m : LaneMap) (holds : List LaneHold) (step : ResolvedStep) : List LaneHold :=
  if step.action = .wait ∨ step.node = "" then holds
  else
    match m.laneOf step.node with
    | none => holds
    | some lane =>
      if lane.parentID.isNone then holds
      -- 印のある lane には門から入るので、ここでは取らない
      else if m.entryDeferredToGate skipsForComplexEntry lane then holds
      else strengthen holds lane.id (if step.action = .pickup then .dig else .inbound)

def resolvePlanLaneHolds (m : LaneMap) (steps : List ResolvedStep) : List LaneHold :=
  steps.foldl m.planHold []

end LaneMap

/-! ## 口を取る -/

inductive LaneAcquire where
  | admitted
  | refused
  | error (e : MouthError)
  deriving DecidableEq

def acquireModes (orderID : Nat) (asker : DigAsker) (holds : List LaneHold) :
    List Mode → MouthTable → MouthTable × LaneAcquire
  | [], t => (t, .admitted)
  | mode :: rest, t =>
    let lanes := (holds.filter (·.mode == mode)).map LaneHold.laneID
    if lanes = [] then acquireModes orderID asker holds rest t
    else
      match acquireLanesFor t orderID mode asker bySourceLock lanes with
      | .ok t' => acquireModes orderID asker holds rest t'
      | .error .reservationConflict => ((releaseLanesByOwner t orderID).1, .refused)
      | .error e => (t, .error e)

/-- mode を回る順は map の順で、決まっていない。 -/
def acquireOrderLanes (t : MouthTable) (orderID laneOwner : Nat) (holds : List LaneHold)
    (digFirst : Bool) : MouthTable × LaneAcquire :=
  acquireModes orderID (askerFor orderID laneOwner) holds
    (if digFirst then [.dig, .inbound] else [.inbound, .dig]) t

structure LaneFaults where
  acquire : Mode → Bool := fun _ => false
  release : Bool := false

def acquireModesAmid (f : LaneFaults) (orderID : Nat) (asker : DigAsker) (holds : List LaneHold) :
    List Mode → MouthTable → MouthTable × Option LaneAcquire
  | [], t => (t, some .admitted)
  | mode :: rest, t =>
    let lanes := (holds.filter (·.mode == mode)).map LaneHold.laneID
    if lanes = [] then acquireModesAmid f orderID asker holds rest t
    else if f.acquire mode then (t, none)
    else
      match acquireLanesFor t orderID mode asker bySourceLock lanes with
      | .ok t' => acquireModesAmid f orderID asker holds rest t'
      -- 後始末の error は捨てられる
      | .error .reservationConflict =>
        (if f.release then t else (releaseLanesByOwner t orderID).1, some .refused)
      | .error e => (t, some (.error e))

def LaneMap.releaseOrderLaneFor (m : LaneMap) (t : MouthTable) (owner : Nat) (name : String) :
    MouthTable :=
  match m.laneOf name with
  | none => t
  | some lane => releaseLaneHandoff t owner lane.id

/-! ## order の表 -/

namespace PlantView

def getOrder (v : PlantView) (id : Nat) : Option Order := v.orders.find? (·.id == id)

def laneOwnerFor (v : PlantView) (orderID : Nat) : Nat :=
  ((v.getOrder orderID).bind (·.parentOrderID)).getD orderID

def insertOrder (v : PlantView) (o : Order) (h : o.id ∉ v.orders.map Order.id) : PlantView :=
  { v with
    orders := v.orders ++ [o]
    orderIDs := by
      rw [map_append]
      refine nodup_append.mpr ⟨v.orderIDs, nodup_singleton _, ?_⟩
      rintro a ha b hb rfl
      obtain rfl : a = o.id := by simpa using hb
      exact h ha }

def editOrder (v : PlantView) (id : Nat) (f : Order → Order) (hf : ∀ o, (f o).id = o.id) :
    PlantView :=
  { v with
    orders := v.orders.map fun o => if o.id = id then f o else o
    orderIDs := by
      have hid : (v.orders.map fun o => if o.id = id then f o else o).map Order.id =
          v.orders.map Order.id := by
        rw [map_map]
        refine map_congr_left fun o _ => ?_
        simp only [Function.comp_apply]
        split
        · exact hf o
        · rfl
      rw [hid]
      exact v.orderIDs }

end PlantView

/-! ## 発注の流れ -/

inductive DispatchPath where
  | plain
  | complex
  deriving DecidableEq

/-- 一つの発注で fleet がすること。`undelivered` はまだ置いていない dropoff。 -/
structure Errand where
  pickups : List String
  dropoffs : List String
  undelivered : List String
  deriving DecidableEq

def DispatchPath.errand (path : DispatchPath) (o : Order) : Errand :=
  match path with
  | .plain => ⟨[o.sourceNode], [o.deliveryNode], [o.deliveryNode]⟩
  | .complex =>
    let nodes := fun action => (o.steps.filter (·.action == action)).map ResolvedStep.node
    ⟨nodes .pickup, nodes .dropoff, nodes .dropoff⟩

def LaneMap.holdsFor (m : LaneMap) (path : DispatchPath) (o : Order) : List LaneHold :=
  match path with
  | .plain => m.resolveOrderLaneHolds o.sourceNode o.deliveryNode
  | .complex => m.resolvePlanLaneHolds o.steps

inductive DispatchPhase where
  | idle
  | acquired (e : Errand)
  | inFlight (e : Errand)
  deriving DecidableEq

def DispatchPhase.errand? : DispatchPhase → Option Errand
  | .idle => none
  | .acquired e => some e
  | .inFlight e => some e

structure LaneWorld where
  view : PlantView
  phase : Nat → DispatchPhase

def LaneWorld.start (styleClaims : List StyleClaim) : LaneWorld where
  view := { orders := [], mouth := [], styleClaims, orderIDs := nodup_nil }
  phase := fun _ => .idle

inductive LaneAction where
  | submit (o : Order)
  | replan (orderID : Nat) (steps : List ResolvedStep) (source dest : String)
  | acquire (orderID : Nat) (path : DispatchPath) (digFirst : Bool)
  | park (orderID : Nat)
  | fleetFailed (orderID : Nat)
  | commit (orderID : Nat) (vendorOrderID : String)
  | dispatchLeg (orderID : Nat) (vendorOrderID : String)
  | pickedUp (orderID : Nat) (location : String)
  | placed (orderID : Nat) (location : String)
  | rebind (orderID entryIndex : Nat) (old new : String)
  | setStatus (orderID : Nat) (s : OrderStatus)
  | reap
  | digLane (laneID orderID : Nat)
  | unlock (laneID orderID : Nat)
  | handOff (laneID digOwner picker : Nat)

namespace LaneWorld

variable (w : LaneWorld)

def setMouth (t : MouthTable) : LaneWorld :=
  { w with view := { w.view with mouth := t } }

def setPhase (orderID : Nat) (p : DispatchPhase) : LaneWorld :=
  { w with phase := Function.update w.phase orderID p }

def dropRows (orderID : Nat) : LaneWorld :=
  w.setMouth (releaseLanesByOwner w.view.mouth orderID).1

def edit (orderID : Nat) (f : Order → Order) (hf : ∀ o, (f o).id = o.id) : LaneWorld :=
  { w with view := w.view.editOrder orderID f hf }

def send (orderID : Nat) (vendorOrderID : String) (e : Errand) : LaneWorld :=
  (w.edit orderID (fun o => { o with vendorOrderID }) fun _ => rfl).setPhase orderID (.inFlight e)

def acquire (m : LaneMap) (o : Order) (path : DispatchPath) (digFirst : Bool) : LaneWorld :=
  let (t, answer) := acquireOrderLanes w.view.mouth o.id (w.view.laneOwnerFor o.id)
    (m.holdsFor path o) digFirst
  (w.setMouth t).setPhase o.id (if answer = .admitted then .acquired (path.errand o) else .idle)

def release (m : LaneMap) (orderID : Nat) (location : String) : LaneWorld :=
  w.setMouth (m.releaseOrderLaneFor w.view.mouth (w.view.laneOwnerFor orderID) location)

end LaneWorld

def Errand.rebind (e : Errand) (old new : String) : Errand :=
  let swap := List.map fun d => if d = old then new else d
  { e with dropoffs := swap e.dropoffs, undelivered := swap e.undelivered }

def laneStep (m : LaneMap) (w : LaneWorld) (a : LaneAction) : LaneWorld :=
  match a with
  | .submit o =>
    if h : o.id ∉ w.view.orders.map Order.id then
      if o.vendorOrderID = "" then { w with view := w.view.insertOrder o h } else w
    else w
  | .replan orderID steps source dest =>
    match w.phase orderID with
    | .idle =>
      w.edit orderID (fun o => { o with steps, sourceNode := source, deliveryNode := dest })
        fun _ => rfl
    | _ => w
  | .acquire orderID path digFirst =>
    match w.phase orderID, w.view.getOrder orderID with
    | .inFlight _, _ => w
    | _, none => w
    | _, some o => if o.status.isTerminal then w else w.acquire m o path digFirst
  | .park orderID =>
    match w.phase orderID with
    | .acquired _ => w.setPhase orderID .idle
    | _ => w
  | .fleetFailed orderID =>
    match w.phase orderID with
    | .acquired _ => (w.dropRows orderID).setPhase orderID .idle
    | _ => w
  | .commit orderID vendorOrderID =>
    match w.phase orderID with
    | .acquired e =>
      if vendorOrderID = "" then w else w.send orderID vendorOrderID e
    | _ => w
  | .dispatchLeg orderID vendorOrderID =>
    match w.phase orderID, w.view.getOrder orderID with
    | .idle, some o =>
      if o.parentOrderID = none ∨ o.status.isTerminal ∨ o.vendorOrderID ≠ "" ∨
          vendorOrderID = "" then w
      else w.send orderID vendorOrderID (DispatchPath.plain.errand o)
    | _, _ => w
  | .pickedUp orderID location =>
    match w.phase orderID with
    | .inFlight e => if location ∈ e.pickups then w.release m orderID location else w
    | _ => w
  | .placed orderID location =>
    match w.phase orderID with
    | .inFlight e =>
      if location ∈ e.dropoffs then
        (w.release m orderID location).setPhase orderID
          (.inFlight { e with undelivered := e.undelivered.erase location })
      else w
    | _ => w
  | .rebind orderID entryIndex old new =>
    match w.phase orderID with
    | .inFlight e =>
      if old ∈ e.undelivered ∧ m.laneOf old = m.laneOf new ∧
          (m.laneOf old).any (m.laneIsGated ·.id) then
        (w.edit orderID (fun o =>
            let steps := applyPlanNode o.steps new entryIndex .dropoff
            { o with steps, deliveryNode := new }) fun _ => rfl).setPhase orderID
          (.inFlight (e.rebind old new))
      else w
    | _ => w
  | .setStatus orderID s =>
    let w' := w.edit orderID (fun o => { o with status := s }) fun _ => rfl
    -- 終わる order は、同じ transaction で予約を全部手放す
    if s.isTerminal then (w'.dropRows orderID).setPhase orderID .idle else w'
  | .reap =>
    w.setMouth <| w.view.mouth.filter fun r =>
      w.view.orders.any fun o => o.id == r.orderID && !o.status.isTerminal
  | .digLane laneID orderID =>
    match acquireLanesFor w.view.mouth orderID .dig
        (askerFor orderID (w.view.laneOwnerFor orderID)) byExcavation [laneID] with
    | .ok t => w.setMouth t
    | .error _ => w
  | .unlock laneID orderID => w.setMouth (releaseLane w.view.mouth orderID laneID)
  | .handOff laneID digOwner picker =>
    w.setMouth (handOffLaneToPicker w.view.mouth laneID digOwner picker byDigHandoff).1

end Shingo.Dispatch
