import Shingo.Dispatch.ResolveStore
import Shingo.Infra.Run

/-!
# 置き先の空き

`shingo-core/dispatch/capacity.go` の、置き先が空いているかの確認と、
`complex_dispatch.go` の、行程の dropoff のどれを確かめるか。
-/

namespace Shingo.Dispatch

open Core

inductive CapacityBlock where
  | capacityCheckFailed
  | ngrpAtLevel
  | ngrpFull
  | dropoffOccupied (blockingBins : Nat)
  | dropoffInflight (inboundOrders : Nat)
  deriving DecidableEq

inductive NodeLookup where
  | noRows
  | failed
  | found (node : NodeRow) (isNGRP : Bool)

structure CapacityReads where
  node : String → NodeLookup
  levels : Bool := true
  children : Bool := true
  bins : Nat → Bool := fun _ => true
  inFlight : String → Bool := fun _ => true

def countInFlightExcluding (t : ResolveTables) (name : String) (excludeOrderID : Nat) : Nat :=
  t.store.orders.countP fun o => o.deliveryNode == name && !o.status.isTerminal &&
    o.status != .queued && o.id != excludeOrderID

variable (cfg : GroupConfig) (t : ResolveTables) (reads : CapacityReads) (excludeOrderID : Nat)

def nodeCapacity (nodeID : Nat) (name : String) : Option CapacityBlock :=
  if !reads.bins nodeID then some .capacityCheckFailed
  else if 0 < t.store.plant.countBinsByNode nodeID then
    some (.dropoffOccupied (t.store.plant.countBinsByNode nodeID))
  else if !reads.inFlight name then some .capacityCheckFailed
  else if 0 < countInFlightExcluding t name excludeOrderID then
    some (.dropoffInflight (countInFlightExcluding t name excludeOrderID))
  else none

def capacityChildren : List NodeRow :=
  cfg.nodes.filter fun n => n.parentID == some cfg.group.id && n.enabled && !n.isSynthetic

def childBlocks : List (Option CapacityBlock) :=
  (capacityChildren cfg).map fun n => nodeCapacity t reads excludeOrderID n.id n.name

def checkNGRPCapacity (binTypeID : Option Nat) : Option CapacityBlock :=
  let blocks := childBlocks cfg t reads excludeOrderID
  if !reads.levels then some .capacityCheckFailed
  else if atDeclaredLevel cfg t binTypeID then some .ngrpAtLevel
  else if !reads.children then some .capacityCheckFailed
  else if blocks = [] ∨ none ∈ blocks then none
  else if some .capacityCheckFailed ∈ blocks then some .capacityCheckFailed
  else some .ngrpFull

def checkDropoffCapacityForType (deliveryNode : String) (binTypeID : Option Nat) :
    Option CapacityBlock :=
  if deliveryNode = "" then none
  else match reads.node deliveryNode with
    | .noRows => none
    | .failed => some .capacityCheckFailed
    | .found node isNGRP =>
      if !node.isSynthetic then nodeCapacity t reads excludeOrderID node.id deliveryNode
      else if isNGRP then checkNGRPCapacity cfg t reads excludeOrderID binTypeID
      else none

/-! ## 行程の dropoff -/

def picksUpAt (node : String) (p : ResolvedStep) : Bool := p.action = .pickup ∧ p.node = node

def clearedEarlierInPlan (prior : List ResolvedStep) (node : String) : Bool :=
  node != "" && prior.any (picksUpAt node)

inductive DropoffCheck where
  | notDeclared
  | alreadyAsked
  | cleared
  | asked
  deriving DecidableEq

def dropoffCheck (finalChecked : Bool) (deliveryNode : String) (prior : List ResolvedStep)
    (s : ResolvedStep) : DropoffCheck :=
  if s.action ≠ .dropoff ∨ s.node = "" ∨ s.exclusiveSlot = false then .notDeclared
  else if finalChecked ∧ s.node = deliveryNode then .alreadyAsked
  else if clearedEarlierInPlan prior s.node then .cleared
  else .asked

def occupyStep (occupied : String → Bool) (s : ResolvedStep) : String → Bool :=
  match s.action with
  | .pickup => Function.update occupied s.node false
  | .dropoff => Function.update occupied s.node true
  | .wait => occupied

end Shingo.Dispatch
