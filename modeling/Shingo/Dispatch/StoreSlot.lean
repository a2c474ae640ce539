import Shingo.Dispatch.DigDwell

/-!
# lane の中の slot を選ぶ

`shingo-core/store/nodes/lanes.go` の `findStoreSlot` と、その述語
（`store/internal/helpers/lane_reachability.go`）。奥から詰めるので、
ほかの order のものでない空の slot のうち、口から届く一番奥のものを選ぶ。

`excludeOrderID` の order が持つものは塞がりに数えない。0 の order は無いので、
0 なら誰のものも数える。
-/

namespace Shingo.Dispatch

open Core

structure OrderBin where
  orderID : Nat
  stepIndex : Nat
  binID : Nat

structure StoreTables where
  plant : Plant
  orders : List Order := []
  orderBinID : Nat → Option Nat := fun _ => none
  slotClaim : Nat → Option Nat := fun _ => none
  orderBins : List OrderBin := []

def shallowerInSameLane (shallow deep : NodeRow) : Bool :=
  match shallow.parentID, deep.parentID, shallow.depth, deep.depth with
  | some p, some q, some a, some b => p == q && shallow.id != deep.id && decide (a < b)
  | _, _, _, _ => false

variable {laneID excludeOrderID : Nat} {n : NodeRow}

namespace StoreTables

variable (v : StoreTables)

def occupied (n : NodeRow) : Bool := v.plant.bins.any (·.nodeID == some n.id)

def buried (target : NodeRow) : Bool :=
  v.plant.nodes.any fun n => v.occupied n && shallowerInSameLane n target

def comesFor (holder : Order) (held : NodeRow) (b : BinRow) : Bool :=
  b.claimedBy == some holder.id
    || v.orderBinID holder.id == some b.id && holder.sourceNode == held.name

/-- 埋めてはならない slot。奥に、終わっていないほかの order が取りに来る bin がある。 -/
def wouldBury (excludeOrderID : Nat) (n : NodeRow) : Bool :=
  v.plant.nodes.any fun held => shallowerInSameLane n held &&
    v.plant.bins.any fun b => b.nodeID == some held.id &&
      v.orders.any fun holder => holder.id != excludeOrderID && !holder.status.isTerminal &&
        v.comesFor holder held b

def heldByOther (excludeOrderID : Nat) (n : NodeRow) : Bool :=
  (v.slotClaim n.id).any (· != excludeOrderID)
    || v.plant.reservations.any (fun r => r.target == .slot n.id && r.orderID != excludeOrderID)
    || v.orders.any fun o => o.deliveryNode == n.name && !o.status.isTerminal &&
        o.id != excludeOrderID

/-- `findStoreSlot` の `WHERE`。`guard` は、埋めてはならない slot を除くか。 -/
def storeSlotOpen (laneID excludeOrderID : Nat) (guard : Bool) (n : NodeRow) : Bool :=
  n.parentID == some laneID && !n.isSynthetic && !v.occupied n &&
    !v.heldByOther excludeOrderID n && !v.buried n && !(guard && v.wouldBury excludeOrderID n)

def findStoreSlot (laneID excludeOrderID : Nat) (guard : Bool) : Option NodeRow :=
  ((v.plant.nodes.filter (v.storeSlotOpen laneID excludeOrderID guard)).insertionSort
    fun a b => b.depth.getD 0 ≤ a.depth.getD 0).head?

theorem findStoreSlot_spec {v : StoreTables} {guard : Bool}
    (h : v.findStoreSlot laneID excludeOrderID guard = some n) :
    n ∈ v.plant.nodes ∧ v.storeSlotOpen laneID excludeOrderID guard n = true := by
  have hmem := List.mem_of_mem_head? h
  rw [List.mem_insertionSort] at hmem
  exact List.mem_filter.mp hmem

end StoreTables

/-- slot が無い理由。`laneClosedByClaim` は `ErrLaneClosedByClaim` を包む。 -/
inductive StoreSlotError where
  | noEmptySlot (laneID : Nat)
  | laneClosedByClaim (laneID : Nat)
  deriving DecidableEq

def findStoreSlotInLaneExcluding (v : StoreTables) (laneID excludeOrderID : Nat) :
    Except StoreSlotError NodeRow :=
  match v.findStoreSlot laneID excludeOrderID true with
  | some n => .ok n
  | none =>
    if (v.findStoreSlot laneID excludeOrderID false).isSome then .error (.laneClosedByClaim laneID)
    else .error (.noEmptySlot laneID)

def findStoreSlotInLane (v : StoreTables) (laneID : Nat) : Except StoreSlotError NodeRow :=
  findStoreSlotInLaneExcluding v laneID 0

end Shingo.Dispatch
