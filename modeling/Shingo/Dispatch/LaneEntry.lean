import Shingo.Core.Mouth
import Shingo.Dispatch.Order

/-!
# lane に入る順番（tiered lane entry）

`shingo-core/dispatch/lane_entry.go`。lane に bin を置きに行く order を、
奥から順に入れるための判定。判定は読むだけで、待つ order は次の走査でまた判定される。

* Tier 1 — 同じ origin の order どうしは互いに待たない
* Tier 2 — 別の origin の、より奥の slot へ向かう order があれば待つ
* Tier 3 — 別の origin の組（同じ origin の order が二つ以上）が居れば待つ
-/

namespace Shingo.Dispatch

open Core

inductive QueueCause where
  | laneDeeperPending
  | laneGroupActive
  deriving DecidableEq

inductive GateVerdict where
  | admitted
  | refused (cause : QueueCause)
  deriving DecidableEq

structure LaneEntryOrder where
  id : Nat
  depth : Int
  origin : String
  grouped : Bool := false

def sameOrigin (a b : String) : Bool := a != "" && a == b

def classifyLaneEntry (self : LaneEntryOrder) : List LaneEntryOrder → Option QueueCause
  | [] => none
  | o :: rest =>
    if o.id = self.id then classifyLaneEntry self rest
    else if sameOrigin self.origin o.origin then classifyLaneEntry self rest
    else if self.depth < o.depth then some .laneDeeperPending
    else if o.grouped then some .laneGroupActive
    else classifyLaneEntry self rest

/-! ## lane と plant の読み取り -/

structure Slot where
  id : Nat
  name : String
  depth : Option Int

def Slot.slotDepth (s : Slot) : Int := s.depth.getD 0

/--
LANE の node とその slot（`ListLaneSlots`）。

`nodes.name` は UNIQUE なので slot の名前は相異なる。slot の名前が別の slot の
`LANE.SLOT` 形と同じになる配置では delivery_node がどちらの slot か決まらない。
-/
structure Lane where
  id : Nat
  name : String
  slots : List Slot
  namesNodup : (slots.map Slot.name).Nodup
  namesPlain : ∀ s ∈ slots, ∀ t ∈ slots, s.name ≠ name ++ "." ++ t.name

def Lane.dotName (l : Lane) (s : Slot) : String := l.name ++ "." ++ s.name

structure StyleClaim where
  coreNodeName : String
  processID : String
  styleID : String

structure PlantView where
  orders : List Order
  mouth : MouthTable
  styleClaims : List StyleClaim
  orderIDs : (orders.map Order.id).Nodup

variable (v : PlantView)

def PlantView.nodeStyleOrigins (nodeName : String) : List String :=
  (((v.styleClaims.filter (·.coreNodeName == nodeName)).map
    fun c => (c.processID, c.styleID)).dedup).map fun (p, s) => p ++ "|" ++ s

def originKeyForStyles (pairs : List String) : String :=
  if pairs.length = 0 then ""
  else "style:" ++ ",".intercalate (pairs.insertionSort (· ≤ ·))

def PlantView.laneEntryOriginFor (order : Order) : String :=
  match order.parentOrderID with
  | some parent => "compound:" ++ toString parent
  | none =>
    if order.processNode = "" then ""
    else originKeyForStyles (v.nodeStyleOrigins order.processNode)

def PlantView.activeLaneStores (slotNames : List String) : List Order :=
  (v.orders.filter fun o => slotNames.contains o.deliveryNode && !o.status.isTerminal).insertionSort
    (fun a b => a.id ≤ b.id)

/-- fleet に渡っていて inbound の row を持たない order は置き終えたとみなす。 -/
def PlantView.stillWorkingLaneMouth (laneID : Nat) (active : List Order) : List Order :=
  let inbound : Nat → Bool := fun id =>
    (activeMouthRows v.mouth laneID).any fun h => h.mode == .inbound && h.orderID == id
  active.filter fun o => !(o.vendorOrderID != "" && !inbound o.id)

/-! ## 判定 -/

def Lane.slotNames (l : Lane) : List String := l.slots.flatMap fun s => [s.name, l.dotName s]

def Lane.depthByName (l : Lane) : String → Int :=
  l.slots.foldl
    (fun m s n => if n = l.dotName s then s.slotDepth else if n = s.name then s.slotDepth else m n)
    fun _ => 0

def PlantView.buildLaneEntryView (order : Order) (destNode : Slot) (laneID : Nat)
    (active : List Order) (depthByName : String → Int) : LaneEntryOrder × List LaneEntryOrder :=
  let self : LaneEntryOrder :=
    { id := order.id, depth := depthByName destNode.name, origin := v.laneEntryOriginFor order }
  let active := v.stillWorkingLaneMouth laneID active
  let originCount : String → Nat := fun org => active.countP (v.laneEntryOriginFor · == org)
  (self, active.map fun o =>
    let origin := v.laneEntryOriginFor o
    { id := o.id, depth := depthByName o.deliveryNode, origin
      grouped := origin != "" && decide (2 ≤ originCount origin) })

def PlantView.laneEntryCause (lane : Lane) (order : Order) (destNode : Slot) : GateVerdict :=
  if lane.slots.length < 2 then .admitted
  else
    let active := v.activeLaneStores lane.slotNames
    let (self, others) := v.buildLaneEntryView order destNode lane.id active lane.depthByName
    match classifyLaneEntry self others with
    | some c => .refused c
    | none => .admitted

end Shingo.Dispatch
