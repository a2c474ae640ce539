import Shingo.Core.Mouth
import Shingo.Dispatch.StoreSlot
import Shingo.Infra.FirstMatch

/-!
# group の中の置き場所を選ぶ

`shingo-core/dispatch/binresolver/group_resolver.go` の `ResolveStore`。
group に level が宣言されていれば、先に数を確かめ（`atDeclaredLevel`）、
足りていれば断る。足りていなければ、二つの algorithm のどちらかで slot を選ぶ。

* LKND — 同じ payload の在る lane、奥の slot、空いた lane の順に良いものを選ぶ
* DPTH — 名前の順で最初に空いている lane の一番奥。lane が無ければ直下の node

node の property、payload と bin type の制限は、引いた後の値を設定として持つ。
-/

namespace Shingo.Dispatch

open Core Infra

/-! ## 設定と表 -/

/-- `node_maintain_levels` の行。`want` は CHECK で 0 以上。 -/
structure MaintainLevel where
  binTypeID : Nat
  want : Nat
  deriving DecidableEq

structure GroupConfig where
  nodes : List NodeRow
  nodeIDs : (nodes.map NodeRow.id).Nodup
  group : NodeRow
  levels : List MaintainLevel
  levelTypes : (levels.map MaintainLevel.binTypeID).Nodup
  binIDs : List Nat
  binIDsNodup : binIDs.Nodup
  binIDsPos : ∀ id ∈ binIDs, id ≠ 0
  binTypeOf : Nat → Nat
  typeCode : Nat → String
  property : Nat → String → String := fun _ _ => ""
  effectivePayloads : Nat → List String := fun _ => []
  effectiveBinTypes : Nat → List Nat := fun _ => []

structure ResolveTables where
  store : StoreTables
  mouth : MouthTable := []

def isUnder (nodes : List NodeRow) (groupID : Nat) : Nat → Nat → Bool
  | 0, _ => false
  | fuel + 1, id =>
    match (nodes.find? (·.id == id)).bind NodeRow.parentID with
    | none => false
    | some parent => parent == groupID || isUnder nodes groupID fuel parent

variable (cfg : GroupConfig)

def GroupConfig.inGroup (nodeID : Nat) : Bool :=
  isUnder cfg.nodes cfg.group.id cfg.nodes.length nodeID

/-! ## level -/

def emptyCarrier (t : ResolveTables) (b : BinRow) : Bool :=
  b.status.sourceable && b.status != .staged && b.claimedBy.isNone && !b.locked &&
    b.payloadCode == "" && !t.store.plant.hasPendingReservation b.id &&
    b.nodeID.any fun id => cfg.nodes.any fun n => n.id == id && n.enabled && !n.isSynthetic

def countEmptyOfTypeInGroup (t : ResolveTables) (binTypeCode : String) : Nat :=
  if binTypeCode = "" then 0
  else t.store.plant.bins.countP fun b =>
    emptyCarrier cfg t b && cfg.typeCode (cfg.binTypeOf b.id) == binTypeCode &&
      b.nodeID.any cfg.inGroup

def atDeclaredLevel (t : ResolveTables) (binTypeID : Option Nat) : Bool :=
  if cfg.levels.isEmpty then false
  else
    match binTypeID with
    | some id =>
      (cfg.levels.find? (·.binTypeID == id)).any fun l =>
        decide (l.want ≤ countEmptyOfTypeInGroup cfg t (cfg.typeCode l.binTypeID))
    | none =>
      let want := cfg.levels.foldl (fun want l => want + l.want) 0
      let held := cfg.levels.foldl
        (fun held l => held + countEmptyOfTypeInGroup cfg t (cfg.typeCode l.binTypeID)) 0
      decide (want ≤ held)

theorem count_lt_want {cfg : GroupConfig} {t : ResolveTables} {l : MaintainLevel}
    (hl : l ∈ cfg.levels) (h : atDeclaredLevel cfg t (some l.binTypeID) = false) :
    countEmptyOfTypeInGroup cfg t (cfg.typeCode l.binTypeID) < l.want := by
  unfold atDeclaredLevel at h
  rw [if_neg (by simpa using List.ne_nil_of_mem hl)] at h
  dsimp only at h
  rw [find?_of_nodup_map cfg.levelTypes hl] at h
  simpa using h

/-! ## 候補 -/

def listChildNodesUnlocked (t : ResolveTables) (asker : DigAsker) : List NodeRow :=
  (cfg.nodes.filter fun n => n.parentID == some cfg.group.id &&
    !t.mouth.any fun r => r.laneID == n.id && r.mode == .dig && asker.excludedBy r.orderID)
    |>.insertionSort fun a b => a.name ≤ b.name

def payloadAllowed (nodeID : Nat) (payloadCode : String) : Bool :=
  payloadCode == "" || (cfg.effectivePayloads nodeID).isEmpty ||
    (cfg.effectivePayloads nodeID).contains payloadCode

def binTypeAllowed (nodeID : Nat) (binTypeID : Option Nat) : Bool :=
  binTypeID.all fun id =>
    (cfg.effectiveBinTypes nodeID).isEmpty || (cfg.effectiveBinTypes nodeID).contains id

variable (t : ResolveTables)

def countActiveOrdersByDeliveryNode (name : String) : Nat :=
  t.store.orders.countP fun o => o.deliveryNode == name && !o.status.isTerminal

def payloadStandsAt (payloadCode : String) (nodeID : Nat) : Bool :=
  payloadCode != "" &&
    (t.store.plant.listBinsByNode nodeID).any (·.payloadCode == payloadCode)

def laneAcceptsInbound (laneID : Nat) : Bool :=
  (activeMouthRows t.mouth laneID).all (·.mode == .inbound)

def countBinsInLane (laneID : Nat) : Nat :=
  t.store.plant.bins.countP fun b =>
    (b.nodeID.bind t.store.plant.getNode).any (·.parentID == some laneID)

structure StorageCandidate where
  node : NodeRow
  hasMatch : Bool
  count : Nat
  depth : Int
  laneCompatible : Bool := false

def candidateBetter (c best : StorageCandidate) : Bool :=
  if c.hasMatch != best.hasMatch then c.hasMatch
  else if c.depth != best.depth then decide (best.depth < c.depth)
  else if c.laneCompatible != best.laneCompatible then c.laneCompatible
  else decide (c.count < best.count)

def bestStorageCandidate : List StorageCandidate → Option NodeRow
  | [] => none
  | c :: rest =>
    some (rest.foldl (fun best c => if candidateBetter c best then c else best) c).node

def directSlotFree (child : NodeRow) : Bool :=
  (t.store.slotClaim child.id).isNone &&
    t.store.plant.countBinsByNode child.id + countActiveOrdersByDeliveryNode t child.name == 0

def lkndCandidate (t : ResolveTables) (payloadCode : String)
    (binTypeID : Option Nat) (child : NodeRow) : Option StorageCandidate :=
  if child.enabled = false then none
  else if child.isLane then
    if !payloadAllowed cfg child.id payloadCode || !binTypeAllowed cfg child.id binTypeID then none
    else
      match findStoreSlotInLane t.store child.id with
      | .error _ => none
      | .ok slot =>
        some { node := slot
               hasMatch := (t.store.plant.listLaneSlots child.id).any
                 fun s => payloadStandsAt t payloadCode s.id
               count := countBinsInLane t child.id
               depth := child.depth.getD 0
               laneCompatible := cfg.property cfg.group.id "resolve_around" == "on" &&
                 laneAcceptsInbound t child.id }
  else if child.isSynthetic || !directSlotFree t child ||
      !binTypeAllowed cfg child.id binTypeID then none
  else
    some { node := child
           hasMatch := payloadStandsAt t payloadCode child.id
           count := t.store.plant.countBinsByNode child.id
           depth := child.depth.getD 0 }

def resolveStoreLKND (t : ResolveTables) (payloadCode : String)
    (binTypeID : Option Nat) (asker : DigAsker) : Option NodeRow :=
  bestStorageCandidate
    ((listChildNodesUnlocked cfg t asker).filterMap (lkndCandidate cfg t payloadCode binTypeID))

def dpthLaneSlot (t : ResolveTables) (payloadCode : String)
    (binTypeID : Option Nat) (child : NodeRow) : Option NodeRow :=
  if child.enabled = false || !child.isLane || !payloadAllowed cfg child.id payloadCode ||
      !binTypeAllowed cfg child.id binTypeID then none
  else (findStoreSlotInLane t.store child.id).toOption

def dpthDirectSlot (t : ResolveTables) (binTypeID : Option Nat)
    (child : NodeRow) : Option NodeRow :=
  if child.enabled && !child.isSynthetic && binTypeAllowed cfg child.id binTypeID &&
      directSlotFree t child then some child
  else none

def resolveStoreDPTH (t : ResolveTables) (payloadCode : String)
    (binTypeID : Option Nat) (asker : DigAsker) : Option NodeRow :=
  let children := listChildNodesUnlocked cfg t asker
  (children.findSome? (dpthLaneSlot cfg t payloadCode binTypeID)).or
    (children.findSome? (dpthDirectSlot cfg t binTypeID))

structure NoAvailableSlot where
  group : String

def getGroupAlgorithm (key defaultVal : String) : String :=
  if cfg.property cfg.group.id "asrs_enabled" = "off" then defaultVal
  else
    let v := cfg.property cfg.group.id key
    if v = "" then defaultVal else v

def resolveStore (t : ResolveTables) (payloadCode : String)
    (binTypeID : Option Nat) (asker : DigAsker) : Except NoAvailableSlot NodeRow :=
  if atDeclaredLevel cfg t binTypeID then .error ⟨cfg.group.name⟩
  else
    let slot :=
      if getGroupAlgorithm cfg "store_algorithm" "LKND" = "DPTH" then
        resolveStoreDPTH cfg t payloadCode binTypeID asker
      else resolveStoreLKND cfg t payloadCode binTypeID asker
    match slot with
    | some node => .ok node
    | none => .error ⟨cfg.group.name⟩

/-- **slot が選ばれたなら、宣言された level に届いていない。** -/
theorem resolveStore_ok {cfg : GroupConfig} {t : ResolveTables} {payloadCode : String}
    {binTypeID : Option Nat} {asker : DigAsker} {n : NodeRow}
    (h : resolveStore cfg t payloadCode binTypeID asker = .ok n) :
    atDeclaredLevel cfg t binTypeID = false := by
  unfold resolveStore at h
  split at h
  · cases h
  · rename_i hfull
    simpa using hfull

/-! ## 置きに行く carrier -/

structure InFlight where
  binID : Nat
  slot : NodeRow

structure StoreWorld where
  place : Nat → Option Nat
  inFlight : List InFlight

/-- 一度の `ResolveStore`。`typed` でない呼び手は bin type を渡さず（nil）、group の合計だけが比べられる。 -/
structure StoreCall where
  typed : Bool := true
  tables : ResolveTables
  binRow : Nat → BinRow
  payloadCode : String
  asker : DigAsker

def StoreCall.seenAt (c : StoreCall) (cfg : GroupConfig) (place : Nat → Option Nat) :
    ResolveTables :=
  { c.tables with
    store := { c.tables.store with
      plant := { c.tables.store.plant with
        nodes := cfg.nodes
        nodeIDs := cfg.nodeIDs
        bins := cfg.binIDs.map fun id => { c.binRow id with id, nodeID := place id }
        binIDs := by
          rw [List.map_map]
          exact (List.map_id cfg.binIDs).symm ▸ cfg.binIDsNodup
        binIDsPos := by
          intro b hb
          obtain ⟨id, hid, rfl⟩ := List.mem_map.mp hb
          exact cfg.binIDsPos id hid } } }

inductive StoreAction where
  | resolve (binID : Nat) (c : StoreCall)
  | arrive (i : Nat)

def resolveFor (w : StoreWorld) (binID : Nat) (c : StoreCall) : Except NoAvailableSlot NodeRow :=
  resolveStore cfg (c.seenAt cfg w.place) c.payloadCode
    (if c.typed then some (cfg.binTypeOf binID) else none) c.asker

def storeStep (w : StoreWorld) : StoreAction → StoreWorld
  | .resolve binID c =>
    match resolveFor cfg w binID c with
    | .ok slot => { w with inFlight := w.inFlight ++ [⟨binID, slot⟩] }
    | .error _ => w
  | .arrive i =>
    match w.inFlight[i]? with
    | some f =>
      { place := fun b => if b = f.binID then some f.slot.id else w.place b
        inFlight := w.inFlight.eraseIdx i }
    | none => w

end Shingo.Dispatch
