import Shingo.Protocol.Episode

/-!
# node の runtime の bin と世代

`shingo-edge/store/processes/processes.go` の、`active_bin_id` と `active_bin_epoch` を書く文と、
それを呼ぶ `engine` の handler。`HandleUOPAdjustment`、`HandleBinEpochRefresh`、
`handleNodeOrderDelivered`、`HandleBinPickedUp`、operator の load、clear の返事、
changeover の取り消しの後の読み直し。

handler は行を読んで書く文を決め、文は後で実行される。間に他の文が入りうるので、
決めた文は `decided` に積み、`commit` で一つずつ実行する。
-/

namespace Shingo.Edge

open Protocol

/-! ## 行と文 -/

structure RuntimeRow where
  activeClaimID : Option Int
  activeBinID : Option Int
  activeBinEpoch : Int
  remainingUOPCached : Int
  pendingUOPDelta : Int

variable (row : RuntimeRow)

/-- 同じ bin なら前に進むだけで、bin が替わればどの世代も付く。 -/
def epochAssignOnBind (binID : Option Int) (epoch : Int) : Int :=
  if row.activeBinID = binID ∧ epoch < row.activeBinEpoch then row.activeBinEpoch else epoch

def epochAssignForBoundBin (binID epoch : Int) : Int :=
  if row.activeBinID = some binID ∧ row.activeBinEpoch < epoch then epoch else row.activeBinEpoch

inductive RuntimeWrite where
  | claimCountAndEpoch (claimID : Option Int) (count binID epoch : Int)
  | withBin (claimID binID : Option Int) (count : Int)
  | withBinAndEpoch (claimID binID : Option Int) (epoch count : Int)
  | activeBinID (binID : Option Int)
  | activeBinIDAndEpoch (binID : Option Int) (epoch : Int)
  | uop (count : Int)

def RuntimeWrite.apply : RuntimeWrite → RuntimeRow
  | .claimCountAndEpoch claimID count binID epoch =>
    { row with
      activeClaimID := claimID
      remainingUOPCached := count
      activeBinEpoch := epochAssignForBoundBin row binID epoch }
  | .withBin claimID binID count =>
    { row with activeClaimID := claimID, activeBinID := binID, remainingUOPCached := count }
  | .withBinAndEpoch claimID binID epoch count =>
    { row with
      activeClaimID := claimID
      activeBinID := binID
      activeBinEpoch := epochAssignOnBind row binID epoch
      remainingUOPCached := count }
  | .activeBinID binID => { row with activeBinID := binID }
  | .activeBinIDAndEpoch binID epoch =>
    { row with
      activeBinID := binID
      activeBinEpoch := epochAssignOnBind row binID epoch }
  | .uop count => { row with remainingUOPCached := count }

/-! ## 電文 -/

structure UOPAdjustment where
  binID : Int
  newRemaining : Int
  actor : String
  released : Bool
  bound : Bool
  epoch : Int

def actorCoreLifecycle : String := "core"

def isLifecycleActor (actor : String) : Bool :=
  actor == "" || actor == actorCoreLifecycle

def handleUOPAdjustment (rt : RuntimeRow) (adj : UOPAdjustment) : List RuntimeWrite :=
  if adj.bound then
    [.withBinAndEpoch rt.activeClaimID (some adj.binID) adj.epoch adj.newRemaining]
  else if rt.activeBinID = none ∧ adj.released = false ∧ isLifecycleActor adj.actor then []
  else if rt.activeBinID = none ∧ adj.released = false ∧ rt.pendingUOPDelta ≠ 0 then []
  else if rt.activeBinID = none ∧ adj.released = false then
    [.withBinAndEpoch rt.activeClaimID (some adj.binID) adj.epoch adj.newRemaining]
  else if rt.activeBinID ≠ some adj.binID then []
  else if adj.released then [.activeBinID none, .uop 0]
  else [.withBinAndEpoch rt.activeClaimID rt.activeBinID adj.epoch adj.newRemaining]

def handleBinEpochRefresh (rt : RuntimeRow) (binID epoch : Int) : List RuntimeWrite :=
  if rt.activeBinID ≠ some binID then []
  else [.activeBinIDAndEpoch rt.activeBinID epoch]

structure DeliveredClaim where
  id : Int
  role : ClaimRole
  uopCapacity : Int

def deliveredFallbackUOP (claim : DeliveredClaim) : Int :=
  match claim.role with
  | .produce => 0
  | .consume => claim.uopCapacity

/-- edge の order の、配達の handler が読む欄。`finalDropoff` は step から引いた最後の荷下ろし。 -/
structure DeliveredOrder where
  complex : Bool
  deliveryNode : String
  finalDropoff : String

structure OrderDelivered where
  processNodeID : Option Int
  binID : Option Int
  deliveryNode : String
  binDestNode : String
  binUOP : Option Int
  binEpoch : Int

structure EdgeNode where
  id : Int
  coreNodeName : String

variable (node : EdgeNode)

/-- bin はこの node に着いたか。multi-bin は bin ごとの行き先、complex は最後の荷下ろしを見る。 -/
def deliveredHere (ev : OrderDelivered) (order : DeliveredOrder) : Bool :=
  if ev.binDestNode ≠ "" then ev.binDestNode == node.coreNodeName
  else if order.complex then
    order.finalDropoff != "" && order.finalDropoff == node.coreNodeName
  else order.deliveryNode == node.coreNodeName

def onDelivered (claim : DeliveredClaim) (ev : OrderDelivered) (binID : Int) : RuntimeWrite :=
  .withBinAndEpoch (some claim.id) (some binID) ev.binEpoch
    (ev.binUOP.getD (deliveredFallbackUOP claim))

/-- `handleNodeOrderDelivered` と、order の無い `handleFallbackDelivered`。 -/
def handleNodeOrderDelivered (ev : OrderDelivered)
    (order : Option DeliveredOrder) (claim : Option DeliveredClaim) : List RuntimeWrite :=
  match ev.processNodeID, ev.binID with
  | none, some binID =>
    if ev.deliveryNode ≠ "" ∧ ev.deliveryNode = node.coreNodeName then
      match claim with
      | none => []
      | some claim => [onDelivered claim ev binID]
    else []
  | some nodeID, some binID =>
    if nodeID = node.id then
      match order, claim with
      | some order, some claim =>
        if deliveredHere node ev order then [onDelivered claim ev binID] else []
      | _, _ => []
    else []
  | _, none => []

inductive RuntimeMessage where
  | uopAdjustment (adj : UOPAdjustment)
  | binEpochRefresh (binID epoch : Int)
  | orderDelivered (ev : OrderDelivered) (order : Option DeliveredOrder)
      (claim : Option DeliveredClaim)
  | binPickedUp (binID : Int)
  | loadedL1 (binID epoch : Int)
  | manualLoad (claimID : Option Int) (loaded : Option (Int × Int)) (count : Int)
  | cleared (claimID : Option Int) (count binID epoch : Int)
  | reconcile (claimID : Option Int) (bin : Option (Int × Int × Int))
  | clearActiveAndReset (claimID : Option Int)
  | setActiveBin (binID : Option Int)

def handleMessage (rt : RuntimeRow) : RuntimeMessage → List RuntimeWrite
  | .uopAdjustment adj => handleUOPAdjustment rt adj
  | .binEpochRefresh binID epoch => handleBinEpochRefresh rt binID epoch
  | .orderDelivered ev order claim => handleNodeOrderDelivered node ev order claim
  | .binPickedUp binID => if rt.activeBinID = some binID then [.activeBinID none] else []
  | .loadedL1 binID epoch =>
    if 0 < binID then [.activeBinIDAndEpoch (some binID) epoch] else []
  | .manualLoad claimID loaded count =>
    match loaded with
    | some (binID, epoch) =>
      if 0 < binID then [.withBinAndEpoch claimID (some binID) epoch count]
      else [.withBinAndEpoch claimID none 0 count]
    | none => [.withBinAndEpoch claimID none 0 count]
  | .cleared claimID count binID epoch => [.claimCountAndEpoch claimID count binID epoch]
  | .reconcile claimID bin =>
    match bin with
    | some (binID, epoch, uop) => [.withBinAndEpoch claimID (some binID) epoch uop]
    | none => [.withBin claimID none 0]
  | .clearActiveAndReset claimID => [.withBin claimID none 0]
  | .setActiveBin binID => [.activeBinID binID]

def RuntimeMessage.named : RuntimeMessage → List (Int × Int)
  | .uopAdjustment adj => [(adj.binID, adj.epoch)]
  | .binEpochRefresh binID epoch => [(binID, epoch)]
  | .orderDelivered ev _ _ => (ev.binID.map fun b => (b, ev.binEpoch)).toList
  | .loadedL1 binID epoch => [(binID, epoch)]
  | .manualLoad _ loaded _ => loaded.toList
  | .cleared _ _ binID epoch => [(binID, epoch)]
  | .reconcile _ bin => (bin.map fun b => (b.1, b.2.1)).toList
  | .binPickedUp _ | .clearActiveAndReset _ | .setActiveBin _ => []

/-! ## node の世界 -/

/-- 一つの node。`named` と `held` は控えで、code には無い。 -/
structure RuntimeWorld where
  row : RuntimeRow
  decided : List RuntimeWrite
  named : List (Int × Int)
  held : List (Int × Int)

def RuntimeRow.naming : Option (Int × Int) :=
  row.activeBinID.map fun b => (b, row.activeBinEpoch)

inductive RuntimeAction where
  | receive (m : RuntimeMessage)
  | commit (i : Nat)
  | tick (remainingUOPCached pendingUOPDelta : Int)

def RuntimeWorld.write (w : RuntimeWorld) (row : RuntimeRow) : RuntimeWorld :=
  { w with row, held := w.held ++ row.naming.toList }

def runtimeStep (w : RuntimeWorld) : RuntimeAction → RuntimeWorld
  | .receive m =>
    { w with decided := w.decided ++ handleMessage node w.row m, named := w.named ++ m.named }
  | .commit i =>
    match w.decided[i]? with
    | none => w
    | some wr => { w.write (wr.apply w.row) with decided := w.decided.eraseIdx i }
  | .tick remainingUOPCached pendingUOPDelta =>
    { w with row := { w.row with remainingUOPCached, pendingUOPDelta } }

end Shingo.Edge
