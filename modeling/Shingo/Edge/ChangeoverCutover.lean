import Shingo.Edge.ChangeoverPlan

/-!
# changeover の始めの取り消し、対の切り替え、立ち上げ

`shingo-edge/engine` の `operator_changeover_start.go`（`cancelPreDispatchAtParticipants`）、
`operator_changeover_cutover.go`、`changeover_restore.go`、`changeover_planner.go`
（`resolveSequentialActivePull`）、`operator_ab_cycling.go`（`FlipABNode`）、`wiring_completion.go`
（task の state を書く handler）と、`protocol/status.go` の `ChangeoverStartActionFor`。
-/

namespace Shingo.Edge.Changeover

open Dispatch

inductive ChangeoverStartAction where
  | cancel
  | block
  | pass
  deriving DecidableEq

def changeoverStartActionFor : OrderStatus → ChangeoverStartAction
  | .pending | .submitted | .acknowledged | .sourcing | .queued => .cancel
  | .dispatched | .inTransit | .staged | .faulted => .block
  | .delivered | .reshuffling | .confirmed | .cancelled | .failed | .skipped => .pass

def cancelNodeSet (diffs : List (String × Situation)) : List String :=
  (diffs.filter fun d => d.2 != .unchanged && d.1 != "").map (·.1)

/-- 行程の読めない order は、置くものとして扱う。 -/
def cancelsAtStart (nodes : List String) (stepsOk : Nat → Bool) (o : LegOrder) : Bool :=
  changeoverStartActionFor o.status == .cancel && (!stepsOk o.id || o.placesBinAtAny nodes)

structure StartSweep where
  tables : Tables
  seen : List Nat := []
  cancelled : List Nat := []

namespace StartSweep

variable (reply : CancelReply)

def abort (w : StartSweep) (orderID : Nat) : StartSweep :=
  if w.seen.contains orderID then w
  else
    { tables := w.tables.abortLinked reply orderID
      seen := orderID :: w.seen
      cancelled :=
        if reply.readOk orderID && reply.abortOk orderID
            && (w.tables.getOrder orderID).any (!·.status.isTerminal) then
          w.cancelled ++ [orderID]
        else w.cancelled }

/-- 対の相手は、status も行き先も見ずに取り消す。 -/
def sweepOrder (nodes : List String) (stepsOk : Nat → Bool) (sibling : Nat → Option Nat)
    (w : StartSweep) (o : LegOrder) : StartSweep :=
  if cancelsAtStart nodes stepsOk o then
    (sibling o.id).toList.foldl (abort reply) (w.abort reply o.id)
  else w

end StartSweep

def cancelPreDispatchAtParticipants (t : Tables) (diffs : List (String × Situation))
    (sibling : Nat → Option Nat) (reply : CancelReply) (stepsOk : Nat → Bool) : StartSweep :=
  if (cancelNodeSet diffs).isEmpty || !reply.listOk then { tables := t }
  else
    (t.orders.filter fun o => !o.status.isTerminal).foldl
      (StartSweep.sweepOrder reply (cancelNodeSet diffs) stepsOk sibling) { tables := t }

/-! ## 対の切り替え -/

def resolveSequentialActivePull (core paired : String) (activePull : String → Bool) :
    String × String :=
  if paired = "" then ("", "")
  else if activePull paired && !activePull core then (core, paired)
  else if activePull core && !activePull paired then (paired, core)
  else (core, paired)

/--
from-claim の対。`claimPair` は node に効いている claim の相手で、どちらかが無ければ空文字列。
`orderID` は task の追う complex order（`next_material_order_id`）。
-/
structure SequentialPair where
  core : String
  paired : String
  claimPair : String → String
  orderID : Nat

def SequentialPair.flipABNode (p : SequentialPair) (node : String) (pull : String → Bool) :
    Option (String → Bool) :=
  if p.claimPair node = "" then none
  else some (Function.update (Function.update pull node true) (p.claimPair node) false)

/-- 一度の click で成功するもの。active_pull の読めない node（`runtimeOk`）は飛ばされる。 -/
structure CutoverAttempt where
  readsOk : Bool := true
  runtimeOk : String → Bool := fun _ => true
  flipOk : Bool := true
  reply : ReleaseReply := {}
  calledBy : String := ""

structure PullWorld where
  activePull : String → Bool
  edge : ChangeoverWorld

/-- 側を切り替えてから、待っている order を `ReleaseOrderWithLineside` で放す。 -/
def sequentialChangeoverCutover (p : SequentialPair) (w : PullWorld) (a : CutoverAttempt) :
    PullWorld × Bool :=
  let inactive := (resolveSequentialActivePull p.core p.paired fun n =>
    a.runtimeOk n && w.activePull n).1
  match if a.readsOk && inactive != "" && a.flipOk then p.flipABNode inactive w.activePull
    else none with
  | none => (w, false)
  | some activePull =>
    let r := w.edge.releaseOrderWithLineside p.orderID
      { mode := .captureLineside, calledBy := a.calledBy } a.reply
    ({ activePull, edge := r.1 }, r.2)

/-- click のほかに、order の status の知らせなども届く。 -/
inductive CutoverAction where
  | click (a : CutoverAttempt)
  | edge (a : ChangeoverAction)

def cutoverStep (p : SequentialPair) (nodes : Nat → Option String) (w : PullWorld) :
    CutoverAction → PullWorld
  | .click a => (sequentialChangeoverCutover p w a).1
  | .edge a => { w with edge := changeoverStep nodes w.edge a }

/-! ## 立ち上げ -/

/-- `reconcileNodeTask` の場合分け。失敗した leg も取り消された leg も、終わりとして数える。 -/
def recoveredState (state : NodeTaskState) (supplyEnded evacEnded : Bool) : NodeTaskState :=
  match state with
  | .stagingRequested => if supplyEnded then .staged else .stagingRequested
  | .releaseRequested => if supplyEnded then .released else .releaseRequested
  | .emptyRequested => if evacEnded then .lineCleared else .emptyRequested
  | state => state

/-- `reconcileNodeTask` が task に残す state。`ended` は、読めて終わっている order。 -/
def reconcileNodeTask (task : NodeTask) (ended : Nat → Bool) : NodeTaskState :=
  recoveredState task.state (task.nextMaterialOrderID.any ended)
    (task.oldMaterialReleaseOrderID.any ended)

/-! ## leg の終わり -/

inductive OrderType where
  | retrieve
  | retrieveEmpty
  | store
  | move
  | complex
  | ingest
  deriving DecidableEq

/-- failed の文面のうち、`isNoBinFailure` と `isCapacityBlocked` の見分けるもの。 -/
inductive FailReason where
  | noBin
  | capacity
  | other

inductive FinalStatus where
  | confirmed
  | failed
  | cancelled
  | skipped
  deriving DecidableEq

/-- 終わった leg。`inboundStaging` は、行き先が to-claim の inbound staging であること。 -/
structure EndedLeg where
  id : Nat
  status : FinalStatus
  orderType : OrderType := .complex
  inboundStaging : Bool := false
  reason : FailReason := .other

variable (task : NodeTask) (leg : EndedLeg)

/-- task の state を書く行（`completionChain`）と、`handleOrphanedTaskOrderCompleted`。 -/
def handleNodeOrderCompleted : NodeTask :=
  let supply := task.nextMaterialOrderID == some leg.id
  let evac := task.oldMaterialReleaseOrderID == some leg.id
  { task with
    state :=
      match leg.status with
      | .confirmed =>
        if supply && leg.inboundStaging then .staged
        else if evac && leg.orderType == .complex
            && (task.situation == .swap || task.situation == .evacuate) then .released
        else if evac && (leg.orderType == .move || leg.orderType == .complex) then
          if task.state.isTerminal task.situation then task.state else .lineCleared
        else if supply then .released
        else task.state
      | .cancelled => if supply || evac then .abandoned else task.state
      | .failed => if supply || evac then .error else task.state
      | .skipped => task.state }

def handleNodeOrderFailed : NodeTask :=
  if task.nextMaterialOrderID == some leg.id || task.oldMaterialReleaseOrderID == some leg.id then
    { task with
      state :=
        match task.situation, leg.reason with
        | .drop, .noBin => .lineCleared
        | .drop, .capacity => .capacityBlocked
        | _, _ => .error }
  else task

/-- `HandleSkipped`（`orders/manager_status.go`）。飛ばされた leg は、済んだものとして書く。 -/
def handleSkipped : NodeTask :=
  { task with
    state :=
      if task.oldMaterialReleaseOrderID == some leg.id then .lineCleared
      else if task.nextMaterialOrderID == some leg.id then .released
      else task.state }

/-- 終わりの event の後に、failed は失敗の event が、skipped は `HandleSkipped` の書き込みが続く。 -/
def legEnded : NodeTask :=
  match leg.status with
  | .failed => handleNodeOrderFailed (handleNodeOrderCompleted task leg) leg
  | .skipped => handleSkipped (handleNodeOrderCompleted task leg) leg
  | .confirmed | .cancelled => handleNodeOrderCompleted task leg

end Shingo.Edge.Changeover
