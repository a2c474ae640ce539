import Shingo.Infra.Table
import Shingo.Dispatch.Order

/-!
# changeover の release

`shingo-edge/engine` の `operator_changeover_release.go`（`releaseChangeoverWaitScoped`）、
`handler_bin_picked_up.go`（`HandleBinPickedUp`）、`operator_release.go`
（`ReleaseOrderWithLineside`）、`operator_stations.go`（`releaseIfReleasable`、
`ReleaseStagedOrders`）、`wiring_status_changed.go`（`handleSiblingReleaseRefire`）と、
`orders/manager_lifecycle.go` の `ReleaseOrderWithDisposition`。

evac と supply が対になった task では、作業者の click は evac だけを動かす。supply は、evac の robot が
古い bin を持ち上げた知らせを受けたときに動かす。
-/

namespace Shingo.Edge

open Dispatch
open Infra

/-! ## 送る中身 -/

inductive ReleaseMode where
  | none
  | captureLineside
  | sendPartialBack
  | releaseUnderpack
  deriving DecidableEq

structure ReleaseDisposition where
  mode : ReleaseMode := .none
  linesideCapture : List (String × Int) := []
  partialCount : Option Int := none
  calledBy : String := ""

inductive UOPDisposition where
  | releaseEmpty
  | pullParts (captures : List (String × Int))
  | releasePartial (count : Int)
  | releaseUnderpack (countSuggested : Int)

variable (disp : ReleaseDisposition)

def ReleaseDisposition.partialBack (cached : Int) : Int :=
  match disp.partialCount with
  | some n => if 0 < n then n else max cached 0
  | none => max cached 0

def computeReleaseRemainingUOP (cached : Int) (resolvedBin : Option Int) : Option Int :=
  match disp.mode with
  | .captureLineside =>
    if disp.linesideCapture.isEmpty || resolvedBin.isNone then some 0 else none
  | .sendPartialBack => some (disp.partialBack cached)
  | .releaseUnderpack => some 0
  | .none => none

def buildProtocolDisposition (cached : Int) : Option UOPDisposition :=
  match disp.mode with
  | .captureLineside =>
    if disp.linesideCapture.isEmpty then some .releaseEmpty
    else some (.pullParts disp.linesideCapture)
  | .sendPartialBack => some (.releasePartial (disp.partialBack cached))
  | .releaseUnderpack => some (.releaseUnderpack cached)
  | .none => none

structure OrderRelease where
  orderUUID : String
  remainingUOP : Option Int
  disposition : Option UOPDisposition
  calledBy : String

/-! ## 表 -/

structure EdgeOrder where
  id : Nat
  uuid : String
  status : OrderStatus
  processNodeID : Option Nat
  binID : Option Int := none

inductive Situation where
  | unchanged
  | evacuate
  | swap
  | drop
  | add
  deriving DecidableEq

inductive NodeTaskState where
  | swapRequired
  | stagingRequested
  | emptyRequested
  | releaseRequested
  | staged
  | lineCleared
  | released
  | switched
  | unchanged
  | verified
  | cancelled
  | error
  | awaitingMaterial
  | abandoned
  | capacityBlocked
  deriving DecidableEq

def NodeTaskState.isTerminal (s : NodeTaskState) (situation : Situation) : Bool :=
  match s with
  | .switched | .verified | .unchanged | .released | .abandoned => true
  | .lineCleared | .capacityBlocked => situation == .drop
  | _ => false

/-- `changeover_node_tasks` の行。supply は `next_material_order_id`、evac は
`old_material_release_order_id`。 -/
structure NodeTask where
  id : Nat
  changeoverID : Nat
  processNodeID : Nat
  situation : Situation
  state : NodeTaskState
  nextMaterialOrderID : Option Nat
  oldMaterialReleaseOrderID : Option Nat

/-- `process_node_runtime` の行のうち、release と持ち上げの知らせが読み書きする列。 -/
structure NodeRuntime where
  activeOrderID : Option Nat := none
  activeBinID : Option Int := none
  remainingUOPCached : Int := 0

/-- edge の表と outbox。`pendingSibling` は `pendingSiblingRelease`。 -/
structure ChangeoverWorld where
  activeChangeover : Option Nat
  tasks : List NodeTask
  orders : List EdgeOrder
  runtime : Nat → NodeRuntime
  pendingSibling : Nat → Option ReleaseDisposition := fun _ => none
  sent : List OrderRelease := []

/-- 活きた claim。`toStyle` は changeover の行き先の claim として見つかったことを言う。 -/
inductive ReleaseClaim where
  | missing
  | found (toStyle produce : Bool)

/-- 一つの release の中の、ここに無い表と電文の答え。`isSupply` が無いのは、steps が読めないこと。 -/
structure ReleaseReply where
  nodeFound : Bool := true
  claim : ReleaseClaim := .found true false
  isSupply : Option Bool := some false
  lineBin : Option Int := none
  captureOk : Bool := true
  enqueueOk : Bool := true

def ReleaseReply.succeeds (r : ReleaseReply) : Bool :=
  r.nodeFound && r.isSupply.isSome && r.captureOk && r.enqueueOk

def releasableAtCore (s : OrderStatus) : Bool := s == .staged || s == .inTransit

namespace ChangeoverWorld

variable (w : ChangeoverWorld)

def order (id : Nat) : Option EdgeOrder := w.orders.find? (·.id == id)

def taskByEvac (id : Nat) : Option NodeTask :=
  w.tasks.find? (·.oldMaterialReleaseOrderID == some id)

def setStatus (id : Nat) (status : OrderStatus) : ChangeoverWorld :=
  { w with orders := updateWhere (·.id == id) (fun o => { o with status }) w.orders }

def taskByNode (nodeID : Nat) : Option NodeTask :=
  w.tasks.find? fun t => some t.changeoverID == w.activeChangeover && t.processNodeID == nodeID

def setTaskState (id : Nat) (state : NodeTaskState) : ChangeoverWorld :=
  { w with tasks := updateWhere (·.id == id) (fun t => { t with state }) w.tasks }

def setRuntime (nodeID : Nat) (rt : NodeRuntime) : ChangeoverWorld :=
  { w with runtime := Function.update w.runtime nodeID rt }

/-! ## 一つの order の release -/

/--
`ReleaseOrderWithDisposition`。fleet に渡す前の order は何も送らずに成功を返す。送った後の
`TransitionOrder` が許されなければ、送ったまま error を返す。
-/
def releaseOrder (id : Nat) (remainingUOP : Option Int)
    (disposition : Option UOPDisposition) (calledBy : String) (enqueueOk : Bool) :
    ChangeoverWorld × Bool :=
  match w.order id with
  | none => (w, false)
  | some o =>
    if o.status.isTerminal then (w, false)
    else if o.status = .pending ∨ o.status = .submitted then (w, true)
    else if !enqueueOk then (w, false)
    else
      let w' := { w with
        sent := w.sent ++ [{ orderUUID := o.uuid, remainingUOP, disposition, calledBy }] }
      if isValidTransition o.status .inTransit then (w'.setStatus id .inTransit, true)
      else (w', o.status == .inTransit)

def finalizeRelease (nodeID : Nat) (manifestUOP : Option Int) (toStyle : Bool) : ChangeoverWorld :=
  let w₁ := match manifestUOP with
    | some n => w.setRuntime nodeID { w.runtime nodeID with remainingUOPCached := n }
    | none => w
  match toStyle, w.taskByNode nodeID with
  | true, some t => w₁.setTaskState t.id .released
  | _, _ => w₁

def releaseOrderWithFullLineside (o : EdgeOrder) (nodeID : Nat)
    (disp : ReleaseDisposition) (toStyle isSupply : Bool) (reply : ReleaseReply) :
    ChangeoverWorld × Bool :=
  let cached := (w.runtime nodeID).remainingUOPCached
  let resolvedBin := o.binID.or
    (if disp.mode = .captureLineside ∧ disp.linesideCapture ≠ [] then reply.lineBin else none)
  -- supply の bin は棚から来たばかりなので、manifest には触らない
  let manifestUOP :=
    if isSupply then none else computeReleaseRemainingUOP disp cached resolvedBin
  if !reply.captureOk then (w, false)
  else
    (w.finalizeRelease nodeID manifestUOP toStyle).releaseOrder o.id manifestUOP
      (buildProtocolDisposition disp cached) disp.calledBy reply.enqueueOk

def releaseOrderWithLineside (id : Nat) (disp : ReleaseDisposition)
    (reply : ReleaseReply) : ChangeoverWorld × Bool :=
  match w.order id with
  | none => (w, false)
  | some o =>
    match o.processNodeID with
    | none => w.releaseOrder o.id none none disp.calledBy reply.enqueueOk
    | some nodeID =>
      if !reply.nodeFound then (w, false)
      else if (w.taskByEvac o.id).any (·.situation == .drop) then
        let cached := (w.runtime nodeID).remainingUOPCached
        w.releaseOrder o.id (computeReleaseRemainingUOP disp cached none)
          (buildProtocolDisposition disp cached) disp.calledBy reply.enqueueOk
      else
        match reply.claim, reply.isSupply with
        | .missing, _ => w.releaseOrder o.id none none disp.calledBy reply.enqueueOk
        | .found _ _, none => (w, false)
        | .found toStyle produce, some isSupply =>
          if produce then w.releaseOrder o.id none none disp.calledBy reply.enqueueOk
          else w.releaseOrderWithFullLineside o nodeID disp toStyle isSupply reply

end ChangeoverWorld

/-! ## 送れるときだけ送る -/

inductive ReleaseAttempt where
  | released
  | skipped
  | failed
  deriving DecidableEq

namespace ChangeoverWorld

def releaseIfReleasable (w : ChangeoverWorld) (id : Nat) (disp : ReleaseDisposition)
    (reply : ReleaseReply) : ChangeoverWorld × ReleaseAttempt :=
  match w.order id with
  | none => (w, .failed)
  | some o =>
    if o.status.isTerminal || !releasableAtCore o.status then (w, .skipped)
    else
      let r := w.releaseOrderWithLineside id disp reply
      (r.1, if r.2 then .released else .failed)

end ChangeoverWorld

/-! ## release wait の click -/

structure ReleaseWaitResult where
  released : Nat := 0
  pending : Nat := 0
  failures : Nat := 0

namespace ChangeoverWorld

variable (w : ChangeoverWorld)

def evacDispositionForTask (t : NodeTask) (override : ReleaseDisposition) : ReleaseDisposition :=
  if override.mode ≠ .none then override
  else
    let cached := (w.runtime t.processNodeID).remainingUOPCached
    if 0 < cached then
      { mode := .sendPartialBack, partialCount := some cached, calledBy := override.calledBy }
    else { mode := .captureLineside, calledBy := override.calledBy }

def releaseSlot (acc : ChangeoverWorld × ReleaseWaitResult) (id : Nat) (disp : ReleaseDisposition)
    (reply : ReleaseReply) : ChangeoverWorld × ReleaseWaitResult :=
  match acc.1.order id with
  | none => (acc.1, { acc.2 with failures := acc.2.failures + 1 })
  | some o =>
    if o.status.isTerminal then acc
    else if !releasableAtCore o.status then (acc.1, { acc.2 with pending := acc.2.pending + 1 })
    else
      let r := acc.1.releaseOrderWithLineside id disp reply
      (r.1, if r.2 then { acc.2 with released := acc.2.released + 1 }
        else { acc.2 with failures := acc.2.failures + 1 })

def releaseTaskSlots (only : Option Nat) (disp : ReleaseDisposition) (reply : Nat → ReleaseReply)
    (acc : ChangeoverWorld × ReleaseWaitResult) (t : NodeTask) :
    ChangeoverWorld × ReleaseWaitResult :=
  if t.situation = .unchanged ∨ only.any (· != t.processNodeID) then acc
  else
    match t.oldMaterialReleaseOrderID, t.nextMaterialOrderID with
    | some evac, some supply =>
      let acc' := releaseSlot acc evac (acc.1.evacDispositionForTask t disp) (reply evac)
      if (acc'.1.order supply).any (fun o => !o.status.isTerminal) then
        (acc'.1, { acc'.2 with pending := acc'.2.pending + 1 })
      else acc'
    | some evac, none => releaseSlot acc evac (acc.1.evacDispositionForTask t disp) (reply evac)
    | none, some supply => releaseSlot acc supply { calledBy := disp.calledBy } (reply supply)
    | none, none => acc

def releaseChangeoverWaitScoped (only : Option Nat)
    (disp : ReleaseDisposition) (reply : Nat → ReleaseReply) :
    ChangeoverWorld × ReleaseWaitResult :=
  match w.activeChangeover with
  | none => (w, { failures := 1 })
  | some co =>
    (w.tasks.filter (·.changeoverID == co)).foldl (releaseTaskSlots only disp reply) (w, {})

/-! ## 持ち上げた知らせ -/

def releaseDeferredSupply (evac : Nat) (reply : ReleaseReply) : ChangeoverWorld :=
  match w.taskByEvac evac with
  | none => w
  | some t =>
    let w₁ := match t.nextMaterialOrderID with
      | some supply => (w.releaseIfReleasable supply { calledBy := "auto-evac-pickup" } reply).1
      | none => w
    if t.situation = .drop ∧ t.state.isTerminal t.situation = false then
      w₁.setTaskState t.id .lineCleared
    else w₁

def clearPicked (nodeID orderID : Nat) (binID : Int) : ChangeoverWorld :=
  let rt := w.runtime nodeID
  w.setRuntime nodeID
    { rt with
      activeOrderID := if rt.activeOrderID = some orderID then none else rt.activeOrderID
      activeBinID := if rt.activeBinID = some binID then none else rt.activeBinID }

/-- 比べるだけなので文字の列のまま持つ。 -/
def trimSpace (s : String) : List Char :=
  let blank := fun c : Char => c.isWhitespace || c == '\x0b' || c == '\x0c' || c == '\u0085'
    || c == '\u00a0'
  ((s.toList.dropWhile blank).reverse.dropWhile blank).reverse

/--
`HandleBinPickedUp`。`nodes` は process node の Core での名前。知らせの場所がその node でなければ、
ほかの所での持ち上げなので何もしない。
-/
def handleBinPickedUp (nodes : Nat → Option String) (w : ChangeoverWorld) (uuid : String)
    (binID : Int) (location : String) (reply : ReleaseReply) : ChangeoverWorld :=
  match w.orders.find? (·.uuid == uuid) with
  | none => w
  | some o =>
    match o.processNodeID with
    | none => w
    | some nodeID =>
      match nodes nodeID with
      | none => w
      | some coreNodeName =>
        if location = "" ∨ trimSpace location ≠ trimSpace coreNodeName then w
        else (w.releaseDeferredSupply o.id reply).clearPicked nodeID o.id binID

/-! ## 二台の robot の release -/

def rememberDeferredSiblingRelease (id : Nat) (disp : ReleaseDisposition) : ChangeoverWorld :=
  if (w.order id).any (fun o => !o.status.isTerminal && !releasableAtCore o.status) then
    { w with pendingSibling := Function.update w.pendingSibling id (some disp) }
  else w

/-- `ReleaseStagedOrders` の、対が決まってから。片方だけ送れたら、もう片方を覚えておく。 -/
def releaseStagedOrders (evac supply : Nat) (disp : ReleaseDisposition)
    (evacReply supplyReply : ReleaseReply) : ChangeoverWorld :=
  let supplyDisp : ReleaseDisposition := { calledBy := disp.calledBy }
  let e := w.releaseIfReleasable evac disp evacReply
  if e.2 = .failed then e.1
  else
    let s := e.1.releaseIfReleasable supply supplyDisp supplyReply
    match e.2, s.2 with
    | .released, .skipped => s.1.rememberDeferredSiblingRelease supply supplyDisp
    | .skipped, .released => s.1.rememberDeferredSiblingRelease evac disp
    | _, _ => s.1

def handleSiblingReleaseRefire (id : Nat) (status : OrderStatus)
    (reply : ReleaseReply) : ChangeoverWorld :=
  let forgotten := { w with pendingSibling := Function.update w.pendingSibling id none }
  if status.isTerminal then forgotten
  else if status ≠ .staged then w
  else
    match w.pendingSibling id with
    | none => w
    | some disp => (forgotten.releaseIfReleasable id disp reply).1

def statusChanged (id : Nat) (status : OrderStatus) (reply : ReleaseReply) : ChangeoverWorld :=
  if (w.order id).any (fun o => !o.status.isTerminal && o.status != status) then
    (w.setStatus id status).handleSiblingReleaseRefire id status reply
  else w

end ChangeoverWorld

/-! ## 知らせと click -/

inductive ChangeoverAction where
  | releaseWait (only : Option Nat) (disp : ReleaseDisposition) (reply : Nat → ReleaseReply)
  | pickedUp (uuid : String) (binID : Int) (location : String) (reply : ReleaseReply)
  | status (id : Nat) (status : OrderStatus) (reply : ReleaseReply)
  | releaseStaged (evac supply : Nat) (disp : ReleaseDisposition)
      (evacReply supplyReply : ReleaseReply)

def changeoverStep (nodes : Nat → Option String) (w : ChangeoverWorld) :
    ChangeoverAction → ChangeoverWorld
  | .releaseWait only disp reply => (w.releaseChangeoverWaitScoped only disp reply).1
  | .pickedUp uuid binID location reply => w.handleBinPickedUp nodes uuid binID location reply
  | .status id status reply => w.statusChanged id status reply
  | .releaseStaged evac supply disp evacReply supplyReply =>
    w.releaseStagedOrders evac supply disp evacReply supplyReply

/-! ## 一文ずつの click -/

inductive ClickPC where
  | before
  | deferred
  | checked
  | returned
  deriving DecidableEq

structure SiblingLeg where
  status : OrderStatus
  click : ClickPC := .before
  pending : Bool := false
  queued : Bool := false
  deriving DecidableEq

/-- `check` と `record` は、`rememberDeferredSiblingRelease` の読みと書き。 -/
inductive SiblingAction where
  | release
  | check
  | record
  | changed (status : OrderStatus)

def SiblingLeg.released (l : SiblingLeg) : SiblingLeg :=
  { l with status := .inTransit, queued := true }

def siblingStep (l : SiblingLeg) : SiblingAction → SiblingLeg
  | .release =>
    if l.click ≠ .before then l
    else if l.status.isTerminal || !releasableAtCore l.status then { l with click := .deferred }
    else { l.released with click := .returned }
  | .check =>
    if l.click ≠ .deferred then l
    else if l.status.isTerminal || releasableAtCore l.status then { l with click := .returned }
    else { l with click := .checked }
  | .record => if l.click = .checked then { l with click := .returned, pending := true } else l
  | .changed status =>
    if l.status.isTerminal then l
    else if status.isTerminal then { l with status, pending := false }
    else if status = .staged ∧ l.pending then { l.released with pending := false }
    else { l with status }

end Shingo.Edge
