import Shingo.Edge.ChangeoverRelease

/-!
# changeover の order を作り、取り消し、締める

`shingo-edge/engine` の `changeover_applier.go`（`applyChangeoverPlan`、`applyNodeAction`）、
`operator_changeover_cancel.go`（`cancelProcessChangeoverInternal`）、
`operator_changeover_cutover.go`（`canCompleteChangeover`、`completeCutover`）、
`operator_node_changeover.go`（作業者が頼む order）と、`orders/manager_create.go`。

order は一つずつ作られ、最後にまとめて task に結ばれる。取り消しも締めも、order をその結びから探す。
途中で戻ると、作った order は結ばれずに残る。
-/

namespace Shingo.Edge.Changeover

open Dispatch
open Infra

/-! ## 行程 -/

/-- 行程の一歩。 -/
structure ComplexOrderStep where
  action : StepAction
  node : String

/-- 終わりに node に bin が残る。 -/
def legPlacesBinAt (steps : List ComplexOrderStep) (node : String) : Bool :=
  if node = "" then false
  else steps.foldl
    (fun placed s =>
      if s.node ≠ node then placed
      else match s.action with
        | .dropoff => true
        | .pickup => false
        | .wait => placed)
    false

/-! ## 計画 -/

/-- 作る order。 -/
inductive OrderSpec where
  | complex (deliveryNode : String) (steps : List ComplexOrderStep)
  | retrieve (deliveryNode : String)
  | empty

/-- node の計画。 -/
structure NodeAction where
  nodeID : Nat
  supplyOrder : Option OrderSpec := none
  evacOrder : Option OrderSpec := none
  nextState : Option NodeTaskState := none
  failed : Bool := false

/-! ## 表 -/

/--
edge の `orders` の行。`steps` は steps_json で、単純な order には無い。

`madeFor` は、その order を `applyNodeAction` が作った changeover。どの関数も読まない。
-/
structure LegOrder where
  id : Nat
  status : OrderStatus
  steps : Option (List ComplexOrderStep)
  deliveryNode : String
  madeFor : Option Nat

/-- `orderPlacesBinAtAny`。単純な order は行き先で、ほかは行程で決まる。 -/
def LegOrder.placesBinAtAny (o : LegOrder) (nodes : List String) : Bool :=
  match o.steps with
  | none => nodes.any fun n => n ≠ "" && n == o.deliveryNode
  | some steps => nodes.any (legPlacesBinAt steps)

/-- `orderGatesCutover`。行程の無い order は、行き先を見ずに止める。 -/
def LegOrder.gatesCutover (o : LegOrder) (readable : Bool) (participants : List String) : Bool :=
  match readable, o.steps with
  | true, some steps => participants.any (legPlacesBinAt steps)
  | _, _ => true

/-- changeover の state。 -/
inductive ChangeoverState where
  | active
  | completed
  | cancelled
  deriving DecidableEq

/-- changeover の行。 -/
structure ChangeoverRow where
  id : Nat
  processID : Nat
  state : ChangeoverState
  deriving DecidableEq

/-- edge の表。`participants` は `changeover_participants`。`nextID` は次に振る番号。 -/
structure Tables where
  changeovers : List ChangeoverRow := []
  participants : Nat → List String := fun _ => []
  tasks : List NodeTask := []
  orders : List LegOrder := []
  nextID : Nat := 1

/-- order を作る途中のどこまで行けたか。 -/
inductive CreateOutcome where
  | refused
  | stepsLost
  /-- 行は入った。`submitted` は Core への envelope が出せたこと、`readBack` は最後の読み直し。 -/
  | stored (submitted readBack : Bool)

/-- node の計画の書き込みごとの成否。 -/
structure ApplyOutcome where
  taskOk : Bool := true
  supply : CreateOutcome := .stored true true
  refetchOk : Bool := true
  evac : CreateOutcome := .stored true true
  linkOk : Bool := true
  stateOk : Bool := true

namespace Tables

variable (t : Tables)

def getOrder (id : Nat) : Option LegOrder := t.orders.find? (·.id == id)

/-- 進行中の changeover。 -/
def activeChangeover (processID : Nat) : Option ChangeoverRow :=
  t.changeovers.find? fun c => c.processID == processID && c.state == .active

/-- changeover の task。 -/
def tasksOf (co : Nat) : List NodeTask := t.tasks.filter (·.changeoverID == co)

/-- node の task。 -/
def taskByNode (co nodeID : Nat) : Option NodeTask :=
  t.tasks.find? fun task => task.changeoverID == co && task.processNodeID == nodeID

def setStatus (id : Nat) (status : OrderStatus) : Tables :=
  { t with orders := updateWhere (·.id == id) (fun o => { o with status }) t.orders }

def setTaskState (id : Nat) (state : NodeTaskState) (ok : Bool) : Tables :=
  if ok then
    { t with tasks := updateWhere (·.id == id) (fun task => { task with state }) t.tasks }
  else t

def setChangeover (id : Nat) (state : ChangeoverState) : Tables :=
  { t with changeovers := updateWhere (·.id == id) (fun c => { c with state }) t.changeovers }

/-- `none` の側の結びは元のまま。 -/
def linkChangeoverNodeOrders (id : Nat) (next old : Option Nat) : Tables :=
  { t with
    tasks := updateWhere (·.id == id)
      (fun task => { task with
        nextMaterialOrderID := next.or task.nextMaterialOrderID
        oldMaterialReleaseOrderID := old.or task.oldMaterialReleaseOrderID })
      t.tasks }

/-- order の行を足す。 -/
def insertOrder (madeFor : Option Nat) (status : OrderStatus)
    (steps : Option (List ComplexOrderStep)) (deliveryNode : String) : Tables :=
  { t with
    orders := t.orders ++ [{ id := t.nextID, status, steps, deliveryNode, madeFor }]
    nextID := t.nextID + 1 }

/-! ## 作って結ぶ -/

/-- 返り値は order の番号。`none` は誤り。 -/
def createPlannedOrder (madeFor : Option Nat) : OrderSpec → CreateOutcome → Tables × Option Nat
  | .empty, _ => (t, some 0)
  | .complex deliveryNode steps, .stored submitted readBack =>
    (t.insertOrder madeFor (if submitted then .submitted else .pending) (some steps) deliveryNode,
      if readBack then some t.nextID else none)
  | .complex deliveryNode _, .stepsLost =>
    (t.insertOrder madeFor .pending none deliveryNode, none)
  | .retrieve deliveryNode, .stored submitted readBack =>
    (t.insertOrder madeFor (if submitted then .submitted else .pending) none deliveryNode,
      if readBack then some t.nextID else none)
  | _, _ => (t, none)

/-- 計画に無い leg は作らない。 -/
def createLeg (co : Nat) (spec : Option OrderSpec) (out : CreateOutcome) :
    Tables × Option (Option Nat) :=
  match spec with
  | none => (t, some none)
  | some spec =>
    let r := t.createPlannedOrder (some co) spec out
    (r.1, r.2.map some)

/-- order を task に結び、state を進める。 -/
def linkAndAdvance (task : NodeTask) (a : NodeAction) (out : ApplyOutcome)
    (supplyID evacID : Option Nat) : Tables :=
  let linked :=
    if (supplyID.isSome || evacID.isSome) && out.linkOk then
      t.linkChangeoverNodeOrders task.id supplyID evacID
    else t
  match a.nextState with
  | some state => linked.setTaskState task.id state out.stateOk
  | none => linked

/-- supply、evac の順に作って結ぶ。 -/
def applyNodeAction (co : Nat) (task : NodeTask) (a : NodeAction) (out : ApplyOutcome) : Tables :=
  match t.createLeg co a.supplyOrder out.supply with
  | (t₁, none) => failed t₁
  | (t₁, some supplyID) =>
    -- evac に持たせる uuid の読み直し
    if supplyID.any fun id => !out.refetchOk || (t₁.getOrder id).isNone then failed t₁
    else
      match t₁.createLeg co a.evacOrder out.evac with
      | (t₂, none) => failed t₂
      | (t₂, some evacID) => t₂.linkAndAdvance task a out supplyID evacID
where
  failed (t : Tables) : Tables := t.setTaskState task.id .error out.stateOk

/-- task の読めない node は飛ばす。 -/
def applyPlanned (co : Nat) (t : Tables) (p : NodeAction × ApplyOutcome) : Tables :=
  match p.2.taskOk, t.taskByNode co p.1.nodeID with
  | true, some task =>
    if p.1.failed then t.setTaskState task.id .error p.2.stateOk
    else t.applyNodeAction co task p.1 p.2
  | _, _ => t

def applyChangeoverPlan (co : Nat) (plan : List (NodeAction × ApplyOutcome)) : Tables :=
  plan.foldl (applyPlanned co) t

end Tables

/-- 取り消しの読み書きの成否。 -/
structure CancelReply where
  listOk : Bool := true
  readOk : Nat → Bool := fun _ => true
  abortOk : Nat → Bool := fun _ => true
  taskStateOk : Bool := true
  stateOk : Bool := true

/-- task に結ばれた order。 -/
def linksOf (task : NodeTask) : List Nat :=
  [task.nextMaterialOrderID, task.oldMaterialReleaseOrderID].filterMap id

namespace Tables

/-- 終わっていない order を取り消す。 -/
def abortLinked (reply : CancelReply) (t : Tables) (id : Nat) : Tables :=
  match t.getOrder id with
  | none => t
  | some o =>
    if !reply.readOk id || o.status.isTerminal then t
    else if reply.abortOk id then t.setStatus id .cancelled
    else t

/-- task と結ばれた order を取り消す。 -/
def cancelTask (reply : CancelReply) (t : Tables) (task : NodeTask) : Tables :=
  ((linksOf task).foldl (abortLinked reply) t).setTaskState task.id .cancelled reply.taskStateOk

/-- `cancelProcessChangeoverInternal`。task の一覧が読めなくても、changeover は cancelled になる。 -/
def cancelProcessChangeover (t : Tables) (processID : Nat) (reply : CancelReply) : Tables :=
  match t.activeChangeover processID with
  | none => t
  | some c =>
    let tasks := if reply.listOk then t.tasksOf c.id else []
    let t₁ := tasks.foldl (cancelTask reply) t
    if reply.stateOk then t₁.setChangeover c.id .cancelled else t₁

end Tables

/-! ## 締め -/

namespace Tables

variable (t : Tables)

def slotOf (supply : Bool) (task : NodeTask) : Option Nat :=
  if supply then task.nextMaterialOrderID else task.oldMaterialReleaseOrderID

/-- 前の order が終わっている。 -/
def canRequestOrder : Option Nat → Bool
  | none => true
  | some id => (t.getOrder id).any (·.status.isTerminal)

/--
`StageNodeChangeoverMaterial`、`DeliverNewMaterialForChangeover`（`supply`）と `EvacuateNode`。

`spec` が無いのは、order を作らずに task だけを進めること。移動の order は `retrieve` と同じく
行程を持たない。
-/
def requestOrder (processID nodeID : Nat) (supply : Bool) (spec : Option OrderSpec)
    (state : NodeTaskState) (out : ApplyOutcome) : Tables :=
  match t.activeChangeover processID with
  | none => t
  | some c =>
    match t.taskByNode c.id nodeID with
    | none => t
    | some task =>
      if task.state.isTerminal task.situation || !t.canRequestOrder (slotOf supply task) then t
      else
        match spec with
        | none => t.setTaskState task.id state out.stateOk
        | some spec =>
          match t.createPlannedOrder none spec out.supply with
          | (t₁, none) => t₁
          | (t₁, some id) =>
            let t₂ :=
              if out.linkOk then
                if supply then t₁.linkChangeoverNodeOrders task.id (some id) none
                else t₁.linkChangeoverNodeOrders task.id none (some id)
              else t₁
            t₂.setTaskState task.id state out.stateOk

/-! ## ほかの書き込み -/

end Tables

/-! ## 出来事 -/

end Shingo.Edge.Changeover
