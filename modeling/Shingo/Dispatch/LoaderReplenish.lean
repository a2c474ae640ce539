import Mathlib.Data.List.Sort
import Shingo.Dispatch.Order

/-!
# loader の補充

`shingo-core/dispatch/loader_replenish.go` の `ReplenishLoader`、`loader_sizing.go` の
`BinsToReachThreshold`、`store/loaders/targets.go` の `DeliveryTargets`、`shared/windoworder`。

`ReplenishLoader` は lock を持たず、閾値の監視は鍵ごとの間隔しか見ないので、呼び出しは幾つでも
並んで進む。どの呼び出しも一文ずつ進め、文の間にほかの呼び出しの文を挟めるようにする。
-/

namespace Shingo.Dispatch

/-! ## 窓の順 -/

structure LoaderWindow where
  ordinal : Int
  name : String

/--
`LessName`。数字の並びは数として、ほかは文字として比べる。先頭の 0 だけが違う名前は、
どちらも先にならない。
-/
def lessName : List Char → List Char → Bool
  | a :: as, b :: bs =>
    if a.isDigit != b.isDigit then decide (a < b)
    else if !a.isDigit then
      if a != b then decide (a < b) else lessName as bs
    else
      let aRun := (a :: as.takeWhile Char.isDigit).dropWhile (· == '0')
      let bRun := (b :: bs.takeWhile Char.isDigit).dropWhile (· == '0')
      if aRun.length != bRun.length then decide (aRun.length < bRun.length)
      else if aRun != bRun then decide (aRun < bRun)
      else lessName (as.dropWhile Char.isDigit) (bs.dropWhile Char.isDigit)
  | [], _ :: _ => true
  | _, [] => false
termination_by as _ => as.length
decreasing_by
  · exact Nat.lt_succ_self _
  · exact Nat.lt_succ_of_le (List.dropWhile_sublist _).length_le

def LoaderWindow.less (a b : LoaderWindow) : Bool :=
  if a.ordinal != b.ordinal then decide (a.ordinal < b.ordinal)
  else lessName a.name.toList b.name.toList

/-! ## 届け先 -/

inductive LoaderLayout where
  | sharedWindow
  | dedicatedPositions

structure LoaderHome where
  positionNodeID : Nat
  payloadCode : String := ""
  sortOrder : Int := 0

structure LoaderTarget where
  nodeName : String
  payloadCode : String := ""

inductive LoaderReplenishment where
  | operator
  | threshold
  deriving DecidableEq

structure LoaderReplenishConfig where
  layout : LoaderLayout
  funnelWindows : Bool := false
  homes : List LoaderHome
  nodeNames : List (Nat × String)
  payloads : List String := []
  replenishment : LoaderReplenishment := .threshold
  inboundSource : String

namespace LoaderReplenishConfig

variable (cfg : LoaderReplenishConfig)

/-- 名前の無い home は飛ばす。窓は payload を持たない。 -/
def sharedWindows : List LoaderTarget :=
  let windows := cfg.homes.filterMap fun h =>
    (cfg.nodeNames.lookup h.positionNodeID).map (LoaderWindow.mk h.sortOrder)
  (windows.insertionSort fun a b => ¬ b.less a).map fun w => { nodeName := w.name }

def homeTarget (p : String → LoaderHome → Bool) (h : LoaderHome) : Option LoaderTarget :=
  (cfg.nodeNames.lookup h.positionNodeID).bind fun name =>
    if p name h then some { nodeName := name, payloadCode := h.payloadCode } else none

def deliveryTargets (member payloadCode : String) : List LoaderTarget × Nat :=
  match cfg.layout with
  | .sharedWindow =>
    if payloadCode != "" && !cfg.payloads.contains payloadCode then ([], 0)
    else if cfg.funnelWindows then (cfg.sharedWindows.take 1, (cfg.sharedWindows.take 1).length)
    else (cfg.sharedWindows, cfg.sharedWindows.length)
  | .dedicatedPositions =>
    let named := if member = "" then none else cfg.homes.findSome? (cfg.homeTarget fun name h =>
      name == member && (payloadCode == "" || h.payloadCode == payloadCode))
    let first := cfg.homes.findSome? (cfg.homeTarget fun _ h => h.payloadCode == payloadCode)
    match named.or first with
    | some t => ([t], 1)
    | none => ([], 0)

end LoaderReplenishConfig

/-! ## 数 -/

inductive SizingOutcome where
  | ok
  | atThreshold
  | noCapacity

def binsToReachThreshold (threshold currentUOP perBinCapacity : Int) :
    Int × SizingOutcome × String :=
  if perBinCapacity ≤ 0 then
    (0, .noCapacity, s!"payload has no per-bin capacity (uop_capacity={perBinCapacity})")
  else
    let gap := threshold - max currentUOP 0
    if gap ≤ 0 then
      (0, .atThreshold, s!"currentUOP={currentUOP} already meets threshold={threshold}")
    else ((gap + perBinCapacity - 1) / perBinCapacity, .ok, "")

/-! ## order の表 -/

/-- `orders` の行。`uuidPrefix` は `edge_uuid` の前半で、後半は誰も読まない乱数。 -/
structure CarrierOrder where
  uuidPrefix : String
  stationID : String := ""
  sourceIntent : SourceIntent
  status : OrderStatus
  sourceNode : String := ""
  deliveryNode : String
  originID : String := ""
  originClass : String := ""

def loaderUUID : String := "core-l1-"

namespace CarrierOrder

def asksAt (node : String) (o : CarrierOrder) : Bool :=
  o.deliveryNode == node && o.sourceIntent == .empty && !o.status.isTerminal

def loaderAsksAt (node : String) (o : CarrierOrder) : Bool :=
  o.uuidPrefix == loaderUUID && o.asksAt node

end CarrierOrder

variable (orders : List CarrierOrder)

def countLiveCarrierRequests (node : String) : Nat :=
  orders.countP (CarrierOrder.asksAt node)

def countLiveOrdersByOrigin (originID : String) : Nat :=
  orders.countP fun o => o.originID == originID && !o.status.isTerminal

/-- `CountInFlightOrdersByDeliveryNodeExcluding`。まだ無い order を除くので、除くものは無い。 -/
def countInFlightOrders (node : String) : Nat :=
  orders.countP fun o => o.deliveryNode == node && !o.status.isTerminal && o.status != .queued

def setOrderStatus (id : Nat) (status : OrderStatus) : List CarrierOrder :=
  match orders[id]? with
  | none => orders
  | some o => orders.set id { o with status }

/-- `lifecycle.transition`。終わりへの書き込みは終わっていない行に当たる。ほかは表の行き先だけ。 -/
def transitionOrder (id : Nat) (dst : OrderStatus) : List CarrierOrder :=
  match orders[id]? with
  | none => orders
  | some o =>
    if isValidTransition o.status dst || (dst.isTerminal && !o.status.isTerminal) then
      setOrderStatus orders id dst
    else orders

/-! ## 一文ずつ進む呼び出し -/

structure ReplenishRequest where
  stationID : String := ""
  loaderID : Int
  payloadCode : String
  memberNode : String := ""
  threshold : Int
  currentUOP : Int
  perBinCapacity : Int
  originID : String := ""
  originClass : String := ""

inductive ReplenishSkip where
  | noLoader
  | operatorDriven
  | noInboundSource
  | sizing (detail : String)
  | unreadable
  | outstanding (outstanding : Nat) (want : Int)
  | noTarget (loaderID : Int) (payloadCode : String)

structure ReplenishResult where
  want : Int := 0
  outstanding : Nat := 0
  created : List Nat := []
  heldBy : List (String × String) := []
  skipped : Option ReplenishSkip := none

structure ReplenishRun where
  req : ReplenishRequest
  inboundSource : String
  res : ReplenishResult
  want : Int
  rest : List LoaderTarget

inductive ReplenishCall where
  | outstanding (req : ReplenishRequest) (cfg : LoaderReplenishConfig) (want : Int)
  | findWindow (r : ReplenishRun) (t : LoaderTarget)
  | countBins (r : ReplenishRun) (t : LoaderTarget)
  | countInFlight (r : ReplenishRun) (t : LoaderTarget)
  | countLive (r : ReplenishRun) (t : LoaderTarget)
  | checkRefs (r : ReplenishRun) (t : LoaderTarget)
  | create (r : ReplenishRun) (deliveryNode : String)
  /-- `UpdateOrderStatus`。id だけで当たる、条件の無い `UPDATE`。 -/
  | markPending (r : ReplenishRun) (id : Nat)
  | queue (r : ReplenishRun) (id : Nat)
  | returned (res : ReplenishResult) (failed : Bool)

/-- `GetNodeByDotName` の答え。group の空きの答えは、塞がっていれば理由。 -/
inductive WindowNode where
  | missing
  | physical
  | synthetic (blocked : Option String)

/--
文の答えのうち、`orders` の表から決まらないもの。`ok` でないのは文の失敗、`resolved` は group の
届け先が選び直した node。
-/
structure ReplenishReply where
  ok : Bool := true
  node : WindowNode := .physical
  bins : Nat := 0
  resolved : Option String := none

namespace ReplenishRun

def next (r : ReplenishRun) : ReplenishCall :=
  match r.rest with
  | [] => .returned r.res false
  | t :: rest =>
    if r.want ≤ r.res.created.length then .returned r.res false
    else .findWindow { r with rest } t

def hold (r : ReplenishRun) (t : LoaderTarget) (cause : String) : ReplenishCall :=
  next { r with res := { r.res with
    heldBy := r.res.heldBy.filter (fun p => p.1 != t.nodeName) ++ [(t.nodeName, cause)] } }

def ask (r : ReplenishRun) (deliveryNode : String) : CarrierOrder where
  uuidPrefix := loaderUUID
  stationID := r.req.stationID
  sourceIntent := .empty
  status := .pending
  sourceNode := r.inboundSource
  deliveryNode := deliveryNode
  originID := r.req.originID
  originClass :=
    if r.req.originClass != "" then r.req.originClass
    else if r.req.originID != "" then "attached" else "orphan"

end ReplenishRun

namespace ReplenishCall

def start (req : ReplenishRequest) (cfg : LoaderReplenishConfig) : ReplenishCall :=
  if req.loaderID ≤ 0 then .returned { skipped := some .noLoader } false
  else if cfg.replenishment = .operator then .returned { skipped := some .operatorDriven } false
  else if cfg.inboundSource = "" then .returned { skipped := some .noInboundSource } false
  else
    match binsToReachThreshold req.threshold req.currentUOP req.perBinCapacity with
    | (want, .ok, _) => .outstanding req cfg want
    | (_, _, detail) => .returned { skipped := some (.sizing detail) } false

def resolveTargets (req : ReplenishRequest) (cfg : LoaderReplenishConfig) (want : Int)
    (outstanding : Nat) : ReplenishCall :=
  let res : ReplenishResult := { want, outstanding }
  if want - outstanding < want ∧ want - outstanding ≤ 0 then
    .returned { res with skipped := some (.outstanding outstanding want) } false
  else
    match cfg.deliveryTargets req.memberNode req.payloadCode with
    | ([], _) | (_, 0) =>
      .returned { res with skipped := some (.noTarget req.loaderID req.payloadCode) } false
    | (targets, _) =>
      ReplenishRun.next
        { req, inboundSource := cfg.inboundSource, res, want := want - outstanding,
          rest := targets }

def exec (orders : List CarrierOrder) (reply : ReplenishReply) :
    ReplenishCall → List CarrierOrder × ReplenishCall
  | .outstanding req cfg want =>
    if req.originID = "" then (orders, resolveTargets req cfg want 0)
    else if reply.ok then
      (orders, resolveTargets req cfg want (countLiveOrdersByOrigin orders req.originID))
    else (orders, .returned { want, skipped := some .unreadable } false)
  | .findWindow r t =>
    if t.nodeName = "" then (orders, .countLive r t)
    else if !reply.ok then (orders, r.hold t "capacity-check-failed")
    else
      match reply.node with
      | .missing | .synthetic none => (orders, .countLive r t)
      | .synthetic (some cause) => (orders, r.hold t cause)
      | .physical => (orders, .countBins r t)
  | .countBins r t =>
    if !reply.ok then (orders, r.hold t "capacity-check-failed")
    else if 0 < reply.bins then (orders, r.hold t "dropoff-occupied")
    else (orders, .countInFlight r t)
  | .countInFlight r t =>
    if !reply.ok then (orders, r.hold t "capacity-check-failed")
    else if 0 < countInFlightOrders orders t.nodeName then (orders, r.hold t "dropoff-inflight")
    else (orders, .countLive r t)
  | .countLive r t =>
    if !reply.ok then (orders, r.hold t "window-check-failed")
    else if 0 < countLiveCarrierRequests orders t.nodeName then
      (orders, r.hold t "window-order-open")
    else (orders, .checkRefs r t)
  | .checkRefs r t =>
    if reply.ok then (orders, .create r (reply.resolved.getD t.nodeName))
    else (orders, .returned r.res true)
  | .create r deliveryNode =>
    if reply.ok then (orders ++ [r.ask deliveryNode], .markPending r orders.length)
    else (orders, .returned r.res true)
  | .markPending r id =>
    (if reply.ok then setOrderStatus orders id .pending else orders,
      .queue { r with res := { r.res with created := r.res.created ++ [id] } } id)
  | .queue r id =>
    -- `transition` は手元の pending から queued への compare-and-swap で、失敗は log に残るだけ
    (if reply.ok && (orders[id]?).any (·.status == .pending) then setOrderStatus orders id .queued
      else orders, r.next)
  | .returned res failed => (orders, .returned res failed)

def asking : ReplenishCall → Option String
  | .checkRefs _ t => some t.nodeName
  | .create _ deliveryNode => some deliveryNode
  | _ => none

def marking : ReplenishCall → Option Nat
  | .markPending _ id => some id
  | _ => none

end ReplenishCall

/-! ## 並んで進む呼び出し -/

structure ReplenishWorld where
  orders : List CarrierOrder
  calls : List ReplenishCall

/-- その窓へ `ReplenishLoader` が頼んだ、終わっていない空の carrier の数。 -/
def ReplenishWorld.loaderAsks (w : ReplenishWorld) (node : String) : Nat :=
  w.orders.countP (CarrierOrder.loaderAsksAt node)

inductive ReplenishAction where
  | call (req : ReplenishRequest) (cfg : LoaderReplenishConfig)
  | statement (i : Nat) (reply : ReplenishReply)
  | transition (id : Nat) (dst : OrderStatus)
  | other (o : CarrierOrder)

def replenishStep (w : ReplenishWorld) : ReplenishAction → ReplenishWorld
  | .call req cfg => { w with calls := w.calls ++ [ReplenishCall.start req cfg] }
  | .statement i reply =>
    match w.calls[i]? with
    | none => w
    | some c =>
      { orders := (c.exec w.orders reply).1, calls := w.calls.set i (c.exec w.orders reply).2 }
  | .transition id dst => { w with orders := transitionOrder w.orders id dst }
  | .other o => if o.uuidPrefix = loaderUUID then w else { w with orders := w.orders ++ [o] }

end Shingo.Dispatch
