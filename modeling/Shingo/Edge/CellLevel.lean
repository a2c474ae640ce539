import Shingo.Infra.Table
import Shingo.Infra.Run
import Shingo.Edge.HoldReplay
import Shingo.Edge.DemandEpisode

/-!
# cell の level と、共有する demand episode

`shingo-edge/engine/demand_episode.go` の `evaluateCellLevel`、`evaluateProduceLevel`、
`closeCellEpisode`、`openCellEpisode`、`engine/wiring_counter_delta.go` の `handleCounterDelta`、
`engine/demand_reconciler.go` の `cellPreconditionGone`、`store/demand_origins.go` の
`CellLevelStillBreached` / `CellPayloadStillClaimed` / `SetClaimBelowReorderSince`。

level の端は claim ごとに見て、claim の行の `below_reorder_since` に残す。episode の鍵は
process と payload と役割なので、A/B の両側は一つの episode を共有する。

`SetClaimBelowReorderSince` は RFC3339Nano で書き、`scanNodeClaim` は `ScanTime` の
`2006-01-02 15:04:05` で読む。書いた時刻は読めずに nil になるので、tick の見る claim に端は無い。
sweep の SQL は列が NULL かどうかだけを見る。

一つの process を見る。tick は node ごとの動作で、`handleCounterDelta` はその列。
-/

namespace Shingo.Edge

open Infra Protocol

/-! ## claim -/

/-- `style_node_claims` の行。`belowReorderSince` は level を越えた時刻。 -/
structure NodeClaim where
  id : Int
  styleID : Int
  coreNodeName : String
  role : ClaimRole
  manualSwap : Bool
  payloadCode : String
  uopCapacity : Int
  reorderPoint : Int
  autoReorder : Bool
  pairedCoreNode : String
  belowReorderSince : Option Nat

/-- 行を読んだ claim。書いた時刻は `ScanTime` の書式に合わず、`BelowReorderSince` は nil。 -/
def scanNodeClaim (c : NodeClaim) : NodeClaim :=
  { c with belowReorderSince := none }

/-- `style_node_claims`。id は主キー。 -/
structure ClaimTable where
  rows : List NodeClaim
  ids : (rows.map NodeClaim.id).Nodup

def NodeClaim.stamp (id : Int) (since : Option Nat) (c : NodeClaim) : NodeClaim :=
  if c.id = id then { c with belowReorderSince := since } else c

theorem NodeClaim.stamp_id (id : Int) (since : Option Nat) (c : NodeClaim) :
    (c.stamp id since).id = c.id := by
  unfold NodeClaim.stamp
  split <;> rfl

def ClaimTable.setBelow (t : ClaimTable) (id : Int) (since : Option Nat) : ClaimTable where
  rows := t.rows.map (NodeClaim.stamp id since)
  ids := by
    rw [List.map_map, show NodeClaim.id ∘ NodeClaim.stamp id since = NodeClaim.id from
      funext (NodeClaim.stamp_id id since)]
    exact t.ids

/-! ## level の端 -/

/--
`HysteresisMargin` の設定。`scaled` は `reorder_point` に百分率を掛けて整数にした値で、
浮動小数の丸めは問わない。
-/
structure Hysteresis where
  percentNegative : Bool
  scaled : Int → Int

def Hysteresis.margin (h : Hysteresis) (reorderPoint : Int) : Int :=
  if h.percentNegative || decide (reorderPoint ≤ 0) then 1
  else if h.scaled reorderPoint < 1 then 1
  else h.scaled reorderPoint

structure LevelEdge where
  write : Option (Option Nat)
  below : Bool
  shouldClose : Bool

def evaluateLevel (breached clear : Bool) (since : Option Nat) (now : Nat) : LevelEdge :=
  if breached then ⟨if since = none then some (some now) else none, true, false⟩
  else if clear then
    if since ≠ none then ⟨some none, false, true⟩ else ⟨none, false, false⟩
  else ⟨none, since.isSome, false⟩

def evaluateCellLevel (h : Hysteresis) (c : NodeClaim) (remainingUOP : Int) (now : Nat) :
    LevelEdge :=
  if c.reorderPoint ≤ 0 then ⟨none, false, false⟩
  else
    evaluateLevel (remainingUOP ≤ c.reorderPoint)
      (c.reorderPoint + h.margin c.reorderPoint < remainingUOP) c.belowReorderSince now

def evaluateProduceLevel (h : Hysteresis) (c : NodeClaim) (remainingUOP : Int) (now : Nat) :
    LevelEdge :=
  if c.uopCapacity ≤ 0 then ⟨none, false, false⟩
  else
    evaluateLevel (c.uopCapacity ≤ remainingUOP)
      (remainingUOP < c.uopCapacity - h.margin c.uopCapacity) c.belowReorderSince now

/-! ## process -/

structure CellNode where
  coreNodeName : String
  runtime : RuntimeState
  activePull : Bool

structure CellWorld where
  name : String
  activeStyleID : Option Int
  targetStyleID : Option Int
  nodes : List CellNode
  claims : ClaimTable
  episodes : String → EpisodeEdge

namespace CellWorld

variable (w : CellWorld)

def claimByNode (styleID : Int) (coreNodeName : String) : Option NodeClaim :=
  (w.claims.rows.find? fun c => c.styleID == styleID && c.coreNodeName == coreNodeName).map
    scanNodeClaim

/-- active の style に無ければ target の style を見る。 -/
def findActiveClaim (n : CellNode) : Option NodeClaim :=
  (w.activeStyleID.bind (w.claimByNode · n.coreNodeName)).or
    (w.targetStyleID.bind (w.claimByNode · n.coreNodeName))

def closeEpisode (key : String) (closed : EpisodeClose) (enqueueOk deleteOk : Bool) : CellWorld :=
  { w with
    episodes := Function.update w.episodes key ((w.episodes key).close closed enqueueOk deleteOk) }

theorem episodes_closeEpisode_self (key : String) (closed : EpisodeClose)
    (enqueueOk deleteOk : Bool) : (w.closeEpisode key closed enqueueOk deleteOk).episodes key
      = (w.episodes key).close closed enqueueOk deleteOk :=
  Function.update_self ..

theorem episodes_closeEpisode_of_ne {key key' : String} (hk : key' ≠ key)
    (closed : EpisodeClose) (enqueueOk deleteOk : Bool) :
    (w.closeEpisode key closed enqueueOk deleteOk).episodes key' = w.episodes key' :=
  Function.update_of_ne hk ..

def closeCellEpisode (payloadCode : String) (role : ClaimRole)
    (closed : EpisodeClose) (enqueueOk deleteOk : Bool) : CellWorld :=
  if w.name = "" then w
  else w.closeEpisode (cellEpisodeKey w.name payloadCode role) closed enqueueOk deleteOk

def cellContent (c : NodeClaim) (trigger : String) (expectedOrders : Int)
    (openedTotal : Int) (discretionary : Bool) (now : Nat) : EpisodeContent where
  kind := .cell
  direction := some c.role
  trigger := trigger
  triggerRef := "claim:" ++ toString c.id
  processID := w.name
  coreNodeName := c.coreNodeName
  payloadCode := c.payloadCode
  openedAt := now
  openedTotal := openedTotal
  threshold := c.reorderPoint
  expectedOrders := some expectedOrders
  expectedUnknownReason := ""
  rerequestCount := 0
  discretionary := discretionary

def openCellEpisode (c : NodeClaim) (originID : String) (content : EpisodeContent)
    (enqueueOk : Bool) : CellWorld :=
  if w.name = "" then w
  else
    let key := cellEpisodeKey w.name c.payloadCode c.role
    { w with
      episodes := Function.update w.episodes key
        ((w.episodes key).request key originID content enqueueOk) }

end CellWorld

/-! ## tick -/

/-- 一つの node の tick に入るもの。`drainQty` は手元の bucket の中身。 -/
structure TickInput where
  styleID : Int
  delta : Int
  drainQty : Int
  drainOk : Bool
  uopOk : Bool
  stampOk : Bool
  enqueueOk : Bool
  deleteOk : Bool
  now : Nat

def CellNode.inactivePaired (n : CellNode) (c : NodeClaim) : Bool :=
  c.pairedCoreNode != "" && !n.activePull

def CellNode.tick (n : CellNode) (role : TickRole) (c : NodeClaim) (delta : Int) : Tick where
  role := role
  payloadCode := c.payloadCode
  delta := delta
  runtime := n.runtime
  pc := .draining

def Tick.newRemaining (t : Tick) (input : Int) : Int :=
  if t.runtime.activeBinID.isSome then
    t.runtime.remainingUOPCached + t.role.sign * NodeWorld.binAttributed t input
  else t.runtime.remainingUOPCached

namespace CellWorld

variable (w : CellWorld)

def applyTick (i : Nat) (n : CellNode) (t : Tick) (input : Int) (ok : Bool) : CellWorld :=
  { w with
    nodes := w.nodes.set i
      { n with runtime := NodeWorld.applyHoldAndReplay n.runtime t input ok } }

def writeEdge (c : NodeClaim) (edge : LevelEdge) (ok : Bool) : CellWorld :=
  match edge.write with
  | none => w
  | some since => if ok then { w with claims := w.claims.setBelow c.id since } else w

def recoverEdge (c : NodeClaim) (edge : LevelEdge) (t : TickInput) : CellWorld :=
  let w := w.writeEdge c edge t.stampOk
  if edge.shouldClose then
    w.closeCellEpisode c.payloadCode c.role ⟨t.now, .recovered, some .notification⟩
      t.enqueueOk t.deleteOk
  else w

variable (h : Hysteresis)

/-- order の要求は別の動作。 -/
def handleConsumeTick (w : CellWorld) (i : Nat) (n : CellNode) (c : NodeClaim)
    (t : TickInput) : CellWorld :=
  let tick := n.tick .consume c t.delta
  let input := NodeWorld.drainLinesideFirst tick t.drainQty t.drainOk
  let newRemaining := tick.newRemaining input
  let w := w.applyTick i n tick input t.uopOk
  if c.autoReorder = false then w
  else if n.runtime.activeBinID.isNone then w
  else if c.reorderPoint ≤ 0 then w
  else if newRemaining ≤ c.reorderPoint then
    w.writeEdge c (evaluateCellLevel h c newRemaining t.now) t.stampOk
  else w.recoverEdge c (evaluateCellLevel h c newRemaining t.now) t

def handleProduceTick (w : CellWorld) (i : Nat) (n : CellNode) (c : NodeClaim)
    (t : TickInput) : CellWorld :=
  let tick := n.tick .produce c t.delta
  let newRemaining := tick.newRemaining t.delta
  let w := w.applyTick i n tick t.delta t.uopOk
  if c.autoReorder = false ∨ c.uopCapacity ≤ 0 then w
  else if n.runtime.activeBinID.isNone then w
  else if newRemaining < c.uopCapacity then
    w.recoverEdge c (evaluateProduceLevel h c newRemaining t.now) t
  else w.writeEdge c (evaluateProduceLevel h c newRemaining t.now) t.stampOk

def handleABFallthrough (i : Nat) (n : CellNode) (c : NodeClaim) (t : TickInput) : CellWorld :=
  let tick := n.tick .fallthrough c t.delta
  w.applyTick i n tick (NodeWorld.drainLinesideFirst tick t.drainQty t.drainOk) t.uopOk

def ticked (i : Nat) (styleID : Int) : Option (CellNode × NodeClaim) :=
  w.nodes[i]?.bind fun n => (w.findActiveClaim n).bind fun c =>
    if c.styleID ≠ styleID ∨ c.manualSwap = true then none else some (n, c)

def tickNode (w : CellWorld) (i : Nat) (t : TickInput) : CellWorld :=
  match w.ticked i t.styleID with
  | none => w
  | some (n, c) =>
    if n.inactivePaired c then w
    else
      match c.role with
      | .consume => w.handleConsumeTick h i n c t
      | .produce => w.handleProduceTick h i n c t

def fallthroughNode (i : Nat) (t : TickInput) : CellWorld :=
  match w.ticked i t.styleID with
  | none => w
  | some (n, c) => w.handleABFallthrough i n c t

def pairedFallback (styleID : Int) : Option Nat :=
  let consume := fun i : Nat => (w.ticked i styleID).filter fun nc => nc.2.role == .consume
  let handled := (List.range w.nodes.length).any fun i =>
    (consume i).any fun nc => nc.2.pairedCoreNode != "" && !nc.1.inactivePaired nc.2
  if handled then none
  else (List.range w.nodes.length).find? fun i =>
    (consume i).any fun nc => nc.1.inactivePaired nc.2

def handleCounterDelta (w : CellWorld) (styleID delta : Int)
    (input : Nat → TickInput) : CellWorld :=
  if styleID = 0 ∨ delta ≤ 0 then w
  else
    let inputAt := fun i => { input i with styleID, delta }
    -- tick は pull の側も claim の style も変えないので、残す node は始めに決まる
    let fallback := w.pairedFallback styleID
    let w := (List.range w.nodes.length).foldl (fun w i => w.tickNode h i (inputAt i)) w
    match fallback with
    | none => w
    | some i => w.fallthroughNode i (inputAt i)

/-! ## sweep -/

def claimsOf (ep : OpenOrigin) : List NodeClaim :=
  w.claims.rows.filter fun c =>
    w.activeStyleID == some c.styleID && (w.name == ep.content.processID
      && (c.payloadCode == ep.content.payloadCode && some c.role == ep.content.direction))

/-- level の列は見ず、`below_reorder_since` だけを読む。 -/
def cellPreconditionGone (ep : OpenOrigin) : Option CloseReason :=
  if (w.claimsOf ep).any fun c => c.belowReorderSince.isSome then none
  else if (w.claimsOf ep).isEmpty then some .claimRemoved
  else some .recovered

/-- `episodePreconditionGone` の cell の場合。changeover の episode は別の鍵。 -/
def episodePreconditionGone (ep : OpenOrigin) : Option CloseReason :=
  if ep.content.kind = .cell then w.cellPreconditionGone ep else none

end CellWorld

structure SweepInput where
  key : String
  readOk : Bool
  enqueueOk : Bool
  deleteOk : Bool
  now : Nat

namespace CellWorld

def reconcile (w : CellWorld) (ep : OpenOrigin) (s : SweepInput) : CellWorld :=
  if s.readOk then
    match w.episodePreconditionGone ep with
    | none => w
    | some reason =>
      w.closeEpisode ep.episodeKey ⟨s.now, reason, some .sweep⟩ s.enqueueOk s.deleteOk
  else w

def listOpen (w : CellWorld) (inputs : List SweepInput) : List (OpenOrigin × SweepInput) :=
  inputs.filterMap fun s => (w.episodes s.key).row.map fun ep => (ep, s)

def reconcileDemandEpisodes (w : CellWorld) (inputs : List SweepInput) : CellWorld :=
  (w.listOpen inputs).foldl (fun w p => w.reconcile p.1 p.2) w

end CellWorld

/-! ## 動作 -/

inductive CellAction where
  | tick (i : Nat) (t : TickInput)
  | fallthrough (i : Nat) (t : TickInput)
  | setNode (i : Nat) (runtime : RuntimeState) (activePull : Bool)
  | setStyles (active target : Option Int)
  | request (c : NodeClaim) (originID trigger : String) (expectedOrders openedTotal : Int)
      (discretionary enqueueOk : Bool) (now : Nat)
  | sweep (inputs : List SweepInput)

def cellStep (h : Hysteresis) (w : CellWorld) : CellAction → CellWorld
  | .tick i t => w.tickNode h i t
  | .fallthrough i t => w.fallthroughNode i t
  | .setNode i runtime activePull =>
    { w with nodes := w.nodes.modify i fun n => { n with runtime, activePull } }
  | .setStyles active target => { w with activeStyleID := active, targetStyleID := target }
  | .request c originID trigger expectedOrders openedTotal discretionary enqueueOk now =>
    w.openCellEpisode c originID
      (w.cellContent c trigger expectedOrders openedTotal discretionary now) enqueueOk
  | .sweep inputs => w.reconcileDemandEpisodes inputs

theorem handleCounterDelta_steps (h : Hysteresis) (w : CellWorld) (styleID delta : Int)
    (input : Nat → TickInput) :
    ∃ acts, w.handleCounterDelta h styleID delta input = runSteps (cellStep h) w acts := by
  unfold CellWorld.handleCounterDelta
  split
  · exact ⟨[], rfl⟩
  dsimp only
  split
  · refine ⟨(List.range w.nodes.length).map fun i => .tick i { input i with styleID, delta }, ?_⟩
    rw [runSteps, List.foldl_map]
    rfl
  · next i _ =>
    refine ⟨((List.range w.nodes.length).map fun i => .tick i { input i with styleID, delta })
      ++ [.fallthrough i { input i with styleID, delta }], ?_⟩
    rw [runSteps, List.foldl_append, List.foldl_map]
    rfl

end Shingo.Edge
