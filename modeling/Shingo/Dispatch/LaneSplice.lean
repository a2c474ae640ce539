import Shingo.Dispatch.LaneHold
import Shingo.Dispatch.OrderBins

/-!
# 行程に lane の wait を挟む

`shingo-core/dispatch/lane_gate_dispatch.go` の `spliceLaneWait` と、挟んだ後の二つの検査。

一回り目は、印のある lane に入る一歩（`Gate`）を数える。`inside` は、いま居ると見た lane で、
0 は印のある lane の外。pickup と dropoff だけを見て、wait は飛ばす。
二回り目は、数えた一歩の前に wait を挟む。

`splice_reindex.go` は、挟んだ分だけ `order_bins` の `step_index` を動かす。
-/

namespace Shingo.Dispatch

open Core

structure LaneGateTarget where
  lane : NodeRow
  gatePoint : String
  deriving DecidableEq

def LaneGateTarget.wait (t : LaneGateTarget) : ResolvedStep :=
  { action := .wait, node := t.gatePoint, waitKind := .lane, waitLane := t.lane.id }

structure Gate where
  idx : Nat
  target : LaneGateTarget

structure SpliceWalk where
  gates : List Gate := []
  blankAt : Option Nat := none
  inside : Nat := 0

inductive SpliceError where
  | blankBeforeEntry (blankAt last : Nat)
  | entryUnresolved (node : String)
  | gatesNothing (i lane : Nat) (node laneName : String)
  | dwellUnresolved (i : Nat) (node : String)
  | dwellOutside (i lane : Nat) (node laneName : String)
  | dwellFirst (i : Nat)
  | dwellNotAfterPickup (i : Nat) (action : StepAction)
  | liftUnresolved (i : Nat) (node : String)
  | liftElsewhere (i lane : Nat) (node laneName : String)
  | unknownOwner (i : Nat) (node : String) (kind : WaitKind)
  deriving DecidableEq

def nodeName (n : Option NodeRow) : String := (n.map NodeRow.name).getD "(unbound)"

def ResolvedStep.isLaneWait (s : ResolvedStep) : Bool := s.isWait && s.waitKind == .lane

namespace LaneMap

variable (m : LaneMap)

def gateTargetForLane (lane : NodeRow) : Option LaneGateTarget :=
  if lane.parentID.isNone then none
  else if m.laneIsGated lane.id then some ⟨lane, m.laneWaitPoint lane.id⟩
  else none

def gateOf (s : ResolvedStep) : Option LaneGateTarget :=
  if s.node = "" then none else (m.laneOf s.node).bind m.gateTargetForLane

def spliceStep (st : SpliceWalk) (e : ResolvedStep × Nat) : SpliceWalk :=
  if e.1.isWait then st
  else if e.1.node = "" then { st with blankAt := st.blankAt.or (some e.2) }
  else
    match m.gateOf e.1 with
    | none => { st with inside := 0 }
    | some t =>
      if t.lane.id = st.inside then st
      else { st with gates := st.gates ++ [⟨e.2, t⟩], inside := t.lane.id }

def insertWaits : List Gate → List (ResolvedStep × Nat) → List ResolvedStep
  | _, [] => []
  | [], e :: rest => e.1 :: insertWaits [] rest
  | g :: gates, e :: rest =>
    if g.idx = e.2 then g.target.wait :: e.1 :: insertWaits gates rest
    else e.1 :: insertWaits (g :: gates) rest

def mustBeIn (name : String) (laneID : Nat) (unresolved : SpliceError)
    (elsewhere : String → SpliceError) : Except SpliceError Unit :=
  match m.plant.getNodeByDotName name with
  | none => .error unresolved
  | some node =>
    let lane := m.plant.laneForNode node
    if lane.any (·.id == laneID) then .ok () else .error (elsewhere (nodeName lane))

def assertWaitGatesAnAppend (prev : Option ResolvedStep) (i : Nat) (s : ResolvedStep) :
    Except SpliceError Unit := do
  m.mustBeIn s.node s.waitLane (.dwellUnresolved i s.node) (.dwellOutside i s.waitLane s.node)
  match prev with
  | none => throw (.dwellFirst i)
  | some p =>
    if p.action ≠ .pickup then throw (.dwellNotAfterPickup i p.action)
    m.mustBeIn p.node s.waitLane (.liftUnresolved i p.node) (.liftElsewhere i s.waitLane p.node)

def assertWaitGates (prev : Option ResolvedStep) (i : Nat) (s : ResolvedStep) :
    Option ResolvedStep → Except SpliceError Unit
  | none => m.assertWaitGatesAnAppend prev i s
  | some next =>
    m.mustBeIn next.node s.waitLane (.entryUnresolved next.node)
      (.gatesNothing i s.waitLane next.node)

def assertEachWaitGatesItsEntry (prev : Option ResolvedStep) (i : Nat) :
    List ResolvedStep → Except SpliceError Unit
  | [] => .ok ()
  | s :: rest => do
    if s.isLaneWait then m.assertWaitGates prev i s rest.head?
    assertEachWaitGatesItsEntry (some s) (i + 1) rest

def assertEveryWaitDeclaresAnOwner (steps : List ResolvedStep) : Except SpliceError Unit :=
  match steps.zipIdx.find? fun e => e.1.isWait && e.1.waitKind != .lane &&
      !e.1.waitKind.isStationWait with
  | some (s, i) => .error (.unknownOwner i s.node s.waitKind)
  | none => .ok ()

def spliceLaneWait (steps : List ResolvedStep) :
    Except SpliceError (List ResolvedStep × Option LaneGateTarget) :=
  let st := steps.zipIdx.foldl m.spliceStep {}
  match st.gates.head?, st.gates.getLast? with
  | some first, some last =>
    match st.blankAt.filter (· < last.idx) with
    | some blankAt => .error (.blankBeforeEntry blankAt last.idx)
    | none => do
      let out := insertWaits st.gates steps.zipIdx
      m.assertEachWaitGatesItsEntry none 0 out
      assertEveryWaitDeclaresAnOwner out
      return (out, some first.target)
  | _, _ => .ok (steps, none)

end LaneMap

/-! ## 控えの番号 -/

def shiftFrom (pre post : Nat) : List ResolvedStep → List (Nat × Nat)
  | [] => []
  | s :: rest =>
    if s.isLaneWait then shiftFrom pre (post + 1) rest
    else if post ≠ pre then (pre, post) :: shiftFrom (pre + 1) (post + 1) rest
    else shiftFrom (pre + 1) (post + 1) rest

def spliceStepShift (spliced : List ResolvedStep) : List (Nat × Nat) := shiftFrom 0 0 spliced

def insertOrderBin (rows : List OrderBinRow) (r : OrderBinRow) : List OrderBinRow :=
  if rows.any (·.binID == r.binID) then rows.map fun q => if q.binID = r.binID then r else q
  else rows ++ [r]

def OrderBinRow.shift (moves : List (Nat × Nat)) (r : OrderBinRow) : OrderBinRow :=
  { r with stepIndex := (moves.lookup r.stepIndex).getD r.stepIndex }

/-- 負の番号に退けてから降ろすので、行は一斉に動く。 -/
def shiftOrderBinSteps (rows : List OrderBinRow) (moves : List (Nat × Nat)) : List OrderBinRow :=
  rows.map (·.shift moves)

inductive ReindexFault where
  | list
  | shift
  | reread
  deriving DecidableEq

/-- 二つ目は、error を返さなかったか。読み直した行の食い違いは log に残るだけ。 -/
def reindexOrderBinsForSplice (rows : List OrderBinRow) (spliced : List ResolvedStep)
    (fault : Option ReindexFault) : List OrderBinRow × Bool :=
  let moves := spliceStepShift spliced
  if moves = [] then (rows, true)
  else if fault = some .list then (rows, false)
  else
    let applicable := moves.filter fun e => rows.any (·.stepIndex == e.1)
    if applicable = [] then (rows, true)
    else if fault = some .shift then (rows, false)
    else (shiftOrderBinSteps rows applicable, fault ≠ some .reread)

/--
scanner の一度の試み。`claimed` は allocator の書く行で、書けない行（`insertOk`）は log に残る
だけ。`spliced` は、`steps` に lane の wait を挟んだもの。
-/
structure SpliceAttempt where
  steps : List ResolvedStep
  spliced : List ResolvedStep
  claimed : List OrderBinRow
  insertOk : Nat → Bool := fun _ => true
  fault : Option ReindexFault := none

def SpliceAttempt.replay (st : List OrderBinRow × Bool) (a : SpliceAttempt) :
    List OrderBinRow × Bool :=
  reindexOrderBinsForSplice
    ((a.claimed.filter fun r => a.insertOk r.binID).foldl insertOrderBin st.1) a.spliced a.fault

end Shingo.Dispatch
