import Shingo.Dispatch.Order

/-!
# wait を解く

`shingo-core/dispatch/complex_release.go` と `lane_gate_dispatch.go`。
停まっている order に次の区間を足すのは、操作者（`HandleOrderRelease`、
`HardReleaseStagedOrder`）と lane の門（`appendGateTail`）で、
どれも `appendSegmentAndAdvance` を通る。

一つの呼び出しは row を一度読み、その写しで次の区間を決め、fleet に足し、
`wait_index` を書き、status を進める。どの区切りの間にも別の呼び出しが入り、
どの書き込みも失敗しうる。
-/

namespace Shingo.Dispatch

/-! ## 写しの上の計算 -/

variable (o : Order)

def isGateStaged : Bool :=
  o.vendorOrderID != "" && (waitAt o.steps o.waitIndex).any fun w => w.waitKind == .lane

def patchLastDropoff (node : String) : List ResolvedStep → Option (List ResolvedStep)
  | [] => none
  | s :: rest =>
    match patchLastDropoff node rest with
    | some rest' => some (s :: rest')
    | none => if s.action = .dropoff then some ({ s with node } :: rest) else none

def patchRedirectSegments (segment : List ResolvedStep) (deliveryNode : String)
    (moreWaits : Bool) : List ResolvedStep :=
  if deliveryNode = "" || moreWaits then segment
  else (patchLastDropoff deliveryNode segment).getD segment

def applyPlanNode (steps : List ResolvedStep) (node : String) (stepIndex : Nat)
    (want : StepAction) : List ResolvedStep :=
  match steps[stepIndex]? with
  | none => steps
  | some s => if s.action = want then steps.set stepIndex { s with node } else steps

def rebound (steps : List ResolvedStep) (retrieve : Bool) (node : String) : Order :=
  if retrieve then { o with steps, sourceNode := node } else { o with steps, deliveryNode := node }

/-! ## 呼び出し -/

/-- 解こうとしている呼び出しの、今いる所。`o` は呼び出しが持っている row の写し。 -/
inductive ReleasePC where
  | gate (o : Order)
  | ready (o : Order) (g : Segment)
  | landed (o : Order)
  | advanced (o : Order)
  | returned

def handleOrderRelease : Option ReleasePC :=
  if o.status = .faulted then none
  else if o.status ≠ .staged ∧ o.status ≠ .inTransit then none
  else if isGateStaged o then none
  else
    (splitSegment o.steps o.waitIndex).map fun g =>
      .ready o { g with segment := patchRedirectSegments g.segment o.deliveryNode g.moreWaits }

def hardReleaseStagedOrder : Option ReleasePC :=
  if o.status ≠ .staged ∧ o.status ≠ .inTransit then none
  else
    match splitSegment o.steps o.waitIndex, waitAt o.steps o.waitIndex with
    | some g, some w =>
      if w.waitKind.isStationWait then none
      else
        some (.ready o
          { g with segment := patchRedirectSegments g.segment o.deliveryNode g.moreWaits })
    | _, _ => none

def appendGateTail (fresh o : Order) : Option ReleasePC :=
  if isGateStaged fresh then (splitSegment o.steps o.waitIndex).map (.ready o) else none

theorem released_ready {o : Order} {pc : ReleasePC}
    (h : handleOrderRelease o = some pc ∨ hardReleaseStagedOrder o = some pc) :
    ∃ g, splitSegment o.steps o.waitIndex = some g ∧ pc = .ready o
      { g with segment := patchRedirectSegments g.segment o.deliveryNode g.moreWaits } := by
  rcases h with h | h
  · unfold handleOrderRelease at h
    split at h
    · cases h
    split at h
    · cases h
    split at h
    · cases h
    · obtain ⟨g, hg, rfl⟩ := Option.map_eq_some_iff.mp h
      exact ⟨g, hg, rfl⟩
  · unfold hardReleaseStagedOrder at h
    split at h
    · cases h
    split at h
    · rename_i g wt hg hwt
      split at h
      · cases h
      · cases h
        exact ⟨g, hg, rfl⟩
    · cases h

theorem appendGateTail_ready {fresh o : Order} {pc : ReleasePC}
    (h : appendGateTail fresh o = some pc) :
    ∃ g, splitSegment o.steps o.waitIndex = some g ∧ pc = .ready o g := by
  unfold appendGateTail at h
  split at h
  · obtain ⟨g, hg, rfl⟩ := Option.map_eq_some_iff.mp h
    exact ⟨g, hg, rfl⟩
  · cases h

/-! ## 一つの order をめぐる動作 -/

inductive AppendOutcome where
  | ok
  | failed
  | lostReply
  deriving DecidableEq

/--
order の row、vendor order の持つ block、走っている呼び出し。

`accepted` は、fleet が受け取った区間が何番目の wait のものだったかの控え。
-/
structure ReleaseWorld where
  row : Order
  blocks : List OrderBlock
  accepted : List Nat
  calls : List ReleasePC

def ReleaseWorld.created (loadSeq : List String) : ReleaseWorld where
  row := { o with waitIndex := 0 }
  blocks := stepsToBlocks o.vendorOrderID (splitAtWait o.steps).1 0 loadSeq
  accepted := []
  calls := []

variable (w : ReleaseWorld)

def ReleaseWorld.start : Option ReleasePC → ReleaseWorld
  | none => w
  | some pc => { w with calls := w.calls ++ [pc] }

def ReleaseWorld.goto (i : Nat) (pc : ReleasePC) : ReleaseWorld :=
  { w with calls := w.calls.set i pc }

def segmentBlocks (g : Segment) : List OrderBlock :=
  stepsToBlocks o.vendorOrderID g.segment g.blockOffset []

def ReleaseWorld.rejects (blocks : List OrderBlock) : Bool :=
  blocks.any fun b => w.blocks.any fun b' => b'.blockID == b.blockID

def ReleaseWorld.releaseOrder (i : Nat) (o : Order) (g : Segment)
    (out : AppendOutcome) : ReleaseWorld :=
  let blocks := segmentBlocks o g
  if w.rejects blocks then w.goto i .returned
  else
    match out with
    | .failed => w.goto i .returned
    | .ok =>
      { (w.goto i (.landed o)) with
        blocks := w.blocks ++ blocks, accepted := w.accepted ++ [o.waitIndex] }
    | .lostReply =>
      { (w.goto i .returned) with
        blocks := w.blocks ++ blocks, accepted := w.accepted ++ [o.waitIndex] }

inductive ReleaseAction where
  | operatorRelease
  | hardRelease
  | gateLoad
  | rebind (i : Nat) (retrieve : Bool) (node : String) (stepIndex : Nat)
  | gateTail (i : Nat)
  | releaseOrder (i : Nat) (out : AppendOutcome)
  | writeWaitIndex (i : Nat) (ok : Bool)
  | transition (i : Nat) (ok : Bool)
  | abort (i : Nat)
  | setStatus (s : OrderStatus)
  | redirect (node : String)

def releaseStep : ReleaseAction → ReleaseWorld
  | .operatorRelease => w.start (handleOrderRelease w.row)
  | .hardRelease => w.start (hardReleaseStagedOrder w.row)
  | .gateLoad => w.start (some (.gate w.row))
  | .rebind i retrieve node stepIndex =>
    match w.calls[i]? with
    | some (.gate o) =>
      let steps := applyPlanNode o.steps node stepIndex (if retrieve then .pickup else .dropoff)
      { (w.goto i (.gate (rebound o steps retrieve node))) with
        row := rebound w.row steps retrieve node }
    | _ => w
  | .gateTail i =>
    match w.calls[i]? with
    | some (.gate o) => w.goto i ((appendGateTail w.row o).getD .returned)
    | _ => w
  | .releaseOrder i out =>
    match w.calls[i]? with
    | some (.ready o g) => w.releaseOrder i o g out
    | _ => w
  | .writeWaitIndex i ok =>
    match w.calls[i]? with
    | some (.landed o) =>
      if ok then
        { (w.goto i (.advanced o)) with row := { w.row with waitIndex := o.waitIndex + 1 } }
      else w.goto i .returned
    | _ => w
  | .transition i ok =>
    match w.calls[i]? with
    | some (.advanced o) =>
      -- 写しの status から進めてよく、row がまだその status のときだけ書く
      if isValidTransition o.status .inTransit && ok && w.row.status == o.status then
        { (w.goto i .returned) with row := { w.row with status := .inTransit } }
      else w.goto i .returned
    | _ => w
  | .abort i => w.goto i .returned
  | .setStatus s => { w with row := { w.row with status := s } }
  | .redirect node => { w with row := { w.row with deliveryNode := node } }

end Shingo.Dispatch
