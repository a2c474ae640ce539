import Mathlib.Data.List.Sort
import Shingo.Dispatch.Order

/-!
# 取った bin の控え（`orders.bin_id` と `order_bins`）

`shingo-core/dispatch/allocator.go` の `confirmComplexPlan` のうち claim を取った後の部分と、
それが呼ぶ `complex_claims.go` の `resolvePerBinDestinations`。

order が指す bin は一つ（`bin_id`）で、bin が二つ以上のときだけ、取った pickup ごとに
`order_bins` の row を書く。row が言うのは、その bin を最初に取る node と、最後に着く node で、
途中で降ろす node は書かれない。claim と予約の書き込みは別に扱う（`Ledger.claimAndConfirm`）。
-/

namespace Shingo.Dispatch

structure ClaimedBin where
  binID : Nat
  stepIndex : Nat
  nodeName : String
  deriving DecidableEq

structure OrderBinRow where
  binID : Nat
  stepIndex : Nat
  action : StepAction
  nodeName : String
  destNode : String
  deriving DecidableEq

structure CargoOrder extends Order where
  binID : Option Nat := none
  orderBins : List OrderBinRow := []
  deriving DecidableEq

def CargoOrder.listOrderBins (order : CargoOrder) : List OrderBinRow :=
  order.orderBins.insertionSort fun a b => a.stepIndex ≤ b.stepIndex

/-! ## bin ごとの行き先 -/

structure DestinationLoop where
  carrying : Nat := 0
  binAtNode : String → Option Nat
  dest : Nat → Option String := fun _ => none

def DestinationLoop.step (st : DestinationLoop) (s : ResolvedStep) : DestinationLoop :=
  match s.action with
  | .pickup =>
    match st.binAtNode s.node with
    | some binID =>
      { st with carrying := binID, binAtNode := Function.update st.binAtNode s.node none }
    | none => st
  | .dropoff =>
    if st.carrying ≠ 0 then
      { carrying := 0
        binAtNode := Function.update st.binAtNode s.node (some st.carrying)
        dest := Function.update st.dest st.carrying (some s.node) }
    else st
  | .wait => st

variable {d : DestinationLoop} {st : ResolvedStep} {b : Nat}

theorem DestinationLoop.step_pickup (hact : st.action = .pickup)
    (hat : d.binAtNode st.node = some b) : d.step st =
      { d with carrying := b, binAtNode := Function.update d.binAtNode st.node none } := by
  simp only [DestinationLoop.step, hact, hat]

theorem DestinationLoop.step_dropoff (hact : st.action = .dropoff) (hcarry : d.carrying = b)
    (hpos : b ≠ 0) : d.step st =
      { carrying := 0
        binAtNode := Function.update d.binAtNode st.node (some b)
        dest := Function.update d.dest b (some st.node) } := by
  simp only [DestinationLoop.step, hact, hcarry, if_pos hpos]

def resolvePerBinDestinations (steps : List ResolvedStep) (claimedBins : String → Option Nat) :
    Nat → Option String :=
  (steps.foldl DestinationLoop.step { binAtNode := claimedBins }).dest

def claimedMap (claimed : List ClaimedBin) : String → Option Nat :=
  claimed.foldl (fun m cb => Function.update m cb.nodeName (some cb.binID)) fun _ => none

/-! ## 控えを書く -/

def primaryBin (processNode : String) (claimed : List ClaimedBin) : Option ClaimedBin :=
  (claimed.find? (·.nodeName == processNode)).or claimed.head?

def orderBinFor (dest : Nat → Option String) (cb : ClaimedBin) : OrderBinRow where
  binID := cb.binID
  stepIndex := cb.stepIndex
  action := .pickup
  nodeName := cb.nodeName
  destNode := (dest cb.binID).getD ""

/--
`confirmComplexPlan` の、claim を取った後。`none` は、取った bin が無い（`codeNoBin`）。

compound の leg は、bin が二つあっても row を持たない。
-/
def confirmComplexPlan (order : CargoOrder) (claimed : List ClaimedBin) : Option CargoOrder :=
  let processNode := if order.processNode = "" then order.sourceNode else order.processNode
  (primaryBin processNode claimed).map fun primary =>
    { order with
      binID := some primary.binID
      orderBins :=
        if 1 < claimed.length ∧ order.parentOrderID = none then
          claimed.map (orderBinFor (resolvePerBinDestinations order.steps (claimedMap claimed)))
        else [] }

end Shingo.Dispatch
