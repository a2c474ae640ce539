import Mathlib.Data.List.Basic

/-!
# 行程（`resolvedStep`）と block

`shingo-core/dispatch/complex_steps.go` の、行程を wait で割る関数と
fleet の block を作る関数。

行程は steps_json に保存され、wait を境に区間に分かれる。
最初の区間は発注時に送り（`splitAtWait`）、残りは wait が解けるたびに
一区間ずつ足す（`splitSegment`）。
node を持つ wait は block（BinTask = Wait）を出し、持たない wait（bare wait）は
区切りの印にすぎないが、どちらも wait としては一つに数える。
-/

namespace Shingo.Dispatch

inductive StepAction where
  | pickup
  | dropoff
  | wait
  deriving DecidableEq

/-- wait を解くのは誰か。無印は pre-ruling の行程で、station のものとして読む。 -/
inductive WaitKind where
  | untagged
  | station
  | lane
  | other (tag : String)
  deriving DecidableEq

def WaitKind.isStationWait : WaitKind → Bool
  | .station => true
  | .untagged => true
  | _ => false

/-- `node` が空の wait が bare wait。`waitLane` の 0 は「無し」。 -/
structure ResolvedStep where
  action : StepAction
  node : String := ""
  group : String := ""
  empty : Bool := false
  exclusiveSlot : Bool := false
  waitKind : WaitKind := .untagged
  waitLane : Nat := 0
  deriving DecidableEq

def ResolvedStep.isWait (s : ResolvedStep) : Bool := s.action == .wait

def ResolvedStep.producesBlock (s : ResolvedStep) : Bool := s.action != .wait || s.node != ""

def splitAtWait : List ResolvedStep → List ResolvedStep × Bool
  | [] => ([], false)
  | s :: rest =>
    if s.isWait then
      if s.node != "" then ([s], true) else ([], true)
    else (s :: (splitAtWait rest).1, (splitAtWait rest).2)

/--
`splitSegment` の一つ目のループ。`waitIndex + 1` 個目の wait の直後の添字を返す。
`i` は読んでいる位置、`waitsSeen` はそれまでに見た wait の数。
-/
def findStart (waitIndex : Nat) : Nat → Nat → List ResolvedStep → Option Nat
  | _, _, [] => none
  | i, waitsSeen, s :: rest =>
    if s.isWait then
      if waitsSeen + 1 = waitIndex + 1 then some (i + 1)
      else findStart waitIndex (i + 1) (waitsSeen + 1) rest
    else findStart waitIndex (i + 1) waitsSeen rest

/-- `splitSegment` の三つ目のループ。`i` から先で区間が終わる添字と、wait が残っているか。 -/
def findEnd : Nat → List ResolvedStep → Nat × Bool
  | i, [] => (i, false)
  | i, s :: rest =>
    if s.isWait then
      if s.node != "" then (i + 1, true) else (i, true)
    else findEnd (i + 1) rest

structure Segment where
  segment : List ResolvedStep
  moreWaits : Bool
  blockOffset : Nat

def splitSegment (steps : List ResolvedStep) (waitIndex : Nat) : Option Segment :=
  match findStart waitIndex 0 0 steps with
  | none => none
  | some startIdx =>
    let blockOffset := (steps.take startIdx).countP ResolvedStep.producesBlock
    let (endIdx, moreWaits) := findEnd startIdx (steps.drop startIdx)
    some { segment := (steps.take endIdx).drop startIdx, moreWaits, blockOffset }

def waitAtFrom (waitIndex : Nat) : Nat → List ResolvedStep → Option ResolvedStep
  | _, [] => none
  | seen, s :: rest =>
    if s.isWait = false then waitAtFrom waitIndex seen rest
    else if seen = waitIndex then some s
    else waitAtFrom waitIndex (seen + 1) rest

def waitAt (steps : List ResolvedStep) (waitIndex : Nat) : Option ResolvedStep :=
  waitAtFrom waitIndex 0 steps

/-! ## block -/

structure OrderBlock where
  blockID : String
  location : String
  binTask : String
  deriving DecidableEq

def binTaskForAction : StepAction → String
  | .pickup => "JackLoad"
  | .dropoff => "JackUnload"
  | .wait => "Wait"

variable (vendorOrderID : String)

def mintBlockID (n : Nat) : String :=
  vendorOrderID ++ "-b" ++ toString n

def loadBlockID (base k : Nat) : String :=
  if k = 0 then mintBlockID vendorOrderID base
  else mintBlockID vendorOrderID base ++ "-" ++ toString k

def loadBlocks (base : Nat) (s : ResolvedStep) (loadSeq : List String) : List OrderBlock :=
  loadSeq.zipIdx.map fun (task, k) =>
    { blockID := loadBlockID vendorOrderID base k, location := s.node, binTask := task }

def stepsToBlocksFrom (vendorOrderID : String) (loadSeq : List String) :
    Nat → Bool → List ResolvedStep → List OrderBlock
  | _, _, [] => []
  | n, loadExpanded, s :: rest =>
    -- bare wait は番号 `i` を進めるが block は出さない
    if s.action = .wait ∧ s.node = "" then
      stepsToBlocksFrom vendorOrderID loadSeq (n + 1) loadExpanded rest
    else if 0 < loadSeq.length ∧ loadExpanded = false ∧ s.action = .pickup then
      loadBlocks vendorOrderID (n + 1) s loadSeq
        ++ stepsToBlocksFrom vendorOrderID loadSeq (n + 1) true rest
    else
      { blockID := mintBlockID vendorOrderID (n + 1), location := s.node,
        binTask := binTaskForAction s.action }
        :: stepsToBlocksFrom vendorOrderID loadSeq (n + 1) loadExpanded rest

def stepsToBlocks (steps : List ResolvedStep) (blockOffset : Nat)
    (loadSeq : List String) : List OrderBlock :=
  stepsToBlocksFrom vendorOrderID loadSeq blockOffset false steps

/-! ## 行程の引き直し -/

structure ComplexOrderStep where
  action : StepAction
  node : String := ""
  empty : Bool := false
  exclusiveSlot : Bool := false
  waitKind : WaitKind := .untagged

/-- 受付で slot が足りなければ、行程を引かずに残す。 -/
def stepsAsResolved (steps : List ComplexOrderStep) : List ResolvedStep :=
  steps.map fun s => ⟨s.action, s.node, "", s.empty, s.exclusiveSlot, .untagged, 0⟩

section

variable {ε : Type} (isNGRP : String → Bool)
  (resolveStepNode : ComplexOrderStep → Except ε (String × String))

/-- lane の wait と、group の名でない node の step はそのまま。 -/
def reResolveStep (s : ResolvedStep) : Except ε ResolvedStep :=
  if s.node = "" ∨ s.waitKind = .lane ∨ isNGRP s.node = false then .ok s
  else match resolveStepNode ⟨s.action, s.node, s.empty, s.exclusiveSlot, .untagged⟩ with
    | .error e => .error e
    | .ok (node, group) => .ok ⟨s.action, node, group, s.empty, s.exclusiveSlot, .untagged, 0⟩

def reResolveFrom : Nat → List ResolvedStep → Except (Nat × ε) (List ResolvedStep)
  | _, [] => .ok []
  | i, s :: rest =>
    match reResolveStep isNGRP resolveStepNode s, reResolveFrom (i + 1) rest with
    | .error e, _ => .error (i, e)
    | _, .error e => .error e
    | .ok s, .ok rest => .ok (s :: rest)

/-- 引けない step があれば、元の行程と、何番目かを返す。二つ目は、node が変わったか。 -/
def reResolveComplexSteps (steps : List ResolvedStep) :
    List ResolvedStep × Bool × Option (Nat × ε) :=
  match reResolveFrom isNGRP resolveStepNode 0 steps with
  | .error e => (steps, false, some e)
  | .ok new => (new, new.map (·.node) != steps.map (·.node), none)

end

end Shingo.Dispatch
