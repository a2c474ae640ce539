import Shingo.Dispatch.Release

/-!
# 掘り出しの章の終わり

`shingo-core/dispatch/compound.go` の `advanceCompoundChapterEnd`。pending の leg が尽きたとき、
章が終わったのかを leg の status と detail から読み取り、親をどうするかを決める。

章の境は表に無い。章を終わらせた leg のうち最も新しいものが境で、それより前の終わった leg は
閉じた章のものとして数えない（`compoundGenerations`）。

二つの読み取りはどちらも失敗しうる。失敗は log に残るだけで、leg の一覧は空、親は nil として先へ
進む。
-/

namespace Shingo.Dispatch

/-! ## 章の境 -/

/-- 掘り出しの leg。 -/
structure Leg where
  id : Int
  status : OrderStatus
  errorDetail : String := ""
  deriving DecidableEq

def reshuffleDissolveDetail : String :=
  "reshuffle dissolved: the dig's plan went stale; re-planning"

def reshuffleLegFailedDetail : String :=
  "reshuffle dissolved: a dig leg failed; the demand re-plans"

def chapterEndCancelDetails : List String := [reshuffleDissolveDetail, reshuffleLegFailedDetail]

def isChapterEndCancel (reason : String) : Bool := chapterEndCancelDetails.any (reason == ·)

def configFailurePrefix : String := "config failure: "

def isConfigFailure (detail : String) : Bool :=
  configFailurePrefix.toList.isPrefixOf detail.toList

/-- 章を終わらせた leg。 -/
def endsItsChapter (c : Leg) : Bool :=
  if c.status = .failed then !isConfigFailure c.errorDetail
  else c.status == .cancelled && isChapterEndCancel c.errorDetail

variable (children : List Leg)

/-- 章を終わらせた leg の、最も新しい id。 -/
def chapterBoundary : Option Int :=
  children.foldl (fun boundary c =>
    if endsItsChapter c then
      match boundary with
      | none => some c.id
      | some b => some (if b < c.id then c.id else b)
    else boundary) none

/-- 閉じた章の leg。 -/
def isClosed (boundary : Option Int) (c : Leg) : Bool :=
  boundary.any fun b => c.status.isTerminal && decide (c.id ≤ b)

/-- 今の章の leg と、閉じた章の有無。 -/
def compoundGenerations : List Leg × Bool :=
  (children.filter fun c => !isClosed (chapterBoundary children) c,
    (chapterBoundary children).isSome)

def digWasDissolved : Bool :=
  (compoundGenerations children).2 && (compoundGenerations children).1.isEmpty

def configFailedLeg (openLegs : List Leg) : Option Leg :=
  openLegs.find? fun c => c.status == .failed && isConfigFailure c.errorDetail

def newestEnding : Option Leg :=
  children.foldl (fun newest c =>
    if endsItsChapter c then
      match newest with
      | none => some c
      | some n => some (if n.id < c.id then c else n)
    else newest) none

def chapterEndedInFailure : Bool :=
  (newestEnding children).any fun n =>
    !(n.status == .cancelled && n.errorDetail == reshuffleDissolveDetail)

/-! ## 親の行き先 -/

structure CompoundParent where
  order : Order
  coordinated : Bool := false
  openForChildren : Bool := false

/-- 親の始末。 -/
inductive Disposition where
  | left
  | failed (detail : String)
  | waiting
  | parked
  | requeued (detail : String)
  | stillOpen
  | appended
  | resumed
  | completed
  | unread
  deriving DecidableEq

/-- lane の始末。 -/
inductive LaneDisposal where
  | keep
  | unlock
  | decide

structure ChapterEnd where
  disposition : Disposition
  cancels : List Int
  lanes : LaneDisposal

def hasFailedOrCancelled (openLegs : List Leg) : Bool :=
  openLegs.any fun c => c.status == .failed || c.status == .cancelled

def allTerminal (openLegs : List Leg) : Bool := openLegs.all (·.status.isTerminal)

def CompoundParent.inPlay (p : CompoundParent) : Bool :=
  p.order.status == .reshuffling || isGateStaged p.order

def CompoundParent.dwells (p : CompoundParent) : Bool :=
  isGateStaged p.order && !p.order.status.isTerminal

/-- 途中で止まった章。 -/
def chapterStopped (children openLegs : List Leg) (parent : Option CompoundParent) : ChapterEnd :=
  match configFailedLeg openLegs with
  | some broken =>
    -- 設定の誤りだけは、demand を失敗させる
    { disposition := if parent.isSome then .failed broken.errorDetail else .unread
      cancels := [], lanes := .unlock }
  | none =>
    let cancels :=
      if parent.isSome && hasFailedOrCancelled openLegs then
        (openLegs.filter fun c => !c.status.isTerminal).map Leg.id
      else []
    if !allTerminal openLegs then { disposition := .waiting, cancels, lanes := .keep }
    else
      match parent with
      | none => { disposition := .unread, cancels, lanes := .unlock }
      | some p =>
        if p.dwells then { disposition := .parked, cancels, lanes := .decide }
        else
          { disposition := .requeued (if chapterEndedInFailure children then
              reshuffleLegFailedDetail else reshuffleDissolveDetail)
            cancels, lanes := .unlock }

/-- 最後まで済んだ章。 -/
def chapterFinished (parent : Option CompoundParent) : ChapterEnd :=
  match parent with
  | none => { disposition := .unread, cancels := [], lanes := .decide }
  | some p =>
    if p.openForChildren then { disposition := .stillOpen, cancels := [], lanes := .keep }
    else if isGateStaged p.order then
      { disposition := .appended, cancels := [], lanes := .decide }
    else if p.coordinated then { disposition := .resumed, cancels := [], lanes := .decide }
    else { disposition := .completed, cancels := [], lanes := .decide }

def advanceCompoundChapterEnd (listed : Option (List Leg)) (parent : Option CompoundParent) :
    ChapterEnd :=
  let children := listed.getD []
  let openLegs := (compoundGenerations children).1
  if parent.any fun p => !p.inPlay then { disposition := .left, cancels := [], lanes := .keep }
  else if digWasDissolved children || hasFailedOrCancelled openLegs then
    chapterStopped children openLegs parent
  else if !allTerminal openLegs then { disposition := .waiting, cancels := [], lanes := .keep }
  else chapterFinished parent

end Shingo.Dispatch
