import Shingo.Dispatch.Order

/-!
# Core が Edge に知らせる order の status

Core の order は `validTransitions` の上を一歩ずつ動き、そのたびに Edge へ envelope を送る
（`shingo-core/engine/wiring.go`・`wiring_vendor_status.go`・`wiring_completion.go`、
`dispatch/dispatcher.go`・`complex_intake.go`、`fulfillment/scanner.go`）。

reshuffling への一歩、coordinated な order の dispatched への一歩、待つ理由の無い sourcing は何も
送らない。fleet の報告で動いた一歩は、専用の envelope のある status でも一般の update を送る。
-/

namespace Shingo.Core

open Dispatch

inductive OrderErrorCode where
  | manifestSyncFailed
  | invalidState
  | other (code : String)
  deriving DecidableEq

inductive CoreMessage where
  | ack
  | waybill
  | update (status : OrderStatus)
  | delivered
  | error (code : OrderErrorCode)
  | skipped
  | cancelled
  | staged
  deriving DecidableEq

structure CoreMove where
  dst : OrderStatus
  byFleet : Bool := false
  robotAssigned : Bool := false
  /-- 受け付け（`complex_intake.go`）、走査の発注、redirect の ack。 -/
  acked : Bool := false
  waybilled : Bool := false
  pushed : Bool := false
  /-- 受け付けと redirect の、queued という返事。その場で先へ進んだ後でも送る。 -/
  replied : Bool := false
  errorCode : String := ""

def CoreMove.announces (src : OrderStatus) (m : CoreMove) : List CoreMessage :=
  match m.dst with
  | .queued =>
    -- 掘り出しの済んだ親は、必ず queued を知らせる（`fireResumed`）
    (if src = .reshuffling then [.update .queued] else [])
      ++ (if m.acked then [.ack] else []) ++ (if m.pushed then [.update .queued] else [])
  | .sourcing => if m.pushed then [.update .sourcing] else []
  | .dispatched => (if m.acked then [.ack] else []) ++ (if m.waybilled then [.waybill] else [])
  | .inTransit => if m.byFleet then [.update .inTransit] else []
  | .staged => [.update .staged, .staged]
  | .faulted => [.update .faulted]
  | .delivered => [.delivered, .update .delivered]
  | .confirmed => [.update .confirmed]
  | .failed => [.error (.other m.errorCode)]
  | .cancelled => (if m.byFleet then [.update .cancelled] else []) ++ [.cancelled]
  | .skipped => [.skipped]
  | .acknowledged => if m.byFleet then [.update .acknowledged] else []
  | .pending | .submitted | .reshuffling => []

def CoreMove.sends (src : OrderStatus) (m : CoreMove) : List CoreMessage :=
  (if m.byFleet && m.robotAssigned then [.waybill] else []) ++ m.announces src
    ++ (if m.replied then [.update .queued] else [])

/-- 返事が遅れて出るのは、受け付けや redirect がその場で進めた先。 -/
def CoreMove.ReplyInPlace (m : CoreMove) : Prop :=
  m.replied = true → m.dst ∈ [.queued, .sourcing, .dispatched, .reshuffling, .skipped, .failed]
  deriving Decidable

def FollowsTable : OrderStatus → List CoreMove → Prop
  | _, [] => True
  | src, m :: rest => isValidTransition src m.dst = true ∧ m.ReplyInPlace ∧ FollowsTable m.dst rest

instance FollowsTable.decidable : ∀ src path, Decidable (FollowsTable src path)
  | _, [] => .isTrue trivial
  | _, m :: rest =>
    have := FollowsTable.decidable m.dst rest
    inferInstanceAs (Decidable (_ ∧ _ ∧ _))

def statusAfter (src : OrderStatus) (path : List CoreMove) : OrderStatus :=
  path.foldl (fun _ m => m.dst) src

def sent : OrderStatus → List CoreMove → List CoreMessage
  | _, [] => []
  | src, m :: rest => m.sends src ++ sent m.dst rest

end Shingo.Core
