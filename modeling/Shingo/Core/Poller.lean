import Shingo.Infra.GoMap

/-!
# fleet の order を見に行く poller

`shingo-core/rds/poller.go` の `Track`・`Untrack`・`poll`・`checkGraceExpiry`・`diffBlockStates`。

`poll` は見る order の一覧を先に写し、期限の切れた order を外してから、一つずつ見に行く。
`Track` と `Untrack` はほかの goroutine から来るので、order を一つ見るごとに間に入る。
見に行くこと（`GetOrderDetails`）と order の id を引くこと（`ResolveRDSOrderID`）は失敗しうる。

`log` は起きたことの記録で、新しいものが前にある。poller は読まない。
-/

namespace Shingo.Core

open Infra (GoMap MapOrder)

/-! ## fleet の答え -/

inductive RdsState where
  | created
  | toBeDispatched
  | running
  | finished
  | failed
  | stopped
  | waiting
  | other (tag : String)
  deriving DecidableEq

namespace RdsState

def isTerminal (s : RdsState) : Bool := s = .finished || s = .stopped

def text : RdsState → String
  | .created => "CREATED"
  | .toBeDispatched => "TOBEDISPATCHED"
  | .running => "RUNNING"
  | .finished => "FINISHED"
  | .failed => "FAILED"
  | .stopped => "STOPPED"
  | .waiting => "WAITING"
  | .other tag => tag

def zero : RdsState := .other ""

end RdsState

structure RdsBlock where
  blockID : String
  location : String := ""
  binTask : String := ""
  state : RdsState
  startTime : Int := 0
  terminateTime : Int := 0
  deriving DecidableEq

structure RdsOrderDetail where
  state : RdsState
  vehicle : String := ""
  blocks : List RdsBlock := []
  deriving DecidableEq

/-! ## 知らせ -/

inductive PollerEvent where
  | statusChanged (orderID : Nat) (rdsOrderID : String) (oldStatus newStatus : RdsState)
      (robotID detail : String) (orderDetail : RdsOrderDetail)
  | blockCompleted (orderID : Nat) (rdsOrderID blockID location binTask : String)
      (startTime terminateTime : Int)
  | graceExpired (orderID : Nat) (rdsOrderID : String)
  deriving DecidableEq

inductive PollerEntry where
  | tracked (rdsID : String)
  | untracked (rdsID : String)
  | fetched (rdsID : String) (detail : RdsOrderDetail)
  | emitted (ev : PollerEvent)
  deriving DecidableEq

/-- `queue` は、いまの `poll` がこれから見に行く order。 -/
structure Poller where
  active : GoMap RdsState := ∅
  blockStates : GoMap (GoMap RdsState) := ∅
  faultedDeadline : GoMap Nat := ∅
  graceDuration : Nat
  queue : List String := []
  log : List PollerEntry := []

namespace Poller

variable (w : Poller)

def record (x : PollerEntry) : Poller := { w with log := x :: w.log }

def emit (ev : PollerEvent) : Poller := w.record (.emitted ev)

def drop (rdsID : String) : Poller :=
  { w with
    active := w.active.erase rdsID
    blockStates := w.blockStates.erase rdsID
    faultedDeadline := w.faultedDeadline.erase rdsID }

def track (rdsID : String) : Poller :=
  if rdsID ∈ w.active then w
  else { w.record (.tracked rdsID) with active := w.active.insert rdsID .created }

def untrack (rdsID : String) : Poller :=
  (w.drop rdsID).record (.untracked rdsID)

/-! ## block -/

def diffBlock (acc : GoMap RdsState × List RdsBlock) (b : RdsBlock) :
    GoMap RdsState × List RdsBlock :=
  if b.blockID = "" then acc
  else
    let old := (acc.1.lookup b.blockID).getD .zero
    if b.state = old then acc
    else (acc.1.insert b.blockID b.state,
      if b.state = .finished ∧ old ≠ .finished then acc.2 ++ [b] else acc.2)

def blocksOf (rdsID : String) : GoMap RdsState :=
  (w.blockStates.lookup rdsID).getD ∅

def emitBlocks (orderID : Nat) (rdsID : String) (blocks : List RdsBlock) : Poller :=
  blocks.foldl (fun w b => w.emit (.blockCompleted orderID rdsID b.blockID b.location b.binTask
    b.startTime b.terminateTime)) w

/--
`diffBlockStates`。二つ目の値は、order の id を引いたか。

id が引けなくても状態はもう覚えたので、その block は知らせないままになる。
-/
def diffBlockStates (rdsID : String) (detail : RdsOrderDetail)
    (resolve : Option Nat) : Poller × Bool :=
  if detail.blocks.isEmpty then (w, false)
  else
    let diff := detail.blocks.foldl diffBlock (w.blocksOf rdsID, [])
    let w := { w with blockStates := w.blockStates.insert rdsID diff.1 }
    if diff.2.isEmpty then (w, false)
    else match resolve with
      | none => (w, true)
      | some orderID => (w.emitBlocks orderID rdsID diff.2, true)

/-! ## order 一つ -/

def resolveOrderID (resolve : Option Nat) (asked : Bool) : Option Nat :=
  if asked then resolve.filter (· != 0) else resolve

def commit (rdsID : String) (newState : RdsState) (now : Nat) : Poller :=
  if newState = .failed then
    { w with
      active := w.active.insert rdsID newState
      faultedDeadline :=
        if rdsID ∈ w.faultedDeadline then w.faultedDeadline
        else w.faultedDeadline.insert rdsID (now + w.graceDuration) }
  else if newState.isTerminal then w.drop rdsID
  else
    { w with
      active := w.active.insert rdsID newState
      faultedDeadline := w.faultedDeadline.erase rdsID }

def settleState (rdsID : String) (detail : RdsOrderDetail) (oldState : RdsState)
    (orderID : Option Nat) (now : Nat) : Poller :=
  if detail.state = oldState then w
  else match orderID with
    | none => w
    | some orderID =>
      (w.commit rdsID detail.state now).emit (.statusChanged orderID rdsID oldState detail.state
        detail.vehicle ("fleet state: " ++ oldState.text ++ " -> " ++ detail.state.text) detail)

def visit (rdsID : String) (fetch : Option RdsOrderDetail) (resolve : Option Nat)
    (now : Nat) : Poller :=
  match fetch with
  | none => w
  | some detail =>
    let w := w.record (.fetched rdsID detail)
    match w.active.lookup rdsID with
    | none => w
    | some oldState =>
      let diff := w.diffBlockStates rdsID detail resolve
      diff.1.settleState rdsID detail oldState (resolveOrderID resolve diff.2) now

/-! ## 期限 -/

def expired (now : Nat) (rdsID : String) : Bool :=
  (w.faultedDeadline.lookup rdsID).any (· < now) && w.active.lookup rdsID == some .failed

/-- 期限の切れた order を外して知らせる。id が引けなければ、外すだけになる。 -/
def expire (resolve : String → Option Nat) (w : Poller) (rdsID : String) : Poller :=
  match resolve rdsID with
  | none => w.drop rdsID
  | some orderID => (w.drop rdsID).emit (.graceExpired orderID rdsID)

def checkGraceExpiry (now : Nat) (order : MapOrder) (resolve : String → Option Nat) : Poller :=
  ((order.visit w.faultedDeadline.keys).filter (w.expired now)).foldl (expire resolve) w

end Poller

/-! ## 動作 -/

inductive PollerAction where
  | track (rdsID : String)
  | untrack (rdsID : String)
  | setGraceDuration (d : Nat)
  | poll (now : Nat) (order : MapOrder) (resolve : String → Option Nat)
  | visit (fetch : Option RdsOrderDetail) (resolve : Option Nat) (now : Nat)

def pollerStep (w : Poller) : PollerAction → Poller
  | .track rdsID => w.track rdsID
  | .untrack rdsID => w.untrack rdsID
  | .setGraceDuration d => { w with graceDuration := d }
  | .poll now order resolve =>
    if w.queue.isEmpty then
      { w.checkGraceExpiry now order resolve with queue := order.visit w.active.keys }
    else w
  | .visit fetch resolve now =>
    match w.queue with
    | [] => w
    | rdsID :: rest => { w with queue := rest }.visit rdsID fetch resolve now

end Shingo.Core
