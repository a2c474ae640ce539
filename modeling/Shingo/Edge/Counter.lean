import Mathlib.Data.List.Basic

/-!
# PLC の counter を読む

`shingo-edge/plc/counter.go` の `CalculateDelta` と、`plc/manager.go` の `pollReportingPoint`。
表への書き込みは `store/counters/counters.go`。

一度の poll は、行の `last_count` と読んだ値から増えた分を決め、snapshot を入れ、`last_count` を
書き、増えた分を emit する。snapshot が入らなければそこで終わるが、`last_count` が書けない
ときは log に残すだけで先へ進む。行は poll のたびに読み直される。

`int64` の範囲は 32 bit の counter の値を越えるので、ここの計算は溢れない。
-/

namespace Shingo.Edge

/-! ## 増えた分 -/

def max16 : Int := 65535

def max32 : Int := 4294967295

inductive CounterAnomaly where
  | reset
  | jump
  deriving DecidableEq

def rolloverAt (lastCount newCount jumpThreshold max : Int) : Option Int :=
  if lastCount ≤ max then
    let d := (max - lastCount) + newCount + 1
    if 0 < d ∧ d ≤ jumpThreshold then some d else none
  else none

def tryRollover (lastCount newCount jumpThreshold : Int) : Int :=
  ([max16, max32].findSome? (rolloverAt lastCount newCount jumpThreshold)).getD 0

def calculateDelta (lastCount newCount jumpThreshold : Int) : Int × Option CounterAnomaly :=
  if newCount = lastCount then (0, none)
  else if newCount < lastCount then
    let rollover := tryRollover lastCount newCount jumpThreshold
    if 0 < rollover then (rollover, none) else (newCount, some .reset)
  else
    let delta := newCount - lastCount
    if jumpThreshold < delta then (delta, some .jump) else (delta, none)

/-! ## 表と知らせ -/

/-- `reporting_points` の行。`processID` は style から引いたもの。0 は「無し」。 -/
structure ReportingPoint where
  id : Int := 0
  plcName : String := ""
  tagName : String := ""
  styleID : Int := 0
  processID : Int := 0
  lastCount : Int := 0

structure CounterSnapshot where
  id : Nat
  reportingPointID : Int
  countValue : Int
  delta : Int
  anomaly : Option CounterAnomaly
  operatorConfirmed : Bool

inductive PlcEvent where
  | counterRead (rpID : Int) (plcName tagName : String) (value : Int)
  | counterReadError (rpID : Int) (plcName tagName errMsg : String)
  | counterAnomaly (snapshotID : Nat) (rpID : Int) (plcName tagName : String)
      (oldVal newVal : Int) (anomaly : CounterAnomaly)
  | productionTick (rpID : Int) (snapshotID : Nat) (processID styleID countValue delta : Int)
      (anomaly : Option CounterAnomaly)
  | counterDelta (rpID processID styleID delta newCount : Int) (anomaly : Option CounterAnomaly)

def PlcEvent.delta? : PlcEvent → Option Int
  | .counterDelta _ _ _ delta _ _ => some delta
  | _ => none

structure PollStore where
  rp : ReportingPoint
  snapshots : List CounterSnapshot := []
  emitted : List PlcEvent := []

namespace PollStore

def emit (s : PollStore) (e : PlcEvent) : PollStore := { s with emitted := s.emitted ++ [e] }

def insertCounterSnapshot (s : PollStore) (newCount delta : Int)
    (anomaly : Option CounterAnomaly) : PollStore :=
  { s with snapshots := s.snapshots ++
      [{ id := s.snapshots.length + 1, reportingPointID := s.rp.id, countValue := newCount, delta
         anomaly, operatorConfirmed := anomaly ≠ some .jump }] }

def updateReportingPointCounter (s : PollStore) (count : Int) : PollStore :=
  { s with rp := { s.rp with lastCount := count } }

end PollStore

/-! ## poll -/

inductive TagRead where
  | disconnected
  | error (errMsg : String)
  | notNumber
  | value (newCount : Int)

structure PollWrites where
  insertOk : Bool := true
  updateOk : Bool := true
  enqueueOk : Bool := true

def recordReading (s : PollStore) (ok : PollWrites) (newCount delta : Int)
    (anomaly : Option CounterAnomaly) : PollStore :=
  let rp := s.rp
  let snapID := s.snapshots.length + 1
  let s := s.insertCounterSnapshot newCount delta anomaly
  let s := if ok.updateOk then s.updateReportingPointCounter newCount else s
  let s := match anomaly with
    | some a => s.emit (.counterAnomaly snapID rp.id rp.plcName rp.tagName rp.lastCount newCount a)
    | none => s
  if rp.styleID = 0 then s
  else
    let s :=
      if 0 < delta ∧ anomaly ≠ some .reset ∧ ok.enqueueOk = true then
        s.emit (.productionTick rp.id snapID rp.processID rp.styleID newCount delta anomaly)
      else s
    if anomaly ≠ some .jump ∧ 0 < delta then
      s.emit (.counterDelta rp.id rp.processID rp.styleID delta newCount anomaly)
    else s

def pollReportingPoint (jumpThreshold : Int) (s : PollStore) (read : TagRead) (ok : PollWrites) :
    PollStore :=
  let rp := s.rp
  match read with
  | .disconnected => s
  | .error errMsg => s.emit (.counterReadError rp.id rp.plcName rp.tagName errMsg)
  | .notNumber => s
  | .value newCount =>
    let s := s.emit (.counterRead rp.id rp.plcName rp.tagName newCount)
    let r := calculateDelta rp.lastCount newCount jumpThreshold
    if r.1 = 0 ∧ r.2 = none then s
    else if ok.insertOk then recordReading s ok newCount r.1 r.2
    else s

/-! ## 回り続ける counter -/

inductive CounterWidth where
  | bits16
  | bits32

def CounterWidth.range : CounterWidth → Nat
  | .bits16 => 65536
  | .bits32 => 4294967296

/--
counter と、それを読む reporting point。

`total` は一周を数えずに積んだ本当の数、`recorded` は最後に snapshot の入った読みの時の
`total`。
-/
structure CounterWorld where
  store : PollStore
  total : Nat
  recorded : Nat

inductive TagFault where
  | disconnected
  | error (errMsg : String)
  | notNumber

inductive CounterAction where
  | poll (advance : Nat) (fault : Option TagFault) (ok : PollWrites)
  | relink (styleID processID : Int)

def tagRead (width : CounterWidth) (total : Nat) : Option TagFault → TagRead
  | some .disconnected => .disconnected
  | some (.error errMsg) => .error errMsg
  | some .notNumber => .notNumber
  | none => .value (total % width.range : Nat)

def counterStep (width : CounterWidth) (jumpThreshold : Int) (w : CounterWorld) :
    CounterAction → CounterWorld
  | .poll advance fault ok =>
    let total := w.total + advance
    let store := pollReportingPoint jumpThreshold w.store (tagRead width total fault) ok
    { store, total
      recorded :=
        if store.snapshots.length = w.store.snapshots.length then w.recorded else total }
  | .relink styleID processID =>
    { w with store := { w.store with rp := { w.store.rp with styleID, processID } } }

end Shingo.Edge
