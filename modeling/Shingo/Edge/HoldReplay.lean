import Shingo.Edge.Accumulator

/-!
# 載る bin の無い間の数を溜めて、次の bin に付ける

`shingo-edge/engine/wiring_counter_delta.go` の `applyHoldAndReplay` と、それを呼ぶ
`handleConsumeTick`・`handleProduceTick`・`handleABFallthrough`。表への書き込みは
`store/processes/processes.go`。

tick は process node の行を一度だけ読み、その写しで最後まで動く。写しに bin が在れば、
写しの pending を足した分をその bin に付けて pending を 0 に書き、無ければ pending に足す。
poll の tick と操作者が認めた jump の tick は同時に走り、間に bin の付け外しも入る。
書き込みの失敗は log に残るだけで、tick は先へ進む。

一つの node を見る。`inventoryDelta` は組み立ての時に必ず入る。
-/

namespace Shingo.Edge

open Protocol

structure ActiveBin where
  id : Int
  pos : 0 < id

structure RuntimeState where
  activeBinID : Option ActiveBin := none
  activeBinEpoch : Int := 0
  remainingUOPCached : Int := 0
  pendingUOPDelta : Int := 0

inductive TickRole where
  | consume
  | produce
  | fallthrough
  deriving DecidableEq

def TickRole.sign : TickRole → Int
  | .produce => 1
  | _ => -1

def TickRole.reason : TickRole → BinUOPDeltaReason
  | .consume => .consumeTick
  | .produce => .produceTick
  | .fallthrough => .abFallthrough

inductive TickPC where
  | draining
  | applying (input : Int)
  | emitting (input binAttributed : Int)
  | done (input : Int)

structure Tick where
  role : TickRole
  payloadCode : String
  delta : Int
  runtime : RuntimeState
  pc : TickPC

structure NodeWorld where
  row : RuntimeState := {}
  ticks : List Tick := []
  recorded : List BinCall := []

inductive NodeAction where
  | tick (role : TickRole) (payloadCode : String) (delta : Int)
  | drain (i : Nat) (qty : Int) (ok : Bool)
  | apply (i : Nat) (ok : Bool)
  | emit (i : Nat) (now : Nat)
  | bind (bin : Option ActiveBin) (epoch : Int) (remaining : Option Int) (ok : Bool)

namespace NodeWorld

def goto (w : NodeWorld) (i : Nat) (t : Tick) (pc : TickPC) : NodeWorld :=
  { w with ticks := w.ticks.set i { t with pc } }

/-- `handleCounterDelta` の一つの node の分。produce は bucket から引かない。 -/
def start (w : NodeWorld) (role : TickRole) (payloadCode : String) (delta : Int) : NodeWorld :=
  if delta ≤ 0 then w
  else
    let pc := if role = .produce then .applying delta else .draining
    { w with ticks := w.ticks ++ [{ role, payloadCode, delta, runtime := w.row, pc }] }

def drainLinesideFirst (t : Tick) (qty : Int) (ok : Bool) : Int :=
  if t.payloadCode = "" || !ok then t.delta else t.delta - min t.delta qty

def binAttributed (t : Tick) (input : Int) : Int :=
  if t.runtime.activeBinID.isSome then input + t.runtime.pendingUOPDelta else input

def applyHoldAndReplay (row : RuntimeState) (t : Tick) (input : Int) (ok : Bool) : RuntimeState :=
  let newRemaining := t.runtime.remainingUOPCached + t.role.sign * binAttributed t input
  if ok = false then row
  else if t.runtime.activeBinID.isSome then
    if t.runtime.pendingUOPDelta ≠ 0 then
      -- `SetRuntimeUOPClearPending`
      { row with remainingUOPCached := newRemaining, pendingUOPDelta := 0 }
    else { row with remainingUOPCached := newRemaining }
  else if input ≠ 0 then
    -- `AddPendingUOPDelta`
    { row with pendingUOPDelta := row.pendingUOPDelta + input }
  else row

def binCall (t : Tick) (amount : Int) (now : Nat) : Option BinCall :=
  t.runtime.activeBinID.bind fun b =>
    if 0 < amount then
      some { binID := b.id, payloadCode := t.payloadCode, delta := t.role.sign * amount
             reason := t.role.reason, epoch := t.runtime.activeBinEpoch, now }
    else none

def step (w : NodeWorld) : NodeAction → NodeWorld
  | .tick role payloadCode delta => w.start role payloadCode delta
  | .drain i qty ok =>
    match w.ticks[i]? with
    | some t =>
      match t.pc with
      | .draining => w.goto i t (.applying (drainLinesideFirst t qty ok))
      | _ => w
    | none => w
  | .apply i ok =>
    match w.ticks[i]? with
    | some t =>
      match t.pc with
      | .applying input =>
        { w.goto i t (.emitting input (binAttributed t input)) with
          row := applyHoldAndReplay w.row t input ok }
      | _ => w
    | none => w
  | .emit i now =>
    match w.ticks[i]? with
    | some t =>
      match t.pc with
      | .emitting input amount =>
        { w.goto i t (.done input) with recorded := w.recorded ++ (binCall t amount now).toList }
      | _ => w
    | none => w
  | .bind bin epoch remaining ok =>
    if ok then
      { w with row := { w.row with
          activeBinID := bin
          activeBinEpoch := epoch
          remainingUOPCached := remaining.getD w.row.remainingUOPCached } }
    else w

end NodeWorld

end Shingo.Edge
