import Shingo.Infra.Table
import Shingo.Edge.Accumulator
import Shingo.Core.Applier

/-!
# lineside bucket の捕捉と払い出し

`shingo-edge/store/lineside/lineside.go` の `Capture`、`DeactivateOtherStyles`、`Drain`、
`SetForReconcile` と、それを呼んで増減を出す `uop/capture.go`、`uop/tick.go`、
`engine/admin_lineside.go`。

表は `node_lineside_bucket` で、active な行は `(node_id, part_number)` ごとに一つと
unique index が決める。`Capture` は style を見ずに `(node, part)` の行を選んで足し、
style を書き換える。出す増減は呼んだ側の style と pair key だけを名指す。

増減は accumulator の窓に足され、`flushKey` で core に渡る。
-/

namespace Shingo.Edge

open Infra Protocol

/-! ## 表 -/

inductive BucketState where
  | active
  | inactive
  deriving DecidableEq

structure LinesideBucket where
  id : Nat
  nodeID : Int
  pairKey : String
  styleID : Int
  partNumber : String
  qty : Int
  state : BucketState
  updatedAt : Nat

structure LinesideTable where
  rows : List LinesideBucket
  nextID : Nat

namespace LinesideTable

def ActiveUnique (rows : List LinesideBucket) : Prop :=
  rows.Pairwise fun a b =>
    a.state = .active → b.state = .active → a.nodeID = b.nodeID → a.partNumber ≠ b.partNumber
  deriving Decidable

variable (t : LinesideTable)

def insert (now : Nat) (nodeID : Int) (pairKey : String) (styleID : Int)
    (partNumber : String) (qty : Int) : LinesideTable where
  rows := t.rows ++
    [{ id := t.nextID, nodeID, pairKey, styleID, partNumber, qty, state := .active
       updatedAt := now }]
  nextID := t.nextID + 1

def mergeOrder (a b : LinesideBucket) : Prop :=
  if a.state = b.state then b.updatedAt ≤ a.updatedAt else a.state = .active

instance : DecidableRel mergeOrder :=
  fun a b => inferInstanceAs (Decidable (if a.state = b.state then _ else _))

/--
`Capture`。足す行は state と新しさで選び、style は見ない。`pair_key` は書き換えない。

選ぶ行が無ければ `(node, part)` の行は一つも無いので、`INSERT OR IGNORE` は必ず入る。
-/
def capture (now : Nat) (nodeID : Int) (pairKey : String) (styleID : Int)
    (partNumber : String) (qty : Int) : LinesideTable :=
  if qty ≤ 0 then t
  else
    match firstBy mergeOrder
        (t.rows.filter fun b => b.nodeID == nodeID && b.partNumber == partNumber) with
    | some hit =>
      { t with
        rows := updateWhere (fun b => b.id == hit.id)
          (fun b => { b with qty := b.qty + qty, styleID, state := .active, updatedAt := now })
          t.rows }
    | none => t.insert now nodeID pairKey styleID partNumber qty

def deactivateOtherStyles (now : Nat) (nodeID keepStyleID : Int) : LinesideTable :=
  let others : LinesideBucket → Bool := fun b =>
    b.nodeID == nodeID && (b.state == .active && b.styleID != keepStyleID)
  { t with
    rows := updateWhere others (fun b => { b with state := .inactive, updatedAt := now })
      (deleteWhere (fun b => others b && decide (b.qty ≤ 0)) t.rows) }

def newestFirst (a b : LinesideBucket) : Prop := b.updatedAt ≤ a.updatedAt

instance : DecidableRel newestFirst :=
  fun a b => inferInstanceAs (Decidable (b.updatedAt ≤ a.updatedAt))

def drain (now : Nat) (nodeID : Int) (partNumber : String) (delta : Int) :
    LinesideTable × Int × Int :=
  if delta ≤ 0 then (t, 0, 0)
  else
    match firstBy newestFirst (t.rows.filter fun b =>
        b.nodeID == nodeID && (b.partNumber == partNumber && b.state == .active)) with
    | none => (t, 0, 0)
    | some hit =>
      let take := min delta hit.qty
      if hit.qty - take = 0 then
        ({ t with rows := deleteWhere (fun b => b.id == hit.id) t.rows }, take, hit.styleID)
      else
        ({ t with
            rows := updateWhere (fun b => b.id == hit.id)
              (fun b => { b with qty := hit.qty - take, updatedAt := now }) t.rows },
          take, hit.styleID)

def setForReconcile (now : Nat) (nodeID : Int) (pairKey : String)
    (styleID : Int) (partNumber : String) (qty : Int) : Option LinesideTable :=
  let hit : LinesideBucket → Bool := fun b =>
    b.nodeID == nodeID && (b.styleID == styleID && b.partNumber == partNumber)
  let t' : LinesideTable :=
    if qty ≤ 0 then { t with rows := deleteWhere hit t.rows }
    else if t.rows.any hit then
      { t with
        rows := updateWhere hit (fun b => { b with qty, state := .active, updatedAt := now })
          t.rows }
    else t.insert now nodeID pairKey styleID partNumber qty
  if ActiveUnique t'.rows then some t' else none

end LinesideTable

/-! ## 捕捉 -/

structure CaptureEvent where
  styleID : Int
  pairKey : String
  lineside : Option (List (String × Int))
  binID : Int
  payloadCode : String
  binEpoch : Int
  suppressBinDelta : Bool

structure LinesideNode where
  stationID : String
  nodeID : Int
  coreNodeName : String
  station_ne : stationID ≠ ""
  nodeID_pos : 0 < nodeID
  name_ne : coreNodeName ≠ ""

variable (node : LinesideNode)

def LinesideNode.call (pairKey : String) (styleID : Int)
    (partNumber payloadCode : String) (delta : Int) (reason : LinesideBucketDeltaReason)
    (now : Nat) : BucketCall :=
  { nodeID := node.nodeID, coreNodeName := node.coreNodeName, pairKey, styleID, partNumber
    payloadCode, delta, reason, now }

def captureEntry (ev : CaptureEvent) (now : Nat)
    (acc : LinesideTable × List BucketCall) (entry : String × Int) :
    LinesideTable × List BucketCall :=
  if entry.2 ≤ 0 ∨ entry.1 = "" then acc
  else
    (acc.1.capture now node.nodeID ev.pairKey ev.styleID entry.1 entry.2,
      acc.2 ++ [node.call ev.pairKey ev.styleID entry.1 ev.payloadCode entry.2 .captureFill now])

def captureToLineside (t : LinesideTable) (ev : CaptureEvent) (now : Nat) :
    LinesideTable × List BucketCall × Option BinCall :=
  let (t', calls) := (ev.lineside.getD []).foldl (captureEntry node ev now) (t, [])
  let capturedTotal := calls.foldl (fun n c => n + c.delta) 0
  let binCall : Option BinCall :=
    if 0 < capturedTotal ∧ ev.suppressBinDelta = false ∧ 0 < ev.binID then
      some { binID := ev.binID, payloadCode := ev.payloadCode, delta := -capturedTotal
             reason := .captureReduction, epoch := ev.binEpoch, now }
    else none
  (t'.deactivateOtherStyles now node.nodeID ev.styleID, calls, binCall)

/-- 失敗する書き込み。`bucket` は part ごと、`deactivate` は `DeactivateOtherStyles`。 -/
structure CaptureFaults where
  bucket : String → Bool := fun _ => false
  deactivate : Bool := false

/-- 何も書かない part か、書き込みの失敗しない part。 -/
def CaptureFaults.passes (faults : CaptureFaults) (e : String × Int) : Bool :=
  e.2 ≤ 0 || e.1 == "" || !faults.bucket e.1

/--
書き込みの失敗しうる `CaptureToLineside`。最後は、誤りを返さなかったか。

誤りを返すとき、それまでの bucket の増減は出ていて、bin の増減は出ない。
-/
def captureToLinesideAmid (faults : CaptureFaults) (t : LinesideTable) (ev : CaptureEvent)
    (now : Nat) : LinesideTable × List BucketCall × Option BinCall × Bool :=
  let entries := ev.lineside.getD []
  let written := entries.takeWhile faults.passes
  if written = entries ∧ faults.deactivate = false then
    let (t', calls, binCall) := captureToLineside node t ev now
    (t', calls, binCall, true)
  else
    let (t', calls) := written.foldl (captureEntry node ev now) (t, [])
    (t', calls, none, false)

/-! ## 消費 -/

structure LinesideClaim where
  styleID : Int
  payloadCode : String
  allowedPayloadCodes : List String
  pairedCoreNode : String

def LinesideClaim.allowedPayloads (c : LinesideClaim) : List String :=
  if c.allowedPayloadCodes ≠ [] then c.allowedPayloadCodes
  else if c.payloadCode ≠ "" then [c.payloadCode]
  else []

structure LinesideDrain where
  qty : Int
  styleID : Int

def setDrain (drains : List (String × LinesideDrain)) (part : String) (d : LinesideDrain) :
    List (String × LinesideDrain) :=
  drains.filter (fun e => e.1 != part) ++ [(part, d)]

def drainPart (nodeID : Int) (delta : Int) (now : Nat)
    (acc : LinesideTable × List (String × LinesideDrain)) (part : String) :
    LinesideTable × List (String × LinesideDrain) :=
  let (t, drained, styleID) := acc.1.drain now nodeID part delta
  (t, if 0 < drained then setDrain acc.2 part { qty := drained, styleID } else acc.2)

def LinesideClaim.drainParts (c : LinesideClaim) : List String :=
  (if c.payloadCode ≠ "" then [c.payloadCode] else [])
    ++ c.allowedPayloads.filter fun p => p != "" && p != c.payloadCode

def drainLinesideFirst (nodeID : Int) (t : LinesideTable) (c : LinesideClaim) (delta : Int)
    (now : Nat) : LinesideTable × List (String × LinesideDrain) :=
  if delta ≤ 0 then (t, [])
  else c.drainParts.foldl (drainPart nodeID delta now) (t, [])

def drainCalls (c : LinesideClaim) (payloadCode : String) (now : Nat)
    (drains : List (String × LinesideDrain)) : List BucketCall :=
  drains.filterMap fun e =>
    if 0 < e.2.qty then
      some (node.call c.pairedCoreNode (if e.2.styleID = 0 then c.styleID else e.2.styleID) e.1
        payloadCode (-e.2.qty) .consumeDrain now)
    else none

/-! ## 調整 -/

/-- `AdminAdjustLinesideBucket` と `AdjustBucket`。増減を出してから表を書く。 -/
def adminAdjustLinesideBucket (t : LinesideTable) (bucketID : Nat)
    (targetQty : Int) (clearBucket : Bool) (now : Nat) : LinesideTable × List BucketCall :=
  match t.rows.find? fun b => b.id == bucketID with
  | none => (t, [])
  | some b =>
    let target := if clearBucket then 0 else targetQty
    if target < 0 then (t, [])
    else
      let calls :=
        if target - b.qty ≠ 0 then
          [node.call b.pairKey b.styleID b.partNumber "" (target - b.qty)
            .operatorCorrection now]
        else []
      ((t.setForReconcile now b.nodeID b.pairKey b.styleID b.partNumber target).getD t, calls)

/-! ## core まで -/

structure LinesideWorld where
  table : LinesideTable
  pending : String → Option (Entry BucketInfo)
  seqs : DeltaScope → Nat
  core : Core.CoreInventory

namespace LinesideWorld

def setWindow (w : LinesideWorld) (key : String) (e : Entry BucketInfo) : LinesideWorld :=
  { w with pending := fun k => if k = key then some e else w.pending k }

def record (w : LinesideWorld) (c : BucketCall) : LinesideWorld :=
  if bucketOps.ignored c then w
  else
    let e := (w.pending (bucketOps.key c)).getD (bucketOps.freshEntry c)
    w.setWindow (bucketOps.key c) (bucketOps.add c e)

def flushKey (node : LinesideNode) (w : LinesideWorld) (key : String) (now : Nat) :
    LinesideWorld :=
  match w.pending key with
  | none => w
  | some e =>
    if e.delta = 0 then w
    else
      let e := resolveName e (some node.coreNodeName)
      let (seqs, seq) := allocateInventoryDeltaSeq w.seqs ⟨.bucket, key, 0⟩
      let w := w.setWindow key (bucketOps.commit e now e)
      { w with
        seqs
        core := (Core.applyLinesideBucketDelta w.core node.stationID (bucketEnvelope e seq)).1 }

end LinesideWorld

inductive LinesideAction where
  | release (ev : CaptureEvent) (now : Nat)
  | tick (claim : LinesideClaim) (payloadCode : String) (delta : Int) (now : Nat)
  | adjust (bucketID : Nat) (targetQty : Int) (clearBucket : Bool) (now : Nat)
  | flush (key : String) (now : Nat)

def linesideStep (node : LinesideNode) (w : LinesideWorld) : LinesideAction → LinesideWorld
  | .release ev now =>
    let (table, calls, _) := captureToLineside node w.table ev now
    calls.foldl LinesideWorld.record { w with table }
  | .tick claim payloadCode delta now =>
    let (table, drains) := drainLinesideFirst node.nodeID w.table claim delta now
    (drainCalls node claim payloadCode now drains).foldl LinesideWorld.record { w with table }
  | .adjust bucketID targetQty clearBucket now =>
    let (table, calls) :=
      adminAdjustLinesideBucket node w.table bucketID targetQty clearBucket now
    calls.foldl LinesideWorld.record { w with table }
  | .flush key now => w.flushKey node key now

end Shingo.Edge
