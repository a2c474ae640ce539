import Shingo.Infra.Watermark
import Shingo.Protocol.Delta

/-!
# 数の増減を core で適用する

`shingo-core/uop/applier.go` の `ApplyBinUOPDelta` と `ApplyLinesideBucketDelta`。
どちらも一つの transaction で、error を返すときは巻き戻る。巻き戻しは、
受け取った `c` をそのまま返すことで表す。

重複よけは `inventory_delta_dedup` の一行ごとの `last_seq` だけで、
番号がそれより大きいものだけを新しいものとして扱う（`claimDeltaSequence`）。
-/

namespace Shingo.Core

open Infra Protocol

/-! ## 表 -/

/-- `bins` の行。`nodeName` はいる node の名前で、どこにもいなければ空。 -/
structure Bin where
  payloadCode : String
  uopRemaining : Int
  deltaEpoch : Int
  anomaly : Bool
  nodeName : String

/-- `lineside_buckets` の鍵。station は鍵ではない。 -/
structure BucketKey where
  coreNodeName : String
  pairKey : String
  styleID : Int
  partNumber : String
  deriving DecidableEq

structure Bucket where
  station : String
  qty : Int
  payloadCode : String

structure DedupKey where
  station : String
  kind : DeltaScopeKind
  key : String
  epoch : Int
  deriving DecidableEq

inductive LedgerOp where
  | staleEpochDropped
  | payloadBoundFirstDelta
  | payloadReboundWithInventory
  | payloadMismatchDropped
  | binUOPDelta
  | releasedCaptureEmpty

inductive DeltaMetadata where
  | staleEpoch (wireEpoch binEpoch : Int) (sequenceID : Nat) (delta : Int)
  | firstDeltaBind (oldPayload : String) (sequenceID : Nat)
  | rebound (oldPayload : String) (inventoryAtRebind : Int) (sequenceID : Nat) (delta : Int)
  | payloadMismatch (wirePayload binPayload : String) (sequenceID : Nat) (delta : Int)
  | applied (reason : Option BinUOPDeltaReason) (delta : Int) (sequenceID : Nat)
      (wireEpoch binEpoch : Int)
  | nil

structure LedgerRow where
  binID : Int
  before : Int
  after : Int
  op : LedgerOp
  source : String
  payloadCode : String
  actor : String
  metadata : DeltaMetadata

inductive ExceptionKind where
  | staleEpoch
  | payloadMismatch
  | negativeCrossing
  | boundary
  deriving DecidableEq

/-- `bin_uop_exception` の行。`recovered` は `recovered_at` が入っていること。 -/
structure ExceptionRow where
  kind : ExceptionKind
  binID : Int
  payloadCode : String
  actor : String
  epochSeq : Option Nat
  before : Int
  after : Int
  recovered : Bool
  op : LedgerOp
  detail : DeltaMetadata

/-- station に知らせる電文。transaction の中で outbox に入る。 -/
inductive Announcement where
  | binEpochRefresh (binID : Int) (coreNodeName : String) (epoch : Int)
  | uopAdjustment (binID : Int) (coreNodeName : String) (newRemaining epoch : Int)

/-- `BinManifestService`。知らせる先がつないであるか。 -/
structure ManifestClearer where
  announceWired : Bool

structure CoreInventory where
  bins : Int → Option Bin
  buckets : BucketKey → Option Bucket
  nodes : String → Bool
  dedup : Watermark DedupKey
  ledger : List LedgerRow
  exceptions : List ExceptionRow
  announced : List Announcement
  announceWired : Bool
  repaired : Int → Int
  binManifest : Option ManifestClearer
  droppedStaleEpoch : Nat
  droppedPayloadMismatch : Nat

inductive ApplyError where
  | skipped
  | missingStation
  | invalidBinID (binID : Int)
  | noSuchBin (binID : Int)
  | payloadMismatch (binID : Int) (wire have' : String)
  | missingCoreNodeName (station : String) (styleID : Int) (partNumber : String)
  | missingPartNumber (station coreNodeName : String) (styleID : Int)
  | unknownNode (coreNodeName station partNumber : String)
  | reductionOfMissingBucket (delta : Int) (coreNodeName partNumber : String)
  | negativeQty (coreNodeName partNumber : String) (delta : Int)
  deriving DecidableEq

variable (c : CoreInventory)

def CoreInventory.updateBin (binID : Int) (f : Bin → Bin) : CoreInventory :=
  { c with bins := fun b => if b = binID then (c.bins b).map f else c.bins b }

def CoreInventory.appendLedger (row : LedgerRow) : CoreInventory :=
  { c with ledger := c.ledger ++ [row] }

def CoreInventory.appendException (row : ExceptionRow) : CoreInventory :=
  { c with exceptions := c.exceptions ++ [row] }

def claimDeltaSequence (dedup : Watermark DedupKey) (station : String) (kind : DeltaScopeKind)
    (scopeKey : String) (epoch : Int) (seq : Nat) : Watermark DedupKey × Bool :=
  dedup.claim ⟨station, kind, scopeKey, epoch⟩ seq

/-! ## bin -/

/-- 今の世代を station に知らせたら、`markRepaired` で覚えておく。 -/
def repairEpoch (binID : Int) (bin : Bin) : CoreInventory :=
  if c.announceWired = false then c
  else if c.repaired binID = bin.deltaEpoch then c
  else if bin.nodeName = "" then c
  else
    { c with
      announced := c.announced ++ [.binEpochRefresh binID bin.nodeName bin.deltaEpoch]
      repaired := fun b => if b = binID then bin.deltaEpoch else c.repaired b }

/-- 終わった世代の電文を捨てる。番号は使わず、捨てたことを書き残す。 -/
def dropStaleEpoch (station : String) (d : BinUOPDelta) (bin : Bin) : CoreInventory :=
  let metadata := .staleEpoch d.epoch bin.deltaEpoch d.sequenceID d.delta
  let c := c.appendLedger
    { binID := d.binID, before := bin.uopRemaining, after := bin.uopRemaining
      op := .staleEpochDropped, source := "service/inventory_delta_service.go:staleEpoch"
      payloadCode := d.payloadCode, actor := station, metadata }
  let c := c.appendException
    { kind := .staleEpoch, binID := d.binID, payloadCode := d.payloadCode, actor := station
      epochSeq := none, before := bin.uopRemaining, after := bin.uopRemaining
      recovered := false, op := .staleEpochDropped, detail := metadata }
  let c := c.updateBin d.binID fun b => { b with anomaly := true }
  let c := repairEpoch c d.binID bin
  { c with droppedStaleEpoch := c.droppedStaleEpoch + 1 }

/-- produce tick は、bin に何が入りつつあるかの証拠。札が違えば書き換えて数え続ける。 -/
def bindProduceTick (station : String) (d : BinUOPDelta) (bin : Bin) : CoreInventory × Bin :=
  if d.reason = some .produceTick ∧ d.payloadCode ≠ "" ∧ bin.payloadCode ≠ d.payloadCode then
    if bin.uopRemaining = 0 then
      let c := c.updateBin d.binID fun b => { b with payloadCode := d.payloadCode }
      (c.appendLedger
        { binID := d.binID, before := bin.uopRemaining, after := bin.uopRemaining
          op := .payloadBoundFirstDelta
          source := "service/inventory_delta_service.go:firstDeltaBind"
          payloadCode := d.payloadCode, actor := station
          metadata := .firstDeltaBind bin.payloadCode d.sequenceID },
        { bin with payloadCode := d.payloadCode })
    else
      let c := c.updateBin d.binID fun b =>
        { b with payloadCode := d.payloadCode, anomaly := true }
      (c.appendLedger
        { binID := d.binID, before := bin.uopRemaining, after := bin.uopRemaining
          op := .payloadReboundWithInventory
          source := "service/inventory_delta_service.go:reboundWithInventory"
          payloadCode := d.payloadCode, actor := station
          metadata := .rebound bin.payloadCode bin.uopRemaining d.sequenceID d.delta },
        { bin with payloadCode := d.payloadCode, anomaly := true })
  else (c, bin)

/-- 巻き戻る transaction の外で書く。 -/
def recordRejectedDelta (station : String) (d : BinUOPDelta) (bin : Bin) : CoreInventory :=
  let metadata := .payloadMismatch d.payloadCode bin.payloadCode d.sequenceID d.delta
  let c := c.appendLedger
    { binID := d.binID, before := bin.uopRemaining, after := bin.uopRemaining
      op := .payloadMismatchDropped
      source := "service/inventory_delta_service.go:payloadMismatch"
      payloadCode := d.payloadCode, actor := station, metadata }
  let c := c.appendException
    { kind := .payloadMismatch, binID := d.binID, payloadCode := d.payloadCode, actor := station
      epochSeq := none, before := bin.uopRemaining, after := bin.uopRemaining
      recovered := false, op := .payloadMismatchDropped, detail := metadata }
  let c := if bin.anomaly then c else c.updateBin d.binID fun b => { b with anomaly := true }
  { c with droppedPayloadMismatch := c.droppedPayloadMismatch + 1 }

/-- `RecoverBinUOPOpenCrossing`。開いたままの negative_crossing を閉じる。 -/
def recoverOpenCrossing (binID : Int) : CoreInventory :=
  { c with
    exceptions := c.exceptions.map fun e =>
      if e.binID = binID ∧ e.kind = .negativeCrossing ∧ e.recovered = false then
        { e with recovered := true }
      else e }

def nextEpochSeq (binID : Int) : Nat :=
  c.exceptions.countP (fun e => e.binID = binID ∧ e.kind = .boundary) + 1

def clearForReuseTx (binID : Int) (svc : ManifestClearer) : CoreInventory :=
  match c.bins binID with
  | none => c
  | some bin =>
    let c := c.updateBin binID fun b =>
      { b with payloadCode := "", uopRemaining := 0, deltaEpoch := b.deltaEpoch + 1 }
    let c :=
      if bin.nodeName = "" ∨ svc.announceWired = false then c
      else
        { c with
          announced :=
            c.announced ++ [.uopAdjustment binID bin.nodeName 0 (bin.deltaEpoch + 1)] }
    let epochSeq := nextEpochSeq c binID
    let c := c.appendLedger
      { binID, before := bin.uopRemaining, after := 0, op := .releasedCaptureEmpty
        source := "service/inventory_delta_service.go:ApplyBinUOPDelta"
        payloadCode := "", actor := "", metadata := .nil }
    c.appendException
      { kind := .boundary, binID, payloadCode := "", actor := "", epochSeq := some epochSeq
        before := bin.uopRemaining, after := 0, recovered := false
        op := .releasedCaptureEmpty, detail := .nil }

def addUOP (station : String) (d : BinUOPDelta) (bin : Bin) : CoreInventory :=
  let metadata := .applied d.reason d.delta d.sequenceID d.epoch bin.deltaEpoch
  let c := c.updateBin d.binID fun b => { b with uopRemaining := b.uopRemaining + d.delta }
  let c := c.appendLedger
    { binID := d.binID, before := bin.uopRemaining, after := bin.uopRemaining + d.delta
      op := .binUOPDelta, source := "service/inventory_delta_service.go"
      payloadCode := d.payloadCode, actor := station, metadata }
  if 0 ≤ bin.uopRemaining ∧ bin.uopRemaining + d.delta < 0 then
    c.appendException
      { kind := .negativeCrossing, binID := d.binID, payloadCode := d.payloadCode
        actor := station, epochSeq := none, before := bin.uopRemaining
        after := bin.uopRemaining + d.delta, recovered := false, op := .binUOPDelta
        detail := metadata }
  else if bin.uopRemaining < 0 ∧ 0 ≤ bin.uopRemaining + d.delta then recoverOpenCrossing c d.binID
  else c

def clearIfCaptured (d : BinUOPDelta) (bin : Bin) : CoreInventory :=
  match c.binManifest with
  | none => c
  | some svc =>
    if d.reason = some .captureReduction ∧ bin.uopRemaining + d.delta ≤ 0 then
      clearForReuseTx c d.binID svc
    else c

/-- 番号を取った後の本体。`c` は番号を取る前の表で、error ではそこまで巻き戻る。 -/
def applyClaimed (dedup : Watermark DedupKey) (station : String)
    (d : BinUOPDelta) : CoreInventory × Option ApplyError :=
  match c.bins d.binID with
  | none => (c, some (.noSuchBin d.binID))
  | some bin =>
    let (c', bin') := bindProduceTick { c with dedup } station d bin
    if d.payloadCode ≠ "" ∧ bin'.payloadCode ≠ "" ∧ d.payloadCode ≠ bin'.payloadCode then
      (recordRejectedDelta c station d bin',
        some (.payloadMismatch d.binID d.payloadCode bin'.payloadCode))
    else (clearIfCaptured (addUOP c' station d bin') d bin', none)

def staleEpoch (d : BinUOPDelta) : Bool :=
  match c.bins d.binID with
  | none => false
  | some bin => decide (0 < d.epoch) && decide (d.epoch < bin.deltaEpoch)

def applyBinUOPDelta (station : String) (d : BinUOPDelta) : CoreInventory × Option ApplyError :=
  if station = "" then (c, some .missingStation)
  else if d.binID ≤ 0 then (c, some (.invalidBinID d.binID))
  else if staleEpoch c d then
    match c.bins d.binID with
    | none => (c, some .skipped)
    | some bin => (dropStaleEpoch c station d bin, some .skipped)
  else
    match claimDeltaSequence c.dedup station .bin (toString d.binID) d.epoch d.sequenceID with
    | (_, false) => (c, some .skipped)
    | (dedup, true) => applyClaimed c dedup station d

/-! ## lineside bucket -/

/-- core の `bucketScopeKey`。先頭は core の node 名で、edge の同名の関数とは違う。 -/
def bucketScopeKey (coreNodeName pairKey : String) (styleID : Int) (partNumber : String) :
    String :=
  coreNodeName ++ "|" ++ pairKey ++ "|" ++ toString styleID ++ "|" ++ partNumber

def bucketKeyOf (d : LinesideBucketDelta) : BucketKey where
  coreNodeName := d.coreNodeName
  pairKey := d.pairKey
  styleID := d.styleID
  partNumber := d.partNumber

/-- UPSERT と、空になった行の掃除。`none` は CHECK (qty >= 0) に触れたこと。 -/
def upsertBucket (station : String) (d : LinesideBucketDelta) :
    Option Bucket → Option (Option Bucket)
  | none =>
    let qty := max d.delta 0
    some (if qty = 0 then none else some { station, qty, payloadCode := d.payloadCode })
  | some b =>
    let qty := b.qty + d.delta
    if qty < 0 then none
    else
      let payloadCode := if d.payloadCode = "" then b.payloadCode else d.payloadCode
      some (if qty = 0 then none else some { station, qty, payloadCode })

def applyLinesideBucketDelta (station : String) (d : LinesideBucketDelta) :
    CoreInventory × Option ApplyError :=
  if station = "" then (c, some .missingStation)
  else if d.coreNodeName = "" then
    (c, some (.missingCoreNodeName station d.styleID d.partNumber))
  else if d.partNumber = "" then
    (c, some (.missingPartNumber station d.coreNodeName d.styleID))
  else if c.nodes d.coreNodeName = false then
    (c, some (.unknownNode d.coreNodeName station d.partNumber))
  else
    match claimDeltaSequence c.dedup station .bucket
        (bucketScopeKey d.coreNodeName d.pairKey d.styleID d.partNumber) 0 d.sequenceID with
    | (_, false) => (c, some .skipped)
    | (dedup, true) =>
      let key := bucketKeyOf d
      if d.delta < 0 ∧ c.buckets key = none then
        (c, some (.reductionOfMissingBucket d.delta d.coreNodeName d.partNumber))
      else
        match upsertBucket station d (c.buckets key) with
        | none => (c, some (.negativeQty d.coreNodeName d.partNumber d.delta))
        | some row =>
          ({ c with
              dedup
              buckets := fun k => if k = key then row else c.buckets k }, none)

end Shingo.Core
