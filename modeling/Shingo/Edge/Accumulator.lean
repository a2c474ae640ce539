import Shingo.Infra.PtrMap
import Shingo.Protocol.Delta

/-!
# edge の増減の溜め込み（accumulator）

`shingo-edge/uop/accumulator.go`。記録（`recordBin` / `recordBucket`）は誰からでも並行に
呼ばれ、`flush` は `flushMu` の中で一つずつ走る。一つの動作は、lock の中の一区切り、
map の一操作、database の一呼び出しのどれか。

`flush` は send-then-sweep。entry を写し取り（変えない）、番号を取り、
電文を作って outbox に入れ、うまくいったときだけ写した分を entry から引く。

`sync.Map.Range` の callback が受け取る entry は、作られたことのあるどの entry でもよい。
-/

namespace Shingo.Edge

open Infra Protocol

/-! ## entry -/

/-- `binDeltaEntry` と `bucketDeltaEntry` に共通の欄。残りの欄は `info` にある。 -/
structure Entry (M : Type) where
  delta : Int
  lastTouched : Nat
  evicted : Bool
  info : M

structure BinInfo where
  binID : Int
  payloadCode : String
  reason : Option BinUOPDeltaReason
  epoch : Int
  windowStart : Nat
  windowEnd : Nat

structure BucketInfo where
  nodeID : Int
  coreNodeName : String
  pairKey : String
  styleID : Int
  partNumber : String
  payloadCode : String
  reason : Option LinesideBucketDeltaReason
  windowStart : Nat
  windowEnd : Nat

structure BinCall where
  binID : Int
  payloadCode : String
  delta : Int
  reason : BinUOPDeltaReason
  epoch : Int
  now : Nat

structure BucketCall where
  nodeID : Int
  coreNodeName : String
  pairKey : String
  styleID : Int
  partNumber : String
  payloadCode : String
  delta : Int
  reason : LinesideBucketDeltaReason
  now : Nat

def bucketScopeKey (nodeID : Int) (pairKey : String) (styleID : Int) (partNumber : String) :
    String :=
  toString nodeID ++ "|" ++ pairKey ++ "|" ++ toString styleID ++ "|" ++ partNumber

/--
bin と bucket で違うところ。`C` は記録の呼び出し、`M` は entry の欄。

`touch` は lock の中で `delta` を足す前に書く欄で、`first` は窓の最初の記録かどうか。
-/
structure ScopeOps (C M : Type) where
  key : C → String
  amount : C → Int
  now : C → Nat
  ignored : C → Bool
  fresh : C → M
  touch : C → Bool → M → M
  clearWindow : M → M
  windowEnd : M → Nat
  startWindow : Nat → M → M

/-- `recordBin`。窓の途中で epoch が進んでいれば、entry の epoch も進める。 -/
def binOps : ScopeOps BinCall BinInfo where
  key c := toString c.binID
  amount c := c.delta
  now c := c.now
  ignored c := c.delta == 0 || decide (c.binID ≤ 0)
  fresh c :=
    { binID := c.binID, payloadCode := c.payloadCode, reason := none, epoch := c.epoch
      windowStart := c.now, windowEnd := 0 }
  touch c first m :=
    let m :=
      if first then
        { m with windowStart := c.now, payloadCode := c.payloadCode, epoch := c.epoch }
      else if m.epoch < c.epoch then { m with epoch := c.epoch }
      else m
    { m with reason := some c.reason, windowEnd := c.now }
  clearWindow m := { m with reason := none, windowStart := 0, windowEnd := 0 }
  windowEnd m := m.windowEnd
  startWindow t m := { m with windowStart := t }

def bucketOps : ScopeOps BucketCall BucketInfo where
  key c := bucketScopeKey c.nodeID c.pairKey c.styleID c.partNumber
  amount c := c.delta
  now c := c.now
  ignored c := c.delta == 0 || (decide (c.nodeID ≤ 0) || c.partNumber == "")
  fresh c :=
    { nodeID := c.nodeID, coreNodeName := c.coreNodeName, pairKey := c.pairKey
      styleID := c.styleID, partNumber := c.partNumber, payloadCode := c.payloadCode
      reason := none, windowStart := c.now, windowEnd := 0 }
  touch c first m :=
    let m := if first then { m with windowStart := c.now } else m
    let m := if c.payloadCode ≠ "" then { m with payloadCode := c.payloadCode } else m
    { m with reason := some c.reason, windowEnd := c.now }
  clearWindow m := { m with reason := none, windowStart := 0, windowEnd := 0 }
  windowEnd m := m.windowEnd
  startWindow t m := { m with windowStart := t }

variable {C M : Type}

variable (ops : ScopeOps C M)

def ScopeOps.freshEntry (c : C) : Entry M :=
  { delta := 0, lastTouched := 0, evicted := false, info := ops.fresh c }

def ScopeOps.add (c : C) (e : Entry M) : Entry M :=
  { e with
    delta := e.delta + ops.amount c
    lastTouched := ops.now c
    info := ops.touch c (e.delta == 0) e.info }

def ScopeOps.subtract (snap : Entry M) (e : Entry M) : Entry M :=
  { e with
    delta := e.delta - snap.delta
    info :=
      if e.delta - snap.delta = 0 then ops.clearWindow e.info
      else ops.startWindow (ops.windowEnd snap.info) e.info }

def ScopeOps.commit (snap : Entry M) (now : Nat) (e : Entry M) : Entry M :=
  { ops.subtract snap e with lastTouched := now }

/-! ## 記録の呼び出し -/

inductive RecordPC (C : Type) where
  | top (c : C)
  | loaded (c : C) (p : Nat)
  | sawEvicted (c : C) (p : Nat)
  | returned

/-- bin の側、または bucket の側。`calls` は呼ばれた記録の、今いる所。 -/
structure Side (C M : Type) where
  entries : PtrMap String (Entry M)
  calls : List (RecordPC C)

def Side.init : Side C M := { entries := PtrMap.empty, calls := [] }

def Side.record (s : Side C M) (c : C) : Side C M :=
  if ops.ignored c then s else { s with calls := s.calls ++ [.top c] }

def Side.advance (s : Side C M) (i : Nat) : Side C M :=
  match s.calls[i]? with
  | some (.top c) =>
    let (entries, p) := s.entries.loadOrStore (ops.key c) (ops.freshEntry c)
    { s with entries, calls := s.calls.set i (.loaded c p) }
  | some (.loaded c p) =>
    match s.entries.get? p with
    | none => s
    | some (_, e) =>
      if e.evicted then
        -- evictIdle に先を越された。ここに足すと消えるので、やり直す
        { s with calls := s.calls.set i (.sawEvicted c p) }
      else
        { entries := s.entries.modify p (ops.add c)
          calls := s.calls.set i .returned }
  | some (.sawEvicted c p) =>
    { s with
      entries := s.entries.compareAndDelete (ops.key c) p
      calls := s.calls.set i (.top c) }
  | some .returned => s
  | none => s

def Entry.idle (e : Entry M) (cutoff : Nat) : Bool :=
  e.delta == 0 && e.lastTouched != 0 && decide (e.lastTouched < cutoff)

/-! ## `flush` -/

structure Snap (M : Type) where
  key : String
  ptr : Nat
  entry : Entry M

/-- `flushBins` / `flushBuckets` の callback の、今いる所。名前の三つは bucket だけが通る。 -/
inductive SendPC where
  | snapped
  | named
  | unnamed
  | allocated (seq : Nat)
  | encoded (seq : Nat)
  | enqueued (seq : Nat)

/-- `flush` の、今いる所。`idle` は `flushMu` が空いていること。 -/
inductive FlushPC where
  | idle
  | flushBins (cb : Option (Snap BinInfo × SendPC))
  | flushBuckets (cb : Option (Snap BucketInfo × SendPC))
  | evictBins (cutoff : Nat) (marked : Option (String × Nat))
  | evictBuckets (cutoff : Nat) (marked : Option (String × Nat))

/-- outbox に入った電文。bucket の電文の `scopeKey` は控えで、電文には載らない。 -/
inductive Envelope where
  | bin (d : BinUOPDelta)
  | bucket (scopeKey : String) (d : LinesideBucketDelta)

/-- `accumulator` の状態。`dropped` は `flushBuckets` が捨てた窓の控え。 -/
structure Accumulator where
  stationID : String
  bins : Side BinCall BinInfo
  buckets : Side BucketCall BucketInfo
  seqs : DeltaScope → Nat
  outbox : List Envelope
  dropped : List (String × Int)
  flushFailures : Nat
  pc : FlushPC

def newAccumulator (stationID : String) (seqs : DeltaScope → Nat) : Accumulator where
  stationID := stationID
  bins := Side.init
  buckets := Side.init
  seqs := seqs
  outbox := []
  dropped := []
  flushFailures := 0
  pc := .idle

def binEnvelope (stationID : String) (e : Entry BinInfo) (seq : Nat) : BinUOPDelta where
  station := stationID
  binID := e.info.binID
  payloadCode := e.info.payloadCode
  delta := e.delta
  reason := e.info.reason
  sequenceID := seq
  epoch := e.info.epoch
  windowStart := e.info.windowStart
  windowEnd := e.info.windowEnd

def bucketEnvelope (e : Entry BucketInfo) (seq : Nat) : LinesideBucketDelta where
  coreNodeName := e.info.coreNodeName
  pairKey := e.info.pairKey
  styleID := e.info.styleID
  partNumber := e.info.partNumber
  payloadCode := e.info.payloadCode
  delta := e.delta
  reason := e.info.reason
  sequenceID := seq
  windowStart := e.info.windowStart
  windowEnd := e.info.windowEnd

def takeSnap (entries : PtrMap String (Entry M)) (p : Nat) : Option (Snap M × SendPC) :=
  match entries.get? p with
  | none => none
  | some (k, e) => if e.delta = 0 then none else some ({ key := k, ptr := p, entry := e }, .snapped)

def resolveName (e : Entry BucketInfo) (lookup : Option String) : Entry BucketInfo :=
  if e.info.coreNodeName = "" then
    { e with info := { e.info with coreNodeName := lookup.getD "" } }
  else e

def flushBinsStep (a : Accumulator) (s : Snap BinInfo) (ok : Bool) (now : Nat) :
    SendPC → Accumulator
  | .snapped | .named | .unnamed =>
    if ok then
      let (seqs, seq) := allocateInventoryDeltaSeq a.seqs ⟨.bin, s.key, s.entry.info.epoch⟩
      { a with seqs, pc := .flushBins (some (s, .allocated seq)) }
    else { a with pc := .flushBins none }
  | .allocated seq =>
    if ok then { a with pc := .flushBins (some (s, .encoded seq)) }
    else { a with pc := .flushBins none }
  | .encoded seq =>
    if ok then
      { a with
        outbox := a.outbox ++ [.bin (binEnvelope a.stationID s.entry seq)]
        pc := .flushBins (some (s, .enqueued seq)) }
    else { a with flushFailures := a.flushFailures + 1, pc := .flushBins none }
  | .enqueued _ =>
    { a with
      bins := { a.bins with entries := a.bins.entries.modify s.ptr (binOps.commit s.entry now) }
      pc := .flushBins none }

def flushBucketsStep (a : Accumulator) (s : Snap BucketInfo) (ok : Bool) (now : Nat)
    (lookup : Option String) : SendPC → Accumulator
  | .snapped =>
    let e := resolveName s.entry lookup
    if e.info.coreNodeName = "" then
      { a with
        flushFailures := a.flushFailures + 1
        pc := .flushBuckets (some ({ s with entry := e }, .unnamed)) }
    else { a with pc := .flushBuckets (some ({ s with entry := e }, .named)) }
  | .unnamed =>
    -- 送れない窓を捨てる。触った時刻は残さない
    { a with
      buckets :=
        { a.buckets with
          entries := a.buckets.entries.modify s.ptr (bucketOps.subtract s.entry) }
      dropped := a.dropped ++ [(s.key, s.entry.delta)]
      pc := .flushBuckets none }
  | .named =>
    if ok then
      let (seqs, seq) := allocateInventoryDeltaSeq a.seqs ⟨.bucket, s.key, 0⟩
      { a with seqs, pc := .flushBuckets (some (s, .allocated seq)) }
    else { a with pc := .flushBuckets none }
  | .allocated seq =>
    if ok then { a with pc := .flushBuckets (some (s, .encoded seq)) }
    else { a with pc := .flushBuckets none }
  | .encoded seq =>
    if ok then
      { a with
        outbox := a.outbox ++ [.bucket s.key (bucketEnvelope s.entry seq)]
        pc := .flushBuckets (some (s, .enqueued seq)) }
    else { a with flushFailures := a.flushFailures + 1, pc := .flushBuckets none }
  | .enqueued _ =>
    { a with
      buckets :=
        { a.buckets with
          entries := a.buckets.entries.modify s.ptr (bucketOps.commit s.entry now) }
      pc := .flushBuckets none }

def evictMark (s : Side C M) (cutoff p : Nat) : Side C M × Option (String × Nat) :=
  match s.entries.get? p with
  | none => (s, none)
  | some (k, e) =>
    if e.idle cutoff then
      ({ s with entries := s.entries.modify p fun e => { e with evicted := true } }, some (k, p))
    else (s, none)

def evictDelete (s : Side C M) (kp : String × Nat) : Side C M :=
  { s with entries := s.entries.compareAndDelete kp.1 kp.2 }

inductive AccAction where
  | recordBin (c : BinCall)
  | recordBucket (c : BucketCall)
  | advanceBin (i : Nat)
  | advanceBucket (i : Nat)
  | flush
  | visit (p : Nat)
  | callback (ok : Bool) (now : Nat) (lookup : Option String)
  | rangeDone (cutoff : Nat)

def accStep (a : Accumulator) : AccAction → Accumulator
  | .recordBin c => { a with bins := a.bins.record binOps c }
  | .recordBucket c => { a with buckets := a.buckets.record bucketOps c }
  | .advanceBin i => { a with bins := a.bins.advance binOps i }
  | .advanceBucket i => { a with buckets := a.buckets.advance bucketOps i }
  | .flush =>
    match a.pc with
    | .idle => { a with pc := .flushBins none }
    | _ => a
  | .visit p =>
    match a.pc with
    | .flushBins none => { a with pc := .flushBins (takeSnap a.bins.entries p) }
    | .flushBuckets none => { a with pc := .flushBuckets (takeSnap a.buckets.entries p) }
    | .evictBins cutoff none =>
      let (bins, marked) := evictMark a.bins cutoff p
      { a with bins, pc := .evictBins cutoff marked }
    | .evictBuckets cutoff none =>
      let (buckets, marked) := evictMark a.buckets cutoff p
      { a with buckets, pc := .evictBuckets cutoff marked }
    | _ => a
  | .callback ok now lookup =>
    match a.pc with
    | .flushBins (some (s, pc)) => flushBinsStep a s ok now pc
    | .flushBuckets (some (s, pc)) => flushBucketsStep a s ok now lookup pc
    | .evictBins cutoff (some kp) =>
      { a with bins := evictDelete a.bins kp, pc := .evictBins cutoff none }
    | .evictBuckets cutoff (some kp) =>
      { a with buckets := evictDelete a.buckets kp, pc := .evictBuckets cutoff none }
    | _ => a
  | .rangeDone cutoff =>
    match a.pc with
    | .flushBins none => { a with pc := .flushBuckets none }
    | .flushBuckets none => { a with pc := .evictBins cutoff none }
    | .evictBins cutoff none => { a with pc := .evictBuckets cutoff none }
    | .evictBuckets _ none => { a with pc := .idle }
    | _ => a

end Shingo.Edge
