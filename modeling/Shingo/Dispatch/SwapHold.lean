import Shingo.Dispatch.Allocator
import Shingo.Dispatch.Rebind
import Shingo.Dispatch.Scanner
import Shingo.Infra.Table

/-!
# 二台で行う入れ替え（swap）の門

`shingo-core/dispatch` の `swap_leg_role.go`・`swap_hold.go`・`swap_peer.go` と、
`complex_dispatch.go` の `applySwapGates`・`setQueueReason`・`DispatchPreparedComplex`。

swap は、line の bin を持ち去る leg（evac）と、line に bin を置く leg（supply）の二つの order で
行う。二つは `sibling_order_uuid` で互いを指す。走査は supply を何度でもやり直す。やり直しは、
行程を解き直し（`prepareComplexSteps`）、swap の門を通り（`applySwapGates`）、置き先と bin を
取って fleet に送る（`finishComplex`）。

行程の解き直しと、門より後の部品（slot と bin の予約、lane の口、fleet）の答えは `Replay` にある。
-/

namespace Shingo.Dispatch

open Infra (updateWhere)
open Scanner (isAcquiring)

/-! ## leg の役目 -/

def legSecuresOwnReplacement (steps : List ResolvedStep) : Bool :=
  decide (1 < steps.countP fun s => decide (s.action = .pickup))

/-! ## row -/

/-- coordinated な order の `queue_code`。走査の書くものに、相手を待つことが加わる。 -/
inductive ComplexCode where
  | scan (code : QueueCode)
  | waitingForPartner
  deriving DecidableEq

/-- swap の leg の row。`stepsReadable` は steps_json が読めること。`queueCode` の無いのは空文字列。 -/
structure ComplexOrder extends Order where
  edgeUUID : String
  siblingOrderUUID : String := ""
  stationID : String := ""
  stepsReadable : Bool := true
  queueReason : String := ""
  queueCode : Option ComplexCode := none
  queueCause : String := ""
  deriving DecidableEq

namespace ComplexOrder

def decodeSteps (o : ComplexOrder) : Option (List ResolvedStep) :=
  if o.stepsReadable then some o.steps else none

/-- `UPDATE` が書く列。`id` と `edge_uuid` は書かない。 -/
def rewrite (o : ComplexOrder) (g : ComplexOrder → ComplexOrder) : ComplexOrder :=
  { g o with id := o.id, edgeUUID := o.edgeUUID }

end ComplexOrder

structure SwapBin where
  id : Nat
  claimedBy : Option Nat := none
  retired : Bool := false

inductive SwapAuditAction where
  | halfAccepted
  | supplyParkedPeerDied
  | halfCompleted

structure SwapAudit where
  orderID : Nat
  action : SwapAuditAction
  detail : String

/-- swap の門が読み書きする表。`orders` は新しい row が前にある。 -/
structure SwapTable where
  orders : List ComplexOrder
  newestFirst : orders.Pairwise fun a b => b.id < a.id
  bins : List SwapBin := []
  audits : List SwapAudit := []
  vendorCancels : List String := []

namespace SwapTable

variable (t : SwapTable)

def getOrder (id : Nat) : Option ComplexOrder :=
  t.orders.find? fun o => decide (o.id = id)

/-- 同じ uuid の row が幾つもあれば、新しいもの（`ORDER BY id DESC`）。 -/
def getOrderByUUID (uuid : String) : Option ComplexOrder :=
  t.orders.find? fun o => decide (o.edgeUUID = uuid)

def orderSiblingUUID (id : Nat) : Option String :=
  (t.getOrder id).map (·.siblingOrderUUID)

def listBinsByClaim (orderID : Nat) : List SwapBin :=
  t.bins.filter fun b => decide (b.claimedBy = some orderID) && !b.retired

theorem newestFirst_rewrite {orders : List ComplexOrder}
    (h : orders.Pairwise fun a b => b.id < a.id) (p : ComplexOrder → Bool)
    (g : ComplexOrder → ComplexOrder) :
    (updateWhere p (·.rewrite g) orders).Pairwise fun a b => b.id < a.id := by
  have hid : ∀ o : ComplexOrder, (if p o then o.rewrite g else o).id = o.id := by
    intro o
    split
    · rfl
    · rfl
  refine List.pairwise_map.mpr (h.imp fun {a b} hab => ?_)
  rw [hid, hid]
  exact hab

def update (p : ComplexOrder → Bool) (g : ComplexOrder → ComplexOrder) : SwapTable :=
  { t with
    orders := updateWhere p (·.rewrite g) t.orders
    newestFirst := newestFirst_rewrite t.newestFirst p g }

def linkSiblings (uuidA uuidB : String) : SwapTable :=
  t.update (fun o => decide (o.edgeUUID = uuidA) || decide (o.edgeUUID = uuidB)) fun o =>
    { o with siblingOrderUUID := if o.edgeUUID = uuidA then uuidB else uuidA }

def appendAudit (orderID : Nat) (action : SwapAuditAction) (detail : String) : SwapTable :=
  { t with audits := t.audits ++ [{ orderID, action, detail }] }

def releaseClaims (orderID : Nat) : SwapTable :=
  { t with
    bins := updateWhere (fun b => decide (b.claimedBy = some orderID))
      (fun b => { b with claimedBy := none }) t.bins }

def claimBins (orderID : Nat) (ids : List Nat) : SwapTable :=
  { t with
    bins := updateWhere (fun b => ids.contains b.id)
      (fun b => { b with claimedBy := some orderID }) t.bins }

end SwapTable

/-! ## 手元の写しと row -/

structure Working where
  table : SwapTable
  order : ComplexOrder

namespace Working

def write (w : Working) (g : ComplexOrder → ComplexOrder) : Working where
  table := w.table.update (fun o => decide (o.id = w.order.id)) g
  order := w.order.rewrite g

/--
`lifecycle.transition`。表に無い遷移は断る。終わりの status は row が生きているときだけ、
ほかの status は row が手元の写しと同じ status のときだけ書く。終わりの status は、
負けても claim を返す。
-/
def transition (w : Working) (dst : OrderStatus) : Working :=
  if !isValidTransition w.order.status dst then w
  else if dst.isTerminal then
    let released : Working := { w with table := w.table.releaseClaims w.order.id }
    if (w.table.getOrder w.order.id).any fun row => !row.status.isTerminal then
      released.write fun o => { o with status := dst }
    else released
  else if (w.table.getOrder w.order.id).any fun row => decide (row.status = w.order.status) then
    w.write fun o => { o with status := dst }
  else w

/-- 文・code・cause のどれも変わらなければ書かない。 -/
def setQueueReason (w : Working) (code : Option ComplexCode) (cause reason : String) : Working :=
  if w.order.queueReason = reason ∧ w.order.queueCode = code ∧ w.order.queueCause = cause then w
  else w.write fun o => { o with queueReason := reason, queueCode := code, queueCause := cause }

end Working

/-! ## 待たせるか -/

inductive SwapTerminal where
  | failed
  | cancelled
  | skipped
  | abandoned
  deriving DecidableEq

def SwapTerminal.text : SwapTerminal → String
  | .failed => "failed"
  | .cancelled => "cancelled"
  | .skipped => "skipped"
  | .abandoned => "abandoned"

def swapLegCommittedToFleet : OrderStatus → Bool
  | .dispatched | .inTransit | .staged | .delivered | .confirmed => true
  | _ => false

def swapTerminalKind : OrderStatus → Option SwapTerminal
  | .skipped => some .skipped
  | .failed => some .failed
  | .cancelled => some .cancelled
  | _ => none

inductive HoldReason where
  | awaitingSupply
  | untilSupplySecures
  | clearerDied
  | untilEvacClears
  deriving DecidableEq

structure HoldFaults where
  sibUUID : Bool := false
  sib : Bool := false
  link : Bool := false
  claims : Bool := false

def repairBackLink (fails : Bool) (t : SwapTable) (order : ComplexOrder) (sib : ComplexOrder)
    (sibUUID : String) : SwapTable :=
  if sib.siblingOrderUUID ≠ order.edgeUUID ∧ fails = false then
    t.linkSiblings order.edgeUUID sibUUID
  else t

def evacHeld (claimsFail : Bool) (t : SwapTable) : Option ComplexOrder → Option HoldReason
  | none => some .awaitingSupply
  | some sib =>
    if claimsFail then none
    else if 0 < (t.listBinsByClaim sib.id).length then none
    else if swapLegCommittedToFleet sib.status then none
    else some .untilSupplySecures

/-- line に置く leg を待たせるか。死んだ相手は、line を空けていない。 -/
def fillerHeld : Option ComplexOrder → Option HoldReason
  | none => none
  | some sib =>
    match swapTerminalKind sib.status with
    | some kind => if kind = .skipped then none else some .clearerDied
    | none =>
      match sib.decodeSteps with
      | none => none
      | some sibSteps =>
        if !legSecuresOwnReplacement sibSteps then none
        else if swapLegCommittedToFleet sib.status then none
        else some .untilEvacClears

def swapLegHeld (f : HoldFaults) (t : SwapTable) (order : ComplexOrder)
    (steps : List ResolvedStep) : SwapTable × Option HoldReason :=
  match if f.sibUUID then none else t.orderSiblingUUID order.id with
  | none => (t, none)
  | some sibUUID =>
    if sibUUID = "" then (t, none)
    else
      let sib := if f.sib then none else t.getOrderByUUID sibUUID
      let repaired := match sib with
        | some s => repairBackLink f.link t order s sibUUID
        | none => t
      let takesLine := legTakesLineBin steps order.processNode
      let placesLine := legPlacesLineBin steps order.processNode
      if takesLine && !legSecuresOwnReplacement steps then
        (repaired, evacHeld f.claims repaired sib)
      else if placesLine && !takesLine then (repaired, fillerHeld sib)
      else (repaired, none)

/-! ## 片方が終わったとき -/

variable (t : SwapTable)

def cancelOrder (ord : ComplexOrder) : SwapTable :=
  if ord.status.isTerminal then t
  else
    let t := if ord.vendorOrderID ≠ "" then
        { t with vendorCancels := t.vendorCancels ++ [ord.vendorOrderID] }
      else t
    (Working.transition ⟨t, ord⟩ .cancelled).table

def OrderStatus.text : OrderStatus → String
  | .pending => "pending"
  | .sourcing => "sourcing"
  | .queued => "queued"
  | .submitted => "submitted"
  | .dispatched => "dispatched"
  | .acknowledged => "acknowledged"
  | .inTransit => "in_transit"
  | .staged => "staged"
  | .delivered => "delivered"
  | .confirmed => "confirmed"
  | .faulted => "faulted"
  | .failed => "failed"
  | .cancelled => "cancelled"
  | .reshuffling => "reshuffling"
  | .skipped => "skipped"

def resolveSwapPeer (peer dead : ComplexOrder) (reason : String) : SwapTable :=
  if !peer.status.isTerminal then cancelOrder t peer
  else if peer.status = .delivered ∨ peer.status = .confirmed then
    t.appendAudit peer.id .halfCompleted
      ("sibling " ++ toString dead.id ++ " terminal (" ++ dead.status.text
        ++ ") while this leg reached " ++ peer.status.text ++ " — " ++ reason)
  else t

def peerIsParkedWaitingForMaterial (peer : ComplexOrder) : Bool :=
  isAcquiring peer.status && decide (peer.queueCode = some (.scan .waitingForMaterial))

structure PeerFaults where
  dead : Bool := false
  sibUUID : Bool := false
  peer : Bool := false

def settleSwapPeer (dead peer : ComplexOrder) (kind : SwapTerminal) : SwapTable :=
  -- 行程の読めない leg は evac として扱わない
  let deadIsEvac := dead.decodeSteps.any fun steps => legTakesLineBin steps dead.processNode
  if kind = .abandoned then
    t.appendAudit peer.id .halfAccepted
      ("supply (order " ++ toString dead.id
        ++ ") abandoned by operator accepting the half-swap; partner left to complete")
  else if deadIsEvac then
    if kind = .skipped then t
    else if peerIsParkedWaitingForMaterial peer then
      t.appendAudit peer.id .supplyParkedPeerDied
        ("evac sibling " ++ toString dead.id ++ " terminal (" ++ kind.text
          ++ ") while this supply is parked waiting for material (" ++ peer.queueCause
          ++ ") — left alive for operator stock/resume")
    else
      resolveSwapPeer t peer dead
        ("two-robot swap evac (order " ++ toString dead.id ++ ") " ++ kind.text
          ++ "; cancelling supply so it cannot drop onto an un-cleared line")
  else
    resolveSwapPeer t peer dead
      ("two-robot swap supply (order " ++ toString dead.id ++ ") " ++ kind.text
        ++ "; cancelling evac so it cannot strand the line")

def handleSwapPeerTerminal (f : PeerFaults) (t : SwapTable) (deadOrderID : Nat)
    (kind : SwapTerminal) : SwapTable :=
  match if f.dead then none else t.getOrder deadOrderID with
  | none => t
  | some dead =>
    match if f.sibUUID then none else t.orderSiblingUUID deadOrderID with
    | none => t
    | some sibUUID =>
      if sibUUID = "" then t
      else
        match if f.peer then none else t.getOrderByUUID sibUUID with
        | none => t
        | some peer => settleSwapPeer t dead peer kind

def readSwapPeer (f : PeerFaults) (t : SwapTable) (deadOrderID : Nat) :
    Option (ComplexOrder × ComplexOrder) := do
  let dead ← if f.dead then none else t.getOrder deadOrderID
  let sibUUID ← if f.sibUUID then none else t.orderSiblingUUID deadOrderID
  let peer ← if sibUUID = "" || f.peer then none else t.getOrderByUUID sibUUID
  pure (dead, peer)

/-- `handleSwapPeerTerminal`。相手を読んだ後、status を書くまでに、表は `later` になっている。 -/
def handleSwapPeerTerminalAmid (f : PeerFaults) (t later : SwapTable) (deadOrderID : Nat)
    (kind : SwapTerminal) : SwapTable :=
  match readSwapPeer f t deadOrderID with
  | none => later
  | some (dead, peer) => settleSwapPeer later dead peer kind

/-! ## やり直しの門 -/

structure GateFaults where
  sibUUID : Bool := false
  sib : Bool := false
  link : Bool := false
  peer : PeerFaults := {}
  self : Bool := false
  hold : HoldFaults := {}

inductive GateStop where
  | unwound (orderID sibID : Nat) (sibStatus : OrderStatus)
  | held (reason : HoldReason)

def unwindDeadSibling (f : GateFaults) (t : SwapTable) (order : ComplexOrder) :
    SwapTable × Option GateStop :=
  match if f.sibUUID then none else t.orderSiblingUUID order.id with
  | none => (t, none)
  | some sibUUID =>
    if sibUUID = "" then (t, none)
    else
      match if f.sib then none else t.getOrderByUUID sibUUID with
      | none => (t, none)
      | some sib =>
        match if sib.status.isTerminal then swapTerminalKind sib.status else none with
        | none => (t, none)
        | some kind =>
          let t := handleSwapPeerTerminal f.peer (repairBackLink f.link t order sib sibUUID)
            sib.id kind
          if (if f.self then none else t.getOrder order.id).any fun self => self.status.isTerminal
          then (t, some (.unwound order.id sib.id sib.status))
          else (t, none)

def shortRef (ref : String) : String :=
  let cs := ref.toList
  let i := cs.idxOf '-'
  if 0 < i ∧ i < cs.length then String.ofList (cs.take i)
  else if 8 < cs.length then String.ofList (cs.take 8)
  else ref

def partnerSentence (sibling : String) : String :=
  if sibling = "" then "Waiting for partner robot"
  else "Holding this leg until partner order " ++ shortRef sibling ++ " secures a bin"

def applySwapGates (f : GateFaults) (w : Working) (resolvedSteps : List ResolvedStep) :
    Working × Option GateStop :=
  match unwindDeadSibling f w.table w.order with
  | (t, some stop) => ({ w with table := t }, some stop)
  | (t, none) =>
    match swapLegHeld f.hold t w.order resolvedSteps with
    | (t, some reason) =>
      ((Working.setQueueReason { w with table := t } (some .waitingForPartner) "swap-hold"
        (partnerSentence w.order.siblingOrderUUID)), some (.held reason))
    | (t, none) => ({ w with table := t }, none)

/-! ## 行程を解き直す -/

structure ParkNote where
  code : QueueCode
  cause : String
  reason : String

variable (w : Working)

def Working.park (note : ParkNote) : Working :=
  w.setQueueReason (some (.scan note.code)) note.cause note.reason

inductive DigProposal where
  | started
  | parked (note : ParkNote)
  | nothingInTheWay
  | unplannable

inductive Burial where
  | laneUnread (reason : String)
  | laneMissing
  | proposed (reason : String) (result : DigProposal)

def handleComplexBurial : Burial → Working
  | .laneUnread reason => w.park ⟨.waitingForSlot, "read-failed", reason⟩
  | .laneMissing => w.transition .failed
  | .proposed reason result =>
    let w := w.park ⟨.storageRearranging, "intake-buried", reason⟩
    match result with
    | .started => w.transition .reshuffling
    | .parked note => w.park note
    | .nothingInTheWay => w
    | .unplannable => w.transition .failed

inductive WidenHold where
  | wait (note : ParkNote)
  | reshuffle (burial : Burial)
  | structural

/-- 行程の解き直しの答え。`widened` の `none` は、行程が変わらなかったこと。 -/
inductive PrepareOutcome where
  | resolveBuried (burial : Burial)
  /-- `slot` は、空きの無いのが slot の側であること（`queueCodeForCapacity`）。 -/
  | resolveCapacity (slot : Bool) (reason : String)
  | resolveFailed
  | widened (newSteps : Option (List ResolvedStep)) (hold : Option WidenHold)

def Working.persistSteps : Option (List ResolvedStep) → Working
  | none => w
  | some newSteps => w.write fun o =>
      { o with
        steps := newSteps
        sourceNode := (extractEndpoints newSteps).1
        deliveryNode := (extractEndpoints newSteps).2 }

def Working.placeForDedicatedLoader : Option String → Working
  | none => w
  | some node => w.write fun o => { o with deliveryNode := node }

def prepareComplexSteps (outcome : PrepareOutcome) (loaderNode : Option String) :
    Working × Option (List ResolvedStep) :=
  match w.order.decodeSteps with
  | none => (w.transition .failed, none)
  | some stored =>
    match outcome with
    | .resolveBuried burial => (handleComplexBurial w burial, none)
    | .resolveCapacity slot reason =>
      (w.park ⟨if slot then .waitingForSlot else .waitingForMaterial, "ngrp-resolve", reason⟩, none)
    | .resolveFailed => (w.transition .failed, none)
    | .widened newSteps hold =>
      let w := w.persistSteps newSteps
      match hold with
      | some (.wait note) => (w.park note, none)
      | some (.reshuffle burial) => (handleComplexBurial w burial, none)
      | some .structural => (w.transition .failed, none)
      | none => (w.placeForDedicatedLoader loaderNode, some (newSteps.getD stored))

/-! ## 門の後 -/

inductive TailOutcome where
  | slotParked (cause reason : String)
  | moot
  | materialParked (cause reason : String)
  | malformed
  /-- `digs` は、埋まった pickup のための掘り出しが始まったこと。 -/
  | laneParked (claimed : List Nat) (cause reason : String) (digs : Bool)
  | refused (claimed : List Nat)
  | reindexParked (claimed : List Nat) (reason : String)
  | dispatched (claimed : List Nat) (vendorOrderID : String)

def Working.moveToSourcing : Working :=
  if w.order.status = .sourcing then w else w.transition .sourcing

def Working.acquire (claimed : List Nat) : Working :=
  let w := w.moveToSourcing
  { w with table := w.table.claimBins w.order.id claimed }

def finishComplex : TailOutcome → Working
  | .slotParked cause reason => w.park ⟨.waitingForSlot, cause, reason⟩
  | .moot => w.moveToSourcing.transition .skipped
  | .materialParked cause reason => w.moveToSourcing.park ⟨.waitingForMaterial, cause, reason⟩
  | .malformed => w.moveToSourcing.transition .failed
  | .laneParked claimed cause reason digs =>
    let w := (w.acquire claimed).park ⟨.waitingForSlot, cause, reason⟩
    if digs then w.transition .reshuffling else w
  | .refused claimed => (w.acquire claimed).transition .failed
  | .reindexParked claimed reason =>
    (w.acquire claimed).park ⟨.waitingForSlot, "read-failed", reason⟩
  | .dispatched claimed vendorOrderID =>
    (((w.acquire claimed).transition .dispatched).write
      fun o => { o with vendorOrderID }).setQueueReason none "" ""

/-! ## やり直し -/

structure Replay where
  faults : GateFaults := {}
  prepared : PrepareOutcome
  loaderNode : Option String := none
  tail : TailOutcome

def dispatchPreparedComplex (r : Replay) : Working :=
  if !isAcquiring w.order.status then w
  else
    match prepareComplexSteps w r.prepared r.loaderNode with
    | (w, none) => w
    | (w, some resolvedSteps) =>
      match applySwapGates r.faults w resolvedSteps with
      | (w, some _) => w
      | (w, none) => finishComplex w r.tail

def replayComplex (id : Nat) (r : Replay) : SwapTable :=
  match t.getOrder id with
  | none => t
  | some order =>
    if !isAcquiring order.status || order.parentOrderID.isSome then t
    else (dispatchPreparedComplex ⟨t, order⟩ r).table

def resumeCompound (id : Nat) : SwapTable :=
  match t.getOrder id with
  | none => t
  | some order =>
    if order.status ≠ .reshuffling then t
    else
      ((Working.transition ⟨t, order⟩ .queued).write fun o =>
        { o with queueReason := "", queueCode := none, queueCause := "" }).table

inductive SurvivorAction where
  | replay (r : Replay)
  | resumed

def survivorStep (id : Nat) (t : SwapTable) : SurvivorAction → SwapTable
  | .replay r => replayComplex t id r
  | .resumed => resumeCompound t id

end Shingo.Dispatch
