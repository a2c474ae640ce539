import Shingo.Core.Ledger
import Shingo.Core.Mouth
import Shingo.Dispatch.DigDwell

/-!
# plain な order の走査

`shingo-core/fulfillment/scanner.go` の `tryFulfill` と `dispatchHeldBin`、その下の
`dispatch/store_slot.go`・`dispatch/dispatcher.go` の `DispatchDirect`。

走査は order を一つずつ見て、bin と slot を予約し、送る直前に claim して fleet を呼ぶ。
bin を持たない order は探し（`fulfillFresh`）、`bin_id` の在る order は持っている bin を
使う（`dispatchHeldBin`）。fleet が断れば、order の持つものを全部返して次の走査を待つ。

走査が interface で受け取る部品（置き先の空き、source を探すもの、lane の口、掘り出し、
group から slot を選ぶもの）は `Scanner` の field にする。書き込みは失敗せず、
ほかの誰も表を書かない。
-/

namespace Shingo.Dispatch

open Core

/-! ## 表 -/

inductive QueueCode where
  | waitingForMaterial
  | waitingForSlot
  | storageRearranging
  | fleetUnavailable
  deriving DecidableEq

inductive ScanCause where
  | destNodeUnresolved
  | storeSlotContended
  | ngrpResolve
  | binLockRace
  | claimFailed
  | laneAcquireError
  | laneTargetBuried
  | fleetRefusedCreate
  | readFailed
  | reported (cause : String)
  deriving DecidableEq

structure PlainColumns where
  sourceNode : String := ""
  deliveryNode : String := ""
  payloadCode : String := ""
  sourceIntent : SourceIntent := .full
  remainingUOP : Option Int := none
  noDemand : Bool := false
  vendorOrderID : String := ""
  queueDetail : Option (QueueCode × ScanCause) := none

structure ScanWorld where
  ledger : Ledger
  columns : Nat → PlainColumns
  slotClaim : Nat → Option Nat := fun _ => none
  mouth : MouthTable := []

namespace ScanWorld

variable (w : ScanWorld)

def row (id : Nat) : Option OrderRow := w.ledger.orders.find? (·.id == id)

def editRow (id : Nat) (f : OrderRow → OrderRow) (hf : ∀ o, (f o).id = o.id)
    (hp : ∀ o, (f o).parentOrderID = o.parentOrderID) : ScanWorld :=
  { w with
    ledger := w.ledger.updateOrders (fun o => if o.id = id then f o else o)
      (fun o => by split; exacts [hf o, rfl])
      (fun o => by split; exacts [hp o, rfl]) }

def setStatus (id : Nat) (status : OrderStatus) : ScanWorld :=
  w.editRow id (fun o => { o with status }) (fun _ => rfl) fun _ => rfl

def setBinID (id binID : Nat) : ScanWorld :=
  w.editRow id (fun o => { o with binID := some binID }) (fun _ => rfl) fun _ => rfl

def editColumns (id : Nat) (f : PlainColumns → PlainColumns) : ScanWorld :=
  { w with columns := fun i => if i = id then f (w.columns i) else w.columns i }

def setQueueReason (id : Nat) (code : QueueCode) (cause : ScanCause) : ScanWorld :=
  w.editColumns id fun c => { c with queueDetail := some (code, cause) }

def setDeliveryNode (id : Nat) (name : String) : ScanWorld :=
  w.editColumns id fun c => { c with deliveryNode := name }

def transition (id : Nat) (dst : OrderStatus) : Option ScanWorld :=
  match w.row id with
  | some o => if (validTransitions o.status).contains dst then some (w.setStatus id dst) else none
  | none => none

/-- もう sourcing なら何もしない。失敗は log に残るだけ。 -/
def moveToSourcing (id : Nat) : ScanWorld :=
  if (w.row id).any (·.status == .sourcing) then w else (w.transition id .sourcing).getD w

def park (id : Nat) (code : QueueCode) (cause : ScanCause) : ScanWorld :=
  (w.setQueueReason id code cause).moveToSourcing id

end ScanWorld

/-! ## 部品 -/

inductive SourceResult where
  | found (binID : Nat) (node : NodeRow)
  | wait (code : QueueCode) (cause : ScanCause)
  | reshuffle
  | structural

inductive EntryKind where
  | freshBin
  | heldBin
  deriving DecidableEq

inductive LaneAdmission where
  | admitted
  | refused (cause : ScanCause)
  | error

inductive ReshufflePlan where
  | planned
  | wait (cause : ScanCause)
  | failed

inductive CommitError where
  | syntheticLocation
  | other
  deriving DecidableEq

structure Scanner where
  checkDropoffCapacity : ScanWorld → Nat → Option ScanCause
  findSource : ScanWorld → Nat → SourceResult
  acquireLanes : ScanWorld → Nat → NodeRow → NodeRow → EntryKind → LaneAdmission × MouthTable
  buriedForHeldBin : ScanWorld → Nat → Bool
  planBuriedReshuffle : ScanWorld → Nat → ReshufflePlan
  resolver : Option (ScanWorld → Nat → NodeRow → Option NodeRow)
  isLocked : ScanWorld → Nat → Bool
  isStor : NodeRow → Bool
  isGroup : NodeRow → Bool
  commitError : ScanWorld → Nat → NodeRow → NodeRow → Option CommitError
  mintVendorOrderID : ScanWorld → Nat → String

namespace Scanner

/-! ## 置き先の slot -/

variable (s : Scanner)

def isStorageDropoff (plant : Plant) (deliveryNode : String) : Bool :=
  deliveryNode != "" &&
    (plant.getNodeByDotName deliveryNode).any fun node =>
      !node.isSynthetic &&
        (s.isStor node || (node.parentID.bind plant.getNode).any fun p => p.isLane || s.isGroup p)

inductive ReserveError where
  | syntheticUnresolved
  | slot (e : ClaimStoreSlotError)
  | foreignKey
  | destMissing

def resolveSyntheticDropoff (w : ScanWorld) (id : Nat) : Except ReserveError ScanWorld :=
  match s.resolver, w.ledger.plant.getNodeByDotName (w.columns id).deliveryNode with
  | some resolve, some node =>
    if (w.columns id).deliveryNode = "" || !node.isSynthetic then .ok w
    else
      match resolve w id node with
      | none => .error .syntheticUnresolved
      | some n => .ok (w.setDeliveryNode id n.name)
  | _, _ => .ok w

variable (w : ScanWorld)

def releaseSlotReservation (nodeID id : Nat) : ScanWorld :=
  { w with
    ledger := w.ledger.deleteReservations fun r => r.orderID == id && r.target == .slot nodeID }

def redirectStoreOffDugLane (w : ScanWorld) (id : Nat) : ScanWorld :=
  let plant := w.ledger.plant
  let c := w.columns id
  if c.noDemand || !s.isStorageDropoff plant c.deliveryNode then w
  else
    match s.resolver, plant.getNodeByDotName c.deliveryNode with
    | some resolve, some node =>
      match plant.laneForNode node with
      | none => w
      | some lane =>
        match s.isLocked w lane.id, lane.parentID.bind plant.getNode with
        | true, some group =>
          match resolve w id group with
          | none => w
          | some n =>
            if n.id = node.id then w
            else (releaseSlotReservation w node.id id).setDeliveryNode id n.name
        | _, _ => w
    | _, _ => w

def claimStoreSlotFor (id : Nat) (node : NodeRow) : Except ReserveError ScanWorld :=
  match h : claimStoreSlot w.ledger.plant id node with
  | .error e => .error (.slot e)
  | .ok plant =>
    if hid : w.ledger.hasOrder id then
      .ok { w with
        ledger := { w.ledger with
          plant
          reservedBy := by
            intro r hr
            rcases claimStoreSlot_rows h with ⟨hrows, -⟩ | hrows <;> rw [hrows] at hr
            · exact w.ledger.reservedBy r hr
            · rcases List.mem_append.mp hr with hr | hr
              · exact w.ledger.reservedBy r hr
              · rw [List.mem_singleton.mp hr]
                exact w.ledger.mem_ids_of_hasOrder hid } }
    else .error .foreignKey

/-- `reserveStorageDropoff`。slot でない行き先には予約が要らない。 -/
def secureDropoff (w : ScanWorld) (id : Nat) : Except ReserveError ScanWorld :=
  let plant := w.ledger.plant
  let dest := (w.columns id).deliveryNode
  if !s.isStorageDropoff plant dest then .ok w
  else
    match plant.getNodeByDotName dest with
    | none => .error .destMissing
    | some node => claimStoreSlotFor w id node

/-- 失敗しても、それまでに書いた行き先は残る。 -/
def reserveStorageDropoff (w : ScanWorld) (id : Nat) : ScanWorld × Except ReserveError NodeRow :=
  match s.resolveSyntheticDropoff w id with
  | .error e => (w, .error e)
  | .ok w =>
    let w := s.redirectStoreOffDugLane w id
    match s.secureDropoff w id with
    | .error e => (w, .error e)
    | .ok w =>
      match w.ledger.plant.getNodeByDotName (w.columns id).deliveryNode with
      | none => (w, .error .destMissing)
      | some node => (w, .ok node)

def ReserveError.cause : ReserveError → ScanCause
  | .syntheticUnresolved => .ngrpResolve
  | _ => .storeSlotContended

/-! ## 送る直前の claim -/

def slotClaimable (nodeID id : Nat) : Bool :=
  (w.slotClaim nodeID).all (· == id) && !w.ledger.plant.bins.any (·.nodeID == some nodeID) &&
    w.ledger.plant.reservations.contains ⟨id, .slot nodeID, .pending⟩

def confirmSlotRow (id nodeID : Nat) (r : Reservation) : Reservation :=
  if r = ⟨id, .slot nodeID, .pending⟩ then ⟨id, .slot nodeID, .confirmed⟩ else r

theorem confirmSlotRow_target (id nodeID : Nat) (r : Reservation) :
    (confirmSlotRow id nodeID r).target = r.target := by
  unfold confirmSlotRow
  split
  · rename_i h; rw [h]
  · rfl

theorem confirmSlotRow_orderID (id nodeID : Nat) (r : Reservation) :
    (confirmSlotRow id nodeID r).orderID = r.orderID := by
  unfold confirmSlotRow
  split
  · rename_i h; rw [h]
  · rfl

def confirmSlotReservation (nodeID id : Nat) : ScanWorld :=
  { w with
    ledger := { w.ledger with
      plant := { w.ledger.plant with
        reservations := w.ledger.plant.reservations.map (confirmSlotRow id nodeID)
        binReserved := by
          have h := w.ledger.plant.binReserved
          unfold reservedBins at h ⊢
          rw [List.filterMap_map]
          simpa only [Function.comp_def, confirmSlotRow_target] using h }
      reservedBy := by
        intro r hr
        obtain ⟨r', hr', rfl⟩ := List.mem_map.mp hr
        rw [confirmSlotRow_orderID]
        exact w.ledger.reservedBy r' hr' } }

inductive ConfirmError where
  | slotRefused (nodeID : Nat)
  | bin (e : LedgerError)

/-- もう自分の claim なら、予約を confirmed にするだけ。 -/
def confirmDropoffSlot (id nodeID : Nat) : Except ConfirmError ScanWorld :=
  if w.slotClaim nodeID = some id then .ok (confirmSlotReservation w nodeID id)
  else if slotClaimable w nodeID id then
    .ok { confirmSlotReservation w nodeID id with
      slotClaim := fun i => if i = nodeID then some id else w.slotClaim i }
  else .error (.slotRefused nodeID)

def confirmClaim (id binID : Nat) : Except ConfirmError ScanWorld :=
  match w.ledger.claimAndConfirm binID id (w.columns id).remainingUOP with
  | .error e => .error (.bin e)
  | .ok ledger => .ok { w with ledger }

/-- slot、bin の順。bin で失敗しても slot の claim は残る。 -/
def confirmForDispatch (w : ScanWorld) (id binID : Nat) (dest : NodeRow) :
    ScanWorld × Except ConfirmError ScanWorld :=
  if s.isStorageDropoff w.ledger.plant (w.columns id).deliveryNode then
    match confirmDropoffSlot w id dest.id with
    | .error e => (w, .error e)
    | .ok w => (w, confirmClaim w id binID)
  else (w, confirmClaim w id binID)

/-! ## fleet を呼ぶまで -/

inductive Prepared where
  | parked (w : ScanWorld)
  | ready (w : ScanWorld) (source dest : NodeRow)

/-- bin と slot の claim も、予約も、口も order を鍵にして外す。 -/
def releaseClaimByOrder (id : Nat) : ScanWorld :=
  { w with
    ledger := w.ledger.releaseClaimByOrder id
    slotClaim := fun n => (w.slotClaim n).filter (· != id)
    mouth := w.mouth.filter (·.orderID != id) }

def failOrder (id : Nat) : ScanWorld :=
  { releaseClaimByOrder w id with ledger := (w.ledger.terminalizeOrder id .failed).1 }

def planReshuffle (w : ScanWorld) (id : Nat) : ScanWorld :=
  match s.planBuriedReshuffle w id with
  | .planned => (w.transition id .reshuffling).getD w
  | .wait cause => w.setQueueReason id .storageRearranging cause
  | .failed => failOrder w id

def digForBuriedHeldBin (w : ScanWorld) (id : Nat) : ScanWorld :=
  if s.buriedForHeldBin w id then s.planReshuffle w id
  else w.setQueueReason id .storageRearranging .readFailed

def admitAndConfirm (w : ScanWorld) (id binID : Nat) (source dest : NodeRow)
    (kind : EntryKind) : Prepared :=
  let (verdict, mouth) := s.acquireLanes w id source dest kind
  let w := { w with mouth }
  match verdict with
  | .error => .parked (w.park id .waitingForMaterial .laneAcquireError)
  | .refused cause =>
    let w := w.park id .waitingForSlot cause
    -- 持っている bin を探し直す者はいないので、埋もれていればここで掘り出しを計画する
    if kind = .heldBin ∧ cause = .laneTargetBuried then .parked (s.digForBuriedHeldBin w id)
    else .parked w
  | .admitted =>
    match s.confirmForDispatch w id binID dest with
    | (w, .error _) => .parked (w.park id .waitingForMaterial .claimFailed)
    | (_, .ok w) => .ready w source dest

/-- `tryFulfill` の後半。bin を探し、slot、bin の順に予約する。 -/
def fulfillFresh (w : ScanWorld) (id : Nat) : Prepared :=
  if (w.columns id).payloadCode = "" ∧ (w.columns id).sourceIntent = .full then
    .parked (failOrder w id)
  else
    match s.findSource w id with
    | .wait code cause => .parked (w.setQueueReason id code cause)
    | .reshuffle => .parked (s.planReshuffle w id)
    | .structural => .parked (failOrder w id)
    | .found binID source =>
      let w := w.moveToSourcing id
      match w.ledger.plant.getNodeByDotName (w.columns id).deliveryNode with
      | none => .parked (w.park id .waitingForSlot .destNodeUnresolved)
      | some _ =>
        match s.reserveStorageDropoff w id with
        | (w, .error e) => .parked (w.park id .waitingForSlot e.cause)
        | (w, .ok dest) =>
          match w.ledger.reserveForDispatch binID id with
          | .error _ => .parked (w.park id .waitingForMaterial .binLockRace)
          | .ok ledger =>
            let w := ({ w with ledger }.setBinID id binID).editColumns id
              fun c => { c with sourceNode := source.name }
            s.admitAndConfirm w id binID source dest .freshBin

def dispatchHeldBin (w : ScanWorld) (id binID : Nat) : Prepared :=
  let plant := w.ledger.plant
  match plant.getNodeByDotName (w.columns id).sourceNode with
  | none => .parked (w.setQueueReason id .waitingForMaterial .readFailed)
  | some source =>
    match plant.getNodeByDotName (w.columns id).deliveryNode with
    | none => .parked (w.setQueueReason id .waitingForSlot .destNodeUnresolved)
    | some _ =>
      match s.reserveStorageDropoff w id with
      | (w, .error e) => .parked (w.setQueueReason id .waitingForSlot e.cause)
      | (w, .ok dest) => s.admitAndConfirm (w.moveToSourcing id) id binID source dest .heldBin

def isAcquiring (status : OrderStatus) : Bool := status == .queued || status == .sourcing

def prepare (w : ScanWorld) (id : Nat) : Prepared :=
  match w.row id with
  | none => .parked w
  | some o =>
    if !isAcquiring o.status || o.parentOrderID.isSome then .parked w
    else
      match s.checkDropoffCapacity w id with
      | some cause => .parked (w.setQueueReason id .waitingForSlot cause)
      | none =>
        match o.binID with
        | some binID => s.dispatchHeldBin w id binID
        | none => s.fulfillFresh w id

/-! ## fleet を呼ぶ -/

def payloadForDispatch (id : Nat) : ScanWorld :=
  if (w.columns id).payloadCode != "" || (w.columns id).sourceIntent == .empty then w
  else
    match ((w.row id).bind (·.binID)).bind w.ledger.plant.getBin with
    | none => w
    | some b =>
      if b.payloadCode = "" then w
      else w.editColumns id fun c => { c with payloadCode := b.payloadCode }

inductive DispatchError where
  | commit (e : CommitError)
  | illegalTransition
  | fleetRefused
  deriving DecidableEq

/-- fleet が断れば、`dispatched` にした order を `sourcing` に戻す。 -/
def dispatchDirect (w : ScanWorld) (id : Nat) (source dest : NodeRow)
    (accepts : Bool) : ScanWorld × Option DispatchError :=
  let w := payloadForDispatch w id
  match s.commitError w id source dest with
  | some e => (w, some (.commit e))
  | none =>
    match w.transition id .dispatched with
    | none => (w, some .illegalTransition)
    | some w' =>
      if accepts then
        (w'.editColumns id fun c => { c with vendorOrderID := s.mintVendorOrderID w id }, none)
      else (w'.moveToSourcing id, some .fleetRefused)

def DispatchError.detail : DispatchError → QueueCode × ScanCause
  | .commit .syntheticLocation => (.waitingForSlot, .ngrpResolve)
  | _ => (.fleetUnavailable, .fleetRefusedCreate)

/-- 送れなかった後始末。持っているものを全部返す。`bin_id` は書かない。 -/
def rollback (id : Nat) (e : DispatchError) : ScanWorld :=
  let w := releaseClaimByOrder w id
  -- `ReleaseLanesForOrder`
  let w := { w with mouth := (releaseLanesByOwner w.mouth id).1 }
  w.park id e.detail.1 e.detail.2

def reachesFleet (w : ScanWorld) (id : Nat) : Bool :=
  match s.prepare w id with
  | .parked _ => false
  | .ready w source dest => (s.commitError (payloadForDispatch w id) id source dest).isNone

def scanPass (id : Nat) : ScanWorld × Nat → ScanWorld × Nat
  | (w, refusals) =>
    match s.prepare w id with
    | .parked w => (w, refusals)
    | .ready w source dest =>
      match s.dispatchDirect w id source dest (refusals == 0) with
      | (w, none) => (w, refusals)
      | (w, some e) => (rollback w id e, if e = .fleetRefused then refusals - 1 else refusals)

end Scanner

def ScanWorld.isDispatched (w : ScanWorld) (id : Nat) : Bool :=
  (w.row id).any (·.status == .dispatched)

end Shingo.Dispatch
