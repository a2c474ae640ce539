import Shingo.Core.Plant
import Shingo.Dispatch.Order

/-!
# bin の claim と予約の帳簿

claim は `bins.claimed_by` に、予約は `reservations` にあり、同じ事実を二つの表が持つ。
`shingo-core/store/orders.go`・`service/bin_manifest.go`・`store/internal/helpers/place_bin.go`
のうち、この二つを書く transaction。

transaction は commit するか、何も書かない。途中の error は `Except` の `error` で、
そのとき表は元のまま。
-/

namespace Shingo.Core

open Dispatch (OrderStatus)

/-- `orders` の row。 -/
structure OrderRow where
  id : Nat
  parentOrderID : Option Nat := none
  status : OrderStatus := .pending
  binID : Option Nat := none

namespace Plant

/-- id を変えない書き換え。 -/
def updateBins (w : Plant) (f : BinRow → BinRow) (hf : ∀ b, (f b).id = b.id) : Plant :=
  { w with
    bins := w.bins.map f
    binIDs := by
      rw [List.map_map, show BinRow.id ∘ f = BinRow.id from funext hf]
      exact w.binIDs
    binIDsPos := by
      rintro b hb
      obtain ⟨b', hb', rfl⟩ := List.mem_map.mp hb
      rw [hf]
      exact w.binIDsPos b' hb' }

/-- 当たる予約を消す。 -/
def deleteReservations (w : Plant) (p : Reservation → Bool) : Plant :=
  { w with
    reservations := w.reservations.filter fun r => !p r
    binReserved := reservedBins_filter _ w.binReserved }

/-- pending の予約を確定する。 -/
def confirmRow (orderID binID : Nat) (r : Reservation) : Reservation :=
  if r = ⟨orderID, .bin binID, .pending⟩ then ⟨orderID, .bin binID, .confirmed⟩ else r

variable (orderID binID : Nat) (r : Reservation)

theorem confirmRow_target : (confirmRow orderID binID r).target = r.target := by
  unfold confirmRow
  split
  · rename_i h; rw [h]
  · rfl

theorem confirmRow_orderID : (confirmRow orderID binID r).orderID = r.orderID := by
  unfold confirmRow
  split
  · rename_i h; rw [h]
  · rfl

/-- order の bin の予約を確定する。 -/
def confirm (w : Plant) (orderID binID : Nat) : Plant :=
  { w with
    reservations := w.reservations.map (confirmRow orderID binID)
    binReserved := by
      have h := w.binReserved
      unfold reservedBins at h ⊢
      rw [List.filterMap_map]
      simpa only [Function.comp_def, confirmRow_target] using h }

theorem reserveForDispatch_some {w v : Plant} {binID orderID : Nat}
    (h : w.reserveForDispatch binID orderID = some v) :
    (v.nodes = w.nodes ∧ v.bins = w.bins) ∧
      v.reservations = w.reservations ++ [⟨orderID, .bin binID, .pending⟩] := by
  unfold reserveForDispatch at h
  split at h
  · cases h
  · cases h
    exact ⟨⟨rfl, rfl⟩, rfl⟩

/-- bin の予約を、order のものに替える。 -/
def supersede (w : Plant) (orderID binID : Nat) : Plant :=
  { w with
    reservations := w.reservations.filter (fun r => !(r.target == .bin binID)) ++
      [⟨orderID, .bin binID, .confirmed⟩]
    binReserved := by
      have hn := reservedBins_filter (fun r => !(r.target == .bin binID)) w.binReserved
      unfold reservedBins at hn ⊢
      rw [List.filterMap_append]
      refine List.nodup_append.mpr ⟨hn, List.nodup_singleton binID, ?_⟩
      rintro a ha b hmem rfl
      obtain rfl : a = binID := by simpa [ReservationTarget.binID?] using hmem
      obtain ⟨r, hr, ht⟩ := mem_reservedBins_iff.mp ha
      simp [ht] at hr }

end Plant

/-- 帳簿。`orders.parent_order_id` と `reservations.order_id` は `orders` を参照する。 -/
structure Ledger where
  plant : Plant
  orders : List OrderRow
  orderIDs : (orders.map OrderRow.id).Nodup
  orderIDsPos : ∀ o ∈ orders, o.id ≠ 0
  parents : ∀ o ∈ orders, ∀ p, o.parentOrderID = some p → p ∈ orders.map OrderRow.id
  reservedBy : ∀ r ∈ plant.reservations, r.orderID ∈ orders.map OrderRow.id

/-- transaction の誤り。 -/
inductive LedgerError where
  | reservationConflict
  | foreignKey
  | duplicateKey
  | notClaimable (binID : Nat)
  | blockerClaimed (binID childID parentID holderID : Nat)
  | nodeMissing (nodeID : Nat)
  | transitMissing

namespace Ledger

/-! ## 表の読み取り -/

variable (w : Ledger)

/-- order が在る。 -/
def hasOrder (orderID : Nat) : Bool := w.orders.any (·.id == orderID)

/-- bin が在る。 -/
def hasBin (binID : Nat) : Bool := w.plant.bins.any (·.id == binID)

/-- 親の leg。 -/
def isChildOf (parentID orderID : Nat) : Bool :=
  w.orders.any fun o => o.id == orderID && o.parentOrderID == some parentID

/-- 終わっていない。 -/
def isLive (orderID : Nat) : Bool :=
  w.orders.any fun o => o.id == orderID && !o.status.isTerminal

theorem hasOrder_of_mem_ids {orderID : Nat}
    (h : orderID ∈ w.orders.map OrderRow.id) : w.hasOrder orderID = true := by
  obtain ⟨o, ho, rfl⟩ := List.mem_map.mp h
  exact List.any_eq_true.mpr ⟨o, ho, beq_self_eq_true o.id⟩

theorem mem_ids_of_hasOrder {orderID : Nat} (h : w.hasOrder orderID = true) :
    orderID ∈ w.orders.map OrderRow.id := by
  obtain ⟨o, ho, hid⟩ := List.any_eq_true.mp h
  exact List.mem_map.mpr ⟨o, ho, eq_of_beq hid⟩

/-! ## 表への書き込み -/

/-- bin の書き換え。 -/
def updateBins (f : BinRow → BinRow) (hf : ∀ b, (f b).id = b.id) : Ledger :=
  { w with plant := w.plant.updateBins f hf }

/-- 予約の `DELETE`。 -/
def deleteReservations (p : Reservation → Bool) : Ledger :=
  { w with
    plant := w.plant.deleteReservations p
    reservedBy := fun r hr => w.reservedBy r (List.mem_filter.mp hr).1 }

/-- id と親を変えない書き換え。 -/
def updateOrders (f : OrderRow → OrderRow) (hf : ∀ o, (f o).id = o.id)
    (hp : ∀ o, (f o).parentOrderID = o.parentOrderID) : Ledger :=
  have hids : (w.orders.map f).map OrderRow.id = w.orders.map OrderRow.id := by
    rw [List.map_map, show OrderRow.id ∘ f = OrderRow.id from funext hf]
  { w with
    orders := w.orders.map f
    orderIDs := by rw [hids]; exact w.orderIDs
    orderIDsPos := by
      rintro o ho
      obtain ⟨o', ho', rfl⟩ := List.mem_map.mp ho
      rw [hf]
      exact w.orderIDsPos o' ho'
    parents := by
      rintro o ho p h
      obtain ⟨o', ho', rfl⟩ := List.mem_map.mp ho
      rw [hp] at h
      rw [hids]
      exact w.parents o' ho' p h
    reservedBy := by rw [hids]; exact w.reservedBy }

/-! ## 予約と claim -/

/-- index に衝突しなければ、`orders` と `bins` への参照を確かめる。 -/
def reserveForDispatch (binID orderID : Nat) : Except LedgerError Ledger :=
  match hr : w.plant.reserveForDispatch binID orderID with
  | none => .error .reservationConflict
  | some plant =>
    if hk : w.hasOrder orderID ∧ w.hasBin binID then
      .ok { w with
        plant
        reservedBy := by
          intro r hmem
          rw [(Plant.reserveForDispatch_some hr).2] at hmem
          rcases List.mem_append.mp hmem with hmem | hmem
          · exact w.reservedBy r hmem
          · rw [List.mem_singleton.mp hmem]
            exact w.mem_ids_of_hasOrder hk.1 }
    else .error .foreignKey

theorem reserveForDispatch_ok {w w' : Ledger} {binID orderID : Nat}
    (h : w.reserveForDispatch binID orderID = .ok w') :
    w'.orders = w.orders ∧ (w'.plant.nodes = w.plant.nodes ∧ w'.plant.bins = w.plant.bins) ∧
      w'.plant.reservations = w.plant.reservations ++ [⟨orderID, .bin binID, .pending⟩] := by
  unfold reserveForDispatch at h
  split at h
  · cases h
  rename_i plant hr
  split at h
  · cases h
    exact ⟨rfl, Plant.reserveForDispatch_some hr⟩
  · cases h

/-- claim の `UPDATE` の `WHERE`。自分の pending の予約が要る。 -/
def claimable (binID orderID : Nat) (b : BinRow) : Bool :=
  b.id == binID && !b.locked && (b.claimedBy == none || b.claimedBy == some orderID) &&
    w.plant.reservations.contains ⟨orderID, .bin binID, .pending⟩

/-- `claimUnderReservationTx` が書く bin。数が尽きていれば manifest も空にする。 -/
def claimUnderReservation (binID orderID : Nat) (remainingUOP : Option Int) (b : BinRow) : BinRow :=
  if w.claimable binID orderID b then
    match remainingUOP with
    | some n =>
      -- `clearAndClaimTx` と `syncUOPAndClaimTx`
      if n ≤ 0 then { b with payloadCode := "", claimedBy := some orderID }
      else { b with claimedBy := some orderID }
    | none => { b with claimedBy := some orderID }
  else b

theorem claimUnderReservation_id (binID orderID : Nat) (remainingUOP : Option Int)
    (b : BinRow) : (w.claimUnderReservation binID orderID remainingUOP b).id = b.id := by
  unfold claimUnderReservation
  repeat' split
  all_goals rfl

/-- claim し、予約を確定する。 -/
def claimAndConfirm (binID orderID : Nat) (remainingUOP : Option Int) : Except LedgerError Ledger :=
  if w.plant.bins.any (w.claimable binID orderID) then
    .ok { w with
      plant := (w.plant.updateBins (w.claimUnderReservation binID orderID remainingUOP)
        (w.claimUnderReservation_id binID orderID remainingUOP)).confirm orderID binID
      reservedBy := by
        intro r hr
        obtain ⟨r', hr', rfl⟩ := List.mem_map.mp hr
        rw [Plant.confirmRow_orderID]
        exact w.reservedBy r' hr' }
  else .error (.notClaimable binID)

/-! ## 掘り出しの leg -/

/-- `orders.Create`。id は sequence が出し、親と bin への参照を確かめる。 -/
def createOrder (o : OrderRow) : Except LedgerError Ledger :=
  if hid : w.hasOrder o.id = true ∨ o.id = 0 then .error .duplicateKey
  else if hk : o.parentOrderID.all w.hasOrder ∧ o.binID.all w.hasBin then
    .ok { w with
      orders := w.orders ++ [o]
      orderIDs := by
        rw [List.map_append]
        refine List.nodup_append.mpr ⟨w.orderIDs, List.nodup_singleton o.id, ?_⟩
        rintro a ha b hb rfl
        obtain rfl : a = o.id := by simpa using hb
        exact hid (Or.inl (w.hasOrder_of_mem_ids ha))
      orderIDsPos := by
        intro o' ho'
        rcases List.mem_append.mp ho' with ho' | ho'
        · exact w.orderIDsPos o' ho'
        · rw [List.mem_singleton.mp ho']
          exact fun h => hid (Or.inr h)
      parents := by
        intro o' ho' p h
        rw [List.map_append]
        refine List.mem_append_left _ ?_
        rcases List.mem_append.mp ho' with ho' | ho'
        · exact w.parents o' ho' p h
        · rw [List.mem_singleton.mp ho'] at h
          exact w.mem_ids_of_hasOrder (by simpa [h] using hk.1)
      reservedBy := by
        intro r hr
        rw [List.map_append]
        exact List.mem_append_left _ (w.reservedBy r hr) }
  else .error .foreignKey

/-- 親も leg も関わらない予約の持ち主。 -/
def foreignHolder (binID childID parentID : Nat) : Option Nat :=
  (w.plant.reservations.find? fun r => r.target == .bin binID && r.orderID != childID &&
    r.orderID != parentID && !w.isChildOf parentID r.orderID).map (·.orderID)

/-- 持ち主の `bin_id` を外す。 -/
def dropBinID (holder binID : Nat) (o : OrderRow) : OrderRow :=
  if o.id = holder ∧ o.binID = some binID then { o with binID := none } else o

theorem dropBinID_id (holder binID : Nat) (o : OrderRow) :
    (dropBinID holder binID o).id = o.id := by
  unfold dropBinID
  split <;> rfl

theorem dropBinID_parentOrderID (holder binID : Nat) (o : OrderRow) :
    (dropBinID holder binID o).parentOrderID = o.parentOrderID := by
  unfold dropBinID
  split <;> rfl

/-- 予約の row は `supersedeBinLedger` が消す。 -/
def stealSoftHold (binID childID parentID : Nat) : Ledger :=
  match w.foreignHolder binID childID parentID with
  | none => w
  | some holder => w.updateOrders (dropBinID holder binID) (dropBinID_id holder binID)
      (dropBinID_parentOrderID holder binID)

/-- leg の claim の `WHERE`。親と、同じ親の leg からは取ってよい。 -/
def takeable (binID parentID : Nat) (b : BinRow) : Bool :=
  b.id == binID && (b.claimedBy == none || b.claimedBy == some parentID ||
    b.claimedBy.any (w.isChildOf parentID))

/-- claim を leg に移す。 -/
def takeClaim (binID childID parentID : Nat) (b : BinRow) : BinRow :=
  if w.takeable binID parentID b then { b with claimedBy := some childID } else b

theorem takeClaim_id (binID childID parentID : Nat) (b : BinRow) :
    (w.takeClaim binID childID parentID b).id = b.id := by
  unfold takeClaim
  split <;> rfl

/-- row を書く leg は、この transaction で作った order。 -/
def supersedeBinLedger (binID childID : Nat) : Except LedgerError Ledger :=
  if hk : w.hasOrder childID then
    .ok { w with
      plant := w.plant.supersede childID binID
      reservedBy := by
        intro r hr
        rcases List.mem_append.mp hr with hr | hr
        · exact w.reservedBy r (List.mem_filter.mp hr).1
        · rw [List.mem_singleton.mp hr]
          exact w.mem_ids_of_hasOrder hk }
  else .error .foreignKey

/-- 予約を奪い、claim を移す。 -/
def claimForChild (binID childID parentID : Nat) : Except LedgerError Ledger :=
  let w := w.stealSoftHold binID childID parentID
  if w.plant.bins.any (w.takeable binID parentID) then
    (w.updateBins (w.takeClaim binID childID parentID)
      (w.takeClaim_id binID childID parentID)).supersedeBinLedger binID childID
  else .error (.blockerClaimed binID childID parentID
    (((w.plant.getBin binID).bind (·.claimedBy)).getD 0))

/-- leg を作り、その bin を取る。 -/
def createCompoundChild (child : OrderRow) : Except LedgerError Ledger := do
  let w ← w.createOrder child
  match child.binID with
  | none => .ok w
  | some binID => w.claimForChild binID child.id (child.parentOrderID.getD 0)

/-- すべての leg を、一つの transaction で作る。 -/
def createCompoundChildren (children : List OrderRow) : Except LedgerError Ledger :=
  children.foldlM createCompoundChild w

/-! ## 手放す -/

/-- 予約は bin だけを鍵にして消す。 -/
def releaseClaimForBin (binID orderID : Nat) : Ledger :=
  { w with
    plant := w.plant.releaseClaimForBin binID orderID
    reservedBy := fun r hr => w.reservedBy r (List.mem_filter.mp hr).1 }

variable (orderID : Nat)

/-- order の claim を外す。 -/
def unclaimAll (b : BinRow) : BinRow :=
  if b.claimedBy = some orderID then { b with claimedBy := none } else b

theorem unclaimAll_id (b : BinRow) : (unclaimAll orderID b).id = b.id := by
  unfold unclaimAll
  split <;> rfl

/-- order の claim と予約を手放す。 -/
def releaseClaimByOrder (orderID : Nat) : Ledger :=
  (w.updateBins (unclaimAll orderID) (unclaimAll_id orderID)).deleteReservations
    (·.orderID == orderID)

/-- 終わっていなければ終わらせる。 -/
def terminalize (status : OrderStatus) (o : OrderRow) : OrderRow :=
  if o.id = orderID ∧ o.status.isTerminal = false then { o with status } else o

theorem terminalize_id (status : OrderStatus) (o : OrderRow) :
    (terminalize orderID status o).id = o.id := by
  unfold terminalize
  split <;> rfl

theorem terminalize_parentOrderID (status : OrderStatus) (o : OrderRow) :
    (terminalize orderID status o).parentOrderID = o.parentOrderID := by
  unfold terminalize
  split <;> rfl

/-- 返り値は、この呼び出しが終わらせたか。負けた側も手放す。 -/
def terminalizeOrder (orderID : Nat) (status : OrderStatus) : Ledger × Bool :=
  ((w.updateOrders (terminalize orderID status) (terminalize_id orderID status)
    (terminalize_parentOrderID orderID status)).releaseClaimByOrder orderID, w.isLive orderID)

/-! ## 置く -/

/-- bin の置き方。 -/
structure BinPlacement where
  binID : Nat
  toNodeID : Nat
  placedByOrder : Nat
  releaseClaim : Bool
  releaseDestinationSlot : Bool := true
  staged : Bool := false

/-- 居場所の分からない bin の node。 -/
def transitNodeName : String := "_TRANSIT"

/-- 行き先に残る別の bin。 -/
def isGhost (destNodeID keepBinID : Nat) (b : BinRow) : Bool :=
  b.nodeID == some destNodeID && b.id != keepBinID && b.status != .retired

/-- ghost を動かす `UPDATE`。claim は、持ち主が終わっているときだけ外す。 -/
def evict (destNodeID keepBinID transitID : Nat) (b : BinRow) : BinRow :=
  if isGhost destNodeID keepBinID b then
    { b with nodeID := some transitID, claimedBy := b.claimedBy.filter w.isLive }
  else b

theorem evict_id (destNodeID keepBinID transitID : Nat) (b : BinRow) :
    (w.evict destNodeID keepBinID transitID b).id = b.id := by
  unfold evict
  split <;> rfl

/-- ghost を `_TRANSIT` に移す。返り値は移した bin。 -/
def evictStaleGhostBins (destNodeID keepBinID : Nat) : Except LedgerError (Ledger × List Nat) :=
  let ghosts := w.plant.bins.filter (isGhost destNodeID keepBinID)
  if ghosts.isEmpty then .ok (w, [])
  else match w.plant.getNode destNodeID with
    | none => .error (.nodeMissing destNodeID)
    | some node =>
      if node.isSynthetic then .ok (w, [])
      else match w.plant.getNodeByName transitNodeName with
        | none => .error .transitMissing
        | some transit =>
          .ok (w.updateBins (w.evict destNodeID keepBinID transit.id)
            (w.evict_id destNodeID keepBinID transit.id), ghosts.map BinRow.id)

/-- 手渡しの `UPDATE` の `WHERE`。同じ親の leg の claim は、自分のものと同じに扱う。 -/
def handsOff (p : BinPlacement) (b : BinRow) : Bool :=
  b.id == p.binID && (b.claimedBy == none || b.claimedBy == some p.placedByOrder ||
    w.orders.any fun placer => placer.id == p.placedByOrder &&
      placer.parentOrderID.any fun parentID => b.claimedBy.any (w.isChildOf parentID))

/-- 手渡す bin の claim を外す。 -/
def handOff (p : BinPlacement) (b : BinRow) : BinRow :=
  if w.handsOff p b then { b with claimedBy := none } else b

theorem handOff_id (p : BinPlacement) (b : BinRow) : (w.handOff p b).id = b.id := by
  unfold handOff
  split <;> rfl

/-- 手渡し。row が一つでも当たれば、bin の予約を持ち主を問わず消す。 -/
def releaseOnArrival (p : BinPlacement) : Ledger :=
  if w.plant.bins.any (w.handsOff p) then
    (w.updateBins (w.handOff p) (w.handOff_id p)).deleteReservations (·.target == .bin p.binID)
  else w

/-- node の予約。 -/
def onNode (nodeID : Nat) : ReservationTarget → Bool
  | .bin _ => false
  | .slot id | .mouth id | .occupancy id => id == nodeID

/-- bin を置く。 -/
def settle (p : BinPlacement) (b : BinRow) : BinRow :=
  if b.id = p.binID then
    { b with nodeID := some p.toNodeID, status := if p.staged then .staged else .available }
  else b

theorem settle_id (p : BinPlacement) (b : BinRow) : (settle p b).id = b.id := by
  unfold settle
  split <;> rfl

/-- ghost を退け、手放し、置く。 -/
def placeBin (p : BinPlacement) : Except LedgerError (Ledger × List Nat) := do
  let (w, evicted) ← w.evictStaleGhostBins p.toNodeID p.binID
  if w.hasBin p.binID && (w.plant.getNode p.toNodeID).isNone then .error .foreignKey
  else
    let w := if p.releaseClaim then w.releaseOnArrival p else w
    let w := if p.releaseDestinationSlot then
        w.deleteReservations fun r => onNode p.toNodeID r.target
      else w
    .ok (w.updateBins (settle p) (settle_id p), evicted)

end Ledger

/-! ## 動作 -/

/-- 一つの transaction。 -/
inductive LedgerAction where
  | reserveForDispatch (binID orderID : Nat)
  | claimAndConfirm (binID orderID : Nat) (remainingUOP : Option Int)
  | createCompoundChildren (children : List OrderRow)
  | releaseClaimForBin (binID orderID : Nat)
  | releaseClaimByOrder (orderID : Nat)
  | terminalizeOrder (orderID : Nat) (status : OrderStatus)
  | placeBin (p : Ledger.BinPlacement)

/-- 失敗した transaction は何も書かない。 -/
def ledgerStep (w : Ledger) : LedgerAction → Ledger
  | .reserveForDispatch binID orderID => (w.reserveForDispatch binID orderID).toOption.getD w
  | .claimAndConfirm binID orderID uop => (w.claimAndConfirm binID orderID uop).toOption.getD w
  | .createCompoundChildren children => (w.createCompoundChildren children).toOption.getD w
  | .releaseClaimForBin binID orderID => w.releaseClaimForBin binID orderID
  | .releaseClaimByOrder orderID => w.releaseClaimByOrder orderID
  | .terminalizeOrder orderID status => (w.terminalizeOrder orderID status).1
  | .placeBin p => ((w.placeBin p).toOption.map Prod.fst).getD w

end Shingo.Core
