import Mathlib.Data.List.Pairwise
import Mathlib.Data.List.Sort

/-!
# node・bin・予約の表

`shingo-core/store` の `nodes`・`bins`・`reservations` のうち、予約の突き合わせが読み書きする列。
主キーと unique index は `Plant` の field にして、破れた表は作れないようにする。

予約の row は消えることで終わる。在る row は pending か confirmed で、どちらも
`uq_reservations_bin_active` の対象なので、一つの bin に載る row は高々一つ。
-/

namespace Shingo.Core

open List

/-- `nodes` の行。`isLane` は node type が LANE であること。 -/
structure NodeRow where
  id : Nat
  name : String
  parentID : Option Nat := none
  isLane : Bool := false
  depth : Option Int := none
  enabled : Bool := true
  isSynthetic : Bool := false
  deriving DecidableEq

/-- 列に CHECK は無いので、列挙の外の値も読む。 -/
inductive BinStatus where
  | available
  | staged
  | flagged
  | maintenance
  | qualityHold
  | retired
  | other (tag : String)
  deriving DecidableEq

def BinStatus.sourceable : BinStatus → Bool
  | .available => true
  | .staged => true
  | _ => false

def BinStatus.blocksPickup (s : BinStatus) : Bool := !s.sourceable

def BinStatus.text : BinStatus → String
  | .available => "available"
  | .staged => "staged"
  | .flagged => "flagged"
  | .maintenance => "maintenance"
  | .qualityHold => "quality_hold"
  | .retired => "retired"
  | .other tag => tag

/-- `bins` の行。`payloadCode` が空なら空の carrier。 -/
structure BinRow where
  id : Nat
  nodeID : Option Nat := none
  status : BinStatus := .available
  claimedBy : Option Nat := none
  payloadCode : String := ""
  locked : Bool := false
  deriving DecidableEq

/-- 予約の対象。`reservations_kind_target_check` により kind ごとに bin か node の片方だけが入る。 -/
inductive ReservationTarget where
  | bin (binID : Nat)
  | slot (nodeID : Nat)
  | mouth (nodeID : Nat)
  | occupancy (nodeID : Nat)
  deriving DecidableEq

def ReservationTarget.binID? : ReservationTarget → Option Nat
  | .bin id => some id
  | _ => none

inductive ReservationState where
  | pending
  | confirmed
  deriving DecidableEq

structure Reservation where
  orderID : Nat
  target : ReservationTarget
  state : ReservationState
  deriving DecidableEq

def reservedBins (rows : List Reservation) : List Nat := rows.filterMap (·.target.binID?)

/-- 三つの表。id は BIGSERIAL で 1 から始まる。`reservations` は id の順に並ぶ。 -/
structure Plant where
  nodes : List NodeRow
  bins : List BinRow
  reservations : List Reservation
  nodeIDs : (nodes.map NodeRow.id).Nodup
  binIDs : (bins.map BinRow.id).Nodup
  binIDsPos : ∀ b ∈ bins, b.id ≠ 0
  binReserved : (reservedBins reservations).Nodup

namespace Plant

def vacant (nodes : List NodeRow) (nodeIDs : (nodes.map NodeRow.id).Nodup) : Plant where
  nodes
  bins := []
  reservations := []
  nodeIDs
  binIDs := nodup_nil
  binIDsPos := forall_mem_nil _
  binReserved := nodup_nil

/-! ## 読み取り -/

variable (w : Plant)

def getNode (id : Nat) : Option NodeRow := w.nodes.find? (·.id == id)

def getNodeByName (name : String) : Option NodeRow := w.nodes.find? (·.name == name)

/-- 最初の点で `PARENT.CHILD` に割り、点が無ければ名前で引く。 -/
def getNodeByDotName (name : String) : Option NodeRow :=
  match name.toList.dropWhile (· != '.') with
  | [] => w.getNodeByName name
  | _ :: child =>
    let parent := name.toList.takeWhile (· != '.')
    w.nodes.find? fun n => n.name == String.ofList child &&
      w.nodes.any fun p => p.name == String.ofList parent && n.parentID == some p.id

theorem getNodeByDotName_congr {w v : Plant} (h : v.nodes = w.nodes) (name : String) :
    v.getNodeByDotName name = w.getNodeByDotName name := by
  unfold getNodeByDotName getNodeByName
  rw [h]

def laneForNode (n : NodeRow) : Option NodeRow :=
  (n.parentID.bind w.getNode).filter (·.isLane)

theorem laneForNode_spec {w : Plant} {n l : NodeRow} (h : w.laneForNode n = some l) :
    n.parentID = some l.id ∧ l ∈ w.nodes := by
  obtain ⟨hb, -⟩ := Option.filter_eq_some_iff.mp h
  obtain ⟨id, hp, hg⟩ := Option.bind_eq_some_iff.mp hb
  have hid : l.id = id := by simpa using List.find?_some hg
  exact ⟨by rw [hp, hid], mem_of_find?_eq_some hg⟩

def listLaneSlots (laneID : Nat) : List NodeRow :=
  (w.nodes.filter (·.parentID == some laneID)).insertionSort
    fun a b => a.depth.getD 0 ≤ b.depth.getD 0

def getBin (id : Nat) : Option BinRow := w.bins.find? (·.id == id)

def listBinsByNode (nodeID : Nat) : List BinRow :=
  (w.bins.filter fun b => b.nodeID == some nodeID && b.status != .retired).insertionSort
    fun a b => b.id ≤ a.id

def countBinsByNode (nodeID : Nat) : Nat :=
  w.bins.countP fun b => b.nodeID == some nodeID && b.status != .retired

/-- `has_pending_reservation`。誰の予約かは問わない。 -/
def hasPendingReservation (binID : Nat) : Bool :=
  w.reservations.any fun r => r.target == .bin binID && r.state == .pending

def listReservationsByOrder (orderID : Nat) : List Reservation :=
  w.reservations.filter (·.orderID == orderID)

/-! ## 書き込み -/

variable {rows : List Reservation}

theorem reservedBins_append_pending {orderID binID : Nat}
    (hn : (reservedBins rows).Nodup) (hb : binID ∉ reservedBins rows) :
    (reservedBins (rows ++ [⟨orderID, .bin binID, .pending⟩])).Nodup := by
  simp only [reservedBins, filterMap_append] at hb ⊢
  refine nodup_append.mpr ⟨hn, nodup_singleton binID, ?_⟩
  rintro a ha b hmem rfl
  obtain rfl : a = binID := by simpa [ReservationTarget.binID?] using hmem
  exact hb ha

theorem reservedBins_filter (p : Reservation → Bool)
    (hn : (reservedBins rows).Nodup) : (reservedBins (rows.filter p)).Nodup :=
  hn.sublist (List.Sublist.filterMap _ filter_sublist)

/--
`ReserveForDispatch`（`reservations.Acquire`）。`none` は `ErrReservationConflict`。

index は bin だけを鍵にするので、同じ order の row が在っても衝突する。
-/
def reserveForDispatch (binID orderID : Nat) : Option Plant :=
  if h : binID ∈ reservedBins w.reservations then none
  else some { w with
    reservations := w.reservations ++ [⟨orderID, .bin binID, .pending⟩]
    binReserved := reservedBins_append_pending w.binReserved h }

/-- `ReserveSlot`（`reservations.AcquireSlot`）。`none` は `ErrReservationConflict`。 -/
def reserveSlot (nodeID orderID : Nat) : Option Plant :=
  if w.reservations.any (·.target == .slot nodeID) then none
  else some { w with
    reservations := w.reservations ++ [⟨orderID, .slot nodeID, .pending⟩]
    binReserved := by
      have h := w.binReserved
      simpa [reservedBins, ReservationTarget.binID?] using h }

def releaseReservation (orderID binID : Nat) : Plant :=
  { w with
    reservations := w.reservations.filter fun r =>
      !(r.orderID == orderID && r.target == .bin binID)
    binReserved := reservedBins_filter _ w.binReserved }

def unclaim (binID orderID : Nat) (b : BinRow) : BinRow :=
  if b.id = binID ∧ b.claimedBy = some orderID then { b with claimedBy := none } else b

@[simp] theorem unclaim_id (binID orderID : Nat) (b : BinRow) :
    (unclaim binID orderID b).id = b.id := by
  unfold unclaim
  split <;> rfl

@[simp] theorem map_unclaim_id (binID orderID : Nat) (bs : List BinRow) :
    (bs.map (unclaim binID orderID)).map BinRow.id = bs.map BinRow.id := by
  rw [map_map]
  exact map_congr_left fun b _ => unclaim_id binID orderID b

def releaseClaimForBin (binID orderID : Nat) : Plant :=
  { w with
    bins := w.bins.map (unclaim binID orderID)
    reservations := w.reservations.filter fun r => !(r.target == .bin binID)
    binIDs := by rw [map_unclaim_id]; exact w.binIDs
    binIDsPos := by
      rintro b hb
      obtain ⟨b', hb', rfl⟩ := mem_map.mp hb
      rw [unclaim_id]
      exact w.binIDsPos b' hb'
    binReserved := reservedBins_filter _ w.binReserved }

/-! ## `uq_reservations_bin_active` -/

theorem pairwise_target : w.reservations.Pairwise
    fun r r' => ∀ b, r.target = .bin b → r'.target ≠ .bin b := by
  have hn := w.binReserved
  unfold reservedBins List.Nodup at hn
  rw [pairwise_filterMap] at hn
  refine hn.imp fun {r r'} h b hr hr' => ?_
  exact h b (by rw [hr]; rfl) b (by rw [hr']; rfl) rfl

theorem eq_of_target {w : Plant} {r r' : Reservation} (hr : r ∈ w.reservations)
    (hr' : r' ∈ w.reservations) {b : Nat} (ht : r.target = .bin b) (ht' : r'.target = .bin b) :
    r = r' := by
  by_contra hne
  have : Std.Symm fun r r' : Reservation => ∀ b, r.target = .bin b → r'.target ≠ .bin b :=
    ⟨fun a c h b hc ha => h b ha hc⟩
  exact (pairwise_target w).forall hr hr' hne b ht ht'

theorem mem_reservedBins_iff {binID : Nat} :
    binID ∈ reservedBins rows ↔ ∃ r ∈ rows, r.target = .bin binID := by
  unfold reservedBins
  rw [mem_filterMap]
  constructor
  · rintro ⟨r, hr, ht⟩
    refine ⟨r, hr, ?_⟩
    cases hrt : r.target with
    | bin id => rw [hrt] at ht; cases ht; rfl
    | slot _ | mouth _ | occupancy _ => rw [hrt] at ht; cases ht
  · rintro ⟨r, hr, ht⟩
    exact ⟨r, hr, by rw [ht]; rfl⟩

end Plant

/-! ## 取れない理由 -/

inductive UnavailableReason where
  | claimed (orderID : Nat)
  | pendingReservation
  | locked
  | status (status : BinStatus)
  | payload (bin order : String)

def Plant.binUnavailableReason (w : Plant) (b : BinRow) (payloadCode : String) :
    Option UnavailableReason :=
  match b.claimedBy with
  | some orderID => some (.claimed orderID)
  | none =>
    if w.hasPendingReservation b.id then some .pendingReservation
    else if b.locked then some .locked
    else if b.status.blocksPickup then some (.status b.status)
    else if payloadCode != "" && b.payloadCode != "" && b.payloadCode != payloadCode then
      some (.payload b.payloadCode payloadCode)
    else none

end Shingo.Core
