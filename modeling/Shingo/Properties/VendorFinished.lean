import Shingo.Core.VendorFinished
import Shingo.Properties.StrandedTransit

/-!
# 断られた納品

fleet が終わったと言った order の bin が、order のものでないと、納品は断られる。断られた報告を
受けた後の bin と order と、Edge への知らせ。

断られた order は失敗で終わり、失敗の event の handler が swap の相手を取り消し、`_TRANSIT` の bin の
居場所を推し量る（`Unwound`）。その後で `handleVendorStatusChange` は、断られていても delivered の
update を order の station に送る。
-/

namespace Shingo.Core

open Infra List Ledger
open Dispatch

/-! ## row を引く -/

variable {orderID : Nat} {row : OrderRow}

namespace Engine

variable {w v : Engine}

@[simp] theorem rowOf_id (w : Engine) (row : OrderRow) : (w.rowOf row).id = row.id := rfl

@[simp] theorem rowOf_status (w : Engine) (row : OrderRow) :
    (w.rowOf row).status = row.status := rfl

@[simp] theorem rowOf_parentOrderID (w : Engine) (row : OrderRow) :
    (w.rowOf row).parentOrderID = row.parentOrderID := rfl

variable {order : FleetOrder}

theorem getOrder_spec (h : w.getOrder orderID = some order) :
    ∃ row ∈ w.ledger.orders, row.id = orderID ∧ order = w.rowOf row := by
  obtain ⟨row, hrow, heq⟩ := Option.map_eq_some_iff.mp h
  exact ⟨row, mem_of_find?_eq_some hrow, by simpa using List.find?_some hrow, heq.symm⟩

theorem getOrder_of_mem (h : row ∈ w.ledger.orders) : w.getOrder row.id = some (w.rowOf row) := by
  unfold getOrder
  rw [find?_of_nodup_map w.ledger.orderIDs h]
  rfl

theorem status_of_mem (row : OrderRow) (h : row ∈ w.ledger.orders) :
    (w.getOrder row.id).map (·.status) = some row.status := by
  rw [getOrder_of_mem h]
  rfl

theorem row_eq {row' : OrderRow} (h : row ∈ w.ledger.orders) (h' : row' ∈ w.ledger.orders)
    (hid : row.id = row'.id) : row = row' :=
  inj_on_of_nodup_map w.ledger.orderIDs h h' hid

theorem getOrderByUUID_spec {uuid : String} (h : w.getOrderByUUID uuid = some order) :
    ∃ row ∈ w.ledger.orders, order = w.rowOf row := by
  obtain ⟨row, hrow, heq⟩ := Option.map_eq_some_iff.mp h
  exact ⟨row, (mem_filter.mp (mem_of_firstBy hrow)).1, heq.symm⟩

theorem swapPeerToCancel_spec {deadOrderID : Nat} {kind : SwapTerminal} {dead peer : FleetOrder}
    (h : w.swapPeerToCancel deadOrderID kind = some (dead, peer)) :
    ∃ row ∈ w.ledger.orders, peer = w.rowOf row ∧ row.status.isTerminal = false := by
  unfold swapPeerToCancel at h
  split at h
  · cases h
  split at h
  · cases h
  split at h
  · cases h
  rename_i peer' hpeer
  obtain ⟨row, hrow, heq⟩ := getOrderByUUID_spec hpeer
  repeat' split at h
  · cases h
  · cases h
  · cases h
  · rename_i hlive
    cases h
    refine ⟨row, hrow, heq, ?_⟩
    rw [heq] at hlive
    simpa using hlive

/-! ## 燃料 -/

def liveCount (w : Engine) : Nat := w.ledger.orders.countP fun o => !o.status.isTerminal

theorem orders_terminalizeOrder (w : Engine) (orderID : Nat) (status : OrderStatus) :
    (w.terminalizeOrder orderID status).ledger.orders =
      w.ledger.orders.map (terminalize orderID status) := rfl

theorem ledger_notifyEdge (w : Engine) (station uuid : String) (m : EdgeMessage) :
    (w.notifyEdge station uuid m).ledger = w.ledger := by
  unfold notifyEdge
  split
  · rfl
  · rfl

theorem terminalize_status (orderID : Nat) (status : OrderStatus) (o : OrderRow) :
    (terminalize orderID status o).status =
      if o.id = orderID ∧ o.status.isTerminal = false then status else o.status := by
  unfold terminalize
  split
  · rfl
  · rfl

theorem liveCount_terminalizeOrder (hrow : row ∈ w.ledger.orders)
    (hlive : row.status.isTerminal = false) {status : OrderStatus}
    (hstatus : status.isTerminal = true) :
    (w.terminalizeOrder row.id status).liveCount < w.liveCount := by
  have hmono : ∀ rows : List OrderRow,
      rows.countP ((fun o => !o.status.isTerminal) ∘ terminalize row.id status) ≤
        rows.countP fun o => !o.status.isTerminal := by
    intro rows
    refine countP_mono_left fun o _ ho => ?_
    rw [Function.comp_apply, terminalize_status] at ho
    split at ho
    · rw [hstatus] at ho
      cases ho
    · exact ho
  obtain ⟨pre, post, hsplit⟩ := append_of_mem hrow
  unfold liveCount
  rw [orders_terminalizeOrder, countP_map, hsplit, countP_append, countP_append,
    countP_cons, countP_cons]
  have hdone : ((fun o : OrderRow => !o.status.isTerminal) ∘ terminalize row.id status) row =
      false := by
    simp [terminalize_status, hlive, hstatus]
  have hpre := hmono pre
  have hpost := hmono post
  simp only [hdone, hlive]
  simp only [Bool.false_eq_true, if_false, Bool.not_false, if_true]
  omega

theorem handleSwapPeerTerminal_succ (fuel : Nat) (w : Engine) (deadOrderID : Nat)
    (kind : SwapTerminal) (h : w.liveCount ≤ fuel) :
    handleSwapPeerTerminal (fuel + 1) w deadOrderID kind =
      handleSwapPeerTerminal fuel w deadOrderID kind := by
  induction fuel generalizing w deadOrderID kind with
  | zero =>
    unfold handleSwapPeerTerminal
    cases hpeer : w.swapPeerToCancel deadOrderID kind with
    | none => rfl
    | some pair =>
      obtain ⟨row, hrow, -, hlive⟩ := swapPeerToCancel_spec hpeer
      have hpos : 0 < w.liveCount := countP_pos_iff.mpr ⟨row, hrow, by simp [hlive]⟩
      omega
  | succ fuel ih =>
    rw [handleSwapPeerTerminal]
    conv_rhs => rw [handleSwapPeerTerminal]
    cases hpeer : w.swapPeerToCancel deadOrderID kind with
    | none => rfl
    | some pair =>
      obtain ⟨dead, peer⟩ := pair
      obtain ⟨row, hrow, rfl, hlive⟩ := swapPeerToCancel_spec hpeer
      have hless : (w.terminalizeOrder row.id .cancelled).liveCount < w.liveCount :=
        liveCount_terminalizeOrder hrow hlive rfl
      dsimp only
      split
      · rw [ih]
        unfold liveCount at hless h ⊢
        rw [ledger_notifyEdge]
        simp only [rowOf_id]
        omega
      · rfl

/-- **order の数だけの燃料は、いくら増やしても同じ。** -/
theorem handleSwapPeerTerminal_fuel (w : Engine) (deadOrderID : Nat) (kind : SwapTerminal)
    {fuel : Nat} (h : w.ledger.orders.length ≤ fuel) :
    handleSwapPeerTerminal fuel w deadOrderID kind =
      handleSwapPeerTerminal w.ledger.orders.length w deadOrderID kind := by
  induction fuel, h using Nat.le_induction with
  | base => rfl
  | succ fuel hle ih =>
    have hcount : w.liveCount ≤ fuel := countP_le_length.trans hle
    rw [handleSwapPeerTerminal_succ fuel w deadOrderID kind hcount, ih]

/-! ## 終わりの event の後片付け -/

def InTransit (w : Engine) (b : BinRow) : Prop :=
  w.ledger.plant.nodeNameOf b = some transitNodeName
  deriving Decidable

def MayLandAt (w : Engine) (nodeID : Nat) : Prop :=
  w.CarrierID nodeID ∨ ∃ robotID st node, w.robots robotID = some st ∧
    robotCarryingBin st = some false ∧ w.ledger.plant.resolveRobotStation st = some node ∧
      node.id = nodeID

def saysDelivered : EdgeMessage → Bool
  | .delivered .. => true
  | .update _ status _ => status == .delivered
  | _ => false

/--
後片付けの前後。

動く bin は `_TRANSIT` に在ったものだけで、行き先は推量の移す node。終わった order の row は
そのままで、届いたとは知らせない。
-/
structure Unwound (w v : Engine) : Prop where
  robots : v.robots = w.robots
  nodes : w.ledger.plant.GainsCarriers v.ledger.plant
  bins : ∀ b' ∈ v.ledger.plant.bins, ∃ b ∈ w.ledger.plant.bins, b.id = b'.id ∧
    (b'.nodeID = b.nodeID ∨ w.InTransit b ∧ ∃ n, b'.nodeID = some n ∧ w.MayLandAt n)
  ended : ∀ o ∈ w.ledger.orders, o.status.isTerminal = true → o ∈ v.ledger.orders
  outbox : ∃ sent, v.outbox = w.outbox ++ sent ∧ ∀ m ∈ sent, saysDelivered m.2 = false

namespace Unwound

theorem refl (w : Engine) : Unwound w w where
  robots := rfl
  nodes := .refl _
  bins := fun b hb => ⟨b, hb, rfl, .inl rfl⟩
  ended := fun _ ho _ => ho
  outbox := ⟨[], (append_nil _).symm, forall_mem_nil _⟩

section

variable (h : Unwound w v)
include h

variable {m : EdgeMessage}

theorem sendToEdge (station : String) (hm : saysDelivered m = false) :
    Unwound w (v.sendToEdge station m) := by
  refine { h with outbox := ?_ }
  obtain ⟨sent, hsent, hall⟩ := h.outbox
  refine ⟨sent ++ [(station, m)], ?_, fun x hx => ?_⟩
  · rw [Engine.sendToEdge, hsent, append_assoc]
  · rcases mem_append_last.mp hx with hx | rfl
    · exact hall x hx
    · exact hm

theorem notifyEdge (station uuid : String) (hm : saysDelivered m = false) :
    Unwound w (v.notifyEdge station uuid m) := by
  unfold Engine.notifyEdge
  split
  · exact h.sendToEdge station hm
  · exact h

theorem terminalizeOrder (orderID : Nat) (status : OrderStatus) :
    Unwound w (v.terminalizeOrder orderID status) := by
  refine { h with bins := ?_, ended := ?_ }
  · intro b' hb'
    obtain ⟨b₁, hb₁, rfl⟩ := mem_map.mp hb'
    obtain ⟨b, hb, hid, hn⟩ := h.bins b₁ hb₁
    exact ⟨b, hb, by rw [unclaimAll_id]; exact hid, by rw [unclaimAll_nodeID]; exact hn⟩
  · intro o ho hdone
    -- 終わった row は、もう一度終わらせても変わらない
    have hsame : terminalize orderID status o = o := by
      unfold terminalize
      rw [if_neg (by simp [hdone])]
    rw [orders_terminalizeOrder, ← hsame]
    exact mem_map_of_mem (h.ended o ho hdone)

theorem inTransit {b' : BinRow} (hb' : b' ∈ v.ledger.plant.bins)
    (ht : v.InTransit b') : ∃ b ∈ w.ledger.plant.bins, b.id = b'.id ∧ w.InTransit b := by
  obtain ⟨b, hb, hid, hn | ⟨hmoved, -⟩⟩ := h.bins b' hb'
  · refine ⟨b, hb, hid, ?_⟩
    have hold := h.nodes.nodeNameOf ht
    unfold InTransit Plant.nodeNameOf at *
    rw [← hn]
    exact hold
  · exact ⟨b, hb, hid, hmoved⟩

theorem reckons {u : Engine}
    (hreck : Reckons (fun id n => (∃ b ∈ w.ledger.plant.bins, b.id = id ∧ w.InTransit b) ∧
      w.MayLandAt n) v u) : Unwound w u where
  robots := hreck.robots.trans h.robots
  nodes := h.nodes.trans hreck.nodes
  bins := by
    intro b'' hb''
    obtain ⟨b', hb', hid', -, hn'⟩ := hreck.bins b'' hb''
    obtain ⟨b, hb, hid, hn⟩ := h.bins b' hb'
    refine ⟨b, hb, hid.trans hid', ?_⟩
    rcases hn' with hn' | ⟨n, hn', ⟨b₀, hb₀, hid₀, ht⟩, hland⟩
    · rw [hn']
      exact hn
    · obtain rfl : b₀ = b := bin_eq hb₀ hb (hid₀.trans hid.symm)
      exact .inr ⟨ht, n, hn', hland⟩
  ended := by
    intro o ho hdone
    rw [hreck.orders]
    exact h.ended o ho hdone
  outbox := by
    rw [hreck.outbox]
    exact h.outbox

theorem inferStrandedTransitBin (orderID : Nat) :
    Unwound w (v.inferStrandedTransitBin orderID) := by
  -- 推量の移す node は、始めの知らせと node から決まる
  have hcarrier : ∀ n, v.CarrierID n → w.MayLandAt n :=
    fun n hn => .inl fun m hm hid => hn m (h.nodes.subset hm) hid
  have hstranded : ∀ b ∈ v.ledger.plant.bins, v.isStranded b = true →
      ∃ b₀ ∈ w.ledger.plant.bins, b₀.id = b.id ∧ w.InTransit b₀ := by
    intro b hb hs
    unfold isStranded at hs
    rw [Bool.and_eq_true] at hs
    exact h.inTransit hb (eq_of_beq hs.1)
  refine h.reckons (reckons_inferStrandedTransitBin ?_ ?_)
  · exact fun b hb hs n hn => ⟨hstranded b hb hs, hcarrier n hn⟩
  · intro order _ b hb _ hs st node hst hempty hnode
    rw [h.robots] at hst
    rw [h.nodes.resolveRobotStation] at hnode
    exact ⟨hstranded b hb hs, .inr ⟨order.robotID, st, node, hst, hempty, hnode, rfl⟩⟩

end

theorem handleSwapPeerTerminal (fuel : Nat) : ∀ {v : Engine}, Unwound w v →
    ∀ (deadOrderID : Nat) (kind : SwapTerminal),
      Unwound w (Engine.handleSwapPeerTerminal fuel v deadOrderID kind) := by
  induction fuel with
  | zero => exact fun h _ _ => h
  | succ fuel ih =>
    intro v h deadOrderID kind
    rw [Engine.handleSwapPeerTerminal]
    split
    · exact h
    rename_i dead peer _
    have hdone := h.terminalizeOrder peer.id .cancelled
    split
    · have hsent := hdone.notifyEdge peer.stationID peer.edgeUUID
        (m := .cancelled peer.edgeUUID (unwindReason dead kind)) rfl
      exact (ih hsent peer.id .cancelled).inferStrandedTransitBin peer.id
    · exact hdone

end Unwound

end Engine

/-! ## 断られた納品 -/

namespace Ledger

variable {w w' : Ledger} {order : Shingo.Dispatch.CargoOrder}

variable {r : ArrivalRefusal}

theorem refuseArrival_some {bin : BinRow} {dest : Nat} {site : ArrivalSite}
    (h : refuseArrival order bin dest site = some r) :
    order.parentOrderID = none ∧ bin.claimedBy ≠ some order.id := by
  unfold refuseArrival at h
  split at h
  · cases h
  rename_i hparent
  split at h
  · cases h
  · rename_i hclaim
    exact ⟨by simpa using hparent, hclaim⟩

variable {isStorageSlot : Nat → Bool}

theorem arrivalOf_refuse {ob : Shingo.Dispatch.OrderBinRow}
    (h : arrivalOf isStorageSlot w order ob = .refuse r) : order.parentOrderID = none := by
  unfold arrivalOf at h
  split at h
  · cases h
  split at h
  · split at h
    · cases h
    split at h
    · rename_i hrefuse
      exact (refuseArrival_some hrefuse).1
    · cases h
  · cases h

theorem applyMultiBinArrivalForOrder_cases (isStorageSlot : Nat → Bool) (w : Ledger)
    (order : Shingo.Dispatch.CargoOrder) :
    let answers := order.listOrderBins.map (arrivalOf isStorageSlot w order)
    (answers.filterMap ArrivalAnswer.refusal? = [] ∧
      w.applyMultiBinArrivalForOrder isStorageSlot order =
        (w.applyMultiBinArrival (answers.filterMap ArrivalAnswer.instruction?), [])) ∨
    (answers.filterMap ArrivalAnswer.refusal? ≠ [] ∧
      w.applyMultiBinArrivalForOrder isStorageSlot order =
        (w, answers.filterMap ArrivalAnswer.refusal?)) := by
  unfold applyMultiBinArrivalForOrder
  dsimp only
  split
  · rename_i hnil
    exact .inl ⟨hnil, rfl⟩
  · rename_i hne
    exact .inr ⟨hne, rfl⟩

theorem exists_arrivalOf_refuse
    (h : r ∈ (order.listOrderBins.map (arrivalOf isStorageSlot w order)).filterMap
      ArrivalAnswer.refusal?) :
    ∃ ob ∈ order.listOrderBins, arrivalOf isStorageSlot w order ob = .refuse r := by
  obtain ⟨answer, hmem, hr⟩ := mem_filterMap.mp h
  obtain ⟨ob, hob, rfl⟩ := mem_map.mp hmem
  refine ⟨ob, hob, ?_⟩
  cases hans : arrivalOf isStorageSlot w order ob with
  | skip | place p => rw [hans] at hr; cases hr
  | refuse r' => rw [hans] at hr; cases hr; rfl

/-- **断られた納品は何も書かず、断られるのは compound の leg でない order だけ。** -/
theorem applyBinArrivalForOrder_refused
    (h : w.applyBinArrivalForOrder isStorageSlot order = (w', some r)) :
    w' = w ∧ order.parentOrderID = none := by
  unfold applyBinArrivalForOrder at h
  split at h
  · cases h
  split at h
  · rcases applyMultiBinArrivalForOrder_cases isStorageSlot w order with ⟨-, heq⟩ | ⟨-, heq⟩
    · rw [heq] at h
      cases h
    · rw [heq] at h
      obtain ⟨hw, hhead⟩ := Prod.mk.injEq .. ▸ h
      obtain ⟨ob, -, hrefuse⟩ := exists_arrivalOf_refuse (mem_of_head? hhead)
      exact ⟨hw.symm, arrivalOf_refuse hrefuse⟩
  · unfold applySingleBinArrival at h
    split at h
    · split at h
      · rename_i hrefuse
        cases h
        exact ⟨rfl, (refuseArrival_some hrefuse).1⟩
      · cases h
    · cases h

end Ledger

theorem isValidTransition_failed {src : OrderStatus} (h : src.isTerminal = false) :
    isValidTransition src .failed = true := by
  cases src <;> first | rfl | cases h

namespace Engine

variable {w v : Engine} {hooks : CompoundHooks} {order : FleetOrder}

variable {r : Ledger.ArrivalRefusal}

theorem handleOrderDelivered_refused
    (h : (w.ledger.applyBinArrivalForOrder w.isStorageSlot order.toCargoOrder).2 = some r) :
    w.handleOrderDelivered hooks order =
      w.failOrderAndEmit hooks order.id "cargo_ledger_mismatch" r.detail := by
  unfold handleOrderDelivered
  cases hres : w.ledger.applyBinArrivalForOrder w.isStorageSlot order.toCargoOrder with
  | mk ledger refusal =>
    rw [hres] at h
    obtain rfl : refusal = some r := h
    rw [(applyBinArrivalForOrder_refused hres).1]

variable {o : Engine}

section

variable (hrow : row ∈ w.ledger.orders)
include hrow

section

variable (hlive : row.status.isTerminal = false) (hparent : row.parentOrderID = none)
include hlive hparent

theorem failOrderAndEmit_eq (code detail : String) : w.failOrderAndEmit hooks row.id code detail =
      if firesTerminal row.status then
        let u := (w.terminalizeOrder row.id .failed).notifyEdge (w.rowOf row).stationID
          (w.rowOf row).edgeUUID (.error (w.rowOf row).edgeUUID code detail)
        (handleSwapPeerTerminal u.ledger.orders.length u row.id
          .failed).inferStrandedTransitBin row.id
      else w.terminalizeOrder row.id .failed := by
  have hgo : ¬ ((w.rowOf row).status.isTerminal = true ∨
      isValidTransition (w.rowOf row).status .failed = false) := by
    simp [hlive, isValidTransition_failed hlive]
  unfold failOrderAndEmit
  rw [getOrder_of_mem hrow]
  dsimp only
  rw [if_neg hgo]
  unfold onOrderFailed
  rw [show (w.rowOf row).parentOrderID = none from hparent]
  rfl

theorem Unwound.failOrderAndEmit (h : Unwound o (w.terminalizeOrder row.id .failed))
    (code detail : String) : Unwound o (w.failOrderAndEmit hooks row.id code detail) := by
  rw [failOrderAndEmit_eq hrow hlive hparent]
  split
  · have hsent := h.notifyEdge (w.rowOf row).stationID (w.rowOf row).edgeUUID
      (m := .error (w.rowOf row).edgeUUID code detail) rfl
    exact (Unwound.handleSwapPeerTerminal _ hsent row.id .failed).inferStrandedTransitBin row.id
  · exact h

end

theorem markDelivered_of_ne (hid : row.id = order.id) (hne : row.status ≠ order.status) :
    w.markDelivered hooks order = (w, order) := by
  unfold markDelivered
  split
  · have hmiss : (w.ledger.orders.any fun o => o.id == order.id && o.status == order.status) =
        false := by
      rw [any_eq_false]
      intro o ho hcond
      rw [Bool.and_eq_true] at hcond
      obtain rfl := row_eq ho hrow ((eq_of_beq hcond.1).trans hid.symm)
      exact hne (eq_of_beq hcond.2)
    unfold updateOrderStatusFrom
    rw [hmiss]
  · rfl

theorem failOrderAndEmit_ended (hended : row.status.isTerminal = true) (code detail : String) :
    w.failOrderAndEmit hooks row.id code detail = w := by
  unfold failOrderAndEmit
  rw [getOrder_of_mem hrow]
  exact if_pos (.inl hended)

end

theorem markDelivered_ended (hended : order.status.isTerminal = true) :
    w.markDelivered hooks order = (w, order) := by
  unfold markDelivered
  rw [if_neg]
  intro hvalid
  rw [isTerminal_of_validTransition hvalid] at hended
  cases hended

section

variable (hrow : row ∈ w.ledger.orders)
include hrow

theorem mem_terminalizeOrder (hlive : row.status.isTerminal = false) (status : OrderStatus) :
    { row with status } ∈ (w.terminalizeOrder row.id status).ledger.orders := by
  have hset : terminalize row.id status row = { row with status } := by
    unfold terminalize
    rw [if_pos ⟨rfl, hlive⟩]
  rw [← hset]
  exact mem_map_of_mem hrow

theorem mem_failOrderAndEmit (hlive : row.status.isTerminal = false)
    (hparent : row.parentOrderID = none) (code detail : String) : { row with status := .failed } ∈
      (w.failOrderAndEmit hooks row.id code detail).ledger.orders :=
  (Unwound.failOrderAndEmit hrow hlive hparent (.refl _) code detail).ended _
    (mem_terminalizeOrder hrow hlive .failed) rfl

end

section

variable {b : BinRow}

/-! ## 推量の行き先 -/

/-- order の bin。 -/
def cargo (order : FleetOrder) : List Nat := order.binID.toList ++ order.orderBins.map (·.binID)

/-- order の行き先の node。 -/
def destinations (w : Engine) (order : FleetOrder) : List Nat :=
  (order.deliveryNode :: order.orderBins.map (·.destNode)).filterMap w.ledger.plant.nodeIDOf

/-- 失敗で終わると、推量が移そうとする order の bin。 -/
def Strands (w : Engine) (order : FleetOrder) (b : BinRow) : Prop :=
  firesTerminal order.status = true ∧ order.binID = some b.id ∧ w.InTransit b ∧
    (b.claimedBy = none ∨ b.claimedBy = some order.id)

/-- deck の空いた order の robot が立つ、bin の無い node。 -/
def landing (w : Engine) (order : FleetOrder) : Option NodeRow :=
  ((w.robots order.robotID).filter fun st => robotCarryingBin st == some false).bind fun st =>
    (w.ledger.plant.resolveRobotStation st).filter fun n =>
      n.name ≠ transitNodeName ∧ w.ledger.plant.countBinsByNode n.id = 0

/-- 推量が、order の bin を、行き先の node に移す。 -/
def LandsAtDestination (w : Engine) (order : FleetOrder) : Prop :=
  ∃ b ∈ w.ledger.plant.bins, w.Strands order b ∧ ∃ n ∈ w.landing order, n.id ∈ w.destinations order

/-- order のどの bin も、前から居た行き先にしか居ない。 -/
def KeepsBins (w v : Engine) (order : FleetOrder) : Prop :=
  ∀ b ∈ w.ledger.plant.bins, b.id ∈ cargo order → ∀ b' ∈ v.ledger.plant.bins, b'.id = b.id →
    ∀ d ∈ w.destinations order, b'.nodeID = some d → b.nodeID = some d

theorem recoverTransitAnomaly_cases {l : Ledger} {n : NodeRow} (hn : n ∈ l.plant.nodes)
    (hsyn : n.isSynthetic = false) (binID : Nat) :
    if n.name ≠ transitNodeName ∧ l.plant.countBinsByNode n.id = 0 then
      l.recoverTransitAnomaly binID n.id = .ok (l.updateBins (relocate binID n.id)
        (relocate_id binID n.id))
    else ∃ err, l.recoverTransitAnomaly binID n.id = .error err := by
  unfold recoverTransitAnomaly
  rw [Plant.getNode_of_mem hn]
  by_cases ht : n.name = transitNodeName
  · simp [ht]
  by_cases hc : l.plant.countBinsByNode n.id = 0
  · simp [ht, hsyn, hc]
  · simp [ht, hsyn, hc, Nat.pos_of_ne_zero hc]

theorem resolveRobotStation_spec {p : Plant} {st : RobotStatus} {n : NodeRow}
    (h : p.resolveRobotStation st = some n) : n ∈ p.nodes ∧ n.isSynthetic = false := by
  obtain ⟨name, -, hname⟩ := exists_of_findSome?_eq_some h
  split at hname
  · cases hname
  · obtain ⟨hget, hsyn⟩ := Option.filter_eq_some_iff.mp hname
    exact ⟨(Plant.getNodeByName_spec hget).1, by simpa using hsyn⟩

/-- **推量は、bin を robot の立つ node に移すか、carrier に移すか、動かさない。** -/
theorem placeStrandedBin_cases (w : Engine) (order : FleetOrder) (binID : Nat) :
    (∃ n ∈ w.landing order,
      (w.placeStrandedBin binID order.robotID (w.robots order.robotID)).ledger.plant.bins =
        w.ledger.plant.bins.map (relocate binID n.id)) ∨
    w.landing order = none ∧ Reckons (fun _ n => w.CarrierID n) w
      (w.placeStrandedBin binID order.robotID (w.robots order.robotID)) := by
  unfold placeStrandedBin landing
  cases hst : w.robots order.robotID with
  | none => exact .inr ⟨rfl, reckons_strandedAnomaly w _ _ _ _⟩
  | some st =>
    dsimp only
    split
    · next hrest => exact .inr ⟨by simp [Option.filter, hrest], reckons_strandedAnomaly w _ _ _ _⟩
    · next hfull =>
      exact .inr ⟨by simp [Option.filter, hfull], reckons_parkOnCarrier (fun _ hn => hn) st⟩
    · next hempty =>
      rw [Option.filter_some_pos (by simp [hempty]), Option.bind_some, placeAtStation]
      cases hres : w.ledger.plant.resolveRobotStation st with
      | none => exact .inr ⟨rfl, reckons_strandedAnomaly w _ _ _ _⟩
      | some node =>
        obtain ⟨hmem, hsyn⟩ := resolveRobotStation_spec hres
        have hcases := recoverTransitAnomaly_cases hmem hsyn binID
        dsimp only
        split at hcases
        · next hopen =>
          rw [hcases, Option.filter_some_pos (by simpa using hopen)]
          exact .inl ⟨node, rfl, rfl⟩
        · next hshut =>
          obtain ⟨err, herr⟩ := hcases
          rw [herr, Option.filter_some_neg (by simpa using hshut)]
          exact .inr ⟨rfl, reckons_strandedAnomaly w _ _ _ _⟩

theorem landing_terminalizeOrder (w : Engine) (orderID : Nat) (order : FleetOrder) :
    (w.terminalizeOrder orderID .failed).landing order = w.landing order := by
  have hcount : ∀ k, (w.terminalizeOrder orderID .failed).ledger.plant.countBinsByNode k =
      w.ledger.plant.countBinsByNode k := by
    intro k
    show (w.ledger.plant.bins.map (unclaimAll orderID)).countP _ = _
    rw [countP_map]
    refine countP_congr fun x _ => ?_
    unfold unclaimAll
    simp only [Function.comp_apply]
    split <;> rfl
  unfold landing
  simp only [hcount]
  rfl

theorem isStranded_unclaimAll (w : Engine) (orderID : Nat) (b : BinRow) :
    (w.terminalizeOrder orderID .failed).isStranded (unclaimAll orderID b) = true ↔
      w.InTransit b ∧ (b.claimedBy = none ∨ b.claimedBy = some orderID) := by
  have hname : (w.terminalizeOrder orderID .failed).ledger.plant.nodeNameOf
      (unclaimAll orderID b) = w.ledger.plant.nodeNameOf b := by
    unfold Plant.nodeNameOf
    rw [unclaimAll_nodeID]
    rfl
  unfold isStranded InTransit
  rw [Bool.and_eq_true, hname, beq_iff_eq, beq_iff_eq]
  refine and_congr_right fun _ => ?_
  unfold unclaimAll
  split <;> simp_all

theorem keepsBins_terminalizeOrder (w : Engine) (orderID : Nat) (order : FleetOrder) :
    KeepsBins w (w.terminalizeOrder orderID .failed) order := by
  intro b hb _ b' hb' hid d _ hat
  obtain ⟨b₀, hb₀, rfl⟩ := mem_map.mp hb'
  rw [unclaimAll_id] at hid
  obtain rfl := bin_eq hb₀ hb hid
  rwa [unclaimAll_nodeID] at hat

/-- order の bin が推量の移そうとするものなら移し、さもなければ何もしない。 -/
theorem inferStrandedTransitBin_failed (hrow : row ∈ w.ledger.orders)
    (hfires : firesTerminal row.status = true) :
    (∃ b ∈ w.ledger.plant.bins, w.Strands (w.rowOf row) b ∧
      (w.terminalizeOrder row.id .failed).inferStrandedTransitBin row.id =
        (w.terminalizeOrder row.id .failed).placeStrandedBin b.id (w.rowOf row).robotID
          ((w.terminalizeOrder row.id .failed).robots (w.rowOf row).robotID)) ∨
    (¬ ∃ b ∈ w.ledger.plant.bins, w.Strands (w.rowOf row) b) ∧
      (w.terminalizeOrder row.id .failed).inferStrandedTransitBin row.id =
        w.terminalizeOrder row.id .failed := by
  have hlive : row.status.isTerminal = false := by
    unfold firesTerminal at hfires
    simp_all
  have hget := getOrder_of_mem (mem_terminalizeOrder hrow hlive .failed)
  dsimp only at hget
  have hrobot : ((w.terminalizeOrder row.id .failed).rowOf
      { row with status := .failed }).robotID = (w.rowOf row).robotID := by
    simp [rowOf, terminalizeOrder]
  have hbin : ∀ id, (w.terminalizeOrder row.id .failed).ledger.plant.getBin id =
      (w.ledger.plant.getBin id).map (unclaimAll row.id) := by
    intro id
    show (w.ledger.plant.bins.map (unclaimAll row.id)).find? _ = _
    rw [List.find?_map]
    congr 2
    funext b
    simp [unclaimAll_id]
  unfold inferStrandedTransitBin
  rw [hget]
  dsimp only
  rw [hrobot, show ((w.terminalizeOrder row.id .failed).rowOf
    { row with status := .failed }).binID = row.binID from rfl]
  cases hid : row.binID with
  | none =>
    refine .inr ⟨?_, rfl⟩
    rintro ⟨b, -, -, hb, -⟩
    cases hid.symm.trans hb
  | some id =>
    rw [Option.bind_some, hbin]
    cases hget : w.ledger.plant.getBin id with
    | none =>
      refine .inr ⟨?_, rfl⟩
      rintro ⟨b, hb, -, hbid, -⟩
      obtain rfl : id = b.id := Option.some.inj (hid.symm.trans hbid)
      rw [Plant.getBin_of_mem hb] at hget
      cases hget
    | some b =>
      have hb : b ∈ w.ledger.plant.bins := mem_of_find?_eq_some hget
      obtain rfl : b.id = id := Plant.getBin_id hget
      rw [Option.map_some]
      dsimp only
      by_cases hs : w.InTransit b ∧ (b.claimedBy = none ∨ b.claimedBy = some row.id)
      · refine .inl ⟨b, hb, ⟨hfires, hid, hs⟩, ?_⟩
        rw [if_pos ((isStranded_unclaimAll w row.id b).mpr hs), unclaimAll_id]
      · refine .inr ⟨?_, if_neg (mt (isStranded_unclaimAll w row.id b).mp hs)⟩
        rintro ⟨b₁, hb₁, -, hid₁, hs₁⟩
        obtain rfl := bin_eq hb₁ hb (Option.some.inj (hid₁.symm.trans hid))
        exact hs hs₁

theorem InTransit.not_landing (h : w.InTransit b) {n : NodeRow} (hn : n ∈ w.landing order) :
    b.nodeID ≠ some n.id := by
  obtain ⟨st, -, hst⟩ := Option.bind_eq_some_iff.mp hn
  obtain ⟨hres, hopen⟩ := Option.filter_eq_some_iff.mp hst
  intro hat
  unfold InTransit Plant.nodeNameOf at h
  rw [hat, Option.bind_some, Plant.getNode_of_mem (resolveRobotStation_spec hres).1] at h
  exact (of_decide_eq_true hopen).1 (Option.some.inj h)

theorem keepsBins_inferStrandedTransitBin (hrow : row ∈ w.ledger.orders)
    (hfires : firesTerminal row.status = true)
    (hdest : ∀ d ∈ w.destinations (w.rowOf row), ¬ w.CarrierID d) :
    KeepsBins w ((w.terminalizeOrder row.id .failed).inferStrandedTransitBin row.id)
        (w.rowOf row) ↔ ¬ w.LandsAtDestination (w.rowOf row) := by
  have hkeep := keepsBins_terminalizeOrder w row.id (w.rowOf row)
  obtain ⟨b, hb, hs, heq⟩ | ⟨hnone, heq⟩ := inferStrandedTransitBin_failed hrow hfires
  · have hcases := (w.terminalizeOrder row.id .failed).placeStrandedBin_cases (w.rowOf row) b.id
    rw [landing_terminalizeOrder, ← heq] at hcases
    obtain ⟨n, hn, hbins⟩ | ⟨hstay, hreck⟩ := hcases
    · constructor
      · rintro hk ⟨b₁, hb₁, hs₁, n', hn', hd⟩
        obtain rfl := bin_eq hb₁ hb (Option.some.inj (hs₁.2.1.symm.trans hs.2.1))
        obtain rfl := Option.mem_unique hn hn'
        have hmem := mem_map_of_mem (f := relocate b₁.id n.id)
          (mem_map_of_mem (f := unclaimAll row.id) hb)
        refine hs.2.2.1.not_landing hn (hk b₁ hb (mem_append_left _ (Option.mem_toList.mpr hs.2.1))
          _ (hbins ▸ hmem) ?_ n.id hd ?_)
        · rw [relocate_id, unclaimAll_id]
        · rw [relocate, if_pos (unclaimAll_id row.id b₁)]
      · intro hnot b₁ hb₁ hcargo b' hb' hid d hd hat
        rw [hbins] at hb'
        obtain ⟨x, hx, rfl⟩ := mem_map.mp hb'
        rw [relocate_id] at hid
        rcases (relocate_cases b.id n.id x).2 with hsame | ⟨-, hmoved⟩
        · exact hkeep b₁ hb₁ hcargo x hx hid d hd (hsame.symm.trans hat)
        · obtain rfl : n.id = d := Option.some.inj (hmoved.symm.trans hat)
          exact absurd ⟨b, hb, hs, n, hn, hd⟩ hnot
    · refine iff_of_true (fun b₁ hb₁ hcargo b' hb' hid d hd hat => ?_) ?_
      · obtain ⟨x, hx, hxid, -, hsame | ⟨k, hk, hcarrier⟩⟩ := hreck.bins b' hb'
        · exact hkeep b₁ hb₁ hcargo x hx (hxid.trans hid) d hd (hsame.symm.trans hat)
        · obtain rfl : k = d := Option.some.inj (hk.symm.trans hat)
          exact absurd hcarrier (hdest k hd)
      · rintro ⟨-, -, -, n, hn, -⟩
        rw [hstay] at hn
        cases hn
  · -- 移そうとする bin が無ければ、どの bin も動かない
    rw [heq]
    exact iff_of_true hkeep fun ⟨b, hb, hs, _⟩ => hnone ⟨b, hb, hs⟩

theorem handleSwapPeerTerminal_none {deadOrderID : Nat} {kind : SwapTerminal}
    (h : w.swapPeerToCancel deadOrderID kind = none) (fuel : Nat) :
    handleSwapPeerTerminal fuel w deadOrderID kind = w := by
  cases fuel with
  | zero => rfl
  | succ fuel => rw [handleSwapPeerTerminal, h]

theorem swapPeerToCancel_solo (hrow : row ∈ w.ledger.orders)
    (hlive : row.status.isTerminal = false) (hsolo : (w.rowOf row).siblingOrderUUID = "")
    (kind : SwapTerminal) :
    (w.terminalizeOrder row.id .failed).swapPeerToCancel row.id kind = none := by
  have hget := getOrder_of_mem (mem_terminalizeOrder hrow hlive .failed)
  dsimp only at hget
  unfold swapPeerToCancel
  rw [hget]
  refine if_pos (Eq.trans ?_ hsolo)
  simp [rowOf, terminalizeOrder]

theorem keepsBins_failOrderAndEmit (hrow : row ∈ w.ledger.orders)
    (hlive : row.status.isTerminal = false) (hparent : row.parentOrderID = none)
    (hsolo : (w.rowOf row).siblingOrderUUID = "")
    (hdest : ∀ d ∈ w.destinations (w.rowOf row), ¬ w.CarrierID d) (code detail : String) :
    KeepsBins w (w.failOrderAndEmit hooks row.id code detail) (w.rowOf row) ↔
      ¬ w.LandsAtDestination (w.rowOf row) := by
  rw [failOrderAndEmit_eq hrow hlive hparent]
  split
  · next hfires =>
    unfold notifyEdge
    dsimp only
    split
    · -- 知らせは、帳簿の書き込みと順を入れ替えられる
      let sent := w.sendToEdge (w.rowOf row).stationID (.error (w.rowOf row).edgeUUID code detail)
      rw [handleSwapPeerTerminal_none]
      · exact keepsBins_inferStrandedTransitBin (w := sent) hrow hfires hdest
      · exact swapPeerToCancel_solo (w := sent) hrow hlive hsolo .failed
    · rw [handleSwapPeerTerminal_none (swapPeerToCancel_solo hrow hlive hsolo .failed)]
      exact keepsBins_inferStrandedTransitBin hrow hfires hdest
  · next hquiet =>
    exact iff_of_true (keepsBins_terminalizeOrder w row.id _) fun ⟨_, _, hs, _⟩ => hquiet hs.1

end

/-! ## 断られた報告の後 -/

section

variable (hrow : row ∈ w.ledger.orders)
include hrow

variable (hrefused : (w.ledger.applyBinArrivalForOrder w.isStorageSlot
  (w.rowOf row).toCargoOrder).2 = some r)
include hrefused

omit hrow in
theorem parentOrderID_of_refused : row.parentOrderID = none :=
  (applyBinArrivalForOrder_refused (Prod.ext rfl hrefused)).2

theorem settleFinished_refused_ended (hended : row.status.isTerminal = true) :
    w.settleFinished hooks (w.rowOf row) = w := by
  unfold settleFinished
  rw [handleOrderDelivered_refused hrefused, rowOf_id, failOrderAndEmit_ended hrow hended,
    markDelivered_ended hended]
  simp [parentOrderID_of_refused hrefused]

theorem settleFinished_refused_live (hlive : row.status.isTerminal = false) :
    w.settleFinished hooks (w.rowOf row) =
      w.failOrderAndEmit hooks row.id "cargo_ledger_mismatch" r.detail := by
  have hparent := parentOrderID_of_refused hrefused
  have hne : OrderStatus.failed ≠ (w.rowOf row).status := by
    intro heq
    rw [rowOf_status] at heq
    rw [← heq] at hlive
    cases hlive
  unfold settleFinished
  rw [handleOrderDelivered_refused hrefused, rowOf_id,
    markDelivered_of_ne (mem_failOrderAndEmit hrow hlive hparent _ _) rfl hne]
  simp [hparent]

theorem unwound_settleFinished (hfrom : Unwound o w) :
    Unwound o (w.settleFinished hooks (w.rowOf row)) := by
  cases hterm : row.status.isTerminal with
  | false =>
    rw [settleFinished_refused_live hrow hrefused hterm]
    exact .failOrderAndEmit hrow hterm (parentOrderID_of_refused hrefused)
      (hfrom.terminalizeOrder row.id .failed) _ _
  | true =>
    rw [settleFinished_refused_ended hrow hrefused hterm]
    exact hfrom

theorem exists_row_settleFinished :
    ∃ row' ∈ (w.settleFinished hooks (w.rowOf row)).ledger.orders, row'.id = row.id ∧
      (row'.status = .failed ↔ (row.status.isTerminal = true → row.status = .failed)) := by
  cases hterm : row.status.isTerminal with
  | false =>
    rw [settleFinished_refused_live hrow hrefused hterm]
    exact ⟨_, mem_failOrderAndEmit hrow hterm (parentOrderID_of_refused hrefused) _ _, rfl,
      by simp⟩
  | true =>
    rw [settleFinished_refused_ended hrow hrefused hterm]
    exact ⟨row, hrow, rfl, by simp⟩

theorem keepsBins_settleFinished (hsolo : (w.rowOf row).siblingOrderUUID = "")
    (hdest : ∀ d ∈ w.destinations (w.rowOf row), ¬ w.CarrierID d) :
    KeepsBins w (w.settleFinished hooks (w.rowOf row)) (w.rowOf row) ↔
      ¬ w.LandsAtDestination (w.rowOf row) := by
  cases hterm : row.status.isTerminal with
  | false =>
    rw [settleFinished_refused_live hrow hrefused hterm]
    exact keepsBins_failOrderAndEmit hrow hterm (parentOrderID_of_refused hrefused) hsolo hdest _ _
  | true =>
    rw [settleFinished_refused_ended hrow hrefused hterm]
    refine iff_of_true ?_ ?_
    · intro b hb _ b' hb' hid d _ hat
      obtain rfl := bin_eq hb' hb hid
      exact hat
    · rintro ⟨b, -, hs, -⟩
      simp [Strands, firesTerminal, hterm] at hs

end

theorem handleVendorFinished_eq (hooks : CompoundHooks) (robotID : String)
    (horder : w.getOrder orderID = some order) (hne : order.status ≠ .delivered) :
    ∃ sent, (∀ m ∈ sent, saysDelivered m.2 = false) ∧
      w.handleVendorFinished hooks orderID robotID =
        (({ w with outbox := w.outbox ++ sent }.settleFinished hooks order).updateColumns orderID
          fun o => { o with robotID := effectiveRobotID order robotID }).sendToEdge
            order.stationID (.update order.edgeUUID .delivered "fleet state: FINISHED") := by
  unfold handleVendorFinished
  rw [horder]
  dsimp only
  rw [if_neg hne]
  split
  · exact ⟨[_], forall_mem_singleton.mpr rfl, rfl⟩
  · exact ⟨[], forall_mem_nil _, by rw [append_nil]⟩

/-- その名前の Edge に届く宛先か。 -/
def accepts (edge station : String) : Bool := station == edge || station == "*"

/-- 届いたとは、どの Edge にも知らせない。 -/
def KeepsQuiet (w v : Engine) : Prop :=
  ∃ sent, v.outbox = w.outbox ++ sent ∧ ∀ m ∈ sent, ∀ edge, edge ≠ "" →
    accepts edge m.1 = true → saysDelivered m.2 = false

theorem Unwound.keepsQuiet_iff (h : Unwound w v) (station uuid detail : String) :
    KeepsQuiet w (v.sendToEdge station (.update uuid .delivered detail)) ↔ station = "" := by
  obtain ⟨sent, hsent, hall⟩ := h.outbox
  have hout : (v.sendToEdge station (.update uuid .delivered detail)).outbox =
      w.outbox ++ (sent ++ [(station, .update uuid .delivered detail)]) := by
    rw [Engine.sendToEdge, hsent, append_assoc]
  constructor
  · rintro ⟨sent', hsent', hquiet⟩
    by_contra hne
    obtain rfl := append_cancel_left (hsent'.symm.trans hout)
    cases hquiet _ mem_concat_self station hne (by simp [accepts])
  · rintro rfl
    refine ⟨_, hout, fun m hm edge hedge haccept => ?_⟩
    rcases mem_append_last.mp hm with hm | rfl
    · exact hall m hm
    · -- 宛先の無い update は、どの Edge も受け取らない
      simp [accepts, hedge.symm] at haccept

theorem Unwound.keepsBins (h : Unwound w v)
    (hland : ∀ b ∈ w.ledger.plant.bins, b.id ∈ cargo order → w.InTransit b →
      ∀ d ∈ w.destinations order, ¬ w.MayLandAt d) : KeepsBins w v order := by
  intro b hb hcargo b' hb' hid d hd hnode
  obtain ⟨b₀, hb₀, hid₀, hcases⟩ := h.bins b' hb'
  obtain rfl : b₀ = b := bin_eq hb₀ hb (hid₀.trans hid)
  rcases hcases with hsame | ⟨htransit, n, hn, hmay⟩
  · rw [← hsame]
    exact hnode
  · obtain rfl : n = d := Option.some.inj (hn.symm.trans hnode)
    exact absurd hmay (hland b₀ hb hcargo htransit n hd)

end Engine

open Engine in
/--
**断られた報告の後、届いたとどの Edge にも知らせないのは station の無い order だけ、失敗で終わるのは
ほかの終わり方をしていない order だけ。** swap の相手の無い order の bin が行き先に移るのは、推量が
order 自身の robot の立つ node をその行き先と見たとき、そのときに限る。
-/
theorem refused_report_not_delivered (hooks : CompoundHooks) (w : Engine) (orderID : Nat)
    (robotID : String) (order : FleetOrder) (horder : w.getOrder orderID = some order)
    (hasked : order.status ≠ .delivered)
    (hrefused : (w.ledger.applyBinArrivalForOrder w.isStorageSlot
      order.toCargoOrder).2.isSome = true) :
    (KeepsQuiet w (w.handleVendorFinished hooks orderID robotID) ↔ order.stationID = "") ∧
    (((w.handleVendorFinished hooks orderID robotID).getOrder orderID).map (·.status) =
      some .failed ↔ (order.status.isTerminal = true → order.status = .failed)) ∧
    ((∀ b ∈ w.ledger.plant.bins, b.id ∈ cargo order → w.InTransit b →
        ∀ d ∈ w.destinations order, ¬ w.MayLandAt d) →
      KeepsBins w (w.handleVendorFinished hooks orderID robotID) order) ∧
    (order.siblingOrderUUID = "" → (∀ d ∈ w.destinations order, ¬ w.CarrierID d) →
      (KeepsBins w (w.handleVendorFinished hooks orderID robotID) order ↔
        ¬ w.LandsAtDestination order)) := by
  obtain ⟨row, hrow, rfl, rfl⟩ := getOrder_spec horder
  obtain ⟨r, hr⟩ := Option.isSome_iff_exists.mp hrefused
  -- 先に送る waybill は、帳簿に触れず、届いたとも言わない
  obtain ⟨sent, hsent, heq⟩ := handleVendorFinished_eq hooks robotID horder hasked
  let w₁ : Engine := { w with outbox := w.outbox ++ sent }
  have hun : Unwound w (w₁.settleFinished hooks (w.rowOf row)) :=
    unwound_settleFinished (w := w₁) hrow hr { Unwound.refl w with outbox := ⟨sent, rfl, hsent⟩ }
  obtain ⟨row', hrow', hid, hstatus⟩ := exists_row_settleFinished (w := w₁) hrow hr
  rw [heq]
  refine ⟨?_, ?_, fun hland => (hun.keepsBins hland :), keepsBins_settleFinished (w := w₁) hrow hr⟩
  · exact Unwound.keepsQuiet_iff { hun with } _ _ _
  · have hget : ∀ u : Engine, u.ledger = (w₁.settleFinished hooks (w.rowOf row)).ledger →
        (u.getOrder row.id).map (·.status) = some row'.status := by
      rintro u hu
      rw [← hid]
      exact status_of_mem row' (hu ▸ hrow')
    rw [hget _ (by rfl), Option.some_inj]
    exact hstatus

def idleHooks : Engine.CompoundHooks where
  completed := fun w _ => w
  failed := fun w _ _ => w

def bayNodes : List NodeRow :=
  [{ id := 1, name := "LANE1" }, { id := 2, name := "LINE1" }, { id := 3, name := "LANE2" },
    { id := 4, name := "_TRANSIT", isSynthetic := true }]

theorem bayNodes_ids : (bayNodes.map NodeRow.id).Nodup := by decide

def bayBins (nodeID claimedBy : Nat) : List BinRow :=
  [{ id := 7, nodeID := some nodeID, claimedBy := some claimedBy },
    { id := 8, nodeID := some 3, claimedBy := some 9 }]

def bayOrders (status : OrderStatus) : List OrderRow :=
  [{ id := 1, status, binID := some 7 }, { id := 9, status := .inTransit, binID := some 8 }]

def bay (station : String) (status : OrderStatus) (rows : List Shingo.Dispatch.OrderBinRow)
    (nodeID claimedBy : Nat) : Engine where
  ledger :=
    { plant :=
        { nodes := bayNodes
          bins := bayBins nodeID claimedBy
          reservations := []
          nodeIDs := bayNodes_ids
          binIDs := by simp [bayBins]
          binIDsPos := by simp [bayBins]
          binReserved := nodup_nil }
      orders := bayOrders status
      orderIDs := by simp [bayOrders]
      orderIDsPos := by simp [bayOrders]
      parents := by simp [bayOrders]
      reservedBy := forall_mem_nil _ }
  columns := fun id =>
    { id, status, edgeUUID := "u" ++ toString id, stationID := station, sourceNode := "LANE1"
      deliveryNode := "LINE1", robotID := "AMR1", orderBins := if id = 1 then rows else [] }
  robots := fun robotID =>
    if robotID = "AMR1" then some { currentStation := "LINE1", jackState := 3 } else none

open Engine in
theorem refused_report_not_delivered_bay :
    (bay "" .inTransit [] 1 9).ledger.recordedAt 7 = some 1 ∧
    (((bay "" .inTransit [] 1 9).handleVendorFinished idleHooks 1 "AMR1").getOrder 1).map
      (·.status) = some .failed :=
  ⟨by decide +kernel,
    (refused_report_not_delivered idleHooks (bay "" .inTransit [] 1 9) 1 "AMR1"
      ((bay "" .inTransit [] 1 9).rowOf { id := 1, status := .inTransit, binID := some 7 }) rfl
      (by decide) (by decide +kernel)).2.1.mpr (by decide)⟩

def bayRows : List Shingo.Dispatch.OrderBinRow :=
  [{ binID := 7, stepIndex := 0, action := .pickup, nodeName := "LANE1", destNode := "LINE1" },
    { binID := 8, stepIndex := 2, action := .pickup, nodeName := "LANE2", destNode := "LANE1" }]

open Engine in
/--
bin 8 が order 9 のものなので断られた order 1 は、失敗で終わるが、下ろした bin 7 は LINE1 に在ると
推し量られ、ST1 には delivered の update が届く。取り消された order は、断られても失敗にはならない。
-/
theorem refused_report_delivered :
    (((bay "ST1" .inTransit bayRows 4 1).ledger.applyBinArrivalForOrder (fun _ => false)
        ((bay "ST1" .inTransit bayRows 4 1).rowOf
          { id := 1, status := .inTransit, binID := some 7 }).toCargoOrder).2.isSome = true ∧
      (bay "ST1" .inTransit bayRows 4 1).ledger.recordedAt 7 = some 4 ∧
      ((bay "ST1" .inTransit bayRows 4 1).handleVendorFinished idleHooks 1
        "AMR1").ledger.recordedAt 7 = some 2 ∧
      ("ST1", .update "u1" .delivered "fleet state: FINISHED") ∈
        ((bay "ST1" .inTransit bayRows 4 1).handleVendorFinished idleHooks 1 "AMR1").outbox) ∧
    (((bay "ST1" .cancelled [] 1 9).ledger.applyBinArrivalForOrder (fun _ => false)
        ((bay "ST1" .cancelled [] 1 9).rowOf
          { id := 1, status := .cancelled, binID := some 7 }).toCargoOrder).2.isSome = true ∧
      (((bay "ST1" .cancelled [] 1 9).handleVendorFinished idleHooks 1 "AMR1").getOrder 1).map
        (·.status) = some .cancelled) := by
  decide +kernel

end Shingo.Core
