import Shingo.Properties.VendorFinished

/-!
# 遅れて届いた報告は bin を動かさないか

order が終わるか、bin をほかの order に取られるかした後で、fleet の FINISHED が届く。

納品の guard は order の status ではなく bin の claim を訊くので、終わった order が claim を
残していないことが要る（`ClaimsLive`）。compound の leg には訊かないので、終わった leg の報告は、
ほかの order の bin を動かす。
-/

namespace Shingo.Core

open Infra List Ledger
open Dispatch

/-! ## 終わった order の claim -/

namespace Ledger

def hasEnded (w : Ledger) (orderID : Nat) : Bool :=
  w.orders.any fun o => o.id == orderID && o.status.isTerminal

def ClaimsLive (w : Ledger) : Prop :=
  ∀ b ∈ w.plant.bins, ∀ o ∈ b.claimedBy, w.isLive o = true
  deriving Decidable

variable {w w' w'' : Ledger}

variable {orderID : Nat}

theorem hasEnded_iff : w.hasEnded orderID = true ↔
    ∃ o ∈ w.orders, o.id = orderID ∧ o.status.isTerminal = true := by
  simp [hasEnded]

theorem isLive_iff : w.isLive orderID = true ↔
    ∃ o ∈ w.orders, o.id = orderID ∧ o.status.isTerminal = false := by
  simp [isLive]

theorem isLive_of_hasEnded (h : w.hasEnded orderID = true) : w.isLive orderID = false := by
  obtain ⟨o, ho, hid, hended⟩ := hasEnded_iff.mp h
  rw [Bool.eq_false_iff]
  intro hlive
  obtain ⟨o', ho', hid', hopen⟩ := isLive_iff.mp hlive
  obtain rfl : o = o' := inj_on_of_nodup_map w.orderIDs ho ho' (hid.trans hid'.symm)
  rw [hended] at hopen
  cases hopen

def KeepsEnds (w w' : Ledger) : Prop :=
  ∀ o ∈ w.orders, ∃ o' ∈ w'.orders, o'.id = o.id ∧ o'.status.isTerminal = o.status.isTerminal

theorem KeepsEnds.hasEnded (h : KeepsEnds w w')
    (hended : w.hasEnded orderID = true) : w'.hasEnded orderID = true := by
  obtain ⟨o, ho, rfl, hterm⟩ := hasEnded_iff.mp hended
  obtain ⟨o', ho', hid, hsame⟩ := h o ho
  exact hasEnded_iff.mpr ⟨o', ho', hid, hsame.trans hterm⟩

theorem KeepsEnds.isLive (h : KeepsEnds w w')
    (hlive : w.isLive orderID = true) : w'.isLive orderID = true := by
  obtain ⟨o, ho, rfl, hopen⟩ := isLive_iff.mp hlive
  obtain ⟨o', ho', hid, hsame⟩ := h o ho
  exact isLive_iff.mpr ⟨o', ho', hid, hsame.trans hopen⟩

/--
帳簿への書き込みの前後。

終わった order は終わったままで、終わる order は claim を全部手放し、増えた claim は生きている
order のもの。
-/
structure Advances (w w' : Ledger) : Prop where
  ended : ∀ orderID, w.hasEnded orderID = true → w'.hasEnded orderID = true
  live : ∀ orderID, w.isLive orderID = true →
    w'.isLive orderID = true ∨ ∀ binID, ¬ w'.Claimed binID orderID
  claims : ∀ binID orderID, w'.Claimed binID orderID →
    w.Claimed binID orderID ∨ w'.isLive orderID = true

theorem ClaimsLive.advances (h : w.ClaimsLive) (ha : Advances w w') : w'.ClaimsLive := by
  intro b hb o ho
  rcases ha.claims b.id o ⟨b, hb, rfl, ho⟩ with ⟨b₀, hb₀, -, ho₀⟩ | hlive
  · rcases ha.live o (h b₀ hb₀ o ho₀) with hlive | hnone
    · exact hlive
    · exact absurd ⟨b, hb, rfl, ho⟩ (hnone b.id)
  · exact hlive

namespace Advances

theorem refl (w : Ledger) : Advances w w where
  ended := fun _ h => h
  live := fun _ h => .inl h
  claims := fun _ _ h => .inl h

theorem trans (h : Advances w w') (h' : Advances w' w'') : Advances w w'' where
  ended := fun id hid => h'.ended id (h.ended id hid)
  live := by
    intro id hid
    rcases h.live id hid with hlive | hnone
    · exact h'.live id hlive
    · by_cases hlive : w''.isLive id = true
      · exact .inl hlive
      · refine .inr fun binID hclaim => ?_
        rcases h'.claims binID id hclaim with hold | hlive'
        · exact hnone binID hold
        · exact hlive hlive'
  claims := by
    intro binID id hclaim
    rcases h'.claims binID id hclaim with hmid | hlive
    · rcases h.claims binID id hmid with hold | hlive
      · exact .inl hold
      · rcases h'.live id hlive with hlive | hnone
        · exact .inr hlive
        · exact absurd hclaim (hnone binID)
    · exact .inr hlive

theorem of_rows (hrows : KeepsEnds w w')
    (hclaims : ∀ binID id, w'.Claimed binID id → w.Claimed binID id ∨ w.isLive id = true) :
    Advances w w' where
  ended := fun _ hid => hrows.hasEnded hid
  live := fun _ hid => .inl (hrows.isLive hid)
  claims := by
    intro binID id hc
    rcases hclaims binID id hc with hold | hlive
    · exact .inl hold
    · exact .inr (hrows.isLive hlive)

theorem of_orders (horders : w'.orders = w.orders)
    (hclaims : ∀ binID id, w'.Claimed binID id → w.Claimed binID id ∨ w.isLive id = true) :
    Advances w w' :=
  of_rows (fun o ho => ⟨o, horders ▸ ho, rfl, rfl⟩) hclaims

theorem of_bins {f : BinRow → BinRow} (horders : w'.orders = w.orders)
    (hbins : w'.plant.bins = w.plant.bins.map f) (hf : ∀ b, (f b).id = b.id)
    (hclaim : ∀ b, (f b).claimedBy = b.claimedBy ∨ (f b).claimedBy = none) : Advances w w' := by
  refine of_orders horders fun binID id hc => .inl ?_
  obtain ⟨b', hb', hid, ho⟩ := hc
  rw [hbins] at hb'
  obtain ⟨b, hb, rfl⟩ := mem_map.mp hb'
  rcases hclaim b with hsame | hnone
  · exact ⟨b, hb, (hf b).symm.trans hid, hsame.symm.trans ho⟩
  · rw [hnone] at ho
    cases ho

theorem of_result {r : Except LedgerError Ledger} (h : ∀ v, r = .ok v → Advances w v) :
    Advances w (r.toOption.getD w) :=
  toOption_getD_of (P := Advances w) (refl w) h

end Advances

/-! ## 一つずつの書き込み -/

variable {binID : Nat} {ids : List Nat}

theorem advances_reserveForDispatch (h : w.reserveForDispatch binID orderID = .ok w') :
    Advances w w' := by
  obtain ⟨horders, ⟨-, hbins⟩, -⟩ := reserveForDispatch_ok h
  refine .of_orders horders fun id o hc => .inl ?_
  unfold Claimed at hc ⊢
  rw [← hbins]
  exact hc

theorem advances_claimAndConfirm {uop : Option Int} (hlive : w.isLive orderID = true)
    (h : w.claimAndConfirm binID orderID uop = .ok w') : Advances w w' := by
  unfold claimAndConfirm at h
  split at h
  · cases h
    refine .of_orders rfl fun id o hc => ?_
    obtain ⟨b, hb, hid, ho⟩ :=
      (claimed_updateBins (w := w) (w.claimUnderReservation_id binID orderID uop)).mp hc
    rw [claimUnderReservation_claimedBy] at ho
    split at ho
    · cases ho
      exact .inr hlive
    · exact .inl ⟨b, hb, hid, ho⟩
  · cases h

theorem advances_releaseClaimForBin (w : Ledger) (binID orderID : Nat) :
    Advances w (w.releaseClaimForBin binID orderID) := by
  refine .of_bins rfl rfl (Plant.unclaim_id binID orderID) fun b => ?_
  unfold Plant.unclaim
  split
  · exact .inr rfl
  · exact .inl rfl

theorem advances_releaseClaimByOrder (w : Ledger) (orderID : Nat) :
    Advances w (w.releaseClaimByOrder orderID) :=
  .of_orders rfl fun _ _ hc => .inl (claimed_releaseClaimByOrder.mp hc).1

theorem advances_terminalizeOrder (w : Ledger) (orderID : Nat) (status : OrderStatus) :
    Advances w (w.terminalizeOrder orderID status).1 := by
  refine ⟨?_, ?_, ?_⟩
  · intro id hid
    obtain ⟨o, ho, rfl, hended⟩ := hasEnded_iff.mp hid
    refine hasEnded_iff.mpr ⟨terminalize orderID status o, mem_map_of_mem ho,
      terminalize_id _ _ _, ?_⟩
    unfold terminalize
    rw [if_neg (by simp [hended])]
    exact hended
  · intro id hid
    by_cases heq : id = orderID
    · exact .inr fun binID hc => (claimed_releaseClaimByOrder.mp hc).2 heq
    · obtain ⟨o, ho, rfl, hopen⟩ := isLive_iff.mp hid
      refine .inl (isLive_iff.mpr ⟨terminalize orderID status o, mem_map_of_mem ho,
        terminalize_id _ _ _, ?_⟩)
      unfold terminalize
      rw [if_neg fun h => heq h.1]
      exact hopen
  · exact fun binID id hc => .inl (claimed_releaseClaimByOrder.mp hc).1

theorem advances_updateOrderStatusFrom (orderID : Nat) {src dst : OrderStatus}
    (hvalid : isValidTransition src dst = true) (hdst : dst.isTerminal = false) :
    Advances w (w.updateOrderStatusFrom orderID src dst).1 := by
  refine .of_rows (fun o ho => ?_) fun _ _ hc => .inl hc
  refine ⟨advance orderID src dst o, mem_map_of_mem ho, advance_id _ _ _ _, ?_⟩
  unfold advance
  split
  · -- 行き先の在る status から動くので、当たるのは終わっていない row
    rename_i hhit
    rw [hhit.2, isTerminal_of_validTransition hvalid]
    exact hdst
  · rfl

theorem advances_transition (w : Ledger) (orderID : Nat) (src dst : OrderStatus) :
    Advances w (w.transition orderID src dst) := by
  unfold transition
  split
  · exact .refl w
  rename_i hvalid
  split
  · exact advances_terminalizeOrder w orderID dst
  · rename_i hdst
    exact advances_updateOrderStatusFrom orderID (by simpa using hvalid) (by simpa using hdst)

theorem advances_evictStaleGhostBins {dest keep : Nat}
    (h : w.evictStaleGhostBins dest keep = .ok (w', ids)) : Advances w w' := by
  rcases evictStaleGhostBins_ok h with rfl | ⟨_, transitID, -, -, rfl⟩
  · exact .refl _
  · exact .of_bins rfl rfl (w.evict_id dest keep transitID)
      (evict_claimedBy_cases dest keep transitID)

theorem advances_putDown (w : Ledger) (p : BinPlacement) : Advances w (w.putDown p) := by
  refine .of_bins ?_ (putDown_bins w p) (putDownRow_id w p) (putDownRow_claimedBy p)
  unfold putDown releaseOnArrival
  repeat' split
  all_goals rfl

theorem advances_placeBin {p : BinPlacement} (h : w.placeBin p = .ok (w', ids)) :
    Advances w w' := by
  obtain ⟨w₁, _, hevict, rfl⟩ := placeBin_ok h
  exact (advances_evictStaleGhostBins hevict).trans (advances_putDown w₁ p)

theorem advances_createOrder {o : OrderRow} (h : w.createOrder o = .ok w') : Advances w w' := by
  obtain ⟨hplant, horders⟩ := createOrder_ok h
  refine .of_rows (fun o' ho' => ⟨o', horders ▸ mem_append_left _ ho', rfl, rfl⟩) ?_
  intro binID id hc
  unfold Claimed at hc
  rw [hplant] at hc
  exact .inl hc

theorem keepsEnds_stealSoftHold (w : Ledger) (binID childID parentID : Nat) :
    KeepsEnds w (w.stealSoftHold binID childID parentID) := by
  intro o ho
  unfold stealSoftHold
  split
  · exact ⟨o, ho, rfl, rfl⟩
  rename_i holder _
  refine ⟨dropBinID holder binID o, mem_map_of_mem ho, dropBinID_id _ _ _, ?_⟩
  unfold dropBinID
  split <;> rfl

theorem advances_claimForChild {childID parentID : Nat} (hchild : w.isLive childID = true)
    (h : w.claimForChild binID childID parentID = .ok w') : Advances w w' := by
  obtain ⟨-, horders, hclaim, -⟩ := claimForChild_ok h
  have hrows : KeepsEnds w w' := by
    intro o ho
    rw [horders]
    exact keepsEnds_stealSoftHold w binID childID parentID o ho
  refine .of_rows hrows fun id o hc => ?_
  have hcase := (hclaim id o).mp hc
  split at hcase
  · exact .inr (hcase ▸ hchild)
  · exact .inl hcase

theorem advances_createCompoundChild {child : OrderRow} (hopen : child.status.isTerminal = false)
    (h : w.createCompoundChild child = .ok w') : Advances w w' := by
  unfold createCompoundChild at h
  cases hc : w.createOrder child with
  | error e => rw [hc] at h; cases h
  | ok w₁ =>
    rw [hc] at h
    have h₁ := advances_createOrder hc
    cases hbin : child.binID with rw [hbin] at h
    | none =>
      cases h
      exact h₁
    | some binID =>
      have hchild : w₁.isLive child.id = true := by
        refine isLive_iff.mpr ⟨child, ?_, rfl, hopen⟩
        rw [(createOrder_ok hc).2]
        exact mem_append_right _ mem_cons_self
      exact h₁.trans (advances_claimForChild hchild h)

theorem advances_createCompoundChildren {children : List OrderRow}
    (hopen : ∀ c ∈ children, c.status.isTerminal = false)
    (h : w.createCompoundChildren children = .ok w') : Advances w w' := by
  refine foldlM_ok_inv (P := fun v => Advances w v) ?_ h (.refl w)
  intro child hmem v v' hv hstep
  exact hv.trans (advances_createCompoundChild (hopen child hmem) hstep)

theorem advances_moveToTransit (w : Ledger) (binID : Nat) : Advances w (w.moveToTransit binID) := by
  unfold moveToTransit
  split
  · exact .refl w
  rename_i transit _
  refine .of_bins rfl rfl (enterTransit_id binID transit.id) fun b => .inl ?_
  unfold enterTransit
  split <;> rfl

end Ledger

/-! ## 歩み -/

/-- claim は生きている order に与え、leg は終わっていない status で作る。 -/
def HistoryOk (w : Ledger) : HistoryAction → Prop
  | .txn (.claimAndConfirm _ orderID _) => w.isLive orderID = true
  | .txn (.createCompoundChildren children) => ∀ c ∈ children, c.status.isTerminal = false
  | _ => True

instance (w : Ledger) : ∀ a, Decidable (HistoryOk w a)
  | .txn (.claimAndConfirm _ _ _) => inferInstanceAs (Decidable (_ = _))
  | .txn (.createCompoundChildren children) =>
    inferInstanceAs (Decidable (∀ c ∈ children, _))
  | .txn (.reserveForDispatch _ _) | .txn (.releaseClaimForBin _ _)
  | .txn (.releaseClaimByOrder _) | .txn (.terminalizeOrder _ _) | .txn (.placeBin _)
  | .create _ | .transition _ _ _ | .toTransit _ | .move _ _ _ => .isTrue trivial

/-- **どの書き込みも、終わった order に claim を残さない。** -/
theorem historyStep_advances {w : Ledger} {a : HistoryAction} (hok : HistoryOk w a) :
    w.Advances (historyStep w a) := by
  cases a with
  | create o => exact .of_result fun _ h => advances_createOrder h
  | transition orderID src dst => exact advances_transition w orderID src dst
  | toTransit binID => exact advances_moveToTransit w binID
  | move clearStaging binID toNodeID =>
    refine .of_bins rfl rfl (moved_id clearStaging binID toNodeID) fun b => .inl ?_
    rw [(Engine.moved_cases clearStaging binID toNodeID b).1]
    exact (Engine.relocate_cases binID toNodeID b).1
  | txn a =>
    cases a with
    | reserveForDispatch binID orderID =>
      exact .of_result fun _ h => advances_reserveForDispatch h
    | claimAndConfirm binID orderID uop =>
      exact .of_result fun _ h => advances_claimAndConfirm hok h
    | createCompoundChildren children =>
      exact .of_result fun _ h => advances_createCompoundChildren hok h
    | releaseClaimForBin binID orderID =>
      exact advances_releaseClaimForBin w binID orderID
    | releaseClaimByOrder orderID => exact advances_releaseClaimByOrder w orderID
    | terminalizeOrder orderID status =>
      exact advances_terminalizeOrder w orderID status
    | placeBin p =>
      show w.Advances (((w.placeBin p).toOption.map Prod.fst).getD w)
      cases h : w.placeBin p with
      | error e => exact .refl w
      | ok r =>
        exact advances_placeBin h

theorem unclaimed_of_hasEnded {w : Ledger} (hstart : w.ClaimsLive) {history : List HistoryAction}
    (hok : AllSteps historyStep HistoryOk w history) {orderID : Nat}
    (hended : ∃ l ∈ visited historyStep w history, l.hasEnded orderID = true) :
    (runSteps historyStep w history).hasEnded orderID = true ∧
      ∀ b ∈ (runSteps historyStep w history).plant.bins, b.claimedBy ≠ some orderID := by
  have hstep : ∀ l a, l.ClaimsLive → HistoryOk l a →
      (historyStep l a).ClaimsLive ∧ l.Advances (historyStep l a) := by
    intro l a hl ha
    exact ⟨hl.advances (historyStep_advances ha), historyStep_advances ha⟩
  obtain ⟨l, hl, hl_ended⟩ := hended
  have hlast : (runSteps historyStep w history).hasEnded orderID = true :=
    (AllSteps.visited_run Ledger.Advances.refl (fun _ _ _ => .trans) hstep hstart hok l hl).ended
      orderID hl_ended
  have hlive : (runSteps historyStep w history).ClaimsLive :=
    AllSteps.visited_of_inv (fun s a hs ha => (hstep s a hs ha).1) hstart hok _
      (mem_visited_runSteps w history)
  refine ⟨hlast, fun b hb hclaim => ?_⟩
  have h := hlive b hb orderID hclaim
  rw [isLive_of_hasEnded hlast] at h
  cases h

/-! ## 置かれない納品 -/

variable {b : BinRow} {row : OrderRow} {hooks : CompoundHooks}

namespace Ledger

variable {w : Ledger} {order : Shingo.Dispatch.CargoOrder} {isStorageSlot : Nat → Bool}

theorem refuseArrival_of_ne {bin : BinRow} (dest : Nat) (site : ArrivalSite)
    (hparent : order.parentOrderID = none) (hclaim : bin.claimedBy ≠ some order.id) :
    ∃ r, refuseArrival order bin dest site = some r := by
  unfold refuseArrival
  rw [hparent, if_neg (by simp), if_neg hclaim]
  exact ⟨_, rfl⟩

section

variable (hparent : order.parentOrderID = none)
  (hclaim : ∀ b ∈ w.plant.bins, b.claimedBy ≠ some order.id)
include hparent hclaim

theorem arrivalOf_unclaimed (ob : Shingo.Dispatch.OrderBinRow) :
    (arrivalOf isStorageSlot w order ob).instruction? = none := by
  unfold arrivalOf
  split
  · rfl
  split
  · rename_i bin destNode hbin _
    split
    · rfl
    obtain ⟨r, hr⟩ := refuseArrival_of_ne destNode.id .multiBinDelivery hparent
      (hclaim bin (mem_of_find?_eq_some hbin))
    rw [hr]
    rfl
  · rfl

theorem applyBinArrivalForOrder_unclaimed :
    (w.applyBinArrivalForOrder isStorageSlot order).1 = w := by
  unfold applyBinArrivalForOrder
  split
  · rfl
  split
  · rcases applyMultiBinArrivalForOrder_cases isStorageSlot w order with ⟨-, heq⟩ | ⟨-, heq⟩
    · rw [heq]
      have hnil : (order.listOrderBins.map (arrivalOf isStorageSlot w order)).filterMap
          ArrivalAnswer.instruction? = [] := by
        rw [filterMap_map, filterMap_eq_nil_iff]
        exact fun ob _ => arrivalOf_unclaimed hparent hclaim ob
      rw [hnil]
      rfl
    · rw [heq]
  · unfold applySingleBinArrival
    split
    · rename_i bin destNode hbin _
      obtain ⟨binID, -, hget⟩ := Option.bind_eq_some_iff.mp hbin
      obtain ⟨r, hr⟩ := refuseArrival_of_ne destNode.id .delivery hparent
        (hclaim bin (mem_of_find?_eq_some hget))
      rw [hr]
    · rfl

end

def Lost (w : Ledger) (order : Shingo.Dispatch.CargoOrder) : Prop :=
  ∃ b ∈ w.plant.bins, b.claimedBy ≠ some order.id ∧
    (order.orderBins = [] ∧ order.binID = some b.id ∨
      ∃ ob ∈ order.orderBins, ob.binID = b.id ∧ ob.destNode ≠ "" ∧
        ∃ node ∈ w.plant.getNodeByDotName ob.destNode, b.nodeID ≠ some node.id)

def Nowhere (w : Ledger) (order : Shingo.Dispatch.CargoOrder) : Prop :=
  order.sourceNode = "" ∨ order.deliveryNode = "" ∨
    order.orderBins = [] ∧ w.plant.getNodeByDotName order.deliveryNode = none

theorem arrivalOf_lost (isStorageSlot : Nat → Bool) {ob : Shingo.Dispatch.OrderBinRow}
    {node : NodeRow} (hparent : order.parentOrderID = none) (hb : b ∈ w.plant.bins)
    (hclaim : b.claimedBy ≠ some order.id) (hbin : ob.binID = b.id) (hdest : ob.destNode ≠ "")
    (hnode : w.plant.getNodeByDotName ob.destNode = some node) (haway : b.nodeID ≠ some node.id) :
    ∃ r, arrivalOf isStorageSlot w order ob = .refuse r := by
  obtain ⟨r, hr⟩ := refuseArrival_of_ne node.id .multiBinDelivery hparent hclaim
  refine ⟨r, ?_⟩
  unfold arrivalOf
  rw [if_neg hdest, hbin, Plant.getBin_of_mem hb, hnode]
  dsimp only
  rw [if_neg haway, hr]

/-- **失くした bin を運ぶ order の納品は、断られるか、行き先が無くて飛ばされる。** -/
theorem applyBinArrivalForOrder_lost (isStorageSlot : Nat → Bool)
    (hparent : order.parentOrderID = none) (h : w.Lost order) :
    (∃ r, w.applyBinArrivalForOrder isStorageSlot order = (w, some r)) ∨
      w.applyBinArrivalForOrder isStorageSlot order = (w, none) ∧ w.Nowhere order := by
  obtain ⟨b, hb, hclaim, hasked⟩ := h
  unfold applyBinArrivalForOrder Nowhere
  split
  · rename_i hends
    refine .inr ⟨rfl, ?_⟩
    rcases hends with hsrc | hdst
    · exact .inl hsrc
    · exact .inr (.inl hdst)
  · rcases hasked with ⟨hsingle, hbin⟩ | ⟨ob, hob, hbin, hdest, node, hnode, haway⟩
    · rw [if_neg (by simp [hsingle])]
      unfold applySingleBinArrival
      rw [hbin, Option.bind_some, Plant.getBin_of_mem hb]
      cases hdest : w.plant.getNodeByDotName order.deliveryNode with
      | none => exact .inr ⟨rfl, .inr (.inr ⟨hsingle, rfl⟩)⟩
      | some destNode =>
        obtain ⟨r, hr⟩ := refuseArrival_of_ne destNode.id .delivery hparent hclaim
        dsimp only
        rw [hr]
        exact .inl ⟨r, rfl⟩
    · rw [if_pos (ne_nil_of_mem hob)]
      obtain ⟨r, hr⟩ := arrivalOf_lost isStorageSlot hparent hb hclaim hbin hdest hnode haway
      have hmem : r ∈ (order.listOrderBins.map (arrivalOf isStorageSlot w order)).filterMap
          ArrivalAnswer.refusal? := by
        refine mem_filterMap.mpr ⟨.refuse r, mem_map.mpr ⟨ob, ?_, hr⟩, rfl⟩
        exact (perm_insertionSort _ _).mem_iff.mpr hob
      rcases applyMultiBinArrivalForOrder_cases isStorageSlot w order with ⟨hnil, -⟩ | ⟨hne, heq⟩
      · rw [hnil] at hmem
        cases hmem
      · rw [heq]
        dsimp only
        rw [List.head?_eq_some_head hne]
        exact .inl ⟨_, rfl⟩

end Ledger

/-! ## 報告 -/

namespace Engine

variable {w v : Engine}

theorem getOrder_notifyEdge (w : Engine) (station uuid : String) (m : EdgeMessage) (orderID : Nat) :
    (w.notifyEdge station uuid m).getOrder orderID = w.getOrder orderID := by
  unfold notifyEdge
  split
  · rfl
  · rfl

variable {orderID : Nat}

theorem handleSwapPeerTerminal_unpaired
    (h : ∀ dead, w.getOrder orderID = some dead → dead.siblingOrderUUID = "") (fuel : Nat)
    (kind : Shingo.Dispatch.SwapTerminal) : handleSwapPeerTerminal fuel w orderID kind = w := by
  cases fuel with
  | zero => rfl
  | succ fuel =>
    have hnone : w.swapPeerToCancel orderID kind = none := by
      unfold swapPeerToCancel
      cases hget : w.getOrder orderID with
      | none => rfl
      | some dead => exact if_pos (h dead hget)
    rw [handleSwapPeerTerminal, hnone]

theorem inferStrandedTransitBin_of_held
    (h : ∀ order, w.getOrder orderID = some order → ∀ b ∈ w.ledger.plant.bins,
      order.binID = some b.id → w.isStranded b = false) :
    w.inferStrandedTransitBin orderID = w := by
  unfold inferStrandedTransitBin
  split
  · rfl
  rename_i order hget
  split
  · rfl
  rename_i bin hbin
  obtain ⟨binID, hid, hfind⟩ := Option.bind_eq_some_iff.mp hbin
  obtain rfl := Plant.getBin_id hfind
  rw [h order hget bin (mem_of_find?_eq_some hfind) hid]
  rfl

theorem isStranded_of_held (h : w.InTransit b → ∃ p, p ≠ orderID ∧ b.claimedBy = some p)
    (hnodes : v.ledger.plant.nodes = w.ledger.plant.nodes) :
    v.isStranded (unclaimAll orderID b) = false := by
  unfold isStranded
  rw [Bool.and_eq_false_iff]
  by_cases ht : w.InTransit b
  · obtain ⟨p, hne, hclaim⟩ := h ht
    refine .inr ?_
    rw [unclaimAll_of_ne hclaim hne, hclaim]
    rfl
  · have hname : v.ledger.plant.nodeNameOf (unclaimAll orderID b) =
        w.ledger.plant.nodeNameOf b := by
      unfold Plant.nodeNameOf Plant.getNode unclaimAll
      rw [hnodes]
      split <;> rfl
    refine .inl (beq_eq_false_iff_ne.mpr ?_)
    rw [hname]
    exact ht

theorem failOrderAndEmit_alone (hrow : row ∈ w.ledger.orders)
    (hlive : row.status.isTerminal = false) (hparent : row.parentOrderID = none)
    (hpeer : (w.rowOf row).siblingOrderUUID = "")
    (hheld : ∀ b ∈ w.ledger.plant.bins, row.binID = some b.id → w.InTransit b →
      ∃ p, p ≠ row.id ∧ b.claimedBy = some p) (code detail : String) :
    (w.failOrderAndEmit hooks row.id code detail).ledger =
      (w.ledger.terminalizeOrder row.id .failed).1 := by
  rw [failOrderAndEmit_eq hrow hlive hparent]
  split
  · dsimp only
    generalize hu : (w.terminalizeOrder row.id .failed).notifyEdge _ _ _ = u
    have hget : u.getOrder row.id =
        some ((w.terminalizeOrder row.id .failed).rowOf { row with status := .failed }) := by
      rw [← hu, getOrder_notifyEdge]
      exact getOrder_of_mem (mem_terminalizeOrder hrow hlive .failed)
    have hledger : u.ledger = (w.ledger.terminalizeOrder row.id .failed).1 := by
      rw [← hu, ledger_notifyEdge]
      rfl
    have hunpaired : ∀ dead, u.getOrder row.id = some dead → dead.siblingOrderUUID = "" := by
      intro dead hdead
      rw [hget] at hdead
      cases hdead
      simpa [rowOf, terminalizeOrder] using hpeer
    have hstay : u.inferStrandedTransitBin row.id = u := by
      refine inferStrandedTransitBin_of_held fun order horder b' hb' hid => ?_
      rw [hget] at horder
      cases horder
      rw [hledger] at hb'
      obtain ⟨b, hb, rfl⟩ := mem_map.mp hb'
      rw [unclaimAll_id] at hid
      exact isStranded_of_held (hheld b hb hid) (by rw [hledger]; rfl)
    rw [handleSwapPeerTerminal_unpaired hunpaired, hstay, hledger]
  · rfl

theorem handleOrderCompleted_nowhere
    (h : ∀ order, w.getOrder orderID = some order → order.parentOrderID = none ∧
      w.ledger.Nowhere order.toCargoOrder) : w.handleOrderCompleted hooks orderID = w := by
  unfold handleOrderCompleted
  cases hget : w.getOrder orderID with
  | none => rfl
  | some order =>
    obtain ⟨hparent, hnowhere⟩ := h order hget
    obtain ⟨row, -, rfl, rfl⟩ := getOrder_spec hget
    dsimp only
    rw [hparent]
    simp only [Option.isSome_none, Bool.false_eq_true, if_false]
    split
    · rfl
    rename_i hends
    rcases hnowhere with hsrc | hdst | ⟨hrows, hnode⟩
    · exact absurd (.inl hsrc) hends
    · exact absurd (.inr hdst) hends
    · have hrows' : (w.columns row.id).orderBins = [] := hrows
      rw [if_neg (by simp [hrows'])]
      unfold reapplySingleBin
      rw [hnode]
      split
      · rename_i hsome
        cases hsome
      · rfl

theorem onOrderCompleted_silent (w : Engine) (order : FleetOrder) :
    w.onOrderCompleted hooks order "" = w.handleOrderCompleted hooks order.id := by
  unfold onOrderCompleted notifyEdge
  rw [if_neg (by simp)]

section

variable (hrow : row ∈ w.ledger.orders) (hparent : row.parentOrderID = none)
  (hnowhere : w.ledger.Nowhere (w.rowOf row).toCargoOrder)
include hrow hparent hnowhere

theorem markDelivered_nowhere (hooks : CompoundHooks) :
    (w.markDelivered hooks (w.rowOf row)).1.ledger.plant = w.ledger.plant ∧
      (w.markDelivered hooks (w.rowOf row)).2.parentOrderID = none := by
  unfold markDelivered
  split
  · split
    · rename_i ledger hwrite
      obtain rfl : (w.ledger.updateOrderStatusFrom row.id row.status .delivered).1 = ledger :=
        congrArg Prod.fst hwrite
      refine ⟨?_, hparent⟩
      dsimp only
      rw [onOrderCompleted_silent, handleOrderCompleted_nowhere]
      · rfl
      · intro order horder
        obtain ⟨row', hrow', hid, rfl⟩ := getOrder_spec horder
        obtain ⟨o, ho, rfl⟩ := mem_map.mp hrow'
        rw [advance_id] at hid
        obtain rfl : o = row := row_eq ho hrow hid
        rw [rowOf_parentOrderID, advance_parentOrderID]
        refine ⟨hparent, ?_⟩
        have hcols : w.columns (advance o.id o.status .delivered o).id =
            w.columns o.id := congrArg w.columns (advance_id _ _ _ o)
        unfold Ledger.Nowhere rowOf at hnowhere ⊢
        rw [hcols]
        exact hnowhere
    · exact ⟨rfl, hparent⟩
  · exact ⟨rfl, hparent⟩

theorem settleFinished_nowhere
    (hskip : w.ledger.applyBinArrivalForOrder w.isStorageSlot (w.rowOf row).toCargoOrder =
      (w.ledger, none)) : (w.settleFinished hooks (w.rowOf row)).ledger.plant = w.ledger.plant := by
  obtain ⟨station, m, hsend⟩ : ∃ station m,
      w.handleOrderDelivered hooks (w.rowOf row) = w.sendToEdge station m := by
    unfold handleOrderDelivered
    rw [hskip]
    exact ⟨_, _, rfl⟩
  obtain ⟨hplant, hleg⟩ := markDelivered_nowhere (w := w.sendToEdge station m) hrow hparent
    hnowhere hooks
  unfold settleFinished
  rw [hsend]
  dsimp only
  rw [show ((w.sendToEdge station m).markDelivered hooks (w.rowOf row)).2.parentOrderID = none
    from hleg]
  exact hplant

end

end Engine

/-- 報告の前後。bin の居場所と、ほかの order の claim と予約は変わらない。 -/
def LeavesAlone (orderID : Nat) (w w' : Ledger) : Prop :=
  (∀ b ∈ w.plant.bins, ∃ b' ∈ w'.plant.bins, b'.id = b.id ∧ b'.nodeID = b.nodeID ∧
    ∀ p ∈ b.claimedBy, p ≠ orderID → b'.claimedBy = some p) ∧
  ∀ r ∈ w.plant.reservations, r.orderID ≠ orderID → r ∈ w'.plant.reservations
  deriving Decidable

theorem LeavesAlone.of_plant (orderID : Nat) {w w' : Ledger} (h : w'.plant = w.plant) :
    LeavesAlone orderID w w' := by
  constructor
  · exact fun b hb => ⟨b, h ▸ hb, rfl, rfl, fun p hp _ => hp⟩
  · exact fun r hr _ => h ▸ hr

theorem LeavesAlone.terminalizeOrder (orderID : Nat) (w : Ledger) (status : OrderStatus) :
    LeavesAlone orderID w (w.terminalizeOrder orderID status).1 := by
  constructor
  · intro b hb
    refine ⟨unclaimAll orderID b, mem_map_of_mem hb, unclaimAll_id _ _, unclaimAll_nodeID _ _, ?_⟩
    intro p hp hne
    rw [unclaimAll_of_ne hp hne]
    exact hp
  · exact fun r hr hne => mem_releaseClaimByOrder.mpr ⟨hr, hne⟩

/-- 報告の前に、order の bin が order のものでなくなっている。 -/
structure Engine.LostCargo (w : Engine) (order : FleetOrder) : Prop where
  unpaired : order.siblingOrderUUID = ""
  lost : w.ledger.Lost order.toCargoOrder
  held : ∀ b ∈ w.ledger.plant.bins, order.binID = some b.id → w.InTransit b →
    ∃ p, p ≠ order.id ∧ b.claimedBy = some p

namespace Engine

variable {w : Engine} (hrow : row ∈ w.ledger.orders) (hparent : row.parentOrderID = none)
include hrow hparent

theorem settleFinished_ended (hended : row.status.isTerminal = true)
    (hclaim : ∀ b ∈ w.ledger.plant.bins, b.claimedBy ≠ some row.id) :
    (w.settleFinished hooks (w.rowOf row)).ledger = w.ledger := by
  have hledger : (w.ledger.applyBinArrivalForOrder w.isStorageSlot
      (w.rowOf row).toCargoOrder).1 = w.ledger :=
    applyBinArrivalForOrder_unclaimed hparent hclaim
  cases hres : w.ledger.applyBinArrivalForOrder w.isStorageSlot (w.rowOf row).toCargoOrder with
  | mk ledger refusal =>
    rw [hres] at hledger
    obtain rfl : ledger = w.ledger := hledger
    cases refusal with
    | some r => rw [settleFinished_refused_ended hrow (congrArg Prod.snd hres) hended]
    | none =>
      unfold settleFinished handleOrderDelivered
      rw [hres]
      rw [markDelivered_ended hended]
      simp [hparent, sendToEdge]

/-- **失くした bin を運ぶ order の報告は、その order の失敗か、status を書くだけ。** -/
theorem settleFinished_lost (hlive : row.status.isTerminal = false)
    (h : w.LostCargo (w.rowOf row)) :
    LeavesAlone row.id w.ledger (w.settleFinished hooks (w.rowOf row)).ledger := by
  rcases applyBinArrivalForOrder_lost w.isStorageSlot hparent h.lost with
    ⟨r, hr⟩ | ⟨hskip, hnowhere⟩
  · rw [settleFinished_refused_live hrow (congrArg Prod.snd hr) hlive,
      failOrderAndEmit_alone hrow hlive hparent h.unpaired h.held]
    exact .terminalizeOrder row.id w.ledger .failed
  · exact .of_plant row.id (settleFinished_nowhere hrow hparent hnowhere hskip)

end Engine

open Engine in
/-- **遅れて届いた報告は、compound の leg でない order については、どの bin も動かさず、ほかの order の
claim も予約も外さない。** -/
theorem late_report_leaves_bins (hooks : CompoundHooks) (start : Ledger)
    (hstart : start.ClaimsLive) (history : List HistoryAction)
    (hok : AllSteps historyStep HistoryOk start history) (w : Engine)
    (hw : w.ledger = runSteps historyStep start history) (orderID : Nat) (robotID : String)
    (order : FleetOrder) (horder : w.getOrder orderID = some order)
    (hparent : order.parentOrderID = none)
    (hlate : (∃ l ∈ visited historyStep start history, l.hasEnded orderID = true) ∨
      w.LostCargo order) :
    LeavesAlone orderID w.ledger (w.handleVendorFinished hooks orderID robotID).ledger := by
  obtain ⟨row, hrow, rfl, rfl⟩ := getOrder_spec horder
  by_cases hdelivered : (w.rowOf row).status = .delivered
  · refine .of_plant row.id ?_
    unfold handleVendorFinished
    rw [horder]
    dsimp only
    rw [if_pos hdelivered]
    split
    · rfl
    · rfl
  · obtain ⟨sent, -, heq⟩ := handleVendorFinished_eq hooks robotID horder hdelivered
    let w₁ : Engine := { w with outbox := w.outbox ++ sent }
    rw [heq]
    show LeavesAlone row.id w.ledger (w₁.settleFinished hooks (w.rowOf row)).ledger
    cases hterm : row.status.isTerminal with
    | true =>
      have hended : w.ledger.hasEnded row.id = true :=
        hasEnded_iff.mpr ⟨row, hrow, rfl, hterm⟩
      have hclaim : ∀ b ∈ w.ledger.plant.bins, b.claimedBy ≠ some row.id := by
        rw [hw] at hended ⊢
        exact (unclaimed_of_hasEnded hstart hok ⟨_, mem_visited_runSteps _ _, hended⟩).2
      refine .of_plant row.id (congrArg plant ?_)
      exact settleFinished_ended (w := w₁) hrow hparent hterm hclaim
    | false =>
      rcases hlate with hended | hlost
      · -- 終わった order は終わったままなので、この場合は無い
        have hlast := (unclaimed_of_hasEnded hstart hok hended).1
        rw [← hw] at hlast
        have hlive := isLive_of_hasEnded hlast
        rw [isLive_iff.mpr ⟨row, hrow, rfl, hterm⟩] at hlive
        cases hlive
      · exact settleFinished_lost (w := w₁) hrow hparent hterm
          ⟨hlost.unpaired, hlost.lost, hlost.held⟩

def penBin : BinRow := { id := 7, nodeID := some 1 }

def penOrders : List OrderRow :=
  [{ id := 1, status := .reshuffling }, { id := 9, status := .sourcing }]

def pen : Ledger where
  plant :=
    { nodes := bayNodes
      bins := [penBin]
      reservations := []
      nodeIDs := bayNodes_ids
      binIDs := by decide
      binIDsPos := by decide
      binReserved := nodup_nil }
  orders := penOrders
  orderIDs := by decide
  orderIDsPos := by decide
  parents := by decide
  reservedBy := forall_mem_nil _

def penAfter (history : List HistoryAction) : Engine where
  ledger := runSteps historyStep pen history
  columns := fun id =>
    { id, status := .pending, edgeUUID := "u" ++ toString id, sourceNode := "LANE1"
      deliveryNode := "LINE1", robotID := "AMR1" }

def plainHistory : List HistoryAction :=
  [.create { id := 2, binID := some 7 }, .txn (.reserveForDispatch 7 2),
    .txn (.claimAndConfirm 7 2 none), .transition 2 .pending .sourcing,
    .transition 2 .sourcing .dispatched, .transition 2 .dispatched .cancelled,
    .txn (.reserveForDispatch 7 9), .txn (.claimAndConfirm 7 9 none)]

theorem late_report_leaves_bins_plain :
    (penAfter plainHistory).ledger.Claimed 7 9 ∧
      LeavesAlone 2 (penAfter plainHistory).ledger
        ((penAfter plainHistory).handleVendorFinished idleHooks 2 "AMR1").ledger :=
  ⟨by decide +kernel,
    late_report_leaves_bins idleHooks pen (by decide +kernel) plainHistory (by decide +kernel)
      (penAfter plainHistory) rfl 2 "AMR1"
      ((penAfter plainHistory).rowOf { id := 2, status := .cancelled, binID := some 7 })
      (by decide +kernel) rfl
      (.inl ⟨_, mem_visited_runSteps pen plainHistory, by decide +kernel⟩)⟩

def legHistory : List HistoryAction :=
  [.txn (.createCompoundChildren [{ id := 3, parentOrderID := some 1, binID := some 7 }]),
    .transition 3 .pending .sourcing, .transition 3 .sourcing .dispatched,
    .transition 3 .dispatched .cancelled, .txn (.reserveForDispatch 7 9),
    .txn (.claimAndConfirm 7 9 none)]

/-- leg には guard が訊かないので、取り消された leg の報告が、order 9 の bin 7 を LINE1 に移す。 -/
theorem late_report_moves_bin :
    pen.ClaimsLive ∧ AllSteps historyStep HistoryOk pen legHistory ∧
      (penAfter legHistory).ledger.hasEnded 3 = true ∧
      (penAfter legHistory).ledger.Claimed 7 9 ∧
      (penAfter legHistory).ledger.recordedAt 7 = some 1 ∧
      ((penAfter legHistory).handleVendorFinished idleHooks 3 "AMR1").ledger.recordedAt 7 =
        some 2 ∧
      ¬ LeavesAlone 3 (penAfter legHistory).ledger
        ((penAfter legHistory).handleVendorFinished idleHooks 3 "AMR1").ledger := by
  decide +kernel

end Shingo.Core
