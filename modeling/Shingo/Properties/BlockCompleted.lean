import Shingo.Properties.HaulTrace

/-!
# 記録された置き場所は robot に付いていくか

block の完了を一つ扱うたびに、取った bin のどれもが、robot を辿った通りに記録されているか
（`FollowsRobot`）。block は bin を名指さないので、どの bin の話かを読み違えると外れる。
-/

namespace Shingo.Core

open Dispatch List Ledger HaulPlan ClaimedBin
open Infra

/-! ## 控え -/

def HaulPlan.rowOf (plan : HaulPlan) : ClaimedBin → OrderBinRow :=
  orderBinFor (resolvePerBinDestinations plan.order.steps (claimedMap plan.claimed))

structure Confirmed (plan : HaulPlan) : Prop where
  primary : ∃ c ∈ plan.claimed, plan.order.binID = some c.binID
  rows : plan.order.orderBins = [] ∨
    plan.order.parentOrderID = none ∧ plan.order.orderBins = plan.claimed.map plan.rowOf

variable {plan : HaulPlan}

theorem Confirmed.of_confirmComplexPlan {o : CargoOrder}
    (h : confirmComplexPlan o plan.claimed = some plan.order) : Confirmed plan := by
  obtain ⟨c, hc, ho⟩ := Option.map_eq_some_iff.mp h
  have hmem : c ∈ plan.claimed := by
    rcases Option.or_eq_some_iff.mp hc with hc | ⟨-, hc⟩
    · exact mem_of_find?_eq_some hc
    · exact mem_of_mem_head? hc
  refine ⟨⟨c, hmem, by rw [← ho]⟩, ?_⟩
  unfold rowOf
  rw [← ho]
  split
  · rename_i hmulti
    exact .inr ⟨hmulti.2, rfl⟩
  · exact .inl rfl

variable {ob : OrderBinRow} {transitID b : Nat} {w₀ w : Ledger} {r : Resting Nat String}
  {order : CargoOrder} {st : ResolvedStep} {node : String} {s : Haul}

theorem mem_listOrderBins : ob ∈ order.listOrderBins ↔ ob ∈ order.orderBins :=
  mem_insertionSort _

namespace HaulInv

variable (h : HaulInv plan w₀ s) (hready : plan.Ready w₀)

/-! ## pickup -/

section

variable (hc : Confirmed plan) (hn : plan.Visits node)
include h hready hc hn

theorem awaitsPickup_iff (hob : ob ∈ plan.order.orderBins) :
    s.ledger.plant.awaitsPickup node ob = true ↔ ob.nodeName = node ∧
      ∃ r ∈ s.robot.resting, r.item = ob.binID ∧ r.place = node ∧ plan.pending s r = false := by
  rcases hc.rows with hnil | ⟨-, hrows⟩
  · rw [hnil] at hob
    cases hob
  rw [hrows] at hob
  obtain ⟨c, hc, rfl⟩ := mem_map.mp hob
  have hmem := mem_map_of_mem (f := binID) hc
  have hvisit := hready.visits_claimed hc
  obtain ⟨bin, -, -, hget, hrec, -⟩ := h.booked.exists_row hmem
  obtain ⟨src, hsrc, -, hsrcID⟩ := h.exists_node hready hvisit
  have hawait : s.ledger.plant.awaitsPickup node (plan.rowOf c) = true ↔
      c.nodeName = node ∧ s.ledger.recordedAt c.binID = w₀.plant.nodeIDOf c.nodeName := by
    rw [hrec, hsrcID]
    simp only [Plant.awaitsPickup, rowOf, orderBinFor, hget, hsrc, hready.trimmed hvisit,
      hready.trimmed hn, beq_self_eq_true, Bool.true_and, Bool.and_eq_true, beq_iff_eq]
  rw [hawait]
  refine and_congr_right fun hname => ?_
  rw [hname]
  exact h.recordedAt_eq_iff hready hmem hn

/-- **済んだ pickup の bin は、いま robot が取った bin。** -/
theorem resolvePickupBin_next (hr : r ∈ s.robot.resting) (hplace : r.place = node)
    (hok : plan.StepTraceable s node .pickup) :
    s.ledger.plant.resolvePickupBin plan.order node = some r.item := by
  unfold Plant.resolvePickupBin
  cases hfind : plan.order.listOrderBins.find? (s.ledger.plant.awaitsPickup node) with
  | some ob =>
    -- その node に置かれている bin は一つなので、当たった row は取った bin のもの
    have hob := mem_listOrderBins.mp (mem_of_find?_eq_some hfind)
    obtain ⟨-, r', hr', hitem, hplace', -⟩ :=
      (h.awaitsPickup_iff hready hc hn hob).mp (List.find?_some hfind)
    show some ob.binID = some r.item
    rw [← hitem, h.simulated.tidy.eq_of_place hr' hr (hplace'.trans hplace.symm)]
  | none =>
    rcases hok r hr hplace with hown | ⟨⟨ob, hob, hid, hname⟩, hpend⟩
    · obtain ⟨bin, -, -, hget, -⟩ :=
        h.booked.exists_row (h.simulated.mem_claimed hr)
      simp [hown, Option.filter, hget]
    · have hawait := (h.awaitsPickup_iff hready hc hn hob).mpr
        ⟨hname, r, hr, hid.symm, hplace, hpend⟩
      exact absurd hawait (List.find?_eq_none.mp hfind ob (mem_listOrderBins.mpr hob))

theorem resolvePickupBin_replay (hok : plan.ReplayHarmless s node .pickup) :
    ∃ b ∈ plan.unsettled s, s.ledger.plant.resolvePickupBin plan.order node = some b := by
  obtain ⟨⟨b, hb, hown⟩, hnone⟩ := hok
  refine ⟨b, hb, ?_⟩
  have hfind : plan.order.listOrderBins.find? (s.ledger.plant.awaitsPickup node) = none := by
    refine List.find?_eq_none.mpr fun ob hob hawait => ?_
    have hob := mem_listOrderBins.mp hob
    obtain ⟨hname, r, hr, hitem, hplace, hpend⟩ := (h.awaitsPickup_iff hready hc hn hob).mp hawait
    exact hnone r hr hplace hpend ⟨ob, hob, hitem.symm, hname⟩
  obtain ⟨c, hcm, hprimary⟩ := hc.primary
  have hbc : c.binID = b := Option.some.inj (hprimary.symm.trans hown)
  obtain ⟨bin, -, -, hget, -⟩ := h.booked.exists_row (mem_map_of_mem hcm)
  rw [hbc] at hget
  unfold Plant.resolvePickupBin
  rw [hfind]
  simp [hown, Option.filter, hget]

end

include h hready in
theorem exists_transit :
    ∃ transit, s.ledger.plant.getNodeByName transitNodeName = some transit ∧
      w₀.plant.nodeIDOf transitNodeName = some transit.id := by
  have hsome : (s.ledger.plant.nodeIDOf transitNodeName).isSome = true := by
    rw [h.booked.nodeIDOf]
    exact hready.transit
  obtain ⟨transit, hget, -, hid⟩ := Plant.exists_node hsome
  exact ⟨transit, hget, by rw [← hid, h.booked.nodeIDOf]⟩

/-! ## dropoff -/

theorem unsettled_sublist : (plan.unsettled s).Sublist s.robot.items :=
  List.Sublist.append_left (List.Sublist.map _ filter_sublist) _

section

include h

theorem nodup_unsettled (hready : plan.Ready w₀) : (plan.unsettled s).Nodup :=
  (h.simulated.tidy.items.nodup_iff.mpr hready.bins).sublist unsettled_sublist

theorem mem_claimed_of_unsettled (hb : b ∈ plan.unsettled s) : b ∈ plan.claimed.map binID :=
  h.simulated.tidy.items.mem_iff.mp (unsettled_sublist.subset hb)

theorem unsettled_finished (hfin : s.finished = true) : plan.unsettled s = [] := by
  have hpend : s.robot.resting.filter (plan.pending s) = [] := by
    refine filter_eq_nil_iff.mpr fun r _ => ?_
    simp [pending, hfin]
  unfold unsettled
  rw [h.simulated.settled hfin, hpend]
  rfl

theorem carried_perm (hready : plan.Ready w₀)
    (htransit : w₀.plant.nodeIDOf transitNodeName = some transitID) :
    (((s.ledger.plant.listBinsByClaim plan.order.id).filter
      (·.nodeID == some transitID)).map BinRow.id).Perm (plan.unsettled s) := by
  have hnodup : (((s.ledger.plant.listBinsByClaim plan.order.id).filter
      (·.nodeID == some transitID)).map BinRow.id).Nodup := by
    have hlist : ((s.ledger.plant.listBinsByClaim plan.order.id).map BinRow.id).Nodup := by
      refine (((perm_insertionSort _ _).map BinRow.id).nodup_iff).mpr ?_
      exact s.ledger.plant.binIDs.sublist (List.Sublist.map _ filter_sublist)
    exact hlist.sublist (List.Sublist.map _ filter_sublist)
  have hmem : ∀ bin, bin ∈ (s.ledger.plant.listBinsByClaim plan.order.id).filter
      (·.nodeID == some transitID) ↔ (bin ∈ s.ledger.plant.bins ∧
        bin.claimedBy = some plan.order.id ∧ bin.status ≠ .retired) ∧
        bin.nodeID = some transitID := by
    intro bin
    unfold Plant.listBinsByClaim
    simp
  refine (perm_ext_iff_of_nodup hnodup (h.nodup_unsettled hready)).mpr fun b => ?_
  rw [mem_map]
  constructor
  · rintro ⟨bin, hbin, rfl⟩
    obtain ⟨⟨hbin, hclaim, -⟩, hnode⟩ := (hmem bin).mp hbin
    refine (h.recordedAt_transit_iff hready (h.booked.only bin hbin hclaim)).mp ?_
    rw [recordedAt_of_mem hbin, hnode, htransit]
  · intro hb
    have hclaimed := h.mem_claimed_of_unsettled hb
    cases hfin : s.finished with
    | true =>
      rw [h.unsettled_finished hfin] at hb
      cases hb
    | false =>
      obtain ⟨bin, hbin, hid, -, hrec, hstatus, hclaim⟩ := h.booked.exists_row hclaimed
      refine ⟨bin, (hmem bin).mpr ⟨⟨hbin, hclaim (by simp [hfin]), hstatus⟩, ?_⟩, hid⟩
      rw [← hrec, ← htransit]
      exact (h.recordedAt_transit_iff hready hclaimed).mpr hb

/-- **dropoff の bin が決まるのは、落ち着いていない bin がちょうど一つのとき。** -/
theorem resolveDropoffBin_iff (hready : plan.Ready w₀) :
    s.ledger.plant.resolveDropoffBin plan.order = some b ↔ plan.unsettled s = [b] := by
  obtain ⟨transit, hget, hid⟩ := h.exists_transit hready
  have hperm := h.carried_perm hready hid
  unfold Plant.resolveDropoffBin
  rw [Plant.getNodeByDotName_transit, hget]
  dsimp only
  constructor
  · intro hres
    split at hres
    · rename_i b' hlist
      cases hres
      rw [hlist] at hperm
      exact perm_singleton.mp hperm.symm
    · cases hres
  · intro hone
    rw [hone] at hperm
    rw [perm_singleton.mp hperm]

end

end HaulInv

/-! ## block の完了 -/

namespace HaulPlan

theorem blockKind (a : StepAction) : isPickupBlock (binTaskForAction a) = (a == .pickup) ∧
      isDropoffBlock (binTaskForAction a) = (a == .dropoff) := by
  cases a <;> decide +kernel

theorem completed_pickup (hact : st.action = .pickup) :
    plan.completed w st = w.handlePickupBlockCompleted plan.order st.node := by
  simp [completed, handleBlockCompleted, blockKind, hact]

theorem completed_dropoff (hact : st.action = .dropoff) :
    plan.completed w st = w.handleStoreBlockCompleted plan.isStorageSlot plan.order st.node := by
  simp [completed, handleBlockCompleted, blockKind, hact]

theorem completed_wait (hact : st.action = .wait) : plan.completed w st = w := by
  simp [completed, handleBlockCompleted, blockKind, hact]

end HaulPlan

namespace HaulInv

variable (h : HaulInv plan w₀ s) (hready : plan.Ready w₀) {i : Nat} {location : String}

theorem visits_of_step (hst : plan.order.steps[i]? = some st)
    (hact : st.action ≠ .wait) : plan.Visits st.node :=
  ⟨st, mem_of_getElem? hst, hact, rfl⟩

theorem handlePickup_eq (h : w.plant.resolvePickupBin order location = some b) :
    w.handlePickupBlockCompleted order location = w.moveToTransit b := by
  unfold handlePickupBlockCompleted
  rw [h]

section

variable (hfin : s.finished = false)
  (hst : plan.order.steps[s.done]? = some st) (hact : st.action = .pickup)
  (hempty : s.robot.hand = none) (hr : r ∈ s.robot.resting) (hplace : r.place = st.node)
  (hok : plan.StepTraceable s st.node .pickup)
include h hready hfin hst hact hempty hr hplace hok

theorem lift_relocated (hid : w₀.plant.nodeIDOf transitNodeName = some transitID)
    (hrel : Relocated (plan.claimed.map binID) r.item transitID true s.ledger w) :
    HaulInv plan w₀ { s with ledger := w, robot := s.robot.lift r.item, done := s.done + 1 } where
  simulated := h.simulated.pickup hst hready hfin hact hempty hr hplace hok
  booked := by
    have hbooked := h.booked.relocated hrel
    rwa [Bool.and_true] at hbooked
  matched := by
    constructor
    · rintro b hb
      cases hb
      rw [hid]
      exact h.booked.recordedAt_self hrel (h.simulated.mem_claimed hr)
    · intro r' hr'
      obtain ⟨hr', hne⟩ := Carriage.mem_lift.mp hr'
      have hmem := h.simulated.mem_claimed hr'
      exact (h.booked.recordedAt_other hrel hmem hne).trans (h.matched.rest r' hr')

theorem pickup_next (hc : Confirmed plan) :
    HaulInv plan w₀ { s with
      ledger := plan.completed s.ledger st, robot := s.robot.lift r.item, done := s.done + 1 } := by
  have hn : plan.Visits st.node := visits_of_step hst (by simp [hact])
  obtain ⟨transit, hget, hid⟩ := h.exists_transit hready
  rw [completed_pickup hact,
    handlePickup_eq (h.resolvePickupBin_next hready hc hn hr hplace hok)]
  exact h.lift_relocated hready hfin hst hact hempty hr hplace hok hid
    (moveToTransit_relocated r.item hget)

end

/-! ### dropoff -/

variable {isStorageSlot : Nat → Bool}

theorem handleStore_delivery (h : trimSpace location = trimSpace order.deliveryNode) :
    w.handleStoreBlockCompleted isStorageSlot order location = w :=
  if_pos (.inr h)

theorem handleStore_none (h : w.plant.resolveDropoffBin order = none) :
    w.handleStoreBlockCompleted isStorageSlot order location = w := by
  unfold handleStoreBlockCompleted
  dsimp only
  rw [h]
  split <;> rfl

include h hready in
theorem handleStore_relocated (hn : plan.Visits node) (hd : plan.Visits plan.order.deliveryNode)
    (hne : node ≠ plan.order.deliveryNode) (hone : plan.unsettled s = [b])
    (hfree : ∀ r ∈ s.robot.resting, r.place ≠ node) :
    ∃ nodeID, w₀.plant.nodeIDOf node = some nodeID ∧
      Relocated (plan.claimed.map binID) b nodeID true s.ledger
        (s.ledger.handleStoreBlockCompleted plan.isStorageSlot plan.order node) := by
  obtain ⟨transit, htransit, -⟩ := h.exists_transit hready
  obtain ⟨dest, hdest, hnode, hid⟩ := h.exists_node hready hn
  have heq : s.ledger.handleStoreBlockCompleted plan.isStorageSlot plan.order node =
      ledgerStep s.ledger (.placeBin
        (placementAt plan.isStorageSlot plan.order b dest.id false)) := by
    unfold handleStoreBlockCompleted
    rw [hready.trimmed hn, hready.trimmed hd, if_neg (not_or.mpr ⟨hready.ne_blank hn, hne⟩),
      (h.resolveDropoffBin_iff hready).mpr hone, hdest]
  -- 置き先に記録されている bin は無いので、退けられる ghost に取った bin は入らない
  have hclear : ∀ bin ∈ s.ledger.plant.bins, bin.id ∈ plan.claimed.map binID →
      bin.id ≠ b → bin.nodeID ≠ some dest.id := by
    intro bin hbin hmem _ hat
    rw [← recordedAt_of_mem hbin, ← hid] at hat
    obtain ⟨r, hr, -, hplace, -⟩ := (h.recordedAt_eq_iff hready hmem hn).mp hat
    exact hfree r hr hplace
  obtain ⟨w', ghosts, hplaced, hrel⟩ := placeBin_relocated
    (p := placementAt plan.isStorageSlot plan.order b dest.id false) hnode htransit hclear
  refine ⟨dest.id, hid, ?_⟩
  rw [heq, ledgerStep_placeBin hplaced]
  exact hrel

variable {nodeID : Nat}

section

variable (hst : plan.order.steps[s.done]? = some st) (hact : st.action = .dropoff)
  (hhand : s.robot.hand = some b) (hok : plan.StepTraceable s st.node .dropoff)
include h hready hst hact hhand hok

theorem put_relocated
    (hdel : st.node ≠ plan.order.deliveryNode) (hid : w₀.plant.nodeIDOf st.node = some nodeID)
    (hrel : Relocated (plan.claimed.map binID) b nodeID true s.ledger w) :
    HaulInv plan w₀ { s with
      ledger := w, robot := { resting := ⟨b, st.node, true⟩ :: s.robot.resting }
      done := s.done + 1 } where
  simulated := h.simulated.dropoff hst hready hact hhand hok
  booked := by
    have hbooked := h.booked.relocated hrel
    rwa [Bool.and_true] at hbooked
  matched := by
    refine ⟨fun b hb => (nomatch hb), fun r hr => ?_⟩
    rcases mem_cons.mp hr with rfl | hr
    · rw [if_neg (by simp [pending, hdel]), hid]
      exact h.booked.recordedAt_self hrel
        ((Carriage.mem_items h.simulated.tidy.items).mpr (.inl hhand))
    · have hmem := h.simulated.mem_claimed hr
      have hne := Carriage.hand_notMem h.simulated.tidy.items hready.bins hhand hr
      exact (h.booked.recordedAt_other hrel hmem hne).trans (h.matched.rest r hr)

theorem put_delivery (hfin : s.finished = false) (hdel : st.node = plan.order.deliveryNode) :
    HaulInv plan w₀ { s with
      robot := { resting := ⟨b, st.node, true⟩ :: s.robot.resting }, done := s.done + 1 } where
  simulated := h.simulated.dropoff hst hready hact hhand hok
  booked := h.booked
  matched := by
    refine ⟨fun b hb => (nomatch hb), fun r hr => ?_⟩
    rcases mem_cons.mp hr with rfl | hr
    · rw [if_pos (by simp [pending, hfin, hdel])]
      exact h.matched.hand b hhand
    · exact h.matched.rest r hr

theorem dropoff_next (hd : plan.Visits plan.order.deliveryNode) (hfin : s.finished = false) :
    HaulInv plan w₀ { s with
      ledger := plan.completed s.ledger st
      robot := { resting := ⟨b, st.node, true⟩ :: s.robot.resting }, done := s.done + 1 } := by
  have hn : plan.Visits st.node := visits_of_step hst (by simp [hact])
  rw [completed_dropoff hact]
  by_cases hdel : st.node = plan.order.deliveryNode
  · rw [handleStore_delivery (by rw [hdel])]
    exact h.put_delivery hready hst hact hhand hok hfin hdel
  · have hpend : s.robot.resting.filter (plan.pending s) = [] :=
      filter_eq_nil_iff.mpr fun r hr => by simp [hok.2 hdel r hr]
    have hone : plan.unsettled s = [b] := by
      unfold unsettled
      rw [hhand, hpend]
      rfl
    obtain ⟨nodeID, hid, hrel⟩ := h.handleStore_relocated hready hn hd hdel hone hok.1
    exact h.put_relocated hready hst hact hhand hok hdel hid hrel

end

theorem wait_next (h : HaulInv plan w₀ s) (hst : plan.order.steps[s.done]? = some st)
    (hact : st.action = .wait) :
    HaulInv plan w₀ { s with ledger := plan.completed s.ledger st, done := s.done + 1 } := by
  rw [completed_wait hact]
  exact ⟨h.simulated.wait hst hact, h.booked, h.matched.hand, h.matched.rest⟩

/-! ### もう一度届いた block -/

theorem withLedger (h : HaulInv plan w₀ s) (hbooked : Booked plan w₀ (!s.finished) w)
    (hsame : ∀ b ∈ plan.claimed.map binID, w.recordedAt b = s.ledger.recordedAt b) :
    HaulInv plan w₀ { s with ledger := w } where
  simulated := h.simulated.withLedger w
  booked := hbooked
  matched := by
    constructor
    · intro b hb
      exact (hsame b ((Carriage.mem_items h.simulated.tidy.items).mpr (.inl hb))).trans
        (h.matched.hand b hb)
    · intro r hr
      exact (hsame r.item (h.simulated.mem_claimed hr)).trans
        (h.matched.rest r hr)

include h hready in
theorem pickup_replay (hc : Confirmed plan) (hst : plan.order.steps[i]? = some st)
    (hact : st.action = .pickup) (hok : plan.ReplayHarmless s st.node .pickup) :
    HaulInv plan w₀ { s with ledger := plan.completed s.ledger st } := by
  have hn : plan.Visits st.node := visits_of_step hst (by simp [hact])
  obtain ⟨transit, hget, hid⟩ := h.exists_transit hready
  obtain ⟨b, hb, hres⟩ := h.resolvePickupBin_replay hready hc hn hok
  rw [completed_pickup hact, handlePickup_eq hres]
  have hmem := h.mem_claimed_of_unsettled hb
  have hrel : Relocated (plan.claimed.map binID) b transit.id true s.ledger
      (s.ledger.moveToTransit b) := moveToTransit_relocated b hget
  refine h.withLedger ?_ ?_
  · have hbooked := h.booked.relocated hrel
    rwa [Bool.and_true] at hbooked
  · intro b' hb'
    by_cases he : b' = b
    · -- もう `_TRANSIT` に在る
      have hrec := (h.recordedAt_transit_iff hready hmem).mpr hb
      rw [he, h.booked.recordedAt_self hrel hmem, hrec, hid]
    · exact h.booked.recordedAt_other hrel hb' he

include h hready in
theorem dropoff_replay (hact : st.action = .dropoff)
    (hok : plan.ReplayHarmless s st.node .dropoff) :
    HaulInv plan w₀ { s with ledger := plan.completed s.ledger st } := by
  have hkeep : plan.completed s.ledger st = s.ledger := by
    rw [completed_dropoff hact]
    rcases hok with hdel | hlen
    · exact handleStore_delivery (by rw [hdel])
    · refine handleStore_none (Option.eq_none_iff_forall_ne_some.mpr fun b hb => ?_)
      rw [(h.resolveDropoffBin_iff hready).mp hb] at hlen
      exact hlen rfl
  rw [hkeep]
  exact h

/-! ### order の終わり -/

theorem pending_spec (h : plan.pending s r = true) :
    r.moved = true ∧ r.place = plan.order.deliveryNode := by
  simp only [pending, Bool.and_eq_true, beq_iff_eq] at h
  exact ⟨h.1.2, h.2⟩

section

include h

theorem finish_simulated (hempty : s.robot.hand = none) (w : Ledger) :
    Simulated plan { s with ledger := w, finished := true } :=
  ⟨h.simulated.tidy, h.simulated.visits, h.simulated.agree, h.simulated.last, h.simulated.own,
    fun _ => hempty⟩

theorem finish_of_none (hempty : s.robot.hand = none)
    (hnone : ∀ r ∈ s.robot.resting, plan.pending s r = false) :
    HaulInv plan w₀ { s with finished := true } where
  simulated := h.finish_simulated hempty s.ledger
  booked := h.booked.release
  matched := by
    refine ⟨h.matched.hand, fun r hr => ?_⟩
    have hrec := h.matched.rest r hr
    rw [hnone r hr] at hrec
    exact hrec

include hready

theorem finish_of_relocated (hempty : s.robot.hand = none) (hr : r ∈ s.robot.resting)
    (hpend : plan.pending s r = true) {keep : Bool}
    (hid : w₀.plant.nodeIDOf plan.order.deliveryNode = some nodeID)
    (hrel : Relocated (plan.claimed.map binID) r.item nodeID keep s.ledger w) :
    HaulInv plan w₀ { s with ledger := w, finished := true } where
  simulated := h.finish_simulated hempty w
  booked := (h.booked.relocated hrel).release
  matched := by
    refine ⟨fun b hb => ?_, fun r' hr' => ?_⟩
    · rw [show s.robot.hand = some b from hb] at hempty
      cases hempty
    · have hmem := h.simulated.mem_claimed hr'
      show w.recordedAt r'.item = w₀.plant.nodeIDOf r'.place
      by_cases he : r'.item = r.item
      · have hrr := h.simulated.tidy.eq_of_item hready.bins hr' hr he
        rw [hrr, (pending_spec hpend).2, hid]
        exact h.booked.recordedAt_self hrel (he ▸ hmem)
      · -- 納品先に在るのは `r` だけなので、ほかの bin は待っていない
        have hnone : plan.pending s r' = false := by
          rw [Bool.eq_false_iff]
          intro hpend'
          have hplace := (pending_spec hpend').2.trans (pending_spec hpend).2.symm
          exact he (congrArg Resting.item (h.simulated.tidy.eq_of_place hr' hr hplace))
        rw [h.booked.recordedAt_other hrel hmem he, h.matched.rest r' hr', hnone]
        rfl

theorem placeBin_delivery (hd : plan.Visits plan.order.deliveryNode)
    (hr : r ∈ s.robot.resting) (hpend : plan.pending s r = true) :
    ∃ node, s.ledger.plant.getNodeByDotName plan.order.deliveryNode = some node ∧
      w₀.plant.nodeIDOf plan.order.deliveryNode = some node.id ∧ ∃ w' ghosts,
        s.ledger.placeBin (placementAt plan.isStorageSlot plan.order r.item node.id true) =
          .ok (w', ghosts) ∧
        Relocated (plan.claimed.map binID) r.item node.id false s.ledger w' := by
  obtain ⟨transit, htransit, -⟩ := h.exists_transit hready
  obtain ⟨node, hdot, hnode, hid⟩ := h.exists_node hready hd
  refine ⟨node, hdot, hid, placeBin_relocated
    (p := placementAt plan.isStorageSlot plan.order r.item node.id true) hnode htransit ?_⟩
  intro bin hbin hmem _ hat
  rw [← recordedAt_of_mem hbin] at hat
  obtain ⟨r', hr', -, hplace, hnone⟩ :=
    (h.recordedAt_eq_iff hready hmem hd).mp (hat.trans hid.symm)
  have hrr := h.simulated.tidy.eq_of_place hr' hr (hplace.trans (pending_spec hpend).2.symm)
  rw [hrr, hpend] at hnone
  cases hnone

theorem finish_single (hd : plan.Visits plan.order.deliveryNode)
    (hsource : plan.order.sourceNode ≠ "")
    (hfin : s.finished = false) (hdone : s.done = plan.order.steps.length)
    (hempty : s.robot.hand = none) (hrows : plan.order.orderBins = []) : HaulInv plan w₀ { s with
      ledger := s.ledger.handleOrderDelivered plan.isStorageSlot plan.order
      finished := true } := by
  have hall : plan.order.steps.take s.done = plan.order.steps := by rw [hdone, take_length]
  have hlast := h.simulated.last hempty
  rw [hall, hready.endpoints] at hlast
  obtain ⟨st, hst, hact, -⟩ := id hd
  obtain ⟨r, hr, hmoved, hplace⟩ := hlast ⟨st, hst, hact⟩
  have hpend : plan.pending s r = true := by simp [pending, hfin, hmoved, hplace]
  have hown := (h.simulated.own hrows).2 r hr hmoved
  obtain ⟨node, hdot, hid, w', ghosts, hplaced, hrel⟩ := h.placeBin_delivery hready hd hr hpend
  obtain ⟨bin, -, hbid, hget, -, -, hclaim⟩ :=
    h.booked.exists_row (h.simulated.mem_claimed hr)
  have hrefuse : refuseArrival plan.order bin node.id .delivery = none := by
    unfold refuseArrival
    split
    · rfl
    · exact if_pos (hclaim (by simp [hfin]))
  have hsingle : applySingleBinArrival plan.isStorageSlot s.ledger plan.order =
      (w', none) := by
    unfold applySingleBinArrival
    rw [hown, hdot, Option.bind_some, hget]
    simp only [hrefuse, hbid, ledgerStep_placeBin hplaced]
  have hdelivered : s.ledger.handleOrderDelivered plan.isStorageSlot plan.order = w' := by
    unfold handleOrderDelivered applyBinArrivalForOrder
    rw [if_neg (not_or.mpr ⟨hsource, hready.ne_blank hd⟩), if_neg (not_not.mpr hrows), hsingle]
  rw [hdelivered]
  exact h.finish_of_relocated hready hempty hr hpend hid hrel

omit hready

theorem destNode_row (hdone : s.done = plan.order.steps.length) (hr : r ∈ s.robot.resting) :
    (resolvePerBinDestinations plan.order.steps (claimedMap plan.claimed) r.item).getD "" =
      if r.moved then r.place else "" := by
  have hdest := h.simulated.agree.dest r hr
  rw [hdone, take_length] at hdest
  unfold resolvePerBinDestinations
  rw [hdest]
  split <;> rfl

theorem arrivalOf_row (hready : plan.Ready w₀) (hfin : s.finished = false)
    (hparent : plan.order.parentOrderID = none)
    (hid : w₀.plant.nodeIDOf plan.order.deliveryNode = some nodeID) (hr : r ∈ s.robot.resting)
    (hbin : ob.binID = r.item) (hdest : ob.destNode = if r.moved then r.place else "") :
    arrivalOf plan.isStorageSlot s.ledger plan.order ob =
      if plan.pending s r then
        .place (placementAt plan.isStorageSlot plan.order r.item nodeID true)
      else .skip := by
  have hvisit := h.simulated.visits r hr
  obtain ⟨bin, -, -, hget, hrec, -, hclaim⟩ :=
    h.booked.exists_row (h.simulated.mem_claimed hr)
  obtain ⟨dest, hdot, -, hdestID⟩ := h.exists_node hready hvisit
  unfold arrivalOf
  cases hmoved : r.moved with
  | false =>
    -- まだ動いていない bin に行き先は無い
    have hblank : ob.destNode = "" := by simpa [hmoved] using hdest
    rw [if_pos hblank, if_neg]
    simp [pending, hmoved]
  | true =>
    rw [hmoved, if_pos rfl] at hdest
    rw [hdest, if_neg (hready.ne_blank hvisit), hbin, hget, hdot]
    dsimp only
    rw [← hrec, h.matched.rest r hr, ← hdestID]
    by_cases hpend : plan.pending s r = true
    · have hrefuse : refuseArrival plan.order bin dest.id .multiBinDelivery = none := by
        unfold refuseArrival
        rw [hparent]
        exact if_pos (hclaim (by simp [hfin]))
      have hnode : dest.id = nodeID := by
        rw [(pending_spec hpend).2, hid] at hdestID
        exact (Option.some.inj hdestID).symm
      rw [if_pos hpend, if_neg (hready.ne_transit hvisit).symm, hrefuse, if_pos hpend, hnode]
    · rw [if_neg hpend, if_pos rfl, if_neg hpend]

theorem resting_of_row (hdone : s.done = plan.order.steps.length) (hempty : s.robot.hand = none)
    (hrows : plan.order.orderBins = plan.claimed.map plan.rowOf) (hob : ob ∈ plan.order.orderBins) :
    ∃ r ∈ s.robot.resting, ob.binID = r.item ∧
      ob.destNode = if r.moved then r.place else "" := by
  rw [hrows] at hob
  obtain ⟨c, hc, rfl⟩ := mem_map.mp hob
  rcases (Carriage.mem_items h.simulated.tidy.items).mp (mem_map_of_mem hc) with
    hhand | ⟨r, hr, hitem⟩
  · rw [hempty] at hhand
    cases hhand
  · refine ⟨r, hr, hitem.symm, ?_⟩
    rw [← h.destNode_row hdone hr, hitem]
    rfl

end

theorem handleOrderDelivered_multi
    (hsource : order.sourceNode ≠ "") (hdelivery : order.deliveryNode ≠ "")
    (hne : order.orderBins ≠ []) (hnone : ∀ ob ∈ order.listOrderBins,
      (arrivalOf isStorageSlot w order ob).refusal? = none) :
    w.handleOrderDelivered isStorageSlot order = w.applyMultiBinArrival
      (order.listOrderBins.filterMap fun ob =>
        (arrivalOf isStorageSlot w order ob).instruction?) := by
  have hrefusals : (order.listOrderBins.map (arrivalOf isStorageSlot w order)).filterMap
      Ledger.ArrivalAnswer.refusal? = [] := by
    rw [filterMap_map, filterMap_eq_nil_iff]
    exact hnone
  unfold handleOrderDelivered applyBinArrivalForOrder
    applyMultiBinArrivalForOrder
  rw [if_neg (not_or.mpr ⟨hsource, hdelivery⟩), if_pos hne]
  dsimp only
  rw [hrefusals]
  rw [filterMap_map]
  rfl

section

variable (hrows : plan.order.orderBins = plan.claimed.map plan.rowOf)
include hready hrows

theorem nodup_listOrderBins : (plan.order.listOrderBins.map OrderBinRow.binID).Nodup := by
  refine ((perm_insertionSort _ _).map OrderBinRow.binID).nodup_iff.mpr ?_
  rw [hrows, map_map]
  exact hready.bins

theorem instructions_eq (h : HaulInv plan w₀ s) (hr : r ∈ s.robot.resting)
    (hpend : plan.pending s r = true) {answer : OrderBinRow → Ledger.ArrivalAnswer}
    (hanswer : ∀ ob ∈ plan.order.listOrderBins, ∃ r ∈ s.robot.resting, ob.binID = r.item ∧
      answer ob = if plan.pending s r then
          .place (placementAt plan.isStorageSlot plan.order r.item nodeID true)
        else .skip) :
    plan.order.listOrderBins.filterMap (fun ob => (answer ob).instruction?) =
      [placementAt plan.isStorageSlot plan.order r.item nodeID true] := by
  -- 置く答えは、待っている bin の row のもの
  have hplace : ∀ ob ∈ plan.order.listOrderBins, ∀ p, (answer ob).instruction? = some p →
      ob.binID = p.binID ∧
        p = placementAt plan.isStorageSlot plan.order r.item nodeID true := by
    intro ob hob p hp
    obtain ⟨r', hr', hbin, heq⟩ := hanswer ob hob
    rw [heq] at hp
    split at hp
    · rename_i hpend'
      have hrr := h.simulated.tidy.eq_of_place hr' hr
        ((pending_spec hpend').2.trans (pending_spec hpend).2.symm)
      cases hp
      exact ⟨hbin, by rw [hrr]⟩
    · cases hp
  have hnodup : (plan.order.listOrderBins.filterMap
      fun ob => (answer ob).instruction?).Nodup := by
    refine pairwise_filterMap.mpr ?_
    have hpair := pairwise_map.mp (nodup_listOrderBins hready hrows)
    refine hpair.imp_of_mem fun {ob ob'} hob hob' hne p hp p' hp' he => hne ?_
    rw [(hplace ob hob p hp).1, (hplace ob' hob' p' hp').1, he]
  refine perm_singleton.mp ((perm_ext_iff_of_nodup hnodup (nodup_singleton _)).mpr
    fun p => ?_)
  rw [mem_filterMap, mem_singleton]
  constructor
  · rintro ⟨ob, hob, hp⟩
    exact (hplace ob hob p hp).2
  · rintro rfl
    obtain ⟨c, hc, hitem⟩ :=
      mem_map.mp (h.simulated.mem_claimed hr)
    have hob : plan.rowOf c ∈ plan.order.listOrderBins := by
      rw [mem_listOrderBins, hrows]
      exact mem_map_of_mem hc
    obtain ⟨r', hr', hbin, heq⟩ := hanswer _ hob
    have hrr := h.simulated.tidy.eq_of_item hready.bins hr' hr (hbin.symm.trans hitem)
    rw [hrr, if_pos hpend] at heq
    exact ⟨_, hob, by rw [heq]; rfl⟩

theorem finish_multi (h : HaulInv plan w₀ s) (hd : plan.Visits plan.order.deliveryNode)
    (hsource : plan.order.sourceNode ≠ "") (hfin : s.finished = false)
    (hdone : s.done = plan.order.steps.length) (hempty : s.robot.hand = none)
    (hparent : plan.order.parentOrderID = none) (hne : plan.order.orderBins ≠ []) :
    HaulInv plan w₀ { s with
      ledger := s.ledger.handleOrderDelivered plan.isStorageSlot plan.order
      finished := true } := by
  obtain ⟨node, hdot, -, hid⟩ := h.exists_node hready hd
  have hanswer : ∀ ob ∈ plan.order.listOrderBins, ∃ r ∈ s.robot.resting, ob.binID = r.item ∧
      arrivalOf plan.isStorageSlot s.ledger plan.order ob =
        if plan.pending s r then
          .place (placementAt plan.isStorageSlot plan.order r.item node.id true)
        else .skip := by
    intro ob hob
    obtain ⟨r, hr, hbin, hdest⟩ := h.resting_of_row hdone hempty hrows (mem_listOrderBins.mp hob)
    exact ⟨r, hr, hbin, h.arrivalOf_row hready hfin hparent hid hr hbin hdest⟩
  have hnone : ∀ ob ∈ plan.order.listOrderBins,
      (arrivalOf plan.isStorageSlot s.ledger plan.order ob).refusal? = none := by
    intro ob hob
    obtain ⟨r, -, -, heq⟩ := hanswer ob hob
    rw [heq]
    split <;> rfl
  rw [handleOrderDelivered_multi hsource (hready.ne_blank hd) hne hnone]
  by_cases hex : ∃ r ∈ s.robot.resting, plan.pending s r = true
  · obtain ⟨r, hr, hpend⟩ := hex
    obtain ⟨node', hdot', -, w', ghosts, hplaced, hrel⟩ :=
      h.placeBin_delivery hready hd hr hpend
    obtain rfl : node' = node := Option.some.inj (hdot'.symm.trans hdot)
    rw [h.instructions_eq hready hrows hr hpend hanswer]
    have harrived : s.ledger.applyMultiBinArrival
        [placementAt plan.isStorageSlot plan.order r.item node'.id true] = w' := by
      simp [applyMultiBinArrival, hplaced, Except.map, Except.toOption]
    rw [harrived]
    exact h.finish_of_relocated hready hempty hr hpend hid hrel
  · push Not at hex
    have hnil : plan.order.listOrderBins.filterMap (fun ob =>
        (arrivalOf plan.isStorageSlot s.ledger plan.order ob).instruction?) = [] := by
      refine filterMap_eq_nil_iff.mpr fun ob hob => ?_
      obtain ⟨r, hr, -, heq⟩ := hanswer ob hob
      rw [heq, if_neg (hex r hr)]
      rfl
    rw [hnil]
    exact h.finish_of_none hempty fun r hr => by simpa using hex r hr

end

/-! ### 一歩 -/

theorem start (hready : plan.Ready w₀) (hnodes : (plan.claimed.map ClaimedBin.nodeName).Nodup) :
    HaulInv plan w₀ (plan.start w₀) where
  simulated := .start hready hnodes
  booked := by
    refine ⟨rfl, fun c hc => ?_, hready.only⟩
    obtain ⟨bin, hbin, hid, -, hclaim, hstatus⟩ := hready.rows c hc
    exact ⟨bin, hbin, hid, hstatus, fun _ => hclaim⟩
  matched := by
    refine ⟨fun b hb => (nomatch hb), fun r hr => ?_⟩
    obtain ⟨c, hc, rfl⟩ := mem_map.mp hr
    obtain ⟨bin, hbin, hid, hnode, -⟩ := hready.rows c hc
    rw [if_neg (by simp [pending])]
    show w₀.recordedAt c.binID = w₀.plant.nodeIDOf c.nodeName
    rw [← hnode, ← hid]
    exact recordedAt_of_mem hbin

section

variable (hc : Confirmed plan)
include h hready hc

theorem next (hd : plan.Visits plan.order.deliveryNode) (horder : plan.InPlanOrder s .next)
    (hok : plan.Traceable s .next) : HaulInv plan w₀ (plan.step s .next) := by
  obtain ⟨hfin, st, hst, hsome⟩ := horder
  obtain ⟨robot', hrobot⟩ := Option.isSome_iff_exists.mp hsome
  have hok := hok st hst
  have hstep : plan.step s .next =
      { s with ledger := plan.completed s.ledger st, robot := robot', done := s.done + 1 } := by
    simp [step, Option.mem_def.mp hst, hrobot]
  rw [hstep]
  unfold moveAt at hrobot
  cases hact : st.action with
  | pickup =>
    rw [hact] at hrobot hok
    obtain ⟨hempty, r, hr, hplace, -, rfl⟩ := Carriage.step_take hrobot
    exact h.pickup_next hready hfin hst hact hempty hr hplace hok hc
  | dropoff =>
    rw [hact] at hrobot hok
    obtain ⟨b, hhand, rfl⟩ := Carriage.step_put hrobot
    exact h.dropoff_next hready hst hact hhand hok hd hfin
  | wait =>
    rw [hact] at hrobot
    cases hrobot
    exact h.wait_next hst hact

theorem replay
    (hok : plan.Traceable s (.replay i)) : HaulInv plan w₀ (plan.step s (.replay i)) := by
  cases hst : plan.order.steps[i]? with
  | none => simpa [step, hst] using h
  | some st =>
    have hok := hok st hst
    have hstep : plan.step s (.replay i) = { s with ledger := plan.completed s.ledger st } := by
      simp [step, hst]
    rw [hstep]
    cases hact : st.action with rw [hact] at hok
    | pickup =>
      exact h.pickup_replay hready hc hst hact hok
    | dropoff =>
      exact h.dropoff_replay hready hact hok
    | wait =>
      rw [completed_wait hact]
      exact h

theorem finish (hd : plan.Visits plan.order.deliveryNode) (hsource : plan.order.sourceNode ≠ "")
    (horder : plan.InPlanOrder s .finished) (hok : plan.Traceable s .finished) :
    HaulInv plan w₀ (plan.step s .finished) := by
  obtain ⟨hdone, hfin⟩ := horder
  rcases hc.rows with hnil | ⟨hparent, hrows⟩
  · exact h.finish_single hready hd hsource hfin hdone hok hnil
  · by_cases hne : plan.order.orderBins = []
    · exact h.finish_single hready hd hsource hfin hdone hok hne
    · exact h.finish_multi hready hrows hd hsource hfin hdone hok hparent hne

end

end HaulInv

/-- **記録された置き場所は robot に付いていく。** -/
theorem positions_follow_robot (plan : HaulPlan) (o : CargoOrder) (w : Ledger)
    (hconfirm : confirmComplexPlan o plan.claimed = some plan.order) (hready : plan.Ready w)
    (hnodes : (plan.claimed.map ClaimedBin.nodeName).Nodup) (events : List HaulEvent)
    (hrun : AllSteps plan.step (fun s e => plan.InPlanOrder s e ∧ plan.Traceable s e)
      (plan.start w) events) :
    ∀ s ∈ visited plan.step (plan.start w) events, plan.FollowsRobot s := by
  have hc := Confirmed.of_confirmComplexPlan hconfirm
  -- 取った bin の在る行程には、wait でない step が在る
  obtain ⟨hsource, hd⟩ : plan.order.sourceNode ≠ "" ∧ plan.Visits plan.order.deliveryNode := by
    obtain ⟨c, hcm, -⟩ := hc.primary
    obtain ⟨st, hst, hact, -⟩ := hready.visits_claimed hcm
    have hspec := extractEndpoints_spec (fun s hs ha => (hready.names s hs ha).1) ⟨st, hst, hact⟩
    rw [hready.endpoints] at hspec
    exact hspec
  have hstep : ∀ s e, HaulInv plan w s → plan.InPlanOrder s e ∧ plan.Traceable s e →
      HaulInv plan w (plan.step s e) := by
    rintro s (_ | i | _) h ⟨horder, hok⟩
    · exact h.next hready hc hd horder hok
    · exact h.replay hready hc hok
    · exact h.finish hready hc hd hsource horder hok
  intro s hs
  exact (AllSteps.visited_of_inv hstep (.start hready hnodes) hrun s hs).follows

/-! ## 具体的な実行 -/

def haulSite (holder : Option Nat) : Ledger where
  plant :=
    { nodes := [⟨1, "_TRANSIT", none, false, none, true, true⟩,
        ⟨2, "SUPPLY", none, false, none, true, false⟩, ⟨3, "STAGE", none, false, none, true, false⟩,
        ⟨4, "LINE", none, false, none, true, false⟩, ⟨5, "RETURN", none, false, none, true, false⟩]
      bins := [⟨7, some 2, .available, some 1, "", false⟩, ⟨8, some 4, .staged, holder, "", false⟩]
      reservations := []
      nodeIDs := by decide
      binIDs := show [7, 8].Nodup by decide
      binIDsPos := by simp
      binReserved := nodup_nil }
  orders := [⟨1, none, .inTransit, none⟩]
  orderIDs := nodup_singleton 1
  orderIDsPos := by simp
  parents := by simp
  reservedBy := forall_mem_nil _

def haulOf (steps : List ResolvedStep) (claimed : List ClaimedBin) : HaulPlan where
  order :=
    let o : CargoOrder :=
      { id := 1, status := .inTransit, processNode := "LINE",
        sourceNode := (extractEndpoints steps).1
        deliveryNode := (extractEndpoints steps).2, steps }
    (confirmComplexPlan o claimed).getD o
  claimed

def clearFirst : HaulPlan :=
  haulOf [{ action := .pickup, node := "LINE" }, { action := .dropoff, node := "STAGE" },
      { action := .pickup, node := "SUPPLY" }, { action := .dropoff, node := "LINE" },
      { action := .pickup, node := "STAGE" }, { action := .dropoff, node := "RETURN" }]
    [⟨8, 0, "LINE"⟩, ⟨7, 2, "SUPPLY"⟩]

def clearEvents : List HaulEvent :=
  [.next, .replay 0, .next, .replay 1, .next, .next, .next, .next, .replay 5, .finished, .replay 1]

theorem positions_follow_robot_clearFirst :
    clearFirst.Ready (haulSite (some 1)) ∧
    AllSteps clearFirst.step (fun s e => clearFirst.InPlanOrder s e ∧ clearFirst.Traceable s e)
      (clearFirst.start (haulSite (some 1))) clearEvents ∧
    ∀ s ∈ visited clearFirst.step (clearFirst.start (haulSite (some 1))) clearEvents,
      clearFirst.FollowsRobot s := by
  refine ⟨?ready, ?run, positions_follow_robot clearFirst clearFirst.order (haulSite (some 1))
    (by decide +kernel) ?ready (by decide +kernel) clearEvents ?run⟩
  · decide +kernel
  · decide +kernel

def stageFirst : HaulPlan :=
  haulOf [{ action := .pickup, node := "SUPPLY" }, { action := .dropoff, node := "STAGE" },
      { action := .pickup, node := "LINE" }, { action := .dropoff, node := "RETURN" },
      { action := .pickup, node := "STAGE" }, { action := .dropoff, node := "LINE" }]
    [⟨7, 0, "SUPPLY"⟩, ⟨8, 2, "LINE"⟩]

def viaStage : HaulPlan :=
  haulOf [{ action := .pickup, node := "SUPPLY" }, { action := .dropoff, node := "STAGE" },
      { action := .pickup, node := "STAGE" }, { action := .dropoff, node := "RETURN" }]
    [⟨7, 0, "SUPPLY"⟩]

def HaulPlan.PartsFromRobot (plan : HaulPlan) (w : Ledger) (events : List HaulEvent) : Prop :=
  plan.Ready w ∧ AllSteps plan.step plan.InPlanOrder (plan.start w) events ∧
    ¬ plan.FollowsRobot (runSteps plan.step (plan.start w) events)
  deriving Decidable

/--
* STAGE で取り直した bin 7 に row は無いので、RETURN に置いた bin 8 が `_TRANSIT` に移る
* SUPPLY の pickup がもう一度届くと、STAGE に置いた bin 7 が `_TRANSIT` に戻る
* STAGE の dropoff がもう一度届くと、いま運んでいる bin 8 が STAGE に置かれる
-/
theorem positions_part_from_robot :
    stageFirst.PartsFromRobot (haulSite (some 1)) [.next, .next, .next, .next, .next] ∧
    viaStage.PartsFromRobot (haulSite none) [.next, .next, .replay 0] ∧
    stageFirst.PartsFromRobot (haulSite (some 1)) [.next, .next, .next, .replay 1] := by
  decide +kernel

end Shingo.Core
