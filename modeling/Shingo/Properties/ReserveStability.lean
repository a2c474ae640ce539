import Shingo.Properties.Reserve

/-!
# 予約は次の周期まで保たれるか

`reserveComplexPlan` を続けて二度呼び、間に bin・node・他の order の予約が変わらないとき、
一度目に割り当てて予約した bin が二度目も同じ pickup に割り当てられるか。

保たれるのは、一度目に新しく配る bin を、どれも手持ちとして見分けられるとき、
かつそのときに限る（`reserve_stable_iff`）。見分ける条件（`matchHeldToNeed`）は
node の名前と空かどうかだけを比べる。配る条件（`findAvailableForNeed`）は、
node を `PARENT.CHILD` の形でも引き、空でない carrier を求める pickup にも空の bin を渡す。

二度目の queue は、一度目に使った予約の後ろに、配った bin を足したもの
（`heldQueue_second`）。その上で二つのループを並べて回す（`reserve_lockstep`）。
-/

namespace Shingo.Core.Plant

open List

def site (b : BinRow) : Option Nat × String := (b.nodeID, b.payloadCode)

structure SameSite (w v : Plant) : Prop where
  nodes : v.nodes = w.nodes
  sites : ∀ id, (v.getBin id).map site = (w.getBin id).map site

variable (w : Plant) (binID orderID : Nat)

theorem SameSite.refl : SameSite w w := ⟨rfl, fun _ => rfl⟩

theorem SameSite.trans {w v u : Plant} (h : SameSite w v) (h' : SameSite v u) : SameSite w u :=
  ⟨h'.nodes.trans h.nodes, fun id => (h'.sites id).trans (h.sites id)⟩

theorem getBin_releaseClaimForBin (id : Nat) :
    (w.releaseClaimForBin binID orderID).getBin id = (w.getBin id).map (unclaim binID orderID) := by
  show (w.bins.map (unclaim binID orderID)).find? _ = _
  rw [List.find?_map]
  congr 2
  funext b
  simp

theorem sameSite_releaseClaimForBin : SameSite w (w.releaseClaimForBin binID orderID) := by
  refine ⟨rfl, fun id => ?_⟩
  rw [getBin_releaseClaimForBin, Option.map_map]
  congr 1
  funext b
  show site (unclaim binID orderID b) = site b
  unfold unclaim
  split <;> rfl

end Shingo.Core.Plant

namespace Shingo.Dispatch

open Core Core.Plant Infra List

/-! ## 外す予約 -/

def released (held : List HeldReservation) (binID : Nat) : Bool :=
  held.any fun hb => !hb.used && !hb.slot && hb.binID == binID

variable {hb : HeldReservation} {held : List HeldReservation} {binID : Nat} {order : Order}
   {pk : PickupNeed} {w v : Plant}

theorem released_iff : released held binID = true ↔
    ∃ hb ∈ held, hb.used = false ∧ hb.slot = false ∧ hb.binID = binID := by
  simp [released, and_assoc]

theorem sameSite_releaseStray (orderID : Nat) (w : Plant) (hb : HeldReservation) :
    SameSite w (releaseStray orderID w hb) := by
  unfold releaseStray
  split
  · exact SameSite.refl w
  split
  · exact sameSite_releaseClaimForBin w hb.binID orderID
  · exact ⟨rfl, fun _ => rfl⟩

theorem sameSite_release (orderID : Nat) (held : List HeldReservation) (w : Plant) :
    SameSite w (held.foldl (releaseStray orderID) w) := by
  induction held generalizing w with
  | nil => exact SameSite.refl w
  | cons hb rest ih => exact (sameSite_releaseStray orderID w hb).trans (ih _)

theorem released_cons (hb : HeldReservation) (rest : List HeldReservation) (binID : Nat) :
    released (hb :: rest) binID = (released [hb] binID || released rest binID) := by
  simp [released]

theorem any_released_singleton (h : (hb.used || hb.slot) = false) (target : ReservationTarget) :
    target.binID?.any (released [hb]) = (target == .bin hb.binID) := by
  obtain ⟨hu, hs⟩ := Bool.or_eq_false_iff.mp h
  cases target with
  | bin binID =>
    rw [Bool.eq_iff_iff]
    simp only [ReservationTarget.binID?, Option.any_some, released_iff, mem_singleton,
      exists_eq_left, hu, hs, true_and, beq_iff_eq, ReservationTarget.bin.injEq]
    exact eq_comm
  | slot _ | mouth _ | occupancy _ => rfl

theorem listReservationsByOrder_releaseStray (orderID : Nat) (w : Plant) (hb : HeldReservation) :
    (releaseStray orderID w hb).listReservationsByOrder orderID =
      (w.listReservationsByOrder orderID).filter fun r => !r.target.binID?.any (released [hb]) := by
  unfold releaseStray listReservationsByOrder
  cases h : hb.used || hb.slot with
  | true =>
    have hnone : ∀ r : Reservation, r.target.binID?.any (released [hb]) = false := by
      rintro r
      cases r.target.binID? with
      | none => rfl
      | some binID => rcases Bool.or_eq_true_iff.mp h with hu | hs <;> simp [released, *]
    simp [hnone]
  | false =>
    simp only [any_released_singleton h, Bool.false_eq_true, if_false]
    split
    · show (w.reservations.filter _).filter _ = _
      rw [filter_filter, filter_filter]
      exact filter_congr fun r _ => Bool.and_comm _ _
    · show (w.reservations.filter _).filter _ = _
      rw [filter_filter, filter_filter]
      refine filter_congr fun r _ => ?_
      cases r.orderID == orderID <;> simp

/-- **呼び出しの後の order の予約は、外さなかった予約。** -/
theorem listReservationsByOrder_release (orderID : Nat) (held : List HeldReservation) (w : Plant) :
    (held.foldl (releaseStray orderID) w).listReservationsByOrder orderID =
      (w.listReservationsByOrder orderID).filter fun r => !r.target.binID?.any (released held) := by
  induction held generalizing w with
  | nil =>
    refine (filter_eq_self.mpr fun r _ => ?_).symm
    cases r.target.binID? <;> rfl
  | cons hb rest ih =>
    rw [foldl_cons, ih, listReservationsByOrder_releaseStray, filter_filter]
    refine filter_congr fun r _ => ?_
    cases r.target.binID? with
    | none => rfl
    | some binID =>
      show (!released rest binID && !released [hb] binID) = !released (hb :: rest) binID
      rw [released_cons hb rest, Bool.not_or, Bool.and_comm]

variable {w : Plant} {orderID i : Nat} {r : Reservation} {c : Bool} {x : PickupNeed × BinRow}
  {taken : List Nat} {dropped : List String}

theorem getBin_releaseStray (h : released [hb] binID = false) :
    (releaseStray orderID w hb).getBin binID = w.getBin binID := by
  unfold releaseStray
  split
  · rfl
  rename_i hkeep
  split
  · rw [getBin_releaseClaimForBin]
    have hne : hb.binID ≠ binID := by
      rintro rfl
      simp_all [released]
    cases hg : w.getBin binID with
    | none => rfl
    | some b =>
      have hid : b.id = binID := by simpa using List.find?_some hg
      show some (unclaim hb.binID orderID b) = some b
      unfold unclaim
      rw [if_neg (fun hc => hne (hc.1.symm.trans hid))]
  · rfl

theorem getBin_release (h : released held binID = false) :
    (held.foldl (releaseStray orderID) w).getBin binID = w.getBin binID := by
  induction held generalizing w with
  | nil => rfl
  | cons hb rest ih =>
    rw [released_cons hb rest, Bool.or_eq_false_iff] at h
    rw [foldl_cons, ih h.2, getBin_releaseStray h.1]

/-! ## 手持ちの予約と row -/

theorem nodeNameOf_congr (h : SameSite w v) (nodeID : Nat) :
    nodeNameOf v nodeID = nodeNameOf w nodeID := by
  unfold nodeNameOf getNode
  rw [h.nodes]

theorem resolveHeldBin_congr (h : SameSite w v) (binID : Nat) (confirmed : Bool) :
    resolveHeldBin v binID confirmed = resolveHeldBin w binID confirmed := by
  have hs := h.sites binID
  unfold resolveHeldBin
  cases hv : v.getBin binID with
  | none =>
    cases hw : w.getBin binID with
    | none => rfl
    | some b => rw [hv, hw] at hs; cases hs
  | some a =>
    cases hw : w.getBin binID with
    | none => rw [hv, hw] at hs; cases hs
    | some b =>
      rw [hv, hw] at hs
      simp only [Option.map_some, site, Option.some.injEq, Prod.mk.injEq] at hs
      simp only [hs.1, hs.2, nodeNameOf_congr h]

theorem resolveHeld_congr (h : SameSite w v) : resolveHeld v = resolveHeld w := by
  funext r
  unfold resolveHeld
  cases r.target <;> simp only [resolveHeldBin_congr h, nodeNameOf_congr h]

theorem resolveHeldBin_fields (w : Plant) (binID : Nat) (confirmed : Bool) :
    (resolveHeldBin w binID confirmed).binID = binID ∧
    (resolveHeldBin w binID confirmed).confirmed = confirmed ∧
    (resolveHeldBin w binID confirmed).used = false ∧
    (resolveHeldBin w binID confirmed).slot = false := by
  unfold resolveHeldBin
  split
  · exact ⟨rfl, rfl, rfl, rfl⟩
  split
  · exact ⟨rfl, rfl, rfl, rfl⟩
  · exact ⟨rfl, rfl, rfl, rfl⟩

variable {step : ResolvedStep}

theorem heldMatches_resolveHeldBin_congr
    (c c' : Bool) : heldMatches step (resolveHeldBin w binID c) =
      heldMatches step (resolveHeldBin w binID c') := by
  unfold resolveHeldBin
  cases w.getBin binID with
  | none => rfl
  | some b =>
    dsimp only
    cases b.nodeID <;> rfl

theorem resolveHeld_target (hs : (resolveHeld w r).slot = false)
    (hz : (resolveHeld w r).binID ≠ 0) : r.target = .bin (resolveHeld w r).binID := by
  unfold resolveHeld at hs hz ⊢
  cases ht : r.target with
  | slot _ => rw [ht] at hs; cases hs
  | bin binID => simp only [(resolveHeldBin_fields w binID _).1]
  | mouth _ | occupancy _ => rw [ht] at hz; exact absurd (resolveHeldBin_fields w 0 _).1 hz

theorem binID_ne_zero_of_matches (h : heldMatches step (resolveHeldBin w binID c) = true) :
    binID ≠ 0 := by
  rintro rfl
  unfold resolveHeldBin at h
  rw [getBin_zero] at h
  exact absurd (heldMatches_iff.mp h).2.2.1 (by simp)

theorem resolveHeld_of_matches (h : heldMatches step (resolveHeld w r) = true) :
    r.target = .bin (resolveHeld w r).binID ∧ (resolveHeld w r).binID ≠ 0 := by
  have hs := (heldMatches_iff.mp h).2.1
  have hz : (resolveHeld w r).binID ≠ 0 := by
    unfold resolveHeld at h hs ⊢
    cases ht : r.target with
    | slot _ => rw [ht] at hs; cases hs
    | bin binID =>
      rw [ht] at h
      simp only [(resolveHeldBin_fields w binID _).1]
      exact binID_ne_zero_of_matches h
    | mouth _ | occupancy _ => rw [ht] at h; exact absurd rfl (binID_ne_zero_of_matches h)
  exact ⟨resolveHeld_target hs hz, hz⟩

/-! ## 二度目の queue -/

section SecondCall

variable (w : Plant) (order : Order) (steps : List ResolvedStep)

/-- 一度目の呼び出しが新しく配る bin。呼び出しの前の表だけで決まる。 -/
def handedOut : List (PickupNeed × BinRow) :=
  handOuts w order [] (uncovered (reserveStart w order).held (complexPickups steps))

def firstLoop : ReserveLoop := reserveNeeds order (reserveStart w order) (complexPickups steps)

theorem firstLoop_took : Took w order.id ((handedOut w order steps).map (·.2.id))
    (firstLoop w order steps).plant := by
  have hstart : Took w order.id [] (reserveStart w order).plant := Took.refl w order.id
  have h := took_reserveNeeds hstart (complexPickups steps)
  rwa [nil_append] at h

theorem sameSite_first : SameSite w (reserveComplexPlan w order steps).plant := by
  have ht := firstLoop_took w order steps
  have hloop : SameSite w (firstLoop w order steps).plant :=
    ⟨ht.nodes, fun id => by unfold getBin; rw [ht.bins]⟩
  exact hloop.trans (sameSite_release order.id _ _)

variable {w order steps}

theorem mem_reserveStart_held (h : hb ∈ (reserveStart w order).held) :
    ∃ r ∈ w.reservations, r.orderID = order.id ∧ hb = resolveHeld w r := by
  obtain ⟨r, hr, rfl⟩ := mem_map.mp h
  obtain ⟨hmem, ho⟩ := mem_filter.mp hr
  exact ⟨r, hmem, by simpa using ho, rfl⟩

theorem released_firstLoop (hz : binID ≠ 0)
    (h : released (firstLoop w order steps).held binID = true) :
    ∃ r ∈ w.reservations, r.target = .bin binID ∧
      resolveHeld w r ∈ (firstLoop w order steps).held := by
  obtain ⟨hb, hmem, hu, hs, rfl⟩ := released_iff.mp h
  obtain ⟨r, hr, -, rfl⟩ := mem_reserveStart_held (mem_held_of_reserveNeeds hmem hu)
  exact ⟨r, hr, resolveHeld_target hs hz, hmem⟩

theorem heldQueue_nodup (w : Plant) (order : Order) (step : ResolvedStep) :
    (heldQueue (reserveStart w order).held step).Nodup := by
  unfold heldQueue List.Nodup reserveStart resolveHeldReservations listReservationsByOrder
  rw [pairwise_filter, pairwise_map]
  refine ((pairwise_target w).filter _).imp fun {r r'} h hm hm' he => ?_
  exact h _ (resolveHeld_of_matches hm).1 (by rw [he]; exact (resolveHeld_of_matches hm').1)

/-- **同じ queue の予約のうち、外されずに残るのは、前から pickup の数だけ。** -/
theorem heldQueue_kept (step : ResolvedStep) : (heldQueue (reserveStart w order).held step).filter
        (fun hb => !released (firstLoop w order steps).held hb.binID) =
      (heldQueue (reserveStart w order).held step).take
        (needCount step (complexPickups steps)) := by
  have hend : heldQueue (firstLoop w order steps).held step = _ :=
    heldQueue_reserveNeeds order step (complexPickups steps) (reserveStart w order)
  have hnodup := heldQueue_nodup w order step
  generalize hn : needCount step (complexPickups steps) = n at hend ⊢
  generalize hQ : heldQueue (reserveStart w order).held step = Q at hend hnodup ⊢
  conv_lhs => rw [← take_append_drop n Q, filter_append]
  rw [filter_eq_self.mpr, filter_eq_nil_iff.mpr, append_nil]
  · -- 使われずに残った予約は外される
    rintro hb hb'
    rw [← hend] at hb'
    obtain ⟨hmem, hm⟩ := mem_filter.mp hb'
    obtain ⟨hu, hs, -⟩ := heldMatches_iff.mp hm
    simpa using released_iff.mpr ⟨hb, hmem, hu, hs, rfl⟩
  · -- 使った予約を外すなら、同じ row の予約が使われずに残っている
    rintro hb hbt
    simp only [Bool.not_eq_true']
    by_contra hrel
    rw [Bool.not_eq_false] at hrel
    have hbQ : hb ∈ Q := mem_of_mem_take hbt
    rw [← hQ] at hbQ
    obtain ⟨hmem, hm⟩ := mem_filter.mp hbQ
    obtain ⟨r, hr, -, rfl⟩ := mem_reserveStart_held hmem
    obtain ⟨ht, hz⟩ := resolveHeld_of_matches hm
    obtain ⟨r', hr', ht', hmem'⟩ := released_firstLoop hz hrel
    obtain rfl := eq_of_target hr hr' ht ht'
    have hdrop : resolveHeld w r ∈ Q.drop n := by
      rw [← hend]
      exact mem_filter.mpr ⟨hmem', hm⟩
    exact disjoint_take_drop hnodup (Nat.le_refl n) hbt hdrop

theorem released_handedOut (hx : x ∈ handedOut w order steps) :
    released (firstLoop w order steps).held x.2.id = false := by
  obtain ⟨-, taken, -, -, hoff⟩ := mem_handOuts hx
  obtain ⟨hbin, -, hres, -⟩ := offered_spec hoff
  by_contra hrel
  rw [Bool.not_eq_false] at hrel
  obtain ⟨r, hr, ht, -⟩ := released_firstLoop (w.binIDsPos x.2 hbin) hrel
  exact hres (mem_reservedBins_iff.mpr ⟨r, hr, ht⟩)

theorem listReservationsByOrder_first :
    (reserveComplexPlan w order steps).plant.listReservationsByOrder order.id =
      ((w.listReservationsByOrder order.id).filter
        fun r => !r.target.binID?.any (released (firstLoop w order steps).held)) ++
      (handedOut w order steps).map fun x => ⟨order.id, .bin x.2.id, .pending⟩ := by
  have hloop : (firstLoop w order steps).plant.listReservationsByOrder order.id =
      w.listReservationsByOrder order.id ++
        (handedOut w order steps).map fun x => ⟨order.id, .bin x.2.id, .pending⟩ := by
    unfold listReservationsByOrder
    rw [(firstLoop_took w order steps).reservations, filter_append, map_map]
    congr 1
    refine filter_eq_self.mpr ?_
    rintro r hr
    obtain ⟨x, -, rfl⟩ := mem_map.mp hr
    simp
  show (((firstLoop w order steps).held.foldl (releaseStray order.id)
    (firstLoop w order steps).plant).listReservationsByOrder order.id) = _
  rw [listReservationsByOrder_release, hloop, filter_append]
  congr 1
  refine filter_eq_self.mpr ?_
  rintro r hr
  obtain ⟨x, hx, rfl⟩ := mem_map.mp hr
  show (!released (firstLoop w order steps).held x.2.id) = true
  rw [released_handedOut hx]
  rfl

def handedHeld (w : Plant) (x : PickupNeed × BinRow) : HeldReservation :=
  resolveHeldBin w x.2.id false

/-- **二度目の queue は、一度目に使った予約の後ろに、配った bin を足したもの。** -/
theorem heldQueue_second (step : ResolvedStep) :
    heldQueue (reserveStart (reserveComplexPlan w order steps).plant order).held step =
      (heldQueue (reserveStart w order).held step).take (needCount step (complexPickups steps)) ++
      ((handedOut w order steps).map (handedHeld w)).filter (heldMatches step) := by
  have hheld : (reserveStart (reserveComplexPlan w order steps).plant order).held =
      ((w.listReservationsByOrder order.id).filter fun r =>
        !r.target.binID?.any (released (firstLoop w order steps).held)).map (resolveHeld w) ++
      (handedOut w order steps).map (handedHeld w) := by
    show (((reserveComplexPlan w order steps).plant.listReservationsByOrder order.id).map
      (resolveHeld (reserveComplexPlan w order steps).plant)) = _
    rw [resolveHeld_congr (sameSite_first w order steps), listReservationsByOrder_first,
      map_append, map_map]
    rfl
  rw [← heldQueue_kept step]
  unfold heldQueue
  rw [hheld, filter_append]
  congr 1
  show _ = (((w.listReservationsByOrder order.id).map (resolveHeld w)).filter _).filter _
  rw [filter_filter, filter_map, filter_map, filter_filter]
  congr 1
  refine filter_congr fun r _ => ?_
  show (heldMatches step (resolveHeld w r) && _) = (_ && heldMatches step (resolveHeld w r))
  cases hm : heldMatches step (resolveHeld w r) with
  | false => simp
  | true =>
    have ht := (resolveHeld_of_matches hm).1
    rw [Bool.true_and, Bool.and_true, ht]
    rfl

end SecondCall

/-! ## 二つのループを並べて回す -/

def Recognised (pk : PickupNeed) (b : BinRow) : Prop :=
  pk.step.node ≠ "" ∧ '.' ∉ pk.step.node.toList ∧ (b.payloadCode = "" ↔ pk.step.empty = true)

/-- **配った bin が手持ちの照合に当たるのは、`Recognised` のときに限る。** -/
theorem heldMatches_iff_recognised {b : BinRow} (hoff : offered w order taken pk.step = some b)
    (confirmed : Bool) :
    heldMatches pk.step (resolveHeldBin w b.id confirmed) = true ↔ Recognised pk b := by
  obtain ⟨hbin, ⟨node, hnode, hat⟩, -, -⟩ := offered_spec hoff
  obtain ⟨hmem, hname⟩ := getNodeByDotName_spec hnode
  have hheld : resolveHeldBin w b.id confirmed =
      { binID := b.id, nodeID := node.id, nodeName := node.name, empty := b.payloadCode == "",
        confirmed } := by
    simp only [resolveHeldBin, getBin_of_mem hbin, hat, nodeNameOf, getNode_of_mem hmem]
  have hempty : (b.payloadCode == "") = pk.step.empty ↔
      (b.payloadCode = "" ↔ pk.step.empty = true) := by
    rw [Bool.eq_iff_iff, beq_iff_eq]
  rw [heldMatches_iff, hheld]
  unfold Recognised
  rw [← hname, ← hempty]
  constructor
  · rintro ⟨-, -, hne, heq, hempty⟩
    exact ⟨heq ▸ hne, heq, hempty⟩
  · rintro ⟨hne, heq, hempty⟩
    exact ⟨rfl, rfl, heq.symm ▸ hne, heq, hempty⟩

theorem reserveNeed_assigned_of_match {st : ReserveLoop}
    (hm : matchHeldToNeed st.held pk.step = some hb) : (reserveNeed order st pk).assigned =
      st.assigned ++ [⟨pk.stepIndex, pk.step.node, hb.binID, hb.confirmed⟩] := by
  unfold reserveNeed
  rw [hm]
  rfl

theorem heldQueue_eq_nil_of_none {s : ResolvedStep} (hm : matchHeldToNeed held s = none)
    (hk : SameKey step s) : heldQueue held step = [] := by
  rw [matchHeldToNeed_eq_head?, List.head?_eq_none_iff] at hm
  rw [heldQueue_congr hk, hm]

/--
二度目のループの queue が、一度目の queue のこれから使う分に、これから配る bin を足した
ものである間、一度目の割り当ては二度目でも割り当てられる。終わりには queue は空になる。
-/
theorem reserve_lockstep {needs : List PickupNeed} {st₁ st₂ : ReserveLoop}
    (h : Took w order.id taken st₁.plant) (hneeds : ∀ pk ∈ needs, pk.step.action = .pickup)
    (hrec : ∀ x ∈ handOuts w order taken (uncovered st₁.held needs),
      heldMatches x.1.step (handedHeld w x) = true) (hq : ∀ step, heldQueue st₂.held step =
      (heldQueue st₁.held step).take (needCount step needs) ++
      ((handOuts w order taken (uncovered st₁.held needs)).map (handedHeld w)).filter
        (heldMatches step)) (hsub : st₁.assigned ⊆ st₂.assigned) :
    (reserveNeeds order st₁ needs).assigned ⊆ (reserveNeeds order st₂ needs).assigned ∧
    ∀ step, heldQueue (reserveNeeds order st₂ needs).held step = [] := by
  induction needs generalizing taken st₁ st₂ with
  | nil => exact ⟨hsub, fun step => (hq step).trans (by simp [needCount, uncovered, handOuts])⟩
  | cons pk rest ih =>
    have hrefl : SameKey pk.step pk.step := ⟨rfl, rfl⟩
    have hrest : ∀ pk' ∈ rest, pk'.step.action = .pickup :=
      fun pk' hpk' => hneeds pk' (mem_cons_of_mem pk hpk')
    have hq₂ := hq pk.step
    cases reserveNeed_cases h pk with
    | kept hb hm held assigned took =>
      obtain ⟨q, hq₁⟩ : ∃ q, heldQueue st₁.held pk.step = hb :: q := by
        rw [matchHeldToNeed_eq_head?, List.head?_eq_some_iff] at hm
        exact hm
      have hm₂ : matchHeldToNeed st₂.held pk.step = some hb := by
        rw [matchHeldToNeed_eq_head?, hq₂, hq₁, needCount_cons_self hrefl]
        rfl
      rw [uncovered_kept hm, ← held] at hrec hq
      refine ih took hrest hrec (fun step => ?_) ?_
      · rw [reserveNeed_held, held]
        by_cases hk : SameKey step pk.step
        · rw [heldQueue_useHeld_self hk, heldQueue_useHeld_self hk, hq step, held,
            needCount_cons_self hk, heldQueue_congr hk, hq₁]
          rfl
        · rw [heldQueue_useHeld_other hk, heldQueue_useHeld_other hk, hq step, held,
            needCount_cons_other hk]
      · rw [assigned, reserveNeed_assigned_of_match hm₂]
        exact append_subset.mpr
          ⟨subset_append_of_subset_left _ hsub, subset_append_right _ _⟩
    | acquired b hm hb held assigned took =>
      rw [uncovered_none hm, handOuts_some hb] at hrec hq hq₂
      have hmatch : heldMatches pk.step (handedHeld w (pk, b)) = true :=
        hrec (pk, b) mem_cons_self
      have hm₂ : matchHeldToNeed st₂.held pk.step = some (handedHeld w (pk, b)) := by
        rw [matchHeldToNeed_eq_head?, hq₂, heldQueue_eq_nil_of_none hm hrefl, take_nil,
          map_cons, filter_cons_of_pos hmatch]
        rfl
      refine ih took hrest (fun x hx => hrec x ?_) (fun step => ?_) ?_
      · rw [← held]
        exact mem_cons_of_mem (pk, b) hx
      · rw [reserveNeed_held, held]
        by_cases hk : SameKey step pk.step
        · rw [heldQueue_useHeld_self hk, hq step, heldQueue_eq_nil_of_none hm hk, take_nil,
            take_nil, map_cons,
            filter_cons_of_pos (by rw [heldMatches_congr hk]; exact hmatch)]
          rfl
        · rw [heldQueue_useHeld_other hk, hq step, needCount_cons_other hk, map_cons,
            filter_cons_of_neg (fun hs => hk (sameKey_of_heldMatches hs hmatch))]
      · obtain ⟨hid, hconf, -, -⟩ := resolveHeldBin_fields w b.id false
        rw [assigned, reserveNeed_assigned_of_match hm₂]
        unfold handedHeld
        rw [hid, hconf]
        exact append_subset.mpr
          ⟨subset_append_of_subset_left _ hsub, subset_append_right _ _⟩
    | missed hm hb held assigned took =>
      rw [uncovered_none hm, handOuts_none hb, ← held] at hrec hq
      -- 同じ予約を欲しがる pickup にはもう配られないので、二度目の queue も空
      have hnone : ((handOuts w order taken (uncovered (reserveNeed order st₁ pk).held rest)).map
          (handedHeld w)).filter (heldMatches pk.step) = [] := by
        rw [filter_eq_nil_iff]
        rintro hb' hb'mem hb'match
        obtain ⟨x, hx, rfl⟩ := mem_map.mp hb'mem
        have hxneeds : ∀ pk' ∈ uncovered (reserveNeed order st₁ pk).held rest,
            pk'.step.action = .pickup := fun pk' hpk' => hrest pk' (mem_of_mem_uncovered hpk')
        exact not_sameKey_of_missed hb (hneeds pk mem_cons_self) hxneeds hx
          (sameKey_of_heldMatches hb'match (hrec x hx))
      refine ih took hrest hrec (fun step => ?_) ?_
      · rw [reserveNeed_held]
        by_cases hk : SameKey step pk.step
        · have hnil : heldQueue (reserveNeed order st₁ pk).held step = [] := by
            rw [held]
            exact heldQueue_eq_nil_of_none hm hk
          rw [heldQueue_useHeld_self hk, hq step, hnil, take_nil, take_nil,
            heldMatches_congr hk, hnone]
          rfl
        · rw [heldQueue_useHeld_other hk, hq step, needCount_cons_other hk]
      · rw [assigned]
        exact List.Subset.trans hsub (assigned_subset_reserveNeeds [pk])

/-! ## 行程の pickup の番号 -/

theorem mem_complexPickupsFrom {steps : List ResolvedStep}
    (h : pk ∈ complexPickupsFrom i dropped steps) :
    i ≤ pk.stepIndex ∧ pk.step.action = .pickup := by
  induction steps generalizing i dropped with
  | nil => cases h
  | cons s rest ih =>
    unfold complexPickupsFrom at h
    cases ha : s.action with rw [ha] at h
    | pickup =>
      rcases mem_cons.mp h with rfl | h
      · exact ⟨Nat.le_refl i, ha⟩
      · exact ⟨Nat.le_of_succ_le (ih h).1, (ih h).2⟩
    | dropoff =>
      exact ⟨Nat.le_of_succ_le (ih h).1, (ih h).2⟩
    | wait =>
      exact ⟨Nat.le_of_succ_le (ih h).1, (ih h).2⟩

theorem eq_of_stepIndex_eq {steps : List ResolvedStep} {pk' : PickupNeed}
    (h : pk ∈ complexPickupsFrom i dropped steps) (h' : pk' ∈ complexPickupsFrom i dropped steps)
    (he : pk.stepIndex = pk'.stepIndex) : pk = pk' := by
  induction steps generalizing i dropped with
  | nil => cases h
  | cons s rest ih =>
    unfold complexPickupsFrom at h h'
    cases ha : s.action with
    | pickup =>
      rw [ha] at h h'
      rcases mem_cons.mp h with rfl | h <;> rcases mem_cons.mp h' with rfl | h'
      · rfl
      · exact absurd (mem_complexPickupsFrom h').1 (by rw [← he]; exact Nat.not_succ_le_self i)
      · exact absurd (mem_complexPickupsFrom h).1 (by rw [he]; exact Nat.not_succ_le_self i)
      · exact ih h h'
    | dropoff | wait => rw [ha] at h h'; exact ih h h'

/-! ## 予約の保存 -/

/--
一度目の呼び出しが割り当てて予約した bin は、二度目も同じ pickup に割り当てられ、
予約の row も claim もそのまま残る。
-/
def ReservationStable (w : Plant) (order : Order) (steps : List ResolvedStep) : Prop :=
  let first := reserveComplexPlan w order steps
  let second := reserveComplexPlan first.plant order steps
  ∀ r ∈ first.assigned, ∀ row ∈ first.plant.reservations,
    row.orderID = order.id → row.target = .bin r.binID →
      r ∈ second.assigned ∧ row ∈ second.plant.reservations ∧
      (second.plant.getBin r.binID).map BinRow.claimedBy =
        (first.plant.getBin r.binID).map BinRow.claimedBy

section Stability

variable {w : Plant} {order : Order} {steps : List ResolvedStep}

theorem mem_reservations_of_mem_list {o : Nat} {row : Reservation}
    (h : row ∈ w.listReservationsByOrder o) : row ∈ w.reservations :=
  mem_of_mem_filter h

theorem resolveHeld_eq_of_target (ht : r.target = .bin binID) :
    resolveHeld w r = resolveHeldBin w binID (r.state == .confirmed) := by
  unfold resolveHeld
  rw [ht]

theorem assigned_matches (hrec : ∀ x ∈ handedOut w order steps, Recognised x.1 x.2)
    {r : ReservedPickup} (hr : r ∈ (reserveComplexPlan w order steps).assigned) :
    ∃ step c, heldMatches step (resolveHeldBin w r.binID c) = true := by
  rcases mem_assigned_reserveNeeds (Took.refl w order.id) hr with hr | ⟨pk, -, hb, hmem, hm, rfl⟩ |
    ⟨x, hx, rfl⟩
  · cases hr
  · obtain ⟨row, -, -, rfl⟩ := mem_reserveStart_held hmem
    have ht := (resolveHeld_of_matches hm).1
    refine ⟨pk.step, row.state == .confirmed, ?_⟩
    rw [← resolveHeld_eq_of_target ht]
    exact hm
  · obtain ⟨-, taken, -, -, hoff⟩ := mem_handOuts hx
    exact ⟨x.1.step, false, (heldMatches_iff_recognised hoff false).mpr (hrec x hx)⟩

theorem released_second (hempty : ∀ step, heldQueue (firstLoop
      (reserveComplexPlan w order steps).plant order steps).held step = [])
    (hm : heldMatches step (resolveHeldBin w binID c) = true) :
    released (firstLoop (reserveComplexPlan w order steps).plant order steps).held binID =
      false := by
  by_contra hrel
  rw [Bool.not_eq_false] at hrel
  obtain ⟨row, -, ht, hheld⟩ := released_firstLoop (binID_ne_zero_of_matches hm) hrel
  have hmatch : heldMatches step (resolveHeld (reserveComplexPlan w order steps).plant row) =
      true := by
    rw [resolveHeld_congr (sameSite_first w order steps), resolveHeld_eq_of_target ht,
      heldMatches_resolveHeldBin_congr _ c]
    exact hm
  have hmem := mem_filter.mpr ⟨hheld, hmatch⟩
  exact absurd hmem (by rw [show List.filter _ _ = [] from hempty step]; exact not_mem_nil)

theorem stable_of_recognised (hrec : ∀ x ∈ handedOut w order steps, Recognised x.1 x.2) :
    ReservationStable w order steps := by
  rintro r hr row hrow ho ht
  have hmatch : ∀ x ∈ handedOut w order steps,
      heldMatches x.1.step (handedHeld w x) = true := by
    rintro x hx
    obtain ⟨-, taken, -, -, hoff⟩ := mem_handOuts hx
    exact (heldMatches_iff_recognised hoff false).mpr (hrec x hx)
  obtain ⟨hassigned, hempty⟩ : (firstLoop w order steps).assigned ⊆
      (firstLoop (reserveComplexPlan w order steps).plant order steps).assigned ∧
      ∀ step, heldQueue
        (firstLoop (reserveComplexPlan w order steps).plant order steps).held step = [] :=
    reserve_lockstep (Took.refl w order.id) (fun pk hpk => (mem_complexPickupsFrom hpk).2) hmatch
      heldQueue_second (List.Subset.refl _)
  obtain ⟨step, c, hstep⟩ := assigned_matches hrec hr
  have hkept := released_second hempty hstep
  have htook := firstLoop_took (reserveComplexPlan w order steps).plant order steps
  refine ⟨hassigned hr, ?_, ?_⟩
  · refine mem_reservations_of_mem_list (o := order.id) ?_
    show row ∈ ((firstLoop _ order steps).held.foldl (releaseStray order.id)
      (firstLoop _ order steps).plant).listReservationsByOrder order.id
    rw [listReservationsByOrder_release]
    refine mem_filter.mpr ⟨?_, ?_⟩
    · refine mem_filter.mpr ⟨?_, by simpa using ho⟩
      rw [htook.reservations]
      exact mem_append_left _ hrow
    · rw [ht]
      show (!released _ r.binID) = true
      rw [hkept]
      rfl
  · show Option.map _ (((firstLoop _ order steps).held.foldl (releaseStray order.id)
      (firstLoop _ order steps).plant).getBin r.binID) = _
    rw [getBin_release hkept]
    unfold getBin
    rw [htook.bins]

theorem recognised_of_stable (hstable : ReservationStable w order steps)
    (hx : x ∈ handedOut w order steps) : Recognised x.1 x.2 := by
  obtain ⟨hneed, taken, -, -, hoff⟩ := mem_handOuts hx
  have hfirst : handOutPickup x ∈ (reserveComplexPlan w order steps).assigned :=
    handOutPickup_mem_assigned (Took.refl w order.id) hx
  have hrow : (⟨order.id, .bin x.2.id, .pending⟩ : Reservation) ∈
      (reserveComplexPlan w order steps).plant.reservations := by
    refine mem_reservations_of_mem_list (o := order.id) ?_
    rw [listReservationsByOrder_first]
    exact mem_append_right _ (mem_map.mpr ⟨x, hx, rfl⟩)
  obtain ⟨hsecond, -, -⟩ := hstable _ hfirst _ hrow rfl rfl
  rcases mem_assigned_reserveNeeds (Took.refl _ order.id) hsecond with hr |
    ⟨pk, hpk, hb, hmem, hm, he⟩ | ⟨y, hy, he⟩
  · cases hr
  · -- 手持ちとして当たったなら、その bin を見分けている
    obtain ⟨hidx, -, hid, -⟩ := (ReservedPickup.mk.injEq ..).mp he
    obtain rfl := eq_of_stepIndex_eq (mem_of_mem_uncovered hneed) hpk hidx
    obtain ⟨row, -, -, rfl⟩ := mem_reserveStart_held hmem
    have ht := (resolveHeld_of_matches hm).1
    rw [← hid] at ht
    rw [resolveHeld_congr (sameSite_first w order steps), resolveHeld_eq_of_target ht] at hm
    exact (heldMatches_iff_recognised hoff _).mp hm
  · -- 新しく配ることはない。一度目の row が残っている
    obtain ⟨-, -, hid, -⟩ := (ReservedPickup.mk.injEq ..).mp he
    obtain ⟨-, taken', -, -, hoff'⟩ := mem_handOuts hy
    refine absurd (mem_reservedBins_iff.mpr ⟨_, hrow, ?_⟩) (offered_spec hoff').2.2.1
    rw [← hid]

end Stability

/--
**予約が次の周期まで保たれるのは、一度目に新しく配る bin がどれも、点の無い名前の node に在り、
空かどうかが pickup の求めと合っているとき、かつそのときに限る。**
-/
theorem reserve_stable_iff (w : Plant) (order : Order) (steps : List ResolvedStep) :
    ReservationStable w order steps ↔ ∀ x ∈ handedOut w order steps, Recognised x.1 x.2 := by
  constructor
  · rintro hstable x hx
    exact recognised_of_stable hstable hx
  · exact stable_of_recognised

/-! ### 空の bin が残った line からの取り出し -/

def evacPlant : Plant where
  nodes := [{ id := 1, name := "PLN_001" }, { id := 2, name := "SUP_001" }]
  bins := [{ id := 7, nodeID := some 1 }]
  reservations := []
  nodeIDs := by decide
  binIDs := by decide
  binIDsPos := by decide
  binReserved := by decide

def evacOrder : Order :=
  { id := 50, status := .sourcing, processNode := "PLN_001", payloadCode := "P1" }

def evacSteps : List ResolvedStep :=
  [{ action := .pickup, node := "PLN_001" }, { action := .dropoff, node := "OUT_001" },
   { action := .pickup, node := "SUP_001" }, { action := .dropoff, node := "PLN_001" }]

/-- 一度目は line の空の bin を予約して待つ。二度目はそれを見分けられず、予約を外す。 -/
theorem reserve_drops_empty_line_bin :
    (reserveComplexPlan evacPlant evacOrder evacSteps).assigned = [⟨0, "PLN_001", 7, false⟩] ∧
    (reserveComplexPlan evacPlant evacOrder evacSteps).outcome = .reserveHolding ∧
    (reserveComplexPlan evacPlant evacOrder evacSteps).plant.reservations =
      [⟨50, .bin 7, .pending⟩] ∧
    (reserveComplexPlan (reserveComplexPlan evacPlant evacOrder evacSteps).plant evacOrder
      evacSteps).assigned = [] ∧
    (reserveComplexPlan (reserveComplexPlan evacPlant evacOrder evacSteps).plant evacOrder
      evacSteps).plant.reservations = [] ∧
    ¬ ReservationStable evacPlant evacOrder evacSteps := by
  have hfirst : (reserveComplexPlan evacPlant evacOrder evacSteps).assigned =
      [⟨0, "PLN_001", 7, false⟩] := by decide
  have hrows : (reserveComplexPlan evacPlant evacOrder evacSteps).plant.reservations =
      [⟨50, .bin 7, .pending⟩] := by decide
  have hsecond : (reserveComplexPlan (reserveComplexPlan evacPlant evacOrder evacSteps).plant
      evacOrder evacSteps).assigned = [] := by decide
  refine ⟨hfirst, by decide, hrows, hsecond, by decide, ?_⟩
  intro hstable
  have hkept := (hstable ⟨0, "PLN_001", 7, false⟩ (by rw [hfirst]; exact mem_cons_self)
    ⟨50, .bin 7, .pending⟩ (by rw [hrows]; exact mem_cons_self) rfl rfl).1
  cases hkept

end Shingo.Dispatch
