import Mathlib.Data.List.TakeWhile
import Shingo.Dispatch.Allocator

/-!
# `reserveComplexPlan` の一周ごとの仕様

pickup のループを、表の書き込みから切り離して述べる。

手持ちの予約は、同じ node・同じ空きを求める pickup の queue（`heldQueue`）として読む。
一周は、queue の先頭を取るか、空なら、呼び出しの前の表からまだ配っていない bin を一つ受け取る
（`offered`）か、何も取れないかである（`reserveNeed_cases`）。

呼び出しの間に配った bin の列を `taken` と書く。ループの途中の表は、
初めの表に `taken` の pending の row を足したもの（`Took`）。
-/

namespace Shingo.Core.Plant

open Infra List

variable {b : BinRow} {n : NodeRow}

theorem getBin_of_mem {w : Plant} (hb : b ∈ w.bins) : w.getBin b.id = some b :=
  find?_of_nodup_map w.binIDs hb

theorem getNode_of_mem {w : Plant} (hn : n ∈ w.nodes) : w.getNode n.id = some n :=
  find?_of_nodup_map w.nodeIDs hn

theorem getBin_zero (w : Plant) : w.getBin 0 = none :=
  List.find?_eq_none.mpr fun b hb => by simpa using w.binIDsPos b hb

theorem mem_listBinsByNode {w : Plant} {nodeID : Nat} (hb : b ∈ w.listBinsByNode nodeID) :
    b ∈ w.bins ∧ b.nodeID = some nodeID := by
  unfold listBinsByNode at hb
  rw [mem_insertionSort, mem_filter] at hb
  obtain ⟨hmem, hcond⟩ := hb
  simp only [Bool.and_eq_true, beq_iff_eq] at hcond
  exact ⟨hmem, hcond.1⟩

theorem dropWhile_eq_nil_iff_not_mem (name : List Char) :
    name.dropWhile (· != '.') = [] ↔ '.' ∉ name := by
  rw [dropWhile_eq_nil_iff]
  constructor
  · rintro h hmem
    simpa using h '.' hmem
  · rintro h c hc
    simp only [bne_iff_ne, ne_eq]
    rintro rfl
    exact h hc

/-- **引いた node の名前が求めた名前そのものであるのは、点を含まないときに限る。** -/
theorem getNodeByDotName_spec {w : Plant} {name : String} (h : w.getNodeByDotName name = some n) :
    n ∈ w.nodes ∧ (n.name = name ↔ '.' ∉ name.toList) := by
  unfold getNodeByDotName at h
  rw [← dropWhile_eq_nil_iff_not_mem]
  split at h
  · rename_i hs
    have hname : n.name = name := by simpa using List.find?_some h
    exact ⟨mem_of_find?_eq_some h, iff_of_true hname hs⟩
  · rename_i c child hs
    refine ⟨mem_of_find?_eq_some h, iff_of_false ?_ (by simp [hs])⟩
    have hp := List.find?_some h
    rw [Bool.and_eq_true, beq_iff_eq] at hp
    -- 点の後ろは元の名前より短い
    have hl := (dropWhile_suffix (· != '.') (l := name.toList)).length_le
    rw [hs, length_cons] at hl
    intro he
    rw [← he, hp.1, String.toList_ofList] at hl
    omega

end Shingo.Core.Plant

namespace Shingo.Dispatch

open Core Infra List

/-! ## 手持ちの queue -/

def SameKey (s t : ResolvedStep) : Prop := s.node = t.node ∧ s.empty = t.empty
  deriving Decidable

def heldQueue (held : List HeldReservation) (step : ResolvedStep) : List HeldReservation :=
  held.filter (heldMatches step)

variable {hb : HeldReservation}

theorem heldMatches_iff {step : ResolvedStep} :
    heldMatches step hb = true ↔ hb.used = false ∧ hb.slot = false ∧ hb.nodeName ≠ "" ∧
      hb.nodeName = step.node ∧ hb.empty = step.empty := by
  simp [heldMatches, and_assoc]

variable {s t : ResolvedStep}

theorem heldMatches_congr (h : SameKey s t) : heldMatches s = heldMatches t := by
  funext hb
  unfold heldMatches
  rw [h.1, h.2]

theorem heldQueue_congr (h : SameKey s t) (held : List HeldReservation) :
    heldQueue held s = heldQueue held t := by
  unfold heldQueue
  rw [heldMatches_congr h]

theorem sameKey_of_heldMatches
    (hs : heldMatches s hb = true) (ht : heldMatches t hb = true) : SameKey s t := by
  obtain ⟨-, -, -, hsn, hse⟩ := heldMatches_iff.mp hs
  obtain ⟨-, -, -, htn, hte⟩ := heldMatches_iff.mp ht
  exact ⟨hsn.symm.trans htn, hse.symm.trans hte⟩

theorem matchHeldToNeed_eq_head? (held : List HeldReservation) (step : ResolvedStep) :
    matchHeldToNeed held step = (heldQueue held step).head? :=
  List.head?_filter.symm

theorem heldQueue_useHeld_self (h : SameKey s t)
    (held : List HeldReservation) : heldQueue (useHeld t held) s = (heldQueue held s).tail := by
  rw [heldQueue_congr h, heldQueue_congr h]
  exact filter_modifyFirst_self (fun hb _ => by simp [heldMatches]) held

theorem heldQueue_useHeld_other (h : ¬ SameKey s t)
    (held : List HeldReservation) : heldQueue (useHeld t held) s = heldQueue held s := by
  refine filter_modifyFirst_other (fun hb hm => ⟨?_, by simp [heldMatches]⟩) held
  rw [← Bool.not_eq_true]
  exact fun hs => h (sameKey_of_heldMatches hs hm)

theorem mem_of_mem_useHeld {step : ResolvedStep} {held : List HeldReservation}
    (hm : hb ∈ useHeld step held) (hu : hb.used = false) : hb ∈ held := by
  rcases mem_modifyFirst hm with hm | ⟨c, -, -, rfl⟩
  · exact hm
  · cases hu

/-! ## 配った bin -/

/-- `v` は、`w` で bin の列 `taken` を `orderID` のために予約した表。 -/
structure Took (w : Plant) (orderID : Nat) (taken : List Nat) (v : Plant) : Prop where
  nodes : v.nodes = w.nodes
  bins : v.bins = w.bins
  reservations : v.reservations = w.reservations ++ taken.map (⟨orderID, .bin ·, .pending⟩)

variable {binID orderID : Nat} {v : Plant}

namespace Took

variable {w : Plant} {taken : List Nat}

theorem refl (w : Plant) (orderID : Nat) : Took w orderID [] w := ⟨rfl, rfl, by simp⟩

section

variable (h : Took w orderID taken v)
include h

theorem mem_reservedBins :
    binID ∈ reservedBins v.reservations ↔ binID ∈ reservedBins w.reservations ∨ binID ∈ taken := by
  unfold reservedBins
  rw [h.reservations, filterMap_append, mem_append, filterMap_map]
  simp [ReservationTarget.binID?]

theorem hasPendingReservation (binID : Nat) :
    v.hasPendingReservation binID = (w.hasPendingReservation binID || taken.contains binID) := by
  unfold Plant.hasPendingReservation
  rw [h.reservations, any_append, any_map]
  rw [Bool.eq_iff_iff]
  simp [any_eq_true]

theorem getNodeByDotName (name : String) : v.getNodeByDotName name = w.getNodeByDotName name := by
  unfold Plant.getNodeByDotName Plant.getNodeByName
  rw [h.nodes]

theorem listBinsByNode (nodeID : Nat) : v.listBinsByNode nodeID = w.listBinsByNode nodeID := by
  unfold Plant.listBinsByNode
  rw [h.bins]

theorem binUnavailableReason (b : BinRow) (payloadCode : String) :
    (v.binUnavailableReason b payloadCode).isNone =
      ((w.binUnavailableReason b payloadCode).isNone && !taken.contains b.id) := by
  unfold Plant.binUnavailableReason
  rw [h.hasPendingReservation]
  cases b.claimedBy with
  | some _ => rfl
  | none => cases w.hasPendingReservation b.id <;> cases taken.contains b.id <;> simp

theorem reserve {v' : Plant} (hr : v.reserveForDispatch binID orderID = some v') :
    Took w orderID (taken ++ [binID]) v' := by
  unfold Plant.reserveForDispatch at hr
  split at hr
  · cases hr
  · cases hr
    refine ⟨h.nodes, h.bins, ?_⟩
    show v.reservations ++ _ = _
    rw [h.reservations, map_append, append_assoc]
    rfl

end

end Took

theorem reserveForDispatch_none_iff :
    v.reserveForDispatch binID orderID = none ↔ binID ∈ reservedBins v.reservations := by
  unfold Plant.reserveForDispatch
  split <;> simp_all

/-- 初めの表で pickup の node に在る候補のうち、取れて、まだ配っていない最初の bin。 -/
def firstFree (w : Plant) (order : Order) (taken : List Nat) (step : ResolvedStep) :
    Option BinRow :=
  match w.getNodeByDotName step.node with
  | none => none
  | some node =>
    let (candidates, claimPayload) := needCandidates step order.payloadCode
      (isRemovalPickup step order.processNode) (w.listBinsByNode node.id)
    candidates.find? fun b =>
      (w.binUnavailableReason b claimPayload).isNone && !taken.contains b.id

/-- pickup が受け取る bin。予約の row が残っている bin は、取れそうに見えても受け取れない。 -/
def offered (w : Plant) (order : Order) (taken : List Nat) (step : ResolvedStep) :
    Option BinRow :=
  (firstFree w order taken step).filter fun b => !(reservedBins w.reservations).contains b.id

variable {order : Order} {taken : List Nat}

theorem findAvailableForNeed_took {w : Plant} (h : Took w order.id taken v) (step : ResolvedStep) :
    (findAvailableForNeed v step order.payloadCode (isRemovalPickup step order.processNode)).1 =
      firstFree w order taken step := by
  unfold findAvailableForNeed firstFree
  rw [h.getNodeByDotName]
  cases w.getNodeByDotName step.node with
  | none => rfl
  | some node =>
    simp only [h.listBinsByNode, h.binUnavailableReason]

variable {w : Plant} {step : ResolvedStep}

variable {b : BinRow} {x : PickupNeed × BinRow}

theorem not_mem_taken_of_firstFree (h : firstFree w order taken step = some b) : b.id ∉ taken := by
  unfold firstFree at h
  split at h
  · cases h
  have hp := List.find?_some h
  simp only [Bool.and_eq_true, Bool.not_eq_true', contains_eq_mem, decide_eq_false_iff_not]
    at hp
  exact hp.2

/-- 一周の後の変数 `st'`。三つの場合は `reserveNeed_cases` が尽くす。 -/
inductive NeedStep (w : Plant) (order : Order) (taken : List Nat) (st : ReserveLoop)
    (pk : PickupNeed) (st' : ReserveLoop) : Prop where
  | kept (hb : HeldReservation) (hm : matchHeldToNeed st.held pk.step = some hb)
      (held : st'.held = useHeld pk.step st.held)
      (assigned : st'.assigned =
        st.assigned ++ [⟨pk.stepIndex, pk.step.node, hb.binID, hb.confirmed⟩])
      (took : Took w order.id taken st'.plant)
  | acquired (b : BinRow) (hm : matchHeldToNeed st.held pk.step = none)
      (hb : offered w order taken pk.step = some b) (held : st'.held = st.held)
      (assigned : st'.assigned = st.assigned ++ [⟨pk.stepIndex, pk.step.node, b.id, false⟩])
      (took : Took w order.id (taken ++ [b.id]) st'.plant)
  | missed (hm : matchHeldToNeed st.held pk.step = none)
      (hb : offered w order taken pk.step = none) (held : st'.held = st.held)
      (assigned : st'.assigned = st.assigned) (took : Took w order.id taken st'.plant)

variable {st : ReserveLoop}

/-- **pickup 一つの周回は、`NeedStep` の三つの場合のどれか。** -/
theorem reserveNeed_cases (h : Took w order.id taken st.plant) (pk : PickupNeed) :
    NeedStep w order taken st pk (reserveNeed order st pk) := by
  unfold reserveNeed
  cases hm : matchHeldToNeed st.held pk.step with
  | some hb => exact .kept hb hm rfl rfl h
  | none =>
    have hf := findAvailableForNeed_took h pk.step
    dsimp only
    split
    · rename_i nodeHadBins hfind
      rw [hfind] at hf
      have hoff : offered w order taken pk.step = none := by
        unfold offered
        rw [← hf]
        rfl
      split
      · exact .missed hm hoff rfl rfl h
      · exact .missed hm hoff rfl rfl h
    · rename_i bin nodeHadBins hfind
      rw [hfind] at hf
      have hfree := not_mem_taken_of_firstFree hf.symm
      have hoff : offered w order taken pk.step =
          if bin.id ∈ reservedBins w.reservations then none else some bin := by
        unfold offered
        rw [← hf]
        by_cases hr : bin.id ∈ reservedBins w.reservations <;> simp [Option.filter, hr]
      split
      · rename_i hres
        rw [reserveForDispatch_none_iff, h.mem_reservedBins] at hres
        exact .missed hm (hoff.trans (if_pos (hres.resolve_right hfree))) rfl rfl h
      · rename_i plant hres
        have hnot : bin.id ∉ reservedBins w.reservations := by
          intro hmem
          have hnone : st.plant.reserveForDispatch bin.id order.id = none :=
            reserveForDispatch_none_iff.mpr (h.mem_reservedBins.mpr (.inl hmem))
          rw [hres] at hnone
          cases hnone
        exact .acquired bin hm (hoff.trans (if_neg hnot)) rfl rfl (h.reserve hres)

/-! ## ループ全体 -/

variable {held : List HeldReservation}

theorem useHeld_of_none (h : matchHeldToNeed held step = none) : useHeld step held = held := by
  induction held with
  | nil => rfl
  | cons hb rest ih =>
    unfold matchHeldToNeed at h ih
    rw [List.find?_cons] at h
    split at h
    · cases h
    rename_i hm
    unfold useHeld modifyFirst
    rw [if_neg (by simp [hm])]
    exact congrArg (hb :: ·) (ih h)

theorem reserveNeed_held (order : Order) (st : ReserveLoop) (pk : PickupNeed) :
    (reserveNeed order st pk).held = useHeld pk.step st.held := by
  cases reserveNeed_cases (Took.refl st.plant order.id) pk with
  | kept hb hm held => exact held
  | acquired b hm hb held | missed hm hb held => rw [held, useHeld_of_none hm]

def needCount (step : ResolvedStep) (needs : List PickupNeed) : Nat :=
  needs.countP fun pk => SameKey step pk.step

variable {pk : PickupNeed}

theorem needCount_cons_self (h : SameKey step pk.step)
    (needs : List PickupNeed) : needCount step (pk :: needs) = needCount step needs + 1 :=
  countP_cons_of_pos (by simpa using h)

theorem needCount_cons_other (h : ¬ SameKey step pk.step)
    (needs : List PickupNeed) : needCount step (pk :: needs) = needCount step needs :=
  countP_cons_of_neg (by simpa using h)

/-- **ループの後の queue は、同じ予約を欲しがる pickup の数だけ先頭を失う。** -/
theorem heldQueue_reserveNeeds (order : Order) (step : ResolvedStep) (needs : List PickupNeed)
    (st : ReserveLoop) : heldQueue (reserveNeeds order st needs).held step =
      (heldQueue st.held step).drop (needCount step needs) := by
  induction needs generalizing st with
  | nil => rfl
  | cons pk rest ih =>
    show heldQueue (reserveNeeds order (reserveNeed order st pk) rest).held step = _
    rw [ih, reserveNeed_held]
    by_cases hk : SameKey step pk.step
    · rw [heldQueue_useHeld_self hk, needCount_cons_self hk, drop_tail]
    · rw [heldQueue_useHeld_other hk, needCount_cons_other hk]

variable {needs : List PickupNeed}

theorem mem_held_of_reserveNeeds (hm : hb ∈ (reserveNeeds order st needs).held)
    (hu : hb.used = false) : hb ∈ st.held := by
  induction needs generalizing st with
  | nil => exact hm
  | cons pk rest ih =>
    have h := ih hm
    rw [reserveNeed_held] at h
    exact mem_of_mem_useHeld h hu

def uncovered : List HeldReservation → List PickupNeed → List PickupNeed
  | _, [] => []
  | held, pk :: rest =>
    match matchHeldToNeed held pk.step with
    | some _ => uncovered (useHeld pk.step held) rest
    | none => pk :: uncovered held rest

def handOuts (w : Plant) (order : Order) : List Nat → List PickupNeed → List (PickupNeed × BinRow)
  | _, [] => []
  | taken, pk :: rest =>
    match offered w order taken pk.step with
    | some b => (pk, b) :: handOuts w order (taken ++ [b.id]) rest
    | none => handOuts w order taken rest

theorem uncovered_kept (h : matchHeldToNeed held pk.step = some hb) (rest : List PickupNeed) :
    uncovered held (pk :: rest) = uncovered (useHeld pk.step held) rest := by
  simp only [uncovered, h]

theorem uncovered_none (h : matchHeldToNeed held pk.step = none) (rest : List PickupNeed) :
    uncovered held (pk :: rest) = pk :: uncovered held rest := by
  simp only [uncovered, h]

theorem handOuts_some (h : offered w order taken pk.step = some b) (rest : List PickupNeed) :
    handOuts w order taken (pk :: rest) = (pk, b) :: handOuts w order (taken ++ [b.id]) rest := by
  simp only [handOuts, h]

theorem handOuts_none (h : offered w order taken pk.step = none) (rest : List PickupNeed) :
    handOuts w order taken (pk :: rest) = handOuts w order taken rest := by
  simp only [handOuts, h]

theorem mem_of_mem_uncovered (h : pk ∈ uncovered held needs) : pk ∈ needs := by
  induction needs generalizing held with
  | nil => cases h
  | cons pk' rest ih =>
    unfold uncovered at h
    split at h
    · exact mem_cons_of_mem pk' (ih h)
    rcases mem_cons.mp h with rfl | h
    · exact mem_cons_self
    · exact mem_cons_of_mem pk' (ih h)

theorem mem_handOuts (h : x ∈ handOuts w order taken needs) :
    x.1 ∈ needs ∧ ∃ taken', taken ⊆ taken' ∧ (∀ id ∈ taken', id ∈ taken ∨
      id ∉ reservedBins w.reservations) ∧ offered w order taken' x.1.step = some x.2 := by
  induction needs generalizing taken with
  | nil => cases h
  | cons pk rest ih =>
    unfold handOuts at h
    split at h
    · rename_i b hb
      rcases mem_cons.mp h with rfl | h
      · exact ⟨mem_cons_self, taken, List.Subset.refl taken, fun id hid => .inl hid, hb⟩
      · obtain ⟨hmem, taken', hsub, hfresh, hoff⟩ := ih h
        refine ⟨mem_cons_of_mem pk hmem, taken', fun id hid => hsub (by simp [hid]), ?_, hoff⟩
        rintro id hid
        rcases hfresh id hid with hid | hid
        · rcases mem_append.mp hid with hid | hid
          · exact .inl hid
          · obtain rfl : id = b.id := by simpa using hid
            have := Option.filter_eq_some_iff.mp hb
            exact .inr (by simpa using this.2)
        · exact .inr hid
    · obtain ⟨hmem, htaken⟩ := ih h
      exact ⟨mem_cons_of_mem pk hmem, htaken⟩

/-! ## 受け取る bin -/

theorem mem_needCandidates {payloadCode : String} {removal : Bool} {bins : List BinRow}
    (h : b ∈ (needCandidates step payloadCode removal bins).1) : b ∈ bins := by
  unfold needCandidates at h
  split at h
  · exact h
  split at h
  · exact mem_of_mem_filter h
  · exact h

theorem offered_spec (h : offered w order taken step = some b) :
    b ∈ w.bins ∧ (∃ node, w.getNodeByDotName step.node = some node ∧ b.nodeID = some node.id) ∧
      b.id ∉ reservedBins w.reservations ∧ b.id ∉ taken := by
  obtain ⟨hfree, hres⟩ := Option.filter_eq_some_iff.mp h
  have hnot := not_mem_taken_of_firstFree hfree
  unfold firstFree at hfree
  split at hfree
  · cases hfree
  rename_i node hnode
  obtain ⟨hmem, hat⟩ :=
    Plant.mem_listBinsByNode (mem_needCandidates (mem_of_find?_eq_some hfree))
  exact ⟨hmem, ⟨node, hnode, hat⟩, by simpa using hres, hnot⟩

theorem offered_congr (hk : SameKey s t) (hs : s.action = .pickup) (ht : t.action = .pickup) :
    offered w order taken s = offered w order taken t := by
  unfold offered firstFree needCandidates isRemovalPickup
  rw [hk.1, hk.2, hs, ht]

/-- **受け取れなかった pickup は、他の pickup に配った後でも受け取れない。** -/
theorem offered_none_mono {taken' : List Nat} (h : offered w order taken step = none)
    (hsub : taken ⊆ taken')
    (hfresh : ∀ id ∈ taken', id ∈ taken ∨ id ∉ reservedBins w.reservations) :
    offered w order taken' step = none := by
  unfold offered at h ⊢
  have hnone : firstFree w order taken step = none → firstFree w order taken' step = none := by
    unfold firstFree
    split
    · exact id
    refine find?_none_of_imp fun b hb => ?_
    simp only [Bool.and_eq_true, Bool.not_eq_true', contains_eq_mem,
      decide_eq_false_iff_not] at hb ⊢
    exact ⟨hb.1, fun hmem => hb.2 (hsub hmem)⟩
  cases hfree : firstFree w order taken step with
  | none => rw [hnone hfree]; rfl
  | some b =>
    -- 最初の候補が予約の row と衝突する。衝突する bin は配られないので、最初のまま
    rw [hfree] at h
    have hres : b.id ∈ reservedBins w.reservations := by
      by_contra hc
      simp [Option.filter, hc] at h
    have hnt : b.id ∉ taken' := fun hmem =>
      (hfresh b.id hmem).elim (not_mem_taken_of_firstFree hfree) (fun hc => hc hres)
    have hfree' : firstFree w order taken' step = some b := by
      unfold firstFree at hfree ⊢
      split at hfree
      · cases hfree
      dsimp only
      have hp := List.find?_some hfree
      refine find?_of_imp (fun a ha => ?_) ?_ hfree
      · simp only [Bool.and_eq_true, Bool.not_eq_true', contains_eq_mem,
          decide_eq_false_iff_not] at ha ⊢
        exact ⟨ha.1, fun hmem => ha.2 (hsub hmem)⟩
      · simp only [Bool.and_eq_true, Bool.not_eq_true', contains_eq_mem,
          decide_eq_false_iff_not] at hp ⊢
        exact ⟨hp.1, hnt⟩
    rw [hfree', ← h]

theorem not_sameKey_of_missed (hoff : offered w order taken pk.step = none)
    (hpk : pk.step.action = .pickup) (hneeds : ∀ pk' ∈ needs, pk'.step.action = .pickup)
    (hx : x ∈ handOuts w order taken needs) : ¬ SameKey pk.step x.1.step := by
  intro hk
  obtain ⟨hmem, taken', hsub, hfresh, hb⟩ := mem_handOuts hx
  have hnone := offered_none_mono hoff hsub hfresh
  rw [offered_congr hk hpk (hneeds x.1 hmem), hb] at hnone
  cases hnone

/-! ## ループの後の表と割り当て -/

def handOutPickup (x : PickupNeed × BinRow) : ReservedPickup :=
  { stepIndex := x.1.stepIndex, nodeName := x.1.step.node, binID := x.2.id, confirmed := false }

/-- **ループの後の表は、初めの表に、配った bin の pending の row を足したもの。** -/
theorem took_reserveNeeds (h : Took w order.id taken st.plant) (needs : List PickupNeed) :
    Took w order.id (taken ++ (handOuts w order taken (uncovered st.held needs)).map (·.2.id))
      (reserveNeeds order st needs).plant := by
  induction needs generalizing st taken with
  | nil => simpa [uncovered, handOuts, reserveNeeds] using h
  | cons pk rest ih =>
    cases reserveNeed_cases h pk with
    | kept hb hm held assigned took =>
      rw [uncovered_kept hm, ← held]
      exact ih took
    | acquired b hm hb held assigned took =>
      rw [uncovered_none hm, handOuts_some hb, ← held, map_cons, ← singleton_append,
        ← append_assoc]
      exact ih took
    | missed hm hb held assigned took =>
      rw [uncovered_none hm, handOuts_none hb, ← held]
      exact ih took

/-- **割り当ては、初めからのものか、手持ちの予約に当てたものか、配った bin。** -/
theorem mem_assigned_reserveNeeds (h : Took w order.id taken st.plant)
    {r : ReservedPickup} (hr : r ∈ (reserveNeeds order st needs).assigned) : r ∈ st.assigned ∨
    (∃ pk ∈ needs, ∃ hb ∈ st.held, heldMatches pk.step hb = true ∧
      r = ⟨pk.stepIndex, pk.step.node, hb.binID, hb.confirmed⟩) ∨
    ∃ x ∈ handOuts w order taken (uncovered st.held needs), r = handOutPickup x := by
  induction needs generalizing st taken with
  | nil => exact .inl hr
  | cons pk rest ih =>
    cases reserveNeed_cases h pk with
    | kept hb hm held assigned took =>
      have hmatch := List.find?_some hm
      rcases ih took hr with hr | ⟨pk', hpk', hb', hb'mem, hmatch', rfl⟩ | ⟨x, hx, rfl⟩
      · rw [assigned] at hr
        rcases mem_append.mp hr with hr | hr
        · exact .inl hr
        · exact .inr (.inl ⟨pk, mem_cons_self, hb, mem_of_find?_eq_some hm, hmatch,
            by simpa using hr⟩)
      · rw [held] at hb'mem
        have hu := (heldMatches_iff.mp hmatch').1
        exact .inr (.inl ⟨pk', mem_cons_of_mem pk hpk', hb', mem_of_mem_useHeld hb'mem hu,
          hmatch', rfl⟩)
      · rw [held] at hx
        exact .inr (.inr ⟨x, by rw [uncovered_kept hm]; exact hx, rfl⟩)
    | acquired b hm hb held assigned took =>
      rcases ih took hr with hr | ⟨pk', hpk', hb', hb'mem, hmatch', rfl⟩ | ⟨x, hx, rfl⟩
      · rw [assigned] at hr
        rcases mem_append.mp hr with hr | hr
        · exact .inl hr
        · refine .inr (.inr ⟨(pk, b), ?_, by simpa [handOutPickup] using hr⟩)
          rw [uncovered_none hm, handOuts_some hb]
          exact mem_cons_self
      · rw [held] at hb'mem
        exact .inr (.inl ⟨pk', mem_cons_of_mem pk hpk', hb', hb'mem, hmatch', rfl⟩)
      · rw [held] at hx
        refine .inr (.inr ⟨x, ?_, rfl⟩)
        rw [uncovered_none hm, handOuts_some hb]
        exact mem_cons_of_mem (pk, b) hx
    | missed hm hb held assigned took =>
      rcases ih took hr with hr | ⟨pk', hpk', hb', hb'mem, hmatch', rfl⟩ | ⟨x, hx, rfl⟩
      · exact .inl (by rw [← assigned]; exact hr)
      · rw [held] at hb'mem
        exact .inr (.inl ⟨pk', mem_cons_of_mem pk hpk', hb', hb'mem, hmatch', rfl⟩)
      · rw [held] at hx
        exact .inr (.inr ⟨x, by rw [uncovered_none hm, handOuts_none hb]; exact hx, rfl⟩)

theorem assigned_subset_reserveNeeds (needs : List PickupNeed) :
    st.assigned ⊆ (reserveNeeds order st needs).assigned := by
  induction needs generalizing st with
  | nil => exact List.Subset.refl st.assigned
  | cons pk rest ih =>
    refine List.Subset.trans ?_ ih
    cases reserveNeed_cases (Took.refl st.plant order.id) pk with
    | kept hb hm held assigned
    | acquired b hm hb held assigned => rw [assigned]; exact subset_append_left _ _
    | missed hm hb held assigned => rw [assigned]; exact List.Subset.refl _

theorem handOutPickup_mem_assigned (h : Took w order.id taken st.plant)
    (hx : x ∈ handOuts w order taken (uncovered st.held needs)) :
    handOutPickup x ∈ (reserveNeeds order st needs).assigned := by
  induction needs generalizing st taken with
  | nil => cases hx
  | cons pk rest ih =>
    cases reserveNeed_cases h pk with
    | kept hb hm held assigned took =>
      rw [uncovered_kept hm, ← held] at hx
      exact ih took hx
    | acquired b hm hb held assigned took =>
      rw [uncovered_none hm, handOuts_some hb, ← held] at hx
      rcases mem_cons.mp hx with rfl | hx
      · refine assigned_subset_reserveNeeds rest ?_
        rw [assigned]
        exact mem_append_right _ mem_cons_self
      · exact ih took hx
    | missed hm hb held assigned took =>
      rw [uncovered_none hm, handOuts_none hb, ← held] at hx
      exact ih took hx

end Shingo.Dispatch
