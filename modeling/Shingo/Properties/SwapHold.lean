import Shingo.Dispatch.SwapHold
import Shingo.Infra.Run

/-!
# swap の二つの leg

二つの leg が互いを待たないことと、evac が死んだ後の supply のゆくえ。

門で待たされた supply は `queue_code` が waiting_for_partner になる。次に門に着くと、
bin 待ちでない supply として取り消される。
-/

namespace Shingo.Dispatch

open Infra List SwapTable
open Scanner (isAcquiring)

/-! ## leg の役目 -/

variable {processNode : String} {steps : List ResolvedStep}

theorem exists_pickup_of_takes :
    ∀ {tookBin : Bool}, takesLineBinFrom processNode tookBin steps = true →
      tookBin = true ∨ ∃ s ∈ steps, s.node = processNode ∧ s.action = .pickup := by
  induction steps with
  | nil => exact fun h => .inl h
  | cons s rest ih =>
    intro tookBin h
    unfold takesLineBinFrom at h
    split at h
    · rcases ih h with h | ⟨s', hs', hpickup⟩
      · exact .inl h
      · exact .inr ⟨s', mem_cons_of_mem _ hs', hpickup⟩
    · next hnode =>
      rw [not_not] at hnode
      split at h
      · next haction => exact .inr ⟨s, mem_cons_self, hnode, haction⟩
      · cases h
      rcases ih h with h | ⟨s', hs', hpickup⟩
      · exact .inl h
      · exact .inr ⟨s', mem_cons_of_mem _ hs', hpickup⟩

theorem no_pickup_of_places :
    ∀ {placedBin : Bool}, placesLineBinFrom processNode placedBin steps = true →
      ∀ s ∈ steps, s.node = processNode → s.action ≠ .pickup := by
  induction steps with
  | nil => exact nofun
  | cons s rest ih =>
    intro placedBin h s' hs' hnode'
    unfold placesLineBinFrom at h
    rcases mem_cons.mp hs' with rfl | hs'
    · rw [if_neg (not_not.mpr hnode')] at h
      cases haction : s'.action with
      | pickup => simp [haction] at h
      | dropoff | wait => decide
    · split at h
      · exact ih h s' hs' hnode'
      split at h
      · exact ih h s' hs' hnode'
      · cases h
      · exact ih h s' hs' hnode'

theorem not_takes_of_places (h : legPlacesLineBin steps processNode = true) :
    legTakesLineBin steps processNode = false := by
  unfold legPlacesLineBin at h
  unfold legTakesLineBin
  split at h
  · cases h
  rename_i hne
  rw [if_neg hne]
  by_contra htakes
  rw [Bool.not_eq_false] at htakes
  rcases exists_pickup_of_takes htakes with hfalse | ⟨s, hs, hnode, hpickup⟩
  · cases hfalse
  · exact no_pickup_of_places h s hs hnode hpickup

/-! ## 表の読み -/

namespace SwapTable

variable {t : SwapTable}

variable {o : ComplexOrder} {uuid a b : String} {id : Nat}

theorem mem_of_getOrderByUUID (h : t.getOrderByUUID uuid = some o) :
    o ∈ t.orders ∧ o.edgeUUID = uuid := by
  refine ⟨mem_of_find?_eq_some h, ?_⟩
  simpa using List.find?_some h

theorem id_of_getOrder (h : t.getOrder id = some o) : o.id = id := by
  simpa using List.find?_some h

theorem getOrder_of_mem (h : o ∈ t.orders) : t.getOrder o.id = some o := by
  have hnodup : (t.orders.map (·.id)).Nodup :=
    pairwise_map.mpr (t.newestFirst.imp fun hlt heq => by omega)
  exact find?_of_nodup_map hnodup h

theorem getOrder_of_getOrderByUUID (h : t.getOrderByUUID uuid = some o) :
    t.getOrder o.id = some o :=
  getOrder_of_mem (mem_of_getOrderByUUID h).1

variable (p : ComplexOrder → Bool) (g : ComplexOrder → ComplexOrder)

theorem getOrder_update (id : Nat) :
    (t.update p g).getOrder id =
      (t.getOrder id).map fun o => if p o then o.rewrite g else o := by
  refine find?_updateWhere ?_ t.orders
  intro o
  rfl

theorem getOrderByUUID_update (uuid : String) :
    (t.update p g).getOrderByUUID uuid =
      (t.getOrderByUUID uuid).map fun o => if p o then o.rewrite g else o := by
  refine find?_updateWhere ?_ t.orders
  intro o
  rfl

theorem getOrder_linkSiblings (ho : t.getOrder id = some o) (h : o.edgeUUID = a ∨ o.edgeUUID = b) :
    (t.linkSiblings a b).getOrder id =
      some { o with siblingOrderUUID := if o.edgeUUID = a then b else a } := by
  unfold linkSiblings
  rw [getOrder_update, ho, Option.map_some, if_pos (by simpa using h)]
  rfl

theorem getOrderByUUID_linkSiblings (ho : t.getOrderByUUID uuid = some o)
    (h : uuid = a ∨ uuid = b) :
    (t.linkSiblings a b).getOrderByUUID uuid =
      some { o with siblingOrderUUID := if o.edgeUUID = a then b else a } := by
  rw [← (mem_of_getOrderByUUID ho).2] at h
  unfold linkSiblings
  rw [getOrderByUUID_update, ho, Option.map_some, if_pos (by simpa using h)]
  rfl

end SwapTable

/-! ## 互いを待たない -/

variable {f : HoldFaults} {order : ComplexOrder}

theorem not_secures_of_evac_held {t : SwapTable}
    (htakes : legTakesLineBin steps order.processNode = true)
    (hheld : (swapLegHeld f t order steps).2.isSome = true) :
    legSecuresOwnReplacement steps = false := by
  by_contra hsecures
  unfold swapLegHeld at hheld
  split at hheld
  · cases hheld
  split at hheld
  · cases hheld
  · simp [htakes, hsecures] at hheld

theorem secures_of_filler_held {t : SwapTable} {sib : ComplexOrder}
    (hrow : t.getOrder order.id = some order)
    (hsib : t.getOrderByUUID order.siblingOrderUUID = some sib)
    (halive : swapTerminalKind sib.status = none)
    (hplaces : legPlacesLineBin steps order.processNode = true)
    (hheld : (swapLegHeld f t order steps).2.isSome = true) :
    legSecuresOwnReplacement sib.steps = true := by
  have htakes := not_takes_of_places hplaces
  have huuid : t.orderSiblingUUID order.id = some order.siblingOrderUUID := by
    simp [orderSiblingUUID, hrow]
  have hfiller : (fillerHeld (if f.sib then none else some sib)).isSome = true := by
    unfold swapLegHeld at hheld
    rw [huuid] at hheld
    cases hf : f.sibUUID with
    | true => simp [hf] at hheld
    | false =>
      by_cases hempty : order.siblingOrderUUID = ""
      · simp [hf, hempty] at hheld
      · simpa [hf, hempty, htakes, hplaces, hsib] using hheld
  split at hfiller
  · cases hfiller
  unfold fillerHeld at hfiller
  simp only [halive] at hfiller
  by_contra hnot
  rw [Bool.not_eq_true] at hnot
  cases hread : sib.stepsReadable with
  | true => simp [ComplexOrder.decodeSteps, hread, hnot] at hfiller
  | false => simp [ComplexOrder.decodeSteps, hread] at hfiller

/-- swap の二つの leg が互いを指し、行程を解いた結果で役目が決まる。 -/
structure SwapLegs (t : SwapTable) (evac filler : ComplexOrder)
    (evacSteps fillerSteps : List ResolvedStep) : Prop where
  toFiller : t.getOrderByUUID evac.siblingOrderUUID = some filler
  toEvac : t.getOrderByUUID filler.siblingOrderUUID = some evac
  evacAcquiring : isAcquiring evac.status = true
  evacActions : evacSteps.map (·.action) = evac.steps.map (·.action)
  takes : legTakesLineBin evacSteps evac.processNode = true
  places : legPlacesLineBin fillerSteps filler.processNode = true

theorem swapTerminalKind_of_acquiring {status : OrderStatus} (h : isAcquiring status = true) :
    swapTerminalKind status = none := by
  cases status <;> first | rfl | cases h

theorem legSecuresOwnReplacement_congr {steps' : List ResolvedStep}
    (h : steps.map (·.action) = steps'.map (·.action)) :
    legSecuresOwnReplacement steps = legSecuresOwnReplacement steps' := by
  have hcount : ∀ l : List ResolvedStep,
      l.countP (fun s => decide (s.action = .pickup)) =
        (l.map (·.action)).countP fun a => decide (a = .pickup) := by
    intro l
    rw [countP_map]
    rfl
  unfold legSecuresOwnReplacement
  rw [hcount, hcount, h]

/-- **swap の二つの leg は、同じ状態で両方とも待たされることがない。** -/
theorem swap_legs_not_both_held {t : SwapTable} {evac filler : ComplexOrder}
    {evacSteps fillerSteps : List ResolvedStep} (f f' : HoldFaults)
    (h : SwapLegs t evac filler evacSteps fillerSteps) :
    ¬((swapLegHeld f t evac evacSteps).2.isSome = true ∧
      (swapLegHeld f' t filler fillerSteps).2.isSome = true) := by
  rintro ⟨hevac, hfiller⟩
  have hnot := not_secures_of_evac_held h.takes hevac
  have hsecures := secures_of_filler_held (getOrder_of_getOrderByUUID h.toFiller) h.toEvac
    (swapTerminalKind_of_acquiring h.evacAcquiring) h.places hfiller
  rw [legSecuresOwnReplacement_congr h.evacActions, hsecures] at hnot
  cases hnot

def pressIndexR1 : ComplexOrder where
  id := 1
  status := .sourcing
  processNode := "LINE"
  edgeUUID := "r1"
  siblingOrderUUID := "r2"
  steps := [{ action := .wait, node := "LINE" }, { action := .pickup, node := "LINE" },
    { action := .dropoff, node := "OUT" }, { action := .pickup, node := "IN" },
    { action := .dropoff, node := "B" }]

def pressIndexR2 : ComplexOrder where
  id := 2
  status := .queued
  processNode := "LINE"
  edgeUUID := "r2"
  siblingOrderUUID := "r1"
  steps := [{ action := .wait, node := "B" }, { action := .pickup, node := "B" },
    { action := .dropoff, node := "LINE" }]

def pressIndexTable : SwapTable where
  orders := [pressIndexR2, pressIndexR1]
  newestFirst := by decide

theorem swap_legs_not_both_held_pressIndex :
    (swapLegHeld {} pressIndexTable pressIndexR2 pressIndexR2.steps).2 = some .untilEvacClears ∧
      ¬((swapLegHeld {} pressIndexTable pressIndexR1 pressIndexR1.steps).2.isSome = true ∧
        (swapLegHeld {} pressIndexTable pressIndexR2 pressIndexR2.steps).2.isSome = true) := by
  refine ⟨by decide, swap_legs_not_both_held {} {} ?_⟩
  exact {
    toFiller := by decide
    toEvac := by decide
    evacAcquiring := by decide
    evacActions := rfl
    takes := by decide
    places := by decide }

/-! ## 死んだ evac と残った supply -/

/--
evac の終わった swap の supply。

`su` は supply の、`u` は evac の uuid。evac の row は `st` で終わり、line の bin を持ち去る leg と
読める。逆向きの link は無くてもよい（門が直す）。
-/
structure OutlivesEvac (sid : Nat) (su u : String) (st : OrderStatus) (t : SwapTable) : Prop where
  supply : ∃ s, t.getOrder sid = some s ∧ t.getOrderByUUID su = some s ∧
    s.siblingOrderUUID = u ∧ s.status ≠ .cancelled
  evac : ∃ e, t.getOrderByUUID u = some e ∧ e.id ≠ sid ∧ e.status = st ∧
    e.decodeSteps.any (legTakesLineBin · e.processNode) = true

section Outlives

variable {sid : Nat} {su u : String} {st : OrderStatus} {t t' : SwapTable} {w : Working}

structure Survives (sid : Nat) (su u : String) (st : OrderStatus) (w : Working) : Prop where
  outlives : OutlivesEvac sid su u st w.table
  row : w.table.getOrder sid = some w.order

theorem OutlivesEvac.of_orders (h : OutlivesEvac sid su u st t) (heq : t'.orders = t.orders) :
    OutlivesEvac sid su u st t' := by
  have hget : ∀ id, t'.getOrder id = t.getOrder id := by
    intro id
    unfold getOrder
    rw [heq]
  have huuid : ∀ uuid, t'.getOrderByUUID uuid = t.getOrderByUUID uuid := by
    intro uuid
    unfold getOrderByUUID
    rw [heq]
  obtain ⟨hs, he⟩ := h
  exact ⟨by simpa only [hget, huuid] using hs, by simpa only [huuid] using he⟩

variable {e s : ComplexOrder} {kind : SwapTerminal} {r : Replay}

namespace Survives

variable (h : Survives sid su u st w)
include h

theorem id : w.order.id = sid := id_of_getOrder h.row

theorem supply : w.table.getOrderByUUID su = some w.order ∧
    w.order.siblingOrderUUID = u ∧ w.order.status ≠ .cancelled := by
  obtain ⟨s, hs, hrest⟩ := h.outlives.supply
  rw [h.row] at hs
  cases hs
  exact hrest

theorem status : w.order.status ≠ .cancelled := h.supply.2.2

theorem link : w.order.siblingOrderUUID = u ∧ w.order.edgeUUID = su :=
  ⟨h.supply.2.1, (mem_of_getOrderByUUID h.supply.1).2⟩

theorem withTable (heq : t'.orders = w.table.orders) :
    Survives sid su u st { w with table := t' } := by
  refine ⟨h.outlives.of_orders heq, ?_⟩
  have hrow := h.row
  unfold getOrder at hrow ⊢
  rw [heq]
  exact hrow

theorem write {g : ComplexOrder → ComplexOrder}
    (hlink : (g w.order).siblingOrderUUID = w.order.siblingOrderUUID)
    (hstatus : (g w.order).status ≠ .cancelled) : Survives sid su u st (w.write g) := by
  have hid := h.id
  obtain ⟨huuid, hsib, -⟩ := h.supply
  obtain ⟨e, he, hne, hst, htakes⟩ := h.outlives.evac
  have hself : (w.write g).table.getOrder sid = some (w.write g).order := by
    unfold Working.write
    rw [getOrder_update, h.row]
    simp
  refine ⟨⟨⟨_, hself, ?_, ?_, hstatus⟩, ⟨e, ?_, hne, hst, htakes⟩⟩, hself⟩
  · unfold Working.write
    rw [getOrderByUUID_update, huuid]
    simp
  · exact hlink.trans hsib
  · unfold Working.write
    rw [getOrderByUUID_update, he]
    simp [hid, hne]

theorem transition {dst : OrderStatus} (hdst : dst ≠ .cancelled) :
    Survives sid su u st (w.transition dst) := by
  have hreleased : Survives sid su u st { w with table := w.table.releaseClaims w.order.id } :=
    h.withTable rfl
  unfold Working.transition
  split
  · exact h
  split
  · dsimp only
    split
    · exact hreleased.write rfl hdst
    · exact hreleased
  · split
    · exact h.write rfl hdst
    · exact h

theorem setQueueReason {code : Option ComplexCode} {cause reason : String} :
    Survives sid su u st (w.setQueueReason code cause reason) := by
  unfold Working.setQueueReason
  split
  · exact h
  · exact h.write rfl h.status

theorem park (note : ParkNote) : Survives sid su u st (w.park note) :=
  h.setQueueReason

theorem handleComplexBurial (burial : Burial) :
    Survives sid su u st (handleComplexBurial w burial) := by
  cases burial with
  | laneUnread reason => exact h.park _
  | laneMissing => exact h.transition (by decide)
  | proposed reason result =>
    have hparked := h.park ⟨.storageRearranging, "intake-buried", reason⟩
    cases result with
    | started => exact hparked.transition (by decide)
    | parked note => exact hparked.park note
    | nothingInTheWay => exact hparked
    | unplannable => exact hparked.transition (by decide)

theorem persistSteps (newSteps : Option (List ResolvedStep)) :
    Survives sid su u st (w.persistSteps newSteps) := by
  cases newSteps with
  | none => exact h
  | some steps => exact h.write rfl h.status

theorem placeForDedicatedLoader (node : Option String) :
    Survives sid su u st (w.placeForDedicatedLoader node) := by
  cases node with
  | none => exact h
  | some node => exact h.write rfl h.status

theorem prepareComplexSteps (outcome : PrepareOutcome) (loaderNode : Option String) :
    Survives sid su u st (prepareComplexSteps w outcome loaderNode).1 := by
  unfold Dispatch.prepareComplexSteps
  cases w.order.decodeSteps with
  | none => exact h.transition (by decide)
  | some stored =>
    cases outcome with
    | resolveBuried burial => exact h.handleComplexBurial burial
    | resolveCapacity slot reason => exact h.park _
    | resolveFailed => exact h.transition (by decide)
    | widened newSteps hold =>
      have hpersisted := h.persistSteps newSteps
      cases hold with
      | none => exact hpersisted.placeForDedicatedLoader loaderNode
      | some hold =>
        cases hold with
        | wait note => exact hpersisted.park note
        | reshuffle burial => exact hpersisted.handleComplexBurial burial
        | structural => exact hpersisted.transition (by decide)

theorem moveToSourcing : Survives sid su u st w.moveToSourcing := by
  unfold Working.moveToSourcing
  split
  · exact h
  · exact h.transition (by decide)

theorem acquire (claimed : List Nat) : Survives sid su u st (w.acquire claimed) :=
  h.moveToSourcing.withTable rfl

theorem finishComplex (outcome : TailOutcome) : Survives sid su u st (finishComplex w outcome) := by
  cases outcome with
  | slotParked cause reason => exact h.park _
  | moot => exact h.moveToSourcing.transition (by decide)
  | materialParked cause reason => exact h.moveToSourcing.park _
  | malformed => exact h.moveToSourcing.transition (by decide)
  | laneParked claimed cause reason digs =>
    have hparked := (h.acquire claimed).park ⟨.waitingForSlot, cause, reason⟩
    cases digs with
    | true => exact hparked.transition (by decide)
    | false => exact hparked
  | refused claimed => exact (h.acquire claimed).transition (by decide)
  | reindexParked claimed reason => exact (h.acquire claimed).park _
  | dispatched claimed vendorOrderID =>
    have hdispatched : Survives sid su u st ((w.acquire claimed).transition .dispatched) :=
      (h.acquire claimed).transition (by decide)
    exact (hdispatched.write rfl hdispatched.status).setQueueReason

/-! ### 門 -/

theorem linkSiblings : Survives sid su u st { w with table := w.table.linkSiblings su u } := by
  obtain ⟨hlink, huuid⟩ := h.link
  obtain ⟨hbyUUID, -, hstatus⟩ := h.supply
  obtain ⟨e, he, hne, hst, htakes⟩ := h.outlives.evac
  have hsame : { w.order with
      siblingOrderUUID := if w.order.edgeUUID = su then u else su } = w.order := by
    rw [if_pos huuid, ← hlink]
  have hrow : (w.table.linkSiblings su u).getOrder sid = some w.order := by
    rw [getOrder_linkSiblings h.row (.inl huuid), hsame]
  refine ⟨⟨⟨w.order, hrow, ?_, hlink, hstatus⟩, ?_⟩, hrow⟩
  · rw [getOrderByUUID_linkSiblings hbyUUID (.inl rfl), hsame]
  · exact ⟨_, getOrderByUUID_linkSiblings he (.inr rfl), hne, hst, htakes⟩

theorem repairBackLink (he : w.table.getOrderByUUID u = some e) :
    Survives sid su u st { w with table := repairBackLink false w.table w.order e u } ∧
      ∃ e', (Dispatch.repairBackLink false w.table w.order e u).getOrderByUUID u = some e' ∧
        e'.id = e.id ∧ e'.siblingOrderUUID = su ∧
        e'.decodeSteps.any (legTakesLineBin · e'.processNode) = true := by
  obtain ⟨hlink, huuid⟩ := h.link
  obtain ⟨e₀, he₀, hne, -, htakes⟩ := h.outlives.evac
  rw [he] at he₀
  cases he₀
  have hsu : su ≠ u := by
    rintro rfl
    have hbyUUID := h.supply.1
    rw [he] at hbyUUID
    cases hbyUUID
    exact hne h.id
  unfold Dispatch.repairBackLink
  rw [huuid]
  split
  · refine ⟨h.linkSiblings, _, getOrderByUUID_linkSiblings he (.inr rfl), rfl, ?_,
      htakes⟩
    show (if e.edgeUUID = su then u else su) = su
    rw [(mem_of_getOrderByUUID he).2, if_neg (Ne.symm hsu)]
  · next hback =>
    have hback : e.siblingOrderUUID = su := by
      by_contra hne'
      exact hback ⟨hne', rfl⟩
    exact ⟨h, e, he, rfl, hback, htakes⟩

end Survives

theorem handleSwapPeerTerminal_spares (he : t.getOrder e.id = some e)
    (hs : t.getOrderByUUID e.siblingOrderUUID = some s)
    (htakes : e.decodeSteps.any (legTakesLineBin · e.processNode) = true)
    (hspare : kind = .skipped ∨
      (kind ≠ .abandoned ∧ peerIsParkedWaitingForMaterial s = true)) :
    (handleSwapPeerTerminal {} t e.id kind).orders = t.orders := by
  have huuid : t.orderSiblingUUID e.id = some e.siblingOrderUUID := by
    simp [orderSiblingUUID, he]
  have hsettled : (settleSwapPeer t e s kind).orders = t.orders := by
    unfold settleSwapPeer
    rcases hspare with rfl | ⟨hkind, hparked⟩
    · simp [htakes]
    · simp only [hkind, htakes, hparked, if_true, if_false]
      split
      · rfl
      · rfl
  by_cases hempty : e.siblingOrderUUID = ""
  · simp [handleSwapPeerTerminal, he, huuid, hempty]
  · simpa [handleSwapPeerTerminal, he, huuid, hempty, hs] using hsettled

/-- evac が届けずに死んだ。skip された evac と届けた evac は、supply を取り消させない。 -/
def DiedUncleared (st : OrderStatus) : Prop := st = .failed ∨ st = .cancelled
  deriving Decidable

theorem swapTerminalKind_cases (h : swapTerminalKind st = some kind) :
    kind = .skipped ∨ (kind ≠ .abandoned ∧ DiedUncleared st) := by
  cases st <;> cases h
  · exact .inr ⟨by decide, .inl rfl⟩
  · exact .inr ⟨by decide, .inr rfl⟩
  · exact .inl rfl

namespace Survives

variable (h : Survives sid su u st w)
include h

theorem sibling_row : w.table.orderSiblingUUID w.order.id = some u := by
  unfold orderSiblingUUID
  rw [h.id, h.row, Option.map_some, h.link.1]

theorem unwindDeadSibling
    (hparked : DiedUncleared st → peerIsParkedWaitingForMaterial w.order = true) :
    Survives sid su u st { w with table := (unwindDeadSibling {} w.table w.order).1 } := by
  obtain ⟨e, he, hne, hst, htakes⟩ := h.outlives.evac
  obtain ⟨hrepaired, e', he', hid, hback, htakes'⟩ := h.repairBackLink he
  unfold Dispatch.unwindDeadSibling
  simp only [Bool.false_eq_true, if_false, h.sibling_row, he]
  split
  · exact h
  split
  · exact h
  rename_i kind hkind
  -- 片付けは evac の row から始まり、link を辿って supply に戻ってくる
  have hkind : swapTerminalKind st = some kind := by
    rw [← hst]
    split at hkind
    · exact hkind
    · cases hkind
  have horders : (handleSwapPeerTerminal {}
      (Dispatch.repairBackLink false w.table w.order e u) e.id kind).orders =
      (Dispatch.repairBackLink false w.table w.order e u).orders := by
    rw [← hid]
    refine handleSwapPeerTerminal_spares (getOrder_of_getOrderByUUID he')
      (by rw [hback]; exact hrepaired.supply.1) htakes' ?_
    rcases swapTerminalKind_cases hkind with hskip | ⟨hab, hdied⟩
    · exact .inl hskip
    · exact .inr ⟨hab, hparked hdied⟩
  split
  · exact hrepaired.withTable horders
  · exact hrepaired.withTable horders

theorem swapLegHeld (steps : List ResolvedStep) :
    Survives sid su u st { w with table := (swapLegHeld {} w.table w.order steps).1 } := by
  obtain ⟨e, he, -, -, -⟩ := h.outlives.evac
  have hrepaired := (h.repairBackLink he).1
  unfold Dispatch.swapLegHeld
  simp only [Bool.false_eq_true, if_false, h.sibling_row, he]
  split
  · exact h
  split
  · exact hrepaired
  split
  · exact hrepaired
  · exact hrepaired

theorem applySwapGates (steps : List ResolvedStep)
    (hparked : DiedUncleared st → peerIsParkedWaitingForMaterial w.order = true) :
    Survives sid su u st (applySwapGates {} w steps).1 := by
  have hunwound := h.unwindDeadSibling hparked
  unfold Dispatch.applySwapGates
  cases hu : Dispatch.unwindDeadSibling {} w.table w.order with
  | mk t₁ stop =>
    rw [hu] at hunwound
    cases stop with
    | some stop => exact hunwound
    | none =>
      have hheld := hunwound.swapLegHeld steps
      dsimp only at hheld ⊢
      cases hh : Dispatch.swapLegHeld {} t₁ w.order steps with
      | mk t₂ held =>
        rw [hh] at hheld
        cases held with
        | some reason => exact hheld.setQueueReason
        | none => exact hheld

end Survives

/-! ## やり直しの列 -/

def ParkedForMaterial (sid : Nat) (t : SwapTable) : Prop :=
  ∀ s, t.getOrder sid = some s → isAcquiring s.status = true → s.parentOrderID = none →
    s.queueCode = some (.scan .waitingForMaterial)

def SurvivorAction.ReachesGates : SurvivorAction → Prop
  | .replay r => ∃ newSteps, r.prepared = .widened newSteps none
  | .resumed => False

def SurvivorAction.WaitsForMaterial : SurvivorAction → Prop
  | .replay r => (∃ reason, r.prepared = .resolveCapacity false reason) ∨
      ∃ newSteps note, r.prepared = .widened newSteps (some (.wait note)) ∧
        note.code = .waitingForMaterial
  | .resumed => False

def SurvivorAction.Faultless : SurvivorAction → Prop
  | .replay r => r.faults = {}
  | .resumed => True

/-- 届けずに死んだ evac の supply が門に着くのは、bin を待っているとき。 -/
structure ReplayOk (sid : Nat) (st : OrderStatus) (t : SwapTable) (a : SurvivorAction) : Prop where
  faultless : a.Faultless
  parked : DiedUncleared st → a.ReachesGates → ParkedForMaterial sid t

theorem OutlivesEvac.survives (h : OutlivesEvac sid su u st t) (hs : t.getOrder sid = some s) :
    Survives sid su u st ⟨t, s⟩ := ⟨h, hs⟩

variable (node : Option String) (newSteps : Option (List ResolvedStep))

@[simp] theorem persistSteps_status : (w.persistSteps newSteps).order.status = w.order.status := by
  cases newSteps <;> rfl

@[simp] theorem persistSteps_queueCode :
    (w.persistSteps newSteps).order.queueCode = w.order.queueCode := by
  cases newSteps <;> rfl

@[simp] theorem placeForDedicatedLoader_status :
    (w.placeForDedicatedLoader node).order.status = w.order.status := by
  cases node <;> rfl

@[simp] theorem placeForDedicatedLoader_queueCode :
    (w.placeForDedicatedLoader node).order.queueCode = w.order.queueCode := by
  cases node <;> rfl

theorem prepareComplexSteps_some {outcome : PrepareOutcome} {loaderNode : Option String}
    {w' : Working} (h : prepareComplexSteps w outcome loaderNode = (w', some steps)) :
    (∃ newSteps, outcome = .widened newSteps none) ∧ w'.order.status = w.order.status ∧
      w'.order.queueCode = w.order.queueCode := by
  unfold prepareComplexSteps at h
  cases hd : w.order.decodeSteps with
  | none => simp [hd] at h
  | some stored =>
    rw [hd] at h
    cases outcome with
    | resolveBuried burial | resolveCapacity slot reason | resolveFailed => simp at h
    | widened newSteps hold =>
      cases hold with
      | some hold => cases hold <;> simp at h
      | none =>
        obtain ⟨rfl, -⟩ := h
        exact ⟨⟨newSteps, rfl⟩, by simp, by simp⟩

theorem park_queueCode (note : ParkNote) :
    (w.park note).order.queueCode = some (.scan note.code) := by
  unfold Working.park Working.setQueueReason
  split
  · next h => exact h.2.1
  · rfl

theorem Survives.parkedForMaterial (h : Survives sid su u st w)
    (hcode : isAcquiring w.order.status = true →
      w.order.queueCode = some (.scan .waitingForMaterial)) : ParkedForMaterial sid w.table := by
  intro s hs hacq _
  rw [h.row] at hs
  cases hs
  exact hcode hacq

section

variable (h : Survives sid su u st w) (hacq : isAcquiring w.order.status = true)
include h hacq

theorem Survives.status_failed : (w.transition .failed).order.status = .failed := by
  have hvalid : isValidTransition w.order.status .failed = true := by
    cases hs : w.order.status <;> simp [hs, isAcquiring] at hacq <;> rfl
  have hlive : w.order.status.isTerminal = false := by
    cases hs : w.order.status <;> simp [hs, isAcquiring] at hacq <;> rfl
  unfold Working.transition
  rw [hvalid, h.id, h.row]
  simp [hlive]
  rfl

theorem Survives.waits_parked (hr : (SurvivorAction.replay r).WaitsForMaterial) :
    ∃ w', Dispatch.prepareComplexSteps w r.prepared r.loaderNode = (w', none) ∧
      ParkedForMaterial sid w'.table := by
  cases hd : w.order.decodeSteps with
  | none =>
    refine ⟨w.transition .failed, by simp [Dispatch.prepareComplexSteps, hd], ?_⟩
    refine (h.transition (by decide)).parkedForMaterial fun hacq' => ?_
    rw [h.status_failed hacq] at hacq'
    cases hacq'
  | some stored =>
    rcases hr with ⟨reason, hr⟩ | ⟨newSteps, note, hr, hcode⟩
    · refine ⟨w.park ⟨.waitingForMaterial, "ngrp-resolve", reason⟩,
        by simp [Dispatch.prepareComplexSteps, hd, hr], ?_⟩
      exact (h.park _).parkedForMaterial fun _ => park_queueCode _
    · refine ⟨(w.persistSteps newSteps).park note,
        by simp [Dispatch.prepareComplexSteps, hd, hr], ?_⟩
      refine ((h.persistSteps newSteps).park note).parkedForMaterial fun _ => ?_
      rw [park_queueCode, hcode]

end

section

variable (h : OutlivesEvac sid su u st t)
include h

theorem replayComplex_outlives (hok : ReplayOk sid st t (.replay r)) :
    OutlivesEvac sid su u st (replayComplex t sid r) ∧
      ((SurvivorAction.replay r).WaitsForMaterial →
        ParkedForMaterial sid (replayComplex t sid r)) := by
  obtain ⟨s, hs, -, -, -⟩ := h.supply
  have hw := h.survives hs
  unfold replayComplex
  rw [hs]
  dsimp only
  by_cases hskip : (!isAcquiring s.status || s.parentOrderID.isSome) = true
  · rw [if_pos hskip]
    refine ⟨h, fun _ => ?_⟩
    intro s' hs' hacq hparent
    rw [hs] at hs'
    cases hs'
    simp [hacq, hparent] at hskip
  · rw [if_neg hskip]
    simp only [Bool.or_eq_true, Bool.not_eq_true', not_or, Bool.not_eq_false,
      Option.isSome_iff_ne_none, not_not] at hskip
    obtain ⟨hacq, hparent⟩ := hskip
    have hprep := hw.prepareComplexSteps r.prepared r.loaderNode
    unfold dispatchPreparedComplex
    rw [if_neg (by simp [hacq])]
    refine ⟨?_, fun hwaits => ?_⟩
    · cases hp : prepareComplexSteps ⟨t, s⟩ r.prepared r.loaderNode with
      | mk w₁ steps =>
        rw [hp] at hprep
        cases steps with
        | none => exact hprep.outlives
        | some steps =>
          obtain ⟨hreach, hstatus, hcode⟩ := prepareComplexSteps_some hp
          have hfaults : r.faults = {} := hok.faultless
          have hgates := hprep.applySwapGates steps fun hdied => by
            have hmaterial := hok.parked hdied hreach s hs hacq hparent
            simp [peerIsParkedWaitingForMaterial, hstatus, hcode, hacq, hmaterial]
          dsimp only
          rw [hfaults]
          cases hg : applySwapGates {} w₁ steps with
          | mk w₂ stop =>
            rw [hg] at hgates
            cases stop with
            | some stop => exact hgates.outlives
            | none => exact (hgates.finishComplex r.tail).outlives
    · obtain ⟨w', hp, hparked⟩ := hw.waits_parked hacq hwaits
      rw [hp]
      exact hparked

theorem resumeCompound_outlives : OutlivesEvac sid su u st (resumeCompound t sid) := by
  obtain ⟨s, hs, -, -, -⟩ := h.supply
  unfold resumeCompound
  rw [hs]
  dsimp only
  split
  · exact h
  have hqueued : Survives sid su u st (Working.transition ⟨t, s⟩ .queued) :=
    (h.survives hs).transition (by decide)
  exact (hqueued.write rfl hqueued.status).outlives

/-- **やり直し一回。** bin を待つ supply だけが門に着くなら、supply は取り消されない。 -/
theorem survivorStep_outlives {a : SurvivorAction}
    (hok : ReplayOk sid st t a) : OutlivesEvac sid su u st (survivorStep sid t a) ∧
      (a.WaitsForMaterial → ParkedForMaterial sid (survivorStep sid t a)) := by
  cases a with
  | replay r => exact replayComplex_outlives h hok
  | resumed => exact ⟨resumeCompound_outlives h, False.elim⟩

end

end Outlives

/-- **evac が終わった後のやり直しは、supply を取り消さない。** -/
theorem supply_outlives_evac (t : SwapTable) (supply evac : ComplexOrder)
    (acts : List SurvivorAction)
    (hsupply : t.getOrderByUUID supply.edgeUUID = some supply)
    (hparked : peerIsParkedWaitingForMaterial supply = true)
    (hevac : t.getOrderByUUID supply.siblingOrderUUID = some evac)
    (hterminal : evac.status.isTerminal = true)
    (htakes : evac.decodeSteps.any (legTakesLineBin · evac.processNode) = true)
    (hfaultless : ∀ a ∈ acts, a.Faultless)
    (hturns : acts.IsChain fun a b =>
      DiedUncleared evac.status → b.ReachesGates → a.WaitsForMaterial) :
    ∀ t' ∈ visited (survivorStep supply.id) t acts, ∀ o, t'.getOrder supply.id = some o →
      o.status ≠ .cancelled := by
  have hrow := getOrder_of_getOrderByUUID hsupply
  obtain ⟨hacq, hcode⟩ : isAcquiring supply.status = true ∧
      supply.queueCode = some (.scan .waitingForMaterial) := by
    simpa [peerIsParkedWaitingForMaterial] using hparked
  have hstart : OutlivesEvac supply.id supply.edgeUUID supply.siblingOrderUUID evac.status t := by
    refine ⟨⟨supply, hrow, hsupply, rfl, ?_⟩, ⟨evac, hevac, ?_, rfl, htakes⟩⟩
    · intro hcancelled
      rw [hcancelled] at hacq
      cases hacq
    · intro hid
      have hsame := getOrder_of_getOrderByUUID hevac
      rw [hid, hrow] at hsame
      cases hsame
      cases hs : supply.status <;> simp [hs, isAcquiring] at hacq <;> simp [hs] at hterminal <;>
        cases hterminal
  have hchain : acts.IsChain fun a b =>
      b.Faultless ∧ (DiedUncleared evac.status → b.ReachesGates → a.WaitsForMaterial) :=
    hturns.imp_of_mem_imp fun a b _ hb hab => ⟨hfaultless b hb, hab⟩
  have hall : AllSteps (survivorStep supply.id) (ReplayOk supply.id evac.status) t acts := by
    refine AllSteps.of_isChain (fun s a hs hok => ?_) hstart ?_ hchain
    · obtain ⟨hinv, hwaits⟩ := survivorStep_outlives hs hok
      exact ⟨hinv, fun b hb => ⟨hb.1, fun hdied hreach => hwaits (hb.2 hdied hreach)⟩⟩
    · intro a ha
      refine ⟨hfaultless a (mem_of_mem_head? ha), fun _ _ s hs _ _ => ?_⟩
      rw [hrow] at hs
      cases hs
      exact hcode
  have hkept : ∀ t' ∈ visited (survivorStep supply.id) t acts,
      OutlivesEvac supply.id supply.edgeUUID supply.siblingOrderUUID evac.status t' :=
    AllSteps.visited_of_inv (fun s a hs hok => (survivorStep_outlives hs hok).1) hstart hall
  intro t' ht' o ho
  obtain ⟨s, hs, -, -, hstatus⟩ := (hkept t' ht').supply
  rw [hs] at ho
  cases ho
  exact hstatus

def failedEvac : ComplexOrder where
  id := 2
  status := .failed
  processNode := "LINE"
  edgeUUID := "evac"
  siblingOrderUUID := "supply"
  steps := [{ action := .wait, node := "LINE" }, { action := .pickup, node := "LINE" },
    { action := .dropoff, node := "OUT" }]

def drySupply : ComplexOrder where
  id := 1
  status := .sourcing
  processNode := "LINE"
  edgeUUID := "supply"
  siblingOrderUUID := "evac"
  queueReason := "Waiting for material: PART-A"
  queueCode := some (.scan .waitingForMaterial)
  queueCause := "finder-pool-empty"
  steps := [{ action := .pickup, node := "MARKET" }, { action := .dropoff, node := "LINE" }]

def drySwapTable : SwapTable where
  orders := [failedEvac, drySupply]
  newestFirst := by decide

def stillDry : SurvivorAction :=
  .replay
    { prepared := .widened none
        (some (.wait ⟨.waitingForMaterial, "finder-pool-empty", "Waiting for material: PART-A"⟩))
      tail := .moot }

def stocked : SurvivorAction :=
  .replay { prepared := .widened none none, tail := .dispatched [7] "V1" }

theorem supply_outlives_evac_dryAgain :
    ((runSteps (survivorStep 1) drySwapTable [stocked, stillDry, stocked]).getOrder 1).isSome =
        true ∧
      ∀ t' ∈ visited (survivorStep 1) drySwapTable [stocked, stillDry, stocked], ∀ o,
        t'.getOrder 1 = some o → o.status ≠ .cancelled := by
  refine ⟨by decide, supply_outlives_evac drySwapTable drySupply failedEvac
    [stocked, stillDry, stocked] (by decide) (by decide) (by decide) (by decide) (by decide)
    ?_ ?_⟩
  · simp [stocked, stillDry, SurvivorAction.Faultless]
  · simp [stocked, stillDry, SurvivorAction.ReachesGates, SurvivorAction.WaitsForMaterial]

/-- **bin の入ったやり直しが二度続くと、supply は取り消される。** -/
theorem supply_cancelled_by_replays :
    drySwapTable.getOrderByUUID "supply" = some drySupply ∧
      drySwapTable.getOrderByUUID drySupply.siblingOrderUUID = some failedEvac ∧
      peerIsParkedWaitingForMaterial drySupply = true ∧
      failedEvac.status.isTerminal = true ∧
      legTakesLineBin failedEvac.steps failedEvac.processNode = true ∧
      stocked.Faultless ∧
      ((survivorStep 1 drySwapTable stocked).getOrder 1).map (fun o => (o.status, o.queueCode)) =
        some (.sourcing, some .waitingForPartner) ∧
      ((Shingo.Infra.runSteps (survivorStep 1) drySwapTable [stocked, stocked]).getOrder 1).map
        (·.status) = some .cancelled := by
  refine ⟨by decide, by decide, by decide, by decide, by decide, rfl, ?_, ?_⟩
  · decide +kernel
  · decide +kernel

/-! ## 届けた leg -/

theorem handleSwapPeerTerminalAmid_self (f : PeerFaults) (t : SwapTable) (deadOrderID : Nat)
    (kind : SwapTerminal) :
    handleSwapPeerTerminalAmid f t t deadOrderID kind =
      handleSwapPeerTerminal f t deadOrderID kind := by
  unfold handleSwapPeerTerminalAmid handleSwapPeerTerminal readSwapPeer
  grind

def HasDelivered (o : ComplexOrder) : Prop := o.status = .delivered ∨ o.status = .confirmed

section

variable {later : SwapTable} {dead peer : ComplexOrder} {kind : SwapTerminal}
  (hkind : kind = .failed ∨ kind = .cancelled)
include hkind

/-- confirmed と読まれた相手には触らず、片方だけの swap を記録する。 -/
theorem settleSwapPeer_confirmed (hconfirmed : peer.status = .confirmed) :
    ∃ detail, settleSwapPeer later dead peer kind =
      later.appendAudit peer.id .halfCompleted detail := by
  have hresolve : ∀ reason, ∃ detail, resolveSwapPeer later peer dead reason =
      later.appendAudit peer.id .halfCompleted detail := by
    intro reason
    unfold resolveSwapPeer
    rw [hconfirmed]
    exact ⟨_, rfl⟩
  have hparked : peerIsParkedWaitingForMaterial peer = false := by
    simp [peerIsParkedWaitingForMaterial, hconfirmed, Scanner.isAcquiring]
  unfold settleSwapPeer
  rcases hkind with rfl | rfl
  all_goals
    simp only [hparked, reduceCtorEq, if_false, Bool.false_eq_true]
    split
    · exact hresolve _
    · exact hresolve _

/-- confirmed と読まれなければ、片方だけの swap は記録されない。 -/
theorem settleSwapPeer_audits (hne : peer.status ≠ .confirmed) (detail : String) :
    (settleSwapPeer later dead peer kind).audits ≠
      later.audits ++ [⟨peer.id, .halfCompleted, detail⟩] := by
  have hsame : later.audits ≠ later.audits ++ [⟨peer.id, .halfCompleted, detail⟩] := by simp
  have hmove : ∀ t : SwapTable,
      (Working.transition ⟨t, peer⟩ .cancelled).table.audits = t.audits := by
    intro t
    unfold Working.transition
    repeat' split
    all_goals rfl
  have hcancel : (cancelOrder later peer).audits = later.audits := by
    unfold cancelOrder
    split
    · rfl
    · rw [hmove]
      split <;> rfl
  have hresolve : ∀ reason, (resolveSwapPeer later peer dead reason).audits = later.audits := by
    intro reason
    unfold resolveSwapPeer
    split
    · exact hcancel
    · -- delivered は終わりの status でないので、前の枝で取り消されている
      rename_i hterm
      rw [if_neg]
      rintro (hd | hc)
      · rw [hd] at hterm
        exact hterm rfl
      · exact hne hc
  unfold settleSwapPeer
  rcases hkind with rfl | rfl
  all_goals
    simp only [reduceCtorEq, if_false]
    split
    · split
      · simp [SwapTable.appendAudit]
      · rw [hresolve]
        exact hsame
    · rw [hresolve]
      exact hsame

end

/--
**bin を届けた相手が取り消されずに記録されるのは、confirmed と読まれたか、書くときに届けて
いなかったとき、かつそのときに限る。**
-/
theorem delivered_peer_survives (f : PeerFaults) (t later : SwapTable) (deadOrderID : Nat)
    (kind : SwapTerminal) (hkind : kind = .failed ∨ kind = .cancelled) :
    (∀ dead peer row, readSwapPeer f t deadOrderID = some (dead, peer) →
        later.getOrder peer.id = some row → HasDelivered row →
        (handleSwapPeerTerminalAmid f t later deadOrderID kind).getOrder peer.id = some row ∧
          ∃ detail, (handleSwapPeerTerminalAmid f t later deadOrderID kind).audits =
            later.audits ++ [⟨peer.id, .halfCompleted, detail⟩]) ↔
      ∀ dead peer row, readSwapPeer f t deadOrderID = some (dead, peer) →
        later.getOrder peer.id = some row → peer.status = .confirmed ∨ ¬ HasDelivered row := by
  constructor
  · intro h dead peer row hread hrow
    by_contra hnot
    rw [not_or, not_not] at hnot
    obtain ⟨-, detail, haudit⟩ := h dead peer row hread hrow hnot.2
    rw [handleSwapPeerTerminalAmid, hread] at haudit
    exact settleSwapPeer_audits hkind hnot.1 detail haudit
  · intro h dead peer row hread hrow hdone
    have hconfirmed := (h dead peer row hread hrow).resolve_right (not_not_intro hdone)
    obtain ⟨detail, hsettled⟩ := settleSwapPeer_confirmed hkind hconfirmed
    rw [handleSwapPeerTerminalAmid, hread]
    dsimp only
    rw [hsettled]
    exact ⟨hrow, detail, rfl⟩

def suppliedSwap (status : OrderStatus) : SwapTable where
  orders := [failedEvac, { drySupply with status }]
  newestFirst := List.pairwise_pair.mpr Nat.one_lt_two

theorem delivered_peer_survives_confirmed :
    readSwapPeer {} (suppliedSwap .confirmed) 2 =
        some (failedEvac, { drySupply with status := .confirmed }) ∧
      ∃ detail, (handleSwapPeerTerminalAmid {} (suppliedSwap .confirmed) (suppliedSwap .confirmed)
        2 .failed).audits = [⟨1, .halfCompleted, detail⟩] := by
  have hread : readSwapPeer {} (suppliedSwap .confirmed) 2 =
      some (failedEvac, { drySupply with status := .confirmed }) := by decide
  refine ⟨hread, ((delivered_peer_survives {} (suppliedSwap .confirmed) (suppliedSwap .confirmed) 2
    .failed (.inl rfl)).mpr ?_ _ _ { drySupply with status := .confirmed } hread rfl (.inr rfl)).2⟩
  intro dead peer row hpeer _
  cases hread.symm.trans hpeer
  exact .inl rfl

/-- 読んだ時に delivered の supply も、読んだ後で delivered になった supply も、取り消される。 -/
theorem delivered_peer_cancelled :
    (([OrderStatus.inTransit, .delivered].map fun status => handleSwapPeerTerminalAmid {}
      (suppliedSwap status) (suppliedSwap .delivered) 2 .failed).map fun t =>
        ((t.getOrder 1).map (·.status), t.audits.length)) =
      [(some .cancelled, 0), (some .cancelled, 0)] := by
  decide +kernel

end Shingo.Dispatch
