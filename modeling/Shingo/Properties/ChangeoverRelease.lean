import Shingo.Infra.Run
import Shingo.Edge.ChangeoverRelease

/-!
# 対になった supply の release

click と知らせをどの順に受けても、対になった supply の release が送られるかを言う。
-/

namespace Shingo.Edge

open Dispatch List EdgeOrder
open Infra

/-! ## 送る電文と、変わらない名 -/

def NodeTask.plan (t : NodeTask) : NodeTask := { t with state := .unchanged }

def EdgeOrder.naming (o : EdgeOrder) : EdgeOrder := { o with status := .pending }

def NodeTask.Clicked (t : NodeTask) (id : Nat) : Prop :=
  t.oldMaterialReleaseOrderID = some id
    ∨ (t.oldMaterialReleaseOrderID = none ∧ t.nextMaterialOrderID = some id)

/-- `w` から `w'` の間に送ったり覚えたりした order は、`ids` のものだけ。 -/
structure Sends (ids : Nat → Prop) (w w' : ChangeoverWorld) : Prop where
  tasks : w'.tasks.map NodeTask.plan = w.tasks.map NodeTask.plan
  orders : w'.orders.map naming = w.orders.map naming
  pending : ∀ id, ¬ ids id → w.pendingSibling id = none → w'.pendingSibling id = none
  sent : ∃ more, w'.sent = w.sent ++ more ∧ ∀ m ∈ more, ∃ id, ids id ∧
    ∃ o, w.order id = some o ∧ o.uuid = m.orderUUID

namespace Sends

variable {ids : Nat → Prop} {w w' w'' : ChangeoverWorld}

theorem order (h : Sends ids w w') (id : Nat) :
    (w'.order id).map naming = (w.order id).map naming := by
  have hid : ∀ o : EdgeOrder, (o.id == id) = (o.naming.id == id) := fun _ => rfl
  exact map_find?_of_map_eq (q := fun o => o.id == id) hid h.orders

theorem orderByUUID (h : Sends ids w w') (uuid : String) :
    (w'.orders.find? (·.uuid == uuid)).map naming
      = (w.orders.find? (·.uuid == uuid)).map naming := by
  have huuid : ∀ o : EdgeOrder, (o.uuid == uuid) = (o.naming.uuid == uuid) := fun _ => rfl
  exact map_find?_of_map_eq (q := fun o => o.uuid == uuid) huuid h.orders

theorem taskByEvac (h : Sends ids w w') (id : Nat) :
    (w'.taskByEvac id).map NodeTask.plan = (w.taskByEvac id).map NodeTask.plan := by
  have hevac : ∀ t : NodeTask, (t.oldMaterialReleaseOrderID == some id)
      = (t.plan.oldMaterialReleaseOrderID == some id) := fun _ => rfl
  exact map_find?_of_map_eq (q := fun t => t.oldMaterialReleaseOrderID == some id) hevac h.tasks

theorem quiet (htasks : w'.tasks.map NodeTask.plan = w.tasks.map NodeTask.plan)
    (horders : w'.orders.map naming = w.orders.map naming)
    (hpending : ∀ id, ¬ ids id → w.pendingSibling id = none → w'.pendingSibling id = none)
    (hsent : w'.sent = w.sent) : Sends ids w w' :=
  ⟨htasks, horders, hpending, [], by rw [hsent, append_nil], fun _ hm => by cases hm⟩

theorem refl (ids : Nat → Prop) (w : ChangeoverWorld) : Sends ids w w :=
  quiet rfl rfl (fun _ _ h => h) rfl

theorem mono {ids' : Nat → Prop} (h : Sends ids w w') (hids : ∀ id, ids id → ids' id) :
    Sends ids' w w' := by
  obtain ⟨more, hsent, hmore⟩ := h.sent
  refine ⟨h.tasks, h.orders, fun id hid => h.pending id fun hi => hid (hids id hi), more, hsent,
    fun m hm => ?_⟩
  obtain ⟨id, hid, ho⟩ := hmore m hm
  exact ⟨id, hids id hid, ho⟩

theorem uuid_of_order (h : Sends ids w w') {id : Nat} {o' : EdgeOrder}
    (ho : w'.order id = some o') : ∃ o, w.order id = some o ∧ o.uuid = o'.uuid := by
  have hname := h.order id
  rw [ho] at hname
  cases hw : w.order id with
  | none => rw [hw] at hname; cases hname
  | some o =>
    rw [hw] at hname
    have huuid : o'.naming.uuid = o.naming.uuid := congrArg uuid (Option.some.inj hname)
    exact ⟨o, rfl, huuid.symm⟩

theorem trans (h : Sends ids w w') (h' : Sends ids w' w'') : Sends ids w w'' := by
  obtain ⟨more, hsent, hmore⟩ := h.sent
  obtain ⟨more', hsent', hmore'⟩ := h'.sent
  refine ⟨h'.tasks.trans h.tasks, h'.orders.trans h.orders,
    fun id hid hnone => h'.pending id hid (h.pending id hid hnone), more ++ more',
    by rw [hsent', hsent, append_assoc], fun m hm => ?_⟩
  rcases mem_append.mp hm with hm | hm
  · exact hmore m hm
  · obtain ⟨id, hid, o', ho', huuid⟩ := hmore' m hm
    obtain ⟨o, ho, hou⟩ := h.uuid_of_order ho'
    exact ⟨id, hid, o, ho, hou.trans huuid⟩

theorem mem_sent (h : Sends ids w w') {m : OrderRelease} (hm : m ∈ w.sent) : m ∈ w'.sent := by
  obtain ⟨more, hsent, -⟩ := h.sent
  rw [hsent]
  exact mem_append_left _ hm

end Sends

namespace ChangeoverWorld

variable (w : ChangeoverWorld) (ids : Nat → Prop)

theorem sends_setStatus (id : Nat) (status : OrderStatus) :
    Sends ids w (w.setStatus id status) := by
  have hsame : ∀ o : EdgeOrder, (o.id == id) = true →
      naming { o with status } = o.naming := fun _ _ => rfl
  exact .quiet rfl (map_updateWhere hsame w.orders) (fun _ _ h => h) rfl

theorem sends_setTaskState (id : Nat) (state : NodeTaskState) :
    Sends ids w (w.setTaskState id state) := by
  have hsame : ∀ t : NodeTask, (t.id == id) = true →
      NodeTask.plan { t with state } = t.plan := fun _ _ => rfl
  exact .quiet (map_updateWhere hsame w.tasks) rfl (fun _ _ h => h) rfl

theorem sends_setRuntime (nodeID : Nat) (rt : NodeRuntime) : Sends ids w (w.setRuntime nodeID rt) :=
  .quiet rfl rfl (fun _ _ h => h) rfl

variable {id : Nat} {o : EdgeOrder}

theorem id_of_order {w : ChangeoverWorld} (h : w.order id = some o) : o.id = id := by
  have hid := List.find?_some h
  exact of_decide_eq_true hid

/-! ## 一つの order の release -/

theorem sends_releaseOrder (id : Nat) (r : Option Int) (d : Option UOPDisposition) (c : String)
    (enqueueOk : Bool) : Sends (· = id) w (w.releaseOrder id r d c enqueueOk).1 := by
  unfold releaseOrder
  cases ho : w.order id with
  | none => exact .refl _ w
  | some o =>
    dsimp only
    split
    · exact .refl _ w
    split
    · exact .refl _ w
    split
    · exact .refl _ w
    have hsend : Sends (· = id) w { w with
        sent := w.sent ++ [⟨o.uuid, r, d, c⟩] } := by
      refine ⟨rfl, rfl, fun _ _ h => h, [⟨o.uuid, r, d, c⟩], rfl, fun m hm => ?_⟩
      rw [mem_singleton.mp hm]
      exact ⟨id, rfl, o, ho, rfl⟩
    split
    · exact hsend.trans (sends_setStatus _ _ _ _)
    · exact hsend

theorem releaseOrder_sends (ho : w.order id = some o)
    (hstatus : releasableAtCore o.status = true) (r : Option Int) (d : Option UOPDisposition)
    (c : String) : ∃ m ∈ (w.releaseOrder id r d c true).1.sent, m.orderUUID = o.uuid := by
  have hcases : o.status = .staged ∨ o.status = .inTransit := by
    simpa [releasableAtCore] using hstatus
  unfold releaseOrder
  rw [ho]
  refine ⟨⟨o.uuid, r, d, c⟩, ?_, rfl⟩
  rcases hcases with hs | hs
  · simp [hs, OrderStatus.isTerminal, Shingo.Dispatch.validTransitions, isValidTransition,
      setStatus]
  · simp [hs, OrderStatus.isTerminal, Shingo.Dispatch.validTransitions, isValidTransition]

theorem sends_finalizeRelease (nodeID : Nat) (manifestUOP : Option Int) (toStyle : Bool) :
    Sends ids w (w.finalizeRelease nodeID manifestUOP toStyle) := by
  unfold finalizeRelease
  cases manifestUOP with
  | none =>
    dsimp only
    split
    · exact sends_setTaskState _ _ _ _
    · exact .refl _ w
  | some n =>
    have hcached : Sends ids w
        (w.setRuntime nodeID { w.runtime nodeID with remainingUOPCached := n }) :=
      sends_setRuntime _ _ _ _
    dsimp only
    split
    · exact hcached.trans (sends_setTaskState _ _ _ _)
    · exact hcached

theorem finalizeRelease_order (nodeID : Nat) (manifestUOP : Option Int) (toStyle : Bool)
    (id : Nat) : (w.finalizeRelease nodeID manifestUOP toStyle).order id = w.order id := by
  have horders : (w.finalizeRelease nodeID manifestUOP toStyle).orders = w.orders := by
    unfold finalizeRelease
    dsimp only
    cases manifestUOP <;> split <;> rfl
  unfold order
  rw [horders]

section

variable (disp : ReleaseDisposition)

theorem sends_releaseOrderWithFullLineside (o : EdgeOrder) (nodeID : Nat)
    (toStyle isSupply : Bool) (reply : ReleaseReply) :
    Sends (· = o.id) w (w.releaseOrderWithFullLineside o nodeID disp toStyle isSupply reply).1 := by
  unfold releaseOrderWithFullLineside
  dsimp only
  split
  · exact .refl _ w
  · exact (sends_finalizeRelease _ _ _ _ _).trans (sends_releaseOrder _ _ _ _ _ _)

theorem sends_releaseOrderWithLineside (id : Nat) (reply : ReleaseReply) :
    Sends (· = id) w (w.releaseOrderWithLineside id disp reply).1 := by
  unfold releaseOrderWithLineside
  cases ho : w.order id with
  | none => exact .refl _ w
  | some o =>
    obtain rfl : o.id = id := id_of_order ho
    dsimp only
    split
    · exact sends_releaseOrder _ _ _ _ _ _
    split
    · exact .refl _ w
    split
    · exact sends_releaseOrder _ _ _ _ _ _
    split
    · exact sends_releaseOrder _ _ _ _ _ _
    · exact .refl _ w
    split
    · exact sends_releaseOrder _ _ _ _ _ _
    · exact sends_releaseOrderWithFullLineside _ _ _ _ _ _ _

variable {reply : ReleaseReply}

/-- **止まっている order の release は、答えが止めなければ、どの道を通っても送られる。** -/
theorem releaseOrderWithLineside_sends (ho : w.order id = some o)
    (hstatus : releasableAtCore o.status = true) (hreply : reply.succeeds = true) :
    ∃ m ∈ (w.releaseOrderWithLineside id disp reply).1.sent, m.orderUUID = o.uuid := by
  simp only [ReleaseReply.succeeds, Bool.and_eq_true] at hreply
  obtain ⟨⟨⟨hnode, hsupply⟩, hcapture⟩, henqueue⟩ := hreply
  obtain rfl : o.id = id := id_of_order ho
  have hsend := fun r d c => w.releaseOrder_sends ho hstatus r d c
  unfold releaseOrderWithLineside
  rw [ho, henqueue]
  dsimp only
  split
  · exact hsend _ _ _
  rename_i nodeID _
  rw [hnode]
  simp only [Bool.not_true, Bool.false_eq_true, if_false]
  split
  · exact hsend _ _ _
  split
  · exact hsend _ _ _
  · next hnone =>
    rw [hnone] at hsupply
    cases hsupply
  · split
    · exact hsend _ _ _
    unfold releaseOrderWithFullLineside
    simp only [hcapture, henqueue, Bool.not_true, Bool.false_eq_true, if_false]
    refine releaseOrder_sends _ ?_ hstatus _ _ _
    rw [finalizeRelease_order]
    exact ho

/-! ## click と知らせ -/

theorem sends_releaseIfReleasable (id : Nat) (reply : ReleaseReply) :
    Sends (· = id) w (w.releaseIfReleasable id disp reply).1 := by
  unfold releaseIfReleasable
  split
  · exact .refl _ w
  split
  · exact .refl _ w
  · exact sends_releaseOrderWithLineside _ _ _ _

theorem releaseIfReleasable_sends (ho : w.order id = some o)
    (hstatus : releasableAtCore o.status = true) (hreply : reply.succeeds = true) :
    ∃ m ∈ (w.releaseIfReleasable id disp reply).1.sent, m.orderUUID = o.uuid := by
  have hlive : o.status.isTerminal = false := by
    have hcases : o.status = .staged ∨ o.status = .inTransit := by
      simpa [releasableAtCore] using hstatus
    rcases hcases with hs | hs
    · rw [hs]; rfl
    · rw [hs]; rfl
  have hsend := w.releaseOrderWithLineside_sends disp ho hstatus hreply
  unfold releaseIfReleasable
  rw [ho]
  simpa [hlive, hstatus] using hsend

theorem sends_releaseSlot (acc : ChangeoverWorld × ReleaseWaitResult) (id : Nat)
    (reply : ReleaseReply) : Sends (· = id) acc.1 (releaseSlot acc id disp reply).1 := by
  unfold releaseSlot
  split
  · exact .refl _ _
  split
  · exact .refl _ _
  split
  · exact .refl _ _
  · exact sends_releaseOrderWithLineside _ _ _ _

end

section

variable (only : Option Nat) (disp : ReleaseDisposition) (reply : Nat → ReleaseReply)
include only disp reply

theorem sends_releaseTaskSlots (acc : ChangeoverWorld × ReleaseWaitResult) (t : NodeTask) :
    Sends t.Clicked acc.1 (releaseTaskSlots only disp reply acc t).1 := by
  have hevac : ∀ id, t.oldMaterialReleaseOrderID = some id →
      ∀ d, Sends t.Clicked acc.1 (releaseSlot acc id d (reply id)).1 := fun id hid d =>
    (sends_releaseSlot d acc id _).mono fun j hj => .inl (hj ▸ hid)
  unfold releaseTaskSlots
  split
  · exact .refl _ _
  split
  · next evac supply he hs =>
    dsimp only
    split
    · exact hevac evac he _
    · exact hevac evac he _
  · next evac he hs => exact hevac evac he _
  · next supply he hs =>
    refine (sends_releaseSlot _ acc supply _).mono fun j hj => .inr ⟨he, ?_⟩
    rw [hj]
    exact hs
  · exact .refl _ _

theorem sends_releaseWait : Sends (fun id => ∃ t ∈ w.tasks, t.Clicked id) w
      (w.releaseChangeoverWaitScoped only disp reply).1 := by
  unfold releaseChangeoverWaitScoped
  split
  · exact .refl _ w
  rename_i co _
  refine List.foldlRecOn (motive := fun (acc : ChangeoverWorld × ReleaseWaitResult) =>
    Sends (fun id => ∃ t ∈ w.tasks, t.Clicked id) w acc.1) _ _ (.refl _ w) ?_
  intro acc hacc t ht
  refine hacc.trans ((sends_releaseTaskSlots only disp reply acc t).mono fun id hid => ?_)
  exact ⟨t, mem_of_mem_filter ht, hid⟩

end

theorem sends_releaseDeferredSupply (evac : Nat) (reply : ReleaseReply) :
    Sends (fun id => ∃ t, w.taskByEvac evac = some t ∧ t.nextMaterialOrderID = some id) w
      (w.releaseDeferredSupply evac reply) := by
  unfold releaseDeferredSupply
  cases ht : w.taskByEvac evac with
  | none => exact .refl _ w
  | some t =>
    dsimp only
    cases hs : t.nextMaterialOrderID with
    | none =>
      split
      · exact sends_setTaskState _ _ _ _
      · exact .refl _ w
    | some supply =>
      have hsupply : Sends (fun id => ∃ t', some t = some t' ∧ t'.nextMaterialOrderID = some id) w
          (w.releaseIfReleasable supply { calledBy := "auto-evac-pickup" } reply).1 := by
        refine (sends_releaseIfReleasable w _ supply _).mono fun j hj => ⟨t, rfl, ?_⟩
        rw [hj]
        exact hs
      split
      · exact hsupply.trans (sends_setTaskState _ _ _ _)
      · exact hsupply

theorem sends_handleBinPickedUp (nodes : Nat → Option String) (uuid : String) (binID : Int)
    (location : String) (reply : ReleaseReply) :
    Sends (fun id => ∃ o t, w.orders.find? (·.uuid == uuid) = some o ∧
        w.taskByEvac o.id = some t ∧ t.nextMaterialOrderID = some id) w
      (w.handleBinPickedUp nodes uuid binID location reply) := by
  unfold handleBinPickedUp
  cases ho : w.orders.find? (·.uuid == uuid) with
  | none => exact .refl _ w
  | some o =>
    dsimp only
    split
    · exact .refl _ w
    split
    · exact .refl _ w
    split
    · exact .refl _ w
    refine Sends.trans ?_ (sends_setRuntime _ _ _ _)
    refine (sends_releaseDeferredSupply w o.id reply).mono fun id hid => ?_
    obtain ⟨t, ht, hs⟩ := hid
    exact ⟨o, t, rfl, ht, hs⟩

theorem sends_rememberDeferredSiblingRelease (hid : ids id) (disp : ReleaseDisposition) :
    Sends ids w (w.rememberDeferredSiblingRelease id disp) := by
  unfold rememberDeferredSiblingRelease
  split
  · refine .quiet rfl rfl (fun j hj hnone => ?_) rfl
    have hne : j ≠ id := fun he => hj (he ▸ hid)
    exact (Function.update_of_ne hne _ _).trans hnone
  · exact .refl _ w

theorem sends_releaseStagedOrders (evac supply : Nat) (disp : ReleaseDisposition)
    (evacReply supplyReply : ReleaseReply) : Sends (fun id => id = evac ∨ id = supply) w
      (w.releaseStagedOrders evac supply disp evacReply supplyReply) := by
  have hevac : Sends (fun id => id = evac ∨ id = supply) w
      (w.releaseIfReleasable evac disp evacReply).1 :=
    (sends_releaseIfReleasable w disp evac evacReply).mono fun _ => .inl
  unfold releaseStagedOrders
  dsimp only
  split
  · exact hevac
  have hboth := hevac.trans ((sends_releaseIfReleasable _ { calledBy := disp.calledBy } supply
    supplyReply).mono fun _ => .inr)
  split
  · exact hboth.trans (sends_rememberDeferredSiblingRelease _ _ (.inr rfl) _)
  · exact hboth.trans (sends_rememberDeferredSiblingRelease _ _ (.inl rfl) _)
  · exact hboth

theorem sends_handleSiblingReleaseRefire (id : Nat) (status : OrderStatus) (reply : ReleaseReply) :
    Sends (fun j => j = id ∧ w.pendingSibling id ≠ none) w
      (w.handleSiblingReleaseRefire id status reply) := by
  have hforget : ∀ ids, Sends ids w
      { w with pendingSibling := Function.update w.pendingSibling id none } := by
    refine fun _ => .quiet rfl rfl (fun j _ hnone => ?_) rfl
    show Function.update w.pendingSibling id none j = none
    rw [Function.update_apply]
    split
    · rfl
    · exact hnone
  unfold handleSiblingReleaseRefire
  split
  · exact hforget _
  split
  · exact .refl _ w
  split
  · exact .refl _ w
  rename_i disp hpending
  refine (hforget _).trans ((sends_releaseIfReleasable _ disp id reply).mono fun j hj => ?_)
  refine ⟨hj, fun hnone => ?_⟩
  cases hnone.symm.trans hpending

theorem sends_statusChanged (id : Nat) (status : OrderStatus) (reply : ReleaseReply) :
    Sends (fun j => j = id ∧ w.pendingSibling id ≠ none) w (w.statusChanged id status reply) := by
  unfold statusChanged
  split
  · exact (sends_setStatus w _ id status).trans
      (sends_handleSiblingReleaseRefire (w.setStatus id status) id status reply)
  · exact .refl _ w

end ChangeoverWorld

theorem changeoverStep_sends (nodes : Nat → Option String) (w : ChangeoverWorld)
    (a : ChangeoverAction) : Sends (fun _ => True) w (changeoverStep nodes w a) := by
  cases a with
  | releaseWait only disp reply =>
    exact (w.sends_releaseWait only disp reply).mono fun _ _ => trivial
  | pickedUp uuid binID location reply =>
    exact (w.sends_handleBinPickedUp nodes uuid binID location reply).mono fun _ _ => trivial
  | status id status reply => exact (w.sends_statusChanged id status reply).mono fun _ _ => trivial
  | releaseStaged evac supply disp evacReply supplyReply =>
    exact (w.sends_releaseStagedOrders evac supply disp evacReply supplyReply).mono
      fun _ _ => trivial

/-! ## 対になった task -/

structure SupplyPair where
  nodeID : Nat
  coreNodeName : String
  evacID : Nat
  evacUUID : String
  supplyID : Nat
  supplyUUID : String

namespace SupplyPair

variable (p : SupplyPair)

structure Planned (nodes : Nat → Option String) (w : ChangeoverWorld) : Prop where
  node : nodes p.nodeID = some p.coreNodeName
  task : ∃ t, w.taskByEvac p.evacID = some t ∧ t.nextMaterialOrderID = some p.supplyID
  evac : ∃ o, w.orders.find? (·.uuid == p.evacUUID) = some o ∧ o.id = p.evacID ∧
    o.processNodeID = some p.nodeID
  supply : ∃ o, w.order p.supplyID = some o ∧ o.uuid = p.supplyUUID

def PickedUp : ChangeoverAction → Prop
  | .pickedUp uuid _ location _ =>
    uuid = p.evacUUID ∧ location ≠ ""
      ∧ ChangeoverWorld.trimSpace location = ChangeoverWorld.trimSpace p.coreNodeName
  | _ => False

instance : ∀ a, Decidable (p.PickedUp a)
  | .pickedUp _ _ _ _ => inferInstanceAs (Decidable (_ ∧ _ ∧ _))
  | .releaseWait _ _ _ | .status _ _ _ | .releaseStaged _ _ _ _ _ => .isFalse id

def SupplySent (w : ChangeoverWorld) : Prop := ∃ m ∈ w.sent, m.orderUUID = p.supplyUUID
  deriving Decidable

/-- 持ち上げの知らせの時、supply は止まっているか走っていて、release の答えが止めない。 -/
def SupplyReady (w : ChangeoverWorld) : ChangeoverAction → Prop
  | .pickedUp uuid binID location reply => p.PickedUp (.pickedUp uuid binID location reply) →
    (∃ o ∈ w.order p.supplyID, releasableAtCore o.status = true) ∧ reply.succeeds = true
  | _ => True

instance (w : ChangeoverWorld) : ∀ a, Decidable (p.SupplyReady w a)
  | .pickedUp _ _ _ _ => inferInstanceAs (Decidable (_ → _ ∧ _))
  | .releaseWait _ _ _ | .status _ _ _ | .releaseStaged _ _ _ _ _ => .isTrue trivial

variable {p} {nodes : Nat → Option String} {w w' : ChangeoverWorld} {ids : Nat → Prop}

theorem Planned.of_sends (h : p.Planned nodes w) (hs : Sends ids w w') : p.Planned nodes w' := by
  refine ⟨h.node, ?_, ?_, ?_⟩
  · obtain ⟨t, ht, hnext⟩ := h.task
    have hplan := hs.taskByEvac p.evacID
    rw [ht] at hplan
    obtain ⟨t', ht', heq⟩ := Option.map_eq_some_iff.mp hplan
    have hnext' : t'.plan.nextMaterialOrderID = t.plan.nextMaterialOrderID := congrArg _ heq
    exact ⟨t', ht', hnext'.trans hnext⟩
  · obtain ⟨o, ho, hid, hnode⟩ := h.evac
    have hname := hs.orderByUUID p.evacUUID
    rw [ho] at hname
    obtain ⟨o', ho', heq⟩ := Option.map_eq_some_iff.mp hname
    have hid' : o'.naming.id = o.naming.id := congrArg _ heq
    have hnode' : o'.naming.processNodeID = o.naming.processNodeID := congrArg _ heq
    exact ⟨o', ho', hid'.trans hid, hnode'.trans hnode⟩
  · obtain ⟨o, ho, huuid⟩ := h.supply
    have hname := hs.order p.supplyID
    rw [ho] at hname
    obtain ⟨o', ho', heq⟩ := Option.map_eq_some_iff.mp hname
    have huuid' : o'.naming.uuid = o.naming.uuid := congrArg _ heq
    exact ⟨o', ho', huuid'.trans huuid⟩

theorem SupplySent.of_sends (h : p.SupplySent w) (hs : Sends ids w w') : p.SupplySent w' := by
  obtain ⟨m, hm, huuid⟩ := h
  exact ⟨m, hs.mem_sent hm, huuid⟩

theorem supplySent_of_pickedUp (h : p.Planned nodes w) {a : ChangeoverAction}
    (hready : p.SupplyReady w a) (hpick : p.PickedUp a) :
    p.SupplySent (changeoverStep nodes w a) := by
  cases a with
  | pickedUp uuid binID location reply =>
    obtain ⟨⟨o, ho, hstatus⟩, hreply⟩ := hready hpick
    obtain ⟨rfl, hblank, htrim⟩ := hpick
    obtain ⟨t, ht, hnext⟩ := h.task
    obtain ⟨e, he, heid, henode⟩ := h.evac
    obtain ⟨o', ho', huuid⟩ := h.supply
    cases Option.mem_def.mp ho |>.symm.trans ho'
    have hsend := w.releaseIfReleasable_sends { calledBy := "auto-evac-pickup" } ho hstatus hreply
    rw [huuid] at hsend
    have hdeferred : p.SupplySent (w.releaseDeferredSupply e.id reply) := by
      unfold ChangeoverWorld.releaseDeferredSupply
      rw [heid, ht]
      dsimp only
      rw [hnext]
      split
      · exact SupplySent.of_sends hsend (ChangeoverWorld.sends_setTaskState _ (fun _ => True) _ _)
      · exact hsend
    simp only [changeoverStep, ChangeoverWorld.handleBinPickedUp, he, henode, h.node]
    rw [if_neg (not_or.mpr ⟨hblank, not_not.mpr htrim⟩)]
    exact hdeferred.of_sends (ChangeoverWorld.sends_setRuntime _ (fun _ => True) _ _)
  | releaseWait only disp reply | status id status reply
  | releaseStaged evac supply disp evacReply supplyReply => exact hpick.elim

end SupplyPair

/-- **対になった supply は送られる。** -/
theorem deferred_supply_released (nodes : Nat → Option String) (p : SupplyPair)
    (w : ChangeoverWorld) (hplan : p.Planned nodes w) (as : List ChangeoverAction)
    (hready : AllSteps (changeoverStep nodes) p.SupplyReady w as) (hpick : ∃ a ∈ as, p.PickedUp a)
    (only : Option Nat) (disp : ReleaseDisposition) (reply : Nat → ReleaseReply) :
    p.SupplySent
      (changeoverStep nodes (runSteps (changeoverStep nodes) w as)
        (.releaseWait only disp reply)) := by
  have hstep : ∀ s a, p.Planned nodes s → p.SupplyReady s a →
      p.Planned nodes (changeoverStep nodes s a) := fun s a h _ =>
    h.of_sends (changeoverStep_sends nodes s a)
  have hkeep : ∀ s a, p.Planned nodes s → p.SupplyReady s a → True → p.SupplySent s →
      p.SupplySent (changeoverStep nodes s a) := fun s a _ _ _ h =>
    h.of_sends (changeoverStep_sends nodes s a)
  have hfire : ∀ s a, p.Planned nodes s → p.SupplyReady s a → True → p.PickedUp a →
      p.SupplySent (changeoverStep nodes s a) := fun _ _ h ha _ hf =>
    SupplyPair.supplySent_of_pickedUp h ha hf
  have hall : AllSteps (changeoverStep nodes) p.SupplyReady w ([] ++ as) := hready
  have hsettle := AllSteps.settles hstep hkeep hfire hplan hall (fun _ _ => trivial) hpick
  exact hsettle.2.of_sends (changeoverStep_sends nodes _ _)

def lineNodes (id : Nat) : Option String := if id = 1 then some "ALN_001" else none

def linePair : SupplyPair where
  nodeID := 1
  coreNodeName := "ALN_001"
  evacID := 10
  evacUUID := "evac"
  supplyID := 11
  supplyUUID := "supply"

def swapStart (status : OrderStatus) : ChangeoverWorld where
  activeChangeover := some 5
  tasks := [⟨1, 5, 1, .swap, .stagingRequested, some 11, some 10⟩]
  orders := [⟨10, "evac", .staged, some 1, some 100⟩, ⟨11, "supply", status, some 1, none⟩]
  runtime := fun _ => { activeOrderID := some 10, activeBinID := some 100, remainingUOPCached := 3 }

def lineClick : ChangeoverAction := .releaseWait (some 1) { calledBy := "op" } fun _ => {}

def linePickedUp : ChangeoverAction := .pickedUp "evac" 100 "ALN_001 " {}

theorem deferred_supply_released_stagedFirst :
    AllSteps (changeoverStep lineNodes) linePair.SupplyReady (swapStart .dispatched)
        [.status 11 .staged {}, lineClick, linePickedUp]
      ∧ linePair.SupplySent (changeoverStep lineNodes
        (runSteps (changeoverStep lineNodes) (swapStart .dispatched)
          [.status 11 .staged {}, lineClick, linePickedUp]) lineClick) :=
  ⟨by decide, deferred_supply_released lineNodes linePair (swapStart .dispatched)
    ⟨rfl, ⟨_, rfl, rfl⟩, ⟨_, rfl, rfl, rfl⟩, ⟨_, rfl, rfl⟩⟩
    [.status 11 .staged {}, lineClick, linePickedUp] (by decide) (by decide)
    (some 1) { calledBy := "op" } fun _ => {}⟩

/-! ## 先に来た知らせ -/

/-- 知らせが supply の staged より先に来ると、supply が staged になった後の click でも送られない。 -/
theorem picked_up_before_staged :
    (∃ a ∈ [lineClick, linePickedUp, .status 11 .staged {}], linePair.PickedUp a)
      ∧ ((runSteps (changeoverStep lineNodes) (swapStart .dispatched)
          [lineClick, linePickedUp, .status 11 .staged {}]).order 11).map (·.status) = some .staged
      ∧ ¬ linePair.SupplySent (changeoverStep lineNodes
        (runSteps (changeoverStep lineNodes) (swapStart .dispatched)
          [lineClick, linePickedUp, .status 11 .staged {}]) lineClick) := by
  decide

/-! ## 後回しの leg -/

/-- 飛ばされてから覚えられるまで、leg は送れる status にならない。 -/
def StaysBack (l : SiblingLeg) : SiblingAction → Bool
  | .changed status => l.click = .before || l.click = .returned || !releasableAtCore status
  | _ => true

structure SiblingInv (l : SiblingLeg) : Prop where
  waiting : l.click = .deferred ∨ l.click = .checked → releasableAtCore l.status = false
  unfired : l.pending = true → l.click = .returned ∧ l.status ≠ .staged
  settled : l.click = .returned → l.queued = true ∨ l.pending = true ∨ l.status.isTerminal = true

theorem not_releasable_of_terminal {s : OrderStatus} (h : s.isTerminal = true) :
    releasableAtCore s = false := by
  cases s <;> first | rfl | cases h

theorem SiblingInv.step (l : SiblingLeg) (a : SiblingAction) (h : SiblingInv l)
    (hok : StaysBack l a = true) : SiblingInv (siblingStep l a) := by
  obtain ⟨hwait, hunfired, hsettled⟩ := h
  have hstaged : releasableAtCore .staged = true := rfl
  cases a with simp only [siblingStep, SiblingLeg.released]
  | release => split_ifs <;> constructor <;> grind [not_releasable_of_terminal]
  | check => split_ifs <;> constructor <;> grind
  | record => split_ifs <;> constructor <;> grind
  | changed status =>
    simp only [StaysBack] at hok
    split_ifs <;> constructor <;> grind [not_releasable_of_terminal]

/-- **後回しの release は失われない。** -/
theorem deferred_sibling_released (status : OrderStatus) (acts : List SiblingAction)
    (hok : AllSteps siblingStep (StaysBack · · = true) { status } acts)
    (hreturned : (runSteps siblingStep { status } acts).click = .returned)
    (hstaged : (runSteps siblingStep { status } acts).status = .staged) :
    (runSteps siblingStep { status } acts).queued = true := by
  have hinv := AllSteps.visited_of_inv SiblingInv.step ⟨by simp, by simp, by simp⟩ hok _
    (mem_visited_runSteps _ _)
  rcases hinv.settled hreturned with hqueued | hpending | hterminal
  · exact hqueued
  · exact absurd hstaged (hinv.unfired hpending).2
  · rw [hstaged] at hterminal
    cases hterminal

def stagedLater : List SiblingAction :=
  [.release, .check, .record, .changed .staged, .changed .staged]

theorem deferred_sibling_released_later :
    (runSteps siblingStep { status := .dispatched } stagedLater).queued = true :=
  deferred_sibling_released .dispatched stagedLater (by decide) (by decide) (by decide)

/-- 読みの前に staged になれば覚えず、読みと書きの間なら、覚えたものを誰も見ない。 -/
theorem sibling_staged_meanwhile :
    runSteps siblingStep { status := .dispatched } [.release, .changed .staged, .check]
      = ⟨.staged, .returned, false, false⟩ ∧
    runSteps siblingStep { status := .dispatched } [.release, .check, .changed .staged, .record]
      = ⟨.staged, .returned, true, false⟩ := by
  decide

end Shingo.Edge
