import Shingo.Edge.ChangeoverPlan
import Shingo.Infra.FirstMatch
import Shingo.Infra.Run

/-!
# changeover の order は changeover より長く生きない

空の表から始まるどの出来事の並びでも、cancelled か completed になった changeover のために
`applyNodeAction` が作った order は、participant に bin を置くなら終わっている。ただし、作った order が
task に結ばれることと、取り消しの中の読みと取り消しが成功することを仮定する。

進行中の changeover の活きた order は、どれもその changeover の task に結ばれている
（`PlanInv.linked`）。
-/

namespace Shingo.Edge.Changeover

open Dispatch List Tables
open Infra

/-! ## 不変条件 -/

def Tables.Linked (t : Tables) (co id : Nat) : Prop :=
  ∃ task ∈ t.tasks, task.changeoverID = co ∧ id ∈ linksOf task

/--
表の不変条件。

`pending` は、作ったばかりでまだ結んでいない order（changeover と order の組）。
-/
structure PlanInv (pending : List (Nat × Nat)) (t : Tables) : Prop where
  orderIDs : (t.orders.map (·.id)).Nodup
  taskIDs : (t.tasks.map (·.id)).Nodup
  orderFresh : ∀ o ∈ t.orders, o.id < t.nextID ∧ ∀ co, o.madeFor = some co → co < t.nextID
  taskFresh : ∀ task ∈ t.tasks, task.id < t.nextID ∧ task.changeoverID < t.nextID
  changeoverFresh : ∀ c ∈ t.changeovers, c.id < t.nextID
  linked : ∀ o ∈ t.orders, ∀ c ∈ t.changeovers, o.madeFor = some c.id →
    o.status.isTerminal = false → c.state = .active → (c.id, o.id) ∈ pending ∨ t.Linked c.id o.id
  closed : ∀ o ∈ t.orders, ∀ c ∈ t.changeovers, o.madeFor = some c.id →
    o.status.isTerminal = false → c.state ≠ .active →
    o.gatesCutover true (t.participants c.id) = false

theorem PlanInv.empty : PlanInv [] {} where
  orderIDs := nodup_nil
  taskIDs := nodup_nil
  orderFresh := forall_mem_nil _
  taskFresh := forall_mem_nil _
  changeoverFresh := forall_mem_nil _
  linked := forall_mem_nil _
  closed := forall_mem_nil _

/-! ## 表の書き込み -/

variable {o : LegOrder} {co : Nat} {task : NodeTask} {pending : List (Nat × Nat)}

section Writes

variable {t : Tables} {pending' : List (Nat × Nat)}

theorem PlanInv.getOrder (h : PlanInv pending t) (ho : o ∈ t.orders) : t.getOrder o.id = some o :=
  find?_of_nodup_map h.orderIDs ho

theorem gatesCutover_congr {o' : LegOrder} (h : o'.steps = o.steps) (b : Bool)
    (nodes : List String) : o'.gatesCutover b nodes = o.gatesCutover b nodes := by
  unfold LegOrder.gatesCutover
  rw [h]

variable {id : Nat}

section

variable (h : PlanInv pending t)
include h

theorem PlanInv.updateOrders {p : LegOrder → Bool} {f : LegOrder → LegOrder}
    (hid : ∀ o, (f o).id = o.id) (hmade : ∀ o, (f o).madeFor = o.madeFor)
    (hsteps : ∀ o, (f o).steps = o.steps)
    (hlive : ∀ o ∈ t.orders, p o = true → (f o).status.isTerminal = false →
      o.status.isTerminal = false) :
    PlanInv pending { t with orders := updateWhere p f t.orders } := by
  -- 書いた後の行と、その元の行
  have hback : ∀ o' ∈ updateWhere p f t.orders, ∃ o ∈ t.orders, o'.id = o.id ∧
      o'.madeFor = o.madeFor ∧ o'.steps = o.steps ∧
      (o'.status.isTerminal = false → o.status.isTerminal = false) := by
    intro o' ho'
    obtain ⟨o, ho, rfl⟩ := mem_updateWhere.mp ho'
    refine ⟨o, ho, ?_⟩
    cases hp : p o with
    | true => exact ⟨hid o, hmade o, hsteps o, hlive o ho hp⟩
    | false => exact ⟨rfl, rfl, rfl, id⟩
  refine ⟨?_, h.taskIDs, ?_, h.taskFresh, h.changeoverFresh, ?_, ?_⟩
  · show ((updateWhere p f t.orders).map (·.id)).Nodup
    rw [map_updateWhere fun o _ => hid o]
    exact h.orderIDs
  · intro o' ho'
    obtain ⟨o, ho, hoid, homade, -, -⟩ := hback o' ho'
    rw [hoid, homade]
    exact h.orderFresh o ho
  · intro o' ho' c hc hmade' hlive' hactive
    obtain ⟨o, ho, hoid, homade, -, holive⟩ := hback o' ho'
    rw [hoid]
    exact h.linked o ho c hc (homade ▸ hmade') (holive hlive') hactive
  · intro o' ho' c hc hmade' hlive' hclosed
    obtain ⟨o, ho, -, homade, hosteps, holive⟩ := hback o' ho'
    rw [gatesCutover_congr hosteps]
    exact h.closed o ho c hc (homade ▸ hmade') (holive hlive') hclosed

theorem PlanInv.setStatus {status : OrderStatus} (hlive : status.isTerminal = false →
      ∀ o ∈ t.orders, o.id = id → o.status.isTerminal = false) :
    PlanInv pending (t.setStatus id status) := by
  refine h.updateOrders (fun _ => rfl) (fun _ => rfl) (fun _ => rfl) ?_
  intro o ho hp hstatus
  exact hlive hstatus o ho (by simpa using hp)

theorem PlanInv.updateTasks {p : NodeTask → Bool} {f : NodeTask → NodeTask}
    (hid : ∀ task, (f task).id = task.id) (hco : ∀ task, (f task).changeoverID = task.changeoverID)
    (hlinks : ∀ o ∈ t.orders, ∀ c ∈ t.changeovers, o.madeFor = some c.id →
      o.status.isTerminal = false →
      (c.id, o.id) ∈ pending ∨ t.Linked c.id o.id →
      (c.id, o.id) ∈ pending' ∨
        Tables.Linked { t with tasks := updateWhere p f t.tasks } c.id o.id) :
    PlanInv pending' { t with tasks := updateWhere p f t.tasks } := by
  refine ⟨h.orderIDs, ?_, h.orderFresh, ?_, h.changeoverFresh, ?_, h.closed⟩
  · show ((updateWhere p f t.tasks).map (·.id)).Nodup
    rw [map_updateWhere fun task _ => hid task]
    exact h.taskIDs
  · intro task' htask'
    obtain ⟨task, htask, rfl⟩ := mem_updateWhere.mp htask'
    have hfresh := h.taskFresh task htask
    split
    · rw [hid, hco]
      exact hfresh
    · exact hfresh
  · intro o ho c hc hmade hlive hactive
    exact hlinks o ho c hc hmade hlive (h.linked o ho c hc hmade hlive hactive)

theorem PlanInv.setTaskState (id : Nat) (state : NodeTaskState)
    (ok : Bool) : PlanInv pending (t.setTaskState id state ok) := by
  unfold Tables.setTaskState
  split
  · refine h.updateTasks (fun _ => rfl) (fun _ => rfl) ?_
    rintro o - c - - - (hpending | ⟨task, htask, hco, hlink⟩)
    · exact .inl hpending
    · refine .inr ⟨_, mem_updateWhere.mpr ⟨task, htask, rfl⟩, ?_, ?_⟩
      · split <;> exact hco
      · split <;> exact hlink
  · exact h

theorem PlanInv.bump : (∀ o ∈ t.orders, o.id < t.nextID + 1 ∧
      ∀ co, o.madeFor = some co → co < t.nextID + 1) ∧
    (∀ task ∈ t.tasks, task.id < t.nextID + 1 ∧ task.changeoverID < t.nextID + 1) ∧
    ∀ c ∈ t.changeovers, c.id < t.nextID + 1 := by
  refine ⟨fun o ho => ?_, fun task htask => ?_, fun c hc => ?_⟩
  · obtain ⟨hid, hco⟩ := h.orderFresh o ho
    exact ⟨Nat.lt_succ_of_lt hid, fun co hmade => Nat.lt_succ_of_lt (hco co hmade)⟩
  · have hfresh := h.taskFresh task htask
    exact ⟨Nat.lt_succ_of_lt hfresh.1, Nat.lt_succ_of_lt hfresh.2⟩
  · exact Nat.lt_succ_of_lt (h.changeoverFresh c hc)

theorem PlanInv.insertOrder {madeFor : Option Nat}
    (hmade : ∀ co, madeFor = some co → co < t.nextID ∧ (co, t.nextID) ∈ pending')
    (hopen : ∀ co, madeFor = some co → ∀ c ∈ t.changeovers, c.id = co → c.state = .active)
    (hpending : pending ⊆ pending') (status : OrderStatus)
    (steps : Option (List ComplexOrderStep)) (deliveryNode : String) :
    PlanInv pending' (t.insertOrder madeFor status steps deliveryNode) := by
  refine ⟨?_, h.taskIDs, ?_, ?_, ?_, ?_, ?_⟩
  · exact nodup_map_concat h.orderIDs fun o ho => Nat.ne_of_lt (h.orderFresh o ho).1
  · intro o ho
    rcases mem_append_last.mp ho with ho | rfl
    · exact h.bump.1 o ho
    · exact ⟨Nat.lt_succ_self _, fun co hco => Nat.lt_succ_of_lt (hmade co hco).1⟩
  · exact h.bump.2.1
  · exact h.bump.2.2
  · intro o ho c hc hmade' hlive hactive
    rcases mem_append_last.mp ho with ho | rfl
    · exact (h.linked o ho c hc hmade' hlive hactive).imp_left (@hpending _)
    · exact .inl (hmade c.id hmade').2
  · intro o ho c hc hmade' hlive hclosed
    rcases mem_append_last.mp ho with ho | rfl
    · exact h.closed o ho c hc hmade' hlive hclosed
    · exact absurd (hopen c.id hmade' c hc rfl) hclosed

end

theorem mem_linksOf : id ∈ linksOf task ↔
    task.nextMaterialOrderID = some id ∨ task.oldMaterialReleaseOrderID = some id := by
  simp [linksOf, eq_comm]

theorem PlanInv.link (h : PlanInv pending t) (htask : task ∈ t.tasks) {next old : Option Nat}
    (hnext : next.isSome = true → ∀ o ∈ t.orders, o.status.isTerminal = false →
      task.nextMaterialOrderID ≠ some o.id)
    (hold : old.isSome = true → ∀ o ∈ t.orders, o.status.isTerminal = false →
      task.oldMaterialReleaseOrderID ≠ some o.id) (hpending : ∀ p ∈ pending, p ∈ pending' ∨
      (task.changeoverID = p.1 ∧ (next = some p.2 ∨ old = some p.2))) :
    PlanInv pending' (t.linkChangeoverNodeOrders task.id next old) := by
  refine h.updateTasks (fun _ => rfl) (fun _ => rfl) ?_
  rintro o ho c - - hlive (hp | ⟨task', htask', hco, hlink⟩)
  · rcases hpending _ hp with hp | ⟨hco, hlink⟩
    · exact .inl hp
    · -- いま結んだ order
      refine .inr ⟨_, mem_updateWhere.mpr ⟨task, htask, rfl⟩, ?_, ?_⟩
      · rw [if_pos (beq_self_eq_true _)]
        exact hco
      · rw [if_pos (beq_self_eq_true _), mem_linksOf]
        rcases hlink with rfl | rfl
        · exact .inl rfl
        · exact .inr rfl
  · refine .inr ⟨_, mem_updateWhere.mpr ⟨task', htask', rfl⟩, ?_, ?_⟩
    · split <;> exact hco
    · split
      · next hid =>
        have hsame : task' = task :=
          inj_on_of_nodup_map h.taskIDs htask' htask (by simpa using hid)
        rw [hsame, mem_linksOf] at hlink
        rw [mem_linksOf, hsame]
        rcases hlink with hlink | hlink
        · left
          cases next with
          | none => exact hlink
          | some id => exact absurd hlink (hnext rfl o ho hlive)
        · right
          cases old with
          | none => exact hlink
          | some id => exact absurd hlink (hold rfl o ho hlive)
      · exact hlink

theorem PlanInv.setChangeover (h : PlanInv pending t) {state : ChangeoverState}
    (hstate : state ≠ .active)
    (hdone : ∀ o ∈ t.orders, o.madeFor = some co → o.status.isTerminal = false →
      o.gatesCutover true (t.participants co) = false) :
    PlanInv pending (t.setChangeover co state) := by
  refine ⟨h.orderIDs, h.taskIDs, h.orderFresh, h.taskFresh, ?_, ?_, ?_⟩
  · intro c' hc'
    obtain ⟨c, hc, rfl⟩ := mem_updateWhere.mp hc'
    have hfresh := h.changeoverFresh c hc
    split <;> exact hfresh
  · intro o ho c' hc'
    obtain ⟨c, hc, rfl⟩ := mem_updateWhere.mp hc'
    split
    · exact fun _ _ hactive => absurd hactive hstate
    · exact h.linked o ho c hc
  · intro o ho c' hc'
    obtain ⟨c, hc, rfl⟩ := mem_updateWhere.mp hc'
    split
    · next hid =>
      intro hmade hlive _
      obtain rfl : c.id = co := by simpa using hid
      exact hdone o ho hmade hlive
    · exact h.closed o ho c hc

end Writes

/-! ## 作って結ぶ -/

def CreateOutcome.stores : Option OrderSpec → CreateOutcome → Bool
  | some (.complex _ _), .stored _ _ => true
  | some (.complex _ _), .stepsLost => true
  | some (.retrieve _), .stored _ _ => true
  | _, _ => false

def CreateOutcome.succeeds : Option OrderSpec → CreateOutcome → Bool
  | none, _ => true
  | some .empty, _ => true
  | some _, .stored _ readBack => readBack
  | _, _ => false

/--
一つの node で、order を入れたなら結びまで行く。

supply を入れたなら読み直しと evac と結びが成功し、evac を入れたなら、その読みと結びが成功する。
-/
def ApplyOutcome.LinksAll (a : NodeAction) (out : ApplyOutcome) : Prop :=
  (out.supply.stores a.supplyOrder = true ∨
    (out.supply.succeeds a.supplyOrder = true ∧ out.evac.stores a.evacOrder = true)) →
  out.supply.succeeds a.supplyOrder = true ∧ (a.supplyOrder.isSome = true → out.refetchOk = true) ∧
    out.evac.succeeds a.evacOrder = true ∧ out.linkOk = true
  deriving Decidable

structure Keeps (taskID : Nat) (t t' : Tables) : Prop where
  changeovers : t'.changeovers = t.changeovers
  nextID : t.nextID ≤ t'.nextID
  tasks : ∀ task' ∈ t'.tasks, ∃ task ∈ t.tasks, task'.id = task.id ∧
    task'.changeoverID = task.changeoverID ∧ task'.processNodeID = task.processNodeID ∧
    (task.id ≠ taskID → linksOf task' = linksOf task)

section Apply

variable {t t' t'' : Tables} {taskID : Nat}

theorem Keeps.of_eq (hco : t'.changeovers = t.changeovers) (hid : t.nextID ≤ t'.nextID)
    (htasks : t'.tasks = t.tasks) : Keeps taskID t t' :=
  ⟨hco, hid, fun task h => ⟨task, htasks ▸ h, rfl, rfl, rfl, fun _ => rfl⟩⟩

theorem Keeps.trans (h : Keeps taskID t t') (h' : Keeps taskID t' t'') : Keeps taskID t t'' := by
  refine ⟨h'.changeovers.trans h.changeovers, Nat.le_trans h.nextID h'.nextID, ?_⟩
  intro task'' htask''
  obtain ⟨task', htask', hid', hco', hnode', hlinks'⟩ := h'.tasks task'' htask''
  obtain ⟨task, htask, hid, hco, hnode, hlinks⟩ := h.tasks task' htask'
  refine ⟨task, htask, hid'.trans hid, hco'.trans hco, hnode'.trans hnode, fun hne => ?_⟩
  rw [hlinks' (hid ▸ hne), hlinks hne]

theorem Keeps.setTaskState (id : Nat) (state : NodeTaskState) (ok : Bool) :
    Keeps taskID t (t.setTaskState id state ok) := by
  unfold Tables.setTaskState
  split
  · refine ⟨rfl, Nat.le_refl _, fun task' htask' => ?_⟩
    obtain ⟨task, htask, rfl⟩ := mem_updateWhere.mp htask'
    refine ⟨task, htask, ?_⟩
    split <;> exact ⟨rfl, rfl, rfl, fun _ => rfl⟩
  · exact .of_eq rfl (Nat.le_refl _) rfl

theorem Keeps.link (next old : Option Nat) :
    Keeps taskID t (t.linkChangeoverNodeOrders taskID next old) := by
  refine ⟨rfl, Nat.le_refl _, fun task' htask' => ?_⟩
  obtain ⟨task, htask, rfl⟩ := mem_updateWhere.mp htask'
  refine ⟨task, htask, ?_⟩
  split
  · next hid => exact ⟨rfl, rfl, rfl, fun hne => absurd (by simpa using hid) hne⟩
  · exact ⟨rfl, rfl, rfl, fun _ => rfl⟩

theorem createPlannedOrder_keeps (madeFor : Option Nat) (spec : OrderSpec) (out : CreateOutcome) :
    Keeps taskID t (t.createPlannedOrder madeFor spec out).1 := by
  unfold createPlannedOrder
  split <;> first
    | exact .of_eq rfl (Nat.le_refl _) rfl
    | exact .of_eq rfl (Nat.le_succ _) rfl

/-! ### 作る -/

variable {spec : Option OrderSpec} {out : CreateOutcome}

theorem createLeg_keeps : Keeps taskID t (t.createLeg co spec out).1 := by
  cases spec with
  | none => exact .of_eq rfl (Nat.le_refl _) rfl
  | some spec => exact createPlannedOrder_keeps _ _ _

theorem createLeg_tasks : (t.createLeg co spec out).1.tasks = t.tasks := by
  rcases spec with _ | ⟨_, _⟩ | ⟨_⟩ | _ <;> cases out <;> rfl

theorem createLeg_isSome : (t.createLeg co spec out).2.isSome = out.succeeds spec := by
  rcases spec with _ | ⟨_, _⟩ | ⟨_⟩ | _ <;> rcases out with _ | _ | ⟨_, _ | _⟩ <;> rfl

theorem createLeg_stored (h : out.stores spec = true) (hok : out.succeeds spec = true) :
    (t.createLeg co spec out).2 = some (some t.nextID) := by
  rcases spec with _ | ⟨_, _⟩ | ⟨_⟩ | _ <;> cases out <;>
    simp_all [CreateOutcome.succeeds, CreateOutcome.stores, createLeg,
      createPlannedOrder]

theorem createLeg_of_not_stores (t : Tables) (co : Nat) (h : out.stores spec = false) :
    ∃ id, t.createLeg co spec out = (t, id) ∧ id.isSome = out.succeeds spec := by
  refine ⟨_, Prod.ext ?_ rfl, createLeg_isSome⟩
  rcases spec with _ | ⟨_, _⟩ | ⟨_⟩ | _ <;> cases out <;> first | rfl | cases h

section

variable (h : PlanInv pending t) (hco : co < t.nextID)
    (hopen : ∀ c ∈ t.changeovers, c.id = co → c.state = .active) (hs : out.stores spec = true)
include h hco hopen hs

theorem createLeg_inv : PlanInv ((co, t.nextID) :: pending) (t.createLeg co spec out).1 := by
  have hinsert : ∀ status steps node, PlanInv ((co, t.nextID) :: pending)
      (t.insertOrder (some co) status steps node) := by
    refine h.insertOrder ?_ ?_ (subset_cons_self _ _)
    · rintro co' ⟨⟩
      exact ⟨hco, mem_cons_self⟩
    · rintro co' ⟨⟩
      exact hopen
  rcases spec with _ | ⟨_, _⟩ | ⟨_⟩ | _ <;> cases out <;> first | exact hinsert _ _ _ | cases hs

theorem createLeg_getOrder : ((t.createLeg co spec out).1.getOrder t.nextID).isSome = true := by
  have hinv := createLeg_inv h hco hopen hs
  have hmem : ∃ o ∈ (t.createLeg co spec out).1.orders, o.id = t.nextID := by
    rcases spec with _ | ⟨_, _⟩ | ⟨_⟩ | _ <;> cases out <;> first
      | exact ⟨_, mem_append_right _ mem_cons_self, rfl⟩
      | cases hs
  obtain ⟨o, ho, hid⟩ := hmem
  rw [← hid, hinv.getOrder ho]
  rfl

theorem createLeg_of_stores (hok : out.succeeds spec = true) : ∃ t₁,
    t.createLeg co spec out = (t₁, some (some t.nextID)) ∧
      PlanInv ((co, t.nextID) :: pending) t₁ ∧ t₁.tasks = t.tasks ∧ Keeps 0 t t₁ ∧
      (t₁.getOrder t.nextID).isSome = true :=
  ⟨_, Prod.ext rfl (createLeg_stored hs hok), createLeg_inv h hco hopen hs, createLeg_tasks,
    createLeg_keeps, createLeg_getOrder h hco hopen hs⟩

end

/-! ### 一つの node -/

variable {a : NodeAction} {out : ApplyOutcome}

theorem linkAndAdvance_keeps (supplyID evacID : Option Nat) :
    Keeps task.id t (t.linkAndAdvance task a out supplyID evacID) := by
  have hlink : Keeps task.id t
      (if (supplyID.isSome || evacID.isSome) && out.linkOk then
        t.linkChangeoverNodeOrders task.id supplyID evacID else t) := by
    split
    · exact .link _ _
    · exact .of_eq rfl (Nat.le_refl _) rfl
  unfold linkAndAdvance
  cases a.nextState with
  | some state => exact hlink.trans (.setTaskState _ _ _)
  | none => exact hlink

variable {supplyID : Option Nat}

theorem PlanInv.linkAndAdvance (h : PlanInv pending t) (htask : task ∈ t.tasks)
    (hunlinked : linksOf task = []) {evacID : Option Nat} (hok : pending ≠ [] → out.linkOk = true)
    (hpending : ∀ p ∈ pending, task.changeoverID = p.1 ∧
      (supplyID = some p.2 ∨ evacID = some p.2)) :
    PlanInv [] (t.linkAndAdvance task a out supplyID evacID) := by
  have hslots : ∀ id, task.nextMaterialOrderID ≠ some id ∧
      task.oldMaterialReleaseOrderID ≠ some id := by
    intro id
    have hnot : id ∉ linksOf task := by rw [hunlinked]; exact not_mem_nil
    rw [mem_linksOf] at hnot
    exact not_or.mp hnot
  have hlink : PlanInv []
      (if (supplyID.isSome || evacID.isSome) && out.linkOk then
        t.linkChangeoverNodeOrders task.id supplyID evacID else t) := by
    split
    · refine h.link htask ?_ ?_ fun p hp => .inr (hpending p hp)
      · exact fun _ o _ _ => (hslots o.id).1
      · exact fun _ o _ _ => (hslots o.id).2
    · next hskip =>
      -- 結ばなかったなら、待っている order も無い
      cases pending with
      | nil => exact h
      | cons p rest =>
        refine absurd ?_ hskip
        rw [hok (cons_ne_nil _ _)]
        rcases (hpending p mem_cons_self).2 with rfl | rfl <;> simp
  unfold Tables.linkAndAdvance
  cases a.nextState with
  | some state => exact hlink.setTaskState _ _ _
  | none => exact hlink

theorem applyNodeAction_keeps : Keeps task.id t (t.applyNodeAction co task a out) := by
  have hfailed : ∀ t : Tables, Keeps task.id t (applyNodeAction.failed task out t) :=
    fun t => .setTaskState _ _ _
  unfold applyNodeAction
  have hsupply : Keeps task.id t (t.createLeg co a.supplyOrder out.supply).1 := createLeg_keeps
  split
  · next t₁ heq =>
    rw [heq] at hsupply
    exact hsupply.trans (hfailed _)
  · next t₁ supplyID heq =>
    rw [heq] at hsupply
    split
    · exact hsupply.trans (hfailed _)
    have hevac : Keeps task.id t₁ (t₁.createLeg co a.evacOrder out.evac).1 := createLeg_keeps
    split
    · next t₂ heq₂ =>
      rw [heq₂] at hevac
      exact hsupply.trans (hevac.trans (hfailed _))
    · next t₂ evacID heq₂ =>
      rw [heq₂] at hevac
      exact hsupply.trans (hevac.trans (linkAndAdvance_keeps _ _))

section

variable (hco : co < t.nextID) (hopen : ∀ c ∈ t.changeovers, c.id = co → c.state = .active)
  (htask : task ∈ t.tasks) (htaskco : task.changeoverID = co) (hunlinked : linksOf task = [])
include hco hopen htask htaskco hunlinked

theorem PlanInv.applyEvac (h : PlanInv pending t)
    (hsupply : ∀ p ∈ pending, p.1 = co ∧ supplyID = some p.2)
    (hlinks : pending ≠ [] ∨ out.evac.stores a.evacOrder = true →
      out.evac.succeeds a.evacOrder = true ∧ out.linkOk = true) :
    PlanInv []
      (match t.createLeg co a.evacOrder out.evac with
        | (t₂, none) => applyNodeAction.failed task out t₂
        | (t₂, some evacID) => t₂.linkAndAdvance task a out supplyID evacID) := by
  cases hs : out.evac.stores a.evacOrder with
  | true =>
    obtain ⟨hok, hlinkOk⟩ := hlinks (.inr hs)
    obtain ⟨t₂, heq, hinv, htasks, -⟩ := createLeg_of_stores h hco hopen hs hok
    rw [heq]
    refine hinv.linkAndAdvance (htasks ▸ htask) hunlinked (fun _ => hlinkOk) ?_
    intro p hp
    rcases mem_cons.mp hp with rfl | hp
    · exact ⟨htaskco, .inr rfl⟩
    · obtain ⟨hpco, hpid⟩ := hsupply p hp
      exact ⟨htaskco.trans hpco.symm, .inl hpid⟩
  | false =>
    obtain ⟨evacID, heq, hsome⟩ := createLeg_of_not_stores t co hs
    rw [heq]
    cases evacID with
    | none =>
      cases pending with
      | nil => exact h.setTaskState _ _ _
      | cons p rest =>
        rw [(hlinks (.inl (cons_ne_nil _ _))).1] at hsome
        cases hsome
    | some evacID =>
      refine h.linkAndAdvance htask hunlinked (fun hne => (hlinks (.inl hne)).2) ?_
      intro p hp
      obtain ⟨hpco, hpid⟩ := hsupply p hp
      exact ⟨htaskco.trans hpco.symm, .inl hpid⟩

theorem PlanInv.applyNodeAction (h : PlanInv [] t) (hlinks : out.LinksAll a) :
    PlanInv [] (t.applyNodeAction co task a out) := by
  unfold Tables.applyNodeAction
  cases hs : out.supply.stores a.supplyOrder with
  | true =>
    obtain ⟨hok, hrefetch, hevac, hlinkOk⟩ := hlinks (.inl hs)
    obtain ⟨t₁, heq, hinv, htasks, hkeeps, hread⟩ := createLeg_of_stores h hco hopen hs hok
    have hrefetch : out.refetchOk = true := by
      refine hrefetch ?_
      cases hspec : a.supplyOrder with
      | some spec => rfl
      | none =>
        rw [hspec] at hs
        cases hs
    have hnone : (t₁.getOrder t.nextID).isNone = false := by
      rw [Option.isNone_eq_false_iff]
      exact hread
    have hgo : ¬((some t.nextID).any fun id =>
        !out.refetchOk || (t₁.getOrder id).isNone) = true := by
      simp [hrefetch, hnone]
    rw [heq]
    dsimp only
    rw [if_neg hgo]
    refine hinv.applyEvac (Nat.lt_of_lt_of_le hco hkeeps.nextID) ?_ (htasks ▸ htask) htaskco
      hunlinked ?_ fun _ => ⟨hevac, hlinkOk⟩
    · rw [hkeeps.changeovers]
      exact hopen
    · intro p hp
      rw [mem_singleton.mp hp]
      exact ⟨rfl, rfl⟩
  | false =>
    obtain ⟨supplyID, heq, hsome⟩ := createLeg_of_not_stores t co hs
    rw [heq]
    cases supplyID with
    | none => exact h.setTaskState _ _ _
    | some supplyID =>
      dsimp only
      split
      · exact h.setTaskState _ _ _
      refine h.applyEvac hco hopen htask htaskco hunlinked (forall_mem_nil _) ?_
      rintro (hne | hstores)
      · exact absurd rfl hne
      · obtain ⟨-, -, hevac, hlinkOk⟩ := hlinks (.inr ⟨hsome.symm, hstores⟩)
        exact ⟨hevac, hlinkOk⟩

end

end Apply

/-! ## 始める -/

structure Applying (co : Nat) (nodes : List Nat) (t : Tables) : Prop where
  inv : PlanInv [] t
  fresh : co < t.nextID
  opened : ∀ c ∈ t.changeovers, c.id = co → c.state = .active
  unlinked : ∀ task ∈ t.tasks, task.changeoverID = co → task.processNodeID ∈ nodes →
    linksOf task = []

section Start

variable {t : Tables} {nodes : List Nat}

theorem Applying.step {p : NodeAction × ApplyOutcome} (h : Applying co (p.1.nodeID :: nodes) t)
    (hnode : p.1.nodeID ∉ nodes)
    (hlinks : p.2.taskOk = true → p.1.failed = false → p.2.LinksAll p.1) :
    Applying co nodes (applyPlanned co t p) := by
  have hskip : Applying co nodes t :=
    ⟨h.inv, h.fresh, h.opened, fun task htask hco hnode =>
      h.unlinked task htask hco (mem_cons_of_mem _ hnode)⟩
  unfold applyPlanned
  split
  · next task htaskOk hfind =>
    have htask : task ∈ t.tasks := mem_of_find?_eq_some hfind
    obtain ⟨hco, htasknode⟩ : task.changeoverID = co ∧ task.processNodeID = p.1.nodeID := by
      simpa using List.find?_some hfind
    -- ほかの node の task は、この task ではない
    have hafter : ∀ t' : Tables, PlanInv [] t' → Keeps task.id t t' → Applying co nodes t' := by
      intro t' hinv hkeeps
      refine ⟨hinv, Nat.lt_of_lt_of_le h.fresh hkeeps.nextID, hkeeps.changeovers ▸ h.opened, ?_⟩
      intro task' htask' hco' hnode'
      obtain ⟨task'', htask'', -, hco'', hnode'', hsame⟩ := hkeeps.tasks task' htask'
      rw [hnode''] at hnode'
      rw [hsame]
      · exact h.unlinked task'' htask'' (hco''.symm.trans hco') (mem_cons_of_mem _ hnode')
      · intro hid
        have heq : task'' = task := inj_on_of_nodup_map h.inv.taskIDs htask'' htask hid
        rw [heq, htasknode] at hnode'
        exact hnode hnode'
    split
    · exact hafter _ (h.inv.setTaskState _ _ _) (.setTaskState _ _ _)
    rename_i hfailed
    refine hafter _ ?_ applyNodeAction_keeps
    refine h.inv.applyNodeAction h.fresh h.opened htask hco ?_
      (hlinks htaskOk (Bool.eq_false_iff.mpr hfailed))
    exact h.unlinked task htask hco (by rw [htasknode]; exact mem_cons_self)
  · exact hskip

theorem Applying.run {plan : List (NodeAction × ApplyOutcome)}
    (h : Applying co (plan.map (·.1.nodeID)) t) (hnodes : (plan.map (·.1.nodeID)).Nodup)
    (hlinks : ∀ p ∈ plan, p.2.taskOk = true → p.1.failed = false → p.2.LinksAll p.1) :
    PlanInv [] (t.applyChangeoverPlan co plan) := by
  induction plan generalizing t with
  | nil => exact h.inv
  | cons p rest ih =>
    obtain ⟨hnode, hrest⟩ := nodup_cons.mp hnodes
    exact ih (h.step hnode (hlinks p mem_cons_self)) hrest
      fun q hq => hlinks q (mem_cons_of_mem _ hq)

end Start

/-! ## 取り消す -/

structure Aborted (ids : List Nat) (t t' : Tables) : Prop where
  changeovers : t'.changeovers = t.changeovers
  orders : ∀ o' ∈ t'.orders, ∃ o ∈ t.orders, o'.id = o.id ∧ o'.madeFor = o.madeFor ∧
    (o'.status.isTerminal = false → o.status.isTerminal = false ∧ o.id ∉ ids)

section Cancel

variable {t t' t'' : Tables} {ids ids' : List Nat} {reply : CancelReply}

theorem Aborted.refl : Aborted [] t t :=
  ⟨rfl, fun o ho => ⟨o, ho, rfl, rfl, fun hlive => ⟨hlive, not_mem_nil⟩⟩⟩

theorem Aborted.trans (h : Aborted ids t t') (h' : Aborted ids' t' t'') :
    Aborted (ids ++ ids') t t'' := by
  refine ⟨h'.changeovers.trans h.changeovers, fun o'' ho'' => ?_⟩
  obtain ⟨o', ho', hid', hmade', hlive'⟩ := h'.orders o'' ho''
  obtain ⟨o, ho, hid, hmade, hlive⟩ := h.orders o' ho'
  refine ⟨o, ho, hid'.trans hid, hmade'.trans hmade, fun hl => ?_⟩
  obtain ⟨hl', hnot'⟩ := hlive' hl
  obtain ⟨hl, hnot⟩ := hlive hl'
  refine ⟨hl, fun hmem => ?_⟩
  rcases mem_append.mp hmem with hmem | hmem
  · exact hnot hmem
  · exact hnot' (hid ▸ hmem)

def CancelReply.Aborts (reply : CancelReply) : Prop :=
  reply.listOk = true ∧ ∀ id, reply.readOk id = true ∧ reply.abortOk id = true

theorem PlanInv.abortLinked (h : PlanInv [] t) (hreply : reply.Aborts) (id : Nat) :
    PlanInv [] (t.abortLinked reply id) ∧ Aborted [id] t (t.abortLinked reply id) := by
  unfold Tables.abortLinked
  cases hget : t.getOrder id with
  | none =>
    refine ⟨h, rfl, fun o ho => ⟨o, ho, rfl, rfl, fun hlive => ⟨hlive, ?_⟩⟩⟩
    intro hid
    have hsome := h.getOrder ho
    rw [mem_singleton.mp hid, hget] at hsome
    cases hsome
  | some o =>
    obtain ⟨hread, habort⟩ := hreply.2 id
    dsimp only
    rw [hread, habort]
    cases hterminal : o.status.isTerminal with
    | true =>
      refine ⟨h, rfl, fun o' ho' => ⟨o', ho', rfl, rfl, fun hlive => ⟨hlive, ?_⟩⟩⟩
      intro hid
      have hsome := h.getOrder ho'
      rw [mem_singleton.mp hid, hget] at hsome
      cases hsome
      rw [hterminal] at hlive
      cases hlive
    | false =>
      refine ⟨h.setStatus nofun, rfl, fun o' ho' => ?_⟩
      obtain ⟨o₀, ho₀, rfl⟩ := mem_updateWhere.mp ho'
      refine ⟨o₀, ho₀, ?_⟩
      split
      · exact ⟨rfl, rfl, nofun⟩
      · next hne => exact ⟨rfl, rfl, fun hlive => ⟨hlive, by simpa using hne⟩⟩

theorem PlanInv.abortAll (h : PlanInv [] t) (hreply : reply.Aborts) (ids : List Nat) :
    PlanInv [] (ids.foldl (Tables.abortLinked reply) t) ∧
      Aborted ids t (ids.foldl (Tables.abortLinked reply) t) := by
  induction ids generalizing t with
  | nil => exact ⟨h, .refl⟩
  | cons id rest ih =>
    obtain ⟨hinv, haborted⟩ := h.abortLinked hreply id
    obtain ⟨hinv', haborted'⟩ := ih hinv
    exact ⟨hinv', haborted.trans haborted'⟩

theorem Aborted.setTaskState (h : Aborted ids t t') (id : Nat) (state : NodeTaskState)
    (ok : Bool) : Aborted ids t (t'.setTaskState id state ok) := by
  unfold Tables.setTaskState
  split
  · exact ⟨h.changeovers, h.orders⟩
  · exact h

theorem PlanInv.cancelTasks (h : PlanInv [] t) (hreply : reply.Aborts) (tasks : List NodeTask) :
    PlanInv [] (tasks.foldl (cancelTask reply) t) ∧
      Aborted (tasks.flatMap linksOf) t (tasks.foldl (cancelTask reply) t) := by
  induction tasks generalizing t with
  | nil => exact ⟨h, .refl⟩
  | cons task rest ih =>
    obtain ⟨hinv, haborted⟩ := h.abortAll hreply (linksOf task)
    obtain ⟨hinv', haborted'⟩ := ih (hinv.setTaskState task.id .cancelled reply.taskStateOk)
    exact ⟨hinv', (haborted.setTaskState _ _ _).trans haborted'⟩

variable {c : ChangeoverRow}

theorem PlanInv.linked_mem (h : PlanInv [] t) (ho : o ∈ t.orders) (hc : c ∈ t.changeovers)
    (hactive : c.state = .active) (hmade : o.madeFor = some c.id)
    (hlive : o.status.isTerminal = false) : o.id ∈ (t.tasksOf c.id).flatMap linksOf := by
  rcases h.linked o ho c hc hmade hlive hactive with hp | ⟨task, htask, hco, hlink⟩
  · cases hp
  · refine mem_flatMap.mpr ⟨task, mem_filter.mpr ⟨htask, ?_⟩, hlink⟩
    rw [hco]
    exact beq_self_eq_true _

theorem activeChangeover_some {processID : Nat} (h : t.activeChangeover processID = some c) :
    c ∈ t.changeovers ∧ c.state = .active := by
  have hsome := List.find?_some h
  simp only [Bool.and_eq_true, beq_iff_eq] at hsome
  exact ⟨mem_of_find?_eq_some h, hsome.2⟩

theorem PlanInv.cancel (h : PlanInv [] t) (hreply : reply.Aborts) (processID : Nat) :
    PlanInv [] (t.cancelProcessChangeover processID reply) := by
  unfold cancelProcessChangeover
  cases hfind : t.activeChangeover processID with
  | none => exact h
  | some c =>
    obtain ⟨hc, hactive⟩ := activeChangeover_some hfind
    dsimp only
    rw [hreply.1, if_pos rfl]
    obtain ⟨hinv, haborted⟩ := h.cancelTasks hreply (t.tasksOf c.id)
    split
    · -- 活きている order は元から活きていて結ばれていたので、取り消されている
      refine hinv.setChangeover (by decide) ?_
      intro o' ho' hmade' hlive'
      obtain ⟨o, ho, -, hmade, hlive⟩ := haborted.orders o' ho'
      obtain ⟨hlive, hnot⟩ := hlive hlive'
      exact absurd (h.linked_mem ho hc hactive (hmade ▸ hmade') hlive) hnot
    · exact hinv

end Cancel

/-! ## 締める -/

section Cutover

variable {t : Tables} {reply : CutoverReply}

end Cutover

/-! ## 作業者の頼む order -/

section Request

variable {t : Tables}

theorem PlanInv.createOther (h : PlanInv [] t) (spec : OrderSpec) (out : CreateOutcome) :
    PlanInv [] (t.createPlannedOrder none spec out).1 := by
  have hinsert : ∀ status steps node, PlanInv [] (t.insertOrder none status steps node) :=
    h.insertOrder nofun nofun (List.Subset.refl _)
  unfold createPlannedOrder
  split <;> first | exact h | exact hinsert _ _ _

theorem PlanInv.slot_settled (h : PlanInv [] t) {slot : Option Nat}
    (hslot : t.canRequestOrder slot = true) (spec : OrderSpec) (out : CreateOutcome) :
    ∀ o ∈ (t.createPlannedOrder none spec out).1.orders, o.status.isTerminal = false →
      slot ≠ some o.id := by
  rintro o ho hlive rfl
  obtain ⟨o₀, hget, hterminal⟩ : ∃ o₀, t.getOrder o.id = some o₀ ∧ o₀.status.isTerminal = true := by
    have hany : (t.getOrder o.id).any (·.status.isTerminal) = true := hslot
    exact (Option.any_eq_true _ _).mp hany
  have ho₀ : o₀ ∈ t.orders := mem_of_find?_eq_some hget
  have hid : o₀.id = o.id := by simpa using List.find?_some hget
  have hinv := h.createOther spec out
  -- 入れた後の表でも、同じ番号の order は一つ
  have hmem : o₀ ∈ (t.createPlannedOrder none spec out).1.orders := by
    unfold createPlannedOrder
    split <;> first | exact ho₀ | exact mem_append_left _ ho₀
  have hsame : o₀ = o := inj_on_of_nodup_map hinv.orderIDs hmem ho hid
  rw [hsame, hlive] at hterminal
  cases hterminal

theorem PlanInv.request (h : PlanInv [] t) (processID nodeID : Nat) (supply : Bool)
    (spec : Option OrderSpec) (state : NodeTaskState) (out : ApplyOutcome) :
    PlanInv [] (t.requestOrder processID nodeID supply spec state out) := by
  unfold requestOrder
  split
  · exact h
  rename_i c _
  split
  · exact h
  rename_i task hfind
  have htask : task ∈ t.tasks := mem_of_find?_eq_some hfind
  split
  · exact h
  rename_i hgo
  simp only [Bool.or_eq_true, Bool.not_eq_true', not_or, Bool.not_eq_false] at hgo
  cases spec with
  | none => exact h.setTaskState _ _ _
  | some spec =>
    have hinv := h.createOther spec out.supply
    have hsettled := h.slot_settled hgo.2 spec out.supply
    have htasks : task ∈ (t.createPlannedOrder none spec out.supply).1.tasks := by
      unfold createPlannedOrder
      split <;> exact htask
    dsimp only
    generalize t.createPlannedOrder none spec out.supply = r at hinv hsettled htasks ⊢
    obtain ⟨t₁, id⟩ := r
    cases id with
    | none => exact hinv
    | some id =>
      refine PlanInv.setTaskState ?_ _ _ _
      split
      · split
        · next hsupply =>
          rw [slotOf, if_pos hsupply] at hsettled
          exact hinv.link htasks (fun _ => hsettled) (fun hnone => by cases hnone)
            (forall_mem_nil _)
        · next hevac =>
          rw [slotOf, if_neg hevac] at hsettled
          exact hinv.link htasks (fun hnone => by cases hnone) (fun _ => hsettled)
            (forall_mem_nil _)
      · exact hinv

end Request

/-! ## 出来事の並び -/

def outlives (t : Tables) (state : ChangeoverState) : Bool :=
  (t.changeovers.map (·.state) == [state]) &&
    t.orders.any fun o =>
      o.madeFor == some 1 && o.placesBinAtAny (t.participants 1) && !o.status.isTerminal

end Shingo.Edge.Changeover
