import Shingo.Edge.ChangeoverCutover
import Shingo.Properties.ChangeoverPlan
import Shingo.Properties.ChangeoverRelease
import Mathlib.Data.List.Induction

/-!
# changeover の始めと切り替え

始めに取り消す order を選ぶ分類は、node で見つかった order だけを見て、対の相手を見ない。対の
切り替えの click は、release より先に側を切り替えるので、release に失敗すると次の click で戻る。
立ち上げは途中の締めを終わらせるが、失敗した leg も届いたものとして数える。
-/

namespace Shingo.Edge.Changeover

open Dispatch Infra List

/-! ## 始めの取り消し -/

/-- fleet に渡る前の order。 -/
def Tables.PreFleet (t : Tables) (id : Nat) : Prop :=
  ∃ o, t.getOrder id = some o ∧ changeoverStartActionFor o.status = .cancel

variable {t : Tables} {reply : CancelReply} {w : StartSweep} {id : Nat}

theorem id_of_getOrder {o : LegOrder} (h : t.getOrder id = some o) : o.id = id :=
  beq_iff_eq.mp (find?_some (p := fun q : LegOrder => q.id == id) h)

theorem getOrder_setStatus (t : Tables) (id id' : Nat) (status : OrderStatus) :
    (t.setStatus id status).getOrder id' =
      (t.getOrder id').map fun o => if o.id == id then { o with status } else o := by
  refine find?_updateWhere ?_ t.orders
  exact fun _ => rfl

theorem getOrder_abortLinked {id' : Nat} (hne : id' ≠ id) :
    (t.abortLinked reply id).getOrder id' = t.getOrder id' := by
  unfold Tables.abortLinked
  split
  · rfl
  split
  · rfl
  split
  · rw [getOrder_setStatus]
    cases h : t.getOrder id' with
    | none => rfl
    | some o => simp [id_of_getOrder h, hne]
  · rfl

/-- 見ていない row はそのままで、取り消したのは、見て、生きていて、取り消しに成功した order。 -/
structure SweptInv (t : Tables) (reply : CancelReply) (w : StartSweep) : Prop where
  kept : ∀ id, id ∉ w.seen → w.tables.getOrder id = t.getOrder id
  cancelled : ∀ id, id ∈ w.cancelled ↔ id ∈ w.seen ∧ reply.readOk id = true ∧
    reply.abortOk id = true ∧ (t.getOrder id).any (!·.status.isTerminal) = true

theorem mem_seen_abort {id' : Nat} :
    id' ∈ (w.abort reply id).seen ↔ id' = id ∨ id' ∈ w.seen := by
  unfold StartSweep.abort
  split
  · next hseen =>
    refine ⟨.inr, fun h => h.elim (fun h => ?_) (fun h => h)⟩
    rw [h]
    exact contains_iff_mem.mp hseen
  · exact mem_cons

theorem SweptInv.abort (h : SweptInv t reply w) (id : Nat) :
    SweptInv t reply (w.abort reply id) := by
  unfold StartSweep.abort
  split
  · exact h
  rename_i hseen
  have hnot : id ∉ w.seen := fun hmem => hseen (contains_iff_mem.mpr hmem)
  constructor
  · intro id' hid'
    obtain ⟨hne, hid'⟩ := not_or.mp (mt mem_cons.mpr hid')
    exact (getOrder_abortLinked hne).trans (h.kept id' hid')
  · intro id'
    dsimp only
    rw [h.kept id hnot]
    by_cases hid : id' = id
    · subst hid
      split
      · rename_i hdone
        simpa [Bool.and_eq_true_iff, and_assoc] using hdone
      · rename_i hdone
        simp only [Bool.and_eq_true_iff, and_assoc] at hdone
        exact ⟨fun hmem => absurd ((h.cancelled id').mp hmem).1 hnot,
          fun hall => absurd hall.2 hdone⟩
    · split
      · rw [mem_append_last, mem_cons, h.cancelled]
        simp [hid]
      · rw [mem_cons, h.cancelled]
        simp [hid]

variable {nodes : List String} {stepsOk : Nat → Bool} {sibling : Nat → Option Nat}

theorem sweepOrder_eq (w : StartSweep) (o : LegOrder) :
    w.sweepOrder reply nodes stepsOk sibling o =
      (if cancelsAtStart nodes stepsOk o then o.id :: (sibling o.id).toList else []).foldl
        (StartSweep.abort reply) w := by
  unfold StartSweep.sweepOrder
  split <;> rfl

theorem mem_seen_aborts (ids : List Nat) (w : StartSweep) :
    id ∈ (ids.foldl (StartSweep.abort reply) w).seen ↔ id ∈ w.seen ∨ id ∈ ids := by
  induction ids generalizing w with
  | nil => simp
  | cons x ids ih =>
    rw [foldl_cons, ih, mem_seen_abort, mem_cons]
    tauto

theorem mem_seen_sweep (orders : List LegOrder) (w : StartSweep) :
    id ∈ (orders.foldl (StartSweep.sweepOrder reply nodes stepsOk sibling) w).seen ↔
      id ∈ w.seen ∨ ∃ o ∈ orders, cancelsAtStart nodes stepsOk o = true ∧
        (id = o.id ∨ id ∈ sibling o.id) := by
  induction orders generalizing w with
  | nil => simp
  | cons o orders ih =>
    rw [foldl_cons]
    refine (ih _).trans ?_
    rw [sweepOrder_eq, mem_seen_aborts]
    by_cases hc : cancelsAtStart nodes stepsOk o = true <;> simp [hc, or_assoc]

/-- **取り消すのが fleet に渡る前の order だけなのは、取り消す対の相手もそうであるとき。** -/
theorem start_cancels_pre_fleet (t : Tables) (diffs : List (String × Situation))
    (sibling : Nat → Option Nat) (reply : CancelReply) (stepsOk : Nat → Bool)
    (hids : (t.orders.map (·.id)).Nodup) :
    (∀ id ∈ (cancelPreDispatchAtParticipants t diffs sibling reply stepsOk).cancelled,
      t.PreFleet id) ↔
    (cancelNodeSet diffs ≠ [] → reply.listOk = true → ∀ o ∈ t.orders,
      cancelsAtStart (cancelNodeSet diffs) stepsOk o = true → ∀ id ∈ sibling o.id,
        reply.readOk id = true → reply.abortOk id = true → ∀ p ∈ t.getOrder id,
          p.status.isTerminal = false → changeoverStartActionFor p.status = .cancel) := by
  unfold cancelPreDispatchAtParticipants
  split
  · next hskip =>
    refine ⟨fun _ hnodes hlist => ?_, fun _ => forall_mem_nil _⟩
    simp [hlist, hnodes] at hskip
  rename_i hswept
  obtain ⟨hnodes, hlist⟩ : cancelNodeSet diffs ≠ [] ∧ reply.listOk = true := by simpa using hswept
  have hinv : SweptInv t reply ((t.orders.filter fun o => !o.status.isTerminal).foldl
      (StartSweep.sweepOrder reply (cancelNodeSet diffs) stepsOk sibling) { tables := t }) := by
    refine foldlRecOn _ _ ⟨fun _ _ => rfl, by simp⟩ fun w hw o _ => ?_
    rw [sweepOrder_eq]
    exact foldlRecOn _ _ hw fun v hv id _ => hv.abort id
  have hown : ∀ o ∈ t.orders, t.getOrder o.id = some o := fun o ho =>
    find?_of_nodup_map hids ho
  have hlive : ∀ o : LegOrder, cancelsAtStart (cancelNodeSet diffs) stepsOk o = true →
      changeoverStartActionFor o.status = .cancel := fun o h =>
    beq_iff_eq.mp (Bool.and_eq_true_iff.mp h).1
  have hterm : ∀ {s : OrderStatus}, changeoverStartActionFor s = .cancel →
      s.isTerminal = false := by
    intro s hs
    cases s <;> first | rfl | cases hs
  constructor
  · intro hall _ _ o ho hc id hid hread habort p hp hplive
    have hseen : o ∈ t.orders.filter fun o => !o.status.isTerminal :=
      mem_filter.mpr ⟨ho, by simp [hterm (hlive o hc)]⟩
    have hmem := (hinv.cancelled id).mpr ⟨(mem_seen_sweep _ _).mpr (.inr ⟨o, hseen, hc, .inr hid⟩),
      hread, habort, (Option.any_eq_true ..).mpr ⟨p, hp, by simp [hplive]⟩⟩
    obtain ⟨q, hq, hcancel⟩ := hall id hmem
    cases Option.some.inj (hp.symm.trans hq)
    exact hcancel
  · intro hcond id hmem
    obtain ⟨hseen, hread, habort, hany⟩ := (hinv.cancelled id).mp hmem
    obtain ⟨p, hp, hplive⟩ := (Option.any_eq_true ..).mp hany
    rw [Bool.not_eq_true'] at hplive
    rcases (mem_seen_sweep _ _).mp hseen with hnil | ⟨o, ho, hc, rfl | hid⟩
    · cases hnil
    · exact ⟨o, hown o (mem_filter.mp ho).1, hlive o hc⟩
    · exact ⟨p, hp, hcond hnodes hlist o (mem_filter.mp ho).1 hc id hid hread habort p hp hplive⟩

def startTables (evac : OrderStatus) : Tables where
  orders := [⟨1, .queued, none, "LINE1", none⟩, ⟨2, evac, none, "MARKET", none⟩]

def startSweep (evac : OrderStatus) : StartSweep :=
  cancelPreDispatchAtParticipants (startTables evac) [("LINE1", .swap)]
    (fun id => if id = 1 then some 2 else none) {} fun _ => true

theorem start_cancels_waiting_pair :
    (startSweep .sourcing).cancelled = [1, 2] ∧
      ∀ id ∈ (startSweep .sourcing).cancelled, (startTables .sourcing).PreFleet id :=
  ⟨by decide, (start_cancels_pre_fleet _ _ _ _ _ (by decide)).mpr fun _ _ => by decide⟩

/-- LINE1 で待つ order 1 の相手として、bin を運んでいる order 2 も取り消される。 -/
theorem start_cancels_running_sibling :
    (startSweep .inTransit).cancelled = [1, 2] ∧
      ∀ o ∈ (startTables .inTransit).orders, o.id = 2 →
        changeoverStartActionFor o.status = .block := by
  decide

/-! ## 対の切り替え -/

section

variable {p : SequentialPair} {w : PullWorld} {a : CutoverAttempt} {e : ChangeoverWorld}
  {id : Nat} {o : EdgeOrder}

theorem releaseOrder_sent (ho : e.order id = some o)
    (hwait : o.status ≠ .pending ∧ o.status ≠ .submitted) {r : Option Int}
    {d : Option UOPDisposition} {c : String} {enqueueOk : Bool}
    (hok : (e.releaseOrder id r d c enqueueOk).2 = true) :
    ∃ m ∈ (e.releaseOrder id r d c enqueueOk).1.sent, m.orderUUID = o.uuid := by
  revert hok
  unfold ChangeoverWorld.releaseOrder
  rw [ho]
  dsimp only
  split
  · exact nofun
  rw [if_neg (by simp [hwait])]
  split
  · exact nofun
  refine fun _ => ⟨⟨o.uuid, r, d, c⟩, ?_, rfl⟩
  split <;> exact mem_append_right _ (mem_singleton_self _)

/-- **fleet に渡った order を放す call が成功すれば、release は送られている。** -/
theorem releaseOrderWithLineside_sent (ho : e.order id = some o)
    (hwait : o.status ≠ .pending ∧ o.status ≠ .submitted) {disp : ReleaseDisposition}
    {reply : ReleaseReply} (hok : (e.releaseOrderWithLineside id disp reply).2 = true) :
    ∃ m ∈ (e.releaseOrderWithLineside id disp reply).1.sent, m.orderUUID = o.uuid := by
  obtain rfl : o.id = id := ChangeoverWorld.id_of_order ho
  revert hok
  unfold ChangeoverWorld.releaseOrderWithLineside
  rw [ho]
  dsimp only
  split
  · exact releaseOrder_sent ho hwait
  split
  · exact nofun
  split
  · exact releaseOrder_sent ho hwait
  split
  · exact releaseOrder_sent ho hwait
  · exact nofun
  split
  · exact releaseOrder_sent ho hwait
  unfold ChangeoverWorld.releaseOrderWithFullLineside
  dsimp only
  split
  · exact nofun
  refine releaseOrder_sent ?_ hwait
  rw [ChangeoverWorld.finalizeRelease_order]
  exact ho

/-- line は始めに止まっていた側から取り、待っている order の release は送られている。 -/
def SequentialPair.CutOver (p : SequentialPair) (w w' : PullWorld) (uuid : String) : Prop :=
  (∃ m ∈ w'.edge.sent, m.orderUUID = uuid) ∧
    w'.activePull (resolveSequentialActivePull p.core p.paired w.activePull).1 = true ∧
    w'.activePull (resolveSequentialActivePull p.core p.paired w.activePull).2 = false
  deriving Decidable

theorem activePull_cutoverStep {nodes : Nat → Option String} {act : CutoverAction}
    (h : ∀ a, act = .click a → a.readsOk = false ∨ a.flipOk = false) :
    (cutoverStep p nodes w act).activePull = w.activePull := by
  cases act with
  | edge a => rfl
  | click a =>
    rcases h a rfl with h | h
    · simp [cutoverStep, sequentialChangeoverCutover, h]
    · simp [cutoverStep, sequentialChangeoverCutover, h]

theorem sequentialChangeoverCutover_ok (hruntime : ∀ n, a.runtimeOk n = true)
    (ho : w.edge.order p.orderID = some o)
    (hwait : o.status ≠ .pending ∧ o.status ≠ .submitted)
    (h : (sequentialChangeoverCutover p w a).2 = true) : p.paired ≠ "" ∧
      (sequentialChangeoverCutover p w a).1.activePull = Function.update
        (Function.update w.activePull
          (resolveSequentialActivePull p.core p.paired w.activePull).1 true)
        (p.claimPair (resolveSequentialActivePull p.core p.paired w.activePull).1) false ∧
      ∃ m ∈ (sequentialChangeoverCutover p w a).1.edge.sent, m.orderUUID = o.uuid := by
  revert h
  unfold sequentialChangeoverCutover
  simp only [hruntime, Bool.true_and]
  split
  · exact nofun
  rename_i pull hflip
  intro hok
  split at hflip
  · rename_i hread
    unfold SequentialPair.flipABNode at hflip
    split at hflip
    · cases hflip
    · cases hflip
      refine ⟨?_, rfl, releaseOrderWithLineside_sent ho hwait hok⟩
      intro hempty
      simp [resolveSequentialActivePull, hempty] at hread
  · cases hflip

end

/-- **切り替える前に失敗した click は、やり直してよい。** -/
theorem retried_cutover_flips (p : SequentialPair) (nodes : Nat → Option String) (w : PullWorld)
    (acts : List CutoverAction) (last : CutoverAttempt) (o : EdgeOrder) (hne : p.core ≠ p.paired)
    (hpair : p.claimPair p.core = p.paired ∧ p.claimPair p.paired = p.core)
    (hearly : ∀ act ∈ acts, ∀ a, act = .click a → a.readsOk = false ∨ a.flipOk = false)
    (hruntime : ∀ n, last.runtimeOk n = true)
    (ho : (runSteps (cutoverStep p nodes) w acts).edge.order p.orderID = some o)
    (hwait : o.status ≠ .pending ∧ o.status ≠ .submitted)
    (hok : (sequentialChangeoverCutover p (runSteps (cutoverStep p nodes) w acts) last).2 = true) :
    p.CutOver w (sequentialChangeoverCutover p (runSteps (cutoverStep p nodes) w acts) last).1
      o.uuid := by
  have hsame : (runSteps (cutoverStep p nodes) w acts).activePull = w.activePull := by
    refine foldlRecOn acts _ (motive := fun v : PullWorld => v.activePull = w.activePull) rfl ?_
    intro v hv act hact
    rw [activePull_cutoverStep (hearly act hact), hv]
  obtain ⟨hpaired, hpull, hsent⟩ := sequentialChangeoverCutover_ok hruntime ho hwait hok
  refine ⟨hsent, ?_⟩
  rw [hpull, hsame]
  unfold resolveSequentialActivePull
  rw [if_neg hpaired]
  split
  · simp [hpair, Function.update_of_ne hne]
  split
  · simp [hpair, Function.update_of_ne hne.symm]
  · simp [hpair, Function.update_of_ne hne]

def linePair : SequentialPair where
  core := "A"
  paired := "B"
  claimPair := fun n => if n = "A" then "B" else if n = "B" then "A" else ""
  orderID := 8

/-- line は B から取り、order 8 は待ちで止まっている。 -/
def pullingB : PullWorld where
  activePull := fun n => n == "B"
  edge :=
    { activeChangeover := some 1, tasks := [], orders := [⟨8, "U8", .staged, none, none⟩],
      runtime := fun _ => {} }

theorem retried_cutover_flips_to_stocked :
    linePair.CutOver pullingB (sequentialChangeoverCutover linePair
      (runSteps (cutoverStep linePair fun _ => none) pullingB
        [.click { readsOk := false }, .click { flipOk := false }]) {}).1 "U8" := by
  refine retried_cutover_flips linePair (fun _ => none) pullingB _ {} ⟨8, "U8", .staged, none, none⟩
    (by decide) (by decide) ?_ (fun _ => rfl) rfl (by decide) rfl
  rintro act hact a rfl
  rcases mem_cons.mp hact with h | h
  · cases h
    exact .inl rfl
  · cases mem_singleton.mp h
    exact .inr rfl

/-- release に一度失敗すると、次の click は B に戻す。 -/
theorem retried_release_flips_back :
    let refused : CutoverAttempt := { reply := { enqueueOk := false } }
    (sequentialChangeoverCutover linePair pullingB refused).2 = false ∧
      (sequentialChangeoverCutover linePair
        (sequentialChangeoverCutover linePair pullingB refused).1 {}).2 = true ∧
      ¬ linePair.CutOver pullingB (sequentialChangeoverCutover linePair
        (sequentialChangeoverCutover linePair pullingB refused).1 {}).1 "U8" := by
  decide

/-! ## 立ち上げと、その場の handler -/

/-- その場の handler が、終わった supply に残す state。 -/
def EndedLeg.supplyLeaves (leg : EndedLeg) (situation : Situation) : NodeTaskState :=
  match leg.status, situation, leg.reason with
  | .confirmed, _, _ => if leg.inboundStaging then .staged else .released
  | .skipped, _, _ => .released
  | .cancelled, _, _ => .abandoned
  | .failed, .drop, .noBin => .lineCleared
  | .failed, .drop, .capacity => .capacityBlocked
  | .failed, _, _ => .error

/-- 古い bin を運び去る order でない evac。届けても、task には書かない。 -/
def EndedLeg.silent (leg : EndedLeg) : Bool :=
  leg.orderType != .move && leg.orderType != .complex

/-- その場の handler が、終わった evac に残す state。 -/
def EndedLeg.evacLeaves (leg : EndedLeg) (situation : Situation) (state : NodeTaskState) :
    NodeTaskState :=
  match leg.status with
  | .confirmed =>
    if leg.silent then state
    else if leg.orderType == .complex && (situation == .swap || situation == .evacuate) then
      .released
    else if state.isTerminal situation then state
    else .lineCleared
  | .skipped => .lineCleared
  | .cancelled | .failed => leg.supplyLeaves situation

section

variable {task : NodeTask} {leg : EndedLeg}

theorem legEnded_supply (hs : task.nextMaterialOrderID = some leg.id)
    (he : task.oldMaterialReleaseOrderID ≠ some leg.id) :
    legEnded task leg = { task with state := leg.supplyLeaves task.situation } := by
  obtain ⟨id, co, node, situation, state, next, old⟩ := task
  obtain ⟨leg, status, type, inbound, reason⟩ := leg
  cases status with
  | confirmed =>
    cases inbound <;> simp_all [legEnded, handleNodeOrderCompleted, EndedLeg.supplyLeaves]
  | failed =>
    cases situation <;> cases reason <;>
      simp_all [legEnded, handleNodeOrderCompleted, handleNodeOrderFailed, EndedLeg.supplyLeaves]
  | cancelled => simp_all [legEnded, handleNodeOrderCompleted, EndedLeg.supplyLeaves]
  | skipped => simp_all [legEnded, handleNodeOrderCompleted, handleSkipped, EndedLeg.supplyLeaves]

theorem legEnded_evac (he : task.oldMaterialReleaseOrderID = some leg.id)
    (hs : task.nextMaterialOrderID ≠ some leg.id) :
    legEnded task leg = { task with state := leg.evacLeaves task.situation task.state } := by
  obtain ⟨id, co, node, situation, state, next, old⟩ := task
  obtain ⟨leg, status, type, inbound, reason⟩ := leg
  cases status with
  | confirmed =>
    cases type <;>
      simp_all [legEnded, handleNodeOrderCompleted, EndedLeg.evacLeaves, EndedLeg.silent]
  | failed =>
    cases situation <;> cases reason <;>
      simp_all [legEnded, handleNodeOrderCompleted, handleNodeOrderFailed, EndedLeg.evacLeaves,
        EndedLeg.supplyLeaves]
  | cancelled =>
    simp_all [legEnded, handleNodeOrderCompleted, EndedLeg.evacLeaves, EndedLeg.supplyLeaves]
  | skipped => simp_all [legEnded, handleNodeOrderCompleted, handleSkipped, EndedLeg.evacLeaves]

end

/-- supply は、task の state の待つ通りに終わった。 -/
def supplyAgrees (state : NodeTaskState) (situation : Situation) (evacEnded : Bool)
    (leg : EndedLeg) : Prop :=
  match state with
  | .stagingRequested => leg.status = .confirmed ∧ leg.inboundStaging = true
  | .releaseRequested =>
    leg.status = .skipped ∨ leg.status = .confirmed ∧ leg.inboundStaging = false
  | .emptyRequested => evacEnded = true ∧ leg.supplyLeaves situation = .lineCleared
  | state => leg.supplyLeaves situation = state

/-- evac は、task の state の待つ通りに終わった。 -/
def evacAgrees (state : NodeTaskState) (situation : Situation) (supplyEnded : Bool)
    (leg : EndedLeg) : Prop :=
  match state with
  | .stagingRequested => leg.status = .confirmed ∧ leg.silent = true
  | .releaseRequested => leg.status = .confirmed ∧ (leg.silent = true ∨ supplyEnded = true)
  | .emptyRequested => leg.evacLeaves situation .emptyRequested = .lineCleared
      ∨ supplyEnded = true ∧ leg.status = .confirmed ∧ leg.silent = true
  | state => leg.evacLeaves situation state = state

section

variable (state : NodeTaskState) (situation : Situation) (s e : EndedLeg)

theorem supplyLeaves_cases : (s.supplyLeaves situation = .staged ↔
      s.status = .confirmed ∧ s.inboundStaging = true) ∧
    (s.supplyLeaves situation = .released ↔
      s.status = .skipped ∨ s.status = .confirmed ∧ s.inboundStaging = false) ∧
    (s.supplyLeaves situation = .lineCleared → situation = .drop) ∧
    s.supplyLeaves situation ≠ .emptyRequested := by
  obtain ⟨id, status, type, inbound, reason⟩ := s
  cases status <;> cases situation <;> cases reason <;> cases inbound <;>
    simp [EndedLeg.supplyLeaves]

theorem supply_only : recoveredState state true false = s.supplyLeaves situation ↔
    supplyAgrees state situation false s := by
  obtain ⟨hstaged, hreleased, -, hempty⟩ := supplyLeaves_cases situation s
  rw [eq_comm]
  cases state <;> simp [recoveredState, supplyAgrees, hstaged, hreleased, hempty]

theorem evacLeaves_eq_self (hstate : state = .stagingRequested ∨ state = .releaseRequested ∨
    state = .staged) : e.evacLeaves situation state = state ↔
      e.status = .confirmed ∧ e.silent = true := by
  obtain ⟨id, status, type, inbound, reason⟩ := e
  cases status with
  | confirmed =>
    rcases hstate with rfl | rfl | rfl <;> cases type <;> cases situation <;>
      simp [EndedLeg.evacLeaves, EndedLeg.silent, NodeTaskState.isTerminal]
  | failed =>
    rcases hstate with rfl | rfl | rfl <;> cases situation <;> cases reason <;>
      simp [EndedLeg.evacLeaves, EndedLeg.supplyLeaves]
  | cancelled | skipped =>
    rcases hstate with rfl | rfl | rfl <;> simp [EndedLeg.evacLeaves, EndedLeg.supplyLeaves]

theorem evacLeaves_released : e.evacLeaves situation .released = .released ↔
    e.status = .confirmed := by
  obtain ⟨id, status, type, inbound, reason⟩ := e
  cases status with
  | failed =>
    cases situation <;> cases reason <;> simp [EndedLeg.evacLeaves, EndedLeg.supplyLeaves]
  | _ => simp [EndedLeg.evacLeaves, EndedLeg.supplyLeaves, NodeTaskState.isTerminal]

theorem evacLeaves_lineCleared : e.evacLeaves .drop .lineCleared = .lineCleared ↔
    e.evacLeaves .drop .emptyRequested = .lineCleared ∨
      e.status = .confirmed ∧ e.silent = true := by
  obtain ⟨id, status, type, inbound, reason⟩ := e
  cases status <;> cases h : EndedLeg.silent ⟨id, _, type, inbound, reason⟩ <;>
    simp [EndedLeg.evacLeaves, NodeTaskState.isTerminal, h]

theorem evac_only : recoveredState state false true = e.evacLeaves situation state ↔
    evacAgrees state situation false e := by
  rw [eq_comm]
  cases state with
  | stagingRequested => simp [recoveredState, evacAgrees, evacLeaves_eq_self]
  | releaseRequested => simp [recoveredState, evacAgrees, evacLeaves_eq_self]
  | _ => simp [recoveredState, evacAgrees]

theorem both_ended : (recoveredState state true true =
        e.evacLeaves situation (s.supplyLeaves situation) ∧
      recoveredState state true true = s.supplyLeaves situation) ↔
    supplyAgrees state situation true s ∧ evacAgrees state situation true e := by
  obtain ⟨hstaged, hreleased, hdrop, -⟩ := supplyLeaves_cases situation s
  -- 二つ目の順では supply が後に書くので、evac は supply の残した state の上に書く
  have hover : (recoveredState state true true = e.evacLeaves situation (s.supplyLeaves situation) ∧
      recoveredState state true true = s.supplyLeaves situation) ↔
    s.supplyLeaves situation = recoveredState state true true ∧
      e.evacLeaves situation (recoveredState state true true) = recoveredState state true true := by
    grind
  rw [hover]
  cases state with
  | stagingRequested => simp [recoveredState, supplyAgrees, evacAgrees, hstaged, evacLeaves_eq_self]
  | releaseRequested =>
    simp [recoveredState, supplyAgrees, evacAgrees, hreleased, evacLeaves_released]
  | emptyRequested =>
    simp only [recoveredState, supplyAgrees, evacAgrees, if_true, true_and]
    refine and_congr_right fun h => ?_
    rw [hdrop h]
    exact evacLeaves_lineCleared e
  | _ => simp [recoveredState, supplyAgrees, evacAgrees]

end

/-- 片方の leg が終わったかは、終わった leg の中にその id があるか。 -/
theorem any_ended {legID : Option Nat} {mine : Option EndedLeg} {legs : List EndedLeg}
    (h : ∀ leg, leg ∈ mine ↔ leg ∈ legs ∧ legID = some leg.id) :
    legID.any (fun id => legs.any (id == ·.id)) = mine.isSome := by
  rw [Bool.eq_iff_iff, Option.any_eq_true, Option.isSome_iff_exists]
  constructor
  · rintro ⟨id, hid, hany⟩
    obtain ⟨leg, hleg, heq⟩ := any_eq_true.mp hany
    exact ⟨leg, (h leg).mpr ⟨hleg, beq_iff_eq.mp heq ▸ hid⟩⟩
  · rintro ⟨leg, hmine⟩
    obtain ⟨hleg, hid⟩ := (h leg).mp hmine
    exact ⟨leg.id, hid, any_eq_true.mpr ⟨leg, hleg, beq_self_eq_true _⟩⟩

theorem reconcileNodeTask_ended {task : NodeTask} {supply evac : Option EndedLeg}
    (hids : ∀ id, task.nextMaterialOrderID = some id → task.oldMaterialReleaseOrderID ≠ some id)
    (hs : ∀ leg ∈ supply, task.nextMaterialOrderID = some leg.id)
    (he : ∀ leg ∈ evac, task.oldMaterialReleaseOrderID = some leg.id) (legs : List EndedLeg)
    (hlegs : ∀ leg, leg ∈ legs ↔ leg ∈ supply ∨ leg ∈ evac) :
    reconcileNodeTask task (fun id => legs.any (id == ·.id)) =
      recoveredState task.state supply.isSome evac.isSome := by
  unfold reconcileNodeTask
  congr 1
  · refine any_ended fun leg => ⟨fun h => ⟨(hlegs leg).mpr (.inl h), hs leg h⟩, ?_⟩
    rintro ⟨hleg, hid⟩
    exact ((hlegs leg).mp hleg).resolve_right fun h => hids _ hid (he leg h)
  · refine any_ended fun leg => ⟨fun h => ⟨(hlegs leg).mpr (.inr h), he leg h⟩, ?_⟩
    rintro ⟨hleg, hid⟩
    exact ((hlegs leg).mp hleg).resolve_left fun h => hids _ (hs leg h) hid

/-- **立ち上げがその場の handler と同じ state にするのは、終わった leg が待つ通りに終わったとき。** -/
theorem recovery_agrees (task : NodeTask) (supply evac : Option EndedLeg)
    (hids : ∀ id, task.nextMaterialOrderID = some id → task.oldMaterialReleaseOrderID ≠ some id)
    (hs : ∀ leg ∈ supply, task.nextMaterialOrderID = some leg.id)
    (he : ∀ leg ∈ evac, task.oldMaterialReleaseOrderID = some leg.id) :
    (∀ legs ∈ [supply.toList ++ evac.toList, evac.toList ++ supply.toList],
      reconcileNodeTask task (fun id => legs.any (id == ·.id))
        = (legs.foldl legEnded task).state) ↔
    (∀ leg ∈ supply, supplyAgrees task.state task.situation evac.isSome leg) ∧
      ∀ leg ∈ evac, evacAgrees task.state task.situation supply.isSome leg := by
  have hrec := reconcileNodeTask_ended hids hs he
  rw [forall_mem_cons, forall_mem_singleton, hrec _ (by simp), hrec _ (by simp [or_comm])]
  cases supply with
  | none =>
    cases evac with
    | none => cases hstate : task.state <;> simp [recoveredState, hstate]
    | some e =>
      have hne : task.nextMaterialOrderID ≠ some e.id := fun h => hids _ h (he e rfl)
      simpa [legEnded_evac (he e rfl) hne] using evac_only task.state task.situation e
  | some s =>
    have hold : task.oldMaterialReleaseOrderID ≠ some s.id := hids _ (hs s rfl)
    have hsupply := legEnded_supply (hs s rfl) hold
    cases evac with
    | none => simpa [hsupply] using supply_only task.state task.situation s
    | some e =>
      have hnext : task.nextMaterialOrderID ≠ some e.id := fun h => hids _ h (he e rfl)
      have hse : (legEnded (legEnded task s) e).state
          = e.evacLeaves task.situation (s.supplyLeaves task.situation) := by
        rw [hsupply, legEnded_evac]
        · exact he e rfl
        · exact hnext
      have hes : (legEnded (legEnded task e) s).state = s.supplyLeaves task.situation := by
        rw [legEnded_evac (he e rfl) hnext, legEnded_supply]
        · exact hs s rfl
        · exact hold
      simpa [hse, hes] using both_ended task.state task.situation s e

def stagingTask : NodeTask := ⟨1, 1, 1, .swap, .stagingRequested, some 8, some 9⟩

def supplyEnds (status : FinalStatus) : EndedLeg := { id := 8, status, inboundStaging := true }

theorem recovery_agrees_confirmed :
    reconcileNodeTask stagingTask (fun id => [supplyEnds .confirmed].any (id == ·.id))
      = ([supplyEnds .confirmed].foldl legEnded stagingTask).state :=
  (recovery_agrees stagingTask (some (supplyEnds .confirmed)) none (by decide) (by decide)
    (by decide)).mpr ⟨by simp [supplyAgrees, stagingTask, supplyEnds], by simp⟩ _ mem_cons_self

/-- **失敗した supply も、取り消された supply も、飛ばされた supply も、立ち上げは staged にする。** -/
theorem recovery_stages_dead_leg :
    (∀ status, reconcileNodeTask stagingTask (· == (supplyEnds status).id) = .staged) ∧
    (legEnded stagingTask (supplyEnds .failed)).state = .error ∧
    (legEnded stagingTask (supplyEnds .cancelled)).state = .abandoned ∧
    (legEnded stagingTask (supplyEnds .skipped)).state = .released :=
  ⟨fun _ => rfl, by decide⟩

end Shingo.Edge.Changeover
