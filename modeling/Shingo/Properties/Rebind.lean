import Shingo.Dispatch.Rebind
import Shingo.Properties.Release

/-!
# 選び直しは入る一歩だけを変える

門は入る一歩の node を選び直し、その一歩を番号で書き換える。ところが
`rebindGatedDropoff` は order の `delivery_node` も書き、操作者の解除は最後の区間の
最後の dropoff を `delivery_node` に合わせる（`patchRedirectSegments`）。入る一歩が
行程の最後の dropoff でないと、別の一歩の行き先が lane の slot に変わる。
-/

namespace Shingo.Dispatch

open Infra Shingo.Core List RebindWorld ResolvedStep

/-! ## block と一歩 -/

def blockNumber (plan : List ResolvedStep) (j : Nat) : Nat :=
  (plan.take j).countP producesBlock + 1

/-- `b` は `plan` の `j` 番目の一歩 `p` の block。load leg は一歩で幾つかの block になる。 -/
structure BlockOf (v : String) (plan : List ResolvedStep) (j : Nat) (p : ResolvedStep)
    (b : OrderBlock) : Prop where
  step : plan[j]? = some p
  produces : p.producesBlock = true
  blockID : ∃ k, b.blockID = loadBlockID v (blockNumber plan j) k

variable {plan : List ResolvedStep} {i j orderID : Nat} {p : ResolvedStep}
  {blocks : List OrderBlock} {plant : Plant}

theorem blockNumber_lt (hp : plan[i]? = some p) (hb : p.producesBlock = true) (hij : i < j) :
    blockNumber plan i < blockNumber plan j := by
  obtain ⟨hlt, hget⟩ := List.getElem?_eq_some_iff.mp hp
  have hstep : (plan.take (i + 1)).countP producesBlock
      = (plan.take i).countP producesBlock + 1 := by
    rw [take_succ_eq_append_getElem hlt, countP_append, hget]
    simp [hb]
  have hle : (plan.take (i + 1)).countP producesBlock
      ≤ (plan.take j).countP producesBlock :=
    (take_prefix_take_left (l := plan) hij).sublist.countP_le
  unfold blockNumber
  omega

variable {v : String}

variable {steps plan : List ResolvedStep} {b : OrderBlock} {g : Segment}

/-- **block の一歩は一つに決まる。** -/
theorem BlockOf.unique {q : ResolvedStep} (h : BlockOf v plan i p b) (h' : BlockOf v plan j q b) :
    i = j := by
  obtain ⟨k, hk⟩ := h.blockID
  obtain ⟨k', hk'⟩ := h'.blockID
  have hn := (loadBlockID_inj (hk.symm.trans hk')).1
  rcases Nat.lt_trichotomy i j with hlt | heq | hlt
  · have := blockNumber_lt h.step h.produces hlt
    omega
  · exact heq
  · have := blockNumber_lt h'.step h'.produces hlt
    omega

/-- **区間の block は、行程の一歩の block で、その一歩の node へ向かう。** -/
theorem blockOf_of_mem_segment {loadSeq : List String}
    {start : Nat} (h : b ∈ stepsToBlocks v (splitAtWait (steps.drop start)).1
      ((steps.take start).countP producesBlock) loadSeq) :
    ∃ j s, BlockOf v steps j s b ∧ b.location = s.node := by
  obtain ⟨i, s, k, hi, hid, hloc⟩ := mem_stepsToBlocksFrom h
  obtain ⟨hlt, hget⟩ := List.getElem?_eq_some_iff.mp hi
  have hpre := (findEnd_eq_splitAtWait (steps.drop start) 0).2
  -- 区間は、どの一歩も block を出す
  have hall : ∀ t ∈ (splitAtWait (steps.drop start)).1, t.producesBlock = true := by
    intro t ht
    exact (mem_filter.mp ((splitAtWait_isPrefix (steps.drop start)).subset ht)).2
  have hstep : steps[start + i]? = some s := by
    rw [← List.getElem?_drop, ← hi, ← hpre, List.getElem?_take_of_lt hlt]
  have hcount : blockNumber steps (start + i)
      = (steps.take start).countP producesBlock + i + 1 := by
    have htake : (steps.drop start).take i = ((splitAtWait (steps.drop start)).1).take i := by
      rw [← hpre, take_take, Nat.min_eq_left (Nat.le_of_lt hlt)]
    have hi' : (((splitAtWait (steps.drop start)).1).take i).countP producesBlock
        = i := by
      rw [countP_eq_length.mpr fun t ht => hall t (mem_of_mem_take ht),
        length_take, Nat.min_eq_left (Nat.le_of_lt hlt)]
    unfold blockNumber
    rw [take_add, countP_append, htake, hi']
  refine ⟨start + i, s, ⟨hstep, ?_, k, ?_⟩, hloc⟩
  · exact hall s (mem_of_getElem? hi)
  · rw [hid, hcount]

theorem blockOf_of_mem_splitSegment {k : Nat} (hg : splitSegment steps k = some g)
    (h : b ∈ stepsToBlocks v g.segment g.blockOffset []) :
    ∃ j s, BlockOf v steps j s b ∧ b.location = s.node := by
  unfold splitSegment at hg
  cases hs : findStart k 0 0 steps with
  | none => rw [hs] at hg; cases hg
  | some start =>
    obtain ⟨hend, htake⟩ := findEnd_eq_splitAtWait (steps.drop start) start
    rw [hs] at hg
    dsimp only at hg
    rw [hend] at hg
    cases hg
    have hseg : (steps.take (start + (splitAtWait (steps.drop start)).1.length)).drop start
        = (splitAtWait (steps.drop start)).1 := by
      rw [drop_take, Nat.add_sub_cancel_left, htake]
    rw [hseg] at h
    exact blockOf_of_mem_segment h

/-! ## 発注の時の行程との一致 -/

/-- 発注の時の行程と、選び直した一歩の node を除いて同じ行程。 -/
structure Agrees (plan : List ResolvedStep) (entries : List Nat) (steps : List ResolvedStep) :
    Prop where
  shape : planShape steps = planShape plan
  nodes : ∀ {j : Nat} {s p : ResolvedStep}, steps[j]? = some s → plan[j]? = some p →
    j ∉ entries → s.node = p.node

theorem Agrees.refl (plan : List ResolvedStep) (entries : List Nat) :
    Agrees plan entries plan where
  shape := rfl
  nodes hs hp _ := by rw [Option.some.inj (hs.symm.trans hp)]

theorem Agrees.mono {entries entries' : List Nat}
    (h : Agrees plan entries steps) (hsub : entries ⊆ entries') : Agrees plan entries' steps where
  shape := h.shape
  nodes hs hp hj := h.nodes hs hp fun hmem => hj (hsub hmem)

variable {entries : List Nat} {o : Order}

/-- **番号で書き換えると、その番号の一歩のほかは一致したまま。** -/
theorem Agrees.applyPlanNode
    (h : Agrees plan entries steps) (node : String) (i : Nat) {want : StepAction}
    (hw : want ≠ .wait) : Agrees plan (i :: entries) (applyPlanNode steps node i want) where
  shape := by rw [applyPlanNode_shape steps node i want hw, h.shape]
  nodes {j s p} hs hp hj := by
    have hne : i ≠ j := fun heq => hj (heq ▸ mem_cons_self)
    have hj' : j ∉ entries := fun hmem => hj (mem_cons_of_mem i hmem)
    have hget : (Dispatch.applyPlanNode steps node i want)[j]? = steps[j]? := by
      unfold Dispatch.applyPlanNode
      split
      · rfl
      split
      · exact List.getElem?_set_ne hne
      · rfl
    rw [hget] at hs
    exact h.nodes hs hp hj'

/-- 送った block は、どれも一歩の block で、選び直した一歩のほかは発注の時の node へ向かう。 -/
def AimsAtPlan (v : String) (plan : List ResolvedStep) (entries : List Nat)
    (blocks : List OrderBlock) : Prop :=
  ∀ b ∈ blocks, (∃ j p, BlockOf v plan j p b)
    ∧ ∀ j p, BlockOf v plan j p b → j ∉ entries → b.location = p.node

theorem AimsAtPlan.mono {entries' : List Nat} (h : AimsAtPlan v plan entries blocks)
    (hsub : entries ⊆ entries') : AimsAtPlan v plan entries' blocks := by
  intro b hb
  exact ⟨(h b hb).1, fun j p hof hj => (h b hb).2 j p hof fun hmem => hj (hsub hmem)⟩

theorem AimsAtPlan.append {xs ys : List OrderBlock} (hx : AimsAtPlan v plan entries xs)
    (hy : AimsAtPlan v plan entries ys) : AimsAtPlan v plan entries (xs ++ ys) := by
  intro b hb
  rcases mem_append.mp hb with hb | hb
  · exact hx b hb
  · exact hy b hb

/-- **一致した行程の一歩の block は、発注の時の行程の同じ一歩の block。** -/
theorem Agrees.aims (h : Agrees plan entries steps)
    (hb : ∀ b ∈ blocks, ∃ j s, BlockOf v steps j s b ∧ b.location = s.node) :
    AimsAtPlan v plan entries blocks := by
  intro b hmem
  obtain ⟨j, s, hof, hloc⟩ := hb b hmem
  have hshape : (planShape plan)[j]? = some s.shape := by
    rw [← h.shape, planShape, List.getElem?_map, hof.step, Option.map_some]
  rw [planShape, List.getElem?_map] at hshape
  obtain ⟨p, hp, hps⟩ := Option.map_eq_some_iff.mp hshape
  have hof' : BlockOf v plan j p b := by
    refine ⟨hp, (congrArg Prod.snd hps).trans hof.produces, ?_⟩
    have hnum : blockNumber plan j = blockNumber steps j := by
      unfold blockNumber
      rw [countP_take_shape h.shape]
    rw [hnum]
    exact hof.blockID
  refine ⟨⟨j, p, hof'⟩, ?_⟩
  intro j' p' hof'' hj
  obtain rfl := hof''.unique hof'
  obtain rfl := Option.some.inj (hof''.step.symm.trans hp)
  rw [hloc]
  exact h.nodes hof.step hp hj

/-! ## 条件 -/

def lastDropoff : List ResolvedStep → Option ResolvedStep
  | [] => none
  | s :: rest => (lastDropoff rest).or (if s.action = .dropoff then some s else none)

/-- 次の区間が最後のものなら、`delivery_node` は空か、その最後の dropoff の node。 -/
def deliveryNodeFits (o : Order) : Bool :=
  (splitSegment o.steps o.waitIndex).all fun g =>
    g.moreWaits || o.deliveryNode == "" || (lastDropoff g.segment).all (·.node == o.deliveryNode)

def FitsWhenSent (s : RebindWorld) : GateAction → Prop
  | .release .operatorRelease _ =>
    (handleOrderRelease s.world.row).isSome = true → deliveryNodeFits s.world.row = true
  | .release .hardRelease _ =>
    (hardReleaseStagedOrder s.world.row).isSome = true → deliveryNodeFits s.world.row = true
  | _ => True

instance (s : RebindWorld) : ∀ a : GateAction, Decidable (FitsWhenSent s a)
  | .release .operatorRelease _ => inferInstanceAs (Decidable (_ → _))
  | .release .hardRelease _ => inferInstanceAs (Decidable (_ → _))
  | .release .gateLoad _ | .release (.rebind ..) _ | .release (.gateTail _) _
  | .release (.releaseOrder ..) _ | .release (.writeWaitIndex ..) _ | .release (.transition ..) _
  | .release (.abort _) _ | .release (.setStatus _) _ | .release (.redirect _) _
  | .rebindGated .. => inferInstanceAs (Decidable True)

theorem patchLastDropoff_self (node : String) : ∀ l : List ResolvedStep,
    (lastDropoff l).all (·.node == node) = true →
      (lastDropoff l = none ∧ patchLastDropoff node l = none)
        ∨ ((lastDropoff l).isSome = true ∧ patchLastDropoff node l = some l) := by
  intro l
  induction l with
  | nil => exact fun _ => .inl ⟨rfl, rfl⟩
  | cons s rest ih =>
    intro h
    rw [lastDropoff] at h ⊢
    rw [patchLastDropoff]
    cases hr : lastDropoff rest with
    | some d =>
      rw [hr, Option.some_or] at h
      obtain ⟨hnone, -⟩ | ⟨-, hp⟩ := ih (by rw [hr]; exact h)
      · rw [hr] at hnone; cases hnone
      · rw [hp]
        exact .inr ⟨rfl, rfl⟩
    | none =>
      rw [hr, Option.none_or] at h
      obtain ⟨-, hp⟩ | ⟨hsome, -⟩ := ih (by rw [hr]; rfl)
      · rw [hp, Option.none_or]
        by_cases hact : s.action = .dropoff
        · rw [if_pos hact] at h ⊢
          rw [if_pos hact]
          have hnode : s.node = node := by simpa using h
          exact .inr ⟨rfl, by rw [← hnode]⟩
        · rw [if_neg hact, if_neg hact]
          exact .inl ⟨rfl, rfl⟩
      · rw [hr] at hsome; cases hsome

/-- **条件の下では、送る区間は行程の区間そのもの。** -/
theorem patchRedirectSegments_of_fits (h : deliveryNodeFits o = true)
    (hg : splitSegment o.steps o.waitIndex = some g) :
    patchRedirectSegments g.segment o.deliveryNode g.moreWaits = g.segment := by
  unfold deliveryNodeFits at h
  rw [hg, Option.all_some] at h
  unfold patchRedirectSegments
  split
  · rfl
  rename_i hn
  simp only [Bool.or_eq_true, decide_eq_true_eq, not_or] at hn
  have hlast : (lastDropoff g.segment).all (·.node == o.deliveryNode) = true := by
    simpa [hn.1, hn.2] using h
  obtain ⟨-, hp⟩ | ⟨-, hp⟩ := patchLastDropoff_self o.deliveryNode g.segment hlast
  · rw [hp, Option.getD_none]
  · rw [hp, Option.getD_some]

/-! ## 守ること -/

def CallAims (v : String) (plan : List ResolvedStep) (entries : List Nat) : ReleasePC → Prop
  | .gate o => o.vendorOrderID = v ∧ Agrees plan entries o.steps
  | .ready o g => AimsAtPlan v plan entries (segmentBlocks o g)
  | .landed _ => True
  | .advanced _ => True
  | .returned => True

/-- row も、門の写しも、送った block も、選び直した一歩のほかは発注の時のまま。 -/
structure RebindInv (v : String) (plan : List ResolvedStep) (entries : List Nat)
    (w : ReleaseWorld) : Prop where
  vendor : w.row.vendorOrderID = v
  row : Agrees plan entries w.row.steps
  calls : ∀ {i : Nat} {pc : ReleasePC}, w.calls[i]? = some pc → CallAims v plan entries pc
  blocks : AimsAtPlan v plan entries w.blocks

theorem RebindInv.created (o : Order) (loadSeq : List String) :
    RebindInv o.vendorOrderID o.steps [] (ReleaseWorld.created o loadSeq) where
  vendor := rfl
  row := Agrees.refl o.steps []
  calls h := by cases h
  blocks := by
    refine (Agrees.refl o.steps []).aims fun b hb => ?_
    have hmem : b ∈ stepsToBlocks o.vendorOrderID (splitAtWait (o.steps.drop 0)).1
        ((o.steps.take 0).countP producesBlock) loadSeq := hb
    exact blockOf_of_mem_segment hmem

section Step

variable {v : String} {plan : List ResolvedStep} {entries entries' : List Nat} {w : ReleaseWorld}

theorem CallAims.mono (hsub : entries ⊆ entries') : ∀ {pc : ReleasePC},
    CallAims v plan entries pc → CallAims v plan entries' pc
  | .gate _, h => ⟨h.1, h.2.mono hsub⟩
  | .ready _ _, h => AimsAtPlan.mono h hsub
  | .landed _, _ => trivial
  | .advanced _, _ => trivial
  | .returned, _ => trivial

section

variable (h : RebindInv v plan entries w)
include h

variable {pc : ReleasePC}

theorem RebindInv.goto (i : Nat) (hpc : CallAims v plan entries' pc) {row : Order}
    (hv : row.vendorOrderID = v) (hrow : Agrees plan entries' row.steps)
    (hsub : entries ⊆ entries') : RebindInv v plan entries' { (w.goto i pc) with row := row } where
  vendor := hv
  row := hrow
  calls hj := by
    rcases getElem?_set_cases hj with ⟨-, rfl⟩ | ⟨-, hj⟩
    · exact hpc
    · exact (h.calls hj).mono hsub
  blocks := h.blocks.mono hsub

theorem RebindInv.returned (i : Nat) : RebindInv v plan entries (w.goto i .returned) :=
  h.goto i (show CallAims v plan entries .returned from trivial) h.vendor h.row
    (List.Subset.refl _)

theorem RebindInv.start (hpc : CallAims v plan entries pc) :
    RebindInv v plan entries (w.start (some pc)) where
  __ := h
  calls hj := by
    rcases getElem?_append_cases hj with hj | ⟨-, rfl⟩
    · exact h.calls hj
    · exact hpc

end

section

variable (h : Agrees plan entries o.steps) (hv : o.vendorOrderID = v)
  (hg : splitSegment o.steps o.waitIndex = some g)
include h hv hg

theorem Agrees.segmentBlocks : AimsAtPlan v plan entries (segmentBlocks o g) := by
  refine h.aims fun b hb => ?_
  rw [Dispatch.segmentBlocks, hv] at hb
  exact blockOf_of_mem_splitSegment hg hb

theorem Agrees.sentSegment (hfits : deliveryNodeFits o = true) : CallAims v plan entries (.ready o
      { g with segment := patchRedirectSegments g.segment o.deliveryNode g.moreWaits }) := by
  rw [patchRedirectSegments_of_fits hfits hg]
  exact h.segmentBlocks hv hg

end

section

variable (h : RebindInv v plan entries w)
include h

theorem RebindInv.releaseOrder (hi : w.calls[i]? = some (.ready o g)) (out : AppendOutcome) :
    RebindInv v plan entries (w.releaseOrder i o g out) := by
  have haims : AimsAtPlan v plan entries (w.blocks ++ segmentBlocks o g) :=
    h.blocks.append (h.calls hi)
  unfold ReleaseWorld.releaseOrder
  dsimp only
  split
  · exact h.returned i
  · cases out with
    | failed => exact h.returned i
    | ok =>
      have hl : RebindInv v plan entries (w.goto i (.landed o)) :=
        h.goto i (show CallAims v plan entries (.landed o) from trivial) h.vendor h.row
          (List.Subset.refl _)
      exact ⟨hl.vendor, hl.row, hl.calls, haims⟩
    | lostReply =>
      have hl := h.returned i
      exact ⟨hl.vendor, hl.row, hl.calls, haims⟩

theorem RebindInv.applyNodeAtStep (hi : w.calls[i]? = some (.gate o)) (retrieve : Bool)
    (node : String) (stepIndex : Nat) (stepsWritten : Bool) :
    RebindInv v plan (stepIndex :: entries)
      (w.applyNodeAtStep i o retrieve node stepIndex stepsWritten) := by
  obtain ⟨hov, ho⟩ := h.calls hi
  have hsub : entries ⊆ stepIndex :: entries := subset_cons_self stepIndex entries
  have hpatch := ho.applyPlanNode node stepIndex
    (show (if retrieve then StepAction.pickup else .dropoff) ≠ .wait by cases retrieve <;> decide)
  unfold ReleaseWorld.applyNodeAtStep
  cases stepsWritten with
  | true =>
    unfold releaseStep
    dsimp only
    rw [hi]
    refine h.goto i ?_ ?_ ?_ hsub
    · exact ⟨by cases retrieve <;> exact hov, by cases retrieve <;> exact hpatch⟩
    · cases retrieve <;> exact h.vendor
    · cases retrieve <;> exact hpatch
  | false =>
    refine h.goto i ?_ ?_ ?_ hsub
    · exact ⟨by cases retrieve <;> exact hov, by cases retrieve <;> exact ho.mono hsub⟩
    · cases retrieve <;> exact h.vendor
    · cases retrieve <;> exact h.row.mono hsub

theorem RebindInv.releaseStep (a : ReleaseAction)
    (keeps : a.keepsPlan = true) (hok : FitsWhenSent ⟨w, entries⟩ (.release a keeps)) :
    RebindInv v plan entries (releaseStep w a) := by
  cases a with dsimp only [Dispatch.releaseStep]
  | operatorRelease =>
    cases hpc : handleOrderRelease w.row with
    | none => exact h
    | some pc =>
      have hfits : deliveryNodeFits w.row = true := hok (by rw [hpc]; rfl)
      obtain ⟨g, hg, rfl⟩ := released_ready (.inl hpc)
      exact h.start (h.row.sentSegment h.vendor hg hfits)
  | hardRelease =>
    cases hpc : hardReleaseStagedOrder w.row with
    | none => exact h
    | some pc =>
      have hfits : deliveryNodeFits w.row = true := hok (by rw [hpc]; rfl)
      obtain ⟨g, hg, rfl⟩ := released_ready (.inr hpc)
      exact h.start (h.row.sentSegment h.vendor hg hfits)
  | gateLoad =>
    exact h.start (show CallAims v plan entries (.gate w.row) from ⟨h.vendor, h.row⟩)
  | rebind i retrieve node stepIndex => cases keeps
  | gateTail i =>
    split
    · rename_i o hi
      obtain ⟨hov, ho⟩ := h.calls hi
      -- 門の追加は `delivery_node` に合わせない
      cases htail : appendGateTail w.row o with
      | none => exact h.returned i
      | some pc =>
        obtain ⟨g, hg, rfl⟩ := appendGateTail_ready htail
        have hcall : CallAims v plan entries (.ready o g) := ho.segmentBlocks hov hg
        exact h.goto i hcall h.vendor h.row (List.Subset.refl _)
    · exact h
  | releaseOrder i out =>
    split
    · rename_i o g hi
      exact h.releaseOrder hi out
    · exact h
  | writeWaitIndex i ok =>
    split
    · rename_i o hi
      split
      · exact h.goto i (show CallAims v plan entries (.advanced o) from trivial) h.vendor h.row
          (List.Subset.refl _)
      · exact h.returned i
    · exact h
  | transition i ok =>
    split
    · split
      · exact h.goto i (show CallAims v plan entries .returned from trivial) h.vendor h.row
          (List.Subset.refl _)
      · exact h.returned i
    · exact h
  | abort i => exact h.returned i
  | setStatus st => exact ⟨h.vendor, h.row, h.calls, h.blocks⟩
  | redirect node => cases keeps

end

end Step

theorem RebindInv.step (s : RebindWorld) (a : GateAction) (h : RebindInv v plan s.entries s.world)
    (hok : FitsWhenSent s a) : RebindInv v plan (gateStep s a).entries (gateStep s a).world := by
  cases a with
  | rebindGated i retrieve tables lane entryIndex stepsWritten =>
    unfold gateStep
    dsimp only
    split
    · rename_i o hi
      split
      · exact h.returned i
      · exact h
      · exact h.applyNodeAtStep hi retrieve _ entryIndex stepsWritten
    · exact h
  | release a keeps => exact h.releaseStep a keeps hok

/-- **選び直しは入る一歩だけを変える。** -/
theorem rebind_keeps_targets (o : Order) (loadSeq : List String) (acts : List GateAction)
    (h : AllSteps gateStep FitsWhenSent (created o loadSeq) acts) :
    ∀ s ∈ visited gateStep (created o loadSeq) acts,
      AimsAtPlan o.vendorOrderID o.steps s.entries s.world.blocks := by
  intro s hs
  have hstep : ∀ s a, RebindInv o.vendorOrderID o.steps s.entries s.world → FitsWhenSent s a →
      RebindInv o.vendorOrderID o.steps (gateStep s a).entries (gateStep s a).world :=
    fun s a => RebindInv.step s a
  exact (h.visited_of_inv hstep (RebindInv.created o loadSeq) s hs).blocks

/-! ## swap -/

def swapTables : StoreTables where
  plant := Plant.vacant
    [{ id := 7, name := "L7", isLane := true },
     { id := 71, name := "S1", parentID := some 7, depth := some 1 },
     { id := 72, name := "S2", parentID := some 7, depth := some 2 },
     { id := 90, name := "PRESS" }] (by decide)

def swapLane : NodeRow := { id := 7, name := "L7", isLane := true }

/--
空の bin を press へ返す swap。門の前で停まり、lane に置き、空の bin を取り、
操作者の合図を待ってから press に置く。
-/
def swapOrder : Order :=
  { id := 5, status := .dispatched, vendorOrderID := "sg-5"
    sourceNode := "PRESS", deliveryNode := "PRESS"
    steps := [{ action := .pickup, node := "PRESS" },
      { action := .wait, node := "G7", waitKind := .lane, waitLane := 7 },
      { action := .dropoff, node := "S1" }, { action := .pickup, node := "E1" },
      { action := .wait, waitKind := .station }, { action := .dropoff, node := "PRESS" }] }

def swapRun : List GateAction :=
  [.release (.setStatus .staged) rfl, .release .gateLoad rfl,
   .rebindGated 0 false swapTables swapLane 2 true, .release (.gateTail 0) rfl,
   .release (.releaseOrder 0 .ok) rfl, .release (.writeWaitIndex 0 true) rfl,
   .release (.transition 0 true) rfl, .release (.setStatus .staged) rfl,
   .release .operatorRelease rfl, .release (.releaseOrder 1 .ok) rfl]

theorem rebind_keeps_targets_gate_append :
    AllSteps gateStep FitsWhenSent (created swapOrder []) (swapRun.take 8)
      ∧ AimsAtPlan "sg-5" swapOrder.steps [2]
          (runSteps gateStep (created swapOrder []) (swapRun.take 8)).world.blocks := by
  refine ⟨?ok, rebind_keeps_targets swapOrder [] (swapRun.take 8) ?ok _
    (mem_visited_runSteps _ _)⟩
  decide

def misdirectedBlock : OrderBlock :=
  { blockID := "sg-5-b5", location := "S2", binTask := "JackUnload" }

/-- **press への dropoff が lane へ送られる。** -/
theorem press_dropoff_sent_to_lane :
    extractEndpoints swapOrder.steps = (swapOrder.sourceNode, swapOrder.deliveryNode)
      ∧ (laneEntryAfterWait swapOrder.steps 0).map (·.2.1) = some 2
      ∧ (runSteps gateStep (created swapOrder []) swapRun).entries = [2]
      ∧ misdirectedBlock
          ∈ (runSteps gateStep (created swapOrder []) swapRun).world.blocks
      ∧ ¬ AimsAtPlan swapOrder.vendorOrderID swapOrder.steps [2]
          (runSteps gateStep (created swapOrder []) swapRun).world.blocks := by
  have hmem : misdirectedBlock
      ∈ (runSteps gateStep (created swapOrder []) swapRun).world.blocks := by decide
  refine ⟨by decide, by decide, by decide, hmem, ?_⟩
  intro h
  have hof : BlockOf "sg-5" swapOrder.steps 5 { action := .dropoff, node := "PRESS" }
      misdirectedBlock := ⟨rfl, rfl, 0, by decide⟩
  have hloc := (h misdirectedBlock hmem).2 5 _ hof (by decide)
  exact absurd hloc (by decide)

/-! ## slot の予約 -/

theorem rebindDropoffRows_answer (v : StoreTables) (order : Order) (lane : NodeRow)
    (releaseOk : Bool) :
    (rebindDropoffRows v order lane releaseOk true).2 = some (rebindGatedDropoff v order lane) := by
  unfold rebindDropoffRows rebindGatedDropoff
  repeat' split
  all_goals simp_all

section

variable (v : StoreTables) (order : Order) (lane : NodeRow)

variable {v order lane}

end

end Shingo.Dispatch
