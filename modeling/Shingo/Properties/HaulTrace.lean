import Mathlib.Data.List.Induction
import Shingo.Dispatch.Rebind
import Shingo.Properties.BinPlacement

/-!
# 行程を辿る robot と、記録された置き場所

済んだ block を一つずつ辿れば、robot が何を持ち、どの bin がどこに置いてあるかが決まる
（`Haul.robot`）。記録がその通りであること（`FollowsRobot`）と、そう言える実行の条件
（`Traceable`）をここに述べる。

`HaulInv` の下で、記録から robot の側が読める（`recordedAt_eq_iff` / `recordedAt_transit_iff`）。
-/

namespace Shingo.Core

open Dispatch List ClaimedBin Function
open Infra

namespace HaulPlan

variable (plan : HaulPlan)

variable (s : Haul)

def pending (r : Resting Nat String) : Bool :=
  !s.finished && r.moved && r.place == plan.order.deliveryNode

/-- `_TRANSIT` に記録されているはずの bin。手に在るものと、納品先に置かれたもの。 -/
def unsettled : List Nat :=
  s.robot.hand.toList ++ (s.robot.resting.filter (plan.pending s)).map Resting.item

def RecordedAsCarried (binID : Nat) : Prop :=
  (s.robot.hand = some binID ∧
    s.ledger.recordedAt binID = s.ledger.plant.nodeIDOf Ledger.transitNodeName) ∨
  ∃ r ∈ s.robot.resting, r.item = binID ∧
    (s.ledger.recordedAt binID = s.ledger.plant.nodeIDOf r.place ∨
      plan.pending s r = true ∧
        s.ledger.recordedAt binID = s.ledger.plant.nodeIDOf Ledger.transitNodeName)
  deriving Decidable

def FollowsRobot : Prop := ∀ c ∈ plan.claimed, plan.RecordedAsCarried s c.binID
  deriving Decidable

def Visits (node : String) : Prop :=
  ∃ s ∈ plan.order.steps, s.action ≠ .wait ∧ s.node = node

@[mk_iff]
structure Ready (w : Ledger) : Prop where
  endpoints : extractEndpoints plan.order.steps =
    (plan.order.sourceNode, plan.order.deliveryNode)
  bins : (plan.claimed.map binID).Nodup
  pickups : ∀ c ∈ plan.claimed, ∃ s ∈ plan.order.steps[c.stepIndex]?,
    s.action = .pickup ∧ s.node = c.nodeName
  names : ∀ s ∈ plan.order.steps, s.action ≠ .wait → s.node ≠ "" ∧ trimSpace s.node = s.node ∧
    (w.plant.nodeIDOf s.node).isSome = true ∧
    w.plant.nodeIDOf s.node ≠ w.plant.nodeIDOf Ledger.transitNodeName
  apart : ∀ s ∈ plan.order.steps, ∀ s' ∈ plan.order.steps, s.action ≠ .wait → s'.action ≠ .wait →
    w.plant.nodeIDOf s.node = w.plant.nodeIDOf s'.node → s.node = s'.node
  transit : (w.plant.nodeIDOf Ledger.transitNodeName).isSome = true
  rows : ∀ c ∈ plan.claimed, ∃ bin ∈ w.plant.bins, bin.id = c.binID ∧
    bin.nodeID = w.plant.nodeIDOf c.nodeName ∧ bin.claimedBy = some plan.order.id ∧
    bin.status ≠ .retired
  only : ∀ bin ∈ w.plant.bins, bin.claimedBy = some plan.order.id →
    bin.id ∈ plan.claimed.map binID

instance (w : Ledger) : Decidable (plan.Ready w) := decidable_of_iff' _ (ready_iff plan w)

/-- block は行程の順に済み、済んだものはもう一度届きうる。order の終わりは最後の block の後。 -/
def InPlanOrder : HaulEvent → Prop
  | .next => s.finished = false ∧ ∃ st ∈ plan.order.steps[s.done]?,
      (s.robot.step (plan.moveAt s.done st)).isSome = true
  | .replay i => i < s.done
  | .finished => s.done = plan.order.steps.length ∧ s.finished = false

instance (s : Haul) : ∀ e, Decidable (plan.InPlanOrder s e)
  | .next => inferInstanceAs (Decidable (_ ∧ _))
  | .replay i => inferInstanceAs (Decidable (i < s.done))
  | .finished => inferInstanceAs (Decidable (_ ∧ _))

def Listed (binID : Nat) (node : String) : Prop :=
  ∃ ob ∈ plan.order.orderBins, ob.binID = binID ∧ ob.nodeName = node
  deriving Decidable

/--
済んだ block から、動いた bin が分かる。

* 取る bin は `orders.bin_id` のものか、その node で取る row が在って、そこに記録されている
* 置き先に、ほかの bin は無い。納品先でない所に置くとき、納品先に置いたままの bin は無い
-/
def StepTraceable (node : String) : StepAction → Prop
  | .pickup => ∀ r ∈ s.robot.resting, r.place = node →
      plan.order.binID = some r.item ∨ plan.Listed r.item node ∧ plan.pending s r = false
  | .dropoff => (∀ r ∈ s.robot.resting, r.place ≠ node) ∧
      (node ≠ plan.order.deliveryNode → ∀ r ∈ s.robot.resting, plan.pending s r = false)
  | .wait => True

instance (s : Haul) (node : String) : ∀ a, Decidable (plan.StepTraceable s node a)
  | .pickup => inferInstanceAs (Decidable (∀ r ∈ s.robot.resting, _))
  | .dropoff => inferInstanceAs (Decidable (_ ∧ _))
  | .wait => .isTrue trivial

/--
もう一度届いた block が、bin を動かさない。

* pickup：`orders.bin_id` の bin が `_TRANSIT` に在り、その node で取る row の bin は
  そこに記録されていない
* dropoff：納品先のものか、`_TRANSIT` に在る bin が一つでない
-/
def ReplayHarmless (node : String) : StepAction → Prop
  | .pickup => (∃ b ∈ plan.unsettled s, plan.order.binID = some b) ∧
      ∀ r ∈ s.robot.resting, r.place = node → plan.pending s r = false → ¬ plan.Listed r.item node
  | .dropoff => node = plan.order.deliveryNode ∨ (plan.unsettled s).length ≠ 1
  | .wait => True

instance (s : Haul) (node : String) : ∀ a, Decidable (plan.ReplayHarmless s node a)
  | .pickup => inferInstanceAs (Decidable (_ ∧ _))
  | .dropoff => inferInstanceAs (Decidable (_ ∨ _))
  | .wait => .isTrue trivial

/-- 置き場所を辿れる実行の条件。終わりの報告は、robot が何も持っていないとき。 -/
def Traceable : HaulEvent → Prop
  | .next => ∀ st ∈ plan.order.steps[s.done]?, plan.StepTraceable s st.node st.action
  | .replay i => ∀ st ∈ plan.order.steps[i]?, plan.ReplayHarmless s st.node st.action
  | .finished => s.robot.hand = none

instance (s : Haul) : ∀ e, Decidable (plan.Traceable s e)
  | .next => inferInstanceAs (Decidable (∀ st ∈ plan.order.steps[s.done]?, _))
  | .replay i => inferInstanceAs (Decidable (∀ st ∈ plan.order.steps[i]?, _))
  | .finished => inferInstanceAs (Decidable (s.robot.hand = none))

end HaulPlan

/-! ## `resolvePerBinDestinations` は robot を辿る -/

variable {claimed : List ClaimedBin} {name node : String} {r : Resting Nat String} {w₀ w : Ledger}
  {c : Carriage Nat String} {st : ResolvedStep} {b : Nat}

theorem claimedMap_foldl_of_notMem (m : String → Option Nat)
    (h : name ∉ claimed.map ClaimedBin.nodeName) :
    claimed.foldl (fun (m : String → Option Nat) cb =>
      update m cb.nodeName (some cb.binID)) m name = m name := by
  induction claimed generalizing m with
  | nil => rfl
  | cons c rest ih =>
    rw [map_cons, mem_cons, not_or] at h
    rw [foldl_cons, ih _ h.2, update_of_ne h.1]

theorem claimedMap_of_sole {c : ClaimedBin} (hc : c ∈ claimed)
    (hsole : ∀ c' ∈ claimed, c'.nodeName = c.nodeName → c' = c) :
    claimedMap claimed c.nodeName = some c.binID := by
  unfold claimedMap
  generalize (fun _ => none : String → Option Nat) = m
  induction claimed generalizing m with
  | nil => cases hc
  | cons c' rest ih =>
    have hrest : ∀ c'' ∈ rest, c''.nodeName = c.nodeName → c'' = c := fun c'' hc'' =>
      hsole c'' (mem_cons_of_mem _ hc'')
    rw [foldl_cons]
    by_cases hmem : c ∈ rest
    · exact ih hmem hrest _
    · obtain rfl : c = c' := (mem_cons.mp hc).resolve_right hmem
      have hname : c.nodeName ∉ rest.map ClaimedBin.nodeName := by
        intro hname
        obtain ⟨c'', hc'', he⟩ := mem_map.mp hname
        exact hmem (hrest c'' hc'' he ▸ hc'')
      rw [claimedMap_foldl_of_notMem _ hname, update_self]

/-- ループの変数は、robot の手と、置いてある bin と、その置き場所。 -/
structure DestinationsAgree (c : Carriage Nat String) (d : DestinationLoop) : Prop where
  carrying : d.carrying = c.hand.getD 0
  atNode : ∀ r ∈ c.resting, d.binAtNode r.place = some r.item
  dest : ∀ r ∈ c.resting, d.dest r.item = if r.moved then some r.place else none

namespace DestinationsAgree

variable {d : DestinationLoop} {all : List Nat}

theorem take (h : DestinationsAgree c d) (htidy : c.Tidy all) (hr : r ∈ c.resting)
    (hact : st.action = .pickup) (hplace : r.place = st.node) :
    DestinationsAgree (c.lift r.item) (d.step st) := by
  have hat : d.binAtNode st.node = some r.item := by rw [← hplace, h.atNode r hr]
  rw [DestinationLoop.step_pickup hact hat]
  refine ⟨rfl, ?_, ?_⟩
  · intro r' hr'
    obtain ⟨hr', hne⟩ := Carriage.mem_lift.mp hr'
    have hplace' : r'.place ≠ st.node := by
      intro he
      exact hne (congrArg Resting.item (htidy.eq_of_place hr' hr (he.trans hplace.symm)))
    exact (update_of_ne hplace' none d.binAtNode).trans (h.atNode r' hr')
  · intro r' hr'
    exact h.dest r' (Carriage.mem_lift.mp hr').1

theorem put (h : DestinationsAgree c d) (htidy : c.Tidy all) (hall : all.Nodup)
    (hhand : c.hand = some b) (hpos : b ≠ 0) (hact : st.action = .dropoff)
    (hfree : ∀ r ∈ c.resting, r.place ≠ st.node) :
    DestinationsAgree { hand := none, resting := ⟨b, st.node, true⟩ :: c.resting } (d.step st) := by
  have hcarry : d.carrying = b := by rw [h.carrying, hhand]; rfl
  rw [DestinationLoop.step_dropoff hact hcarry hpos]
  refine ⟨rfl, ?_, ?_⟩
  · intro r hr
    rcases mem_cons.mp hr with rfl | hr
    · exact update_self st.node (some b) d.binAtNode
    · exact (update_of_ne (hfree r hr) (some b) d.binAtNode).trans (h.atNode r hr)
  · intro r hr
    rcases mem_cons.mp hr with rfl | hr
    · exact update_self b (some st.node) d.dest
    · have hne := Carriage.hand_notMem htidy.items hall hhand hr
      exact (update_of_ne hne (some st.node) d.dest).trans (h.dest r hr)

theorem stay (h : DestinationsAgree c d) (hact : st.action = .wait) :
    DestinationsAgree c (d.step st) := by
  have hstep : d.step st = d := by simp only [DestinationLoop.step, hact]
  rw [hstep]
  exact h

end DestinationsAgree

/-! ## 行程の終わり -/

theorem extractEndpoints_concat (steps : List ResolvedStep) (st : ResolvedStep) :
    extractEndpoints (steps ++ [st]) =
      if st.action = .wait then extractEndpoints steps
      else (if (extractEndpoints steps).1 = "" then st.node else (extractEndpoints steps).1,
        st.node) := by
  unfold extractEndpoints
  rw [foldl_append]
  rfl

theorem extractEndpoints_spec {steps : List ResolvedStep}
    (hne : ∀ s ∈ steps, s.action ≠ .wait → s.node ≠ "") (hex : ∃ s ∈ steps, s.action ≠ .wait) :
    (extractEndpoints steps).1 ≠ "" ∧
      ∃ s ∈ steps, s.action ≠ .wait ∧ s.node = (extractEndpoints steps).2 := by
  induction steps using List.reverseRecOn with
  | nil =>
    obtain ⟨s, hs, -⟩ := hex
    cases hs
  | append_singleton steps st ih =>
    have hst : st ∈ steps ++ [st] := mem_append_right _ (mem_singleton_self st)
    have hne' : ∀ s ∈ steps, s.action ≠ .wait → s.node ≠ "" := fun s hs =>
      hne s (mem_append_left _ hs)
    rw [extractEndpoints_concat]
    by_cases hwait : st.action = .wait
    · rw [if_pos hwait]
      have hex' : ∃ s ∈ steps, s.action ≠ .wait := by
        obtain ⟨s, hs, ha⟩ := hex
        rcases mem_append_last.mp hs with hs | rfl
        · exact ⟨s, hs, ha⟩
        · exact absurd hwait ha
      obtain ⟨hfirst, s, hs, hlast⟩ := ih hne' hex'
      exact ⟨hfirst, s, mem_append_left _ hs, hlast⟩
    · rw [if_neg hwait]
      refine ⟨?_, st, hst, hwait, rfl⟩
      split
      · exact hne st hst hwait
      · assumption

/-! ## robot の側 -/

structure Simulated (plan : HaulPlan) (s : Haul) : Prop where
  tidy : s.robot.Tidy (plan.claimed.map binID)
  visits : ∀ r ∈ s.robot.resting, plan.Visits r.place
  agree : DestinationsAgree s.robot ((plan.order.steps.take s.done).foldl DestinationLoop.step
    { binAtNode := claimedMap plan.claimed })
  last : s.robot.hand = none → (∃ st ∈ plan.order.steps.take s.done, st.action ≠ .wait) →
    ∃ r ∈ s.robot.resting, r.moved = true ∧
      r.place = (extractEndpoints (plan.order.steps.take s.done)).2
  own : plan.order.orderBins = [] → (∀ b, s.robot.hand = some b → plan.order.binID = some b) ∧
    ∀ r ∈ s.robot.resting, r.moved = true → plan.order.binID = some r.item
  settled : s.finished = true → s.robot.hand = none

namespace Simulated

variable {plan : HaulPlan} {s : Haul}

theorem start (hready : plan.Ready w) (hnodes : (plan.claimed.map ClaimedBin.nodeName).Nodup) :
    Simulated plan (plan.start w) where
  tidy := by
    constructor
    · simp [HaulPlan.start, Carriage.items, comp_def]
    · simpa [HaulPlan.start, comp_def] using hnodes
  visits := by
    intro r hr
    obtain ⟨c, hc, rfl⟩ := mem_map.mp hr
    obtain ⟨st, hst, hact, hnode⟩ := hready.pickups c hc
    exact ⟨st, mem_of_getElem? hst, by simp [hact], hnode⟩
  agree := by
    refine ⟨rfl, ?_, ?_⟩
    · intro r hr
      obtain ⟨c, hc, rfl⟩ := mem_map.mp hr
      exact claimedMap_of_sole hc fun c' hc' he => inj_on_of_nodup_map hnodes hc' hc he
    · intro r hr
      obtain ⟨c, -, rfl⟩ := mem_map.mp hr
      rfl
  last := by
    rintro - ⟨st, hst, -⟩
    simp [HaulPlan.start] at hst
  own := by
    refine fun _ => ⟨fun b hb => ?_, fun r hr hmoved => ?_⟩
    · cases hb
    · obtain ⟨c, -, rfl⟩ := mem_map.mp hr
      cases hmoved
  settled := by
    intro h
    cases h

theorem mem_claimed (h : Simulated plan s) (hr : r ∈ s.robot.resting) :
    r.item ∈ plan.claimed.map binID :=
  (Carriage.mem_items h.tidy.items).mpr (.inr ⟨r, hr, rfl⟩)

theorem withLedger (h : Simulated plan s) (w : Ledger) : Simulated plan { s with ledger := w } :=
  ⟨h.tidy, h.visits, h.agree, h.last, h.own, h.settled⟩

theorem take_succ {i : Nat} (hst : plan.order.steps[i]? = some st) :
    plan.order.steps.take (i + 1) = plan.order.steps.take i ++ [st] := by
  rw [take_add_one, hst]
  rfl

variable (hst : plan.order.steps[s.done]? = some st)
include hst

theorem agree_succ
    (h : DestinationsAgree c (((plan.order.steps.take s.done).foldl DestinationLoop.step
        { binAtNode := claimedMap plan.claimed }).step st)) :
    DestinationsAgree c ((plan.order.steps.take (s.done + 1)).foldl DestinationLoop.step
      { binAtNode := claimedMap plan.claimed }) := by
  rw [take_succ hst, foldl_append]
  exact h

theorem pickup (h : Simulated plan s) (hready : plan.Ready w₀) (hfin : s.finished = false)
    (hact : st.action = .pickup) (hempty : s.robot.hand = none) (hr : r ∈ s.robot.resting)
    (hplace : r.place = st.node) (hok : plan.StepTraceable s st.node .pickup) :
    Simulated plan { s with ledger := w, robot := s.robot.lift r.item, done := s.done + 1 } where
  tidy := h.tidy.take hready.bins hempty hr
  visits := fun r' hr' => h.visits r' (Carriage.mem_lift.mp hr').1
  agree := agree_succ hst (h.agree.take h.tidy hr hact hplace)
  last := fun hnone => nomatch hnone
  own := by
    intro hrows
    refine ⟨?_, fun r' hr' => (h.own hrows).2 r' (Carriage.mem_lift.mp hr').1⟩
    rintro b hb
    cases hb
    rcases hok r hr hplace with hb | ⟨⟨ob, hob, -⟩, -⟩
    · exact hb
    · rw [hrows] at hob
      cases hob
  settled := by
    intro hf
    rw [hfin] at hf
    cases hf

theorem dropoff (h : Simulated plan s) (hready : plan.Ready w₀) (hact : st.action = .dropoff)
    (hhand : s.robot.hand = some b) (hok : plan.StepTraceable s st.node .dropoff) :
    Simulated plan { s with
      ledger := w, robot := { resting := ⟨b, st.node, true⟩ :: s.robot.resting }
      done := s.done + 1 } where
  tidy := h.tidy.put hhand hok.1
  visits := by
    intro r hr
    rcases mem_cons.mp hr with rfl | hr
    · exact ⟨st, mem_of_getElem? hst, by simp [hact], rfl⟩
    · exact h.visits r hr
  agree := by
    refine agree_succ hst (h.agree.put h.tidy hready.bins hhand ?_ hact hok.1)
    have hmem := (Carriage.mem_items h.tidy.items).mpr (.inl hhand)
    obtain ⟨c, hc, rfl⟩ := mem_map.mp hmem
    obtain ⟨bin, hbin, hid, -⟩ := hready.rows c hc
    rw [← hid]
    exact w₀.plant.binIDsPos bin hbin
  last := by
    intro _ _
    refine ⟨_, mem_cons_self, rfl, ?_⟩
    rw [take_succ hst, extractEndpoints_concat, if_neg (by simp [hact])]
  own := by
    intro hrows
    refine ⟨fun b hb => (nomatch hb), fun r hr hmoved => ?_⟩
    rcases mem_cons.mp hr with rfl | hr
    · exact (h.own hrows).1 b hhand
    · exact (h.own hrows).2 r hr hmoved
  settled := fun _ => rfl

theorem wait (h : Simulated plan s) (hact : st.action = .wait) :
    Simulated plan { s with ledger := w, done := s.done + 1 } where
  __ := h
  agree := agree_succ hst (h.agree.stay hact)
  last := by
    rintro hempty ⟨st', hst', hne⟩
    rw [take_succ hst] at hst' ⊢
    rw [extractEndpoints_concat, if_pos hact]
    refine h.last hempty ⟨st', ?_, hne⟩
    rcases mem_append_last.mp hst' with hmem | rfl
    · exact hmem
    · exact absurd hact hne

end Simulated

/-! ## 表の側 -/

/-- 取った bin の row はいつも在り、order の claim がそのほかの bin に付くことは無い。 -/
structure Booked (plan : HaulPlan) (w₀ : Ledger) (held : Bool) (w : Ledger) : Prop where
  nodes : w.plant.nodes = w₀.plant.nodes
  rows : ∀ c ∈ plan.claimed, ∃ bin ∈ w.plant.bins, bin.id = c.binID ∧ bin.status ≠ .retired ∧
    (held = true → bin.claimedBy = some plan.order.id)
  only : ∀ bin ∈ w.plant.bins, bin.claimedBy = some plan.order.id →
    bin.id ∈ plan.claimed.map binID

namespace Booked

variable {plan : HaulPlan} {w' : Ledger} {held keep : Bool} {binID nodeID : Nat}

section

variable (h : Booked plan w₀ held w)
include h

theorem relocated (hr : Relocated (plan.claimed.map ClaimedBin.binID) binID nodeID keep w w') :
    Booked plan w₀ (held && keep) w' where
  nodes := hr.nodes.trans h.nodes
  rows := by
    intro c hc
    obtain ⟨bin, hbin, hid, hstatus, hclaim⟩ := h.rows c hc
    by_cases hb : bin.id = binID
    · obtain ⟨bin', hbin', hid', hrow⟩ := hr.moved bin hbin hb
      refine ⟨bin', hbin', hid'.trans hid, hrow.status hstatus, fun hk => ?_⟩
      obtain ⟨hheld, hkeep⟩ := Bool.and_eq_true_iff.mp hk
      rw [hrow.claimedBy hkeep, hclaim hheld]
    · have hmem : bin.id ∈ plan.claimed.map ClaimedBin.binID := by
        rw [hid]
        exact mem_map_of_mem hc
      exact ⟨bin, hr.others bin hbin hmem hb, hid, hstatus,
        fun hk => hclaim (Bool.and_eq_true_iff.mp hk).1⟩
  only := by
    intro bin' hbin' hclaim
    obtain ⟨bin, hbin, hid, hclaim⟩ := hr.claims bin' hbin' _ hclaim
    rw [← hid]
    exact h.only bin hbin hclaim

theorem release : Booked plan w₀ false w :=
  ⟨h.nodes, fun c hc =>
    have ⟨bin, hbin, hid, hstatus, _⟩ := h.rows c hc
    ⟨bin, hbin, hid, hstatus, fun hf => (nomatch hf)⟩, h.only⟩

theorem exists_row (hmem : binID ∈ plan.claimed.map ClaimedBin.binID) :
    ∃ bin ∈ w.plant.bins, bin.id = binID ∧ w.plant.getBin binID = some bin ∧
      w.recordedAt binID = bin.nodeID ∧ bin.status ≠ .retired ∧
      (held = true → bin.claimedBy = some plan.order.id) := by
  obtain ⟨c, hc, rfl⟩ := mem_map.mp hmem
  obtain ⟨bin, hbin, hid, hrow⟩ := h.rows c hc
  rw [← hid]
  exact ⟨bin, hbin, rfl, Plant.getBin_of_mem hbin, Ledger.recordedAt_of_mem hbin, hrow⟩

section

variable (hr : Relocated (plan.claimed.map ClaimedBin.binID) binID nodeID keep w w')
include hr

theorem recordedAt_self
    (hmem : binID ∈ plan.claimed.map ClaimedBin.binID) : w'.recordedAt binID = some nodeID := by
  obtain ⟨bin, hbin, hid, -⟩ := h.exists_row hmem
  exact hr.recordedAt_self hbin hid

theorem recordedAt_other {id : Nat} (hmem : id ∈ plan.claimed.map ClaimedBin.binID)
    (hne : id ≠ binID) : w'.recordedAt id = w.recordedAt id := by
  obtain ⟨bin, hbin, rfl, -⟩ := h.exists_row hmem
  exact hr.recordedAt_other hbin hmem hne

end

theorem nodeIDOf (name : String) : w.plant.nodeIDOf name = w₀.plant.nodeIDOf name := by
  unfold Plant.nodeIDOf
  rw [Plant.getNodeByDotName_congr h.nodes]

end

end Booked

theorem Plant.exists_node {w : Plant} (h : (w.nodeIDOf name).isSome = true) :
    ∃ node, w.getNodeByDotName name = some node ∧ w.getNode node.id = some node ∧
      w.nodeIDOf name = some node.id := by
  unfold Plant.nodeIDOf at h ⊢
  cases hn : w.getNodeByDotName name with
  | none => rw [hn] at h; cases h
  | some node => exact ⟨node, rfl, getNode_of_mem (getNodeByDotName_spec hn).1, rfl⟩

theorem Plant.getNodeByDotName_transit (w : Plant) :
    w.getNodeByDotName Ledger.transitNodeName = w.getNodeByName Ledger.transitNodeName := rfl

/-- 記録された置き場所は、手と納品先に置いた bin が `_TRANSIT`、ほかは置いた node。 -/
structure Matched (plan : HaulPlan) (w₀ : Ledger) (s : Haul) : Prop where
  hand : ∀ b, s.robot.hand = some b →
    s.ledger.recordedAt b = w₀.plant.nodeIDOf Ledger.transitNodeName
  rest : ∀ r ∈ s.robot.resting, s.ledger.recordedAt r.item =
    if plan.pending s r then w₀.plant.nodeIDOf Ledger.transitNodeName
    else w₀.plant.nodeIDOf r.place

structure HaulInv (plan : HaulPlan) (w₀ : Ledger) (s : Haul) : Prop where
  simulated : Simulated plan s
  booked : Booked plan w₀ (!s.finished) s.ledger
  matched : Matched plan w₀ s

namespace HaulPlan.Ready

variable {plan : HaulPlan} {node' : String}

section

variable (h : plan.Ready w₀) (hn : plan.Visits node)
include h hn

theorem ne_blank : node ≠ "" := by
  obtain ⟨st, hst, hact, rfl⟩ := hn
  exact (h.names st hst hact).1

theorem trimmed : trimSpace node = node := by
  obtain ⟨st, hst, hact, rfl⟩ := hn
  exact (h.names st hst hact).2.1

theorem known : (w₀.plant.nodeIDOf node).isSome = true := by
  obtain ⟨st, hst, hact, rfl⟩ := hn
  exact (h.names st hst hact).2.2.1

theorem ne_transit : w₀.plant.nodeIDOf node ≠ w₀.plant.nodeIDOf Ledger.transitNodeName := by
  obtain ⟨st, hst, hact, rfl⟩ := hn
  exact (h.names st hst hact).2.2.2

theorem eq_of_nodeIDOf (hn' : plan.Visits node')
    (he : w₀.plant.nodeIDOf node = w₀.plant.nodeIDOf node') : node = node' := by
  obtain ⟨st, hst, hact, rfl⟩ := hn
  obtain ⟨st', hst', hact', rfl⟩ := hn'
  exact h.apart st hst st' hst' hact hact' he

end

theorem visits_claimed (h : plan.Ready w₀) {c : ClaimedBin} (hc : c ∈ plan.claimed) :
    plan.Visits c.nodeName := by
  obtain ⟨st, hst, hact, hnode⟩ := h.pickups c hc
  exact ⟨st, mem_of_getElem? hst, by simp [hact], hnode⟩

end HaulPlan.Ready

namespace HaulInv

variable {plan : HaulPlan} {s : Haul}

section

variable (h : HaulInv plan w₀ s) (hready : plan.Ready w₀)
include h hready

/-- **node に記録されている bin は、そこに置かれていて、終わりの報告を待っていない。** -/
theorem recordedAt_eq_iff (hb : b ∈ plan.claimed.map binID) (hn : plan.Visits node) :
    s.ledger.recordedAt b = w₀.plant.nodeIDOf node ↔
      ∃ r ∈ s.robot.resting, r.item = b ∧ r.place = node ∧ plan.pending s r = false := by
  constructor
  · intro hrec
    rcases (Carriage.mem_items h.simulated.tidy.items).mp hb with hhand | ⟨r, hr, rfl⟩
    · rw [h.matched.hand b hhand] at hrec
      exact absurd hrec.symm (hready.ne_transit hn)
    · rw [h.matched.rest r hr] at hrec
      split at hrec
      · exact absurd hrec.symm (hready.ne_transit hn)
      rename_i hpend
      exact ⟨r, hr, rfl, hready.eq_of_nodeIDOf (h.simulated.visits r hr) hn hrec,
        by simpa using hpend⟩
  · rintro ⟨r, hr, rfl, rfl, hpend⟩
    rw [h.matched.rest r hr, hpend]
    rfl

/-- **`_TRANSIT` に記録されている bin は、手に在るか、終わりの報告を待っている。** -/
theorem recordedAt_transit_iff (hb : b ∈ plan.claimed.map binID) :
    s.ledger.recordedAt b = w₀.plant.nodeIDOf Ledger.transitNodeName ↔ b ∈ plan.unsettled s := by
  unfold HaulPlan.unsettled
  rw [mem_append, Option.mem_toList, mem_map]
  constructor
  · intro hrec
    rcases (Carriage.mem_items h.simulated.tidy.items).mp hb with hhand | ⟨r, hr, rfl⟩
    · exact .inl hhand
    · rw [h.matched.rest r hr] at hrec
      split at hrec
      · rename_i hpend
        exact .inr ⟨r, mem_filter.mpr ⟨hr, hpend⟩, rfl⟩
      · exact absurd hrec (hready.ne_transit (h.simulated.visits r hr))
  · rintro (hhand | ⟨r, hr, rfl⟩)
    · exact h.matched.hand b hhand
    · obtain ⟨hr, hpend⟩ := mem_filter.mp hr
      rw [h.matched.rest r hr, if_pos hpend]

theorem exists_node (hn : plan.Visits node) :
    ∃ row, s.ledger.plant.getNodeByDotName node = some row ∧
      s.ledger.plant.getNode row.id = some row ∧ w₀.plant.nodeIDOf node = some row.id := by
  have hknown : (s.ledger.plant.nodeIDOf node).isSome = true := by
    rw [h.booked.nodeIDOf]
    exact hready.known hn
  rw [← h.booked.nodeIDOf]
  exact Plant.exists_node hknown

end

theorem follows (h : HaulInv plan w₀ s) : plan.FollowsRobot s := by
  intro c hc
  unfold HaulPlan.RecordedAsCarried
  rw [h.booked.nodeIDOf]
  rcases (Carriage.mem_items h.simulated.tidy.items).mp (mem_map_of_mem hc) with
    hhand | ⟨r, hr, hitem⟩
  · exact .inl ⟨hhand, h.matched.hand _ hhand⟩
  · refine .inr ⟨r, hr, hitem, ?_⟩
    rw [h.booked.nodeIDOf, ← hitem, h.matched.rest r hr]
    split
    · rename_i hpend
      exact .inr ⟨hpend, rfl⟩
    · exact .inl rfl

end HaulInv

end Shingo.Core
