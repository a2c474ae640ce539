import Shingo.Dispatch.DigDwell
import Shingo.Infra.Run
import Shingo.Properties.Segments

/-!
# 待っている leg の行き先は一度だけ選ばれる

lane の中で待つ leg の走査が、どこで落ちても、どの書き込みが失敗しても、
何度やり直しても、次が成り立つ（`dwell_destination_once`）。

* 保存された plan の、lane の wait の後ろにある dropoff は高々一つ。
* fleet に足した区間の dropoff は、そのときの delivery_node と同じ node で、
  leg がその slot の予約を持っている。

要は、plan を書いた leg は二度と候補にならないことである（`gateStagedForLane_decided`）。
走査は plan の dropoff を「lane に入る一歩」と読み、掘っている lane の中に無いので放っておく。
-/

namespace Shingo.Dispatch

open Shingo.Core Infra List ResolvedStep

/-! ## 待っている leg -/

/--
lane の中で行き先を待っている leg。plan は、その lane の wait で終わる。

lane に印があれば、`pre` には門の wait も入る。`nodes.name` は UNIQUE で、
点は `PARENT.CHILD` の区切りにだけ使うので、node は自分の名前で引ける。
-/
structure DwellingLeg where
  plant : Plant
  lane : NodeRow
  order : Order
  pre : List ResolvedStep
  wait : ResolvedStep
  namesResolve : ∀ n ∈ plant.nodes, plant.getNodeByDotName n.name = some n
  plan : order.steps = pre ++ [wait]
  isWait : wait.isWait = true
  laneWait : wait.waitKind = .lane ∧ wait.waitLane = lane.id
  atWait : order.waitIndex = pre.countP ResolvedStep.isWait
  noDropoff : ∀ s ∈ pre, s.action ≠ .dropoff
  undecided : order.deliveryNode = ""

def DwellWorld.start (leg : DwellingLeg) : DwellWorld := { plant := leg.plant, row := leg.order }

variable {leg : DwellingLeg} {lane dest : NodeRow} {w : Plant}

theorem digDwellPlan_dwells {order : Order} {source : NodeRow} {steps : List ResolvedStep}
    (names : ∀ n ∈ w.nodes, w.getNodeByDotName n.name = some n)
    (h : digDwellPlan w order source = .ok (some (steps, lane))) :
    ∃ leg : DwellingLeg, leg.plant = w ∧ leg.lane = lane ∧
      leg.order = { order with steps, waitIndex := 0 } := by
  unfold digDwellPlan at h
  split at h
  · cases h
  rename_i hawait
  have hd : order.deliveryNode = "" := by
    simp only [awaitsReleaseTimeDestination, Bool.not_eq_false, Bool.and_eq_true,
      beq_iff_eq] at hawait
    exact hawait.2
  split at h
  · cases h
  split at h
  · cases h
  rename_i slot _
  cases h
  let wait : ResolvedStep :=
    { action := .wait, node := slot.name, waitKind := .lane, waitLane := lane.id }
  let pick : ResolvedStep := { action := .pickup, node := source.name }
  refine ⟨⟨w, lane, { order with steps := [pick, wait], waitIndex := 0 }, [pick], wait, names,
    rfl, rfl, ⟨rfl, rfl⟩, rfl, ?_, hd⟩, rfl, rfl, rfl⟩
  simp [pick]

def afterLaneWait (laneID : Nat) (steps : List ResolvedStep) : List ResolvedStep :=
  (steps.dropWhile fun s => !(s.isWait && s.waitKind == .lane && s.waitLane == laneID)).drop 1

def ResolvedStep.isDropoff (s : ResolvedStep) : Bool := s.action == .dropoff

/-! ## plan の形と候補 -/

variable {k orderID : Nat} {answers : List ShuffleAnswer} {v : Plant}

theorem findStart_last {wt : ResolvedStep} (hw : wt.isWait = true) (rest : List ResolvedStep) :
    ∀ (pre : List ResolvedStep) (i seen : Nat),
    seen + pre.countP isWait = k →
    findStart k i seen (pre ++ wt :: rest) = some (i + pre.length + 1) := by
  intro pre
  induction pre with
  | nil =>
    rintro i seen rfl
    rw [nil_append, findStart_wait hw, if_pos (by simp)]
    rfl
  | cons s pre ih =>
    rintro i seen hk
    rw [cons_append]
    by_cases hs : s.isWait = true
    · rw [countP_cons_of_pos hs] at hk
      rw [findStart_wait hs, if_neg (by omega), ih (i + 1) (seen + 1) (by omega), length_cons]
      congr 1
      omega
    · rw [countP_cons_of_neg hs] at hk
      rw [findStart, if_neg hs, ih (i + 1) seen hk, length_cons]
      congr 1
      omega

theorem waitAtFrom_none : ∀ (steps : List ResolvedStep) (seen : Nat),
    seen + steps.countP isWait ≤ k → waitAtFrom k seen steps = none := by
  intro steps
  induction steps with
  | nil => exact fun _ _ => rfl
  | cons s rest ih =>
    rintro seen hk
    rw [waitAtFrom]
    by_cases hs : s.isWait = true
    · rw [countP_cons_of_pos hs] at hk
      rw [if_neg (by simp [hs]), if_neg (by omega), ih (seen + 1) (by omega)]
    · rw [countP_cons_of_neg hs] at hk
      rw [if_pos (by simpa using hs), ih seen hk]

namespace DwellingLeg

variable (leg : DwellingLeg)

def decidedSteps (dest : NodeRow) : List ResolvedStep := leg.order.steps ++ [dwellDropoff dest]

theorem decidedSteps_eq (dest : NodeRow) :
    leg.decidedSteps dest = leg.pre ++ leg.wait :: [dwellDropoff dest] := by
  unfold decidedSteps
  rw [leg.plan, append_assoc]
  rfl

theorem findStart_steps (rest : List ResolvedStep) :
    findStart leg.order.waitIndex 0 0 (leg.pre ++ leg.wait :: rest) =
      some (leg.pre.length + 1) := by
  have h := findStart_last leg.isWait rest leg.pre 0 0 (k := leg.order.waitIndex)
    (by rw [leg.atWait]; omega)
  rwa [Nat.zero_add] at h

theorem drop_steps (rest : List ResolvedStep) :
    (leg.pre ++ leg.wait :: rest).drop (leg.pre.length + 1) = rest := by
  rw [← drop_drop, drop_left]
  rfl

theorem laneEntry_undecided : laneEntryAfterWait leg.order.steps leg.order.waitIndex = none := by
  unfold laneEntryAfterWait
  rw [leg.plan, leg.findStart_steps []]
  show firstActionable _ ((leg.pre ++ leg.wait :: []).drop _) = none
  rw [leg.drop_steps]
  rfl

theorem laneEntry_decided (dest : NodeRow) :
    laneEntryAfterWait (leg.decidedSteps dest) leg.order.waitIndex =
      some (dwellDropoff dest, leg.pre.length + 1, false) := by
  unfold laneEntryAfterWait
  rw [leg.decidedSteps_eq, leg.findStart_steps]
  show firstActionable _ ((leg.pre ++ leg.wait :: [dwellDropoff dest]).drop _) = _
  rw [leg.drop_steps]
  rfl

theorem segment_decided {g : Segment}
    (hg : splitSegment (leg.decidedSteps dest) leg.order.waitIndex = some g) :
    g.segment = [dwellDropoff dest] := by
  unfold splitSegment at hg
  rw [leg.decidedSteps_eq, leg.findStart_steps] at hg
  dsimp only at hg
  rw [leg.drop_steps] at hg
  cases hg
  show ((leg.pre ++ leg.wait :: [dwellDropoff dest]).take (leg.pre.length + 1 + 1)).drop _ = _
  rw [take_of_length_le (by simp), leg.drop_steps]

end DwellingLeg

theorem not_standsIn (hname : w.getNodeByDotName dest.name = some dest)
    (hout : insideLane dest lane = false) : standsIn w lane dest.name = false := by
  unfold standsIn
  rw [hname]
  show (w.laneForNode dest).any _ = false
  cases hl : w.laneForNode dest with
  | none => rfl
  | some l =>
    rw [insideLane, Bool.or_eq_false_iff] at hout
    simp only [Option.any_some, beq_eq_false_iff_ne, ne_eq]
    intro he
    have hp := (Plant.laneForNode_spec hl).1
    rw [he] at hp
    simp [hp] at hout

/-! ## 行き先の決まり具合 -/

def HoldsSlot (orderID : Nat) (rows : List Reservation) (dest : NodeRow) : Prop :=
  ∃ r ∈ rows, r.orderID = orderID ∧ r.target = .slot dest.id

section Inv

variable (leg : DwellingLeg)

structure Undecided (row : Order) : Prop where
  steps : row.steps = leg.order.steps
  deliveryNode : row.deliveryNode = ""
  waitIndex : row.waitIndex = leg.order.waitIndex

/-- 書いてよい行き先。掘っている lane の外に在り、slot の予約を持っている。 -/
structure Secured (plant : Plant) (dest : NodeRow) : Prop where
  mem : dest ∈ leg.plant.nodes
  outside : insideLane dest leg.lane = false
  held : HoldsSlot leg.order.id (plant.listReservationsByOrder leg.order.id) dest

structure Decided (row : Order) (dest : NodeRow) : Prop where
  steps : row.steps = leg.decidedSteps dest
  waitIndex : row.waitIndex = leg.order.waitIndex ∨ row.waitIndex = leg.order.waitIndex + 1

structure SamePlan (row copy : Order) : Prop where
  id : copy.id = row.id
  steps : copy.steps = row.steps
  deliveryNode : copy.deliveryNode = row.deliveryNode
  waitIndex : copy.waitIndex = row.waitIndex

structure Bound (row copy : Order) (dest : NodeRow) : Prop where
  copied : SamePlan row copy
  steps : row.steps = leg.decidedSteps dest
  waitIndex : row.waitIndex = leg.order.waitIndex
  deliveryNode : row.deliveryNode = dest.name

def PCOk (plant : Plant) (row : Order) : DwellPC → Prop
  | .idle => True
  | .choosing copy => Undecided leg row ∧ SamePlan row copy
  | .chosen copy dest => Undecided leg row ∧ SamePlan row copy ∧ dest ∈ leg.plant.nodes
  | .claimed copy dest => Undecided leg row ∧ SamePlan row copy ∧ Secured leg plant dest
  | .planned copy dest => Secured leg plant dest ∧ SamePlan row copy ∧
      row.steps = leg.decidedSteps dest ∧ row.waitIndex = leg.order.waitIndex
  | .bound copy => ∃ dest, Secured leg plant dest ∧ Bound leg row copy dest
  | .ready copy g =>
      ∃ dest, Secured leg plant dest ∧ Bound leg row copy dest ∧ g.segment = [dwellDropoff dest]
  | .landed copy => ∃ dest, Secured leg plant dest ∧ Bound leg row copy dest
  | .entry _ _ _ => False

def TailOk (t : DwellTail) : Prop :=
  ∃ dest ∈ leg.plant.nodes, t.segment = [dwellDropoff dest] ∧ t.deliveryNode = dest.name ∧
    HoldsSlot leg.order.id t.held dest

structure DwellInv (w : DwellWorld) : Prop where
  id : w.row.id = leg.order.id
  nodes : w.plant.nodes = leg.plant.nodes
  row : Undecided leg w.row ∨ ∃ dest, Secured leg w.plant dest ∧ Decided leg w.row dest
  pc : PCOk leg w.plant w.row w.pc
  tails : ∀ t ∈ w.tails, TailOk leg t

end Inv

theorem DwellInv.start (leg : DwellingLeg) : DwellInv leg (DwellWorld.start leg) where
  id := rfl
  nodes := rfl
  row := .inl ⟨rfl, leg.undecided, rfl⟩
  pc := trivial
  tails := forall_mem_nil _

variable {dest : NodeRow} {plant : Plant} {row copy : Order}

/-- **行き先を plan に書いた leg は、もう候補にならない。** -/
theorem gateStagedForLane_decided (hn : plant.nodes = leg.plant.nodes) (hs : Secured leg plant dest)
    (hd : Decided leg row dest) : gateStagedForLane plant leg.lane row = none := by
  unfold gateStagedForLane
  rcases hd.waitIndex with hi | hi
  · -- wait の後ろの dropoff は掘っている lane の外にある
    have hentry := leg.laneEntry_decided dest
    rw [← hd.steps, ← hi] at hentry
    have hout : standsIn plant leg.lane (dwellDropoff dest).node = false := by
      refine not_standsIn ?_ hs.outside
      rw [Plant.getNodeByDotName_congr hn]
      exact leg.namesResolve dest hs.mem
    rw [hentry]
    simp only [hout]
    repeat' split
    all_goals first
      | rfl
      | contradiction
  · -- 足し終えた leg には、待っている wait が無い
    have hwait : waitAt row.steps row.waitIndex = none := by
      rw [hd.steps, leg.decidedSteps_eq, hi]
      refine waitAtFrom_none _ 0 ?_
      rw [countP_append, countP_cons_of_pos leg.isWait, leg.atWait]
      simp [dwellDropoff, isWait]
    rw [hwait]
    split <;> rfl

theorem gateStagedForLane_undecided (hu : Undecided leg row) {i : Nat} {retrieve : Bool} :
    gateStagedForLane plant leg.lane row ≠ some (.entry i retrieve) := by
  unfold gateStagedForLane
  rw [hu.steps, hu.waitIndex, leg.laneEntry_undecided]
  repeat' split
  all_goals first
    | contradiction
    | simp

/-! ## 選ぶ・予約する -/

theorem walkCandidates_spec : ∀ (answers : List ShuffleAnswer) (refused : Option DwellRefusal),
      (∀ dest, walkCandidates w lane refused answers = .chosen dest → dest ∈ w.nodes) ∧
        ∀ dest, walkCandidates w lane refused answers ≠ .bound dest := by
  intro answers
  induction answers with intro refused
  | nil =>
    constructor
    · intro dest h
      cases h
    · intro dest h
      cases h
  | cons a rest ih =>
    cases a with
    | slot nodeID admission =>
      cases hg : w.getNode nodeID with
      | none => simp [walkCandidates, hg]
      | some n =>
        cases admission with
        | admitted =>
          constructor
          · intro dest h
            obtain rfl : n = dest := by simpa [walkCandidates, hg] using h
            exact mem_of_find?_eq_some hg
          · simp [walkCandidates, hg]
        | refused r =>
          simp only [walkCandidates, hg]
          exact ih (some r)
        | error => simp [walkCandidates, hg]
    | _ => simp [walkCandidates]

theorem dwellDestination_chosen {leg : Order}
    (h : dwellDestination w leg lane answers = .chosen dest) : dest ∈ w.nodes := by
  unfold dwellDestination at h
  split at h
  · split at h <;> cases h
  split at h
  · cases h
  · exact (walkCandidates_spec answers none).1 dest h

theorem dwellDestination_bound {leg : Order}
    (h : dwellDestination w leg lane answers = .bound dest) : leg.deliveryNode ≠ "" := by
  intro hd
  unfold dwellDestination at h
  rw [if_neg (by simp [hd])] at h
  split at h
  · cases h
  · exact (walkCandidates_spec answers none).2 dest h

theorem claimStoreSlot_nodes (h : claimStoreSlot w orderID dest = .ok v) : v.nodes = w.nodes := by
  unfold claimStoreSlot Plant.reserveSlot at h
  repeat' split at h
  all_goals cases h
  · rfl
  · rename_i hs
    split at hs
    · cases hs
    · cases hs
      rfl

theorem claimStoreSlot_held (h : claimStoreSlot w orderID dest = .ok v) :
    HoldsSlot orderID (v.listReservationsByOrder orderID) dest := by
  unfold Plant.listReservationsByOrder
  rcases claimStoreSlot_rows h with ⟨hrows, hheld⟩ | hrows <;> rw [hrows]
  · -- 前の走査の予約がそのまま使える
    obtain ⟨r, hr, ht⟩ := any_eq_true.mp hheld
    exact ⟨r, hr, by simpa using (mem_filter.mp hr).2, by simpa using ht⟩
  · exact ⟨⟨orderID, .slot dest.id, .pending⟩, by simp, rfl, rfl⟩

/-! ## 一つの動作でできること -/

inductive DwellMove (lane : NodeRow) (w : DwellWorld) : DwellWorld → Prop where
  | same : DwellMove lane w w
  | stop : DwellMove lane w w.stop
  | start (h : gateStagedForLane w.plant lane w.row = some .dwell) :
      DwellMove lane w { w with pc := .choosing w.row }
  | startEntry {i : Nat} {retrieve : Bool}
      (h : gateStagedForLane w.plant lane w.row = some (.entry i retrieve)) :
      DwellMove lane w { w with pc := .entry w.row i retrieve }
  | choose {copy : Order} {dest : NodeRow} (hpc : w.pc = .choosing copy)
      (h : dest ∈ w.plant.nodes) : DwellMove lane w { w with pc := .chosen copy dest }
  | rejoin {copy : Order} (hpc : w.pc = .choosing copy) (h : copy.deliveryNode ≠ "") :
      DwellMove lane w { w with pc := .bound copy }
  | claim {copy : Order} {dest : NodeRow} {plant : Plant} (hpc : w.pc = .chosen copy dest)
      (hout : insideLane dest lane = false) (h : claimStoreSlot w.plant copy.id dest = .ok plant) :
      DwellMove lane w { w with plant, pc := .claimed copy dest }
  | plan {copy : Order} {dest : NodeRow} {steps : List ResolvedStep}
      (hpc : w.pc = .claimed copy dest) (hsteps : steps = copy.steps ++ [dwellDropoff dest]) :
      DwellMove lane w
        { w with row := { w.row with steps }, pc := .planned { copy with steps } dest }
  | deliver {copy : Order} {dest : NodeRow} (hpc : w.pc = .planned copy dest) :
      DwellMove lane w { w with
        row := { w.row with deliveryNode := dest.name }
        pc := .bound { copy with deliveryNode := dest.name } }
  | prepare {copy : Order} {g : Segment} (hpc : w.pc = .bound copy)
      (hg : splitSegment copy.steps copy.waitIndex = some g) :
      DwellMove lane w { w with pc := .ready copy g }
  | accept {copy : Order} {g : Segment} {pc : DwellPC} (hpc : w.pc = .ready copy g)
      (h : pc = .landed copy ∨ pc = .idle) : DwellMove lane w (w.accept g pc)
  | advance {copy : Order} (hpc : w.pc = .landed copy) :
      DwellMove lane w
        { w with row := { w.row with waitIndex := copy.waitIndex + 1 }, pc := .idle }
  | rebind {copy : Order} {i : Nat} {retrieve : Bool} (hpc : w.pc = .entry copy i retrieve)
      (w' : DwellWorld) : DwellMove lane w w'
  | elsewhere {plant : Plant} (hn : plant.nodes = w.plant.nodes)
      (hr : plant.listReservationsByOrder w.row.id = w.plant.listReservationsByOrder w.row.id) :
      DwellMove lane w { w with plant }
  | status (s : OrderStatus) : DwellMove lane w { w with row := { w.row with status := s } }

theorem startPass_move (lane : NodeRow) (w : DwellWorld) : DwellMove lane w (w.startPass lane) := by
  unfold DwellWorld.startPass
  split
  · exact .same
  · rename_i h
    split
    · exact .start h
    · exact .same
  · rename_i h
    exact .startEntry h

theorem claimSlot_move {w : DwellWorld} (hpc : w.pc = .chosen copy dest) :
    DwellMove lane w (w.claimSlot lane copy dest) := by
  unfold DwellWorld.claimSlot
  split
  · exact .stop
  rename_i hout
  split
  · exact .stop
  · rename_i h
    exact .claim hpc (by simpa using hout) h

theorem dwellStep_move (lane : NodeRow) (w : DwellWorld) (a : DwellAction) :
    DwellMove lane w (dwellStep lane w a) := by
  unfold dwellStep
  split
  · exact startPass_move lane w
  · rename_i hpc
    split
    · rename_i h
      exact .choose hpc (dwellDestination_chosen h)
    · rename_i h
      exact .rejoin hpc (dwellDestination_bound h)
    · exact .stop
    · exact .stop
  · rename_i hpc
    split
    · exact claimSlot_move hpc
    · exact .stop
  · rename_i hpc
    split
    · exact .plan hpc rfl
    · exact .stop
  · rename_i hpc
    split
    · exact .deliver hpc
    · exact .stop
  · rename_i hpc
    split
    · rename_i h
      obtain ⟨g', hg, he⟩ := appendGateTail_ready h
      cases he
      exact .prepare hpc hg
    · exact .stop
  · rename_i hpc
    split
    · exact .accept hpc (.inl rfl)
    · exact .accept hpc (.inr rfl)
    · exact .stop
  · rename_i hpc
    split
    · exact .advance hpc
    · exact .stop
  · rename_i hpc
    exact .rebind hpc _
  · exact .stop
  · split
    · rename_i h
      exact .elsewhere h.1 h.2
    · exact .same
  · exact .status _
  · exact .same

/-! ## 動作は不変条件を保つ -/

section Preserve

variable {leg : DwellingLeg} {w : DwellWorld} {plant' : Plant} {row' : Order}

theorem SamePlan.refl (row : Order) : SamePlan row row := ⟨rfl, rfl, rfl, rfl⟩

section

variable (h : SamePlan row row')
include h

theorem SamePlan.left (hc : SamePlan row copy) : SamePlan row' copy :=
  ⟨hc.id.trans h.id.symm, hc.steps.trans h.steps.symm, hc.deliveryNode.trans h.deliveryNode.symm,
    hc.waitIndex.trans h.waitIndex.symm⟩

theorem Undecided.congr (hu : Undecided leg row) : Undecided leg row' :=
  ⟨h.steps.trans hu.steps, h.deliveryNode.trans hu.deliveryNode, h.waitIndex.trans hu.waitIndex⟩

theorem Decided.congr (hd : Decided leg row dest) : Decided leg row' dest :=
  ⟨h.steps.trans hd.steps, by rw [h.waitIndex]; exact hd.waitIndex⟩

theorem Bound.congr (hb : Bound leg row copy dest) : Bound leg row' copy dest :=
  ⟨h.left hb.copied, h.steps.trans hb.steps, h.waitIndex.trans hb.waitIndex,
    h.deliveryNode.trans hb.deliveryNode⟩

end

theorem Secured.congr (h : plant'.listReservationsByOrder leg.order.id =
    plant.listReservationsByOrder leg.order.id) (hs : Secured leg plant dest) :
    Secured leg plant' dest :=
  ⟨hs.mem, hs.outside, by rw [h]; exact hs.held⟩

variable {pc : DwellPC}

theorem PCOk.congr (hrow : SamePlan row row') (hheld : plant'.listReservationsByOrder leg.order.id =
    plant.listReservationsByOrder leg.order.id) (h : PCOk leg plant row pc) :
    PCOk leg plant' row' pc := by
  cases pc with
  | idle => trivial
  | choosing copy => exact ⟨h.1.congr hrow, hrow.left h.2⟩
  | chosen copy dest => exact ⟨h.1.congr hrow, hrow.left h.2.1, h.2.2⟩
  | claimed copy dest => exact ⟨h.1.congr hrow, hrow.left h.2.1, h.2.2.congr hheld⟩
  | planned copy dest =>
    obtain ⟨hs, hc, hsteps, hi⟩ := h
    exact ⟨hs.congr hheld, hrow.left hc, hrow.steps.trans hsteps, hrow.waitIndex.trans hi⟩
  | bound copy =>
    obtain ⟨dest, hs, hb⟩ := h
    exact ⟨dest, hs.congr hheld, hb.congr hrow⟩
  | ready copy g =>
    obtain ⟨dest, hs, hb, hg⟩ := h
    exact ⟨dest, hs.congr hheld, hb.congr hrow, hg⟩
  | landed copy =>
    obtain ⟨dest, hs, hb⟩ := h
    exact ⟨dest, hs.congr hheld, hb.congr hrow⟩
  | entry => exact h.elim

theorem DwellInv.congr (hi : DwellInv leg w) (hrow : SamePlan w.row row')
    (hn : plant'.nodes = w.plant.nodes) (hheld : plant'.listReservationsByOrder leg.order.id =
      w.plant.listReservationsByOrder leg.order.id) :
    DwellInv leg { w with plant := plant', row := row' } where
  id := hrow.id.trans hi.id
  nodes := hn.trans hi.nodes
  row := by
    rcases hi.row with hu | ⟨dest, hs, hd⟩
    · exact .inl (hu.congr hrow)
    · exact .inr ⟨dest, hs.congr hheld, hd.congr hrow⟩
  pc := hi.pc.congr hrow hheld
  tails := hi.tails

theorem DwellInv.goto (hi : DwellInv leg w) (hpc : PCOk leg w.plant w.row pc) :
    DwellInv leg { w with pc } := ⟨hi.id, hi.nodes, hi.row, hpc, hi.tails⟩

theorem DwellInv.step (hi : DwellInv leg w) (a : DwellAction) :
    DwellInv leg (dwellStep leg.lane w a) := by
  have hp := hi.pc
  have hmove := dwellStep_move leg.lane w a
  generalize dwellStep leg.lane w a = w' at hmove ⊢
  cases hmove with
  | same => exact hi
  | stop => exact hi.goto trivial
  | start h =>
    refine hi.goto ?_
    rcases hi.row with hu | ⟨dest, hs, hd⟩
    · exact ⟨hu, SamePlan.refl w.row⟩
    · -- 行き先を書いた leg は候補にならない
      rw [gateStagedForLane_decided hi.nodes hs hd] at h
      cases h
  | startEntry h =>
    rcases hi.row with hu | ⟨dest, hs, hd⟩
    · exact (gateStagedForLane_undecided hu h).elim
    · rw [gateStagedForLane_decided hi.nodes hs hd] at h
      cases h
  | choose hpc h =>
    rw [hpc] at hp
    rw [hi.nodes] at h
    exact hi.goto ⟨hp.1, hp.2, h⟩
  | rejoin hpc h =>
    -- delivery_node はまだ空なので、この道は通らない
    rw [hpc] at hp
    exact (h (hp.2.deliveryNode.trans hp.1.deliveryNode)).elim
  | claim hpc hout h =>
    rw [hpc] at hp
    obtain ⟨hu, hc, hmem⟩ := hp
    have hheld := claimStoreSlot_held h
    rw [hc.id, hi.id] at hheld
    exact ⟨hi.id, (claimStoreSlot_nodes h).trans hi.nodes, .inl hu,
      ⟨hu, hc, hmem, hout, hheld⟩, hi.tails⟩
  | plan hpc hsteps =>
    rw [hpc] at hp
    obtain ⟨hu, hc, hs⟩ := hp
    rw [hc.steps, hu.steps] at hsteps
    exact ⟨hi.id, hi.nodes, .inr ⟨_, hs, hsteps, .inl hu.waitIndex⟩,
      ⟨hs, ⟨hc.id, rfl, hc.deliveryNode, hc.waitIndex⟩, hsteps, hu.waitIndex⟩, hi.tails⟩
  | deliver hpc =>
    rw [hpc] at hp
    obtain ⟨hs, hc, hsteps, hk⟩ := hp
    exact ⟨hi.id, hi.nodes, .inr ⟨_, hs, hsteps, .inl hk⟩,
      ⟨_, hs, ⟨hc.id, hc.steps, rfl, hc.waitIndex⟩, hsteps, hk, rfl⟩, hi.tails⟩
  | prepare hpc hg =>
    rw [hpc] at hp
    obtain ⟨dest, hs, hb⟩ := hp
    rw [hb.copied.steps, hb.steps, hb.copied.waitIndex, hb.waitIndex] at hg
    exact hi.goto ⟨dest, hs, hb, leg.segment_decided hg⟩
  | accept hpc h =>
    rw [hpc] at hp
    obtain ⟨dest, hs, hb, hg⟩ := hp
    refine ⟨hi.id, hi.nodes, hi.row, ?_, ?_⟩
    · rcases h with rfl | rfl
      · exact ⟨dest, hs, hb⟩
      · trivial
    · intro t ht
      rcases mem_append_last.mp ht with hold | rfl
      · exact hi.tails t hold
      · refine ⟨dest, hs.mem, hg, hb.deliveryNode, ?_⟩
        rw [hi.id]
        exact hs.held
  | advance hpc =>
    rw [hpc] at hp
    obtain ⟨dest, hs, hb⟩ := hp
    have hk := hb.copied.waitIndex.trans hb.waitIndex
    exact ⟨hi.id, hi.nodes, .inr ⟨dest, hs, hb.steps, .inr (congrArg (· + 1) hk)⟩, trivial,
      hi.tails⟩
  | rebind hpc =>
    rw [hpc] at hp
    exact hp.elim
  | elsewhere hn hr =>
    rw [hi.id] at hr
    exact hi.congr (SamePlan.refl w.row) hn hr
  | status s => exact hi.congr ⟨rfl, rfl, rfl, rfl⟩ rfl rfl

end Preserve

/-! ## 行き先は一度だけ -/

theorem afterLaneWait_sublist (laneID : Nat) (steps : List ResolvedStep) :
    (afterLaneWait laneID steps).Sublist steps :=
  (drop_sublist _ _).trans (dropWhile_sublist _)

theorem DwellingLeg.countP_dropoff (leg : DwellingLeg) : leg.order.steps.countP isDropoff = 0 := by
  rw [leg.plan, countP_eq_zero]
  intro s hs
  rcases mem_append_last.mp hs with hpre | rfl
  · simpa [isDropoff] using leg.noDropoff s hpre
  · have hw : leg.wait.action = .wait := by simpa [ResolvedStep.isWait] using leg.isWait
    simp [isDropoff, hw]

theorem DwellInv.countP_dropoff {w : DwellWorld} (hi : DwellInv leg w) :
    w.row.steps.countP isDropoff ≤ 1 := by
  rcases hi.row with hu | ⟨dest, -, hd⟩
  · rw [hu.steps, leg.countP_dropoff]
    exact Nat.zero_le 1
  · rw [hd.steps, DwellingLeg.decidedSteps, countP_append, leg.countP_dropoff, Nat.zero_add]
    exact countP_le_length

/-- **どこで落ちても、どの書き込みが失敗しても、行き先は一度だけ選ばれる。** -/
theorem dwell_destination_once (leg : DwellingLeg) (as : List DwellAction) :
    ∀ w ∈ visited (dwellStep leg.lane) (DwellWorld.start leg) as,
      (afterLaneWait leg.lane.id w.row.steps).countP isDropoff ≤ 1 ∧
      ∀ t ∈ w.tails,
        (t.segment.filter isDropoff).map node = [t.deliveryNode] ∧
        ∃ dest ∈ leg.plant.nodes, dest.name = t.deliveryNode ∧
          ∃ r ∈ t.held, r.orderID = leg.order.id ∧ r.target = .slot dest.id := by
  intro w hw
  have hi : DwellInv leg w :=
    visited_of_inv (fun _ a h => h.step a) (DwellInv.start leg) w hw
  constructor
  · exact (afterLaneWait_sublist _ _).countP_le.trans hi.countP_dropoff
  · intro t ht
    obtain ⟨dest, hmem, hseg, hname, hheld⟩ := hi.tails t ht
    refine ⟨?_, dest, hmem, hname.symm, hheld⟩
    rw [hseg, hname]
    rfl

def diggingLeg : DwellingLeg where
  plant := .vacant
    [{ id := 1, name := "GRP" },
     { id := 2, name := "LANE_A", parentID := some 1, isLane := true },
     { id := 3, name := "SMN_001", parentID := some 2 },
     { id := 4, name := "LANE_B", parentID := some 1, isLane := true },
     { id := 5, name := "SMN_008", parentID := some 4 }]
    (by decide)
  lane := { id := 2, name := "LANE_A", parentID := some 1, isLane := true }
  order := { id := 70, status := .staged, parentOrderID := some 60, vendorOrderID := "sg-70"
             steps := [{ action := .pickup, node := "SMN_001" },
               { action := .wait, node := "SMN_001", waitKind := .lane, waitLane := 2 }] }
  pre := [{ action := .pickup, node := "SMN_001" }]
  wait := { action := .wait, node := "SMN_001", waitKind := .lane, waitLane := 2 }
  namesResolve := by decide
  plan := rfl
  isWait := rfl
  laneWait := ⟨rfl, rfl⟩
  atWait := rfl
  noDropoff := by decide
  undecided := rfl

def crashedRun : List DwellAction :=
  [.pass, .choose [.slot 5 .admitted], .claim true, .crash,
   .pass, .choose [.slot 5 .admitted], .claim true, .writePlan true, .writeDelivery true,
   .prepare true, .append .ok, .writeWaitIndex true]

theorem dwell_destination_crashed :
    (runSteps (dwellStep diggingLeg.lane) (DwellWorld.start diggingLeg) crashedRun).tails =
        [⟨[{ action := .dropoff, node := "SMN_008" }], "SMN_008", [⟨70, .slot 5, .pending⟩]⟩] ∧
      (afterLaneWait diggingLeg.lane.id (runSteps (dwellStep diggingLeg.lane)
        (DwellWorld.start diggingLeg) crashedRun).row.steps).countP isDropoff ≤ 1 := by
  constructor
  · decide
  · exact (dwell_destination_once diggingLeg crashedRun _ (mem_visited_runSteps _ _)).1

end Shingo.Dispatch
