import Shingo.Dispatch.Admission
import Shingo.Properties.Reserve

/-!
# 取り出す bin に届くか

`admitLane` が手前を調べるのは、order の入る一歩の bin（`wantedBin`）だけ。ほかの一歩で取る
bin の手前は調べず、retired の bin しか無い slot も塞がりと数えない。
-/

namespace Shingo.Dispatch

open Infra Core List

variable {name : String} {n lane : NodeRow} {order : Order} {t : AdmissionTables}
  {rows : List Presence} {m : LaneMap}

theorem pickupSlotNow_bin {v : StoreTables} {target : NodeRow} {bin : BinRow} {moved : Bool}
    (hwant : wantedBin v order = .bin bin.id) (hbin : bin ∈ v.plant.bins)
    (hat : bin.nodeID = some n.id) (hn : n ∈ v.plant.nodes)
    (h : pickupSlotNow v order lane = .ok (target, moved)) : target = n := by
  unfold pickupSlotNow at h
  split at h
  · cases h
  rename_i named hnamed
  simp only [hwant, Plant.getBin_of_mem hbin, hat, Plant.getNode_of_mem hn] at h
  split at h
  · rename_i hsame
    cases h
    exact inj_on_of_nodup_map v.plant.nodeIDs (Plant.getNodeByDotName_spec hnamed).1 hn hsame.symm
  · split at h
    · cases h
      rfl
    · cases h

theorem admitPlan_step {skip : AdmissionSkips} {steps : List ResolvedStep}
    (h : admitPlan m t rows skip order steps = .admitted) {step : ResolvedStep}
    (hmem : step ∈ steps) (hwait : step.action ≠ .wait) (hname : step.node ≠ "") :
    admitLane m t rows skip order step.node (step.action == .pickup) = .admitted := by
  induction steps with
  | nil => cases hmem
  | cons s rest ih =>
    unfold admitPlan at h
    rcases mem_cons.mp hmem with rfl | hrest
    · simp only [hwait, hname, or_self, if_false] at h
      split at h <;> simp_all
    · split at h
      · exact ih h hrest
      split at h
      · exact ih h hrest
      · simp_all

theorem admitLane_pickup (hlane : m.laneOf name = some lane)
    (hungated : m.laneIsGated lane.id = false)
    (h : admitLane m t rows skipsForComplexEntry order name true = .admitted) :
    ∃ target moved, pickupSlotNow t.store order lane = .ok (target, moved)
      ∧ findBuriedBlockers t.store target = [] := by
  have hdefer : m.entryDeferredToGate skipsForComplexEntry lane = false := by
    simp [LaneMap.entryDeferredToGate, hungated]
  have hask : (!true || skipsForComplexEntry.reachability) = false := rfl
  simp only [admitLane, hlane, hdefer, hask, Bool.false_eq_true, if_false] at h
  split at h
  · cases h
  split at h
  · cases h
  split at h
  · cases h
  · cases h
  · cases h
  · rename_i target moved hslot
    exact ⟨target, moved, hslot, by by_contra hne; simp [hne] at h⟩

section

variable (m : LaneMap) (t : AdmissionTables) (order : Order)

/-- `i` 番目の一歩は門の無い lane の pickup で、その一歩に割り当てた bin は `n` に在る。 -/
def LanePickup (i : Nat) (n : NodeRow) : Prop :=
  ∃ step lane bin, order.steps[i]? = some step ∧ step.action = .pickup ∧ step.node ≠ "" ∧
    m.laneOf step.node = some lane ∧ m.laneIsGated lane.id = false ∧
    binForStep t.store order i = .bin bin.id ∧ bin ∈ t.store.plant.bins ∧
    bin.nodeID = some n.id ∧ n ∈ t.store.plant.nodes

/-- lane から取るどの bin の手前にも、塞がった slot が無い。 -/
def FrontsClear : Prop :=
  ∀ i n, LanePickup m t order i n → ∀ s ∈ t.store.plant.nodes, shallowerInSameLane s n = true →
    t.store.occupied s = false

/-- 手前の塞がった slot は、admission の調べるものばかり。 -/
def FrontsChecked : Prop :=
  ∀ i n, LanePickup m t order i n → ∀ s ∈ t.store.plant.nodes, shallowerInSameLane s n = true →
    t.store.occupied s = true →
      wantedBin t.store order = binForStep t.store order i ∧
        t.store.plant.listBinsByNode s.id ≠ []

end

/--
**許された plan で、lane から取る bin の手前がどれも空いているのは、手前の塞がった slot が
admission の調べるものばかりのとき、かつそのときに限る。**
-/
theorem admitted_pickup_reachable (m : LaneMap) (t : AdmissionTables) (rows : List Presence)
    (order : Order) (h : admitPlan m t rows skipsForComplexEntry order order.steps = .admitted) :
    FrontsClear m t order ↔ FrontsChecked m t order := by
  constructor
  · intro hclear i n hpick s hs hfront hocc
    rw [hclear i n hpick s hs hfront] at hocc
    cases hocc
  · intro hchecked i n hpick s hs hfront
    by_contra hocc
    rw [Bool.not_eq_false] at hocc
    obtain ⟨hentry, hlive⟩ := hchecked i n hpick s hs hfront hocc
    obtain ⟨step, lane, bin, hstep, hact, hname, hlane, hungated, hclaim, hbin, hat, hn⟩ := hpick
    have hadm := admitPlan_step h (mem_of_getElem? hstep) (by simp [hact]) hname
    rw [hact] at hadm
    obtain ⟨target, moved, hslot, hnone⟩ := admitLane_pickup hlane hungated hadm
    rw [pickupSlotNow_bin (hentry.trans hclaim) hbin hat hn hslot] at hnone
    have hblock : s ∈ findBuriedBlockers t.store n := by
      simp [findBuriedBlockers, hs, hocc, hfront, hlive]
    simp [hnone] at hblock

def corridorMap : LaneMap where
  plant := Plant.vacant
    [{ id := 1, name := "G", isSynthetic := true },
     { id := 7, name := "L7", parentID := some 1, isLane := true, isSynthetic := true },
     { id := 71, name := "S1", parentID := some 7, depth := some 1 },
     { id := 72, name := "S2", parentID := some 7, depth := some 2 },
     { id := 90, name := "P1" }, { id := 91, name := "P2" }] (by decide)
  laneWaitPoint _ := ""

def stackedTables : AdmissionTables where
  store :=
    { plant :=
        { corridorMap.plant with
          bins := [{ id := 1, nodeID := some 71 }, { id := 2, nodeID := some 72 },
            { id := 9, nodeID := some 90 }]
          binIDs := by decide
          binIDsPos := by decide }
      orderBins := [⟨3, 0, 1⟩, ⟨4, 0, 9⟩, ⟨4, 2, 2⟩] }

def frontPickup : Order :=
  { id := 3, status := .queued, sourceNode := "S1", deliveryNode := "P2"
    steps := [{ action := .pickup, node := "S1" }, { action := .dropoff, node := "P2" }] }

def fetchAfterClear : Order :=
  { id := 4, status := .queued, sourceNode := "P1", deliveryNode := "P1"
    steps := [{ action := .pickup, node := "P1" }, { action := .dropoff, node := "P2" },
      { action := .pickup, node := "S2" }, { action := .dropoff, node := "P1" }] }

theorem admitted_pickup_reachable_front :
    admitPlan corridorMap stackedTables [] skipsForComplexEntry frontPickup frontPickup.steps
        = .admitted
      ∧ (FrontsClear corridorMap stackedTables frontPickup
        ↔ FrontsChecked corridorMap stackedTables frontPickup) := by
  refine ⟨?admitted, admitted_pickup_reachable corridorMap stackedTables [] frontPickup ?admitted⟩
  decide

/-- **lane から取る bin は埋まっているのに、station の bin を調べて許す。** -/
theorem second_pickup_unchecked :
    admitPlan corridorMap stackedTables [] skipsForComplexEntry fetchAfterClear
        fetchAfterClear.steps = .admitted
      ∧ binForStep stackedTables.store fetchAfterClear 2 = .bin 2
      ∧ (wantedBin stackedTables.store fetchAfterClear
        = binForStep stackedTables.store fetchAfterClear 0)
      ∧ stackedTables.store.buried
          { id := 72, name := "S2", parentID := some 7, depth := some 2 } = true := by
  decide

end Shingo.Dispatch
