import Shingo.Dispatch.DropoffCapacity
import Shingo.Properties.ResolveStore

/-!
# 確かめずに置く先と、塞がりと言われる group

先に pickup があれば、dropoff の置き先は確かめない。その pickup の後にまた置いていれば、
着いた時には塞がっている。group の空きは直下の node だけを数えるので、lane に空きがあっても
塞がりと言う。
-/

namespace Shingo.Dispatch

open Core Infra List

/-! ## 行程の dropoff -/

def dropsRepicked (node : String) : List ResolvedStep → Bool
  | [] => true
  | s :: rest =>
    (s.action = .dropoff → s.node = node → rest.any (picksUpAt node)) && dropsRepicked node rest

/-- node が塞がるのは、取られない bin を置いたか、始めの bin を誰も取らないとき。 -/
theorem occupied_after {node : String} (steps : List ResolvedStep) (occupied : String → Bool) :
    runSteps occupyStep occupied steps node =
      (!dropsRepicked node steps || (occupied node && !steps.any (picksUpAt node))) := by
  induction steps generalizing occupied with
  | nil => simp [runSteps, dropsRepicked]
  | cons s rest ih =>
    show runSteps occupyStep (occupyStep occupied s) rest node = _
    rw [ih, any_cons, dropsRepicked]
    by_cases hnode : s.node = node
    · cases hact : s.action <;> cases hrest : rest.any (picksUpAt node) <;>
        simp [occupyStep, picksUpAt, hnode, hact]
    · have hpick : picksUpAt node s = false := by simp [picksUpAt, hnode]
      have hkeep : occupyStep occupied s node = occupied node := by
        cases hact : s.action <;> simp [occupyStep, hact, Ne.symm hnode]
      simp [hpick, hkeep, hnode]

/-- **確かめずに置く先が着いた時に空いているのは、前に置いた bin が取られているとき。** -/
theorem skipped_dropoff_lands_empty (occupied : String → Bool) (finalChecked : Bool)
    (deliveryNode : String) (prior : List ResolvedStep) (s : ResolvedStep)
    (hskip : dropoffCheck finalChecked deliveryNode prior s = .cleared) :
    runSteps occupyStep occupied prior s.node = false ↔ dropsRepicked s.node prior = true := by
  have hcleared : clearedEarlierInPlan prior s.node = true := by
    unfold dropoffCheck at hskip
    grind
  simp only [clearedEarlierInPlan, Bool.and_eq_true] at hcleared
  simp [occupied_after, hcleared.2]

def keepStaged : List ResolvedStep :=
  [⟨.pickup, "SLN", "", false, false, .untagged, 0⟩, { action := .dropoff, node := "ALN" }]

def stageAgain : ResolvedStep := { action := .dropoff, node := "SLN", exclusiveSlot := true }

theorem skipped_dropoff_lands_empty_staged :
    dropoffCheck true "ALN" keepStaged stageAgain = .cleared ∧
      runSteps occupyStep (fun _ => true) keepStaged "SLN" = false :=
  ⟨by decide, (skipped_dropoff_lands_empty _ true "ALN" keepStaged stageAgain (by decide)).mpr
    (by decide)⟩

/-- 取った後に一度置いていれば、二度目は塞がった node に着く。 -/
theorem skipped_dropoff_lands_occupied :
    dropoffCheck true "ALN" (keepStaged ++ [stageAgain]) stageAgain = .cleared ∧
      runSteps occupyStep (fun _ => true) (keepStaged ++ [stageAgain]) "SLN" = true := by
  decide

/-! ## group の空き -/

def LaneFree (cfg : GroupConfig) : Prop :=
  ∀ c ∈ cfg.nodes, c.parentID = some cfg.group.id → c.enabled = true → c.isLane = false
  deriving Decidable

/-- lane の無い group では、slot が選ばれたなら直下の node が空いている。 -/
theorem exists_free_child {cfg : GroupConfig} {t : ResolveTables} {payloadCode : String}
    {binTypeID : Option Nat} {asker : DigAsker} {n : NodeRow}
    (h : resolveStore cfg t payloadCode binTypeID asker = .ok n) (hlane : LaneFree cfg) :
    ∃ c ∈ capacityChildren cfg, directSlotFree t c = true := by
  have hchild : ∀ c ∈ listChildNodesUnlocked cfg t asker, c.enabled = true →
      c.isLane = false ∧ (c.isSynthetic = false → c ∈ capacityChildren cfg) := by
    intro c hc hon
    simp only [listChildNodesUnlocked, mem_insertionSort, mem_filter, Bool.and_eq_true,
      beq_iff_eq] at hc
    exact ⟨hlane c hc.1 hc.2.1 hon, fun hs => by simp [capacityChildren, hc.1, hc.2.1, hon, hs]⟩
  unfold resolveStore at h
  split at h
  · cases h
  dsimp only at h
  split at h
  · rename_i hslot
    split at hslot
    · rcases Option.or_eq_some_iff.mp hslot with hslot | ⟨-, hslot⟩
      · obtain ⟨c, hc, hsome⟩ := exists_of_findSome?_eq_some hslot
        unfold dpthLaneSlot at hsome
        grind
      · obtain ⟨c, hc, hsome⟩ := exists_of_findSome?_eq_some hslot
        unfold dpthDirectSlot at hsome
        exact ⟨c, by grind⟩
    · cases hcs : (listChildNodesUnlocked cfg t asker).filterMap
          (lkndCandidate cfg t payloadCode binTypeID) with
      | nil => simp [resolveStoreLKND, hcs, bestStorageCandidate] at hslot
      | cons best rest =>
        obtain ⟨c, hc, hsome⟩ := mem_filterMap.mp (hcs ▸ mem_cons_self)
        unfold lkndCandidate at hsome
        exact ⟨c, by grind⟩
  · cases h

theorem nodeCapacity_of_free {t : ResolveTables} {reads : CapacityReads} {excludeOrderID : Nat}
    {c : NodeRow} (h : directSlotFree t c = true) :
    nodeCapacity t reads excludeOrderID c.id c.name = none ∨
      nodeCapacity t reads excludeOrderID c.id c.name = some .capacityCheckFailed := by
  have hle : countInFlightExcluding t c.name excludeOrderID ≤
      countActiveOrdersByDeliveryNode t c.name := by
    refine countP_mono_left fun o _ ho => ?_
    simp_all
  simp only [directSlotFree, Bool.and_eq_true, beq_iff_eq] at h
  have hbins : t.store.plant.countBinsByNode c.id = 0 := by omega
  have hinflight : countInFlightExcluding t c.name excludeOrderID = 0 := by omega
  unfold nodeCapacity
  grind

/-- 読みがどれも通り、group の直下の node はあって、どれも bin か来る order で塞がっている。 -/
structure DirectTaken (cfg : GroupConfig) (t : ResolveTables) (reads : CapacityReads)
    (excludeOrderID : Nat) (deliveryNode : String) : Prop where
  named : deliveryNode ≠ ""
  group : ∃ node, reads.node deliveryNode = .found node true ∧ node.isSynthetic = true
  levels : reads.levels = true
  children : reads.children = true
  direct : capacityChildren cfg ≠ []
  taken : ∀ c ∈ capacityChildren cfg, reads.bins c.id = true ∧
    (0 < t.store.plant.countBinsByNode c.id ∨
      reads.inFlight c.name = true ∧ 0 < countInFlightExcluding t c.name excludeOrderID)

theorem childBlocks_full {cfg : GroupConfig} {t : ResolveTables} {reads : CapacityReads}
    {excludeOrderID : Nat} : (none ∉ childBlocks cfg t reads excludeOrderID ∧
      some .capacityCheckFailed ∉ childBlocks cfg t reads excludeOrderID) ↔
    ∀ c ∈ capacityChildren cfg, reads.bins c.id = true ∧
      (0 < t.store.plant.countBinsByNode c.id ∨
        reads.inFlight c.name = true ∧ 0 < countInFlightExcluding t c.name excludeOrderID) := by
  have hone : ∀ c : NodeRow, (nodeCapacity t reads excludeOrderID c.id c.name ≠ none ∧
        nodeCapacity t reads excludeOrderID c.id c.name ≠ some .capacityCheckFailed) ↔
      reads.bins c.id = true ∧ (0 < t.store.plant.countBinsByNode c.id ∨
        reads.inFlight c.name = true ∧ 0 < countInFlightExcluding t c.name excludeOrderID) := by
    intro c
    unfold nodeCapacity
    grind
  simp only [childBlocks, mem_map, not_exists, not_and, ← hone]
  exact ⟨fun h c hc => ⟨h.1 c hc, h.2 c hc⟩, fun h => ⟨fun c hc => (h c hc).1,
    fun c hc => (h c hc).2⟩⟩

/-- **slot が選ばれるのに塞がりと言われるのは、直下の node がどれも塞がっているときだけ。** -/
theorem capacity_agrees_with_resolver (cfg : GroupConfig) (t : ResolveTables)
    (reads : CapacityReads) (excludeOrderID : Nat) (deliveryNode payloadCode : String)
    (binTypeID : Option Nat) (asker : DigAsker) (n : NodeRow)
    (h : resolveStore cfg t payloadCode binTypeID asker = .ok n) :
    checkDropoffCapacityForType cfg t reads excludeOrderID deliveryNode binTypeID ∉
      [some .ngrpAtLevel, some .ngrpFull] ↔
    ¬ DirectTaken cfg t reads excludeOrderID deliveryNode := by
  have hlevel := resolveStore_ok h
  have hnil : childBlocks cfg t reads excludeOrderID = [] ↔ capacityChildren cfg = [] :=
    map_eq_nil_iff
  refine not_congr ⟨fun hblocked => ?_, fun htaken => ?_⟩
  · unfold checkDropoffCapacityForType at hblocked
    split at hblocked
    · simp at hblocked
    rename_i hnamed
    split at hblocked
    · simp at hblocked
    · simp at hblocked
    rename_i node isNGRP hnode
    split at hblocked
    · unfold nodeCapacity at hblocked
      grind
    rename_i hsynth
    split at hblocked
    · rename_i hgroup
      unfold checkNGRPCapacity at hblocked
      rw [hlevel] at hblocked
      have hfull := @childBlocks_full cfg t reads excludeOrderID
      refine ⟨hnamed, ⟨node, hgroup ▸ hnode, by simpa using hsynth⟩, ?_, ?_, ?_, hfull.mp ?_⟩ <;>
        grind
    · simp at hblocked
  · obtain ⟨node, hnode, hsynth⟩ := htaken.group
    obtain ⟨hfree, hfailed⟩ := childBlocks_full.mpr htaken.taken
    have hne := mt hnil.mp htaken.direct
    simp [checkDropoffCapacityForType, checkNGRPCapacity, htaken.named, hnode, hsynth, hlevel,
      htaken.levels, htaken.children, hfree, hfailed, hne]

/-- 混ざっていない group は塞がりと言われない。 -/
theorem not_directTaken {cfg : GroupConfig} {t : ResolveTables} {reads : CapacityReads}
    {excludeOrderID : Nat} {deliveryNode payloadCode : String} {binTypeID : Option Nat}
    {asker : DigAsker} {n : NodeRow} (h : resolveStore cfg t payloadCode binTypeID asker = .ok n)
    (hlane : LaneFree cfg) : ¬ DirectTaken cfg t reads excludeOrderID deliveryNode := by
  intro htaken
  obtain ⟨c, hc, hfree⟩ := exists_free_child h hlane
  obtain ⟨hnone, hfailed⟩ := childBlocks_full.mpr htaken.taken
  rcases nodeCapacity_of_free hfree with h | h
  · exact hnone (mem_map.mpr ⟨c, hc, h⟩)
  · exact hfailed (mem_map.mpr ⟨c, hc, h⟩)

def bankReads : CapacityReads where
  node := fun _ => .found pressBank.group true

theorem capacity_agrees_with_resolver_bank :
    ∃ n, resolveStore pressBank (bankCall []).tables "" (some 7) anyone = .ok n ∧
      checkDropoffCapacityForType pressBank (bankCall []).tables bankReads 0 "BANK" (some 7) ∉
        [some .ngrpAtLevel, some .ngrpFull] := by
  have hok : resolveStore pressBank (bankCall []).tables "" (some 7) anyone
    = .ok { id := 2, name := "BANK-1", parentID := some 1 } := rfl
  exact ⟨_, hok, (capacity_agrees_with_resolver pressBank _ bankReads 0 "BANK" "" (some 7) anyone _
    hok).mpr (not_directTaken hok (by decide))⟩

def mixedBank : GroupConfig :=
  { pressBank with
    nodes :=
      [{ id := 1, name := "BANK", isSynthetic := true },
       { id := 2, name := "BANK-1", parentID := some 1 },
       { id := 3, name := "BANK-L", parentID := some 1, isLane := true, isSynthetic := true },
       { id := 5, name := "L-1", parentID := some 3, depth := some 1 }]
    nodeIDs := by decide }

/-- 直下の node に bin が居れば、lane の slot が選ばれるのに、group は塞がりと言われる。 -/
theorem full_beside_open_lane :
    (resolveStore mixedBank ((bankCall []).seenAt mixedBank fun _ => some 2) "P" (some 8)
        anyone).toOption.map NodeRow.name = some "L-1" ∧
      checkDropoffCapacityForType mixedBank ((bankCall []).seenAt mixedBank fun _ => some 2)
        bankReads 0 "BANK" (some 8) = some .ngrpFull := by
  decide

end Shingo.Dispatch
