import Shingo.Core.BlockCompleted
import Shingo.Properties.Ledger
import Shingo.Properties.Reserve

/-!
# bin を一つ動かす

`MoveToTransit` と `PlaceBinTx` は、名指した bin をその node に移し、置き先の ghost を除いて
ほかの bin に触れない（`Relocated`）。置き先に在ると記録されていない bin だけを見るなら、
動くのは一つだけ。
-/

namespace Shingo.Core

open Infra List

def Ledger.recordedAt (w : Ledger) (binID : Nat) : Option Nat :=
  (w.plant.getBin binID).bind BinRow.nodeID

structure RowRelocated (nodeID : Nat) (keep : Bool) (b b' : BinRow) : Prop where
  nodeID : b'.nodeID = some nodeID
  status : b.status ≠ .retired → b'.status ≠ .retired
  claimedBy : keep = true → b'.claimedBy = b.claimedBy

/--
`ids` の bin のうち `binID` だけが `nodeID` に移った。

`ids` の外の bin は動いてもよいが、claim が増えることは無い。`keep` なら移った bin の claim も残る。
-/
structure Relocated (ids : List Nat) (binID nodeID : Nat) (keep : Bool) (w w' : Ledger) :
    Prop where
  nodes : w'.plant.nodes = w.plant.nodes
  moved : ∀ b ∈ w.plant.bins, b.id = binID →
    ∃ b' ∈ w'.plant.bins, b'.id = b.id ∧ RowRelocated nodeID keep b b'
  others : ∀ b ∈ w.plant.bins, b.id ∈ ids → b.id ≠ binID → b ∈ w'.plant.bins
  claims : ∀ b' ∈ w'.plant.bins, ∀ o, b'.claimedBy = some o →
    ∃ b ∈ w.plant.bins, b.id = b'.id ∧ b.claimedBy = some o

namespace Ledger

variable {w w' : Ledger}

theorem recordedAt_of_mem {b : BinRow} (hb : b ∈ w.plant.bins) : w.recordedAt b.id = b.nodeID := by
  unfold recordedAt
  rw [Plant.getBin_of_mem hb]
  rfl

end Ledger

namespace Relocated

variable {w w' w'' : Ledger} {ids : List Nat} {binID nodeID : Nat} {keep : Bool}

theorem of_map {f : BinRow → BinRow} (hf : ∀ b, (f b).id = b.id)
    (hnodes : w'.plant.nodes = w.plant.nodes) (hbins : w'.plant.bins = w.plant.bins.map f)
    (hmoved : ∀ b, b.id = binID → RowRelocated nodeID keep b (f b))
    (hothers : ∀ b ∈ w.plant.bins, b.id ∈ ids → b.id ≠ binID → f b = b)
    (hclaims : ∀ b, (f b).claimedBy = b.claimedBy ∨ (f b).claimedBy = none) :
    Relocated ids binID nodeID keep w w' where
  nodes := hnodes
  moved := by
    intro b hb hid
    refine ⟨f b, ?_, hf b, hmoved b hid⟩
    rw [hbins]
    exact mem_map_of_mem hb
  others := by
    intro b hb hid hne
    rw [hbins, ← hothers b hb hid hne]
    exact mem_map_of_mem hb
  claims := by
    intro b' hb' o ho
    rw [hbins] at hb'
    obtain ⟨b, hb, rfl⟩ := mem_map.mp hb'
    refine ⟨b, hb, (hf b).symm, ?_⟩
    rcases hclaims b with h | h
    · rw [← h]
      exact ho
    · rw [h] at ho
      cases ho

theorem recordedAt_self (h : Relocated ids binID nodeID keep w w') {b : BinRow}
    (hb : b ∈ w.plant.bins) (hid : b.id = binID) : w'.recordedAt binID = some nodeID := by
  obtain ⟨b', hb', hid', hrow⟩ := h.moved b hb hid
  rw [← hid, ← hid', Ledger.recordedAt_of_mem hb']
  exact hrow.nodeID

theorem recordedAt_other (h : Relocated ids binID nodeID keep w w') {b : BinRow}
    (hb : b ∈ w.plant.bins) (hmem : b.id ∈ ids) (hne : b.id ≠ binID) :
    w'.recordedAt b.id = w.recordedAt b.id := by
  rw [Ledger.recordedAt_of_mem hb, Ledger.recordedAt_of_mem (h.others b hb hmem hne)]

end Relocated

namespace Ledger

variable {w w' : Ledger} {ids : List Nat}

/-! ## `MoveToTransit` -/

variable {transit node : NodeRow} {dest keep transitID : Nat}

theorem moveToTransit_relocated (binID : Nat)
    (htransit : w.plant.getNodeByName transitNodeName = some transit) :
    Relocated ids binID transit.id true w (w.moveToTransit binID) := by
  have heq : w.moveToTransit binID =
      w.updateBins (enterTransit binID transit.id) (enterTransit_id binID transit.id) := by
    unfold moveToTransit
    rw [htransit]
  rw [heq]
  refine .of_map (enterTransit_id binID transit.id) rfl rfl ?_ ?_ ?_
  · intro b hid
    unfold enterTransit
    split
    · exact ⟨rfl, id, fun _ => rfl⟩
    · rename_i hn
      exact ⟨by simpa [hid] using hn, id, fun _ => rfl⟩
  · intro b _ _ hne
    exact if_neg fun h => hne h.1
  · intro b
    refine .inl ?_
    unfold enterTransit
    split <;> rfl

/-! ## `PlaceBinTx` -/

variable {b : BinRow}

theorem evict_of_notMem (h : b.nodeID ≠ some dest) : w.evict dest keep transitID b = b := by
  unfold evict isGhost
  simp [h]

theorem evict_keep (h : b.id = keep) : w.evict dest keep transitID b = b := by
  unfold evict isGhost
  simp [h]

theorem evict_claimedBy_cases (dest keep transitID : Nat) (b : BinRow) :
    (w.evict dest keep transitID b).claimedBy = b.claimedBy ∨
      (w.evict dest keep transitID b).claimedBy = none := by
  unfold evict
  split
  · show b.claimedBy.filter w.isLive = _ ∨ b.claimedBy.filter w.isLive = _
    cases b.claimedBy with
    | none => exact .inl rfl
    | some o =>
      by_cases ho : w.isLive o = true
      · exact .inl (by simp [Option.filter, ho])
      · exact .inr (by simp [Option.filter, ho])
  · exact .inl rfl

theorem releaseOnArrival_bins (w : Ledger) (p : BinPlacement) :
    (w.releaseOnArrival p).plant.bins = w.plant.bins.map (w.handOff p) := by
  unfold releaseOnArrival
  split
  · rfl
  rename_i hnone
  have hsame : ∀ b ∈ w.plant.bins, w.handOff p b = b := by
    intro b hb
    exact if_neg fun h => hnone (any_eq_true.mpr ⟨b, hb, h⟩)
  exact ((map_congr_left hsame).trans (map_id _)).symm

def putDownRow (w : Ledger) (p : BinPlacement) (b : BinRow) : BinRow :=
  settle p (if p.releaseClaim then w.handOff p b else b)

theorem putDownRow_id (w : Ledger) (p : BinPlacement) (b : BinRow) :
    (w.putDownRow p b).id = b.id := by
  unfold putDownRow
  rw [settle_id]
  split
  · exact w.handOff_id p b
  · rfl

theorem putDown_bins (w : Ledger) (p : BinPlacement) :
    (w.putDown p).plant.bins = w.plant.bins.map (w.putDownRow p) := by
  have hbins : (w.putDown p).plant.bins =
      (if p.releaseClaim then w.releaseOnArrival p else w).plant.bins.map (settle p) := by
    unfold putDown
    split <;> split <;> rfl
  rw [hbins]
  unfold putDownRow
  split
  · rw [releaseOnArrival_bins, map_map]
    rfl
  · rfl

theorem putDown_nodes (w : Ledger) (p : BinPlacement) :
    (w.putDown p).plant.nodes = w.plant.nodes := by
  unfold putDown releaseOnArrival
  repeat' split
  all_goals rfl

variable {p : BinPlacement}

theorem handOff_of_ne (h : b.id ≠ p.binID) : w.handOff p b = b := by
  unfold handOff handsOff
  simp [h]

theorem putDownRow_of_ne (h : b.id ≠ p.binID) : w.putDownRow p b = b := by
  unfold putDownRow
  rw [handOff_of_ne h, ite_self]
  exact if_neg h

theorem putDownRow_self (h : b.id = p.binID) :
    RowRelocated p.toNodeID (!p.releaseClaim) b (w.putDownRow p b) := by
  have hid : (if p.releaseClaim then w.handOff p b else b).id = p.binID := by
    split
    · rw [handOff_id, h]
    · exact h
  unfold putDownRow settle
  rw [if_pos hid]
  refine ⟨rfl, fun _ => ?_, fun hkeep => ?_⟩
  · dsimp only
    split <;> exact fun h => nomatch h
  · have hrel : p.releaseClaim = false := by simpa using hkeep
    simp [hrel]

theorem putDownRow_claimedBy (p : BinPlacement) (b : BinRow) :
    (w.putDownRow p b).claimedBy = b.claimedBy ∨ (w.putDownRow p b).claimedBy = none := by
  have hsettle : ∀ x : BinRow, (settle p x).claimedBy = x.claimedBy := by
    intro x
    unfold settle
    split <;> rfl
  unfold putDownRow
  rw [hsettle]
  split
  · unfold handOff
    split
    · exact .inr rfl
    · exact .inl rfl
  · exact .inl rfl

theorem evictStaleGhostBins_eq_ok (keep : Nat) (hnode : w.plant.getNode dest = some node)
    (htransit : w.plant.getNodeByName transitNodeName = some transit) :
    ∃ w₁ ghosts, w.evictStaleGhostBins dest keep = .ok (w₁, ghosts) := by
  unfold evictStaleGhostBins
  dsimp only
  split
  · exact ⟨_, _, rfl⟩
  simp only [hnode, htransit]
  split
  · exact ⟨_, _, rfl⟩
  · exact ⟨_, _, rfl⟩

theorem placeBin_relocated (hnode : w.plant.getNode p.toNodeID = some node)
    (htransit : w.plant.getNodeByName transitNodeName = some transit)
    (hclear : ∀ b ∈ w.plant.bins, b.id ∈ ids → b.id ≠ p.binID → b.nodeID ≠ some p.toNodeID) :
    ∃ w' ghosts, w.placeBin p = .ok (w', ghosts) ∧
      Relocated ids p.binID p.toNodeID (!p.releaseClaim) w w' := by
  obtain ⟨w₁, ghosts, hevict⟩ := evictStaleGhostBins_eq_ok p.binID hnode htransit
  -- 退けた後の表は、退けていないか、ghost の row だけが書き換わっている
  obtain ⟨f, hf, hnodes, hbins, hkeep, hothers, hclaims⟩ :
      ∃ f : BinRow → BinRow, (∀ b, (f b).id = b.id) ∧ w₁.plant.nodes = w.plant.nodes ∧
        w₁.plant.bins = w.plant.bins.map f ∧ (∀ b, b.id = p.binID → f b = b) ∧
        (∀ b, b.nodeID ≠ some p.toNodeID → f b = b) ∧
        ∀ b, (f b).claimedBy = b.claimedBy ∨ (f b).claimedBy = none := by
    rcases evictStaleGhostBins_ok hevict with rfl | ⟨_, transitID, -, -, rfl⟩
    · exact ⟨id, fun _ => rfl, rfl, (map_id _).symm, fun _ _ => rfl, fun _ _ => rfl,
        fun _ => .inl rfl⟩
    · exact ⟨w.evict p.toNodeID p.binID transitID, w.evict_id _ _ _, rfl, rfl,
        fun _ => evict_keep, fun _ => evict_of_notMem, evict_claimedBy_cases _ _ _⟩
  have hplace : w.placeBin p = .ok (w₁.putDown p, ghosts) := by
    have hget : w₁.plant.getNode p.toNodeID = some node := by
      unfold Plant.getNode at hnode ⊢
      rw [hnodes, hnode]
    unfold placeBin
    rw [hevict]
    show (if _ then Except.error _ else Except.ok _) = _
    rw [hget, if_neg (by simp)]
    rfl
  refine ⟨w₁.putDown p, ghosts, hplace, ?_⟩
  refine .of_map (f := fun b => w₁.putDownRow p (f b)) ?_ ((putDown_nodes w₁ p).trans hnodes) ?_
    ?_ ?_ ?_
  · intro b
    rw [putDownRow_id, hf]
  · rw [putDown_bins, hbins, map_map]
    rfl
  · intro b hid
    rw [hkeep b hid]
    exact putDownRow_self hid
  · intro b hb hmem hne
    rw [hothers b (hclear b hb hmem hne), putDownRow_of_ne hne]
  · intro b
    rcases putDownRow_claimedBy p (f b) with h | h
    · rw [h]
      exact hclaims b
    · exact .inr h

theorem ledgerStep_placeBin {ghosts : List Nat}
    (h : w.placeBin p = .ok (w', ghosts)) : ledgerStep w (.placeBin p) = w' := by
  simp [ledgerStep, h, Except.toOption]

end Ledger

end Shingo.Core
