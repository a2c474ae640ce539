import Shingo.Infra.Run
import Shingo.Edge.RuntimeBin

/-!
# 世代は bin に付いていく

行が bin を名指すとき、その世代はその bin についての電文が名付けたものであり、
同じ bin を名指す後の時点で下がらない。guard は行に今ある bin と比べるだけなので、
bin を外した後に届いた古い電文には効かない。
-/

namespace Shingo.Edge

open Infra Protocol List RuntimeWorld Option

/-! ## 文の世代 -/

def RuntimeWrite.stamp? : RuntimeWrite → Option (Int × Int)
  | .claimCountAndEpoch _ _ binID epoch => some (binID, epoch)
  | .withBinAndEpoch _ binID epoch _ => binID.map fun b => (b, epoch)
  | .activeBinIDAndEpoch binID epoch => binID.map fun b => (b, epoch)
  | .withBin _ _ _ | .activeBinID _ | .uop _ => none

variable {s : Int × Int} {wr' : RuntimeWrite} {rt : RuntimeRow} {node : EdgeNode} {b epoch : Int}

theorem stamp_of_mem_singleton {wr : RuntimeWrite} (h : wr ∈ [wr']) (hs : wr.stamp? = some s) :
    wr'.stamp? = some s := by
  rwa [← mem_singleton.mp h]

theorem named_of_mem_singleton {wr : RuntimeWrite} {s' : Int × Int} (h : wr ∈ [wr'])
    (hs : wr.stamp? = some s) (hw : wr'.stamp? = some s') : s ∈ [s'] := by
  rw [mem_singleton.mp h, hw] at hs
  exact mem_singleton.mpr (some.inj hs).symm

variable {wr : RuntimeWrite} {w : RuntimeWorld}

theorem handleUOPAdjustment_named {adj : UOPAdjustment} (h : wr ∈ handleUOPAdjustment rt adj)
    (hs : wr.stamp? = some s) : s = (adj.binID, adj.epoch) := by
  have hbind : ∀ {claimID : Option Int} {count : Int},
      wr = .withBinAndEpoch claimID (some adj.binID) adj.epoch count →
        s = (adj.binID, adj.epoch) := by
    rintro claimID count rfl
    exact (some.inj hs).symm
  unfold handleUOPAdjustment at h
  split at h
  · exact hbind (mem_singleton.mp h)
  split at h
  · cases h
  split at h
  · cases h
  split at h
  · exact hbind (mem_singleton.mp h)
  split at h
  · cases h
  rename_i hbin
  -- ここまで来たら、行の bin は電文の bin
  rw [Decidable.not_not] at hbin
  split at h
  · rcases mem_cons.mp h with rfl | h
    · cases hs
    · rw [mem_singleton.mp h] at hs
      cases hs
  · rw [hbin] at h
    exact hbind (mem_singleton.mp h)

theorem handleNodeOrderDelivered_named {ev : OrderDelivered} {order : Option DeliveredOrder}
    {claim : Option DeliveredClaim} (h : wr ∈ handleNodeOrderDelivered node ev order claim)
    (hs : wr.stamp? = some s) : s ∈ (ev.binID.map fun b => (b, ev.binEpoch)).toList := by
  have hbind : ∀ {claim : DeliveredClaim} {binID : Int}, ev.binID = some binID →
      wr = onDelivered claim ev binID →
        s ∈ (ev.binID.map fun b => (b, ev.binEpoch)).toList := by
    rintro claim binID hbin rfl
    rw [hbin, ← some.inj hs]
    exact mem_singleton_self _
  unfold handleNodeOrderDelivered at h
  split at h
  · next binID _ hbin =>
    split at h
    · split at h
      · cases h
      · exact hbind hbin (mem_singleton.mp h)
    · cases h
  · next nodeID binID _ hbin =>
    split at h
    · split at h
      · split at h
        · exact hbind hbin (mem_singleton.mp h)
        · cases h
      · cases h
    · cases h
  · cases h

/-- **handler の決める文の世代は、電文がその bin に名付けたもの。** -/
theorem handleMessage_named {m : RuntimeMessage} (h : wr ∈ handleMessage node rt m)
    (hs : wr.stamp? = some s) : s ∈ m.named := by
  cases m with simp only [handleMessage] at h
  | uopAdjustment adj =>
    rw [handleUOPAdjustment_named h hs]
    exact mem_singleton_self _
  | binEpochRefresh binID epoch =>
    simp only [handleBinEpochRefresh] at h
    split at h
    · cases h
    rename_i hbin
    rw [Decidable.not_not] at hbin
    rw [hbin] at h
    exact named_of_mem_singleton h hs rfl
  | orderDelivered ev order claim => exact handleNodeOrderDelivered_named h hs
  | binPickedUp binID =>
    split at h
    · cases stamp_of_mem_singleton h hs
    · cases h
  | loadedL1 binID epoch =>
    split at h
    · exact named_of_mem_singleton h hs rfl
    · cases h
  | manualLoad claimID loaded count =>
    split at h
    · split at h
      · exact named_of_mem_singleton h hs rfl
      · cases stamp_of_mem_singleton h hs
    · cases stamp_of_mem_singleton h hs
  | cleared claimID count binID epoch =>
    exact named_of_mem_singleton h hs rfl
  | reconcile claimID bin =>
    split at h
    · exact named_of_mem_singleton h hs rfl
    · cases stamp_of_mem_singleton h hs
  | clearActiveAndReset claimID | setActiveBin binID => cases stamp_of_mem_singleton h hs

/-! ## 文の実行 -/

/--
文の条件。今の行にない bin を付ける文は、

* 世代を書くなら、その bin がこの node で持った世代より古くない
* 世代を書かない文では付けない
-/
def RuntimeWrite.Forward (w : RuntimeWorld) : RuntimeWrite → Prop
  | .withBinAndEpoch _ (some b) epoch _ | .activeBinIDAndEpoch (some b) epoch =>
    w.row.activeBinID ≠ some b → ∀ p ∈ w.held, p.1 = b → p.2 ≤ epoch
  | .withBin _ (some b) _ | .activeBinID (some b) => w.row.activeBinID = some b
  | _ => True

instance (w : RuntimeWorld) : ∀ wr : RuntimeWrite, Decidable (wr.Forward w)
  | .withBinAndEpoch _ (some _) _ _ | .activeBinIDAndEpoch (some _) _ =>
    inferInstanceAs (Decidable (_ → _))
  | .withBin _ (some _) _ | .activeBinID (some _) => inferInstanceAs (Decidable (_ = _))
  | .withBinAndEpoch _ none _ _ | .activeBinIDAndEpoch none _ | .withBin _ none _
  | .activeBinID none | .claimCountAndEpoch _ _ _ _ | .uop _ => .isTrue trivial

/-- 書いた後の名指し。前からの bin の世代が進むか、付けた bin の世代が前のどれより古くない。 -/
inductive NamesNext (w : RuntimeWorld) (wr : RuntimeWrite) (b epoch : Int) : Prop where
  | same (hbin : w.row.activeBinID = some b) (hle : w.row.activeBinEpoch ≤ epoch)
      (hstamp : epoch = w.row.activeBinEpoch ∨ wr.stamp? = some (b, epoch))
  | fresh (hstamp : wr.stamp? = some (b, epoch)) (hle : ∀ p ∈ w.held, p.1 = b → p.2 ≤ epoch)

theorem namesNext_bind (hstamp : wr.stamp? = some (b, epoch))
    (hforward : w.row.activeBinID ≠ some b → ∀ p ∈ w.held, p.1 = b → p.2 ≤ epoch) :
    NamesNext w wr b (epochAssignOnBind w.row (some b) epoch) := by
  unfold epochAssignOnBind
  by_cases hbin : w.row.activeBinID = some b
  · by_cases hlt : epoch < w.row.activeBinEpoch
    · rw [if_pos ⟨hbin, hlt⟩]
      exact .same hbin (Int.le_refl _) (.inl rfl)
    · rw [if_neg fun h => hlt h.2]
      exact .same hbin (Int.not_lt.mp hlt) (.inr hstamp)
  · rw [if_neg fun h => hbin h.1]
    exact .fresh hstamp (hforward hbin)

theorem apply_names (h : wr.Forward w) (hn : (wr.apply w.row).naming = some (b, epoch)) :
    NamesNext w wr b epoch := by
  obtain ⟨b', hb, heq⟩ := map_eq_some_iff.mp hn
  obtain ⟨rfl, rfl⟩ := Prod.mk.inj heq
  cases wr with
  | claimCountAndEpoch claimID count binID epoch =>
    show NamesNext w _ b' (epochAssignForBoundBin w.row binID epoch)
    unfold epochAssignForBoundBin
    split
    · next hc =>
      obtain rfl : binID = b' := some.inj (hc.1.symm.trans hb)
      exact .same hb (Int.le_of_lt hc.2) (.inr rfl)
    · exact .same hb (Int.le_refl _) (.inl rfl)
  | withBin claimID binID count =>
    obtain rfl : binID = some b' := hb
    exact .same h (Int.le_refl _) (.inl rfl)
  | withBinAndEpoch claimID binID epoch count =>
    obtain rfl : binID = some b' := hb
    exact namesNext_bind rfl h
  | activeBinID binID =>
    obtain rfl : binID = some b' := hb
    exact .same h (Int.le_refl _) (.inl rfl)
  | activeBinIDAndEpoch binID epoch =>
    obtain rfl : binID = some b' := hb
    exact namesNext_bind rfl h
  | uop count => exact .same hb (Int.le_refl _) (.inl rfl)

/-! ## 不変条件 -/

def BindsForward (w : RuntimeWorld) : RuntimeAction → Prop
  | .commit i => ∀ wr ∈ w.decided[i]?, wr.Forward w
  | .receive _ | .tick _ _ => True

instance (w : RuntimeWorld) : ∀ a, Decidable (BindsForward w a)
  | .commit _ => inferInstanceAs (Decidable (∀ _ ∈ _, _))
  | .receive _ | .tick _ _ => .isTrue trivial

/-- 名指す世代は電文が名付けたもので、この node で持った世代のどれより古くない。 -/
structure RuntimeInv (w : RuntimeWorld) : Prop where
  decided : ∀ wr ∈ w.decided, ∀ s, wr.stamp? = some s → s ∈ w.named
  named : ∀ s, w.row.naming = some s → s ∈ w.named
  held : ∀ s, w.row.naming = some s → s ∈ w.held
  top : ∀ b epoch, w.row.naming = some (b, epoch) → ∀ p ∈ w.held, p.1 = b → p.2 ≤ epoch

namespace RuntimeInv

theorem commit (h : RuntimeInv w) {i : Nat} (hwr : w.decided[i]? = some wr) (hok : wr.Forward w) :
    RuntimeInv { w.write (wr.apply w.row) with decided := w.decided.eraseIdx i } where
  decided x hx := h.decided x (mem_of_mem_eraseIdx hx)
  named s hs := by
    obtain ⟨b, epoch⟩ := s
    have hwrite := h.decided wr (mem_of_getElem? hwr)
    cases apply_names hok hs with
    | same hbin hle hstamp =>
      rcases hstamp with rfl | hstamp
      · refine h.named _ ?_
        rw [RuntimeRow.naming, hbin]
        rfl
      · exact hwrite _ hstamp
    | fresh hstamp hle => exact hwrite _ hstamp
  held s hs := by
    refine mem_append_right _ ?_
    rw [show (wr.apply w.row).naming = some s from hs]
    exact mem_singleton_self s
  top b epoch hs p hp hpb := by
    rcases mem_append.mp hp with hp | hp
    · cases apply_names hok hs with
      | same hbin hle hstamp =>
        have hcur := h.top b w.row.activeBinEpoch (by rw [RuntimeRow.naming, hbin]; rfl) p hp hpb
        exact Int.le_trans hcur hle
      | fresh hstamp hle => exact hle p hp hpb
    · rw [show (wr.apply w.row).naming = some (b, epoch) from hs] at hp
      obtain rfl := mem_singleton.mp hp
      exact Int.le_refl epoch

theorem step (node : EdgeNode) (w : RuntimeWorld) (a : RuntimeAction) (h : RuntimeInv w)
    (hok : BindsForward w a) :
    RuntimeInv (runtimeStep node w a) ∧ w.held ⊆ (runtimeStep node w a).held := by
  cases a with
  | receive m =>
    refine ⟨⟨?_, ?_, h.held, h.top⟩, List.Subset.refl _⟩
    · intro wr hwr s hs
      rcases mem_append.mp hwr with hwr | hwr
      · exact mem_append_left _ (h.decided wr hwr s hs)
      · exact mem_append_right _ (handleMessage_named hwr hs)
    · intro s hs
      exact mem_append_left _ (h.named s hs)
  | commit i =>
    simp only [runtimeStep]
    split
    · exact ⟨h, List.Subset.refl _⟩
    · next wr hwr => exact ⟨h.commit hwr (hok wr hwr), subset_append_left _ _⟩
  | tick remaining pending => exact ⟨⟨h.decided, h.named, h.held, h.top⟩, List.Subset.refl _⟩

end RuntimeInv

def RuntimeWorld.start (row : RuntimeRow) : RuntimeWorld := ⟨row, [], [], []⟩

/-- **世代は bin に付いていく。** -/
theorem stamp_follows_carrier (node : EdgeNode) (row : RuntimeRow) (acts : List RuntimeAction)
    (hrow : row.activeBinID = none)
    (hok : AllSteps (runtimeStep node) BindsForward (start row) acts) :
    (∀ w ∈ visited (runtimeStep node) (start row) acts,
        ∀ b epoch, w.row.naming = some (b, epoch) → (b, epoch) ∈ w.named)
      ∧ (visited (runtimeStep node) (start row) acts).Pairwise fun w w' =>
        ∀ b epoch epoch', w.row.naming = some (b, epoch) → w'.row.naming = some (b, epoch') →
          epoch ≤ epoch' := by
  have hnone : (start row).row.naming = none := by
    rw [RuntimeRow.naming, start, hrow]
    rfl
  have hstart : RuntimeInv (start row) := by
    refine ⟨forall_mem_nil _, ?_, ?_, ?_⟩
    · intro s hs
      rw [hnone] at hs
      cases hs
    · intro s hs
      rw [hnone] at hs
      cases hs
    · intro b epoch hs
      rw [hnone] at hs
      cases hs
  have hinv := AllSteps.visited_of_inv
    (fun w a h hok => (RuntimeInv.step node w a h hok).1) hstart hok
  obtain ⟨hpair, -⟩ := AllSteps.visited_pairwise (R := fun w w' : RuntimeWorld => w.held ⊆ w'.held)
    (fun _ => List.Subset.refl _) (fun _ _ _ h h' => List.Subset.trans h h')
    (RuntimeInv.step node) hstart hok
  refine ⟨fun w hw b epoch hs => (hinv w hw).named _ hs, ?_⟩
  refine hpair.imp_of_mem ?_
  intro w w' hw hw' hsub b epoch epoch' hs hs'
  exact (hinv w' hw').top b epoch' hs' (b, epoch) (hsub ((hinv w hw).held _ hs)) rfl

/-! ## press の node -/

def pressSlot : EdgeNode := ⟨7, "PRESS"⟩

def emptySlot : RuntimeRow := ⟨some 3, none, 0, 0, 0⟩

def arrives (epoch : Int) : RuntimeMessage :=
  .orderDelivered ⟨some 7, some 41, "PRESS", "", some 100, epoch⟩ (some ⟨false, "PRESS", ""⟩)
    (some ⟨3, .consume, 100⟩)

def clearedWhileBound : List RuntimeAction :=
  [.receive (arrives 1), .commit 0, .receive (.cleared (some 3) 0 41 2), .commit 0,
   .receive (arrives 1), .commit 0]

theorem stamp_follows_carrier_clearedWhileBound :
    (runSteps (runtimeStep pressSlot) (start emptySlot) clearedWhileBound).row.naming
        = some (41, 2)
      ∧ (41, 2) ∈ (runSteps (runtimeStep pressSlot) (start emptySlot)
          clearedWhileBound).named :=
  ⟨by decide,
    (stamp_follows_carrier pressSlot emptySlot clearedWhileBound rfl (by decide)).1 _
      (mem_visited_runSteps _ _) 41 2 (by decide)⟩

def lateDelivery : List RuntimeAction :=
  [.receive (.uopAdjustment ⟨41, 100, "core", false, true, 2⟩), .commit 0,
   .receive (.binPickedUp 41), .commit 0]

/-- 外れた bin には guard が効かず、遅れて届いた配達が世代を 2 から 1 に戻す。 -/
theorem late_delivery_after_clear :
    (visited (runtimeStep pressSlot) (start emptySlot)
        (lateDelivery ++ [.receive (arrives 1), .commit 0])).map (fun w => w.row.naming)
      = [none, none, some (41, 2), some (41, 2), none, none, some (41, 1)] := by
  decide

end Shingo.Edge
