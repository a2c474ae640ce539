import Mathlib.Data.List.Forall2
import Shingo.Dispatch.Steps

/-!
# 引き直した行程は元の行程と同じ意味か

受付で slot が足りない order の行程は、そのまま残し（`stepsAsResolved`）、後で group の名を
引き直す（`reResolveComplexSteps`）。どちらも step を作り直すので、wait の主が落ちる。
-/

namespace Shingo.Dispatch

open List

/-- group の名のほかは変わらない。 -/
structure SameMeaning (isNGRP : String → Bool) (s s' : ResolvedStep) : Prop where
  action : s'.action = s.action
  waitKind : s'.waitKind = s.waitKind
  empty : s'.empty = s.empty
  exclusiveSlot : s'.exclusiveSlot = s.exclusiveSlot
  node : s'.node = s.node ∨ isNGRP s.node = true

def ComplexOrderStep.meaning (s : ComplexOrderStep) : ResolvedStep :=
  ⟨s.action, s.node, "", s.empty, s.exclusiveSlot, s.waitKind, 0⟩

/-- 引き直す step。group の名を持ち、lane の wait でない。 -/
def Regroups (isNGRP : String → Bool) (s : ResolvedStep) : Prop :=
  s.node ≠ "" ∧ s.waitKind ≠ .lane ∧ isNGRP s.node = true

variable {ε : Type} {isNGRP : String → Bool}
  {resolveStepNode : ComplexOrderStep → Except ε (String × String)}

def Unresolvable (isNGRP : String → Bool)
    (resolveStepNode : ComplexOrderStep → Except ε (String × String)) (s : ResolvedStep) : Prop :=
  Regroups isNGRP s ∧
    ∃ e, resolveStepNode ⟨s.action, s.node, s.empty, s.exclusiveSlot, .untagged⟩ = .error e

/-- 引き直した step が意味を保つのは、引き直さないか、wait の主が無いとき。 -/
theorem reResolveStep_ok {s s' : ResolvedStep}
    (h : reResolveStep isNGRP resolveStepNode s = .ok s') :
    (SameMeaning isNGRP s s' ↔ (Regroups isNGRP s → s.waitKind = .untagged)) ∧
      ¬ Unresolvable isNGRP resolveStepNode s := by
  unfold reResolveStep at h
  split at h
  · rename_i hpass
    cases h
    have hnot : ¬ Regroups isNGRP s := by
      unfold Regroups
      grind
    exact ⟨iff_of_true ⟨rfl, rfl, rfl, rfl, .inl rfl⟩ fun hre => absurd hre hnot,
      fun hfail => hnot hfail.1⟩
  rename_i hgroup
  simp only [not_or, Bool.not_eq_false] at hgroup
  split at h
  · cases h
  · rename_i hres
    cases h
    refine ⟨⟨fun hsame _ => hsame.waitKind.symm, fun hkind => ?_⟩, fun ⟨_, e, he⟩ => ?_⟩
    · exact ⟨rfl, (hkind hgroup).symm, rfl, rfl, .inr hgroup.2.2⟩
    · cases hres.symm.trans he

theorem reResolveFrom_ok {steps new : List ResolvedStep} {i : Nat}
    (h : reResolveFrom isNGRP resolveStepNode i steps = .ok new) :
    (Forall₂ (SameMeaning isNGRP) steps new ↔
        ∀ s ∈ steps, Regroups isNGRP s → s.waitKind = .untagged) ∧
      ∀ s ∈ steps, ¬ Unresolvable isNGRP resolveStepNode s := by
  induction steps generalizing i new with
  | nil =>
    cases h
    simp
  | cons s rest ih =>
    unfold reResolveFrom at h
    split at h
    · cases h
    · cases h
    rename_i hs hrest
    cases h
    rw [forall₂_cons, forall_mem_cons, forall_mem_cons, (reResolveStep_ok hs).1, (ih hrest).1]
    exact ⟨Iff.rfl, (reResolveStep_ok hs).2, (ih hrest).2⟩

theorem reResolveFrom_error {steps : List ResolvedStep} {i : Nat} {e : Nat × ε}
    (h : reResolveFrom isNGRP resolveStepNode i steps = .error e) :
    ∃ s ∈ steps, Unresolvable isNGRP resolveStepNode s := by
  induction steps generalizing i e with
  | nil => cases h
  | cons s rest ih =>
    unfold reResolveFrom at h
    split at h
    · rename_i hs
      refine ⟨s, mem_cons_self, ?_⟩
      unfold reResolveStep at hs
      split at hs
      · cases hs
      rename_i hgroup
      simp only [not_or, Bool.not_eq_false] at hgroup
      split at hs
      · exact ⟨hgroup, _, ‹_›⟩
      · cases hs
    · rename_i hrest _
      obtain ⟨s, hs, hfail⟩ := ih hrest
      exact ⟨s, mem_cons_of_mem _ hs, hfail⟩
    · cases h

/--
**行程の意味が step ごとに保たれるのは、残すときは wait の主が無いとき、引き直すときは、
引けない step が在って元のまま返るか、引き直す step に wait の主が無いとき、かつそのときに限る。**
-/
theorem replay_keeps_meaning {ε : Type} (isNGRP : String → Bool)
    (resolveStepNode : ComplexOrderStep → Except ε (String × String))
    (wire : List ComplexOrderStep) (steps : List ResolvedStep) :
    (Forall₂ (SameMeaning isNGRP) (wire.map (·.meaning)) (stepsAsResolved wire) ↔
        ∀ s ∈ wire, s.waitKind = .untagged) ∧
      (Forall₂ (SameMeaning isNGRP) steps
          (reResolveComplexSteps isNGRP resolveStepNode steps).1 ↔
        (∃ s ∈ steps, Unresolvable isNGRP resolveStepNode s) ∨
          ∀ s ∈ steps, Regroups isNGRP s → s.waitKind = .untagged) := by
  constructor
  · unfold stepsAsResolved
    rw [forall₂_map_left_iff, forall₂_map_right_iff, forall₂_same]
    refine forall₂_congr fun s _ => ⟨fun h => h.waitKind.symm, fun h => ?_⟩
    exact ⟨rfl, h.symm, rfl, rfl, .inl rfl⟩
  · unfold reResolveComplexSteps
    split
    · rename_i herr
      exact iff_of_true (forall₂_same.mpr fun s _ => ⟨rfl, rfl, rfl, rfl, .inl rfl⟩)
        (.inl (reResolveFrom_error herr))
    · rename_i hnew
      rw [(reResolveFrom_ok hnew).1, or_iff_right]
      rintro ⟨s, hs, hfail⟩
      exact (reResolveFrom_ok hnew).2 s hs hfail

def toFirstSlot (_ : ComplexOrderStep) : Except String (String × String) := .ok ("S1", "BANK")

/-- station の wait は、残すだけでも、group の名を引き直しても、誰のものでもなくなる。 -/
theorem station_wait_loses_kind :
    stepsAsResolved [{ action := .wait, waitKind := .station }] = [{ action := .wait }] ∧
      (reResolveComplexSteps (· == "BANK") toFirstSlot
        [{ action := .wait, node := "BANK", waitKind := .station }]).1 =
          [{ action := .wait, node := "S1", group := "BANK" }] := by
  decide

end Shingo.Dispatch
