import Mathlib.Logic.Relation
import Shingo.Core.NodeTree
import Shingo.Infra.Run

/-!
# node の親は輪にならないか

親を書く前に、新しい親から上へたどって node に着かないことを見る。
たどるのは 64 回までで、その先は見ない。
-/

namespace Shingo.Core

open Infra Relation NodeTree

theorem irrefl_of_edge {R R' : Nat → Nat → Prop} {n p : Nat} (h : ∀ x, ¬ TransGen R x x)
    (hedge : ∀ {a b}, R' a b → a = n ∧ b = p ∨ R a b) (hfree : ¬ ReflTransGen R p n) (x : Nat) :
    ¬ TransGen R' x x := by
  -- `p` からたどる道は `n` を通らない
  have hreach : ∀ {y}, ReflTransGen R' p y → ReflTransGen R p y := by
    intro y hy
    induction hy with
    | refl => exact .refl
    | tail _ hab ih =>
      rcases hedge hab with ⟨rfl, -⟩ | hab
      · exact absurd ih hfree
      · exact ih.tail hab
  -- 足した矢を通る道は、`n` に着いて `p` から続く
  have hpath : ∀ {y}, TransGen R' x y →
      TransGen R x y ∨ ReflTransGen R' x n ∧ ReflTransGen R' p y := by
    intro y hy
    induction hy with
    | single hab =>
      rcases hedge hab with ⟨rfl, rfl⟩ | hab
      · exact .inr ⟨.refl, .refl⟩
      · exact .inl (.single hab)
    | tail hxy hab ih =>
      rcases ih with ih | ⟨hn, hp⟩
      · rcases hedge hab with ⟨rfl, rfl⟩ | hab
        · exact .inr ⟨hxy.to_reflTransGen, .refl⟩
        · exact .inl (ih.tail hab)
      · exact .inr ⟨hn, hp.tail hab⟩
  intro hx
  rcases hpath hx with hx | ⟨hn, hp⟩
  · exact h x hx
  · exact hfree (hreach (hp.trans hn))

def NodeTree.Up (t : NodeTree) (a b : Nat) : Prop := t.parent a = some b

def NodeTree.Forest (t : NodeTree) : Prop := ∀ x, ¬ TransGen t.Up x x

def NodeTree.endsWithin (t : NodeTree) : Nat → Nat → Bool
  | 0, nodeID => (t.parent nodeID).isNone
  | hops + 1, nodeID => (t.parent nodeID).all (t.endsWithin hops)

/-- 確かめて書く親は、64 回までに根に着く。作る行は、自分を親にしない。 -/
def KeepsForest (t : NodeTree) : TreeAction → Prop
  | .create id parentID => parentID ≠ some id
  | .setParent _ p => t.endsWithin maxNodeDepth p = true
  | .update _ parentID | .reparent _ parentID =>
    ∀ p ∈ parentID, t.endsWithin maxNodeDepth p = true

variable {t : NodeTree} {nodeID p : Nat} {parentID : Option Nat}

theorem not_reaches {hops : Nat} (hend : t.endsWithin hops p = true)
    (hn : nodeID ∉ t.ancestorsWithin hops p) : ¬ ReflTransGen t.Up p nodeID := by
  intro hreach
  induction hops generalizing p with
  | zero =>
    rcases hreach.cases_head with rfl | ⟨q, hq, -⟩
    · simp [ancestorsWithin] at hn
    · simp [endsWithin, show t.parent p = some q from hq] at hend
  | succ hops ih =>
    rcases hreach.cases_head with rfl | ⟨q, hq, hrest⟩
    · simp [ancestorsWithin] at hn
    · rw [endsWithin, show t.parent p = some q from hq] at hend
      simp only [ancestorsWithin, show t.parent p = some q from hq, List.mem_cons, not_or] at hn
      exact ih hend hn.2 hrest

namespace NodeTree.Forest

variable (h : t.Forest)
include h

theorem write {hw} (hfree : ∀ p ∈ parentID, ¬ ReflTransGen t.Up p nodeID) :
    (t.write nodeID parentID hw).Forest := by
  have hedge : ∀ {a b}, (t.write nodeID parentID hw).Up a b →
      a = nodeID ∧ parentID = some b ∨ t.Up a b := by
    intro a b hab
    simp only [Up, NodeTree.write, Function.update_apply] at hab
    split at hab
    · next ha => exact .inl ⟨ha, hab⟩
    · exact .inr hab
  cases parentID with
  | none => exact fun x hx => h x (TransGen.mono (fun a b hab => by simpa using hedge hab) x x hx)
  | some p => exact irrefl_of_edge h (fun hab => by simpa [eq_comm] using hedge hab) (hfree p rfl)

theorem assign (hfree : nodeID ≠ 0 → ∀ p ∈ parentID, ¬ ReflTransGen t.Up p nodeID) :
    (t.assign nodeID parentID).Forest := by
  unfold NodeTree.assign
  split_ifs with hw
  · exact h.write (hfree hw.1)
  · exact h
  · exact h

theorem setParent (hend : t.endsWithin maxNodeDepth p = true) : (t.setParent nodeID p).Forest := by
  unfold NodeTree.setParent
  split_ifs with hcheck
  · exact h
  · refine h.assign fun hne q hq hreach => ?_
    cases hq
    by_cases hp : p = 0
    · -- 0 の行は無いので、0 からはどこへも行けない
      rcases hreach.cases_head with rfl | ⟨q, hq, -⟩
      · exact hne hp
      · have hpresent := (t.references p q hq).1
        simp [hp, t.noZero] at hpresent
    · refine not_reaches hend (fun hmem => hcheck ?_) hreach
      simp only [checkParentage, hne, hp, or_self, if_false, if_pos hmem]
      split <;> rfl

theorem step (a : TreeAction) (hok : KeepsForest t a) : (treeStep t a).Forest := by
  cases a with
  | create id parentID =>
    simp only [treeStep, create]
    split_ifs with hw hpresent
    · exact h
    · refine h.write fun p hp hreach => ?_
      -- 入れたばかりの行を親とする行は無い
      rcases hreach.cases_tail with rfl | ⟨q, -, hq⟩
      · exact hok hp
      · exact hpresent (t.references q id hq).2
    · exact h
  | setParent nodeID p => exact h.setParent hok
  | update nodeID parentID | reparent nodeID parentID =>
    cases parentID with
    | none => exact h.assign fun _ p hp => by cases hp
    | some p => exact h.setParent (hok p rfl)

end NodeTree.Forest

/-- **node の親は輪にならない。** -/
theorem hierarchy_stays_forest (t : NodeTree) (acts : List TreeAction) (h : t.Forest)
    (hok : AllSteps treeStep KeepsForest t acts) : (runSteps treeStep t acts).Forest :=
  AllSteps.visited_of_inv (fun _ a hs ha => hs.step a ha) h hok _ (mem_visited_runSteps _ _)

def ladder (n : Nat) : NodeTree where
  present id := 1 ≤ id ∧ id ≤ n
  parent id := if 2 ≤ id ∧ id ≤ n then some (id - 1) else none
  noZero := rfl
  references := by
    intro id p hp
    split at hp <;> simp at hp ⊢
    omega

theorem ladder_forest (n : Nat) : (ladder n).Forest := by
  have hup : ∀ {a b}, (ladder n).Up a b → b < a := by
    intro a b hab
    simp only [Up, ladder] at hab
    split at hab <;> simp at hab
    omega
  have hdown : ∀ x y, TransGen (ladder n).Up x y → y < x := by
    intro x y hxy
    induction hxy with
    | single hab => exact hup hab
    | tail _ hab ih => exact Nat.lt_trans (hup hab) ih
  exact fun x hx => Nat.lt_irrefl x (hdown x x hx)

theorem hierarchy_stays_forest_ladder :
    AllSteps treeStep KeepsForest (ladder 2) [.create 3 (some 2), .setParent 2 3] ∧
      (runSteps treeStep (ladder 2) [.create 3 (some 2), .setParent 2 3]).Forest := by
  refine ⟨?ok, hierarchy_stays_forest _ _ (ladder_forest 2) ?ok⟩
  exact ⟨by simp [KeepsForest], rfl, trivial⟩

/-- 66 段目を 1 段目の親にするとき、64 回たどっても 1 段目には着かない。 -/
theorem tall_ladder_closes : (ladder 66).Forest ∧
    ¬ (runSteps treeStep (ladder 66) [.setParent 1 66]).Forest := by
  refine ⟨ladder_forest 66, fun h => h 1 ?_⟩
  have hdown : ∀ k ≤ 64, ((ladder 66).setParent 1 66).parent (k + 2) = some (k + 1) := by
    decide +kernel
  have hreach : ∀ k ≤ 64, TransGen ((ladder 66).setParent 1 66).Up (k + 2) 1 := by
    intro k
    induction k with
    | zero => exact fun hk => .single (hdown 0 hk)
    | succ k ih => exact fun hk => .head (hdown (k + 1) hk) (ih (Nat.le_of_succ_le hk))
  exact .head (show ((ladder 66).setParent 1 66).parent 1 = some 66 by decide +kernel)
    (hreach 64 (Nat.le_refl 64))

end Shingo.Core
