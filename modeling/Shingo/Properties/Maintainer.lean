import Shingo.Core.Maintainer

/-!
# 読めなかった宣言は、消えた宣言ではない

`Tick` は node ごとの読みに失敗すると、その node を飛ばして先へ進む。
-/

namespace Shingo.Core

open List Protocol

def MaintainNode.Declares (g : MaintainNode) (code : String) : Prop :=
  g.isSynthetic = true ∧ g.enabled = true ∧ g.maintainEnabled = "on" ∧ code ∈ g.binTypeCodes
  deriving Decidable

/-- node の三つの読みが成功し、station が在る。 -/
def TickReads.Reads (r : TickReads) (g : MaintainNode) : Prop :=
  r.maintainEnabled g.id = true ∧ r.maintenanceStation g.id = true ∧ r.listLevels g.id = true ∧
    g.maintenanceStation ≠ ""
  deriving Decidable

theorem mem_keysOf {r : TickReads} {g : MaintainNode} {key : String} :
    key ∈ r.keysOf g ↔
      r.Reads g ∧ ∃ code, g.Declares code ∧ maintainEpisodeKey g.name code = key := by
  unfold TickReads.keysOf TickReads.Reads MaintainNode.Declares getNodeProperty
  cases g.isSynthetic <;> cases g.enabled <;> cases r.maintainEnabled g.id <;>
    cases r.maintenanceStation g.id <;> cases r.listLevels g.id <;> simp
  grind

/--
**宣言の在る episode を閉じないのは、二つの一覧のどちらかが読めないか、開いた episode の宣言が
どれも、同じ鍵を宣言する読めた node を持つとき、かつそのときに限る。**
-/
theorem withdrawn_only_undeclared (r : TickReads) (nodes : List MaintainNode)
    (opened : List String) :
    (∀ g ∈ nodes, ∀ code, maintainEpisodeKey g.name code ∈ r.closeWithdrawn nodes opened →
        ¬ g.Declares code) ↔
      r.listNodes = false ∨ r.listOpen = false ∨
        ∀ g ∈ nodes, ∀ code, g.Declares code → maintainEpisodeKey g.name code ∈ opened →
          ∃ g' ∈ nodes, r.Reads g' ∧ ∃ code', g'.Declares code' ∧
            maintainEpisodeKey g'.name code' = maintainEpisodeKey g.name code := by
  unfold TickReads.closeWithdrawn
  split
  · rename_i hlists
    rw [Bool.and_eq_true] at hlists
    simp only [hlists, Bool.true_eq_false, false_or, mem_filter, Bool.not_eq_true', contains_eq_mem,
      decide_eq_false_iff_not, mem_flatMap, mem_keysOf]
    grind
  · rename_i hlists
    simp only [Bool.and_eq_true, not_and_or, Bool.not_eq_true] at hlists
    simp only [not_mem_nil, false_imp_iff, implies_true, true_iff]
    exact hlists.imp_right .inl

def bankGroup : MaintainNode := ⟨1, "BANK", true, true, "on", "ST1", ["BOX"]⟩

def readsWith (ok : Bool) : TickReads := ⟨true, true, fun _ => true, fun _ => true, fun _ => ok⟩

/-- level を読めなかっただけで、宣言のある episode を閉じる。 -/
theorem failed_read_withdraws : bankGroup.Declares "BOX" ∧
    (readsWith false).closeWithdrawn [bankGroup] ["mnt|BANK|BOX"] = ["mnt|BANK|BOX"] := by
  decide

end Shingo.Core
