import Mathlib.Logic.Function.Basic

/-!
# node の親

`shingo-core/store/nodes` の `parentage.go` と `nodes.go`。`nodes` の行は、親の列だけを持つ。
-/

namespace Shingo.Core

/-- `parent_id` は `REFERENCES nodes(id)`。id は BIGSERIAL なので 0 の行は無い。 -/
structure NodeTree where
  present : Nat → Bool
  parent : Nat → Option Nat
  noZero : present 0 = false
  references : ∀ id p, parent id = some p → present id = true ∧ present p = true

def maxNodeDepth : Nat := 64

namespace NodeTree

variable (t : NodeTree)

def ancestorsWithin : Nat → Nat → List Nat
  | 0, nodeID => [nodeID]
  | hops + 1, nodeID =>
    nodeID :: match t.parent nodeID with
      | none => []
      | some p => ancestorsWithin hops p

/-- 輪になるなら、親から node までの列（`Chain`）を返す。 -/
def checkParentage (nodeID parentID : Nat) : Option (List Nat) :=
  let chain := t.ancestorsWithin maxNodeDepth parentID
  if nodeID = 0 ∨ parentID = 0 then none
  else if nodeID = parentID then some []
  else if nodeID ∈ chain then some (chain.takeWhile (· ≠ nodeID) ++ [nodeID])
  else none

theorem update_true {f : Nat → Bool} {a x : Nat} (h : x = a ∨ f x = true) :
    Function.update f a true x = true := by
  by_cases hx : x = a
  · rw [hx, Function.update_self]
  · rw [Function.update_of_ne hx]
    exact h.resolve_left hx

def write (nodeID : Nat) (parentID : Option Nat)
    (h : nodeID ≠ 0 ∧ ∀ p ∈ parentID, p = nodeID ∨ t.present p = true) : NodeTree where
  present := Function.update t.present nodeID true
  parent := Function.update t.parent nodeID parentID
  noZero := by rw [Function.update_of_ne h.1.symm, t.noZero]
  references := by
    intro id p hp
    by_cases hid : id = nodeID
    · subst hid
      rw [Function.update_self] at hp
      exact ⟨update_true (.inl rfl), update_true (h.2 p hp)⟩
    · rw [Function.update_of_ne hid] at hp
      exact (t.references id p hp).imp (fun h => update_true (.inr h)) fun h => update_true (.inr h)

def assign (nodeID : Nat) (parentID : Option Nat) : NodeTree :=
  if h : nodeID ≠ 0 ∧ ∀ p ∈ parentID, p = nodeID ∨ t.present p = true then
    if t.present nodeID then t.write nodeID parentID h else t
  else t

def setParent (nodeID parentID : Nat) : NodeTree :=
  if (t.checkParentage nodeID parentID).isSome then t else t.assign nodeID (some parentID)

def update (nodeID : Nat) : Option Nat → NodeTree
  | some parentID => t.setParent nodeID parentID
  | none => t.assign nodeID none

def reparent (nodeID : Nat) : Option Nat → NodeTree
  | some parentID => t.setParent nodeID parentID
  | none => t.assign nodeID none

def create (id : Nat) (parentID : Option Nat) : NodeTree :=
  if h : id ≠ 0 ∧ ∀ p ∈ parentID, p = id ∨ t.present p = true then
    if t.present id then t else t.write id parentID h
  else t

end NodeTree

inductive TreeAction where
  | create (id : Nat) (parentID : Option Nat)
  | update (nodeID : Nat) (parentID : Option Nat)
  | setParent (nodeID parentID : Nat)
  | reparent (nodeID : Nat) (parentID : Option Nat)

def treeStep (t : NodeTree) : TreeAction → NodeTree
  | .create id parentID => t.create id parentID
  | .update nodeID parentID => t.update nodeID parentID
  | .setParent nodeID parentID => t.setParent nodeID parentID
  | .reparent nodeID parentID => t.reparent nodeID parentID

end Shingo.Core
