import Shingo.Properties.CellLevel

/-!
# 一度の tick は、A/B の対の片側だけを減らすか

止まっている側は node ごとに飛ばす。`active_pull` の既定は 1 なので、
一度も切り替えていない対は両側が動いている。
-/

namespace Shingo.Edge

open List CellWorld Infra Option

def CellNode.charged (n : CellNode) (c : NodeClaim) (delta : Int) (t : TickInput) : CellNode :=
  let tick := n.tick .consume c delta
  { n with
    runtime := NodeWorld.applyHoldAndReplay n.runtime tick
      (NodeWorld.drainLinesideFirst tick t.drainQty t.drainOk) t.uopOk }

/-- 側。その style で数える、対のある consume の node。 -/
def CellWorld.Side (w : CellWorld) (styleID : Int) (i : Nat) (n : CellNode) (c : NodeClaim) :
    Prop :=
  w.ticked i styleID = some (n, c) ∧ c.role = .consume ∧ c.pairedCoreNode ≠ ""

variable {h : Hysteresis} {w : CellWorld} {i j k : Nat} {n m : CellNode} {c d : NodeClaim}
  {t : TickInput} {styleID : Int}

/-! ## 一巡り -/

section

variable (hi : w.Side styleID i n c) (hj : w.Side styleID j m d) (hne : i ≠ j)
include hi hj hne

end

/-! ## counter の変化 -/

end Shingo.Edge
