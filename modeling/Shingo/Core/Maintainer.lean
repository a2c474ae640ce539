import Shingo.Protocol.EpisodeKey

/-!
# 保つ数の見張り（`Maintainer`）

`shingo-core/engine/maintainer.go` の `Tick` のうち、消えた宣言の episode を閉じる部分。
-/

namespace Shingo.Core

open Protocol

structure MaintainNode where
  id : Nat
  name : String
  isSynthetic : Bool
  enabled : Bool
  maintainEnabled : String
  maintenanceStation : String
  binTypeCodes : List String

/-- 一回の `Tick` の読みが成功したか。node ごとの読みは id で訊く。 -/
structure TickReads where
  listNodes : Bool
  listOpen : Bool
  maintainEnabled : Nat → Bool
  maintenanceStation : Nat → Bool
  listLevels : Nat → Bool

def getNodeProperty (ok : Bool) (value : String) : String := if ok then value else ""

namespace TickReads

variable (r : TickReads)

def keysOf (g : MaintainNode) : List String :=
  if !g.isSynthetic || !g.enabled then []
  else if getNodeProperty (r.maintainEnabled g.id) g.maintainEnabled ≠ "on" then []
  else if getNodeProperty (r.maintenanceStation g.id) g.maintenanceStation = "" then []
  else if r.listLevels g.id then g.binTypeCodes.map (maintainEpisodeKey g.name)
  else []

/-- `closeWithdrawn` が閉じる鍵。`opened` は開いた episode の鍵。 -/
def closeWithdrawn (nodes : List MaintainNode) (opened : List String) : List String :=
  if r.listNodes && r.listOpen then
    opened.filter fun key => !(nodes.flatMap r.keysOf).contains key
  else []

end TickReads

end Shingo.Core
