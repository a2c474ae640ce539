import Mathlib.Algebra.Order.BigOperators.Group.List
import Mathlib.Algebra.Order.Ring.Int
import Shingo.Edge.ChangeoverRelease
import Shingo.Properties.LinesideMirror

/-!
# 捕捉の釣り合い

`CaptureToLineside` が bucket に足した数の合計と、同じ呼び出しが bin から引いた数。
bin の数を書くのは、release に載る 0 か `capture_reduction` のどちらか一つ。
-/

namespace Shingo.Edge

open List

variable (node : LinesideNode) (t : LinesideTable) (ev : CaptureEvent) (now : Nat)

variable (faults : CaptureFaults)

section

variable {ev}
variable (hbin : 0 < ev.binID)
include hbin

end

def pullParts (parts : List (String × Int)) : ReleaseDisposition :=
  { mode := .captureLineside, linesideCapture := parts }

def pullEvent (parts : List (String × Int)) : CaptureEvent :=
  { captureOne 1 "P" 0 with lineside := some parts, binID := 7, suppressBinDelta := false }

def pull (faults : CaptureFaults) (parts : List (String × Int)) :=
  captureToLinesideAmid pressNode faults ⟨[], 1⟩ (pullEvent parts) 1

end Shingo.Edge
