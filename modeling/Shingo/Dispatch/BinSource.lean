import Shingo.Core.Plant

/-!
# loader に渡す bin を選ぶ

`shingo-core/dispatch/binsource/source.go`。時刻は整数。
-/

namespace Shingo.Dispatch

open Core

/-- Go の `Intent` は int なので、二つのほかの値も取れる。 -/
inductive Intent where
  | drain
  | fill
  | other
  deriving DecidableEq

structure Want where
  payload : String
  intent : Intent

structure Cand where
  binID : Nat
  payload : String := ""
  uop : Int := 0
  cap : Int := 0
  loadedAt : Option Int := none
  createdAt : Int := 0
  claimed : Bool := false
  locked : Bool := false
  manifestConfirmed : Bool := false
  status : BinStatus := .available
  deriving DecidableEq

def effectiveTime (c : Cand) : Int := c.loadedAt.getD c.createdAt

def isEmpty (c : Cand) : Bool := c.payload = ""

def isFullOf (c : Cand) (x : String) : Bool := c.payload = x ∧ c.cap ≤ c.uop

def isPartialOf (c : Cand) (x : String) : Bool := c.payload = x ∧ 0 < c.uop ∧ c.uop < c.cap

def rejectReason (c : Cand) (w : Want) : String :=
  if c.claimed then "claimed"
  else if c.locked then "locked"
  else if c.status.blocksPickup then "status:" ++ c.status.text
  else match w.intent with
    | .drain =>
      if c.payload = "" then "empty-bin"
      else if c.payload ≠ w.payload then "payload:" ++ c.payload
      else if c.uop ≤ 0 then "uop<=0"
      else if isFullOf c w.payload ∧ c.manifestConfirmed = false then "unconfirmed-full"
      else ""
    | .fill =>
      if isPartialOf c w.payload ∨ isEmpty c then ""
      else if c.payload = w.payload then "full-not-a-container"
      else "payload:" ++ c.payload
    | .other => "unknown-intent"

def less (w : Want) (a b : Cand) : Bool :=
  if w.intent = .fill ∧ isEmpty a ≠ isEmpty b then isEmpty b
  else if w.intent = .fill ∧ isEmpty a then a.binID < b.binID
  else if effectiveTime a ≠ effectiveTime b then effectiveTime a < effectiveTime b
  else a.binID < b.binID

def source (w : Want) (cands : List Cand) : Option Cand :=
  cands.foldl (fun best c =>
    if rejectReason c w ≠ "" then best else if best.all (less w c) then some c else best) none

end Shingo.Dispatch
