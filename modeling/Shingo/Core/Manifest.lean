import Shingo.Core.Applier

/-!
# 数を決め直す

`shingo-core/service/bin_manifest.go` の `BinManifestService` のうち、`uop_remaining` に絶対値を
書くもの。数を決め直した bin は新しい世代に入り、前の世代の電文は
`ApplyBinUOPDelta` が断る（`bumpEpoch`）。

`guard` は、`UPDATE` の `WHERE` の残り（locked・claimed_by・予約）に row が当たったか。
-/

namespace Shingo.Core

inductive ManifestError where
  | noSuchBin (binID : Int)
  | notClaimable (binID : Int)
  | negativeRemaining (remainingUOP : Int)
  | notClaimed (binID orderID : Int)
  | notFound (binID : Int)

variable (c : CoreInventory)

def bumpEpoch (svc : ManifestClearer) (binID : Int) : CoreInventory :=
  let c := c.updateBin binID fun b => { b with deltaEpoch := b.deltaEpoch + 1 }
  match c.bins binID with
  | none => c
  | some bin =>
    if bin.nodeName = "" ∨ svc.announceWired = false then c
    else
      { c with
        announced := c.announced ++
          [.uopAdjustment binID bin.nodeName bin.uopRemaining bin.deltaEpoch] }

def clearManifest (b : Bin) : Bin := { b with payloadCode := "", uopRemaining := 0 }

def clearForReuse (svc : ManifestClearer) (binID : Int) : Except ManifestError CoreInventory :=
  if (c.bins binID).isNone then .error (.noSuchBin binID)
  else .ok (bumpEpoch (c.updateBin binID clearManifest) svc binID)

def setForProduction (svc : ManifestClearer) (binID : Int)
    (payloadCode : String) (uop : Int) : Except ManifestError CoreInventory :=
  if (c.bins binID).isNone then .error (.noSuchBin binID)
  else .ok (bumpEpoch
    (c.updateBin binID fun b => { b with payloadCode, uopRemaining := uop }) svc binID)

def clearAndClaimTx (svc : ManifestClearer) (binID : Int) (guard : Bool) :
    Except ManifestError CoreInventory :=
  if (c.bins binID).isNone then .error (.noSuchBin binID)
  else if guard then .ok (bumpEpoch (c.updateBin binID clearManifest) svc binID)
  else .error (.notClaimable binID)

def syncUOPAndClaimTx (binID remainingUOP : Int) (guard : Bool) :
    Except ManifestError CoreInventory :=
  if (c.bins binID).isNone then .error (.noSuchBin binID)
  else if guard then .ok (c.updateBin binID fun b => { b with uopRemaining := remainingUOP })
  else .error (.notClaimable binID)

def claimUnderReservationTx (svc : ManifestClearer) (binID : Int)
    (remainingUOP : Option Int) (guard : Bool) : Except ManifestError CoreInventory :=
  match remainingUOP with
  | some n =>
    if n ≤ 0 then clearAndClaimTx c svc binID guard else syncUOPAndClaimTx c binID n guard
  | none => if guard then .ok c else .error (.notClaimable binID)

/-- owner を問わない形では claimed_by を見ない。 -/
def syncOrClearForReleased (svc : ManifestClearer) (binID orderID : Int)
    (remainingUOP : Option Int) (sourceNodeFallback guard : Bool) :
    Except ManifestError CoreInventory :=
  match remainingUOP with
  | none => .ok c
  | some n =>
    if n < 0 then .error (.negativeRemaining n)
    else if (c.bins binID).isNone then .error (.noSuchBin binID)
    else if guard = false then
      .error (if sourceNodeFallback then .notFound binID else .notClaimed binID orderID)
    else if n = 0 then .ok (bumpEpoch (c.updateBin binID clearManifest) svc binID)
    else .ok (bumpEpoch (c.updateBin binID fun b => { b with uopRemaining := n }) svc binID)

end Shingo.Core
