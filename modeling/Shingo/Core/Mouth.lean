import Mathlib.Data.List.Sort
import Mathlib.Data.List.Destutter

/-!
# lane の口の予約（mouth row）

`shingo-core/store/reservations/mouth.go` と `dig_exclusion.go`。

mouth row は「どの order が、どの lane を、どの向きに使っているか」の記録。
一つの呼び出しは一つの transaction で、lane ごとの advisory lock の中で動くので、
ここでは呼び出し一つを表から表への関数にする。失敗した呼び出しは表を変えない。
-/

namespace Shingo.Core

/-- lane を使う向き。 -/
inductive Mode where
  | inbound
  | outbound
  | dig
  deriving DecidableEq

def byExcavation : String := "lanelock"

def bySourceLock : String := "lanegate"

def byDigHandoff : String := "dighandoff"

def isExcavation (reservedBy : String) : Bool := reservedBy == byExcavation

/-- dig を頼む order と、lane の持ち主。 -/
structure DigAsker where
  orderID : Nat
  laneOwner : Nat
  deriving DecidableEq

def anyone : DigAsker := { orderID := 0, laneOwner := 0 }

def askerFor (orderID laneOwner : Nat) : DigAsker :=
  { orderID, laneOwner := if laneOwner = 0 then orderID else laneOwner }

def DigAsker.owns (a : DigAsker) (orderID : Nat) : Bool :=
  if orderID = 0 then false else orderID == a.orderID || orderID == a.laneOwner

def DigAsker.excludedBy (a : DigAsker) (digOwner : Nat) : Bool :=
  if digOwner = 0 then false else !a.owns digOwner

/--
有効な mouth row。

`takenFor` は表には無い。row を今の mode で取った呼び出しの beneficiary を、
証明のために覚えておく。modelled function はどれもこれを読まない。
-/
structure MouthRow where
  orderID : Nat
  laneID : Nat
  mode : Mode
  reservedBy : String
  takenFor : DigAsker
  deriving DecidableEq

abbrev MouthTable := List MouthRow

variable (t : MouthTable)

def MouthTable.onLane (laneID : Nat) : List MouthRow :=
  t.filter (·.laneID == laneID)

/-- lane の row を、order の順に。 -/
def activeMouthRows (laneID : Nat) : List MouthRow :=
  (t.onLane laneID).insertionSort (fun a b => a.orderID ≤ b.orderID)

def sortedUniqueLanes (ids : List Nat) : List Nat :=
  (ids.insertionSort (· ≤ ·)).destutter (· ≠ ·)

/-! ## 取得 -/

/-- 口の判定。 -/
inductive MouthVerdict where
  | admitFresh
  | admitIdempotent
  | admitUpgrade
  | admitConflict

inductive MouthError where
  | reservationConflict
  | otherMode (owner laneID : Nat) (held wanted : Mode)
  deriving DecidableEq

inductive MouthScan where
  | foreignConflict
  | own (ownerHolds : Bool) (ownerHoldsOtherMode : Option Mode)

/-- row を順に見て、ぶつかるか、自分の row が在るか。 -/
def admitScan (owner : Nat) (mode : Mode) (beneficiary : DigAsker) :
    Bool → Option Mode → List MouthRow → MouthScan
  | ownerHolds, other, [] => .own ownerHolds other
  | ownerHolds, other, h :: rest =>
    if h.orderID = owner then
      if h.mode = mode then admitScan owner mode beneficiary true other rest
      else admitScan owner mode beneficiary ownerHolds (some h.mode) rest
    else if beneficiary.owns h.orderID then
      -- この取得が助ける order の row は邪魔にならない
      admitScan owner mode beneficiary ownerHolds other rest
    else if mode = .dig ∨ h.mode = .dig ∨ h.mode ≠ mode then .foreignConflict
    else admitScan owner mode beneficiary ownerHolds other rest

def admitMouth (laneID owner : Nat) (mode : Mode) (beneficiary : DigAsker) :
    Except MouthError MouthVerdict :=
  match admitScan owner mode beneficiary false none (activeMouthRows t laneID) with
  | .foreignConflict => .ok .admitConflict
  | .own _ (some held) =>
    if mode = .dig ∧ beneficiary.owns owner = true then .ok .admitUpgrade
    -- 自分の row が別の mode にある。二つ目を入れずに誤りとして返す
    else .error (.otherMode owner laneID held mode)
  | .own true none => .ok .admitIdempotent
  | .own false none => .ok .admitFresh

def MouthTable.update (owner laneID : Nat) (f : MouthRow → MouthRow) : MouthTable :=
  t.map fun r => if r.orderID = owner ∧ r.laneID = laneID then f r else r

/-- lane を一つ取る。 -/
def acquireLane (owner : Nat) (mode : Mode) (beneficiary : DigAsker) (reservedBy : String)
    (t : MouthTable) (laneID : Nat) : Except MouthError MouthTable :=
  match admitMouth t laneID owner mode beneficiary with
  | .error e => .error e
  | .ok .admitIdempotent =>
    -- 札は excavation に上げることはあっても下げない
    if isExcavation reservedBy then
      .ok (t.update owner laneID fun r => { r with reservedBy })
    else .ok t
  | .ok .admitConflict => .error .reservationConflict
  | .ok .admitUpgrade =>
    .ok (t.update owner laneID fun r => { r with mode, reservedBy, takenFor := beneficiary })
  | .ok .admitFresh =>
    .ok (t ++ [{ orderID := owner, laneID, mode, reservedBy, takenFor := beneficiary }])

/-- どれかが取れなければ、どれも取らない。 -/
def acquireLanesFor (owner : Nat) (mode : Mode) (beneficiary : DigAsker)
    (reservedBy : String) (laneIDs : List Nat) : Except MouthError MouthTable :=
  (sortedUniqueLanes laneIDs).foldlM (acquireLane owner mode beneficiary reservedBy) t

def digAdmissible (laneID : Nat) (beneficiary : DigAsker) : Bool :=
  (activeMouthRows t laneID).all fun h => beneficiary.owns h.orderID

/-! ## 解放と引き渡し -/

def releaseLane (owner laneID : Nat) : MouthTable :=
  t.filter fun r => !(r.orderID == owner && r.laneID == laneID)

/-- dig の row は残す。 -/
def releaseLaneHandoff (owner laneID : Nat) : MouthTable :=
  t.filter fun r => !(r.orderID == owner && r.laneID == laneID && r.mode != .dig)

def releaseLanesByOwner (owner : Nat) : MouthTable × List Nat :=
  (t.filter (·.orderID != owner), (t.filter (·.orderID == owner)).map (·.laneID))

def MouthRow.isDigHold (r : MouthRow) (laneID digOwner : Nat) : Bool :=
  r.orderID == digOwner && r.laneID == laneID && r.mode == .dig

/-- dig の row を、取りに来た order の row に替える。 -/
def handOffLaneToPicker (laneID digOwner picker : Nat) (reservedBy : String) : MouthTable × Bool :=
  if t.any (·.isDigHold laneID digOwner) = false then (t, false)
  else
    let t' := t.filter fun r => !r.isDigHold laneID digOwner
    match (activeMouthRows t' laneID).find? (·.orderID == picker) with
    | some h => (t', h.mode == .outbound)
    | none =>
      (t' ++ [{ orderID := picker, laneID, mode := .outbound, reservedBy, takenFor := anyone }],
        true)

end Shingo.Core
