import Mathlib.Data.List.Dedup
import Mathlib.Data.List.Sort

/-!
# sourceability

`shingo-core/store/sourceability/sourceability.go` の `Compute`。在庫の写しを style が触れる
payload に絞る `seed` は置かない。引くのはその payload だけである。
-/

namespace Shingo.Core.Sourceability

open List Function

inductive Status
  | green
  | yellow
  | red
  | notConfigured
  deriving DecidableEq

structure ProcessKey where
  processID : String
  styleID : String
  deriving DecidableEq

structure ClaimRow where
  coreNodeName : String := ""
  payloadCode : String := ""
  allowedPayloadCodes : List String := []
  seq : Int := 0
  deriving DecidableEq

/-- process の中の bin か、取りに行ける bin か。 -/
inductive Source
  | onLine
  | pool
  deriving DecidableEq

/-- どこの、どの payload の bin か。 -/
abbrev Lot := Source × String

structure Config where
  yellowEnabled : Bool := false
  horizon : Int := 0

structure Inputs where
  styles : List ProcessKey
  claims : ProcessKey → List ClaimRow
  pool : String → Nat := fun _ => 0
  onLine : String → String → Nat := fun _ _ => 0
  lineUOP : String → Option Int := fun _ => none
  ratePerSec : String → Rat := fun _ => 0
  /-- `time.Duration(float64(uop) / rate * float64(time.Second))`。 -/
  duration : Int → Rat → Int := fun _ _ => 0

structure LineTTE where
  nodeName : String
  payloadCode : String
  uopRemaining : Int
  ratePerSec : Rat
  timeToEmpty : Int := 0
  known : Bool := false
  deriving DecidableEq

structure StyleState where
  key : ProcessKey
  status : Status
  missing : List String := []
  atRisk : List LineTTE := []

def lineTTE (inp : Inputs) (c : ClaimRow) : LineTTE :=
  let uop := (inp.lineUOP c.coreNodeName).getD 0
  let rate := inp.ratePerSec c.payloadCode
  let lt : LineTTE := ⟨c.coreNodeName, c.payloadCode, uop, rate, 0, false⟩
  if inp.lineUOP c.coreNodeName = none ∨ uop ≤ 0 ∨ rate ≤ 0 then lt
  else { lt with timeToEmpty := inp.duration uop rate, known := true }

def Inputs.stock (inp : Inputs) (processID : String) : Lot → Nat
  | (.onLine, p) => inp.onLine processID p
  | (.pool, p) => inp.pool p

/-- claim が `src` から引ける bin を、引く順に。 -/
def ClaimRow.bins (c : ClaimRow) (src : Source) : List Lot :=
  ((c.payloadCode :: c.allowedPayloadCodes).filter (· ≠ "")).map (src, ·)

def drawOne (stock : Lot → Nat) (src : Source) (c : ClaimRow) : Option Lot :=
  (c.bins src).find? fun b => 0 < stock b

/-- claim ごとに引いた bin。`none` は引けなかったもの。 -/
def net (stock : Lot → Nat) : List ClaimRow → List (ClaimRow × Option Lot)
  | [] => []
  | c :: rest =>
    match (drawOne stock .onLine c).or (drawOne stock .pool c) with
    | none => (c, none) :: net stock rest
    | some b => (c, some b) :: net (update stock b (stock b - 1)) rest

def ClaimRow.need (c : ClaimRow) : String :=
  if c.payloadCode = "" then c.allowedPayloadCodes.headD "" else c.payloadCode

def missing (netted : List (ClaimRow × Option Lot)) : List String :=
  (((netted.filter (·.2.isNone)).map (·.1.need)).filter (· ≠ "")).dedup.insertionSort (· ≤ ·)

def Inputs.netted (inp : Inputs) (key : ProcessKey) : List (ClaimRow × Option Lot) :=
  net (inp.stock key.processID) ((inp.claims key).insertionSort (·.seq ≤ ·.seq))

def verdict (inp : Inputs) (cfg : Config) (key : ProcessKey) : StyleState :=
  if inp.claims key = [] then { key, status := .notConfigured }
  else if missing (inp.netted key) ≠ [] then
    { key, status := .red, missing := missing (inp.netted key) }
  else
    let atRisk := if cfg.yellowEnabled then
      (((inp.claims key).insertionSort (·.seq ≤ ·.seq)).map (lineTTE inp)).filter fun l =>
        l.known && l.timeToEmpty < cfg.horizon
      else []
    { key, status := if atRisk = [] then .green else .yellow, atRisk }

end Shingo.Core.Sourceability
