import Shingo.Core.Text
import Mathlib.Logic.Function.Basic

/-!
# robot の confidence の集計

`shingo-core/store/robotconfidence/` の `parsePGTextArray`（`version_key.go`）と、`RollUp` の
一日分の走査（`rollup.go`）のうち標本を数える部分。robot と zone の統計、分布は置かない。
-/

namespace Shingo.Core

/-- `parsePGTextArray` のループ。引数は `out`、`cur`、`inQuotes` と残りの文字。 -/
def textArrayLoop (out : List String) (cur : List Char) : Bool → List Char → List String
  | _, [] => out ++ [.ofList cur]
  | true, '\\' :: c :: rest => textArrayLoop out (cur ++ [c]) true rest
  | inQuotes, c :: rest =>
    if c = '"' then textArrayLoop out cur (!inQuotes) rest
    else if c = ',' ∧ inQuotes = false then textArrayLoop (out ++ [.ofList cur]) [] inQuotes rest
    else textArrayLoop out (cur ++ [c]) inQuotes rest

/-- `none` は Go の nil。 -/
def parsePGTextArray (s : String) : Option (List String) :=
  let cs := s.toList
  if cs.length < 2 ∨ cs.head? ≠ some '\x7b' ∨ cs.getLast? ≠ some '\x7d' then none
  else
    let body := cs.tail.dropLast
    if body = [] then some [] else some (textArrayLoop [] [] false body)

end Shingo.Core

namespace Shingo.Core.RobotConfidence

structure Segment where
  area : String
  fromName : String
  toName : String

def Segment.keyable (s : Segment) : Bool := s.fromName ≠ "" ∧ s.toName ≠ ""

/-- 端点の名を並べ直すので、向きだけ違う二つの辺は同じ lane になる。 -/
def Segment.lane (s : Segment) : String :=
  if !s.keyable then ""
  else if s.toName < s.fromName then s.toName ++ "-" ++ s.fromName
  else s.fromName ++ "-" ++ s.toName

def Segment.key (s : Segment) : String := s.area ++ "\x00" ++ s.lane

def versionedKey (laneKey : String) : Option Int → String
  | none => laneKey ++ "\x01"
  | some id => laneKey ++ "\x01" ++ toString id

structure RawSample where
  x : Rat := 0
  y : Rat := 0
  sampledAt : Int := 0
  relocStatus : Int
  mapMD5 : String := ""

/-- 走査の間は変わらないもの。`nearest` は `SegmentIndex.Nearest`、`versions` は
`VersionLookup.At`。 -/
structure Scene where
  fleetMap : String := ""
  nearest : Rat → Rat → Option Segment
  versions : String → String → Int → Option Int

/-- `RollUp` の計数。lane ごとの map の項は、key を引数に取る。 -/
inductive Tally
  | samplesRead
  | orphans
  | mapMismatch
  | unattributedSamples
  | unkeyableSamples
  | unversionedSamples
  | laneMismatch (key : String)
  | segFailed (key : String)
  | laneAll (key : String)
  deriving DecidableEq

abbrev Counts := Tally → Nat

def Counts.bump (r : Counts) (t : Tally) : Counts := Function.update r t (r t + 1)

namespace Scene

variable (sc : Scene) (r : Counts) (s : RawSample)

def foreign : Bool := sc.fleetMap ≠ "" ∧ s.mapMD5 ≠ "" ∧ s.mapMD5 ≠ sc.fleetMap

/-- 標本の乗る lane の key。辺に名がないか、その時刻の版がなければ `none`。 -/
def laneKey : Option String := do
  let seg ← sc.nearest s.x s.y
  if seg.keyable then
    let v ← sc.versions seg.area seg.lane s.sampledAt
    some (versionedKey seg.key (some v))
  else none

/-- `RollUp` の関門。標本は順に通り、最初に落ちた所で数えられる。 -/
def gates : Counts :=
  if sc.foreign s then
    match sc.laneKey s with
    | none => r.bump .mapMismatch
    | some key => (r.bump .mapMismatch).bump (.laneMismatch key)
  else if s.relocStatus = 0 then
    match sc.laneKey s with
    | none => r
    | some key => r.bump (.segFailed key)
  else if s.relocStatus ≠ 1 then r.bump .unattributedSamples
  else match sc.nearest s.x s.y with
    | none => r
    | some seg =>
      if !seg.keyable then r.bump .unkeyableSamples
      else match sc.versions seg.area seg.lane s.sampledAt with
        | none => r.bump .unversionedSamples
        | some v => r.bump (.laneAll (versionedKey seg.key (some v)))

/-- `ScanSamples` に渡す関数。 -/
def scan : Counts :=
  let r := r.bump .samplesRead
  sc.gates (if (sc.nearest s.x s.y).isNone then r.bump .orphans else r) s

def rollUp (samples : List RawSample) : Counts := samples.foldl sc.scan fun _ => 0

end Scene

structure LaneDaily where
  samples : Nat
  relocFailedSamples : Nat
  mapMismatchSamples : Nat

/-- 誰も走らなかった lane の行は書かない。 -/
def Counts.laneDaily (r : Counts) (key : String) : Option LaneDaily :=
  if r (.laneAll key) = 0 ∧ r (.segFailed key) = 0 ∧ r (.laneMismatch key) = 0 then none
  else some ⟨r (.laneAll key), r (.segFailed key), r (.laneMismatch key)⟩

end Shingo.Core.RobotConfidence
