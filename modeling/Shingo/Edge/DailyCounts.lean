import Shingo.Infra.Table

/-!
# 時間ごとの数と日ごとの数

`shingo-edge/store/counters` の `UpsertHourly`、`RollUpDaily`、`PurgeRolledUpHourly`。どれも
`(process_id, style_id, count_date)` ごとに働く。日付は順だけが効くので自然数に置く。
-/

namespace Shingo.Edge

open Infra

structure DayKey where
  processID : Int
  styleID : Int
  countDate : Nat
  deriving DecidableEq

/-- 一つの鍵の `hourly_counts` の行（hour と delta）と、`daily_counts` の total。 -/
structure DayCounts where
  hourly : List (Nat × Int) := []
  daily : Option Int := none

def upsertHourly (hour : Nat) (delta : Int) : List (Nat × Int) → List (Nat × Int)
  | [] => [(hour, delta)]
  | row :: rest =>
    if row.1 = hour then (hour, row.2 + delta) :: rest else row :: upsertHourly hour delta rest

/-- total の無い日には必ず入れ、在る日は `frozenBefore` から後だけを書き直す。 -/
def DayCounts.rollUpDaily (d : DayCounts) (countDate frozenBefore : Nat) : DayCounts :=
  if d.hourly ≠ [] ∧ (d.daily.isNone ∨ frozenBefore ≤ countDate) then
    { d with daily := some (total Prod.snd d.hourly) }
  else d

def DayCounts.purgeRolledUpHourly (d : DayCounts) (countDate cutoff : Nat) : DayCounts :=
  if countDate < cutoff ∧ d.daily.isSome then { d with hourly := [] } else d

/-- 二つの表。`cutoff` は最後の pass のもので、`upserted` は書かれた delta の合計。 -/
structure DayTables where
  days : DayKey → DayCounts := fun _ => {}
  cutoff : Nat := 0
  upserted : DayKey → Int := fun _ => 0

inductive DayAction where
  | upsert (key : DayKey) (hour : Nat) (delta : Int)
  | pass (cutoff : Nat) (rolled purged : Bool)

def dayStep (t : DayTables) : DayAction → DayTables
  | .upsert key hour delta =>
    let d := t.days key
    { t with
      days := Function.update t.days key { d with hourly := upsertHourly hour delta d.hourly }
      upserted := Function.update t.upserted key (t.upserted key + delta) }
  | .pass cutoff rolled purged =>
    { t with
      cutoff
      days := fun key =>
        let d := if rolled then (t.days key).rollUpDaily key.countDate cutoff else t.days key
        if purged then d.purgeRolledUpHourly key.countDate cutoff else d }

end Shingo.Edge
