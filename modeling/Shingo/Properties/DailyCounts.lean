import Shingo.Edge.DailyCounts
import Shingo.Infra.Run

/-!
# 日ごとの数に移しても、生産数は失われないか

purge は total の有無だけを見て、中身を見ない。書き直されない total が古ければ、
時間ごとの行と一緒に数が消える。
-/

namespace Shingo.Edge

open Infra DayCounts

def DayCounts.production (d : DayCounts) : Int :=
  if d.hourly = [] then d.daily.getD 0 else total Prod.snd d.hourly

def DayCounts.upToDate (d : DayCounts) : Bool :=
  d.hourly = [] || d.daily = none || d.daily = some (total Prod.snd d.hourly)

variable {d : DayCounts} {countDate cutoff : Nat}

theorem total_upsertHourly (hour : Nat) (delta : Int) (rows : List (Nat × Int)) :
    upsertHourly hour delta rows ≠ [] ∧
      total Prod.snd (upsertHourly hour delta rows) = total Prod.snd rows + delta := by
  induction rows with
  | nil => simp [upsertHourly]
  | cons row rest ih =>
    unfold upsertHourly
    split
    · simp
      omega
    · simp [ih.2]
      omega

/--
動作の条件。cutoff は戻らず、書く日付は最後の cutoff より前でない。
`key` の日が cutoff より前なら、残る行の合計に total が揃っている。
-/
def TotalsCurrent (key : DayKey) (t : DayTables) : DayAction → Bool
  | .upsert k _ _ => t.cutoff ≤ k.countDate
  | .pass cutoff _ _ => t.cutoff ≤ cutoff && (cutoff ≤ key.countDate || (t.days key).upToDate)

structure Produced (key : DayKey) (t : DayTables) : Prop where
  counted : t.upserted key = (t.days key).production
  past : (t.days key).hourly = [] → (t.days key).daily ≠ none → key.countDate < t.cutoff

theorem Produced.step {key : DayKey} (t : DayTables) (a : DayAction) (h : Produced key t)
    (hok : TotalsCurrent key t a = true) : Produced key (dayStep t a) := by
  obtain ⟨hcounted, hpast⟩ := h
  cases a with
  | upsert k hour delta =>
    have hdate := of_decide_eq_true hok
    obtain ⟨hne, htotal⟩ := total_upsertHourly hour delta (t.days k).hourly
    by_cases hk : key = k
    · subst hk
      constructor <;> simp [dayStep, production, hne, htotal, hcounted]
      intro hnil
      cases hd : (t.days key).daily with
      | none => simp [hnil]
      | some n =>
        have := hpast hnil (by simp [hd])
        omega
    · constructor <;> simp [dayStep, hk] <;> assumption
  | pass cutoff rolled purged =>
    obtain ⟨hmono, hcurrent⟩ : t.cutoff ≤ cutoff ∧
        (cutoff ≤ key.countDate ∨ (t.days key).upToDate = true) := by
      simpa [TotalsCurrent] using hok
    -- purge は total の在る日の行を消し、total はその前に合計に揃っている
    cases rolled <;> cases purged <;> constructor <;>
      grind [dayStep, rollUpDaily, purgeRolledUpHourly, production, upToDate]

/--
**total が揃っている間に限り、書かれた数は失われない。**

行の残る日はその合計に、行の消えた日は `daily_counts` の total に、書かれた delta の合計がある。
-/
theorem production_kept (key : DayKey) (acts : List DayAction)
    (hok : AllSteps dayStep (TotalsCurrent key · · = true) {} acts) :
    (runSteps dayStep {} acts).upserted key = ((runSteps dayStep {} acts).days key).production :=
  (AllSteps.visited_of_inv Produced.step ⟨rfl, fun _ h => absurd rfl h⟩ hok _
    (mem_visited_runSteps _ _)).counted

theorem production_kept_refreshed :
    (runSteps dayStep {} [.upsert ⟨1, 1, 5⟩ 8 3, .pass 5 true true, .upsert ⟨1, 1, 5⟩ 9 2,
      .pass 5 true false, .pass 6 false true]).upserted ⟨1, 1, 5⟩ = 5 :=
  production_kept ⟨1, 1, 5⟩ _ (by decide)

/-- 5 日の total は 3 のまま書き直されず、後から書かれた 2 は行と一緒に消える。 -/
theorem stale_total_purged :
    (runSteps dayStep {} [.upsert ⟨1, 1, 5⟩ 8 3, .pass 5 true true, .upsert ⟨1, 1, 5⟩ 9 2,
        .pass 6 true true]).upserted ⟨1, 1, 5⟩ = 5
      ∧ (runSteps dayStep {} [.upsert ⟨1, 1, 5⟩ 8 3, .pass 5 true true, .upsert ⟨1, 1, 5⟩ 9 2,
        .pass 6 true true]).days ⟨1, 1, 5⟩ = ⟨[], some 3⟩ := by
  exact ⟨rfl, rfl⟩

end Shingo.Edge
