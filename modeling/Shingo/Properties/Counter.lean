import Mathlib.Algebra.Ring.Int.Defs
import Shingo.Edge.Counter
import Shingo.Infra.Run

/-!
# 作った分は一度だけ数えられる
-/

namespace Shingo.Edge

open Infra CounterWorld PollStore

/-! ## 一周の見分け -/

variable {width : CounterWidth} {jumpThreshold : Int}

section Wrap

variable {a b : Nat}

theorem rolloverAt_wrap {last new max d : Int} (hmax : last ≤ max) (hd : max - last + new + 1 = d)
    (hpos : 0 < d) (hle : d ≤ jumpThreshold) : rolloverAt last new jumpThreshold max = some d := by
  unfold rolloverAt
  simp only [hd]
  rw [if_pos hmax, if_pos ⟨hpos, hle⟩]

section

variable (hT : 2 * jumpThreshold < width.range) (hab : a ≤ b) (hle : (b - a : Int) ≤ jumpThreshold)
include hT hab hle

theorem tryRollover_wrap (hlt : b % width.range < a % width.range) :
    tryRollover (a % width.range : Nat) (b % width.range : Nat) jumpThreshold = b - a := by
  unfold tryRollover
  cases width with simp only [CounterWidth.range] at *
  | bits16 =>
    have h16 : rolloverAt (a % 65536 : Nat) (b % 65536 : Nat) jumpThreshold max16
        = some ((b : Int) - a) :=
      rolloverAt_wrap (by unfold max16; omega) (by unfold max16; omega) (by omega) hle
    rw [List.findSome?_cons, h16]
    rfl
  | bits32 =>
    -- 半周より短い増え方で 32 bit を一周したのだから、前の値は 16 bit に収まらない
    have h16 : rolloverAt (a % 4294967296 : Nat) (b % 4294967296 : Nat) jumpThreshold max16
        = none := by
      unfold rolloverAt
      rw [if_neg (by unfold max16; omega)]
    have h32 : rolloverAt (a % 4294967296 : Nat) (b % 4294967296 : Nat) jumpThreshold max32
        = some ((b : Int) - a) :=
      rolloverAt_wrap (by unfold max32; omega) (by unfold max32; omega) (by omega) hle
    rw [List.findSome?_cons, h16, List.findSome?_cons, h32]
    rfl

/-- **閾値が半周より短く、増えた分が閾値の中なら、`CalculateDelta` は増えた分を返す。** -/
theorem calculateDelta_wrap :
    calculateDelta (a % width.range : Nat) (b % width.range : Nat) jumpThreshold
      = ((b : Int) - a, none) := by
  unfold calculateDelta
  by_cases heq : b % width.range = a % width.range
  · -- 同じ値に戻るには、少なくとも一周が要る
    have hba : b = a := by
      cases width <;> simp only [CounterWidth.range] at * <;> omega
    simp [hba]
  · have hne : b ≠ a := fun h => heq (by rw [h])
    rw [if_neg (by omega)]
    by_cases hlt : b % width.range < a % width.range
    · rw [if_pos (by omega)]
      simp only [tryRollover_wrap hT hab hle hlt]
      rw [if_pos (by omega)]
    · have hsub : ((b % width.range : Nat) : Int) - ((a % width.range : Nat) : Int) = b - a := by
        cases width <;> simp only [CounterWidth.range] at * <;> omega
      rw [if_neg (by omega)]
      simp only [hsub]
      rw [if_neg (by omega)]

end

end Wrap

/-! ## 記録した読み -/

def PollStore.counted (s : PollStore) : Int := (s.emitted.filterMap PlcEvent.delta?).sum

@[simp] theorem PollStore.counted_emit (s : PollStore) (e : PlcEvent) :
    (s.emit e).counted = s.counted + e.delta?.getD 0 := by
  unfold counted emit
  cases h : e.delta? <;> simp [h]

variable {ok : PollWrites}

theorem recordReading_counts (s : PollStore) (newCount : Int) {delta : Int} (hd : 0 < delta)
    (hupdate : ok.updateOk = true) (hstyle : s.rp.styleID ≠ 0) :
    (recordReading s ok newCount delta none).counted = s.counted + delta
      ∧ (recordReading s ok newCount delta none).rp = { s.rp with lastCount := newCount }
      ∧ (recordReading s ok newCount delta none).snapshots.length = s.snapshots.length + 1 := by
  unfold recordReading
  simp only [hupdate, if_true, hstyle, if_false]
  rw [if_pos ⟨by decide, hd⟩]
  split
  · refine ⟨?_, rfl, ?_⟩
    · rw [counted_emit, counted_emit]
      show s.counted + 0 + delta = s.counted + delta
      omega
    · exact List.length_append
  · refine ⟨?_, rfl, ?_⟩
    · rw [counted_emit]
      rfl
    · exact List.length_append

/-! ## 条件と不変条件 -/

/--
動作の条件。値の変わった読みの snapshot が入るなら、

* `last_count` も書ける
* style が付いている
* 最後に記録した読みからの本当の増えた分は閾値の中
-/
def CountsOnce (width : CounterWidth) (jumpThreshold : Int) (w : CounterWorld) :
    CounterAction → Prop
  | .poll advance none ok => ok.insertOk = true →
      (((w.total + advance) % width.range : Nat) : Int) ≠ w.store.rp.lastCount →
        ok.updateOk = true ∧ w.store.rp.styleID ≠ 0
          ∧ ((w.total + advance : Nat) : Int) - w.recorded ≤ jumpThreshold
  | _ => True

instance (width : CounterWidth) (jumpThreshold : Int) (w : CounterWorld) :
    ∀ a, Decidable (CountsOnce width jumpThreshold w a)
  | .poll _ none _ => inferInstanceAs (Decidable (_ → _ → _))
  | .poll _ (some _) _ | .relink _ _ => .isTrue trivial

/-- 行は最後に記録した読みの値を持ち、そこまでの分が emit されている。 -/
structure CounterInv (width : CounterWidth) (start : Nat) (w : CounterWorld) : Prop where
  lastCount : w.store.rp.lastCount = (w.recorded % width.range : Nat)
  behind : w.recorded ≤ w.total
  counted : w.store.counted = w.recorded - start

namespace CounterInv

variable {start : Nat} {w : CounterWorld} {advance : Nat}

theorem unrecorded (h : CounterInv width start w) {fault : Option TagFault} {e : Option PlcEvent}
    (he : (e.bind PlcEvent.delta?) = none)
    (hs : pollReportingPoint jumpThreshold w.store (tagRead width (w.total + advance) fault) ok
      = e.elim w.store w.store.emit) :
    CounterInv width start (counterStep width jumpThreshold w (.poll advance fault ok)) := by
  have hbehind := h.behind
  unfold counterStep
  dsimp only
  rw [hs]
  cases e with
  | none =>
    simp only [Option.elim_none, if_true]
    exact ⟨h.lastCount, by dsimp only; omega, h.counted⟩
  | some e =>
    have hlen : (w.store.emit e).snapshots.length = w.store.snapshots.length := rfl
    rw [Option.bind_some] at he
    simp only [Option.elim_some, hlen, if_true]
    refine ⟨h.lastCount, by dsimp only; omega, ?_⟩
    rw [counted_emit, he, h.counted]
    simp

theorem recorded (hT : 2 * jumpThreshold < width.range) (h : CounterInv width start w)
    (hinsert : ok.insertOk = true)
    (hne : (((w.total + advance) % width.range : Nat) : Int) ≠ w.store.rp.lastCount)
    (hok : CountsOnce width jumpThreshold w (.poll advance none ok)) :
    CounterInv width start (counterStep width jumpThreshold w (.poll advance none ok)) := by
  obtain ⟨hupdate, hstyle, hle⟩ := hok hinsert hne
  have hbehind := h.behind
  have hdelta := calculateDelta_wrap hT (a := w.recorded) (b := w.total + advance)
    (by omega) (by push_cast at hle ⊢; omega)
  -- 値が変わったので、増えた分は 0 でない
  have hpos : (0 : Int) < (w.total + advance : Nat) - w.recorded := by
    have hneq : w.total + advance ≠ w.recorded := by
      intro heq
      rw [heq] at hne
      exact hne h.lastCount.symm
    omega
  obtain ⟨e, he, hpoll⟩ : ∃ e : PlcEvent, e.delta? = none ∧
      pollReportingPoint jumpThreshold w.store (tagRead width (w.total + advance) none) ok
        = recordReading (w.store.emit e) ok ((w.total + advance) % width.range : Nat)
          ((w.total + advance : Nat) - w.recorded) none := by
    unfold pollReportingPoint tagRead
    simp only [h.lastCount, hdelta]
    rw [if_neg (by omega), if_pos hinsert]
    exact ⟨_, rfl, rfl⟩
  obtain ⟨hcount, hrp, hlen⟩ := recordReading_counts (w.store.emit e)
    ((w.total + advance) % width.range : Nat) hpos hupdate hstyle
  have hgrown : ¬ (pollReportingPoint jumpThreshold w.store
      (tagRead width (w.total + advance) none) ok).snapshots.length
        = w.store.snapshots.length := by
    rw [hpoll, hlen]
    simp [emit]
  unfold counterStep
  dsimp only
  rw [if_neg hgrown, hpoll]
  refine ⟨?_, Nat.le_refl _, ?_⟩
  · dsimp only
    rw [hrp]
  · dsimp only
    rw [hcount, counted_emit, he, h.counted, Option.getD_none]
    omega

theorem step (hT : 2 * jumpThreshold < width.range) (w : CounterWorld) (a : CounterAction)
    (h : CounterInv width start w) (hok : CountsOnce width jumpThreshold w a) :
    CounterInv width start (counterStep width jumpThreshold w a) := by
  cases a with
  | relink styleID processID => exact ⟨h.lastCount, h.behind, h.counted⟩
  | poll advance fault ok =>
    cases fault with
    | some fault =>
      cases fault with
      | disconnected => exact h.unrecorded (e := none) rfl rfl
      | error errMsg => exact h.unrecorded (e := some (.counterReadError ..)) rfl rfl
      | notNumber => exact h.unrecorded (e := none) rfl rfl
    | none =>
      by_cases hquiet : (((w.total + advance) % width.range : Nat) : Int) = w.store.rp.lastCount ∨
          ok.insertOk = false
      · -- 値が変わらないか snapshot が入らなければ、何も記録しない
        refine h.unrecorded (e := some (.counterRead w.store.rp.id w.store.rp.plcName
          w.store.rp.tagName ((w.total + advance) % width.range : Nat))) rfl ?_
        rcases hquiet with hsame | hinsert
        · simp [pollReportingPoint, tagRead, calculateDelta, hsame]
        · simp [pollReportingPoint, tagRead, hinsert]
      · rw [not_or, Bool.not_eq_false] at hquiet
        exact h.recorded hT hquiet.2 hquiet.1 hok

end CounterInv

/-! ## 実行 -/

def CounterWorld.start (width : CounterWidth) (rp : ReportingPoint) (n : Nat) : CounterWorld where
  store := { rp := { rp with lastCount := (n % width.range : Nat) } }
  total := n
  recorded := n

/-- **emit した分の和は、始めから最後に記録した読みまでの、本当の増えた分。** -/
theorem counter_counted_once (width : CounterWidth) (jumpThreshold : Int)
    (hT : 2 * jumpThreshold < width.range) (rp : ReportingPoint) (n : Nat)
    (as : List CounterAction)
    (hok : AllSteps (counterStep width jumpThreshold) (CountsOnce width jumpThreshold)
      (start width rp n) as) :
    ∀ w ∈ visited (counterStep width jumpThreshold) (start width rp n) as,
      w.store.counted = w.recorded - n := by
  intro w hw
  have hstart : CounterInv width n (start width rp n) :=
    ⟨rfl, Nat.le_refl n, by show (0 : Int) = n - n; omega⟩
  exact (hok.visited_of_inv (CounterInv.step hT) hstart w hw).counted

def pressCounter : ReportingPoint :=
  { id := 1, plcName := "PLC1", tagName := "Count", styleID := 3, processID := 2 }

theorem counter_counted_once_wrapping :
    AllSteps (counterStep .bits16 1000) (CountsOnce .bits16 1000)
      (start .bits16 pressCounter 65530)
      [.poll 4 (some (.error "timeout")) {}, .poll 1 none { insertOk := false }, .poll 9 none {},
        .poll 0 none {}, .poll 6 none {}] ∧
    (runSteps (counterStep .bits16 1000) (start .bits16 pressCounter 65530)
      [.poll 4 (some (.error "timeout")) {}, .poll 1 none { insertOk := false }, .poll 9 none {},
        .poll 0 none {}, .poll 6 none {}]).store.counted = 65550 - 65530 := by
  refine ⟨?ok, counter_counted_once .bits16 1000 (by decide) pressCounter 65530 _ ?ok _
    (mem_visited_runSteps _ _)⟩
  decide

/--
**`last_count` が一度書けないと、5 個が二度数えられる。** snapshot が二度入らないと、どの読みの
間の増えた分も閾値の中なのに jump と見られ、1200 個が数えられない。
-/
theorem last_count_write_lost :
    (runSteps (counterStep .bits16 1000) (start .bits16 pressCounter 0)
        [.poll 5 none { updateOk := false }, .poll 5 none {}]).recorded = 10 ∧
    (runSteps (counterStep .bits16 1000) (start .bits16 pressCounter 0)
        [.poll 5 none { updateOk := false }, .poll 5 none {}]).store.counted = 15 ∧
    (runSteps (counterStep .bits16 1000) (start .bits16 pressCounter 0)
        [.poll 600 none { insertOk := false }, .poll 600 none {}]).recorded = 1200 ∧
    (runSteps (counterStep .bits16 1000) (start .bits16 pressCounter 0)
        [.poll 600 none { insertOk := false }, .poll 600 none {}]).store.counted = 0 := by
  decide

end Shingo.Edge
