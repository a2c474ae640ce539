import Shingo.Edge.HoldReplay
import Shingo.Infra.Run
import Shingo.Infra.Table

/-!
# 溜めた数は失われず、二度付かない

node の行を読む所から記録までのどの区切りがどの順に進んでも、

    扱った tick の bin の分 ＝ 記録した分 ＋ 書いてまだ記録していない分 ＋ pending

が成り立つか。崩れるのは `applyHoldAndReplay` の書き込みの時だけ。pending を消す
書き込みは写しの pending を付け終えたことにするので、表の pending が写しと違えばその差が、
失敗すれば付けた分が狂う。pending に足す書き込みは、失敗すればその分が消える。
-/

namespace Shingo.Edge

open Infra Protocol List NodeWorld

variable {i : Nat}

/-! ## 数 -/

def Tick.handled (t : Tick) : Int :=
  match t.pc with
  | .emitting input _ => input
  | .done input => input
  | _ => 0

def Tick.inHand (t : Tick) : Int :=
  match t.pc with
  | .emitting _ amount => if t.runtime.activeBinID.isSome then amount else 0
  | _ => 0

namespace NodeWorld

def handled (w : NodeWorld) : Int := (w.ticks.map Tick.handled).sum

def inHand (w : NodeWorld) : Int := (w.ticks.map Tick.inHand).sum

/-- bin に付けた記録の大きさ。consume は引く分を、produce は足す分を数える。 -/
def charged (w : NodeWorld) : Int := (w.recorded.map fun c => (c.delta.natAbs : Int)).sum

def settled (w : NodeWorld) : Bool :=
  w.ticks.all fun t => match t.pc with
    | .emitting .. => t.runtime.activeBinID.isNone
    | _ => true

end NodeWorld

/-! ## 条件 -/

def Tick.toApply (t : Tick) : Option Int :=
  match t.pc with
  | .applying input => some input
  | _ => none

/-- 写しの pending を消す時、表の pending が写しと同じで、失敗しない。足す書き込みも失敗しない。 -/
def ReplaysOnce (w : NodeWorld) : NodeAction → Prop
  | .apply i ok => ∀ t ∈ w.ticks[i]?, ∀ input ∈ t.toApply,
      if t.runtime.activeBinID.isSome then
        t.runtime.pendingUOPDelta ≠ 0 →
          ok = true ∧ w.row.pendingUOPDelta = t.runtime.pendingUOPDelta
      else input ≠ 0 → ok = true
  | _ => True

instance (w : NodeWorld) : ∀ a, Decidable (ReplaysOnce w a)
  | .apply .. => inferInstanceAs (Decidable (∀ _ ∈ _, ∀ _ ∈ _, ite _ (_ → _) (_ → _)))
  | .tick .. | .drain .. | .emit .. | .bind .. => inferInstanceAs (Decidable True)

/-! ## 不変条件 -/

structure Tick.Sound (t : Tick) : Prop where
  delta : 0 ≤ t.delta
  pending : 0 ≤ t.runtime.pendingUOPDelta
  applying : ∀ input, t.pc = .applying input → 0 ≤ input
  emitting : ∀ input amount, t.pc = .emitting input amount → 0 ≤ amount

/-- **扱った分は、記録した分と、記録の途中の分と、pending の和。** -/
structure HoldBalanced (w : NodeWorld) : Prop where
  pending : 0 ≤ w.row.pendingUOPDelta
  ticks : ∀ t ∈ w.ticks, t.Sound
  balance : w.handled = w.charged + w.inHand + w.row.pendingUOPDelta

variable {input amount : Int} {ok : Bool} {w : NodeWorld} {t : Tick}

namespace NodeWorld

theorem pending_applyHoldAndReplay (ht : w.ticks[i]? = some t) (hpc : t.pc = .applying input)
    (hok : ReplaysOnce w (.apply i ok)) :
    (applyHoldAndReplay w.row t input ok).pendingUOPDelta
      = if t.runtime.activeBinID.isSome then w.row.pendingUOPDelta - t.runtime.pendingUOPDelta
        else w.row.pendingUOPDelta + input := by
  have hcond := hok t ht input (by simp [Tick.toApply, hpc])
  unfold applyHoldAndReplay
  cases hb : t.runtime.activeBinID.isSome with
  | true =>
    simp only [hb, if_true] at hcond ⊢
    by_cases hp : t.runtime.pendingUOPDelta = 0
    · cases ok <;> simp [hp]
    · obtain ⟨rfl, hrow⟩ := hcond hp
      simp [hp, hrow]
  | false =>
    simp only [hb, Bool.false_eq_true, if_false] at hcond ⊢
    by_cases hz : input = 0
    · cases ok <;> simp [hz]
    · simp [hcond hz, hz]

theorem charged_append (t : Tick) (ha : 0 ≤ amount) (now : Nat) :
    charged { w with recorded := w.recorded ++ (binCall t amount now).toList }
      = w.charged + if t.runtime.activeBinID.isSome then amount else 0 := by
  rw [charged, map_append, sum_append]
  refine congrArg (w.charged + ·) ?_
  unfold binCall
  cases t.runtime.activeBinID with
  | none => rfl
  | some b =>
    split
    · have habs : ((t.role.sign * amount).natAbs : Int) = amount := by
        cases t.role <;> dsimp only [TickRole.sign] <;> omega
      exact (sum_singleton).trans habs
    · have hz : amount = 0 := by omega
      rw [hz]
      rfl

end NodeWorld

namespace HoldBalanced

open NodeWorld

section

variable (h : HoldBalanced w)
include h

theorem push (hs : t.Sound) (hh : t.handled = 0) (hi : t.inHand = 0) :
    HoldBalanced { w with ticks := w.ticks ++ [t] } where
  pending := h.pending
  ticks := forall_mem_append.mpr ⟨h.ticks, forall_mem_singleton.mpr hs⟩
  balance := by
    have hb := h.balance
    unfold handled inHand at hb ⊢
    rw [map_append, sum_append, map_append, sum_append, hb]
    change _ = w.charged + _ + w.row.pendingUOPDelta
    rw [map_singleton, sum_singleton, hh, map_singleton, sum_singleton, hi]
    omega

theorem start (role : TickRole) (payloadCode : String) (delta : Int) :
    HoldBalanced (w.start role payloadCode delta) := by
  unfold NodeWorld.start
  split
  · exact h
  rename_i hd
  split
  · refine h.push ⟨by dsimp only; omega, h.pending, ?_, ?_⟩ rfl rfl
    · rintro input ⟨⟩
      omega
    · rintro input amount ⟨⟩
  · refine h.push ⟨by dsimp only; omega, h.pending, ?_, ?_⟩ rfl rfl
    · rintro input ⟨⟩
    · rintro input amount ⟨⟩

/-- 一つの tick が進む一歩。扱った分の増えた分だけ、記録か手元か pending が増えればよい。 -/
theorem goto {pc : TickPC} {row : RuntimeState} {recorded : List BinCall}
    (ht : w.ticks[i]? = some t) (hpending : 0 ≤ row.pendingUOPDelta)
    (hsound : Tick.Sound { t with pc }) (hbal : Tick.handled { t with pc } - t.handled
      = charged { w with recorded } - w.charged + (Tick.inHand { t with pc } - t.inHand)
        + (row.pendingUOPDelta - w.row.pendingUOPDelta)) :
    HoldBalanced { w.goto i t pc with row, recorded } := by
  have hhandled : (w.goto i t pc).handled = w.handled - t.handled + Tick.handled { t with pc } :=
    sum_map_set Tick.handled ht _
  have hinHand : (w.goto i t pc).inHand = w.inHand - t.inHand + Tick.inHand { t with pc } :=
    sum_map_set Tick.inHand ht _
  refine ⟨hpending, fun t' ht' => ?_, ?_⟩
  · rcases mem_or_eq_of_mem_set ht' with ht' | rfl
    · exact h.ticks t' ht'
    · exact hsound
  · have hb := h.balance
    change (w.goto i t pc).handled
      = charged { w with recorded } + (w.goto i t pc).inHand + row.pendingUOPDelta
    omega

theorem drain (ht : w.ticks[i]? = some t) (hpc : t.pc = .draining) (qty : Int) (ok : Bool) :
    HoldBalanced (w.goto i t (.applying (NodeWorld.drainLinesideFirst t qty ok))) := by
  have hs := h.ticks t (mem_of_getElem? ht)
  have hd := hs.delta
  refine h.goto ht h.pending ⟨hd, hs.pending, ?_, nofun⟩ ?_
  · rintro input ⟨⟩
    unfold NodeWorld.drainLinesideFirst
    split <;> omega
  · simp only [Tick.handled, Tick.inHand, hpc]
    change _ = w.charged - _ + _ + _
    omega

theorem emit (ht : w.ticks[i]? = some t) (hpc : t.pc = .emitting input amount) (now : Nat) :
    HoldBalanced { w.goto i t (.done input) with
      recorded := w.recorded ++ (binCall t amount now).toList } := by
  have hs := h.ticks t (mem_of_getElem? ht)
  refine h.goto ht h.pending ⟨hs.delta, hs.pending, nofun, nofun⟩ ?_
  rw [charged_append t (hs.emitting input amount hpc) now]
  simp only [Tick.handled, Tick.inHand, hpc]
  change _ = _ + _ + (w.row.pendingUOPDelta - _)
  omega

/-- **pending を書く一歩。条件の要るのはここだけ。** -/
theorem apply (ht : w.ticks[i]? = some t) (hpc : t.pc = .applying input)
    (hok : ReplaysOnce w (.apply i ok)) :
    HoldBalanced { w.goto i t (.emitting input (binAttributed t input)) with
      row := applyHoldAndReplay w.row t input ok } := by
  have hs := h.ticks t (mem_of_getElem? ht)
  have hin := hs.applying input hpc
  have hsnap := hs.pending
  have hrow := pending_applyHoldAndReplay ht hpc hok
  refine h.goto ht ?_ ⟨hs.delta, hs.pending, nofun, ?_⟩ ?_
  · have hcond := hok t ht input (by simp [Tick.toApply, hpc])
    have hp := h.pending
    rw [hrow]
    split
    · rename_i hb
      rw [if_pos hb] at hcond
      by_cases hz : t.runtime.pendingUOPDelta = 0
      · omega
      · have := (hcond hz).2
        omega
    · omega
  · rintro input' amount ⟨⟩
    unfold binAttributed
    split <;> omega
  · simp only [Tick.handled, Tick.inHand, hpc, hrow]
    change _ = w.charged - _ + _ + _
    -- 写しに bin が在れば pending から手元へ、無ければ pending へ移る
    unfold binAttributed
    split <;> omega

theorem bind (bin : Option ActiveBin) (epoch : Int) (remaining : Option Int) :
    HoldBalanced { w with row := { w.row with
      activeBinID := bin
      activeBinEpoch := epoch
      remainingUOPCached := remaining.getD w.row.remainingUOPCached } } :=
  ⟨h.pending, h.ticks, h.balance⟩

end

theorem step (w : NodeWorld) (a : NodeAction) (h : HoldBalanced w) (hok : ReplaysOnce w a) :
    HoldBalanced (w.step a) := by
  cases a with dsimp only [NodeWorld.step]
  | tick role payloadCode delta => exact h.start role payloadCode delta
  | drain i qty ok =>
    split
    · rename_i t ht
      split
      · rename_i hpc
        exact h.drain ht hpc qty ok
      · exact h
    · exact h
  | apply i ok =>
    split
    · rename_i t ht
      split
      · rename_i input hpc
        exact h.apply ht hpc hok
      · exact h
    · exact h
  | emit i now =>
    split
    · rename_i t ht
      split
      · rename_i input amount hpc
        exact h.emit ht hpc now
      · exact h
    · exact h
  | bind bin epoch remaining ok =>
    split
    · exact h.bind bin epoch remaining
    · exact h

end HoldBalanced

/-! ## 実行 -/

theorem NodeWorld.inHand_of_settled (h : w.settled = true) : w.inHand = 0 := by
  refine sum_eq_zero fun x hx => ?_
  obtain ⟨t, ht, rfl⟩ := mem_map.mp hx
  have hpc := all_eq_true.mp h t ht
  unfold Tick.inHand
  split
  · rename_i heq
    rw [heq, Option.isNone_iff_eq_none] at hpc
    rw [hpc]
    rfl
  · rfl

def NodeWorld.fresh (bin : Option ActiveBin) (epoch remaining : Int) : NodeWorld :=
  { row := { activeBinID := bin, activeBinEpoch := epoch, remainingUOPCached := remaining } }

/-- **記録の途中の tick の無いどの状態でも、扱った分は記録した分と pending の和。** -/
theorem hold_and_replay_conserves (bin : Option ActiveBin) (epoch remaining : Int)
    (as : List NodeAction)
    (hok : AllSteps step ReplaysOnce (fresh bin epoch remaining) as) :
    ∀ w ∈ visited step (fresh bin epoch remaining) as,
      w.settled = true → w.handled = w.charged + w.row.pendingUOPDelta := by
  intro w hw hsettled
  have hfresh : HoldBalanced (fresh bin epoch remaining) :=
    ⟨Int.le_refl 0, forall_mem_nil _, rfl⟩
  have hb := (hok.visited_of_inv HoldBalanced.step hfresh w hw).balance
  rw [inHand_of_settled hsettled, Int.add_zero] at hb
  exact hb

/-! ## 二つの tick -/

def boundBin : Int := 7

def heldFive : List NodeAction :=
  [.tick .produce "P1" 5, .apply 0 true, .emit 0 1,
    .bind (some ⟨boundBin, by decide⟩) 1 (some 0) true]

def pollThenJump : List NodeAction :=
  heldFive ++ [.tick .produce "P1" 1, .apply 1 true, .emit 1 2, .tick .produce "P1" 1,
    .apply 2 true, .emit 2 3]

theorem hold_and_replay_conserves_pollThenJump :
    AllSteps step ReplaysOnce (fresh none 0 0) pollThenJump
      ∧ (runSteps step (fresh none 0 0) pollThenJump).charged = 7
      ∧ ∀ w ∈ visited step (fresh none 0 0) pollThenJump,
          w.settled = true → w.handled = w.charged + w.row.pendingUOPDelta := by
  have hok : AllSteps step ReplaysOnce (fresh none 0 0) pollThenJump := by
    decide
  exact ⟨hok, by decide, hold_and_replay_conserves none 0 0 pollThenJump hok⟩

def pollMeetsJump : List NodeAction :=
  heldFive ++ [.tick .produce "P1" 1, .tick .produce "P1" 1, .apply 1 true, .apply 2 true,
    .emit 1 2, .emit 2 3]

/-- **書き込みは全部成功したのに、pending の 5 が二度付く。** -/
theorem pending_replayed_twice :
    (runSteps step (fresh none 0 0) pollMeetsJump).handled = 7
      ∧ (runSteps step (fresh none 0 0) pollMeetsJump).charged = 12
      ∧ (runSteps step (fresh none 0 0) pollMeetsJump).row.pendingUOPDelta = 0
      ∧ ¬ ∀ w ∈ visited step (fresh none 0 0) pollMeetsJump,
          w.settled = true → w.handled = w.charged + w.row.pendingUOPDelta := by
  refine ⟨by decide, by decide, by decide, ?_⟩
  intro h
  exact absurd (h _ (mem_visited_runSteps _ _) (by decide)) (by decide)

end Shingo.Edge
