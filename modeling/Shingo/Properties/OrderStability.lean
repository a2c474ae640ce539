import Shingo.Edge.OrderMirror
import Shingo.Infra.Run

/-!
# 終わった order は終わったまま

重なって動く呼び出しの、読み書き一つずつのどの並びでも、終わりの status は変わらず、
order-completed は一度だけ出る。ただし二つの場合を除く。

* 終わりの status が、ほかの呼び出しが status を確かめてから書くまでの間に書かれた場合。
  書き込みは row の今の status を確かめない。
* manifest_sync_failed と skipped が、終わった order に来た場合。どちらも確かめずに書く。

終わりの status を書いた回数（`closes`）が増えていなければ、呼び出しは終わっていない row を書く。
-/

namespace Shingo.Edge

open Dispatch List MirrorCall
open Core
open Infra

/-! ## 不変条件 -/

def MirrorCall.closing (c : MirrorCall) : Bool :=
  match c.pc with
  | .settle _ target => target.isTerminal
  | _ => false

def MirrorCall.Fresh (row : MirrorRow) (c : MirrorCall) : Prop :=
  match c.pc with
  | .force target => row.status.isTerminal = false ∨ row.status = target
  | .write _ _ => row.status.isTerminal = false
  | _ => True

structure StatusInv (w : MirrorWorld) : Prop where
  closes : w.closes = if w.row.status.isTerminal then 1 else 0
  completed : w.events.count .completed + w.calls.countP closing = w.closes
  saw : ∀ c ∈ w.calls, c.saw ≤ w.closes
  fresh : ∀ c ∈ w.calls, c.saw = w.closes → c.Fresh w.row

theorem StatusInv.completed_eq {w : MirrorWorld} (h : StatusInv w)
    (hsettled : ∀ c ∈ w.calls, c.closing = false) : w.events.count .completed = w.closes := by
  have hzero : w.calls.countP closing = 0 := by
    rw [countP_eq_zero]
    intro c hc
    simp [hsettled c hc]
  have hcompleted := h.completed
  omega

variable {row : MirrorRow}

theorem StatusInv.start (h : row.status.isTerminal = false) :
    StatusInv { row } where
  closes := by simp [h]
  completed := rfl
  saw := forall_mem_nil _
  fresh := forall_mem_nil _

/-! ## 条件 -/

def MirrorCallKind.unguarded : MirrorCallKind → Bool
  | .message .skipped => true
  | .message (.error .manifestSyncFailed) => true
  | _ => false

def MirrorPC.isWrite : MirrorPC → Bool
  | .write _ _ => true
  | _ => false

/--
一歩の条件。

`unovertaken` — status を確かめてから書くまでに、終わりの status が書かれていない。
`guarded` — 確かめずに書く envelope は、終わっていない order か、もう skipped の order に来る。
-/
structure MirrorCall.StepOk (w : MirrorWorld) (c : MirrorCall) : Prop where
  unovertaken : c.pc.isWrite = true → c.saw = w.closes
  guarded : c.pc = .first → c.kind.unguarded = true →
    w.row.status.isTerminal = false ∨ (c.kind = .message .skipped ∧ w.row.status = .skipped)

instance (w : MirrorWorld) (c : MirrorCall) : Decidable (c.StepOk w) :=
  decidable_of_iff ((_ → _) ∧ (_ → _ → _ ∨ _))
    ⟨fun h => ⟨h.1, h.2⟩, fun h => ⟨h.unovertaken, h.guarded⟩⟩

def MirrorStepOk (w : MirrorWorld) : MirrorAction → Prop
  | .start _ => True
  | .step i ok => ok = true → ∀ c ∈ w.calls[i]?, c.StepOk w

instance (w : MirrorWorld) : (a : MirrorAction) → Decidable (MirrorStepOk w a)
  | .start _ => .isTrue trivial
  | .step _ _ => inferInstanceAs (Decidable (_ → ∀ _ ∈ _, _))

/-! ## 一歩 -/

section Step

variable {w : MirrorWorld} {i : Nat} {c c' : MirrorCall}

theorem isTerminal_of_forwardJump {src dst : OrderStatus} (h : isForwardJump src dst = true) :
    src.isTerminal = false := by
  cases src <;> first | rfl | (cases dst <;> cases h)

section

variable (h : StatusInv w) (hc : w.calls[i]? = some c)
include h hc

theorem StatusInv.advance {events : List MirrorEvent} (hclosing' : c'.closing = false)
    (hevents : events.count .completed = if c.closing then 1 else 0)
    (hsaw : c'.saw ≤ w.closes) (hfresh : c'.saw = w.closes → c'.Fresh w.row) :
    StatusInv { w with calls := w.calls.set i c', events := w.events ++ events } where
  closes := h.closes
  completed := by
    have hcount := countP_set_of_getElem? (p := closing) (y := c') hc
    have hcompleted := h.completed
    simp only [hclosing', Bool.false_eq_true, if_false] at hcount
    show (w.events ++ events).count .completed + (w.calls.set i c').countP closing = w.closes
    rw [count_append, hevents]
    omega
  saw := by
    intro d hd
    rcases mem_set_cases hd with rfl | hd
    · exact hsaw
    · exact h.saw d (mem_of_mem_eraseIdx hd)
  fresh := by
    intro d hd hdsaw
    rcases mem_set_cases hd with rfl | hd
    · exact hfresh hdsaw
    · exact h.fresh d (mem_of_mem_eraseIdx hd) hdsaw

theorem StatusInv.write {old target : OrderStatus}
    (hpc : c.pc = .write old target) (hlive : w.row.status.isTerminal = false) :
    StatusInv
      { row := { w.row with status := target }
        calls := w.calls.set i { c with pc := .settle old target }
        events := w.events
        closes := if target.isTerminal then w.closes + 1 else w.closes } := by
  have hzero : w.closes = 0 := by rw [h.closes, hlive]; rfl
  have hclosing : c.closing = false := by simp [closing, hpc]
  have hmem : c ∈ w.calls := mem_of_getElem? hc
  refine ⟨?_, ?_, ?_, ?_⟩
  · simp [hzero]
  · have hcount := countP_set_of_getElem? (p := closing)
      (y := { c with pc := .settle old target }) hc
    have hcompleted := h.completed
    have hnew : closing { c with pc := .settle old target } = target.isTerminal := rfl
    simp only [hclosing, hnew, Bool.false_eq_true, if_false] at hcount
    cases htarget : target.isTerminal <;> simp [htarget] at hcount ⊢ <;> omega
  · intro d hd
    have hd : d.saw ≤ w.closes := by
      rcases mem_set_cases hd with rfl | hd
      · exact h.saw c hmem
      · exact h.saw d (mem_of_mem_eraseIdx hd)
    split <;> omega
  · intro d hd hdsaw
    dsimp only at hdsaw ⊢
    rcases mem_set_cases hd with rfl | hd
    · trivial
    · have hdle := h.saw d (mem_of_mem_eraseIdx hd)
      cases htarget : target.isTerminal with
      | true =>
        rw [htarget, if_pos rfl] at hdsaw
        omega
      | false =>
        -- 終わりでない書き込みの後も、row は終わっていない
        unfold MirrorCall.Fresh
        split
        · exact .inl htarget
        · exact htarget
        · trivial

end

theorem closing_returned : c.returned.closing = false := by
  unfold returned
  split <;> rfl

theorem fresh_returned : c.returned.Fresh row := by
  unfold returned
  split <;> trivial

theorem saw_returned_le {n : Nat} (h : c.saw ≤ n) : c.returned.saw ≤ n := by
  unfold returned
  split <;> exact h

theorem afterFirst_eq_force {kind : MirrorCallKind} {target : OrderStatus}
    (h : kind.afterFirst row = .force target) : row.status.isTerminal = false ∨
      (kind.unguarded = true ∧ (kind = .message .skipped → target = .skipped)) := by
  unfold MirrorCallKind.afterFirst at h
  split at h
  case h_3 =>
    -- 一般の update
    split at h
    · next hadopt => exact .inl hadopt.2
    · cases h
  case h_5 => exact .inr ⟨rfl, fun hkind => by cases hkind⟩
  case h_6 =>
    -- invalid_state
    split at h
    · cases h
    rename_i htransit
    rw [not_not] at htransit
    exact .inl (by rw [htransit]; rfl)
  case h_8 =>
    cases h
    exact .inr ⟨rfl, fun _ => rfl⟩
  all_goals first | cases h | (split at h <;> cases h)

theorem afterFirst_ne_write (row : MirrorRow) (kind : MirrorCallKind) (old target : OrderStatus) :
    kind.afterFirst row ≠ .write old target := by
  unfold MirrorCallKind.afterFirst
  intro h
  split at h <;> first | cases h | (split at h <;> cases h)

theorem afterFirst_ne_settle (row : MirrorRow) (kind : MirrorCallKind)
    (old target : OrderStatus) : kind.afterFirst row ≠ .settle old target := by
  unfold MirrorCallKind.afterFirst
  intro h
  split at h <;> first | cases h | (split at h <;> cases h)

theorem closing_of_ne_settle (h : ∀ old target, c.pc ≠ .settle old target) : c.closing = false := by
  unfold closing
  split
  · next old target hpc => exact absurd hpc (h old target)
  · rfl

theorem callStep_inv (h : StatusInv w) (hc : w.calls[i]? = some c) (hok : c.StepOk w) : StatusInv
        { row := (callStep w.row w.closes c).1
          calls := w.calls.set i (callStep w.row w.closes c).2.2
          events := w.events ++ (callStep w.row w.closes c).2.1
          closes := closesAfter w.closes c.pc } ∧
      (w.row.status.isTerminal = true →
        (callStep w.row w.closes c).1.status = w.row.status) := by
  have hmem : c ∈ w.calls := mem_of_getElem? hc
  have hsaw := h.saw c hmem
  have hadvance : (∀ old target, c.pc ≠ .settle old target) → ∀ c' : MirrorCall,
      c'.closing = false → c'.saw ≤ w.closes → (c'.saw = w.closes → c'.Fresh w.row) →
      StatusInv { w with calls := w.calls.set i c', events := w.events ++ [] } ∧
        (w.row.status.isTerminal = true → w.row.status = w.row.status) := by
    intro hpc c' hclosing hsaw' hfresh
    refine ⟨h.advance hc hclosing ?_ hsaw' hfresh, fun _ => rfl⟩
    rw [closing_of_ne_settle hpc]
    rfl
  unfold callStep
  cases hpc : c.pc with
  | first =>
    refine hadvance (by simp [hpc]) _ ?_ (Nat.le_refl _) fun _ => ?_
    · exact closing_of_ne_settle fun _ _ => afterFirst_ne_settle _ _ _ _
    · unfold MirrorCall.Fresh
      split
      · next hforce =>
        rcases afterFirst_eq_force hforce with hlive | ⟨hunguarded, htarget⟩
        · exact .inl hlive
        · rcases hok.guarded hpc hunguarded with hlive | ⟨hskip, hskipped⟩
          · exact .inl hlive
          · exact .inr (by rw [hskipped, htarget hskip])
      · next hwrite => exact absurd hwrite (afterFirst_ne_write _ _ _ _)
      · trivial
  | waybill | enqueue target | receipt =>
    exact hadvance (by simp [hpc]) _ rfl hsaw fun _ => trivial
  | transition target mirror =>
    dsimp only
    split
    · next hvalid =>
      exact hadvance (by simp [hpc]) _ rfl (Nat.le_refl _)
        fun _ => isTerminal_of_validTransition hvalid
    · split
      · exact hadvance (by simp [hpc]) _ closing_returned (saw_returned_le hsaw)
          fun _ => fresh_returned
      refine hadvance (by simp [hpc]) _ ?_ hsaw fun _ => ?_
      · cases mirror <;> rfl
      · cases mirror <;> trivial
  | jump target =>
    dsimp only
    split
    · next hjump =>
      exact hadvance (by simp [hpc]) _ rfl (Nat.le_refl _)
        fun _ => .inl (isTerminal_of_forwardJump hjump)
    · exact hadvance (by simp [hpc]) _ rfl hsaw fun _ => trivial
  | force target =>
    dsimp only
    split
    · exact hadvance (by simp [hpc]) _ closing_returned (saw_returned_le hsaw)
        fun _ => fresh_returned
    rename_i hsame
    refine hadvance (by simp [hpc]) _ rfl hsaw fun hnow => ?_
    have hfresh := h.fresh c hmem hnow
    unfold MirrorCall.Fresh at hfresh
    rw [hpc] at hfresh
    exact hfresh.resolve_right hsame
  | write old target =>
    -- 確かめてから終わりの status は書かれていないので、row は終わっていない
    have hlive : w.row.status.isTerminal = false := by
      have hfresh := h.fresh c hmem (hok.unovertaken (by rw [hpc]; rfl))
      unfold MirrorCall.Fresh at hfresh
      rw [hpc] at hfresh
      exact hfresh
    refine ⟨?_, fun hterminal => ?_⟩
    · dsimp only
      rw [append_nil]
      exact h.write hc hpc hlive
    · rw [hlive] at hterminal
      cases hterminal
  | settle old target =>
    refine ⟨h.advance hc closing_returned ?_ (saw_returned_le hsaw) fun _ => fresh_returned,
      fun _ => rfl⟩
    rw [closing, hpc]
    cases target <;> rfl
  | confirm =>
    dsimp only
    split <;> exact hadvance (by simp [hpc]) _ rfl (Nat.le_refl _) fun _ => trivial
  | done =>
    exact hadvance (by simp [hpc]) _ (closing_of_ne_settle (by simp [hpc])) hsaw
      fun hnow => h.fresh c hmem hnow

theorem mirrorStep_inv {a : MirrorAction} (h : StatusInv w) (hok : MirrorStepOk w a) :
    StatusInv (mirrorStep w a) ∧
      (w.row.status.isTerminal = true → (mirrorStep w a).row.status = w.row.status) := by
  cases a with
  | start kind =>
    refine ⟨⟨h.closes, ?_, ?_, ?_⟩, fun _ => rfl⟩
    · show w.events.count .completed
        + (w.calls ++ [({ kind } : MirrorCall)]).countP closing = w.closes
      rw [countP_append]
      exact h.completed
    · intro c hc
      rcases mem_append_last.mp hc with hc | rfl
      · exact h.saw c hc
      · exact Nat.zero_le _
    · intro c hc hsaw
      rcases mem_append_last.mp hc with hc | rfl
      · exact h.fresh c hc hsaw
      · trivial
  | step i ok =>
    unfold mirrorStep
    dsimp only
    cases hc : w.calls[i]? with
    | none => exact ⟨h, fun _ => rfl⟩
    | some c =>
      dsimp only
      split
      · next hfail =>
        have hclosing : c.closing = false := by
          unfold closing
          split
          · next hpc =>
            rw [hpc] at hfail
            cases hfail.2
          · rfl
        have hinv : StatusInv { w with
            calls := w.calls.set i { c with pc := .done }, events := w.events ++ [] } :=
          h.advance hc rfl (by rw [hclosing]; rfl) (h.saw c (mem_of_getElem? hc)) fun _ => trivial
        rw [append_nil] at hinv
        exact ⟨hinv, fun _ => rfl⟩
      · next hsucc =>
        cases ok with
        | true => exact callStep_inv h hc (hok rfl c hc)
        | false =>
          -- 失敗できないのは知らせを出す所だけで、そこに条件は要らない
          refine callStep_inv h hc ⟨?_, ?_⟩
          · intro hwrite
            cases hpc : c.pc with
            | write old target =>
              rw [hpc] at hsucc
              exact absurd ⟨rfl, rfl⟩ hsucc
            | _ =>
              rw [hpc] at hwrite
              cases hwrite
          · intro hpc
            rw [hpc] at hsucc
            exact absurd ⟨rfl, rfl⟩ hsucc

end Step

/-! ## 実行の全体 -/

/-- **終わった order は終わったままで、order-completed はちょうど一度出る。** -/
theorem finished_order_stays (row : MirrorRow) (hlive : row.status.isTerminal = false)
    (as : List MirrorAction) (hok : AllSteps mirrorStep MirrorStepOk { row } as) :
    (visited mirrorStep { row } as).Pairwise
        (fun w w' => w.row.status.isTerminal = true → w'.row.status = w.row.status) ∧
      ∀ w ∈ visited mirrorStep { row } as,
        w.events.count .completed ≤ 1 ∧
        (w.row.status.isTerminal = false → w.events.count .completed = 0) ∧
        (w.row.status.isTerminal = true → (∀ c ∈ w.calls, c.closing = false) →
          w.events.count .completed = 1) := by
  have hinv : ∀ w ∈ visited mirrorStep { row } as, StatusInv w :=
    AllSteps.visited_of_inv (fun _ _ h hok => (mirrorStep_inv h hok).1) (StatusInv.start hlive) hok
  constructor
  · have hstep : ∀ w a, StatusInv w → MirrorStepOk w a → StatusInv (mirrorStep w a) ∧
        (w.row.status.isTerminal = true → (mirrorStep w a).row.status = w.row.status) :=
      fun _ _ h hok => mirrorStep_inv h hok
    refine (AllSteps.visited_pairwise (fun _ _ => rfl) ?_ hstep (StatusInv.start hlive) hok).1
    intro s t u hst htu hs
    have ht : t.row.status.isTerminal = true := by rw [hst hs]; exact hs
    rw [htu ht, hst hs]
  · intro w hw
    have h := hinv w hw
    have hcompleted := h.completed
    have hcloses := h.closes
    refine ⟨?_, fun hopen => ?_, fun hterminal hsettled => ?_⟩
    · split at hcloses <;> omega
    · rw [hopen] at hcloses
      simp at hcloses
      omega
    · rw [h.completed_eq hsettled, hcloses, hterminal]
      rfl

def callAlone (kind : MirrorCallKind) (i : Nat) : List MirrorAction :=
  .start kind :: List.replicate 12 (.step i true)

def deliveredRun : List MirrorAction :=
  [.start (.message .delivered), .step 0 true, .start .abort, .step 0 true, .step 1 true]
    ++ List.replicate 7 (.step 0 true) ++ List.replicate 5 (.step 1 true)
    ++ callAlone (.message (.update .faulted)) 2
    ++ callAlone (.message (.error (.other "fleet_failed"))) 3

theorem finished_order_stays_deliveredRun :
    (visited mirrorStep { row := { status := .inTransit, autoConfirm := true } }
        deliveredRun).Pairwise
        (fun w w' => w.row.status.isTerminal = true → w'.row.status = w.row.status) ∧
      (runSteps mirrorStep { row := { status := .inTransit, autoConfirm := true } }
        deliveredRun).row.status = .confirmed := by
  refine ⟨(finished_order_stays _ rfl deliveredRun ?_).1, ?_⟩
  · decide +kernel
  · decide +kernel

/-- **条件の外では、終わった order が動き出し、order-completed が二度出る。** -/
theorem finished_order_reopens :
    (let w := runSteps mirrorStep { row := { status := .inTransit } }
        (callAlone (.message .cancelled) 0);
      w.row.status = .cancelled ∧
        (runSteps mirrorStep w
          (callAlone (.message (.error .manifestSyncFailed)) 1)).row.status = .staged) ∧
    (let w := runSteps mirrorStep { row := { status := .delivered } }
        (callAlone (.message (.update .confirmed)) 0);
      let w' := runSteps mirrorStep w (callAlone (.message .skipped) 1);
      w.row.status = .confirmed ∧ w'.row.status = .skipped ∧
        w'.events.count .completed = 2) ∧
    (let w := runSteps mirrorStep { row := { status := .dispatched } }
        (.start (.message .waybill) :: List.replicate 3 (.step 0 true) ++ callAlone .abort 1);
      w.row.status = .cancelled ∧
        (runSteps mirrorStep w [.step 0 true]).row.status = .inTransit) ∧
    (runSteps mirrorStep { row := { status := .dispatched } }
        ([.start .abort, .start (.message .cancelled)] ++ List.replicate 3 (.step 0 true)
          ++ List.replicate 2 (.step 1 true) ++ List.replicate 2 (.step 0 true)
          ++ List.replicate 2 (.step 1 true))).events.count .completed = 2 := by
  decide +kernel

end Shingo.Edge
