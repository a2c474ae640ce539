import Shingo.Dispatch.Handover
import Shingo.Infra.Run

/-!
# 宙に浮いた mission は残らないか

order が終わり、引き渡しも終わらせる呼び出しも返った後で、fleet に mission が残るか。

row を読み直してから vendor_order_id を書くまでの間に order が終わると、
終わらせた側の写しには止める相手が無く、引き渡しの側はもう見直さない。

`HandoverInv` は、残っている mission を誰が止めるかの記録。
-/

namespace Shingo.Dispatch

open Infra HandoverWorld

def HandoverPC.isReturned : HandoverPC → Bool
  | .returned _ => true
  | _ => false

variable (w : HandoverWorld)

/-- 終わった order の、どの呼び出しも返った後の fleet に、その order の mission は無い。 -/
def HandoverWorld.NoOrphan : Prop :=
  w.row.status.isTerminal = true → w.handover.isReturned = true →
    (∀ c ∈ w.calls, c = .returned) → w.live = []
  deriving Decidable

def StopsMission (kind : TerminalKind) (snap : Order) : Prop :=
  kind ≠ .plain ∧ snap.vendorOrderID = w.vendorOrderID
  deriving Decidable

/-- 引き渡しが済んだ後の書き込みは、mission を止める呼び出しのものか、mission の後。 -/
def WriteOk : Option TerminalPC → Prop
  | some (.write kind snap _) =>
    w.handover = .returned none → StopsMission w kind snap ∨ w.live = []
  | _ => True

instance (w : HandoverWorld) : ∀ c, Decidable (WriteOk w c)
  | some (.write _ _ _) => inferInstanceAs (Decidable (_ → _))
  | some (.stopFirst _) | some (.stopAfter _) | some .returned | none => .isTrue trivial

/--
動作の条件。

* error の返った create は、fleet に何も残していない
* vendor_order_id は、order がまだ終わっていないときに書かれる
* 引き渡しが済んだ後に order を終わらせるのは、書かれた vendor_order_id を読んで
  mission を止める呼び出しか、mission が fleet で終わった後の呼び出し
-/
def HandoverStepOk : HandoverAction → Prop
  | .create out => out ≠ .lostReply
  | .name ok => w.handover = .name → ok = true → w.row.status.isTerminal = false
  | .terminalize i _ => WriteOk w w.calls[i]?
  | _ => True

instance (w : HandoverWorld) : ∀ a, Decidable (HandoverStepOk w a)
  | .create _ => inferInstanceAs (Decidable (_ ≠ _))
  | .name _ => inferInstanceAs (Decidable (_ → _ → _))
  | .terminalize i _ => inferInstanceAs (Decidable (WriteOk w w.calls[i]?))
  | .claim _ | .reread _ | .begin _ _ | .stop _ | .move _ | .missionEnds => .isTrue trivial

/-! ## 不変条件 -/

def CallKnows : TerminalPC → Prop
  | .stopFirst snap | .write .graceExpired snap _ | .stopAfter snap =>
    snap.vendorOrderID = w.vendorOrderID → w.handover = .returned none
  | .write .cancelOrder snap _ =>
    snap.vendorOrderID = w.vendorOrderID → w.handover = .returned none ∧ w.live = []
  | .write .plain _ _ | .returned => True

def StopPending : Prop :=
  ∃ (i : Nat) (snap : Order), w.calls[i]? = some (.stopAfter snap) ∧
    snap.vendorOrderID = w.vendorOrderID

/-- mission が残っているとき、誰がそれを止めるか。 -/
structure HandoverInv (w : HandoverWorld) : Prop where
  minted : w.vendorOrderID ≠ ""
  only : ∀ v ∈ w.live, v = w.vendorOrderID
  named : w.row.vendorOrderID = w.vendorOrderID → w.handover = .returned none
  absent : (w.handover = .claim ∨ w.handover = .create ∨
    ∃ e, w.handover = .returned (some e)) → w.live = []
  stopped : w.handover = .returned none → w.row.status.isTerminal = true →
    w.live = [] ∨ StopPending w
  calls : ∀ {i : Nat} {c}, w.calls[i]? = some c → CallKnows w c

theorem HandoverInv.start (order : Order) (req : CreateOrderRequest order) :
    HandoverInv (start order req) where
  minted := req.minted
  only _ hv := by cases hv
  named h := absurd h.symm req.fresh
  absent _ := rfl
  stopped h := by cases h
  calls h := by cases h

theorem HandoverInv.noOrphan {w : HandoverWorld} (h : HandoverInv w) : w.NoOrphan := by
  intro hterm hret hcalls
  cases hpc : w.handover with
  | returned err =>
    cases err with
    | some e => exact h.absent (.inr (.inr ⟨e, hpc⟩))
    | none =>
      rcases h.stopped hpc hterm with hl | ⟨i, snap, hi, -⟩
      · exact hl
      · -- 返っていない呼び出しが残っている
        have := hcalls _ (List.mem_of_getElem? hi)
        cases this
  | claim | create | reread | name => rw [hpc] at hret; cases hret

/-! ## 動作ごとの保存 -/

theorem CallKnows.mono {w w' : HandoverWorld} {c : TerminalPC} (h : CallKnows w c)
    (hv : w'.vendorOrderID = w.vendorOrderID)
    (hdone : w.handover = .returned none → w'.handover = .returned none)
    (hlive : w.handover = .returned none → w.live = [] → w'.live = []) : CallKnows w' c := by
  cases c with
  | stopFirst snap | stopAfter snap => exact fun hs => hdone (h (hs.trans hv))
  | returned => trivial
  | write kind snap dst =>
    cases kind with
    | cancelOrder =>
      intro hs
      obtain ⟨hret, hl⟩ := h (hs.trans hv)
      exact ⟨hdone hret, hlive hret hl⟩
    | graceExpired => exact fun hs => hdone (h (hs.trans hv))
    | plain => trivial

namespace HandoverInv

variable {w : HandoverWorld}

theorem cancelVendor (h : HandoverInv w) (v : String) :
    HandoverInv (w.cancelVendor v) where
  __ := h
  only u hu := h.only u (List.mem_filter.mp hu).1
  absent hpc := by
    show w.live.filter _ = []
    rw [h.absent hpc]
    rfl
  stopped hpc hterm := by
    rcases h.stopped hpc hterm with hl | hp
    · exact .inl (by show w.live.filter _ = []; rw [hl]; rfl)
    · exact .inr hp
  calls hi := by
    refine (h.calls hi).mono rfl id fun _ hl => ?_
    show w.live.filter _ = []
    rw [hl]
    rfl

theorem live_cancelVendor (h : HandoverInv w) : (w.cancelVendor w.vendorOrderID).live = [] := by
  refine List.filter_eq_nil_iff.mpr fun v hv => ?_
  simp [h.only v hv]

theorem advance (h : HandoverInv w) (hne : w.handover ≠ .returned none)
    {w' : HandoverWorld} (hv : w'.vendorOrderID = w.vendorOrderID) (hcalls : w'.calls = w.calls)
    (hrow : w'.row.vendorOrderID = w.row.vendorOrderID) (hne' : w'.handover ≠ .returned none)
    (only : ∀ v ∈ w'.live, v = w.vendorOrderID)
    (absent : (w'.handover = .claim ∨ w'.handover = .create ∨
      ∃ e, w'.handover = .returned (some e)) → w'.live = []) : HandoverInv w' where
  minted := by rw [hv]; exact h.minted
  only v hm := by rw [hv]; exact only v hm
  named hr := absurd (h.named (by rw [← hrow, ← hv]; exact hr)) hne
  absent := absent
  stopped hpc := absurd hpc hne'
  calls hi := by
    rw [hcalls] at hi
    exact (h.calls hi).mono hv (absurd · hne) (absurd · hne)

variable {i : Nat} {snap : Order}

section

variable (h : HandoverInv w)
include h

theorem goto {pc : TerminalPC} (hpc : CallKnows w pc)
    (hstop : ∀ snap, w.calls[i]? = some (.stopAfter snap) →
      snap.vendorOrderID = w.vendorOrderID → w.live = []) :
    HandoverInv (w.goto i pc) where
  __ := h
  stopped hret hterm := by
    rcases h.stopped hret hterm with hl | ⟨j, snap, hj, hs⟩
    · exact .inl hl
    · by_cases hji : j = i
      · exact .inl (hstop snap (by rw [← hji]; exact hj) hs)
      · refine .inr ⟨j, snap, ?_, hs⟩
        show (w.calls.set i pc)[j]? = _
        rw [List.getElem?_set_ne (Ne.symm hji)]
        exact hj
  calls hj := by
    rcases getElem?_set_cases hj with ⟨-, rfl⟩ | ⟨-, hj⟩
    · exact hpc
    · exact h.calls hj

theorem setStatus {s : OrderStatus}
    (hs : w.handover = .returned none → s.isTerminal = true → w.live = [] ∨ StopPending w) :
    HandoverInv { w with row := { w.row with status := s } } where
  __ := h
  stopped := hs
  calls hi := (h.calls hi).mono rfl id fun _ => id

theorem begin (kind : TerminalKind) (dst : OrderStatus) : HandoverInv (w.begin kind dst) := by
  refine ⟨h.minted, h.only, h.named, h.absent, ?_, ?_⟩
  · intro hret hterm
    rcases h.stopped hret hterm with hl | ⟨i, snap, hi, hs⟩
    · exact .inl hl
    · exact .inr ⟨i, snap, getElem?_append_left_of_lt hi, hs⟩
  · intro i c hi
    have hknows : CallKnows w c := by
      rcases getElem?_append_cases hi with hi | ⟨-, rfl⟩
      · exact h.calls hi
      · -- 写しは今の row なので、mission の名前を持つのは引き渡しの後だけ
        split
        · trivial
        · cases kind with
          | cancelOrder => exact h.named
          | graceExpired => dsimp only; split <;> exact h.named
          | plain => dsimp only; split <;> trivial
    exact hknows.mono rfl id fun _ => id

theorem claim (hpc : w.handover = .claim) (ok : Bool) : HandoverInv (w.claim ok) := by
  have hne : w.handover ≠ .returned none := by rw [hpc]; decide
  have hlive : w.live = [] := h.absent (.inl hpc)
  have hfail : ∀ e, HandoverInv (w.finish (some e)) := fun e =>
    h.advance hne rfl rfl rfl nofun h.only fun _ => hlive
  unfold HandoverWorld.claim
  split
  · exact hfail _
  split
  · exact hfail _
  split
  · exact h.advance hne rfl rfl rfl nofun h.only fun _ => hlive
  · exact hfail _

theorem create (hpc : w.handover = .create) {out : AppendOutcome}
    (hout : out ≠ .lostReply) : HandoverInv (w.create out) := by
  have hne : w.handover ≠ .returned none := by rw [hpc]; decide
  have hlive : w.live = [] := h.absent (.inr (.inl hpc))
  cases out with
  | ok =>
    refine h.advance hne rfl rfl rfl nofun ?_ ?_
    · intro v hv
      have hv : v ∈ w.live ++ [w.vendorOrderID] := hv
      rw [hlive] at hv
      exact List.mem_singleton.mp hv
    · rintro (hc | hc | ⟨e, hc⟩) <;> cases hc
  | failed =>
    exact h.advance hne rfl rfl rfl nofun h.only fun _ => hlive
  | lostReply => exact absurd rfl hout

theorem giveUp (hne : w.handover ≠ .returned none)
    (e : HandoverError) : HandoverInv ((w.cancelVendor w.vendorOrderID).finish (some e)) :=
  h.advance hne rfl rfl rfl nofun (h.cancelVendor _).only fun _ => h.live_cancelVendor

theorem reread (hpc : w.handover = .reread) (ok : Bool) : HandoverInv (w.reread ok) := by
  have hne : w.handover ≠ .returned none := by rw [hpc]; decide
  unfold HandoverWorld.reread
  split
  · exact h.giveUp hne _
  · refine h.advance hne rfl rfl rfl nofun h.only ?_
    rintro (hc | hc | ⟨e, hc⟩) <;> cases hc

theorem name (hpc : w.handover = .name) {ok : Bool}
    (hok : ok = true → w.row.status.isTerminal = false) : HandoverInv (w.name ok) := by
  have hne : w.handover ≠ .returned none := by rw [hpc]; decide
  cases ok with
  | false => exact h.giveUp hne _
  | true =>
    refine ⟨h.minted, h.only, fun _ => rfl, ?_, fun _ hterm => ?_, fun hi => ?_⟩
    · rintro (hc | hc | ⟨e, hc⟩) <;> cases hc
    · exact absurd hterm (Bool.eq_false_iff.mp (hok rfl))
    · exact (h.calls hi).mono rfl (absurd · hne) (absurd · hne)

theorem stopFirst
    (hi : w.calls[i]? = some (.stopFirst snap)) : HandoverInv (w.stopFirst i snap) := by
  have hknows : snap.vendorOrderID = w.vendorOrderID → w.handover = .returned none := h.calls hi
  unfold HandoverWorld.stopFirst
  generalize hw : (if snap.vendorOrderID != "" then w.cancelVendor snap.vendorOrderID else w) = w'
  have hsame : HandoverInv w' ∧ w'.calls = w.calls ∧ w'.handover = w.handover ∧
      w'.vendorOrderID = w.vendorOrderID ∧
      (snap.vendorOrderID = w.vendorOrderID → w'.live = []) := by
    by_cases hs : snap.vendorOrderID = ""
    · have he : w' = w := by rw [← hw]; simp [hs]
      subst he
      exact ⟨h, rfl, rfl, rfl, fun hv => absurd (hv ▸ hs) h.minted⟩
    · have he : w' = w.cancelVendor snap.vendorOrderID := by rw [← hw]; simp [hs]
      subst he
      refine ⟨h.cancelVendor _, rfl, rfl, rfl, fun hv => ?_⟩
      rw [hv]
      exact h.live_cancelVendor
  obtain ⟨hinv, hcalls, hpc, hv, hlive⟩ := hsame
  refine hinv.goto ?_ ?_
  · split
    · intro hs
      rw [hv] at hs
      exact ⟨hpc.trans (hknows hs), hlive hs⟩
    · trivial
  · intro snap' hi'
    rw [hcalls, hi] at hi'
    cases hi'

theorem stopAfter (hi : w.calls[i]? = some (.stopAfter snap)) :
    HandoverInv ((w.cancelVendor snap.vendorOrderID).goto i .returned) := by
  refine (h.cancelVendor _).goto trivial ?_
  intro snap' hi' hs
  have he : snap' = snap := by
    have hi' : w.calls[i]? = some (.stopAfter snap') := hi'
    rw [hi] at hi'
    cases hi'
    rfl
  rw [← he, hs]
  exact h.live_cancelVendor

/-- **order が終わる。** 引き渡しの後なら、mission は止めてあるか、これから止める。 -/
theorem terminalize {kind : TerminalKind}
    {dst : OrderStatus} (hi : w.calls[i]? = some (.write kind snap dst))
    (hok : WriteOk w w.calls[i]?) (ok : Bool) : HandoverInv (w.terminalize i kind snap dst ok) := by
  have hc := h.calls hi
  rw [hi] at hok
  have hafter : CallKnows w (afterWrite kind snap) := by
    cases kind with
    | cancelOrder | plain => trivial
    | graceExpired => exact hc
  have hstop : ∀ snap', w.calls[i]? = some (.stopAfter snap') →
      snap'.vendorOrderID = w.vendorOrderID → w.live = [] := by
    intro snap' hi'
    rw [hi] at hi'
    cases hi'
  have hlt : i < w.calls.length := (List.getElem?_eq_some_iff.mp hi).1
  unfold HandoverWorld.terminalize
  split
  · -- 先に呼び出しを進め、それから status を書いたと見てよい
    refine (h.goto hafter hstop).setStatus ?_
    intro hret _
    rcases hok hret with ⟨hkind, hs⟩ | hl
    · cases kind with
      | plain => exact absurd rfl hkind
      | cancelOrder => exact .inl (hc hs).2
      | graceExpired => exact .inr ⟨i, snap, List.getElem?_set_self hlt, hs⟩
    · exact .inl hl
  · exact h.goto hafter hstop

theorem step {a : HandoverAction} (hok : HandoverStepOk w a) : HandoverInv (handoverStep w a) := by
  cases a with dsimp only [handoverStep]
  | claim ok =>
    split
    · exact h.claim ‹_› ok
    · exact h
  | create out =>
    split
    · exact h.create ‹_› hok
    · exact h
  | reread ok =>
    split
    · exact h.reread ‹_› ok
    · exact h
  | name ok =>
    split
    · rename_i hpc
      exact h.name hpc (hok hpc)
    · exact h
  | begin kind dst => exact h.begin kind dst
  | stop i =>
    split
    · exact h.stopFirst ‹_›
    · exact h.stopAfter ‹_›
    · exact h
  | terminalize i ok =>
    split
    · exact h.terminalize ‹_› hok ok
    · exact h
  | move dst =>
    split
    · rename_i hm
      refine h.setStatus fun _ hterm => ?_
      rw [Bool.and_eq_true, hterm] at hm
      cases hm.2
    · exact h
  | missionEnds => exact h.cancelVendor _

end

end HandoverInv

/-- **終わった order の mission は fleet に残らない。** -/
theorem handover_leaves_no_orphan (order : Order) (req : CreateOrderRequest order)
    (acts : List HandoverAction)
    (hok : AllSteps handoverStep HandoverStepOk (start order req) acts) :
    ∀ w ∈ visited handoverStep (start order req) acts, w.NoOrphan := by
  intro w hw
  have hstep : ∀ w a, HandoverInv w → HandoverStepOk w a → HandoverInv (handoverStep w a) :=
    fun _ _ h ha => h.step ha
  have hinv := AllSteps.visited_of_inv hstep (HandoverInv.start order req) hok w hw
  exact hinv.noOrphan

def sourcedOrder : Order := { id := 7, status := .sourcing, sourceNode := "SUP_1" }

def sourcedRequest : CreateOrderRequest sourcedOrder where
  orderID := "sg-7-ab12cd34"
  minted := by decide
  fresh := by decide

def cancelDuringCreate : List HandoverAction :=
  [.claim true, .begin .cancelOrder .cancelled, .stop 0, .create .ok, .terminalize 0 true,
   .reread true]

theorem handover_cancel_during_create :
    (runSteps handoverStep (start sourcedOrder sourcedRequest)
        cancelDuringCreate).row.status = .cancelled
      ∧ (runSteps handoverStep (start sourcedOrder sourcedRequest)
          cancelDuringCreate).live = [] := by
  have h := handover_leaves_no_orphan sourcedOrder sourcedRequest cancelDuringCreate (by decide) _
    (mem_visited_runSteps _ _)
  exact ⟨by decide, h (by decide) (by decide) (by decide)⟩

def cancelAfterReread : List HandoverAction :=
  [.claim true, .create .ok, .reread true, .begin .cancelOrder .cancelled, .stop 0,
   .terminalize 0 true, .name true]

/-- **読み直した後に終わった order の mission は残る。** -/
theorem orphan_after_reread :
    ¬ (runSteps handoverStep (start sourcedOrder sourcedRequest)
        cancelAfterReread).NoOrphan := by
  decide

end Shingo.Dispatch
