import Shingo.Infra.Run
import Shingo.Dispatch.LoaderReplenish

/-!
# 窓ごとの carrier の頼みは一つ

`ReplenishLoader` の呼び出しを一文ずつ、どの順にも混ぜ、その間に order が終わる。
-/

namespace Shingo.Dispatch

open Infra List CarrierOrder

/-! ## 頼みの数 -/

theorem loaderAsks_le_countLive (w : ReplenishWorld) (node : String) :
    w.loaderAsks node ≤ countLiveCarrierRequests w.orders node := by
  refine countP_mono_left fun o _ ho => ?_
  exact (Bool.and_eq_true_iff.mp ho).2

variable (orders : List CarrierOrder)

theorem countP_setOrderStatus_le (id : Nat) (status : OrderStatus)
    (hlive : ∀ o, orders[id]? = some o → status.isTerminal = false → o.status.isTerminal = false)
    (node : String) : (setOrderStatus orders id status).countP (loaderAsksAt node)
      ≤ orders.countP (loaderAsksAt node) := by
  unfold setOrderStatus
  cases hid : orders[id]? with
  | none => exact Nat.le_refl _
  | some o =>
    obtain ⟨hlt, hget⟩ := List.getElem?_eq_some_iff.mp hid
    have hkeep : loaderAsksAt node { o with status } = true →
        loaderAsksAt node orders[id] = true := by
      rw [hget]
      intro h
      simp only [loaderAsksAt, asksAt, Bool.and_eq_true,
        Bool.not_eq_true'] at h ⊢
      exact ⟨h.1, h.2.1, hlive o hid h.2.2⟩
    have hpos : loaderAsksAt node orders[id] = true →
        0 < orders.countP (loaderAsksAt node) := fun h =>
      countP_pos_iff.mpr ⟨_, getElem_mem hlt, h⟩
    rw [countP_set hlt]
    by_cases h : loaderAsksAt node { o with status } = true
    · have := hpos (hkeep h)
      rw [if_pos h, if_pos (hkeep h)]
      omega
    · rw [if_neg h]
      omega

variable {id : Nat} {status : OrderStatus}

theorem live_setOrderStatus {orders : List CarrierOrder} {j : Nat} {o : CarrierOrder}
    (ho : orders[j]? = some o) (hlive : o.status.isTerminal = false)
    (hstatus : j = id → status.isTerminal = false) :
    ∃ o', (setOrderStatus orders id status)[j]? = some o' ∧ o'.status.isTerminal = false := by
  unfold setOrderStatus
  cases hid : orders[id]? with
  | none => exact ⟨o, ho, hlive⟩
  | some x =>
    have hlt := (List.getElem?_eq_some_iff.mp hid).1
    by_cases hj : j = id
    · subst hj
      exact ⟨{ x with status }, List.getElem?_set_self hlt, hstatus rfl⟩
    · exact ⟨o, (List.getElem?_set_ne (Ne.symm hj)).trans ho, hlive⟩

theorem transitionOrder_cases (id : Nat) (dst : OrderStatus) :
    transitionOrder orders id dst = orders
      ∨ (transitionOrder orders id dst = setOrderStatus orders id dst
        ∧ ∀ o, orders[id]? = some o → o.status.isTerminal = false) := by
  unfold transitionOrder
  cases hid : orders[id]? with
  | none => exact .inl rfl
  | some o =>
    dsimp only
    split
    · next h =>
      refine .inr ⟨rfl, fun o' ho' => ?_⟩
      cases ho'
      rcases Bool.or_eq_true_iff.mp h with h | h
      · exact isTerminal_of_validTransition h
      · simpa using (Bool.and_eq_true_iff.mp h).2
    · exact .inl rfl

/-! ## 一文のすること -/

namespace ReplenishCall

def Quiet (c : ReplenishCall) : Prop := c.asking = none ∧ c.marking = none

theorem quiet_next (r : ReplenishRun) : Quiet r.next := by
  unfold ReplenishRun.next
  split
  · exact ⟨rfl, rfl⟩
  split
  · exact ⟨rfl, rfl⟩
  · exact ⟨rfl, rfl⟩

variable (req : ReplenishRequest) (cfg : LoaderReplenishConfig)

theorem quiet_start : Quiet (start req cfg) := by
  unfold start
  repeat' split
  all_goals exact ⟨rfl, rfl⟩

theorem quiet_resolveTargets (want : Int) (outstanding : Nat) :
    Quiet (resolveTargets req cfg want outstanding) := by
  unfold resolveTargets
  split
  · exact ⟨rfl, rfl⟩
  split
  · exact ⟨rfl, rfl⟩
  · exact ⟨rfl, rfl⟩
  · exact quiet_next _

inductive Ran (orders : List CarrierOrder) (reply : ReplenishReply) :
    ReplenishCall → List CarrierOrder → ReplenishCall → Prop
  | read {c c'} (h : Quiet c') : Ran orders reply c orders c'
  | free {r t} (h : countLiveCarrierRequests orders t.nodeName = 0) :
      Ran orders reply (.countLive r t) orders (.checkRefs r t)
  | refs {r t} (h : reply.ok = true) :
      Ran orders reply (.checkRefs r t) orders (.create r (reply.resolved.getD t.nodeName))
  | create {r node} (h : reply.ok = true) :
      Ran orders reply (.create r node) (orders ++ [r.ask node]) (.markPending r orders.length)
  | mark {r id c'} (h : Quiet c') :
      Ran orders reply (.markPending r id) (setOrderStatus orders id .pending) c'
  | queue {r id c'} (h : Quiet c') (hp : ∀ o, orders[id]? = some o → o.status = .pending) :
      Ran orders reply (.queue r id) (setOrderStatus orders id .queued) c'

theorem exec_ran (orders : List CarrierOrder) (reply : ReplenishReply) (c : ReplenishCall) :
    Ran orders reply c (c.exec orders reply).1 (c.exec orders reply).2 := by
  cases c with simp only [exec]
  | outstanding req cfg want =>
    split
    · exact .read (quiet_resolveTargets _ _ _ _)
    split
    · exact .read (quiet_resolveTargets _ _ _ _)
    · exact .read ⟨rfl, rfl⟩
  | findWindow r t =>
    split
    · exact .read ⟨rfl, rfl⟩
    split
    · exact .read (quiet_next _)
    split
    · exact .read ⟨rfl, rfl⟩
    · exact .read ⟨rfl, rfl⟩
    · exact .read (quiet_next _)
    · exact .read ⟨rfl, rfl⟩
  | countBins r t =>
    split
    · exact .read (quiet_next _)
    split
    · exact .read (quiet_next _)
    · exact .read ⟨rfl, rfl⟩
  | countInFlight r t =>
    split
    · exact .read (quiet_next _)
    split
    · exact .read (quiet_next _)
    · exact .read ⟨rfl, rfl⟩
  | countLive r t =>
    split
    · exact .read (quiet_next _)
    split
    · exact .read (quiet_next _)
    · next hzero => exact .free (Nat.eq_zero_of_not_pos hzero)
  | checkRefs r t =>
    split
    · next hok => exact .refs hok
    · exact .read ⟨rfl, rfl⟩
  | create r node =>
    split
    · next hok => exact .create hok
    · exact .read ⟨rfl, rfl⟩
  | markPending r id =>
    split
    · exact .mark ⟨rfl, rfl⟩
    · exact .read ⟨rfl, rfl⟩
  | queue r id =>
    split
    · next h =>
      refine .queue (quiet_next _) fun o ho => ?_
      have hany := (Bool.and_eq_true_iff.mp h).2
      rw [ho] at hany
      exact of_decide_eq_true hany
    · exact .read (quiet_next _)
  | returned res failed => exact .read ⟨rfl, rfl⟩

end ReplenishCall

/-! ## 不変条件 -/

structure AskInv (w : ReplenishWorld) : Prop where
  one : ∀ node, w.loaderAsks node ≤ 1
  asking : ∀ c ∈ w.calls, ∀ node, c.asking = some node → w.loaderAsks node = 0
  marking : ∀ c ∈ w.calls, ∀ id, c.marking = some id →
    ∃ o, w.orders[id]? = some o ∧ o.status.isTerminal = false

/--
文を挟む条件。

* 窓を空きと読んでから頼むまでの間に、ほかの呼び出しはその窓へ頼まない
* 窓は物理の node で、届け先は選び直されない
-/
def AskAlone (w : ReplenishWorld) (i : Nat) (reply : ReplenishReply) : ReplenishCall → Prop
  | .checkRefs _ _ => reply.resolved = none
  | .create _ node => reply.ok = true → ∀ c ∈ w.calls.eraseIdx i, c.asking ≠ some node
  | _ => True

instance (w : ReplenishWorld) (i : Nat) (reply : ReplenishReply) :
    ∀ c, Decidable (AskAlone w i reply c)
  | .checkRefs _ _ => inferInstanceAs (Decidable (reply.resolved = none))
  | .create _ _ => inferInstanceAs (Decidable (_ → ∀ _ ∈ _, _))
  | .outstanding _ _ _ | .findWindow _ _ | .countBins _ _ | .countInFlight _ _ | .countLive _ _
  | .markPending _ _ | .queue _ _ | .returned _ _ => .isTrue trivial

/-- 動作の条件。頼んだ order は、頼んだ呼び出しが pending を書くまで終わらない。 -/
def ReplenishOk (w : ReplenishWorld) : ReplenishAction → Prop
  | .statement i reply => ∀ c ∈ w.calls[i]?, AskAlone w i reply c
  | .transition id dst => dst.isTerminal = true → ∀ c ∈ w.calls, c.marking ≠ some id
  | .call _ _ | .other _ => True

instance (w : ReplenishWorld) : ∀ a, Decidable (ReplenishOk w a)
  | .statement _ _ => inferInstanceAs (Decidable (∀ _ ∈ _, _))
  | .transition _ _ => inferInstanceAs (Decidable (_ → ∀ _ ∈ _, _))
  | .call _ _ | .other _ => .isTrue trivial

section

variable {w : ReplenishWorld}

theorem AskInv.keep (h : AskInv w) {w' : ReplenishWorld}
    (hle : ∀ node, w'.loaderAsks node ≤ w.loaderAsks node)
    (hcalls : ∀ c ∈ w'.calls, c ∈ w.calls ∨ c.Quiet)
    (hlive : ∀ c ∈ w'.calls, ∀ id, c.marking = some id → ∀ o, w.orders[id]? = some o →
      o.status.isTerminal = false → ∃ o', w'.orders[id]? = some o' ∧ o'.status.isTerminal = false) :
    AskInv w' where
  one node := Nat.le_trans (hle node) (h.one node)
  asking c hc node hn := by
    rcases hcalls c hc with hold | hquiet
    · have := hle node
      rw [h.asking c hold node hn] at this
      exact Nat.le_zero.mp this
    · cases hquiet.1.symm.trans hn
  marking c hc id hid := by
    rcases hcalls c hc with hold | hquiet
    · obtain ⟨o, ho, hlo⟩ := h.marking c hold id hid
      exact hlive c hc id hid o ho hlo
    · cases hquiet.2.symm.trans hid

variable {c' : ReplenishCall} {i : Nat} {node : String}

theorem AskInv.read (h : AskInv w) (hq : c'.Quiet) : AskInv ⟨w.orders, w.calls.set i c'⟩ := by
  refine h.keep (fun _ => Nat.le_refl _) (fun c hc => ?_) fun _ _ _ _ o ho hlo => ⟨o, ho, hlo⟩
  rcases mem_set_cases hc with rfl | hc
  · exact .inr hq
  · exact .inl (mem_of_mem_eraseIdx hc)

theorem AskInv.free (h : AskInv w) (hask : c'.asking = some node) (hmark : c'.marking = none)
    (hzero : w.loaderAsks node = 0) :
    AskInv ⟨w.orders, w.calls.set i c'⟩ where
  one := h.one
  asking c hc node' hn := by
    rcases mem_set_cases hc with rfl | hc
    · rw [hask] at hn
      cases hn
      exact hzero
    · exact h.asking c (mem_of_mem_eraseIdx hc) node' hn
  marking c hc id hid := by
    rcases mem_set_cases hc with rfl | hc
    · cases hmark.symm.trans hid
    · exact h.marking c (mem_of_mem_eraseIdx hc) id hid

theorem AskInv.setStatus (h : AskInv w) (hq : c'.Quiet) (hs : status.isTerminal = false)
    (hlive : ∀ o, w.orders[id]? = some o → o.status.isTerminal = false) :
    AskInv ⟨setOrderStatus w.orders id status, w.calls.set i c'⟩ := by
  refine h.keep (countP_setOrderStatus_le w.orders id status fun o ho _ => hlive o ho)
    (fun c hc => ?_) fun _ _ _ _ o ho hlo => live_setOrderStatus ho hlo fun _ => hs
  rcases mem_set_cases hc with rfl | hc
  · exact .inr hq
  · exact .inl (mem_of_mem_eraseIdx hc)

theorem loaderAsks_append (orders : List CarrierOrder) (calls calls' : List ReplenishCall)
    (o : CarrierOrder) (node : String) :
    ReplenishWorld.loaderAsks ⟨orders ++ [o], calls'⟩ node
      = ReplenishWorld.loaderAsks ⟨orders, calls⟩ node
        + if o.loaderAsksAt node = true then 1 else 0 := by
  simp [ReplenishWorld.loaderAsks, countP_append, countP_singleton]

theorem AskInv.create (h : AskInv w) {r : ReplenishRun} (hi : w.calls[i]? = some (.create r node))
    (halone : ∀ c ∈ w.calls.eraseIdx i, c.asking ≠ some node) :
    AskInv ⟨w.orders ++ [r.ask node], w.calls.set i (.markPending r w.orders.length)⟩ := by
  have hzero : w.loaderAsks node = 0 := h.asking _ (mem_of_getElem? hi) node rfl
  have hasks : ∀ node', node' ≠ node → (r.ask node).loaderAsksAt node' = false := by
    intro node' hne
    simp [loaderAsksAt, asksAt, ReplenishRun.ask, Ne.symm hne]
  constructor
  · intro node'
    rw [loaderAsks_append w.orders w.calls]
    by_cases hne : node' = node
    · subst hne
      rw [hzero]
      split
      · exact Nat.le_refl _
      · exact Nat.zero_le _
    · rw [hasks node' hne]
      exact h.one node'
  · intro c hc node' hn
    rcases mem_set_cases hc with rfl | hc
    · cases hn
    · have hne : node' ≠ node := fun he => halone c hc (he ▸ hn)
      rw [loaderAsks_append w.orders w.calls, hasks node' hne]
      exact h.asking c (mem_of_mem_eraseIdx hc) node' hn
  · intro c hc id hid
    rcases mem_set_cases hc with rfl | hc
    · cases hid
      exact ⟨r.ask node, List.getElem?_concat_length, rfl⟩
    · obtain ⟨o, ho, hlo⟩ := h.marking c (mem_of_mem_eraseIdx hc) id hid
      exact ⟨o, getElem?_append_left_of_lt ho, hlo⟩

theorem AskInv.statement (h : AskInv w) {reply : ReplenishReply} {c : ReplenishCall}
    (hi : w.calls[i]? = some c) (hok : AskAlone w i reply c) :
    AskInv ⟨(c.exec w.orders reply).1, w.calls.set i (c.exec w.orders reply).2⟩ := by
  have hran := c.exec_ran w.orders reply
  have hmem := mem_of_getElem? hi
  revert hran
  generalize (c.exec w.orders reply).1 = orders', (c.exec w.orders reply).2 = c'
  intro hran
  cases hran with
  | read hq => exact h.read hq
  | @free r t hzero =>
    have hle := loaderAsks_le_countLive w t.nodeName
    rw [hzero] at hle
    exact h.free rfl rfl (Nat.le_zero.mp hle)
  | @refs r t _ =>
    have hnode : reply.resolved.getD t.nodeName = t.nodeName := by
      rw [show reply.resolved = none from hok]
      rfl
    rw [hnode]
    exact h.free rfl rfl (h.asking _ hmem t.nodeName rfl)
  | create hreply => exact h.create hi (hok hreply)
  | @mark r id _ hq =>
    refine h.setStatus hq rfl fun o ho => ?_
    obtain ⟨o', ho', hlo⟩ := h.marking _ hmem id rfl
    cases ho'.symm.trans ho
    exact hlo
  | queue hq hp =>
    refine h.setStatus hq rfl fun o ho => ?_
    rw [hp o ho]
    rfl

theorem AskInv.transition (h : AskInv w) {dst : OrderStatus}
    (hok : dst.isTerminal = true → ∀ c ∈ w.calls, c.marking ≠ some id) :
    AskInv { w with orders := transitionOrder w.orders id dst } := by
  rcases transitionOrder_cases w.orders id dst with heq | ⟨heq, hlive⟩
  · rw [heq]
    exact h
  · rw [heq]
    refine h.keep (countP_setOrderStatus_le w.orders id dst fun o ho _ => hlive o ho)
      (fun c hc => .inl hc) fun c hc j hj o ho hlo => live_setOrderStatus ho hlo fun hji => ?_
    cases ht : dst.isTerminal with
    | false => rfl
    | true => exact absurd (hji ▸ hj) (hok ht c hc)

theorem replenishStep_inv (h : AskInv w) (a : ReplenishAction) (hok : ReplenishOk w a) :
    AskInv (replenishStep w a) := by
  cases a with
  | call req cfg =>
    refine h.keep (fun _ => Nat.le_refl _) (fun c hc => ?_) fun _ _ _ _ o ho hlo => ⟨o, ho, hlo⟩
    rcases mem_append_last.mp hc with hc | rfl
    · exact .inl hc
    · exact .inr (ReplenishCall.quiet_start req cfg)
  | statement i reply =>
    simp only [replenishStep]
    cases hi : w.calls[i]? with
    | none => exact h
    | some c => exact h.statement hi (hok c hi)
  | transition id dst => exact h.transition hok
  | other o =>
    unfold replenishStep
    dsimp only
    split
    · exact h
    rename_i hother
    have hasks : ∀ node, o.loaderAsksAt node = false := by
      simp [loaderAsksAt, hother]
    refine h.keep (fun node => ?_) (fun c hc => .inl hc) fun _ _ _ _ o' ho' hlo =>
      ⟨o', getElem?_append_left_of_lt ho', hlo⟩
    rw [loaderAsks_append w.orders w.calls, hasks node]
    exact Nat.le_refl _

end

/--
**どの窓の頼みも高々一つ。**

呼び出しの無い所から始め、どの順に文を混ぜても、通ったどの状態でも成り立つ。
-/
theorem one_ask_per_window (w : ReplenishWorld) (hidle : w.calls = [])
    (hone : ∀ node, w.loaderAsks node ≤ 1) (as : List ReplenishAction)
    (hok : AllSteps replenishStep ReplenishOk w as) :
    ∀ t ∈ visited replenishStep w as, ∀ node, t.loaderAsks node ≤ 1 := by
  have hstart : AskInv w := by
    refine ⟨hone, fun c hc => ?_, fun c hc => ?_⟩
    · rw [hidle] at hc
      cases hc
    · rw [hidle] at hc
      cases hc
  have hstep : ∀ s a, AskInv s → ReplenishOk s a → AskInv (replenishStep s a) :=
    fun _ a h ha => replenishStep_inv h a ha
  intro t ht
  exact (AllSteps.visited_of_inv hstep hstart hok t ht).one

/-! ## 二つの payload と一つの窓 -/

def twoPayloadLoader : LoaderReplenishConfig where
  layout := .sharedWindow
  homes := [⟨1, "", 0⟩, ⟨2, "", 1⟩]
  nodeNames := [(1, "W1"), (2, "W2")]
  payloads := ["A", "B"]
  inboundSource := "EMPTIES"

def lowPayload (payloadCode originID : String) : ReplenishRequest where
  loaderID := 7
  payloadCode := payloadCode
  threshold := 10
  currentUOP := 4
  perBinCapacity := 6
  originID := originID

def statementsOf (i n : Nat) : List ReplenishAction :=
  List.replicate n (.statement i {})

def oneByOne : List ReplenishAction :=
  [.call (lowPayload "A" "ep-a") twoPayloadLoader] ++ statementsOf 0 9
    ++ [.call (lowPayload "B" "ep-b") twoPayloadLoader] ++ statementsOf 1 13
    ++ [.transition 0 .cancelled, .call (lowPayload "A" "ep-a") twoPayloadLoader]
    ++ statementsOf 2 9

theorem one_ask_per_window_oneByOne :
    AllSteps replenishStep ReplenishOk ⟨[], []⟩ oneByOne
      ∧ (∀ t ∈ visited replenishStep ⟨[], []⟩ oneByOne, ∀ node, t.loaderAsks node ≤ 1)
      ∧ (runSteps replenishStep ⟨[], []⟩ oneByOne).orders.map (fun o => (o.deliveryNode, o.status))
        = [("W1", .cancelled), ("W2", .queued), ("W1", .queued)] :=
  ⟨by decide, one_ask_per_window ⟨[], []⟩ rfl (fun _ => Nat.zero_le _) oneByOne (by decide),
    by decide⟩

def bothReadFree : List ReplenishAction :=
  [.call (lowPayload "A" "ep-a") twoPayloadLoader, .call (lowPayload "B" "ep-b") twoPayloadLoader]
    ++ statementsOf 0 5 ++ statementsOf 1 5 ++ statementsOf 0 2 ++ statementsOf 1 2

def revived : List ReplenishAction :=
  [.call (lowPayload "A" "ep-a") twoPayloadLoader] ++ statementsOf 0 7
    ++ [.transition 0 .cancelled, .call (lowPayload "B" "ep-b") twoPayloadLoader]
    ++ statementsOf 1 7 ++ statementsOf 0 1

/-- 一つの窓に二つの頼みが生きる。 -/
theorem window_asked_twice :
    (runSteps replenishStep ⟨[], []⟩ bothReadFree).loaderAsks "W1" = 2
      ∧ (runSteps replenishStep ⟨[], []⟩ revived).loaderAsks "W1" = 2 := by
  decide

end Shingo.Dispatch
