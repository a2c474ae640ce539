import Shingo.Dispatch.OrderCancel
import Shingo.Properties.SwapHold

/-!
# 取り消したという返事は本当か

`HandleOrderCancel` は、取り消せたかを見ずに返事をする。終わった row は変わらず、row は消えないので、
親と子の書き込みがどれも通れば、返事の時も、その後も、親は cancelled、子は終わっている。
-/

namespace Shingo.Dispatch

open Infra SwapTable

variable {t t' : SwapTable} {id : Nat}

namespace SwapTable

def HasRow (t : SwapTable) (id : Nat) (P : ComplexOrder → Prop) : Prop :=
  ∃ o, t.getOrder id = some o ∧ P o

def Ended (t : SwapTable) (id : Nat) : Prop := t.HasRow id (·.status.isTerminal = true)

def Cancelled (t : SwapTable) (id : Nat) : Prop := t.HasRow id (·.status = .cancelled)

/-- row は消えず、親は変わらず、終わった status は変わらない。 -/
def Later (t t' : SwapTable) : Prop :=
  ∀ id o, t.getOrder id = some o → t'.HasRow id fun o' =>
    o'.parentOrderID = o.parentOrderID ∧ (o.status.isTerminal = true → o'.status = o.status)

theorem Later.ended (hlater : Later t t') (h : t.Ended id) : t'.Ended id := by
  obtain ⟨o, ho, hend⟩ := h
  obtain ⟨o', ho', -, hkeep⟩ := hlater id o ho
  exact ⟨o', ho', (congrArg _ (hkeep hend)).trans hend⟩

theorem Later.cancelled (hlater : Later t t') (h : t.Cancelled id) : t'.Cancelled id := by
  obtain ⟨o, ho, hst⟩ := h
  obtain ⟨o', ho', -, hkeep⟩ := hlater id o ho
  exact ⟨o', ho', (hkeep (by rw [hst]; rfl)).trans hst⟩

theorem Later.of_map {p : ComplexOrder → Bool} {dst : OrderStatus}
    (h : ∀ id, t'.getOrder id = (t.getOrder id).map fun o =>
      if p o then o.rewrite fun o => { o with status := dst } else o)
    (hp : ∀ o, p o = true → o.status.isTerminal = false) : Later t t' := by
  intro id o ho
  rw [HasRow, h, ho]
  refine ⟨_, rfl, ?_⟩
  dsimp only
  split
  · next hpo => exact ⟨rfl, fun hend => by simp [hp o hpo] at hend⟩
  · exact ⟨rfl, fun _ => rfl⟩

end SwapTable

/-! ## `CancelOrder` -/

variable {ord : ComplexOrder}

theorem valid_cancelled {s : OrderStatus} (h : s.isTerminal = false) :
    isValidTransition s .cancelled = true := by
  cases s <;> first | rfl | cases h

def landsOn (ok : Bool) (ord o : ComplexOrder) : Bool :=
  ok && !ord.status.isTerminal && decide (o.id = ord.id) && !o.status.isTerminal

theorem getOrder_transition_cancelled (t : SwapTable) (hord : ord.status.isTerminal = false) :
    (Working.transition ⟨t, ord⟩ .cancelled).table.getOrder id = (t.getOrder id).map fun o =>
      if landsOn true ord o then o.rewrite fun o => { o with status := .cancelled } else o := by
  have hcan : OrderStatus.cancelled.isTerminal = true := rfl
  simp only [Working.transition, valid_cancelled hord, hcan, Bool.not_true, Bool.false_eq_true,
    if_false, if_true]
  have hrow : ∀ o, t.getOrder id = some o → o.id = ord.id → t.getOrder ord.id = some o := by
    intro o ho hid
    rw [← hid, id_of_getOrder ho]
    exact ho
  split
  · next hlive =>
    refine (getOrder_update _ _ id).trans (Option.map_congr fun o ho => ?_)
    by_cases hid : o.id = ord.id
    · rw [hrow o ho hid, Option.any_some, Bool.not_eq_true'] at hlive
      simp [landsOn, hord, hid, hlive]
    · simp [landsOn, hid]
  · next hdead =>
    refine Option.map_id'.symm.trans (Option.map_congr fun o ho => ?_)
    by_cases hid : o.id = ord.id
    · rw [hrow o ho hid, Option.any_some, Bool.not_eq_true', Bool.not_eq_false] at hdead
      simp [landsOn, hdead]
    · simp [landsOn, hid]

/-- **`CancelOrder` は、写しも row も生きていて書けるときだけ、row を cancelled にする。** -/
theorem getOrder_tryCancelOrder (ok : Bool) (t : SwapTable) (ord : ComplexOrder) (id : Nat) :
    (tryCancelOrder ok t ord).getOrder id = (t.getOrder id).map fun o =>
      if landsOn ok ord o then o.rewrite fun o => { o with status := .cancelled } else o := by
  unfold tryCancelOrder cancelOrder
  cases ok with
  | false => simp [landsOn, getOrder]
  | true =>
    cases hord : ord.status.isTerminal with
    | true => simp [landsOn, hord]
    | false =>
      simp only [Bool.false_eq_true, if_false, if_true]
      split
      · exact getOrder_transition_cancelled _ hord
      · exact getOrder_transition_cancelled t hord

theorem later_tryCancelOrder (ok : Bool) (t : SwapTable) (ord : ComplexOrder) :
    Later t (tryCancelOrder ok t ord) := by
  refine .of_map (getOrder_tryCancelOrder ok t ord) fun o ho => ?_
  simpa using (Bool.and_eq_true_iff.mp ho).2

/-! ## 不変条件 -/

def CancelWorld.Inv (w : CancelWorld) : Prop :=
  match w.pc with
  | .load | .cancel _ => True
  | .list id => w.table.Cancelled id ∧
      ∀ c ∈ w.existing, w.table.HasRow c (·.parentOrderID = some id)
  -- 一覧の写しで終わっている子は、row も終わっている
  | .children id rest => w.table.Cancelled id ∧
      (∀ child ∈ rest, w.table.HasRow child.id fun o =>
        child.status.isTerminal = true → o.status.isTerminal = true) ∧
      ∀ c ∈ w.existing, w.table.Ended c ∨ c ∈ rest.map (·.id)
  | .returned reply => ∀ id, reply = some (.cancelled id) →
      w.table.Cancelled id ∧ ∀ c ∈ w.existing, w.table.Ended c

variable {w : CancelWorld}

theorem CancelWorld.Inv.later (h : w.Inv) (hlater : Later w.table t') :
    { w with table := t' }.Inv := by
  obtain ⟨t, pc, existing⟩ := w
  cases pc with
  | load | cancel _ => trivial
  | list id =>
    obtain ⟨hcan, hex⟩ := h
    refine ⟨hlater.cancelled hcan, fun c hc => ?_⟩
    obtain ⟨o, ho, hparent⟩ := hex c hc
    obtain ⟨o', ho', hsame, -⟩ := hlater c o ho
    exact ⟨o', ho', hsame.trans hparent⟩
  | children id rest =>
    obtain ⟨hcan, hsnap, hex⟩ := h
    refine ⟨hlater.cancelled hcan, fun child hchild => ?_,
      fun c hc => (hex c hc).imp_left hlater.ended⟩
    obtain ⟨o, ho, hend⟩ := hsnap child hchild
    obtain ⟨o', ho', -, hkeep⟩ := hlater child.id o ho
    exact ⟨o', ho', fun hc => by rw [hkeep (hend hc)]; exact hend hc⟩
  | returned _ =>
    intro id hreply
    obtain ⟨hcan, hex⟩ := h id hreply
    exact ⟨hlater.cancelled hcan, fun c hc => hlater.ended (hex c hc)⟩

/-- 親の書き込みは生きている row に当たり、一覧と子の書き込みは失敗しない。 -/
def CancelAction.lands (w : CancelWorld) : CancelAction → Bool
  | .handle ok =>
    match w.pc with
    | .cancel order => (w.table.getOrder order.id).any (landsOn ok order)
    | .list _ | .children _ (_ :: _) => ok
    | _ => true
  | _ => true

theorem CancelWorld.Inv.handle {ok : Bool} (req : CancelRequest) (h : w.Inv)
    (hok : (CancelAction.handle ok).lands w = true) : (w.handleOrderCancel req ok).Inv := by
  obtain ⟨t, pc, existing⟩ := w
  cases pc with
  | load =>
    unfold handleOrderCancel
    dsimp only
    split
    · simp [Inv]
    · split <;> simp [Inv]
  | cancel order =>
    obtain ⟨o, ho, hland⟩ := (Option.any_eq_true _ _).mp hok
    refine ⟨⟨_, (getOrder_tryCancelOrder ok t order order.id).trans (by rw [ho]; rfl), ?_⟩,
      fun c hc => ?_⟩
    · dsimp only
      rw [if_pos hland]
      rfl
    · obtain ⟨child, hchild, rfl⟩ := List.mem_map.mp hc
      obtain ⟨hmem, hparent⟩ := List.mem_filter.mp hchild
      obtain ⟨o', ho', hsame, -⟩ := later_tryCancelOrder ok t order _ child
        (SwapTable.getOrder_of_mem hmem)
      exact ⟨o', ho', hsame.trans (of_decide_eq_true hparent)⟩
  | list id =>
    obtain ⟨hcan, hex⟩ := h
    obtain rfl : ok = true := hok
    refine ⟨hcan, fun child hchild => ?_, fun c hc => .inr ?_⟩
    · exact ⟨child, SwapTable.getOrder_of_mem (List.mem_of_mem_filter hchild), fun hend => hend⟩
    · obtain ⟨o, ho, hparent⟩ := hex c hc
      have hmem := List.mem_of_find?_eq_some ho
      exact List.mem_map.mpr ⟨o, List.mem_filter.mpr ⟨hmem, decide_eq_true hparent⟩,
        id_of_getOrder ho⟩
  | children id rest =>
    cases rest with
    | nil =>
      obtain ⟨hcan, -, hex⟩ := h
      rintro id' ⟨⟩
      exact ⟨hcan, fun c hc => (hex c hc).resolve_right List.not_mem_nil⟩
    | cons child rest =>
      obtain rfl : ok = true := hok
      obtain ⟨o, ho, hend⟩ := h.2.1 child List.mem_cons_self
      obtain ⟨hcan, hsnap, hex⟩ := h.later (later_tryCancelOrder true t child)
      refine ⟨hcan, fun c hc => hsnap c (List.mem_cons_of_mem _ hc), fun c hc => ?_⟩
      rcases hex c hc with hc | hc
      · exact .inl hc
      · rcases List.mem_cons.mp hc with rfl | hc
        · -- いまの子は、写しか row が終わっていたか、いま取り消されたか
          refine .inl ⟨_, (getOrder_tryCancelOrder true t child child.id).trans (by rw [ho]; rfl),
            ?_⟩
          dsimp only
          split
          · rfl
          rename_i hland
          cases hrow : o.status.isTerminal with
          | true => rfl
          | false =>
            have hlive : child.status.isTerminal = false :=
              Bool.eq_false_iff.mpr fun hc => by simp [hend hc] at hrow
            simp [landsOn, hlive, hrow, id_of_getOrder ho] at hland
        · exact .inr hc
  | returned _ => exact h

theorem CancelWorld.Inv.step (req : CancelRequest) (a : CancelAction) (h : w.Inv)
    (hok : a.lands w = true) : (cancelStep req w a).Inv := by
  cases a with
  | handle ok => exact h.handle req hok
  | move orderID dst =>
    refine h.later (.of_map (getOrder_update _ _) fun o hp => ?_)
    exact isTerminal_of_validTransition (Bool.and_eq_true_iff.mp hp).2
  | insert order =>
    rw [cancelStep]
    split
    · next hnew =>
      refine h.later fun id o ho => ⟨o, ?_, rfl, fun _ => rfl⟩
      have hne : order.id ≠ id := by
        have := hnew o (List.mem_of_find?_eq_some ho)
        rw [id_of_getOrder ho] at this
        omega
      rw [getOrder, List.find?_cons_of_neg (by simpa using hne)]
      exact ho
    · exact h

/-- **書き込みの通った取り消しの返事は、いつまでも本当である。** -/
theorem cancelled_reply_truthful (req : CancelRequest) (t : SwapTable) (as : List CancelAction)
    (hok : AllSteps (cancelStep req) (fun w a => a.lands w = true) { table := t } as) :
    ∀ w ∈ visited (cancelStep req) { table := t } as, ∀ id,
      w.pc = .returned (some (.cancelled id)) →
        w.table.Cancelled id ∧ ∀ c ∈ w.existing, w.table.Ended c := by
  intro w hw id hpc
  have hinv : w.Inv :=
    AllSteps.visited_of_inv (fun w a h hok => h.step req a hok) trivial hok w hw
  rw [CancelWorld.Inv, hpc] at hinv
  exact hinv id rfl

def compoundOrder (status : OrderStatus) : SwapTable where
  orders := [
    { id := 2, status := .dispatched, edgeUUID := "c", parentOrderID := some 1,
      vendorOrderID := "V2" },
    { id := 1, status, edgeUUID := "p", stationID := "S" }]
  newestFirst := List.pairwise_pair.mpr Nat.one_lt_two

def operatorCancel : CancelRequest where
  station := "S"
  orderUUID := "p"

def childMoves : List CancelAction :=
  [.handle true, .handle true, .move 2 .inTransit, .handle true, .handle true, .handle true]

theorem cancelled_reply_truthful_childMoves :
    (runSteps (cancelStep operatorCancel) { table := compoundOrder .reshuffling }
        childMoves).pc = .returned (some (.cancelled 1)) ∧
      ∀ w ∈ visited (cancelStep operatorCancel) { table := compoundOrder .reshuffling } childMoves,
        ∀ id, w.pc = .returned (some (.cancelled id)) →
          w.table.Cancelled id ∧ ∀ c ∈ w.existing, w.table.Ended c :=
  ⟨by decide, cancelled_reply_truthful _ _ _ (by decide)⟩

def cancelRun (status : OrderStatus) (listed : Bool) : CancelWorld :=
  runSteps (cancelStep operatorCancel) { table := compoundOrder status }
    [.handle true, .handle true, .handle listed, .handle true, .handle true]

/-- 終わっていた order も、子の一覧を読めなかった order も、取り消したと返事する。 -/
theorem cancelled_reply_untrue :
    ((cancelRun .confirmed true).pc = .returned (some (.cancelled 1)) ∧
      ((cancelRun .confirmed true).table.getOrder 1).map (·.status) = some .confirmed) ∧
    (cancelRun .reshuffling false).pc = .returned (some (.cancelled 1)) ∧
      ((cancelRun .reshuffling false).table.getOrder 2).map (·.status) = some .dispatched := by
  decide

end Shingo.Dispatch
