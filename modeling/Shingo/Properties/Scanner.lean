import Shingo.Dispatch.Scanner

/-!
# fleet に断られた order の行方

fleet が create を断ると、走査は order の claim と予約を全部返し、`sourcing` に戻して
次の走査を待つ。返すものに `bin_id` は入っていない。次の走査は `bin_id` を見て
「bin を持っている」道に入り、その道は予約を取り直さない。claim は pending の予約の下で
しか通らないので、order は二度と fleet に届かない。
-/

namespace Shingo.Dispatch

open Core List Scanner

variable {o : OrderRow} {status : OrderStatus} {w' : ScanWorld}

namespace ScanWorld

/-! ## order の行を読み返す -/

theorem find?_editById {f : OrderRow → OrderRow} (hf : ∀ o, (f o).id = o.id) (id : Nat)
    (l : List OrderRow) :
    (l.map fun o => if o.id = id then f o else o).find? (·.id == id)
      = (l.find? (·.id == id)).map f := by
  rw [List.find?_map]
  have hp : ((·.id == id) ∘ fun o : OrderRow => if o.id = id then f o else o)
      = (·.id == id) := by
    funext o
    simp only [Function.comp_apply]
    split
    · rw [hf o]
    · rfl
  rw [hp]
  cases h : l.find? (·.id == id) with
  | none => rfl
  | some o =>
    have hid : o.id = id := by simpa using List.find?_some h
    simp [hid]

variable (w : ScanWorld)

theorem row_editRow (id : Nat) (f : OrderRow → OrderRow)
    (hf : ∀ o, (f o).id = o.id) (hp : ∀ o, (f o).parentOrderID = o.parentOrderID) :
    (w.editRow id f hf hp).row id = (w.row id).map f :=
  find?_editById hf id w.ledger.orders

theorem row_setStatus (id : Nat) (status : OrderStatus) :
    (w.setStatus id status).row id = (w.row id).map fun o => { o with status } :=
  w.row_editRow id _ _ _

theorem row_setBinID (id binID : Nat) :
    (w.setBinID id binID).row id = (w.row id).map fun o => { o with binID := some binID } :=
  w.row_editRow id _ _ _

@[simp] theorem row_editColumns (id i : Nat) (f : PlainColumns → PlainColumns) :
    (w.editColumns i f).row id = w.row id := rfl

theorem transition_eq_some {w : ScanWorld} {id : Nat} {dst : OrderStatus} (ho : w.row id = some o)
    (h : dst ∈ validTransitions o.status) : w.transition id dst = some (w.setStatus id dst) := by
  unfold transition
  rw [ho]
  exact if_pos (contains_iff_mem.mpr h)

theorem transition_cases (id : Nat) (dst : OrderStatus) :
    (w.transition id dst).getD w = w ∨ (w.transition id dst).getD w = w.setStatus id dst := by
  unfold transition
  cases w.row id with
  | none => exact .inl rfl
  | some o =>
    dsimp only
    split
    · exact .inr rfl
    · exact .inl rfl

theorem moveToSourcing_cases (id : Nat) :
    w.moveToSourcing id = w ∨ w.moveToSourcing id = w.setStatus id .sourcing := by
  unfold moveToSourcing
  split
  · exact .inl rfl
  · exact w.transition_cases id .sourcing

theorem row_moveToSourcing {w : ScanWorld} {id : Nat} (ho : w.row id = some o)
    (h : o.status = .sourcing ∨ .sourcing ∈ validTransitions o.status) :
    (w.moveToSourcing id).row id = some { o with status := .sourcing } := by
  unfold moveToSourcing
  by_cases hs : o.status = .sourcing
  · rw [if_pos (by simp [ho, hs]), ho, ← hs]
  · rw [if_neg (by simp [ho, hs]), transition_eq_some ho (h.resolve_left hs), Option.getD_some,
      row_setStatus, ho]
    rfl

end ScanWorld

open ScanWorld Scanner

/-! ## 予約だけを動かす書き込み -/

structure KeepsRow (id : Nat) (w w' : ScanWorld) : Prop where
  row : w'.row id = w.row id
  holds : ∀ r ∈ w'.ledger.plant.reservations, r.orderID = id → r.target.binID?.isSome = true →
    r ∈ w.ledger.plant.reservations

namespace KeepsRow

variable {id : Nat} {w w'' : ScanWorld}

theorem rfl : KeepsRow id w w := ⟨Eq.refl _, fun _ h _ _ => h⟩

theorem trans (h : KeepsRow id w w') (h' : KeepsRow id w' w'') : KeepsRow id w w'' :=
  ⟨h'.row.trans h.row, fun r hr ho hb => h.holds r (h'.holds r hr ho hb) ho hb⟩

theorem editColumns (f : PlainColumns → PlainColumns) : KeepsRow id w (w.editColumns id f) :=
  ⟨Eq.refl _, fun _ h _ _ => h⟩

theorem setMouth (mouth : MouthTable) : KeepsRow id w { w with mouth } :=
  ⟨Eq.refl _, fun _ h _ _ => h⟩

theorem resolveSyntheticDropoff {s : Scanner} (h : s.resolveSyntheticDropoff w id = .ok w') :
    KeepsRow id w w' := by
  unfold Scanner.resolveSyntheticDropoff at h
  split at h
  · split at h
    · cases h; exact rfl
    split at h
    · cases h
    · cases h; exact editColumns _
  · cases h; exact rfl

theorem releaseSlotReservation (nodeID : Nat) :
    KeepsRow id w (Scanner.releaseSlotReservation w nodeID id) :=
  ⟨Eq.refl _, fun _ h _ _ => (mem_filter.mp h).1⟩

theorem redirectStoreOffDugLane (s : Scanner) : KeepsRow id w (s.redirectStoreOffDugLane w id) := by
  unfold Scanner.redirectStoreOffDugLane
  dsimp only
  split
  · exact rfl
  split
  · split
    · exact rfl
    split
    · split
      · exact rfl
      split
      · exact rfl
      · exact (releaseSlotReservation _).trans (editColumns _)
    · exact rfl
  · exact rfl

theorem claimStoreSlotFor {node : NodeRow} (h : claimStoreSlotFor w id node = .ok w') :
    KeepsRow id w w' := by
  unfold Scanner.claimStoreSlotFor at h
  split at h
  · cases h
  rename_i plant hp
  split at h
  · cases h
    refine ⟨Eq.refl _, fun r hr _ hb => ?_⟩
    rcases claimStoreSlot_rows hp with ⟨hrows, -⟩ | hrows <;> rw [hrows] at hr
    · exact hr
    · rcases mem_append.mp hr with hr | hr
      · exact hr
      · rw [mem_singleton.mp hr] at hb
        cases hb
  · cases h

theorem secureDropoff {s : Scanner} (h : s.secureDropoff w id = .ok w') : KeepsRow id w w' := by
  unfold Scanner.secureDropoff at h
  dsimp only at h
  split at h
  · cases h; exact rfl
  split at h
  · cases h
  · exact claimStoreSlotFor h

theorem reserveStorageDropoff (s : Scanner) (w : ScanWorld) (id : Nat) :
    KeepsRow id w (s.reserveStorageDropoff w id).1 := by
  unfold Scanner.reserveStorageDropoff
  split
  · exact rfl
  rename_i w₁ h₁
  have hw : KeepsRow id w (s.redirectStoreOffDugLane w₁ id) :=
    (resolveSyntheticDropoff h₁).trans (redirectStoreOffDugLane s)
  dsimp only
  split
  · exact hw
  rename_i w₂ h₂
  split
  · exact hw.trans (secureDropoff h₂)
  · exact hw.trans (secureDropoff h₂)

theorem confirmSlotReservation (nodeID : Nat) :
    KeepsRow id w (confirmSlotReservation w nodeID id) := by
  refine ⟨Eq.refl _, fun r hr _ hb => ?_⟩
  obtain ⟨r', hr', rfl⟩ := mem_map.mp hr
  unfold confirmSlotRow at hb ⊢
  split
  · rename_i hslot
    rw [if_pos hslot] at hb
    cases hb
  · exact hr'

theorem confirmDropoffSlot {nodeID : Nat} (h : Scanner.confirmDropoffSlot w id nodeID = .ok w') :
    KeepsRow id w w' := by
  unfold Scanner.confirmDropoffSlot at h
  split at h
  · cases h; exact confirmSlotReservation nodeID
  split at h
  · cases h
    exact (confirmSlotReservation nodeID).trans ⟨Eq.refl _, fun _ h _ _ => h⟩
  · cases h

theorem confirmForDispatch (s : Scanner) (w : ScanWorld) (id binID : Nat) (dest : NodeRow) :
    KeepsRow id w (s.confirmForDispatch w id binID dest).1
      ∧ ((∃ e, (s.confirmForDispatch w id binID dest).2 = .error e)
        ∨ (s.confirmForDispatch w id binID dest).2
            = confirmClaim (s.confirmForDispatch w id binID dest).1 id binID) := by
  unfold Scanner.confirmForDispatch
  split
  · split
    · rename_i e _
      exact ⟨rfl, .inl ⟨e, Eq.refl _⟩⟩
    · rename_i w₁ h₁
      exact ⟨confirmDropoffSlot h₁, .inr (Eq.refl _)⟩
  · exact ⟨rfl, .inr (Eq.refl _)⟩

end KeepsRow

/-! ## 止まる道の書き込み -/

structure KeepsCargo (id : Nat) (w w' : ScanWorld) : Prop where
  bin : (w'.row id).map OrderRow.binID = (w.row id).map OrderRow.binID
  sent : w'.isDispatched id = true → w.isDispatched id = true
  holds : ∀ r ∈ w'.ledger.plant.reservations, r.orderID = id → r.target.binID?.isSome = true →
    r ∈ w.ledger.plant.reservations

variable {id binID : Nat} {w : ScanWorld}

theorem KeepsRow.cargo (h : KeepsRow id w w') :
    KeepsCargo id w w' where
  bin := by rw [h.row]
  sent := by
    unfold isDispatched
    rw [h.row]
    exact fun hs => hs
  holds := h.holds

namespace KeepsCargo

variable {id : Nat} {w w'' : ScanWorld}

theorem trans (h : KeepsCargo id w w') (h' : KeepsCargo id w' w'') : KeepsCargo id w w'' :=
  ⟨h'.bin.trans h.bin, fun hs => h.sent (h'.sent hs),
    fun r hr ho hb => h.holds r (h'.holds r hr ho hb) ho hb⟩

theorem setStatus (hs : status ≠ .dispatched) :
    KeepsCargo id w (w.setStatus id status) where
  bin := by
    rw [row_setStatus, Option.map_map]
    rfl
  sent := by
    unfold isDispatched
    rw [row_setStatus]
    cases w.row id with
    | none => exact fun h => h
    | some o => exact fun h => absurd (eq_of_beq h) hs
  holds := fun _ h _ _ => h

theorem transition (hs : status ≠ .dispatched) :
    KeepsCargo id w ((w.transition id status).getD w) := by
  rcases w.transition_cases id status with h | h <;> rw [h]
  · exact KeepsRow.rfl.cargo
  · exact setStatus hs

theorem moveToSourcing : KeepsCargo id w (w.moveToSourcing id) := by
  rcases w.moveToSourcing_cases id with h | h <;> rw [h]
  · exact KeepsRow.rfl.cargo
  · exact setStatus (by decide)

variable (code : QueueCode) (cause : ScanCause)

theorem setQueueReason : KeepsCargo id w (w.setQueueReason id code cause) :=
  (KeepsRow.editColumns _).cargo

theorem park : KeepsCargo id w (w.park id code cause) :=
  (setQueueReason code cause).trans moveToSourcing

theorem failOrder : KeepsCargo id w (failOrder w id) := by
  have hrow : (Scanner.failOrder w id).row id
      = (w.row id).map fun o =>
          if o.status.isTerminal = false then { o with status := .failed } else o := by
    refine Eq.trans ?_ (find?_editById (fun o => by split <;> rfl) id w.ledger.orders)
    refine congrArg (List.find? _) (map_congr_left fun o _ => ?_)
    unfold Ledger.terminalize
    split <;> split <;> simp_all
  refine ⟨?_, ?_, fun r hr _ _ => (mem_filter.mp hr).1⟩
  · rw [hrow]
    cases w.row id with
    | none => rfl
    | some o =>
      dsimp only [Option.map_some]
      split <;> rfl
  · unfold isDispatched
    rw [hrow]
    cases w.row id with
    | none => exact fun h => h
    | some o =>
      dsimp only [Option.map_some, Option.any_some]
      split
      · exact fun h => absurd (eq_of_beq h) (show OrderStatus.failed ≠ .dispatched by decide)
      · exact fun h => h

theorem planReshuffle (s : Scanner) : KeepsCargo id w (s.planReshuffle w id) := by
  unfold Scanner.planReshuffle
  split
  · exact transition (by decide)
  · exact setQueueReason _ _
  · exact failOrder

theorem digForBuriedHeldBin (s : Scanner) : KeepsCargo id w (s.digForBuriedHeldBin w id) := by
  unfold Scanner.digForBuriedHeldBin
  split
  · exact planReshuffle s
  · exact setQueueReason _ _

end KeepsCargo

/-! ## `bin_id` だけが残った order -/

structure Wedged (id : Nat) (w : ScanWorld) : Prop where
  bin : ∃ b, (w.row id).map OrderRow.binID = some (some b)
  unsent : w.isDispatched id = false
  bare : ∀ r ∈ w.ledger.plant.reservations, r.orderID = id → r.target.binID?.isSome = false

namespace Wedged

variable {id : Nat} {w : ScanWorld}

theorem keeps (h : Wedged id w) (hk : KeepsCargo id w w') : Wedged id w' where
  bin := by
    obtain ⟨b, hb⟩ := h.bin
    exact ⟨b, hk.bin.trans hb⟩
  unsent := by
    by_contra hs
    rw [Bool.not_eq_false] at hs
    exact absurd (hk.sent hs) (by rw [h.unsent]; exact Bool.false_ne_true)
  bare := by
    intro r hr ho
    by_contra hb
    rw [Bool.not_eq_false] at hb
    exact absurd hb (by rw [h.bare r (hk.holds r hr ho hb) ho]; exact Bool.false_ne_true)

/-- **claim は pending の予約の下でしか通らない。** -/
theorem confirmClaim_error (h : Wedged id w) (binID : Nat) :
    ∃ e, confirmClaim w id binID = .error e := by
  have hnone : w.ledger.plant.bins.any (w.ledger.claimable binID id) = false := by
    rw [any_eq_false]
    intro b _ hc
    simp only [Ledger.claimable, Bool.and_eq_true] at hc
    have hbare := h.bare _ (contains_iff_mem.mp hc.2) rfl
    cases hbare
  unfold confirmClaim Ledger.claimAndConfirm
  rw [if_neg (by rw [hnone]; exact Bool.false_ne_true)]
  exact ⟨_, rfl⟩

section

variable (h : Wedged id w) (s : Scanner)
include h s

theorem admitAndConfirm (binID : Nat) (source dest : NodeRow) (kind : EntryKind) :
    ∃ w', s.admitAndConfirm w id binID source dest kind = .parked w' ∧ Wedged id w' := by
  unfold Scanner.admitAndConfirm
  dsimp only
  have hm := h.keeps (KeepsRow.setMouth (s.acquireLanes w id source dest kind).2).cargo
  split
  · exact ⟨_, rfl, hm.keeps (KeepsCargo.park _ _)⟩
  · split
    · exact ⟨_, rfl, (hm.keeps (KeepsCargo.park _ _)).keeps (KeepsCargo.digForBuriedHeldBin s)⟩
    · exact ⟨_, rfl, hm.keeps (KeepsCargo.park _ _)⟩
  · -- slot の claim は通っても、bin の claim は通らない
    obtain ⟨hk, hres⟩ := KeepsRow.confirmForDispatch s
      { w with mouth := (s.acquireLanes w id source dest kind).2 } id binID dest
    have hc := hm.keeps hk.cargo
    obtain ⟨e, he⟩ : ∃ e, (s.confirmForDispatch
        { w with mouth := (s.acquireLanes w id source dest kind).2 } id binID dest).2
          = .error e := by
      rcases hres with he | he
      · exact he
      · rw [he]
        exact hc.confirmClaim_error binID
    rw [← Prod.eta (s.confirmForDispatch _ id binID dest), he]
    exact ⟨_, rfl, hc.keeps (KeepsCargo.park _ _)⟩

theorem dispatchHeldBin (binID : Nat) :
    ∃ w', s.dispatchHeldBin w id binID = .parked w' ∧ Wedged id w' := by
  unfold Scanner.dispatchHeldBin
  dsimp only
  split
  · exact ⟨_, rfl, h.keeps (KeepsCargo.setQueueReason _ _)⟩
  split
  · exact ⟨_, rfl, h.keeps (KeepsCargo.setQueueReason _ _)⟩
  have hr := h.keeps (KeepsRow.reserveStorageDropoff s w id).cargo
  split
  · rename_i heq
    rw [heq] at hr
    exact ⟨_, rfl, hr.keeps (KeepsCargo.setQueueReason _ _)⟩
  · rename_i heq
    rw [heq] at hr
    exact (hr.keeps KeepsCargo.moveToSourcing).admitAndConfirm s binID _ _ _

theorem prepare : ∃ w', s.prepare w id = .parked w' ∧ Wedged id w' := by
  obtain ⟨b, hb⟩ := h.bin
  unfold Scanner.prepare
  cases ho : w.row id with
  | none => exact ⟨_, rfl, h⟩
  | some o =>
    rw [ho] at hb
    have hbin : o.binID = some b := Option.some.inj hb
    dsimp only
    split
    · exact ⟨_, rfl, h⟩
    split
    · exact ⟨_, rfl, h.keeps (KeepsCargo.setQueueReason _ _)⟩
    · rw [hbin]
      exact h.dispatchHeldBin s b

/-- **走査を一回しても、そのまま。** -/
theorem scanPass (n : Nat) : Wedged id (s.scanPass id (w, n)).1 := by
  obtain ⟨w', hp, hw'⟩ := h.prepare s
  unfold Scanner.scanPass
  dsimp only
  rw [hp]
  exact hw'

end

theorem iterate (s : Scanner) : ∀ (k : Nat) {x : ScanWorld × Nat}, Wedged id x.1 →
    Wedged id ((s.scanPass id)^[k] x).1 := by
  intro k
  induction k with
  | zero => exact fun h => h
  | succ k ih =>
    intro x h
    exact ih (h.scanPass s x.2)

end Wedged

/-! ## fleet に届く道 -/

variable {w : ScanWorld}

theorem confirmClaim_row (h : confirmClaim w id binID = .ok w') : w'.row id = w.row id := by
  unfold confirmClaim Ledger.claimAndConfirm at h
  split at h
  · cases h
  rename_i heq
  cases h
  split at heq
  · cases heq
    rfl
  · cases heq

variable {s : Scanner}

theorem admitAndConfirm_row {source dest source' dest' : NodeRow} {kind : EntryKind}
    (h : s.admitAndConfirm w id binID source dest kind = .ready w' source' dest') :
    w'.row id = w.row id := by
  unfold admitAndConfirm at h
  dsimp only at h
  split at h
  · cases h
  · split at h <;> cases h
  obtain ⟨hk, hres⟩ := KeepsRow.confirmForDispatch s
    { w with mouth := (s.acquireLanes w id source dest kind).2 } id binID dest
  split at h
  · cases h
  rename_i heq
  cases h
  rw [heq] at hk hres
  rcases hres with ⟨e, he⟩ | he
  · cases he
  · exact (confirmClaim_row he.symm).trans hk.row

def HoldsBin (id : Nat) (w : ScanWorld) : Prop :=
  ∃ o, w.row id = some o ∧ o.status = .sourcing ∧ o.binID.isSome = true

theorem sourcing_of_isAcquiring (h : isAcquiring status = true) :
    status = .sourcing ∨ .sourcing ∈ validTransitions status := by
  rcases Bool.or_eq_true_iff.mp h with h | h
  · rw [eq_of_beq h]
    exact .inr (by decide)
  · exact .inl (eq_of_beq h)

variable {source dest : NodeRow}

theorem dispatchHeldBin_ready (ho : w.row id = some o) (hacq : isAcquiring o.status = true)
    (hbin : o.binID = some binID) (h : s.dispatchHeldBin w id binID = .ready w' source dest) :
    HoldsBin id w' := by
  unfold dispatchHeldBin at h
  dsimp only at h
  split at h
  · cases h
  split at h
  · cases h
  split at h
  · cases h
  rename_i w₁ dest₁ heq
  have hw₁ : w₁.row id = some o := by
    have := (KeepsRow.reserveStorageDropoff s w id).row
    rw [heq] at this
    exact this.trans ho
  refine ⟨{ o with status := .sourcing }, ?_, rfl, by rw [hbin]; rfl⟩
  rw [admitAndConfirm_row h]
  exact row_moveToSourcing hw₁ (sourcing_of_isAcquiring hacq)

variable {id : Nat}

theorem fulfillFresh_ready (ho : w.row id = some o) (hacq : isAcquiring o.status = true)
    (h : s.fulfillFresh w id = .ready w' source dest) : HoldsBin id w' := by
  unfold fulfillFresh at h
  split at h
  · cases h
  split at h
  · cases h
  · cases h
  · cases h
  · rename_i binID source₁ _
    dsimp only at h
    split at h
    · cases h
    split at h
    · cases h
    rename_i w₁ dest₁ heq
    split at h
    · cases h
    rename_i ledger hl
    -- 予約は `bin_id` より先に書かれ、どちらも status を変えない
    have hw₁ : w₁.row id = some { o with status := .sourcing } := by
      have := (KeepsRow.reserveStorageDropoff s (w.moveToSourcing id) id).row
      rw [heq] at this
      exact this.trans (row_moveToSourcing ho (sourcing_of_isAcquiring hacq))
    have hledger : ledger.orders = w₁.ledger.orders := (Ledger.reserveForDispatch_ok hl).1
    refine ⟨{ o with status := .sourcing, binID := some binID }, ?_, rfl, rfl⟩
    rw [admitAndConfirm_row h, row_editColumns, row_setBinID]
    have : ScanWorld.row { w₁ with ledger } id = w₁.row id :=
      congrArg (List.find? _) hledger
    rw [this, hw₁]
    rfl

theorem prepare_ready (h : s.prepare w id = .ready w' source dest) :
    w.isDispatched id = false ∧ HoldsBin id w' := by
  unfold prepare at h
  split at h
  · cases h
  rename_i o ho
  split at h
  · cases h
  rename_i hacq
  simp only [Bool.or_eq_true, Bool.not_eq_true', not_or, Bool.not_eq_false] at hacq
  refine ⟨?_, ?_⟩
  · unfold isDispatched
    cases hs : o.status <;> simp_all [isAcquiring]
  · split at h
    · cases h
    split at h
    · rename_i binID hbin
      exact dispatchHeldBin_ready ho hacq.1 hbin h
    · exact fulfillFresh_ready ho hacq.1 h

theorem payloadForDispatch_row (w : ScanWorld) (id : Nat) :
    (payloadForDispatch w id).row id = w.row id := by
  unfold payloadForDispatch
  split
  · rfl
  split
  · rfl
  · split <;> rfl

section

variable (hw : HoldsBin id w) (hc : s.commitError (payloadForDispatch w id) id source dest = none)
include hw hc

theorem dispatchDirect_eq (accepts : Bool) : s.dispatchDirect w id source dest accepts =
      if accepts then
        (((payloadForDispatch w id).setStatus id .dispatched).editColumns id fun c =>
          { c with vendorOrderID := s.mintVendorOrderID (payloadForDispatch w id) id }, none)
      else
        (((payloadForDispatch w id).setStatus id .dispatched).moveToSourcing id,
          some .fleetRefused) := by
  obtain ⟨o, ho, hs, -⟩ := hw
  have ht : (payloadForDispatch w id).transition id .dispatched = some _ :=
    transition_eq_some ((payloadForDispatch_row w id).trans ho) (by rw [hs]; decide)
  unfold dispatchDirect
  dsimp only
  rw [hc]
  rw [ht]

theorem dispatchDirect_accepted :
    ∃ w', s.dispatchDirect w id source dest true = (w', none) ∧ w'.isDispatched id = true := by
  refine ⟨_, dispatchDirect_eq hw hc true, ?_⟩
  obtain ⟨o, ho, -, -⟩ := hw
  unfold isDispatched
  rw [row_editColumns, row_setStatus, payloadForDispatch_row, ho]
  rfl

theorem dispatchDirect_refused :
    ∃ w', s.dispatchDirect w id source dest false = (w', some .fleetRefused)
      ∧ HoldsBin id w' := by
  refine ⟨_, dispatchDirect_eq hw hc false, ?_⟩
  obtain ⟨o, ho, -, hb⟩ := hw
  have hrow : ((payloadForDispatch w id).setStatus id .dispatched).row id
      = some { o with status := .dispatched } := by
    rw [row_setStatus, payloadForDispatch_row, ho]
    rfl
  have hback := row_moveToSourcing hrow
    (.inr (show OrderStatus.sourcing ∈ validTransitions .dispatched by decide))
  exact ⟨_, hback, rfl, hb⟩

end

/-- **後始末は予約を全部返し、`bin_id` を残す。** -/
theorem rollback_wedged (hw : HoldsBin id w) (e : DispatchError) : Wedged id (rollback w id e) := by
  obtain ⟨o, ho, hs, hb⟩ := hw
  obtain ⟨b, hb⟩ := Option.isSome_iff_exists.mp hb
  have hreleased : Wedged id { releaseClaimByOrder w id with
      mouth := (releaseLanesByOwner (releaseClaimByOrder w id).mouth id).1 } := by
    have hrow : ScanWorld.row { releaseClaimByOrder w id with
        mouth := (releaseLanesByOwner (releaseClaimByOrder w id).mouth id).1 } id = some o := ho
    refine ⟨⟨b, ?_⟩, ?_, ?_⟩
    · rw [hrow, ← hb]
      rfl
    · unfold isDispatched
      rw [hrow, Option.any_some, hs]
      rfl
    · intro r hr hid
      have hkept := (mem_filter.mp hr).2
      simp [hid] at hkept
  exact hreleased.keeps (KeepsCargo.park _ _)

/-! ## 走査を繰り返す -/

section

variable {s : Scanner} {w : ScanWorld} {id : Nat}

theorem reachesFleet_iff : s.reachesFleet w id = true ↔
    ∃ w' source dest, s.prepare w id = .ready w' source dest
      ∧ s.commitError (payloadForDispatch w' id) id source dest = none := by
  unfold reachesFleet
  cases hp : s.prepare w id with
  | parked w' =>
    constructor
    · intro h
      cases h
    · rintro ⟨_, _, _, h, _⟩
      cases h
  | ready w' source dest =>
    refine ⟨fun h => ⟨w', source, dest, rfl, Option.isNone_iff_eq_none.mp h⟩, ?_⟩
    rintro ⟨w₁, source₁, dest₁, h, hc⟩
    cases h
    exact Option.isNone_iff_eq_none.mpr hc

section

variable (h : s.reachesFleet w id = true)
include h

theorem scanPass_accepted : (s.scanPass id (w, 0)).1.isDispatched id = true := by
  obtain ⟨w', source, dest, hp, hc⟩ := reachesFleet_iff.mp h
  obtain ⟨w₁, hd, hw₁⟩ := dispatchDirect_accepted (prepare_ready hp).2 hc
  unfold scanPass
  dsimp only
  rw [hp]
  dsimp only
  rw [beq_self_eq_true, hd]
  exact hw₁

variable {refusals : Nat}

/-- **一度断られた order には、`bin_id` だけが残る。** -/
theorem scanPass_refused (hn : refusals ≠ 0) : Wedged id (s.scanPass id (w, refusals)).1 := by
  obtain ⟨w', source, dest, hp, hc⟩ := reachesFleet_iff.mp h
  obtain ⟨w₁, hd, hw₁⟩ := dispatchDirect_refused (prepare_ready hp).2 hc
  unfold scanPass
  dsimp only
  rw [hp]
  dsimp only
  rw [beq_false_of_ne hn, hd]
  exact rollback_wedged hw₁ _

theorem not_dispatched_of_refused (hn : refusals ≠ 0) (k : Nat) :
    ((s.scanPass id)^[k] (w, refusals)).1.isDispatched id = false := by
  cases k with
  | zero =>
    obtain ⟨w', source, dest, hp, -⟩ := reachesFleet_iff.mp h
    exact (prepare_ready hp).1
  | succ k =>
    exact (Wedged.iterate s k (scanPass_refused h hn)).unsent

end

end

/-- **fleet に届いた order がいつか送られるのは、一度も断られなかった時だけ。** -/
theorem dispatched_iff_no_refusal (s : Scanner) (w : ScanWorld) (id refusals : Nat)
    (h : s.reachesFleet w id = true) :
    (∃ k, ((s.scanPass id)^[k] (w, refusals)).1.isDispatched id = true) ↔ refusals = 0 := by
  constructor
  · rintro ⟨k, hk⟩
    by_contra hn
    rw [not_dispatched_of_refused h hn k] at hk
    exact Bool.false_ne_true hk
  · rintro rfl
    exact ⟨1, scanPass_accepted h⟩

/-! ## 棚から rack へ -/

def shelf : NodeRow := { id := 1, name := "SHELF" }

def openScanner : Scanner where
  checkDropoffCapacity := fun _ _ => none
  findSource := fun w _ =>
    if w.ledger.plant.hasPendingReservation 5 then
      .wait .waitingForMaterial (.reported "finder-node-empty")
    else .found 5 shelf
  acquireLanes := fun w _ _ _ _ => (.admitted, w.mouth)
  buriedForHeldBin := fun _ _ => false
  planBuriedReshuffle := fun _ _ => .failed
  resolver := none
  isLocked := fun _ _ => false
  isStor := fun n => n.id == 2
  isGroup := fun _ => false
  commitError := fun _ _ _ _ => none
  mintVendorOrderID := fun _ id => "sg-" ++ toString id

def shelfToRack : ScanWorld where
  ledger :=
    { plant :=
        { nodes := [shelf, { id := 2, name := "RACK" }]
          bins := [{ id := 5, nodeID := some 1, payloadCode := "P1" }]
          reservations := []
          nodeIDs := by decide
          binIDs := nodup_singleton 5
          binIDsPos := by decide
          binReserved := nodup_nil }
      orders := [{ id := 9, status := .queued }]
      orderIDs := nodup_singleton 9
      orderIDsPos := by decide
      parents := by decide
      reservedBy := forall_mem_nil _ }
  columns := fun _ => { deliveryNode := "RACK", payloadCode := "P1" }

theorem dispatched_iff_no_refusal_shelfToRack :
    openScanner.reachesFleet shelfToRack 9 = true
      ∧ ((∃ k, ((openScanner.scanPass 9)^[k] (shelfToRack, 0)).1.isDispatched 9 = true)
        ↔ (0 : Nat) = 0) := by
  have h : openScanner.reachesFleet shelfToRack 9 = true := by decide
  exact ⟨h, dispatched_iff_no_refusal openScanner shelfToRack 9 0 h⟩

/-- **一度だけ断られ、その後は fleet が受けるのに、order は送られない。** -/
theorem refused_once_never_dispatched :
    openScanner.reachesFleet shelfToRack 9 = true
      ∧ (openScanner.scanPass 9 (shelfToRack, 1)).2 = 0
      ∧ ¬ ∃ k, ((openScanner.scanPass 9)^[k] (shelfToRack, 1)).1.isDispatched 9 = true := by
  have h : openScanner.reachesFleet shelfToRack 9 = true := by decide
  refine ⟨h, by decide, ?_⟩
  rintro ⟨k, hk⟩
  rw [not_dispatched_of_refused h (by decide) k] at hk
  exact Bool.false_ne_true hk

end Shingo.Dispatch
