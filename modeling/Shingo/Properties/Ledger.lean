import Shingo.Core.Ledger
import Shingo.Infra.Run

/-!
# claim と予約は食い違わないか

claim の無い bin に confirmed の予約は無く、claim された bin にはその order の confirmed の
予約がちょうど一つある（`LedgerInv`）。どの transaction も、自分の compound の外の claim と
予約に触れない（`KeepsForeign`）。

`ReleaseClaimForBin` と `PlaceBinTx` は予約を bin だけを鍵にして消すので、消す row が
自分のものでないと、どちらも破れる。
-/

namespace Shingo.Core

open Infra List Ledger

namespace Ledger

/-- 同じ compound の order。自分、親と leg、同じ親の leg どうし。 -/
def SameCompound (w : Ledger) (o p : Nat) : Prop :=
  o = p ∨ w.isChildOf o p = true ∨ w.isChildOf p o = true ∨
    ∃ a ∈ w.orders, ∃ b ∈ w.orders, a.id = o ∧ b.id = p ∧ a.parentOrderID.isSome = true ∧
      a.parentOrderID = b.parentOrderID
  deriving Decidable

def Claimed (w : Ledger) (binID orderID : Nat) : Prop :=
  ∃ b ∈ w.plant.bins, b.id = binID ∧ b.claimedBy = some orderID
  deriving Decidable

def Backed (w : Ledger) : Prop :=
  ∀ b ∈ w.plant.bins, ∀ o ∈ b.claimedBy,
    w.plant.reservations.filter (·.target == .bin b.id) = [⟨o, .bin b.id, .confirmed⟩]
  deriving Decidable

end Ledger

def LedgerAction.actors : LedgerAction → List Nat
  | .reserveForDispatch _ orderID | .claimAndConfirm _ orderID _ | .releaseClaimForBin _ orderID
  | .releaseClaimByOrder orderID | .terminalizeOrder orderID _ => [orderID]
  | .createCompoundChildren children => children.map OrderRow.id
  | .placeBin p => [p.placedByOrder]

def LedgerAction.digs : LedgerAction → List Nat
  | .createCompoundChildren children => children.filterMap OrderRow.binID
  | _ => []

def LedgerAction.Owns (a : LedgerAction) (w : Ledger) (orderID : Nat) : Prop :=
  ∃ o ∈ a.actors, w.SameCompound o orderID
  deriving Decidable

/-- 掘り出しに取られた soft な予約。持ち主は、その bin をもう指していない。 -/
def Stolen (digs : List Nat) (w : Ledger) (r : Reservation) : Prop :=
  r.state = .pending ∧ ∃ binID ∈ digs, r.target = .bin binID ∧
    ∃ holder ∈ w.orders, holder.id = r.orderID ∧ holder.binID ≠ some binID
  deriving Decidable

/-- transaction は、compound の外の claim と bin の予約を消さない。掘り出しが取る予約は除く。 -/
def KeepsForeign (w : Ledger) (a : LedgerAction) : Prop :=
  (∀ b ∈ w.plant.bins, ∀ p ∈ b.claimedBy,
    ¬ a.Owns (ledgerStep w a) p → (ledgerStep w a).Claimed b.id p) ∧
  ∀ r ∈ w.plant.reservations, r.target.binID?.isSome = true →
    ¬ a.Owns (ledgerStep w a) r.orderID →
      r ∈ (ledgerStep w a).plant.reservations ∨ Stolen a.digs (ledgerStep w a) r
  deriving Decidable

/--
動作の条件。

* `ReleaseClaimForBin` の bin の予約は、その order のものか、同じ compound の pending
* 手渡しで claim の無い bin を置くとき、bin の予約は置く order の compound のもの
* 置き先の ghost の claim は、まだ終わっていない order のもの
-/
def LedgerStepOk (w : Ledger) : LedgerAction → Prop
  | .releaseClaimForBin binID orderID =>
    ∀ r ∈ w.plant.reservations, r.target = .bin binID →
      r.orderID = orderID ∨ (r.state = .pending ∧ w.SameCompound orderID r.orderID)
  | .placeBin p =>
    (p.releaseClaim = true → ∀ b ∈ w.plant.bins, b.id = p.binID → b.claimedBy = none →
      ∀ r ∈ w.plant.reservations, r.target = .bin p.binID →
        w.SameCompound p.placedByOrder r.orderID) ∧
    ∀ node ∈ w.plant.getNode p.toNodeID, node.isSynthetic = false →
      ∀ b ∈ w.plant.bins, isGhost p.toNodeID p.binID b = true →
        ∀ o ∈ b.claimedBy, w.isLive o = true
  | _ => True

instance (w : Ledger) : ∀ a, Decidable (LedgerStepOk w a)
  | .releaseClaimForBin _ _ => inferInstanceAs (Decidable (∀ r ∈ w.plant.reservations, _))
  | .placeBin _ => inferInstanceAs (Decidable ((_ → _) ∧ _))
  | .reserveForDispatch _ _ | .claimAndConfirm _ _ _ | .createCompoundChildren _
  | .releaseClaimByOrder _ | .terminalizeOrder _ _ => .isTrue trivial

def LedgerInv (w : Ledger) : Prop :=
  ∀ binID o, w.Claimed binID o ↔ ⟨o, .bin binID, .confirmed⟩ ∈ w.plant.reservations

variable {w w' : Ledger}

/-! ## 表の鍵 -/

variable {b : BinRow} {ids : List Nat} {binID orderID : Nat} {r : Reservation}

theorem Ledger.bin_eq {b' : BinRow} (hb : b ∈ w.plant.bins) (hb' : b' ∈ w.plant.bins)
    (h : b.id = b'.id) : b = b' :=
  inj_on_of_nodup_map w.plant.binIDs hb hb' h

theorem Ledger.rows_eq_singleton (hr : r ∈ w.plant.reservations) (ht : r.target = .bin binID) :
    w.plant.reservations.filter (·.target == .bin binID) = [r] := by
  have hpair := (Plant.pairwise_target w.plant).filter (·.target == .bin binID)
  have hmem : r ∈ w.plant.reservations.filter (·.target == .bin binID) :=
    mem_filter.mpr ⟨hr, by simp [ht]⟩
  have hall : ∀ r' ∈ w.plant.reservations.filter (·.target == .bin binID), r' = r := by
    intro r' hr'
    obtain ⟨hr', ht'⟩ := mem_filter.mp hr'
    exact Plant.eq_of_target hr' hr (eq_of_beq ht') ht
  generalize w.plant.reservations.filter (·.target == .bin binID) = rows at hpair hmem hall
  match rows with
  | [] => cases hmem
  | [r'] => rw [hall r' mem_cons_self]
  | r' :: r'' :: _ =>
    -- 二つ目の row が同じ bin に載ることになる
    have h' := hall r' mem_cons_self
    have h'' := hall r'' (mem_cons_of_mem _ mem_cons_self)
    rw [h', h''] at hpair
    exact absurd ht ((pairwise_cons.mp hpair).1 r mem_cons_self binID ht)

theorem LedgerInv.backed (h : LedgerInv w) : w.Backed := by
  intro b hb o ho
  exact rows_eq_singleton ((h b.id o).mp ⟨b, hb, rfl, ho⟩) rfl

theorem LedgerInv.of_vacant (hc : ∀ b ∈ w.plant.bins, b.claimedBy = none)
    (hr : w.plant.reservations = []) : LedgerInv w := by
  intro binID o
  rw [hr]
  constructor
  · rintro ⟨b, hb, -, ho⟩
    rw [hc b hb] at ho
    cases ho
  · intro h
    cases h

/-! ## order の表の伸び方 -/

/-- order は増えるだけで、親は変わらず、bin は指されなくなるだけ。 -/
def Ledger.Grows (w w' : Ledger) : Prop :=
  ∀ o ∈ w.orders, ∃ o' ∈ w'.orders, o'.id = o.id ∧ o'.parentOrderID = o.parentOrderID ∧
    (o'.binID = o.binID ∨ o'.binID = none)

variable {w'' : Ledger} {parentID o dest keep childID : Nat} {a : LedgerAction}
  {f : BinRow → BinRow} {digs actors : List Nat}

namespace Ledger

theorem Grows.of_orders (h : w'.orders = w.orders) : w.Grows w' :=
  fun o ho => ⟨o, h ▸ ho, rfl, rfl, .inl rfl⟩

theorem Grows.trans (h : w.Grows w') (h' : w'.Grows w'') : w.Grows w'' := by
  intro o ho
  obtain ⟨o', ho', hid, hp, hb⟩ := h o ho
  obtain ⟨o'', ho'', hid', hp', hb'⟩ := h' o' ho'
  refine ⟨o'', ho'', hid'.trans hid, hp'.trans hp, ?_⟩
  rcases hb' with hb' | hb'
  · rw [hb']
    exact hb
  · exact .inr hb'

theorem isChildOf_iff : w.isChildOf parentID orderID = true ↔
    ∃ o ∈ w.orders, o.id = orderID ∧ o.parentOrderID = some parentID := by
  simp [isChildOf, any_eq_true]

theorem Grows.isChildOf (h : w.Grows w') (hc : w.isChildOf parentID orderID = true) :
    w'.isChildOf parentID orderID = true := by
  obtain ⟨o, ho, hid, hp⟩ := isChildOf_iff.mp hc
  obtain ⟨o', ho', hid', hp', -⟩ := h o ho
  exact isChildOf_iff.mpr ⟨o', ho', hid'.trans hid, hp'.trans hp⟩

theorem SameCompound.mono (h : w.Grows w') {p : Nat} (hs : w.SameCompound o p) :
    w'.SameCompound o p := by
  rcases hs with rfl | hc | hc | ⟨a, ha, b, hb, rfl, rfl, hsome, hp⟩
  · exact .inl rfl
  · exact .inr (.inl (h.isChildOf hc))
  · exact .inr (.inr (.inl (h.isChildOf hc)))
  · obtain ⟨a', ha', hai, hap, -⟩ := h a ha
    obtain ⟨b', hb', hbi, hbp, -⟩ := h b hb
    exact .inr (.inr (.inr ⟨a', ha', b', hb', hai, hbi, by rw [hap]; exact hsome,
      by rw [hap, hbp]; exact hp⟩))

theorem SameCompound.of_siblings {p : Nat} (ho : w.isChildOf parentID o = true)
    (hp : w.isChildOf parentID p = true) : w.SameCompound o p := by
  obtain ⟨a, ha, hai, hap⟩ := isChildOf_iff.mp ho
  obtain ⟨b, hb, hbi, hbp⟩ := isChildOf_iff.mp hp
  exact .inr (.inr (.inr ⟨a, ha, b, hb, hai, hbi, by rw [hap]; rfl, hap.trans hbp.symm⟩))

end Ledger

theorem Stolen.mono (h : w.Grows w') (hs : Stolen digs w r) : Stolen digs w' r := by
  obtain ⟨hst, binID, hd, ht, o, ho, hid, hb⟩ := hs
  obtain ⟨o', ho', hid', -, hb'⟩ := h o ho
  refine ⟨hst, binID, hd, ht, o', ho', hid'.trans hid, ?_⟩
  rcases hb' with hb' | hb'
  · rw [hb']
    exact hb
  · rw [hb']
    exact fun h => nomatch h

/-! ## 一つの transaction が残すもの -/

/-- `actors` のための書き込みの前後。消えた claim と予約は、compound のものか、掘り出しが取った。 -/
structure Keeps (digs actors : List Nat) (w w' : Ledger) : Prop where
  grows : w.Grows w'
  claims : ∀ binID p, w.Claimed binID p →
    w'.Claimed binID p ∨ ∃ o ∈ actors, w'.SameCompound o p
  rows : ∀ r ∈ w.plant.reservations, ∀ binID, r.target = .bin binID →
    r ∈ w'.plant.reservations ∨ (∃ o ∈ actors, w'.SameCompound o r.orderID) ∨ Stolen digs w' r

namespace Keeps

theorem refl (digs actors : List Nat) (w : Ledger) : Keeps digs actors w w :=
  ⟨.of_orders rfl, fun _ _ h => .inl h, fun _ h _ _ => .inl h⟩

theorem trans (h : Keeps digs actors w w') (h' : Keeps digs actors w' w'') :
    Keeps digs actors w w'' where
  grows := h.grows.trans h'.grows
  claims := by
    intro binID p hc
    rcases h.claims binID p hc with hc | ⟨o, ho, hs⟩
    · exact h'.claims binID p hc
    · exact .inr ⟨o, ho, hs.mono h'.grows⟩
  rows := by
    intro r hr binID ht
    rcases h.rows r hr binID ht with hr | ⟨o, ho, hs⟩ | hs
    · exact h'.rows r hr binID ht
    · exact .inr (.inl ⟨o, ho, hs.mono h'.grows⟩)
    · exact .inr (.inr (hs.mono h'.grows))

theorem mono {digs' actors' : List Nat} (hd : digs ⊆ digs') (ha : actors ⊆ actors')
    (h : Keeps digs actors w w') : Keeps digs' actors' w w' where
  grows := h.grows
  claims := fun binID p hc => (h.claims binID p hc).imp_right fun ⟨o, ho, hs⟩ => ⟨o, ha ho, hs⟩
  rows := by
    intro r hr binID ht
    rcases h.rows r hr binID ht with hr | ⟨o, ho, hs⟩ | ⟨hst, id, hid, hrest⟩
    · exact .inl hr
    · exact .inr (.inl ⟨o, ha ho, hs⟩)
    · exact .inr (.inr ⟨hst, id, hd hid, hrest⟩)

theorem keepsForeign (h : Keeps a.digs a.actors w (ledgerStep w a)) : KeepsForeign w a := by
  constructor
  · intro b hb p hp hf
    exact (h.claims b.id p ⟨b, hb, rfl, hp⟩).resolve_right hf
  · intro r hr ht hf
    obtain ⟨binID, ht⟩ : ∃ binID, r.target = .bin binID := by
      cases h : r.target with
      | bin id => exact ⟨id, rfl⟩
      | slot _ | mouth _ | occupancy _ => rw [h] at ht; cases ht
    rcases h.rows r hr binID ht with h | h | h
    · exact .inl h
    · exact absurd h hf
    · exact .inr h

end Keeps

/-- 一つの transaction の証明が返すもの。不変条件と、残したもの。 -/
abbrev KeepsInv (digs actors : List Nat) (w w' : Ledger) : Prop :=
  LedgerInv w' ∧ Keeps digs actors w w'

/-! ## claim の書き込み -/

namespace Ledger

theorem claimed_congr (h : w'.plant.bins = w.plant.bins) (id p : Nat) :
    w'.Claimed id p ↔ w.Claimed id p := by
  unfold Claimed
  rw [h]

theorem claimed_updateBins (hf : ∀ b, (f b).id = b.id) :
    (w.updateBins f hf).Claimed binID o ↔
      ∃ b ∈ w.plant.bins, b.id = binID ∧ (f b).claimedBy = some o := by
  constructor
  · rintro ⟨b', hb', hid, ho⟩
    obtain ⟨b, hb, rfl⟩ := mem_map.mp hb'
    exact ⟨b, hb, by rw [← hid, hf], ho⟩
  · rintro ⟨b, hb, hid, ho⟩
    exact ⟨f b, mem_map_of_mem hb, by rw [hf]; exact hid, ho⟩

theorem claimed_set (hf : ∀ b, (f b).id = b.id) {cond : BinRow → Bool} {v : Option Nat}
    (hhit : w.plant.bins.any cond = true) (hcond : ∀ b, cond b = true → b.id = binID)
    (hset : ∀ b, (f b).claimedBy = if cond b = true then v else b.claimedBy) (id o : Nat) :
    (w.updateBins f hf).Claimed id o ↔ if id = binID then v = some o else w.Claimed id o := by
  obtain ⟨b₀, hb₀, hc₀⟩ := any_eq_true.mp hhit
  rw [claimed_updateBins hf]
  split
  · rename_i hid
    subst hid
    constructor
    · rintro ⟨b, hb, hid, ho⟩
      have hbb : b = b₀ := bin_eq hb hb₀ (hid.trans (hcond b₀ hc₀).symm)
      rwa [hset, hbb, if_pos hc₀] at ho
    · intro hv
      exact ⟨b₀, hb₀, hcond b₀ hc₀, by rw [hset, if_pos hc₀]; exact hv⟩
  · rename_i hid
    have hmiss : ∀ b, b.id = id → (f b).claimedBy = b.claimedBy := by
      intro b hb
      rw [hset, if_neg]
      intro hc
      exact hid (hb.symm.trans (hcond b hc))
    constructor
    · rintro ⟨b, hb, hbid, ho⟩
      exact ⟨b, hb, hbid, by rwa [hmiss b hbid] at ho⟩
    · rintro ⟨b, hb, hbid, ho⟩
      exact ⟨b, hb, hbid, by rwa [hmiss b hbid]⟩

end Ledger

variable {binID : Nat}

/-- **一つの bin の claim と予約を書き換える。** -/
theorem LedgerInv.setBin (hi : LedgerInv w) (binID : Nat) (v : Option Nat) (hgrow : w.Grows w')
    (hclaim : ∀ id p, w'.Claimed id p ↔ if id = binID then v = some p else w.Claimed id p)
    (hrow : ∀ r, r ∈ w'.plant.reservations ↔ (r ∈ w.plant.reservations ∧ r.target ≠ .bin binID) ∨
      ∃ o ∈ v, r = ⟨o, .bin binID, .confirmed⟩)
    (hown : ∀ r ∈ w.plant.reservations, r.target = .bin binID →
      (∃ o ∈ actors, w'.SameCompound o r.orderID) ∨ Stolen digs w' r) :
    KeepsInv digs actors w w' := by
  refine ⟨?_, hgrow, ?_, ?_⟩
  · intro id p
    rw [hclaim, hrow]
    by_cases hid : id = binID
    · simp [hid]
    · simp [hid, hi id p]
  · intro id p hc
    by_cases hid : id = binID
    · subst hid
      -- 掘り出しが取るのは pending だけ
      rcases hown _ ((hi id p).mp hc) rfl with hs | ⟨hpending, -⟩
      · exact .inr hs
      · cases hpending
    · exact .inl ((hclaim id p).mpr (by rwa [if_neg hid]))
  · intro r hr _ _
    by_cases ht : r.target = .bin binID
    · exact .inr (hown r hr ht)
    · exact .inl ((hrow r).mpr (.inl ⟨hr, ht⟩))

/-! ## 予約を取る -/

theorem LedgerInv.reserveForDispatch (hi : LedgerInv w)
    (h : w.reserveForDispatch binID orderID = .ok w') : KeepsInv [] [orderID] w w' := by
  obtain ⟨ho, ⟨-, hb⟩, hr⟩ := reserveForDispatch_ok h
  have hclaim := claimed_congr hb
  refine ⟨?_, .of_orders ho, fun id p hc => .inl ((hclaim id p).mpr hc), ?_⟩
  · intro id p
    rw [hclaim, hi id p, hr]
    simp
  · intro r hmem _ _
    rw [hr]
    exact .inl (mem_append_left _ hmem)

/-! ## claim を取る -/

theorem Plant.mem_confirm {w : Plant} : r ∈ (w.confirm orderID binID).reservations ↔
      (r ∈ w.reservations ∧ r ≠ ⟨orderID, .bin binID, .pending⟩) ∨
      (r = ⟨orderID, .bin binID, .confirmed⟩ ∧
        ⟨orderID, .bin binID, .pending⟩ ∈ w.reservations) := by
  constructor
  · intro h
    obtain ⟨r', hr', rfl⟩ := mem_map.mp h
    unfold confirmRow
    split
    · rename_i he
      exact .inr ⟨rfl, he ▸ hr'⟩
    · rename_i hne
      exact .inl ⟨hr', hne⟩
  · rintro (⟨hr, hne⟩ | ⟨rfl, hr⟩)
    · exact mem_map.mpr ⟨r, hr, if_neg hne⟩
    · exact mem_map.mpr ⟨_, hr, if_pos rfl⟩

theorem Ledger.claimUnderReservation_claimedBy (w : Ledger) (binID orderID : Nat)
    (uop : Option Int) (b : BinRow) :
    (w.claimUnderReservation binID orderID uop b).claimedBy =
      if w.claimable binID orderID b = true then some orderID else b.claimedBy := by
  unfold claimUnderReservation
  split
  · repeat' split
    all_goals rfl
  · rfl

theorem Ledger.claimable_iff :
    w.claimable binID orderID b = true ↔ b.id = binID ∧ b.locked = false ∧
      (b.claimedBy = none ∨ b.claimedBy = some orderID) ∧
      ⟨orderID, .bin binID, .pending⟩ ∈ w.plant.reservations := by
  simp [claimable, and_assoc]

theorem LedgerInv.claimAndConfirm (hi : LedgerInv w) {uop : Option Int}
    (h : w.claimAndConfirm binID orderID uop = .ok w') : KeepsInv [] [orderID] w w' := by
  unfold Ledger.claimAndConfirm at h
  split at h
  case isFalse => cases h
  case isTrue hhit =>
    cases h
    obtain ⟨b, hb, hc⟩ := any_eq_true.mp hhit
    obtain ⟨rfl, -, hfree, hpend⟩ := claimable_iff.mp hc
    have hclaim := claimed_set (w.claimUnderReservation_id b.id orderID uop) hhit
      (fun _ h => (claimable_iff.mp h).1)
      (w.claimUnderReservation_claimedBy b.id orderID uop)
    -- bin の row は自分の pending 一つなので、claim は空いていた
    have hown : ∀ r ∈ w.plant.reservations, r.target = .bin b.id →
        r = ⟨orderID, .bin b.id, .pending⟩ :=
      fun r hr ht => Plant.eq_of_target hr hpend ht rfl
    refine hi.setBin _ _ (.of_orders rfl) hclaim (fun r => ?_) fun r hr ht => ?_
    · rw [Plant.mem_confirm]
      constructor
      · rintro (⟨hr, hne⟩ | ⟨rfl, -⟩)
        · exact .inl ⟨hr, fun ht => hne (hown r hr ht)⟩
        · exact .inr ⟨orderID, rfl, rfl⟩
      · rintro (⟨hr, ht⟩ | ⟨o, ⟨⟩, rfl⟩)
        · exact .inl ⟨hr, fun he => ht (he ▸ rfl)⟩
        · exact .inr ⟨rfl, hpend⟩
    · rw [hown r hr ht]
      exact .inl ⟨orderID, mem_cons_self, .inl rfl⟩

/-! ## order を鍵に手放す -/

theorem Ledger.unclaimAll_nodeID (orderID : Nat) (b : BinRow) :
    (unclaimAll orderID b).nodeID = b.nodeID := by
  unfold unclaimAll
  split <;> rfl

theorem Ledger.unclaimAll_of_ne (h : b.claimedBy = some o) (hne : o ≠ orderID) :
    unclaimAll orderID b = b :=
  if_neg (by rw [h]; exact fun he => hne (Option.some.inj he))

theorem Ledger.claimed_releaseClaimByOrder :
    (w.releaseClaimByOrder orderID).Claimed binID o ↔ w.Claimed binID o ∧ o ≠ orderID := by
  refine (claimed_updateBins (unclaimAll_id orderID)).trans ?_
  constructor
  · rintro ⟨b, hb, hid, ho⟩
    unfold unclaimAll at ho
    split at ho
    · cases ho
    · rename_i hne
      exact ⟨⟨b, hb, hid, ho⟩, fun he => hne (he ▸ ho)⟩
  · rintro ⟨⟨b, hb, hid, ho⟩, hne⟩
    exact ⟨b, hb, hid, by rwa [unclaimAll_of_ne ho hne]⟩

theorem Ledger.mem_releaseClaimByOrder : r ∈ (w.releaseClaimByOrder orderID).plant.reservations ↔
      r ∈ w.plant.reservations ∧ r.orderID ≠ orderID := by
  refine mem_filter.trans ?_
  simp [updateBins, Plant.updateBins]

theorem LedgerInv.releaseClaimByOrder (hi : LedgerInv w) (orderID : Nat) :
    KeepsInv [] [orderID] w (w.releaseClaimByOrder orderID) := by
  refine ⟨?_, .of_orders rfl, ?_, ?_⟩
  · intro id p
    rw [claimed_releaseClaimByOrder, mem_releaseClaimByOrder, hi id p]
  · intro id p hc
    by_cases hp : p = orderID
    · exact .inr ⟨orderID, mem_cons_self, .inl hp.symm⟩
    · exact .inl (claimed_releaseClaimByOrder.mpr ⟨hc, hp⟩)
  · intro r hr _ _
    by_cases hp : r.orderID = orderID
    · exact .inr (.inl ⟨orderID, mem_cons_self, .inl hp.symm⟩)
    · exact .inl (mem_releaseClaimByOrder.mpr ⟨hr, hp⟩)

theorem Ledger.Grows.updateOrders {f : OrderRow → OrderRow} {hf : ∀ o, (f o).id = o.id}
    {hp : ∀ o, (f o).parentOrderID = o.parentOrderID}
    (hb : ∀ o, (f o).binID = o.binID ∨ (f o).binID = none) : w.Grows (w.updateOrders f hf hp) :=
  fun o ho => ⟨f o, mem_map_of_mem ho, hf o, hp o, hb o⟩

theorem LedgerInv.terminalizeOrder (hi : LedgerInv w) (orderID : Nat)
    (status : Shingo.Dispatch.OrderStatus) :
    KeepsInv [] [orderID] w (w.terminalizeOrder orderID status).1 := by
  have hgrow : w.Grows (w.updateOrders (terminalize orderID status)
      (terminalize_id orderID status) (terminalize_parentOrderID orderID status)) :=
    .updateOrders fun o => by unfold terminalize; split <;> exact .inl rfl
  have hrel := LedgerInv.releaseClaimByOrder (w := w.updateOrders _
    (terminalize_id orderID status) (terminalize_parentOrderID orderID status))
    hi orderID
  exact ⟨hrel.1, hgrow.trans hrel.2.grows, hrel.2.claims, hrel.2.rows⟩

/-! ## bin を鍵に手放す -/

theorem LedgerInv.releaseClaimForBin (hi : LedgerInv w)
    (hok : LedgerStepOk w (.releaseClaimForBin binID orderID)) :
    KeepsInv [] [orderID] w (w.releaseClaimForBin binID orderID) := by
  have hown : ∀ p, w.Claimed binID p → p = orderID := by
    intro p hc
    rcases hok _ ((hi binID p).mp hc) rfl with he | ⟨hst, -⟩
    · exact he
    · cases hst
  refine hi.setBin binID none (.of_orders rfl) ?_ ?_ ?_
  · intro id p
    refine (claimed_updateBins (Plant.unclaim_id binID orderID)).trans ?_
    unfold Plant.unclaim
    constructor
    · rintro ⟨b, hb, rfl, ho⟩
      split at ho
      · cases ho
      rename_i hne
      split
      · rename_i hid
        have hp := hown p ⟨b, hb, hid, ho⟩
        exact absurd ⟨hid, hp ▸ ho⟩ hne
      · exact ⟨b, hb, rfl, ho⟩
    · intro h
      split at h
      · cases h
      rename_i hid
      obtain ⟨b, hb, rfl, ho⟩ := h
      exact ⟨b, hb, rfl, by rw [if_neg (fun he => hid he.1)]; exact ho⟩
  · intro r
    refine mem_filter.trans ?_
    simp
  · intro r hr ht
    refine .inl ⟨orderID, mem_cons_self, ?_⟩
    rcases hok r hr ht with he | ⟨-, hs⟩
    · exact .inl he.symm
    · exact hs.mono (.of_orders rfl)

/-! ## 置く -/

theorem Ledger.handsOff_iff {p : BinPlacement} : w.handsOff p b = true ↔ b.id = p.binID ∧
      (b.claimedBy = none ∨ b.claimedBy = some p.placedByOrder ∨
        ∃ parentID, w.isChildOf parentID p.placedByOrder = true ∧
          ∃ holder, b.claimedBy = some holder ∧ w.isChildOf parentID holder = true) := by
  unfold handsOff
  simp only [Bool.and_eq_true, beq_iff_eq, Bool.or_eq_true, or_assoc, any_eq_true,
    Option.any_eq_true, isChildOf_iff]
  refine and_congr_right fun _ => or_congr_right (or_congr_right ?_)
  constructor
  · rintro ⟨placer, hmem, hid, parentID, hp, holder, hh, hs⟩
    exact ⟨parentID, ⟨placer, hmem, hid, hp⟩, holder, hh, hs⟩
  · rintro ⟨parentID, ⟨placer, hmem, hid, hp⟩, holder, hh, hs⟩
    exact ⟨placer, hmem, hid, parentID, hp, holder, hh, hs⟩

variable {p : Ledger.BinPlacement}

theorem LedgerInv.releaseOnArrival (hi : LedgerInv w)
    (hok : ∀ b ∈ w.plant.bins, b.id = p.binID → b.claimedBy = none →
      ∀ r ∈ w.plant.reservations, r.target = .bin p.binID →
        w.SameCompound p.placedByOrder r.orderID) :
    KeepsInv [] [p.placedByOrder] w (w.releaseOnArrival p) := by
  unfold Ledger.releaseOnArrival
  split
  case isFalse => exact ⟨hi, .refl _ _ _⟩
  case isTrue hhit =>
    obtain ⟨b, hb, hc⟩ := any_eq_true.mp hhit
    have hclaim := claimed_set (w.handOff_id p) hhit (v := none)
      (fun _ h => (handsOff_iff.mp h).1) (fun b => by unfold handOff; split <;> rfl)
    refine hi.setBin _ _ (.of_orders rfl) hclaim ?_ ?_
    · intro r
      refine mem_filter.trans ?_
      simp [updateBins, Plant.updateBins]
    · intro r hr ht
      refine .inl ⟨p.placedByOrder, mem_cons_self, .mono (.of_orders rfl) ?_⟩
      obtain ⟨hid, hnone | hown⟩ := handsOff_iff.mp hc
      · exact hok b hb hid hnone r hr ht
      · -- claim が在れば、bin の row はその order の confirmed
        have hrow : ∀ o, b.claimedBy = some o → r.orderID = o := by
          intro o ho
          have := Plant.eq_of_target hr ((hi p.binID o).mp ⟨b, hb, hid, ho⟩) ht rfl
          rw [this]
        rcases hown with hown | ⟨parentID, hplacer, holder, hholder, hsib⟩
        · exact .inl (hrow _ hown).symm
        · rw [hrow holder hholder]
          exact .of_siblings hplacer hsib

theorem LedgerInv.of_same (hi : LedgerInv w) (digs actors : List Nat) (hgrow : w.Grows w')
    (hclaim : ∀ id p, w'.Claimed id p ↔ w.Claimed id p)
    (hrow : ∀ r id, r.target = .bin id → (r ∈ w'.plant.reservations ↔ r ∈ w.plant.reservations)) :
    KeepsInv digs actors w w' := by
  refine ⟨?_, hgrow, fun id p hc => .inl ((hclaim id p).mpr hc), ?_⟩
  · intro id p
    rw [hclaim, hi id p, hrow _ id rfl]
  · intro r hr id ht
    exact .inl ((hrow r id ht).mpr hr)

theorem LedgerInv.updateBins (hi : LedgerInv w) (actors : List Nat) (hf : ∀ b, (f b).id = b.id)
    (hsame : ∀ b ∈ w.plant.bins, (f b).claimedBy = b.claimedBy) :
    KeepsInv [] actors w (w.updateBins f hf) := by
  refine hi.of_same [] actors (.of_orders rfl) ?_ (fun _ _ _ => Iff.rfl)
  intro id p
  rw [claimed_updateBins]
  constructor
  · rintro ⟨b, hb, hid, ho⟩
    exact ⟨b, hb, hid, by rwa [hsame b hb] at ho⟩
  · rintro ⟨b, hb, hid, ho⟩
    exact ⟨b, hb, hid, by rwa [hsame b hb]⟩

theorem Ledger.evictStaleGhostBins_ok (h : w.evictStaleGhostBins dest keep = .ok (w', ids)) :
    w' = w ∨ ∃ node transitID, w.plant.getNode dest = some node ∧ node.isSynthetic = false ∧
      w' = w.updateBins (w.evict dest keep transitID) (w.evict_id dest keep transitID) := by
  unfold evictStaleGhostBins at h
  dsimp only at h
  split at h
  · cases h
    exact .inl rfl
  split at h
  · cases h
  rename_i node hnode
  split at h
  · cases h
    exact .inl rfl
  rename_i hsyn
  split at h
  · cases h
  rename_i transit _
  cases h
  exact .inr ⟨node, transit.id, hnode, by simpa using hsyn, rfl⟩

theorem Ledger.evict_claimedBy {transitID : Nat}
    (hlive : isGhost dest keep b = true → ∀ o ∈ b.claimedBy, w.isLive o = true) :
    (w.evict dest keep transitID b).claimedBy = b.claimedBy := by
  unfold evict
  split
  · rename_i hg
    cases hc : b.claimedBy with
    | none => rfl
    | some o => exact Option.filter_eq_some_iff.mpr ⟨rfl, hlive hg o hc⟩
  · rfl

def Ledger.putDown (w : Ledger) (p : BinPlacement) : Ledger :=
  let w := if p.releaseClaim then w.releaseOnArrival p else w
  let w := if p.releaseDestinationSlot then
      w.deleteReservations fun r => onNode p.toNodeID r.target
    else w
  w.updateBins (settle p) (settle_id p)

theorem LedgerInv.putDown (hi : LedgerInv w)
    (hok : p.releaseClaim = true → ∀ b ∈ w.plant.bins, b.id = p.binID → b.claimedBy = none →
      ∀ r ∈ w.plant.reservations, r.target = .bin p.binID →
        w.SameCompound p.placedByOrder r.orderID) :
    KeepsInv [] [p.placedByOrder] w (w.putDown p) := by
  unfold Ledger.putDown
  dsimp only
  -- 三つの書き込みを順に当てる
  have h₁ : KeepsInv [] [p.placedByOrder] w
      (if p.releaseClaim then w.releaseOnArrival p else w) := by
    split
    · rename_i hrel
      exact hi.releaseOnArrival (hok hrel)
    · exact ⟨hi, .refl _ _ _⟩
  generalize (if p.releaseClaim then w.releaseOnArrival p else w) = w₁ at h₁ ⊢
  have h₂ : KeepsInv [] [p.placedByOrder] w₁ (if p.releaseDestinationSlot then
        w₁.deleteReservations fun r => onNode p.toNodeID r.target else w₁) := by
    split
    · refine h₁.1.of_same _ _ (.of_orders rfl) (fun _ _ => Iff.rfl) ?_
      intro r id ht
      refine mem_filter.trans ?_
      simp [ht, onNode]
    · exact ⟨h₁.1, .refl _ _ _⟩
  generalize (if p.releaseDestinationSlot then
    w₁.deleteReservations fun r => onNode p.toNodeID r.target else w₁) = w₂ at h₂ ⊢
  have hset : ∀ b ∈ w₂.plant.bins, (settle p b).claimedBy = b.claimedBy := by
    intro b _
    unfold settle
    split <;> rfl
  have h₃ := h₂.1.updateBins [p.placedByOrder] (settle_id p) hset
  exact ⟨h₃.1, (h₁.2.trans h₂.2).trans h₃.2⟩

theorem Ledger.placeBin_ok {p : BinPlacement} (h : w.placeBin p = .ok (w', ids)) :
    ∃ w₁ ids, w.evictStaleGhostBins p.toNodeID p.binID = .ok (w₁, ids) ∧ w' = w₁.putDown p := by
  unfold placeBin at h
  cases he : w.evictStaleGhostBins p.toNodeID p.binID with
  | error e => rw [he] at h; cases h
  | ok r =>
    obtain ⟨w₁, ids₁⟩ := r
    rw [he] at h
    change (if _ then Except.error _ else Except.ok _) = _ at h
    split at h
    · cases h
    · cases h
      exact ⟨w₁, _, rfl, rfl⟩

theorem LedgerInv.placeBin (hi : LedgerInv w) (hok : LedgerStepOk w (.placeBin p))
    (h : w.placeBin p = .ok (w', ids)) : KeepsInv [] [p.placedByOrder] w w' := by
  obtain ⟨w₁, ids₁, he, rfl⟩ := placeBin_ok h
  rcases evictStaleGhostBins_ok he with rfl | ⟨node, transitID, hnode, hsyn, rfl⟩
  · exact hi.putDown hok.1
  · have hsame : ∀ b ∈ w.plant.bins,
        (w.evict p.toNodeID p.binID transitID b).claimedBy = b.claimedBy :=
      fun b hb => evict_claimedBy (hok.2 node hnode hsyn b hb)
    have h₁ := hi.updateBins [p.placedByOrder] (w.evict_id p.toNodeID p.binID transitID) hsame
    have h₂ := h₁.1.putDown (p := p) (by
      intro hrel b hb hid hnone
      obtain ⟨b', hb', rfl⟩ := mem_map.mp hb
      rw [evict_id] at hid
      rw [hsame b' hb'] at hnone
      exact hok.1 hrel b' hb' hid hnone)
    exact ⟨h₂.1, h₁.2.trans h₂.2⟩

/-! ## 掘り出しの leg -/

namespace Ledger

theorem stealSoftHold_plant (w : Ledger) (binID childID parentID : Nat) :
    (w.stealSoftHold binID childID parentID).plant = w.plant := by
  unfold stealSoftHold
  split <;> rfl

theorem isChildOf_stealSoftHold (w : Ledger) (binID childID parentID x y : Nat) :
    (w.stealSoftHold binID childID parentID).isChildOf x y = w.isChildOf x y := by
  unfold stealSoftHold
  split
  · rfl
  rename_i holder _
  simp [isChildOf, updateOrders, any_map, Function.comp_def, dropBinID_id,
    dropBinID_parentOrderID]

theorem grows_stealSoftHold (w : Ledger) (binID childID parentID : Nat) :
    w.Grows (w.stealSoftHold binID childID parentID) := by
  unfold stealSoftHold
  split
  · exact .of_orders rfl
  rename_i holder _
  refine .updateOrders fun o => ?_
  unfold dropBinID
  split
  · exact .inr rfl
  · exact .inl rfl

theorem stealSoftHold_drops (hr : r ∈ w.plant.reservations) (ht : r.target = .bin binID)
    (hc : r.orderID ≠ childID) (hp : r.orderID ≠ parentID)
    (hs : w.isChildOf parentID r.orderID = false) :
    ∃ o ∈ (w.stealSoftHold binID childID parentID).orders,
      o.id = r.orderID ∧ o.binID ≠ some binID := by
  have hholder : w.foreignHolder binID childID parentID = some r.orderID := by
    unfold foreignHolder
    cases hf : w.plant.reservations.find? _ with
    | none => exact absurd (List.find?_eq_none.mp hf r hr) (by simp [ht, hc, hp, hs])
    | some r' =>
      have ht' := List.find?_some hf
      simp only [Bool.and_eq_true, beq_iff_eq] at ht'
      rw [Plant.eq_of_target (mem_of_find?_eq_some hf) hr ht'.1.1.1 ht]
      rfl
  obtain ⟨o, ho, hid⟩ := mem_map.mp (w.reservedBy r hr)
  unfold stealSoftHold
  rw [hholder]
  refine ⟨dropBinID r.orderID binID o, mem_map_of_mem ho, (dropBinID_id ..).trans hid, ?_⟩
  unfold dropBinID
  split
  · exact fun h => nomatch h
  · rename_i hne
    exact fun h => hne ⟨hid, h⟩

theorem sameCompound_of_scope {x : Nat}
    (hchild : parentID = 0 ∨ w.isChildOf parentID childID = true)
    (hx : x ∈ w.orders.map OrderRow.id)
    (h : x = childID ∨ x = parentID ∨ w.isChildOf parentID x = true) :
    w.SameCompound childID x := by
  have hzero : ∀ y ∈ w.orders.map OrderRow.id, y ≠ 0 := by
    intro y hy
    obtain ⟨o, ho, rfl⟩ := mem_map.mp hy
    exact w.orderIDsPos o ho
  rcases h with rfl | rfl | hsib
  · exact .inl rfl
  · rcases hchild with rfl | hchild
    · exact absurd rfl (hzero 0 hx)
    · exact .inr (.inr (.inl hchild))
  · rcases hchild with rfl | hchild
    · obtain ⟨o, ho, -, hp⟩ := isChildOf_iff.mp hsib
      exact absurd rfl (hzero 0 (w.parents o ho 0 hp))
    · exact .of_siblings hchild hsib

theorem takeable_iff :
    w.takeable binID parentID b = true ↔ b.id = binID ∧
      ∀ o, b.claimedBy = some o → o = parentID ∨ w.isChildOf parentID o = true := by
  unfold takeable
  cases hc : b.claimedBy with
  | none | some o => simp

end Ledger

theorem Plant.mem_supersede {w : Plant} : r ∈ (w.supersede orderID binID).reservations ↔
      (r ∈ w.reservations ∧ r.target ≠ .bin binID) ∨ r = ⟨orderID, .bin binID, .confirmed⟩ := by
  refine mem_append.trans ?_
  simp

theorem Ledger.claimForChild_ok (h : w.claimForChild binID childID parentID = .ok w') :
    (∃ b ∈ w.plant.bins, w.takeable binID parentID b = true) ∧
      w'.orders = (w.stealSoftHold binID childID parentID).orders ∧
      (∀ id o, w'.Claimed id o ↔ if id = binID then childID = o else w.Claimed id o) ∧
      w'.plant.reservations = (w.plant.supersede childID binID).reservations ∧
      w'.plant.nodes = w.plant.nodes := by
  unfold claimForChild at h
  dsimp only at h
  have hplant := w.stealSoftHold_plant binID childID parentID
  have htake : ∀ b, (w.stealSoftHold binID childID parentID).takeable binID parentID b =
      w.takeable binID parentID b := by
    intro b
    have hchild : (w.stealSoftHold binID childID parentID).isChildOf parentID =
        w.isChildOf parentID := funext (w.isChildOf_stealSoftHold binID childID parentID parentID)
    unfold takeable
    rw [hchild]
  generalize w.stealSoftHold binID childID parentID = w₁ at h hplant htake
  split at h
  · rename_i hhit
    unfold supersedeBinLedger at h
    split at h
    · cases h
      have hclaim := claimed_set (v := some childID) (w₁.takeClaim_id binID childID parentID) hhit
        (fun _ h => (takeable_iff.mp h).1) (fun b => by unfold takeClaim; split <;> rfl)
      obtain ⟨b, hb, hc⟩ := any_eq_true.mp hhit
      refine ⟨⟨b, hplant ▸ hb, htake b ▸ hc⟩, rfl, ?_, ?_, ?_⟩
      · intro id o
        refine (hclaim id o).trans ?_
        unfold Claimed
        rw [hplant]
        simp
      · show (w₁.plant.supersede childID binID).reservations = _
        rw [hplant]
      · show w₁.plant.nodes = _
        rw [hplant]
    · cases h
  · cases h

theorem LedgerInv.claimForChild (hi : LedgerInv w)
    (hchild : parentID = 0 ∨ w.isChildOf parentID childID = true)
    (h : w.claimForChild binID childID parentID = .ok w') : KeepsInv [binID] [childID] w w' := by
  obtain ⟨⟨b, hb, hc⟩, ho, hclaim, hrow, -⟩ := claimForChild_ok h
  obtain ⟨hid, hfree⟩ := takeable_iff.mp hc
  have hscope : ∀ p, w.Claimed binID p → p = parentID ∨ w.isChildOf parentID p = true := by
    rintro p ⟨b', hb', hid', hp⟩
    obtain rfl := bin_eq hb' hb (hid'.trans hid.symm)
    exact hfree p hp
  have hgrow : w.Grows w' := (w.grows_stealSoftHold binID childID parentID).trans (.of_orders ho)
  refine hi.setBin binID (some childID) hgrow ?_ ?_ ?_
  · intro id p
    rw [hclaim, Option.some_inj]
  · intro r
    rw [hrow, Plant.mem_supersede]
    simp
  · intro r hr ht
    by_cases hin : r.orderID = childID ∨ r.orderID = parentID ∨
        w.isChildOf parentID r.orderID = true
    · exact .inl ⟨childID, mem_cons_self,
        (sameCompound_of_scope hchild (w.reservedBy r hr) hin).mono hgrow⟩
    · simp only [not_or, Bool.not_eq_true] at hin
      obtain ⟨hnc, hnp, hns⟩ := hin
      -- 外の order の claim なら compare-and-set が外れていた
      have hpending : r.state = .pending := by
        cases hst : r.state with
        | pending => rfl
        | confirmed =>
          have hcl : w.Claimed binID r.orderID := (hi binID r.orderID).mpr (by
            rw [← ht, ← hst]; exact hr)
          rcases hscope _ hcl with he | he
          · exact absurd he hnp
          · rw [hns] at he
            cases he
      obtain ⟨o, hmemo, hoid, hob⟩ := stealSoftHold_drops hr ht hnc hnp hns
      exact .inr ⟨hpending, binID, mem_cons_self, ht, o, ho ▸ hmemo, hoid, hob⟩

theorem Ledger.createOrder_ok {o : OrderRow} (h : w.createOrder o = .ok w') :
    w'.plant = w.plant ∧ w'.orders = w.orders ++ [o] := by
  unfold createOrder at h
  split at h
  · cases h
  split at h
  · cases h
    exact ⟨rfl, rfl⟩
  · cases h

theorem LedgerInv.createOrder (hi : LedgerInv w) {o : OrderRow} (digs actors : List Nat)
    (h : w.createOrder o = .ok w') : KeepsInv digs actors w w' := by
  obtain ⟨hp, ho⟩ := createOrder_ok h
  refine hi.of_same digs actors ?_ (claimed_congr (by rw [hp])) ?_
  · intro o' ho'
    exact ⟨o', ho ▸ mem_append_left _ ho', rfl, rfl, .inl rfl⟩
  · intro r _ _
    rw [hp]

theorem LedgerInv.createCompoundChild (hi : LedgerInv w) {child : OrderRow}
    (h : w.createCompoundChild child = .ok w') : KeepsInv child.binID.toList [child.id] w w' := by
  unfold Ledger.createCompoundChild at h
  cases hc : w.createOrder child with
  | error e => rw [hc] at h; cases h
  | ok w₁ =>
    rw [hc] at h
    have h₁ := hi.createOrder child.binID.toList [child.id] hc
    cases hbin : child.binID with rw [hbin] at h h₁
    | none =>
      cases h
      exact h₁
    | some binID =>
      have hchild : child.parentOrderID.getD 0 = 0 ∨
          w₁.isChildOf (child.parentOrderID.getD 0) child.id = true := by
        cases hp : child.parentOrderID with
        | none => exact .inl rfl
        | some parentID =>
          refine .inr (isChildOf_iff.mpr ⟨child, ?_, rfl, hp⟩)
          rw [(createOrder_ok hc).2]
          exact mem_append_right _ mem_cons_self
      have h₂ := h₁.1.claimForChild hchild h
      exact ⟨h₂.1, h₁.2.trans h₂.2⟩

theorem LedgerInv.createCompoundChildren (hi : LedgerInv w) {children : List OrderRow}
    (h : w.createCompoundChildren children = .ok w') :
    KeepsInv (children.filterMap OrderRow.binID) (children.map OrderRow.id) w w' := by
  refine foldlM_ok_inv (P := KeepsInv _ _ w) ?_ h ⟨hi, .refl _ _ _⟩
  rintro child hmem v v' ⟨hv, hkeep⟩ hstep
  obtain ⟨hv', hkeep'⟩ := hv.createCompoundChild hstep
  refine ⟨hv', hkeep.trans (hkeep'.mono ?_ ?_)⟩
  · intro id hid
    exact mem_filterMap.mpr ⟨child, hmem, Option.mem_toList.mp hid⟩
  · intro id hid
    rw [mem_singleton.mp hid]
    exact mem_map_of_mem hmem

/-! ## 実行 -/

theorem LedgerInv.of_result (hi : LedgerInv w) {r : Except LedgerError Ledger}
    (h : ∀ v, r = .ok v → KeepsInv digs actors w v) : KeepsInv digs actors w (r.toOption.getD w) :=
  toOption_getD_of (P := KeepsInv digs actors w) ⟨hi, .refl _ _ _⟩ h

theorem LedgerInv.step (hi : LedgerInv w) (hok : LedgerStepOk w a) :
    KeepsInv a.digs a.actors w (ledgerStep w a) := by
  cases a with
  | reserveForDispatch binID orderID => exact hi.of_result fun _ h => hi.reserveForDispatch h
  | claimAndConfirm binID orderID uop => exact hi.of_result fun _ h => hi.claimAndConfirm h
  | createCompoundChildren children => exact hi.of_result fun _ h => hi.createCompoundChildren h
  | releaseClaimForBin binID orderID => exact hi.releaseClaimForBin hok
  | releaseClaimByOrder orderID => exact hi.releaseClaimByOrder orderID
  | terminalizeOrder orderID status => exact hi.terminalizeOrder orderID status
  | placeBin p =>
    show KeepsInv _ _ w (((w.placeBin p).toOption.map Prod.fst).getD w)
    cases h : w.placeBin p with
    | error e => exact ⟨hi, .refl _ _ _⟩
    | ok r =>
      exact hi.placeBin hok h

/-- **claim も予約も無い帳簿から始まり、条件を満たす動作だけの実行では、claim された bin の
予約はその order の confirmed 一つで、どの transaction も compound の外のものを消さない。** -/
theorem ledger_agrees (w : Ledger) (hclaims : ∀ b ∈ w.plant.bins, b.claimedBy = none)
    (hrows : w.plant.reservations = []) (as : List LedgerAction)
    (hok : AllSteps ledgerStep LedgerStepOk w as) :
    (∀ v ∈ visited ledgerStep w as, v.Backed) ∧ AllSteps ledgerStep KeepsForeign w as := by
  have hi := LedgerInv.of_vacant hclaims hrows
  have hstep : ∀ v a, LedgerInv v → LedgerStepOk v a → LedgerInv (ledgerStep v a) :=
    fun _ _ h ha => (h.step ha).1
  constructor
  · intro v hv
    exact (AllSteps.visited_of_inv hstep hi hok v hv).backed
  · exact AllSteps.of_inv hstep (fun _ _ h ha => (h.step ha).2.keepsForeign) hi hok

def yardBin : BinRow := ⟨7, some 1, .available, none, "", false⟩

def yard : Ledger where
  plant :=
    { nodes := [⟨1, "DEPTH_1", none, false, none, true, false⟩]
      bins := [yardBin]
      reservations := []
      nodeIDs := by decide
      binIDs := by decide
      binIDsPos := by decide
      binReserved := nodup_nil }
  orders := [⟨1, none, .sourcing, some 7⟩, ⟨2, none, .reshuffling, none⟩]
  orderIDs := by decide
  orderIDsPos := by decide
  parents := by simp
  reservedBy := forall_mem_nil _

theorem ledger_agrees_steal_and_retake :
    AllSteps ledgerStep LedgerStepOk yard
      [.reserveForDispatch 7 1, .createCompoundChildren [⟨3, some 2, .pending, some 7⟩],
        .placeBin ⟨7, 1, 3, true, true, false⟩, .reserveForDispatch 7 1,
        .claimAndConfirm 7 1 none, .releaseClaimForBin 7 1] ∧
    (∀ v ∈ visited ledgerStep yard
      [.reserveForDispatch 7 1, .createCompoundChildren [⟨3, some 2, .pending, some 7⟩],
        .placeBin ⟨7, 1, 3, true, true, false⟩, .reserveForDispatch 7 1,
        .claimAndConfirm 7 1 none, .releaseClaimForBin 7 1], v.Backed) := by
  refine ⟨?ok, (ledger_agrees yard (by decide) rfl _ ?ok).1⟩
  decide

/-- order 2 の `ReleaseClaimForBin` は、order 1 の claim を残して予約だけを消す。order 2 の
手渡しは、claim の無い bin の、order 1 の予約を消す。 -/
theorem foreign_rows_deleted :
    ¬ (runSteps ledgerStep yard [.reserveForDispatch 7 1, .claimAndConfirm 7 1 none,
      .releaseClaimForBin 7 2]).Backed ∧
    ¬ AllSteps ledgerStep KeepsForeign yard [.reserveForDispatch 7 1, .claimAndConfirm 7 1 none,
      .releaseClaimForBin 7 2] ∧
    ¬ AllSteps ledgerStep KeepsForeign yard [.reserveForDispatch 7 1,
      .placeBin ⟨7, 1, 2, true, true, false⟩] := by
  decide

end Shingo.Core
