import Shingo.Properties.Reserve

/-!
# 予約の表は配った bin と合うか

`reserveComplexPlan` が返すとき、order の bin の予約は配った bin とちょうど同じか。ほかの order は
呼び出しのどの間でも動いてよい（`Meanwhile`）。

配った bin と、まだ当たっていない手持ちの bin を合わせたもの（`pool`）は、いつも order の予約の
全部。手持ちが当たれば `pool` の中で移り、新しく取れば一つ増え、最後に当たらなかった分が
消える。
-/

namespace Shingo.Dispatch

open Core Infra List ReserveLoop

def Holds (w : Plant) (orderID binID : Nat) : Prop :=
  ∃ r ∈ w.reservations, r.orderID = orderID ∧ r.target = .bin binID
  deriving Decidable

/-- まだ当たっていない手持ちの bin。mouth と occupancy の row は 0 と読まれる。 -/
def spare (hb : HeldReservation) : Bool := !hb.used && !hb.slot

def spares (held : List HeldReservation) : List Nat :=
  (held.filter spare).map HeldReservation.binID

def ReserveLoop.pool (st : ReserveLoop) : List Nat :=
  st.assigned.map ReservedPickup.binID ++ spares st.held

/-- `w₀` は呼び出しの始めの plant。order の予約は、始めの予約と配った bin。 -/
structure PoolInv (w₀ : Plant) (orderID : Nat) (st : ReserveLoop) : Prop where
  once : ∀ b, b ≠ 0 → st.pool.count b ≤ 1
  rows : ∀ b, Holds st.plant orderID b → b ∈ st.pool
  backed : ∀ b ∈ st.pool, b ≠ 0 → Holds st.plant orderID b
  real : ∀ a ∈ st.assigned, a.binID ≠ 0
  named : ∀ hb ∈ st.held, hb.nodeName ≠ "" → hb.slot = false → hb.binID ≠ 0
  grown : ∀ b, Holds st.plant orderID b ↔
    Holds w₀ orderID b ∨ b ∈ st.assigned.map ReservedPickup.binID

section

variable {w w₀ : Plant} {orderID : Nat} {st : ReserveLoop}

theorem Rivals.holds (r : Rivals orderID) (b : Nat) :
    Holds (r.act w) orderID b ↔ Holds w orderID b := by
  constructor
  · rintro ⟨row, hrow, ho, ht⟩
    exact ⟨row, (r.own w row ho).mp hrow, ho, ht⟩
  · rintro ⟨row, hrow, ho, ht⟩
    exact ⟨row, (r.own w row ho).mpr hrow, ho, ht⟩

theorem PoolInv.amid (h : PoolInv w₀ orderID st) (r : Rivals orderID) :
    PoolInv w₀ orderID { st with plant := r.act st.plant } :=
  ⟨h.once, fun b hb => h.rows b ((r.holds b).mp hb),
    fun b hb hne => (r.holds b).mpr (h.backed b hb hne), h.real, h.named,
    fun b => (r.holds b).trans (h.grown b)⟩

/-! ## 始め -/

theorem binID_resolveHeld (w : Plant) (r : Reservation) :
    (resolveHeld w r).used = false ∧ (resolveHeld w r).binID = r.target.binID?.getD 0 ∧
      ((resolveHeld w r).slot = true ↔ ∃ n, r.target = .slot n) := by
  have hbin : ∀ b c, (resolveHeldBin w b c).used = false ∧ (resolveHeldBin w b c).binID = b ∧
      (resolveHeldBin w b c).slot = false := by
    intro b c
    unfold resolveHeldBin
    split
    · exact ⟨rfl, rfl, rfl⟩
    · split <;> exact ⟨rfl, rfl, rfl⟩
  cases ht : r.target <;> simp [resolveHeld, ht, hbin, ReservationTarget.binID?]

variable {hb : HeldReservation} {b : Nat}

theorem spares_resolveHeld (rows : List Reservation) (hb : b ≠ 0) :
    (spares (resolveHeldReservations w rows)).count b = (reservedBins rows).count b := by
  induction rows with
  | nil => rfl
  | cons r rest ih =>
    obtain ⟨hused, hid, hslot⟩ := binID_resolveHeld w r
    unfold spares resolveHeldReservations reservedBins at ih ⊢
    cases ht : r.target <;>
      simp_all [spare, ReservationTarget.binID?, count_cons, Ne.symm hb]

theorem holds_iff_mem_reservedBins :
    Holds w orderID b ↔ b ∈ reservedBins (w.listReservationsByOrder orderID) := by
  rw [Plant.mem_reservedBins_iff]
  unfold Holds Plant.listReservationsByOrder
  simp [mem_filter, and_assoc]

theorem PoolInv.start (w : Plant) (order : Order) : PoolInv w order.id (reserveStart w order) := by
  have hpool : (reserveStart w order).pool =
      spares (resolveHeldReservations w (w.listReservationsByOrder order.id)) := rfl
  have hnodup : (reservedBins (w.listReservationsByOrder order.id)).Nodup :=
    Plant.reservedBins_filter _ w.binReserved
  refine ⟨?_, ?_, ?_, forall_mem_nil _, ?_, fun b => by simp [reserveStart]⟩
  · intro b hb
    rw [hpool, spares_resolveHeld _ hb]
    exact nodup_iff_count_le_one.mp hnodup b
  · rintro b ⟨r, hr, ho, ht⟩
    obtain ⟨hused, hid, hslot⟩ := binID_resolveHeld w r
    refine mem_map.mpr ⟨resolveHeld w r, mem_filter.mpr ⟨?_, ?_⟩, ?_⟩
    · exact mem_map_of_mem (mem_filter.mpr ⟨hr, by simpa using ho⟩)
    · have hnot : (resolveHeld w r).slot = false := by
        rw [← Bool.not_eq_true, hslot]
        simp [ht]
      simp [spare, hused, hnot]
    · rw [hid, ht]
      rfl
  · intro b hb hne
    rw [hpool, ← count_pos_iff, spares_resolveHeld _ hne, count_pos_iff] at hb
    exact holds_iff_mem_reservedBins.mpr hb
  · intro hb hmem hname hslot
    obtain ⟨r, -, rfl⟩ := mem_map.mp hmem
    have hreal : ∀ b c, (resolveHeldBin w b c).nodeName ≠ "" → b ≠ 0 := by
      rintro b c hn rfl
      simp [resolveHeldBin, Plant.getBin_zero] at hn
    cases ht : r.target with simp only [resolveHeld, ht] at hname
    | bin b =>
      rw [(binID_resolveHeld w r).2.1, ht]
      exact hreal b _ hname
    | slot n => simp [resolveHeld, ht] at hslot
    | mouth n =>
      exact absurd rfl (hreal 0 _ hname)
    | occupancy n =>
      exact absurd rfl (hreal 0 _ hname)

/-! ## pickup 一つ -/

theorem PoolInv.use (h : PoolInv w₀ orderID st) {pk : PickupNeed}
    (hfind : matchHeldToNeed st.held pk.step = some hb) :
    PoolInv w₀ orderID
      ({ st with held := useHeld pk.step st.held }.assign pk hb.binID hb.confirmed) := by
  have hmatch := heldMatches_iff.mp (List.find?_some hfind)
  have hspare : ∀ a, heldMatches pk.step a = true →
      spare a = true ∧ spare { a with used := true } = false := by
    intro a ha
    have ha := heldMatches_iff.mp ha
    simp [spare, ha.1, ha.2.1]
  have hperm : (pool ({ st with held := useHeld pk.step st.held }.assign pk hb.binID
      hb.confirmed)).Perm st.pool := by
    have hmoved := (perm_filter_modifyFirst hspare hfind).map HeldReservation.binID
    simp only [pool, assign, map_append, map_cons, map_nil,
      append_assoc]
    exact List.Perm.append_left _ hmoved.symm
  have hreal := h.named hb (mem_of_find?_eq_some hfind) hmatch.2.2.1 hmatch.2.1
  refine ⟨?_, ?_, ?_, ?_, ?_, ?_⟩
  · exact fun b hne => hperm.count_eq b ▸ h.once b hne
  · exact fun b hb => hperm.mem_iff.mpr (h.rows b hb)
  · exact fun b hb => h.backed b (hperm.mem_iff.mp hb)
  · intro a ha
    rcases mem_append.mp ha with ha | ha
    · exact h.real a ha
    · rw [mem_singleton.mp ha]
      exact hreal
  · intro a ha
    rcases mem_modifyFirst ha with ha | ⟨a', ha', -, rfl⟩
    · exact h.named a ha
    · exact h.named a' ha'
  · -- 手持ちの bin は、配る前から予約してある
    intro b
    have hheld : Holds st.plant orderID hb.binID := by
      refine h.backed _ (hperm.mem_iff.mp (mem_append_left _ ?_)) hreal
      simp [assign]
    simp only [assign, map_append, map_cons, map_nil, mem_append, mem_singleton]
    rw [← or_assoc, ← h.grown b]
    exact ⟨.inl, fun hb => hb.elim id fun hb => hb ▸ hheld⟩

theorem PoolInv.take (h : PoolInv w₀ orderID st) {pk : PickupNeed} {binID : Nat} (hne : binID ≠ 0)
    {plant : Plant} (htake : st.plant.reserveForDispatch binID orderID = some plant) :
    PoolInv w₀ orderID ({ st with plant }.assign pk binID false) := by
  obtain ⟨hfree, hrows⟩ : binID ∉ reservedBins st.plant.reservations ∧
      plant.reservations = st.plant.reservations ++ [⟨orderID, .bin binID, .pending⟩] := by
    unfold Plant.reserveForDispatch at htake
    split at htake
    · cases htake
    rename_i hfree
    cases htake
    exact ⟨hfree, rfl⟩
  have hnew : binID ∉ st.pool := by
    intro hmem
    obtain ⟨r, hr, -, ht⟩ := h.backed binID hmem hne
    exact hfree (Plant.mem_reservedBins_iff.mpr ⟨r, hr, ht⟩)
  have hperm : (pool ({ st with plant }.assign pk binID false)).Perm
      (binID :: st.pool) := by
    simp only [pool, assign, map_append, map_cons, map_nil,
      append_assoc]
    exact perm_middle
  have hholds : ∀ b, Holds plant orderID b ↔ Holds st.plant orderID b ∨ b = binID := by
    intro b
    unfold Holds
    simp only [hrows, mem_append, mem_singleton]
    constructor
    · rintro ⟨r, hr | rfl, ho, ht⟩
      · exact .inl ⟨r, hr, ho, ht⟩
      · exact .inr (ReservationTarget.bin.inj ht).symm
    · rintro (⟨r, hr, ho, ht⟩ | rfl)
      · exact ⟨r, .inl hr, ho, ht⟩
      · exact ⟨_, .inr rfl, rfl, rfl⟩
  refine ⟨?_, ?_, ?_, ?_, h.named, ?_⟩
  · intro b hb
    rw [hperm.count_eq b, count_cons]
    by_cases hbin : binID = b
    · rw [← hbin, count_eq_zero.mpr hnew]
      simp
    · simpa [hbin] using h.once b hb
  · intro b hb
    rw [hperm.mem_iff]
    rcases (hholds b).mp hb with hb | rfl
    · exact mem_cons_of_mem _ (h.rows b hb)
    · exact mem_cons_self
  · intro b hb hb0
    rw [hperm.mem_iff] at hb
    refine (hholds b).mpr ?_
    rcases mem_cons.mp hb with rfl | hb
    · exact .inr rfl
    · exact .inl (h.backed b hb hb0)
  · intro a ha
    rcases mem_append.mp ha with ha | ha
    · exact h.real a ha
    · rw [mem_singleton.mp ha]
      exact hne
  · intro b
    simp only [assign, map_append, map_cons, map_nil, mem_append, mem_singleton]
    rw [hholds b, h.grown b, or_assoc]

/-- **pickup 一つの前後で、`pool` は order の予約の全部。** -/
theorem PoolInv.need {order : Order} (h : PoolInv w₀ order.id st) (m : Meanwhile order.id)
    (pk : PickupNeed) : PoolInv w₀ order.id (reserveNeedAmid order m st pk) := by
  have h := h.amid (m.before pk.stepIndex)
  unfold reserveNeedAmid
  generalize { st with plant := (m.before pk.stepIndex).act st.plant } = st at h ⊢
  dsimp only
  split
  · next hb hfind => exact h.use hfind
  split
  · split
    · exact h
    · exact ⟨h.once, h.rows, h.backed, h.real, h.named, h.grown⟩
  · next bin _ hfound =>
    have hreal : bin.id ≠ 0 := by
      unfold findAvailableForNeed at hfound
      split at hfound
      · cases hfound
      · have hmem := mem_needCandidates (mem_of_find?_eq_some (congrArg Prod.fst hfound))
        exact st.plant.binIDsPos bin (Plant.mem_listBinsByNode hmem).1
    have h := h.amid (m.between pk.stepIndex)
    split
    · exact ⟨h.once, h.rows, h.backed, h.real, h.named, h.grown⟩
    · next htake => exact h.take hreal htake

/-! ## 外す -/

theorem holds_releaseStray : Holds (releaseStray orderID w hb) orderID b ↔
      Holds w orderID b ∧ ¬ (spare hb = true ∧ hb.binID = b) := by
  unfold releaseStray Holds spare
  cases hb.used <;> cases hb.slot <;> cases hb.confirmed <;>
    simp [Plant.releaseClaimForBin, Plant.releaseReservation, mem_filter] <;> grind

theorem holds_releaseStrayAmid (m : Meanwhile orderID) :
    Holds (releaseStrayAmid orderID m w hb) orderID b ↔
      Holds w orderID b ∧ ¬ (m.releaseOk b = true ∧ spare hb = true ∧ hb.binID = b) := by
  unfold releaseStrayAmid
  split
  · next hok =>
    rw [holds_releaseStray, Rivals.holds]
    grind
  · rw [Rivals.holds]
    grind

theorem holds_foldl_releaseStrayAmid (m : Meanwhile orderID) (held : List HeldReservation) :
    Holds (held.foldl (releaseStrayAmid orderID m) w) orderID b ↔
      Holds w orderID b ∧ ¬ (m.releaseOk b = true ∧ b ∈ spares held) := by
  induction held generalizing w with
  | nil => simp [spares]
  | cons hb rest ih =>
    rw [foldl_cons, ih, holds_releaseStrayAmid]
    simp only [spares, filter_cons]
    cases hs : spare hb <;> simp; grind

end

/--
**配った bin は互いに違い、ほかの order の予約は無い。**

order の bin の予約は、配った bin と、始めから持っていて外すのに失敗した bin。
-/
theorem reserved_are_assigned (w : Plant) (order : Order) (m : Meanwhile order.id)
    (steps : List ResolvedStep) :
    ((reserveComplexPlanAmid w order m steps).assigned.map ReservedPickup.binID).Nodup ∧
    (∀ a ∈ (reserveComplexPlanAmid w order m steps).assigned,
      Holds (reserveComplexPlanAmid w order m steps).plant order.id a.binID ∧
      ∀ r ∈ (reserveComplexPlanAmid w order m steps).plant.reservations,
        r.target = .bin a.binID → r.orderID = order.id) ∧
    ∀ b, Holds (reserveComplexPlanAmid w order m steps).plant order.id b ↔
      b ∈ (reserveComplexPlanAmid w order m steps).assigned.map ReservedPickup.binID ∨
        Holds w order.id b ∧ m.releaseOk b = false := by
  have hinv : PoolInv w order.id
      ((complexPickups steps).foldl (reserveNeedAmid order m) (reserveStart w order)) :=
    List.foldlRecOn _ _ (.start w order) fun _ h pk _ => h.need m pk
  unfold reserveComplexPlanAmid
  generalize (complexPickups steps).foldl (reserveNeedAmid order m) (reserveStart w order) = st
    at hinv ⊢
  dsimp only
  have hassigned : ∀ b ∈ st.assigned.map ReservedPickup.binID,
      Holds (st.held.foldl (releaseStrayAmid order.id m) st.plant) order.id b := by
    intro b hmem
    obtain ⟨a, ha, rfl⟩ := mem_map.mp hmem
    refine (holds_foldl_releaseStrayAmid m st.held).mpr
      ⟨hinv.backed a.binID (mem_append_left _ hmem) (hinv.real a ha), ?_⟩
    -- 配った bin は `pool` に一つなので、手持ちの残りには無い
    rintro ⟨-, hspare⟩
    have honce := hinv.once a.binID (hinv.real a ha)
    rw [pool, count_append] at honce
    have hleft := count_pos_iff.mpr hmem
    have hright := count_pos_iff.mpr hspare
    omega
  refine ⟨?_, ?_, fun b => ⟨fun hb => ?_, fun hb => ?_⟩⟩
  · refine nodup_iff_count_le_one.mpr fun b => ?_
    by_cases hb : b ∈ st.assigned.map ReservedPickup.binID
    · obtain ⟨a, ha, rfl⟩ := mem_map.mp hb
      have honce := hinv.once a.binID (hinv.real a ha)
      rw [pool, count_append] at honce
      omega
    · rw [count_eq_zero.mpr hb]
      omega
  · intro a ha
    have hholds := hassigned a.binID (mem_map_of_mem ha)
    refine ⟨hholds, fun r hr ht => ?_⟩
    obtain ⟨r', hr', ho, ht'⟩ := hholds
    rw [Plant.eq_of_target hr hr' ht ht', ho]
  · obtain ⟨hholds, hnot⟩ := (holds_foldl_releaseStrayAmid m st.held).mp hb
    rcases (hinv.grown b).mp hholds with hw | hmem
    · refine (mem_append.mp (hinv.rows b hholds)).imp_right fun hspare => ⟨hw, ?_⟩
      exact Bool.eq_false_iff.mpr fun hok => hnot ⟨hok, hspare⟩
    · exact .inl hmem
  · rcases hb with hmem | ⟨hw, hok⟩
    · exact hassigned b hmem
    · refine (holds_foldl_releaseStrayAmid m st.held).mpr ⟨(hinv.grown b).mpr (.inl hw), ?_⟩
      simp [hok]

def strayHeld : Plant where
  nodes := [⟨1, "SUPPLY", none, false, none, true, false⟩,
    ⟨2, "OLD", none, false, none, true, false⟩]
  bins := [⟨7, some 1, .available, none, "P", false⟩, ⟨8, some 2, .available, none, "P", false⟩]
  reservations := [⟨5, .bin 8, .pending⟩]
  nodeIDs := by decide
  binIDs := by decide
  binIDsPos := by decide
  binReserved := nodup_singleton 8

def fetchSupply : List ResolvedStep := [{ action := .pickup, node := "SUPPLY" }]

/-- 外すのに失敗した bin 8 は予約されたまま残り、配られてはいない。 -/
theorem stray_release_lost :
    (let m : Meanwhile 5 := { Meanwhile.quiet 5 with releaseOk := fun _ => false }
      let result := reserveComplexPlanAmid strayHeld { id := 5, status := .sourcing } m fetchSupply
      result.outcome = .reserveComplete ∧ Holds result.plant 5 8 ∧
        8 ∉ result.assigned.map ReservedPickup.binID) := by
  decide +kernel

end Shingo.Dispatch
