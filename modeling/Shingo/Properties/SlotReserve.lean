import Shingo.Properties.Reserve
import Shingo.Infra.Run

/-!
# slot の予約は自分とぶつからないか

`reserveComplexSlots` は、始めに読んだ自分の row を先に当て、当たらない slot だけを取る。unique
index は node だけを鍵にするので、自分の row が在って当たらなければ、自分とぶつかる。
-/

namespace Shingo.Dispatch

open Core Infra List

def SlotsUnrivalled (w : Plant) (orderID : Nat) (needs : List SlotNeed) : Prop :=
  ∀ sn ∈ needs, ∀ node ∈ w.getNodeByDotName sn.nodeName, ∀ r ∈ w.reservations,
    r.target = .slot node.id → r.orderID = orderID
  deriving Decidable

/-- 置き先は互いに違う名前で、どれもその名前の node。 -/
structure SlotsNamed (w : Plant) (needs : List SlotNeed) : Prop where
  distinct : (needs.map SlotNeed.nodeName).Nodup
  named : ∀ sn ∈ needs, ∃ node ∈ w.getNodeByDotName sn.nodeName, node.name = sn.nodeName

/-- slot `sn` に当たる自分の row が在るか、その node を予約した row が無い。 -/
def SlotOpen (w : Plant) (st : SlotLoop) (sn : SlotNeed) : Prop :=
  st.held.any (slotMatches sn.nodeName) = true ∨
    ∀ node ∈ w.getNodeByDotName sn.nodeName, ∀ r ∈ st.plant.reservations,
      r.target ≠ .slot node.id

section

variable {isGroup : NodeRow → Bool} {w : Plant} {orderID : Nat} {needs : List SlotNeed}
  {steps : List ResolvedStep} {st : SlotLoop} {sn sn' : SlotNeed}

theorem slotNeeds_congr {v : Plant} (h : v.nodes = w.nodes) :
    slotNeeds isGroup v steps = slotNeeds isGroup w steps := by
  unfold slotNeeds isConcreteStorageDropoff Plant.getNode
  simp only [Plant.getNodeByDotName_congr h, h]

theorem nodeName_ne_blank (h : sn ∈ slotNeeds isGroup w steps) : sn.nodeName ≠ "" := by
  obtain ⟨⟨s, i⟩, -, hp⟩ := mem_filterMap.mp h
  simp only [Option.ite_none_left_eq_some, not_or] at hp
  obtain ⟨⟨-, hne⟩, -, heq⟩ := hp
  rw [← Option.some.inj heq]
  exact hne

theorem slotOpen_start (hun : SlotsUnrivalled w orderID (slotNeeds isGroup w steps))
    (hnamed : SlotsNamed w (slotNeeds isGroup w steps)) (hsn : sn ∈ slotNeeds isGroup w steps) :
    SlotOpen w (slotStart w orderID steps) sn := by
  obtain ⟨node, hnode, hname⟩ := hnamed.named sn hsn
  by_cases hrow : ∃ r ∈ w.reservations, r.target = .slot node.id
  · left
    obtain ⟨r, hr, ht⟩ := hrow
    refine any_eq_true.mpr ⟨resolveHeld w r, ?_, ?_⟩
    · refine mem_map_of_mem (mem_filter.mpr ⟨hr, ?_⟩)
      simpa using hun sn hsn node hnode r hr ht
    · have hget := Plant.getNode_of_mem (Plant.getNodeByDotName_spec hnode).1
      simp [resolveHeld, ht, slotMatches, nodeNameOf, hget, hname, nodeName_ne_blank hsn]
  · right
    intro node' hnode' r hr ht
    cases hnode.symm.trans hnode'
    exact hrow ⟨r, hr, ht⟩

/-- **slot を一つ済ませても行程は変わらず、名前の違う slot は当たるか空いているまま。** -/
theorem SlotOpen.step (orderID : Nat) (hw : st.plant.nodes = w.nodes)
    (hnode : ∃ node ∈ w.getNodeByDotName sn.nodeName, node.name = sn.nodeName)
    (hopen : SlotOpen w st sn) : (reserveSlotNeed orderID st sn).plant.nodes = w.nodes ∧
      (reserveSlotNeed orderID st sn).missing = st.missing ∧
      (reserveSlotNeed orderID st sn).steps = st.steps ∧
      ∀ sn', sn'.nodeName ≠ sn.nodeName →
        (∃ node ∈ w.getNodeByDotName sn'.nodeName, node.name = sn'.nodeName) →
        SlotOpen w st sn' → SlotOpen w (reserveSlotNeed orderID st sn) sn' := by
  obtain ⟨node, hnode, hname⟩ := hnode
  unfold reserveSlotNeed
  by_cases hheld : st.held.any (slotMatches sn.nodeName) = true
  · rw [if_pos hheld]
    refine ⟨hw, rfl, rfl, fun sn' hne _ hopen' => hopen'.imp ?_ id⟩
    -- 印を付けた row は、ほかの名前には当たらない
    have hother : ∀ hs, slotMatches sn.nodeName hs = true →
        slotMatches sn'.nodeName hs = false ∧
          slotMatches sn'.nodeName { hs with used := true } = false := by
      intro hs hm
      have hsname : hs.nodeName = sn.nodeName := by
        simp only [slotMatches, Bool.and_eq_true, beq_iff_eq] at hm
        exact hm.2
      simp [slotMatches, hsname, Ne.symm hne]
    have hsame := filter_modifyFirst_other hother st.held
    intro hany
    obtain ⟨hs, hmem, hm⟩ := any_eq_true.mp hany
    have hkept := hsame ▸ mem_filter.mpr ⟨hmem, hm⟩
    exact any_eq_true.mpr ⟨hs, (mem_filter.mp hkept).1, hm⟩
  · rw [if_neg hheld, Plant.getNodeByDotName_congr hw, hnode]
    have hfree := hopen.resolve_left hheld node hnode
    have hnone : ¬ (st.plant.reservations.any fun r => r.target == .slot node.id) = true := by
      intro hany
      obtain ⟨r, hr, ht⟩ := any_eq_true.mp hany
      exact hfree r hr (by simpa using ht)
    simp only [Plant.reserveSlot, if_neg hnone]
    refine ⟨hw, trivial, trivial, fun sn' hne hnode' hopen' => hopen'.imp id fun hrows => ?_⟩
    intro n hn r hr ht
    rcases mem_append_last.mp hr with hr | rfl
    · exact hrows n hn r hr ht
    · -- 足した row の node の名前は `sn` のもの
      obtain ⟨n', hn', hname'⟩ := hnode'
      cases hn.symm.trans hn'
      have hsame := inj_on_of_nodup_map w.nodeIDs (Plant.getNodeByDotName_spec hnode).1
        (Plant.getNodeByDotName_spec hn).1 (ReservationTarget.slot.inj ht)
      exact hne (hname'.symm.trans (hsame ▸ hname))

theorem SlotOpen.loop (orderID : Nat) (hnamed : SlotsNamed w needs) (hw : st.plant.nodes = w.nodes)
    (hopen : ∀ sn ∈ needs, SlotOpen w st sn) :
    (needs.foldl (reserveSlotNeed orderID) st).missing = st.missing ∧
      (needs.foldl (reserveSlotNeed orderID) st).steps = st.steps := by
  induction needs generalizing st with
  | nil => exact ⟨rfl, rfl⟩
  | cons sn rest ih =>
    have hdistinct := nodup_cons.mp hnamed.distinct
    obtain ⟨hnodes, hmissing, hsteps, hothers⟩ := SlotOpen.step orderID hw
      (hnamed.named sn mem_cons_self) (hopen sn mem_cons_self)
    have hrest := ih ⟨hdistinct.2, fun sn' h => hnamed.named sn' (mem_cons_of_mem _ h)⟩ hnodes
      fun sn' h => hothers sn' (fun he => hdistinct.1 (he ▸ mem_map_of_mem h))
        (hnamed.named sn' (mem_cons_of_mem _ h)) (hopen sn' (mem_cons_of_mem _ h))
    exact ⟨hrest.1.trans hmissing, hrest.2.trans hsteps⟩

/-! ## 呼び出しの後 -/

structure OwnRowsOnly (orderID : Nat) (w w' : Plant) : Prop where
  nodes : w'.nodes = w.nodes
  rows : ∀ r ∈ w'.reservations, r ∈ w.reservations ∨ r.orderID = orderID

theorem ownRowsOnly_need (h : OwnRowsOnly orderID w st.plant) (sn : SlotNeed) :
    OwnRowsOnly orderID w (reserveSlotNeed orderID st sn).plant := by
  unfold reserveSlotNeed
  split
  · exact h
  split
  · exact h
  split
  · exact h
  rename_i hreserve
  unfold Plant.reserveSlot at hreserve
  split at hreserve
  · cases hreserve
  · cases hreserve
    refine ⟨h.nodes, fun r hr => ?_⟩
    rcases mem_append_last.mp hr with hr | rfl
    · exact h.rows r hr
    · exact .inr rfl

theorem ownRowsOnly_stray {v : Plant} (h : OwnRowsOnly orderID w v) (hb : HeldReservation) :
    OwnRowsOnly orderID w (releaseStraySlot orderID v hb) := by
  unfold releaseStraySlot
  split
  · exact h
  · exact ⟨h.nodes, fun r hr => h.rows r (mem_of_mem_filter hr)⟩

theorem ownRowsOnly_call (isGroup : NodeRow → Bool) (w : Plant) (orderID : Nat)
    (steps : List ResolvedStep) :
    OwnRowsOnly orderID w (reserveComplexSlots isGroup w orderID steps).plant := by
  refine List.foldlRecOn _ _ ?_ fun v hv hb _ => ownRowsOnly_stray hv hb
  exact List.foldlRecOn (motive := fun st : SlotLoop => OwnRowsOnly orderID w st.plant) _ _
    ⟨rfl, fun r hr => .inl hr⟩ fun st hst sn _ => ownRowsOnly_need hst sn

end

/-- **ほかの order が置き先を予約していなければ、slot は何度呼んでも揃う。** -/
theorem slots_complete (isGroup : NodeRow → Bool) (w : Plant) (orderID : Nat)
    (steps : List ResolvedStep) (hun : SlotsUnrivalled w orderID (slotNeeds isGroup w steps))
    (hnamed : SlotsNamed w (slotNeeds isGroup w steps)) (calls : Nat) :
    ∀ v ∈ visited (fun v (_ : Unit) => (reserveComplexSlots isGroup v orderID steps).plant) w
        (List.replicate calls ()),
      (reserveComplexSlots isGroup v orderID steps).outcome = .reserveComplete ∧
        (reserveComplexSlots isGroup v orderID steps).steps = steps := by
  have hinv : ∀ v ∈ visited
      (fun v (_ : Unit) => (reserveComplexSlots isGroup v orderID steps).plant) w
      (List.replicate calls ()), OwnRowsOnly orderID w v := by
    refine visited_of_inv (fun v _ hv => ?_) ⟨rfl, fun r hr => .inl hr⟩
    have hcall := ownRowsOnly_call isGroup v orderID steps
    exact ⟨hcall.nodes.trans hv.nodes, fun r hr => (hcall.rows r hr).elim (hv.rows r) .inr⟩
  intro v hv
  have hown := hinv v hv
  have hneeds : slotNeeds isGroup v steps = slotNeeds isGroup w steps := slotNeeds_congr hown.nodes
  have hun' : SlotsUnrivalled v orderID (slotNeeds isGroup v steps) := by
    intro sn hsn node hnode r hr ht
    rw [hneeds] at hsn
    rw [Plant.getNodeByDotName_congr hown.nodes] at hnode
    exact (hown.rows r hr).elim (fun hr => hun sn hsn node hnode r hr ht) id
  have hnamed' : SlotsNamed v (slotNeeds isGroup v steps) := by
    rw [hneeds]
    refine ⟨hnamed.distinct, fun sn hsn => ?_⟩
    rw [Plant.getNodeByDotName_congr hown.nodes]
    exact hnamed.named sn hsn
  have hopen : ∀ sn ∈ slotNeeds isGroup v steps, SlotOpen v (slotStart v orderID steps) sn :=
    fun sn hsn => slotOpen_start hun' hnamed' hsn
  have hend := SlotOpen.loop orderID hnamed' rfl hopen
  exact ⟨if_pos hend.1, hend.2⟩

def slotSite : Plant where
  nodes := [⟨1, "LANE", none, true, none, true, true⟩,
    ⟨2, "SLOT", some 1, false, some 1, true, false⟩, ⟨3, "STAGE", none, false, none, true, false⟩]
  bins := []
  reservations := [⟨5, .slot 2, .pending⟩]
  nodeIDs := by decide
  binIDs := nodup_nil
  binIDsPos := by simp
  binReserved := nodup_nil

def stageThenSlot : List ResolvedStep :=
  [{ action := .dropoff, node := "STAGE", exclusiveSlot := true },
   { action := .pickup, node := "STAGE" }, { action := .dropoff, node := "SLOT" }]

theorem slots_complete_stageThenSlot :
    SlotsUnrivalled slotSite 5 (slotNeeds (fun _ => false) slotSite stageThenSlot) ∧
    ∀ v ∈ visited
        (fun v (_ : Unit) => (reserveComplexSlots (fun _ => false) v 5 stageThenSlot).plant)
        slotSite (List.replicate 3 ()),
      (reserveComplexSlots (fun _ => false) v 5 stageThenSlot).outcome = .reserveComplete ∧
        (reserveComplexSlots (fun _ => false) v 5 stageThenSlot).steps = stageThenSlot := by
  refine ⟨?unrivalled, slots_complete (fun _ => false) slotSite 5 stageThenSlot ?unrivalled ?_ 3⟩
  · decide +kernel
  constructor
  · decide +kernel
  · decide +kernel

def slotOutcomes (steps : List ResolvedStep) (calls : Nat) : List ReserveOutcome :=
  (visited (fun v (_ : Unit) => (reserveComplexSlots (fun _ => false) v 5 steps).plant) slotSite
    (List.replicate calls ())).map fun v =>
      (reserveComplexSlots (fun _ => false) v 5 steps).outcome

def slotTwice : List ResolvedStep :=
  [{ action := .dropoff, node := "SLOT" }, { action := .pickup, node := "SLOT" },
   { action := .dropoff, node := "SLOT" }]

def slotByPath : List ResolvedStep := [{ action := .dropoff, node := "LANE.SLOT" }]

/--
ほかの order の row は無いのに揃わない。

* 同じ slot に二度置く行程は、二度目の分が自分の row とぶつかり、いつまでも待つ
* 親から辿った名前は、自分の row に当たらない。ぶつかって待ち、row を外すので、次は揃う
-/
theorem slots_conflict_with_self :
    (∀ r ∈ slotSite.reservations, r.orderID = 5) ∧
    slotOutcomes slotTwice 2 = [.reserveHolding, .reserveHolding, .reserveHolding] ∧
    slotOutcomes slotByPath 2 = [.reserveHolding, .reserveComplete, .reserveHolding] := by
  decide +kernel

end Shingo.Dispatch
