import Shingo.Dispatch.LaneHold
import Shingo.Properties.MouthExclusion

/-!
# lane に置きに行く order の口

lane の中へ置きに行く order が、その lane の口を inbound で取るか。
取った row を、ほかの動作が消さないか。
-/

namespace Shingo.Dispatch

open Core Infra List

/-! ## lane の場所 -/

/--
lane と、それが立っている node の表。

`nodes.name` は UNIQUE で、点は `PARENT.CHILD` の区切りにだけ使う。
-/
structure LaneSite extends LaneMap where
  row : NodeRow
  mem : row ∈ plant.nodes
  namesNodup : (plant.nodes.map NodeRow.name).Nodup
  dotless : ∀ n ∈ plant.nodes, '.' ∉ n.name.toList

variable {name : String} {l : Nat}

namespace LaneSite

variable (site : LaneSite)

def slotRows : List NodeRow := site.plant.listLaneSlots site.row.id

variable {n : NodeRow}

theorem mem_slotRows :
    n ∈ site.slotRows ↔ n ∈ site.plant.nodes ∧ n.parentID = some site.row.id := by
  simp [slotRows, Plant.listLaneSlots]

def lane : Lane where
  id := site.row.id
  name := site.row.name
  slots := site.slotRows.map fun n => ⟨n.id, n.name, n.depth⟩
  namesNodup := by
    rw [map_map]
    have hperm := perm_insertionSort (fun a b : NodeRow => a.depth.getD 0 ≤ b.depth.getD 0)
      (site.plant.nodes.filter (·.parentID == some site.row.id))
    refine (hperm.map NodeRow.name).nodup_iff.mpr ?_
    exact site.namesNodup.sublist (filter_sublist.map _)
  namesPlain := by
    intro s hs t _ he
    obtain ⟨n, hn, rfl⟩ := mem_map.mp hs
    refine site.dotless n ((site.mem_slotRows).mp hn).1 ?_
    have : n.name = site.row.name ++ "." ++ t.name := he
    rw [this]
    simp

def inside (name : String) : Bool := site.laneOf name == some site.row

theorem eq_row_of_id (hn : n ∈ site.plant.nodes) (h : n.id = site.row.id) :
    n = site.row := inj_on_of_nodup_map site.plant.nodeIDs hn site.mem h

theorem laneOf_mem {l : NodeRow} (h : site.laneOf name = some l) : l ∈ site.plant.nodes := by
  obtain ⟨n, -, hl⟩ := Option.bind_eq_some_iff.mp h
  exact (Plant.laneForNode_spec hl).2

theorem laneOf_ne {l : NodeRow} (h : site.laneOf name = some l) (hout : site.inside name = false) :
    l.id ≠ site.row.id := by
  intro he
  rw [site.eq_row_of_id (site.laneOf_mem h) he] at h
  simp [inside, h] at hout

end LaneSite

theorem toList_eq_of_dropWhile {c : Char} {child : List Char}
    (h : name.toList.dropWhile (· != '.') = c :: child) :
    name.toList = name.toList.takeWhile (· != '.') ++ '.' :: child := by
  have hc : c = '.' := by
    have hne : name.toList.dropWhile (· != '.') ≠ [] := by simp [h]
    have hhead := head_dropWhile_not (· != '.') hne
    simpa [h] using hhead
  conv_lhs => rw [← takeWhile_append_dropWhile (p := (· != '.')) (l := name.toList), h, hc]

/-- **lane の中を指す名前は、slot の名前か `LANE.SLOT` 形。** -/
theorem LaneSite.inside_names (site : LaneSite) (h : site.inside name = true) :
    ∃ s ∈ site.lane.slots, name = s.name ∨ name = site.lane.dotName s := by
  have hlane : site.laneOf name = some site.row := by simpa [LaneSite.inside] using h
  obtain ⟨n, hn, hl⟩ := Option.bind_eq_some_iff.mp hlane
  have hparent := (Plant.laneForNode_spec hl).1
  have hslot : ∀ hmem : n ∈ site.plant.nodes, (⟨n.id, n.name, n.depth⟩ : Slot) ∈ site.lane.slots :=
    fun hmem => mem_map_of_mem (site.mem_slotRows.mpr ⟨hmem, hparent⟩)
  unfold Plant.getNodeByDotName at hn
  split at hn
  · refine ⟨_, hslot (mem_of_find?_eq_some hn), .inl ?_⟩
    have hname := List.find?_some hn
    simp only [beq_iff_eq] at hname
    exact hname.symm
  · rename_i c child hdrop
    refine ⟨_, hslot (mem_of_find?_eq_some hn), .inr ?_⟩
    have hname := List.find?_some hn
    simp only [Bool.and_eq_true, beq_iff_eq, any_eq_true] at hname
    obtain ⟨hchild, p, hp, hpname, hpid⟩ := hname
    -- 親は表の lane そのもの
    have hid : p.id = site.row.id := by
      rw [hparent] at hpid
      exact (Option.some.inj hpid).symm
    rw [site.eq_row_of_id hp hid] at hpname
    apply String.toList_inj.mp
    show name.toList = (site.row.name ++ "." ++ n.name).toList
    rw [toList_eq_of_dropWhile hdrop, hchild, hpname]
    simp

/-! ## 要る口 -/

def OnlyInbound (holds : List LaneHold) (laneID : Nat) : Prop :=
  ∀ h ∈ holds, h.laneID = laneID → h.mode = .inbound

variable {holds : List LaneHold} {laneID orderID owner : Nat} {t : MouthTable} {mode : Mode}
  {reservedBy : String}

theorem OnlyInbound.strengthen (hh : OnlyInbound holds laneID) (hm : l = laneID → mode = .inbound) :
    OnlyInbound (strengthen holds l mode) laneID := by
  unfold Dispatch.strengthen
  split
  · rintro h hmem hl
    obtain ⟨h', hh', rfl⟩ := mem_map.mp hmem
    by_cases hc : h'.laneID = l ∧ mode = .dig
    · rw [if_pos hc] at hl
      have hi := hm (hc.1.symm.trans hl)
      rw [hc.2] at hi
      cases hi
    · rw [if_neg hc] at hl ⊢
      exact hh h' hh' hl
  · rintro h hmem hl
    rcases mem_append_last.mp hmem with hold | rfl
    · exact hh h hold hl
    · exact hm hl

theorem mem_strengthen_of_mem (hmem : ⟨laneID, .inbound⟩ ∈ holds)
    (hm : l = laneID → mode = .inbound) : ⟨laneID, .inbound⟩ ∈ strengthen holds l mode := by
  unfold strengthen
  split
  · refine mem_map.mpr ⟨_, hmem, if_neg ?_⟩
    rintro ⟨hl, hd⟩
    rw [hm hl.symm] at hd
    cases hd
  · exact mem_append_left _ hmem

theorem mem_strengthen_self (hh : OnlyInbound holds laneID) :
    ⟨laneID, .inbound⟩ ∈ strengthen holds laneID .inbound := by
  by_cases hany : holds.any (·.laneID == laneID) = true
  · obtain ⟨h, hmem, hl⟩ := any_eq_true.mp hany
    have hl : h.laneID = laneID := by simpa using hl
    have hmode : h.mode = .inbound := hh h hmem hl
    obtain rfl : h = ⟨laneID, .inbound⟩ := by rw [← hl, ← hmode]
    exact mem_strengthen_of_mem hmem fun _ => rfl
  · unfold strengthen
    rw [if_neg hany]
    exact mem_append_right _ (mem_singleton_self _)

section Holds

variable {site : LaneSite}

/-- **plain の order は、置き先の lane を inbound で取る。** -/
theorem plain_holds {source dest : String} (hgroup : site.row.parentID.isNone = false)
    (hdest : site.inside dest = true) (hsource : site.inside source = false) :
    ⟨site.row.id, .inbound⟩ ∈ site.resolveOrderLaneHolds source dest ∧
      OnlyInbound (site.resolveOrderLaneHolds source dest) site.row.id := by
  have hlane : site.laneOf dest = some site.row := by simpa [LaneSite.inside] using hdest
  have hfirst : OnlyInbound (site.addHold [] source .dig) site.row.id := by
    unfold LaneMap.addHold
    cases hs : site.laneOf source with
    | none => rintro h hmem; cases hmem
    | some l =>
      dsimp only
      split
      · rintro h hmem; cases hmem
      · refine OnlyInbound.strengthen (by rintro h hmem; cases hmem) fun he => ?_
        exact absurd he (site.laneOf_ne hs hsource)
  unfold LaneMap.resolveOrderLaneHolds
  rw [LaneMap.addHold, hlane]
  dsimp only
  rw [if_neg (by simp [hgroup])]
  exact ⟨mem_strengthen_self hfirst, hfirst.strengthen fun _ => rfl⟩

theorem planHold_cases (holds : List LaneHold) (step : ResolvedStep) :
    site.planHold holds step = holds ∨
      ∃ l, site.laneOf step.node = some l ∧ site.planHold holds step =
        strengthen holds l.id (if step.action = .pickup then .dig else .inbound) := by
  unfold LaneMap.planHold
  split
  · exact .inl rfl
  · cases hl : site.laneOf step.node with
    | none => exact .inl rfl
    | some l =>
      dsimp only
      split
      · exact .inl rfl
      split
      · exact .inl rfl
      · exact .inr ⟨l, rfl, rfl⟩

theorem planHold_mode {step : ResolvedStep} {l : NodeRow} (hl : site.laneOf step.node = some l)
    (hpick : step.action = .pickup → site.inside step.node = false) :
    l.id = site.row.id → (if step.action = .pickup then Mode.dig else .inbound) = .inbound := by
  intro he
  by_cases hp : step.action = .pickup
  · exact absurd he (site.laneOf_ne hl (hpick hp))
  · rw [if_neg hp]

/-- **印の無い lane なら、complex の order も置き先の lane を inbound で取る。** -/
theorem complex_holds {steps : List ResolvedStep} (hgroup : site.row.parentID.isNone = false)
    (hplain : site.laneIsGated site.row.id = false)
    (hpick : ∀ s ∈ steps, s.action = .pickup → site.inside s.node = false)
    (hdrop : ∃ s ∈ steps, s.action = .dropoff ∧ s.node ≠ "" ∧ site.inside s.node = true) :
    ⟨site.row.id, .inbound⟩ ∈ site.resolvePlanLaneHolds steps ∧
      OnlyInbound (site.resolvePlanLaneHolds steps) site.row.id := by
  -- 置く一歩を通るまでは「inbound だけ」、通った後は「取った」を持ち歩く
  have hrun : ∀ (steps : List ResolvedStep) (holds : List LaneHold),
      (∀ s ∈ steps, s.action = .pickup → site.inside s.node = false) →
      OnlyInbound holds site.row.id →
      (⟨site.row.id, .inbound⟩ ∈ holds ∨
        ∃ s ∈ steps, s.action = .dropoff ∧ s.node ≠ "" ∧ site.inside s.node = true) →
      ⟨site.row.id, .inbound⟩ ∈ steps.foldl site.planHold holds ∧
        OnlyInbound (steps.foldl site.planHold holds) site.row.id := by
    intro steps
    induction steps with
    | nil =>
      rintro holds - honly (hmem | ⟨s, hs, -⟩)
      · exact ⟨hmem, honly⟩
      · cases hs
    | cons s rest ih =>
      intro holds hpick honly hor
      have hpick₀ := hpick s mem_cons_self
      refine ih _ (fun s' hs' => hpick s' (mem_cons_of_mem _ hs')) ?_ ?_
      · rcases planHold_cases holds s with he | ⟨l, hl, he⟩
        · rwa [he]
        · rw [he]
          exact honly.strengthen (planHold_mode hl hpick₀)
      · rcases hor with hmem | ⟨s', hs', hact, hnode, hin⟩
        · rcases planHold_cases holds s with he | ⟨l, hl, he⟩
          · rw [he]
            exact .inl hmem
          · rw [he]
            exact .inl (mem_strengthen_of_mem hmem (planHold_mode hl hpick₀))
        · rcases mem_cons.mp hs' with rfl | hs'
          · -- 置く一歩そのもの
            left
            have hlane : site.laneOf s'.node = some site.row := by
              simpa [LaneSite.inside] using hin
            have hdefer : site.entryDeferredToGate skipsForComplexEntry site.row = false := by
              simp [LaneMap.entryDeferredToGate, hplain]
            unfold LaneMap.planHold
            rw [if_neg (by simp [hact, hnode]), hlane]
            dsimp only
            rw [if_neg (by simp [hgroup]), hdefer]
            simp only [hact, Bool.false_eq_true, if_false, reduceCtorEq]
            exact mem_strengthen_self honly
          · exact .inr ⟨s', hs', hact, hnode, hin⟩
  exact hrun steps [] hpick (by rintro h hmem; cases hmem) (.inr hdrop)

end Holds

/-! ## 口の row -/

def HoldsInbound (t : MouthTable) (orderID laneID : Nat) : Prop :=
  ∃ r ∈ t, r.orderID = orderID ∧ r.laneID = laneID ∧ r.mode = .inbound

section Mouth

variable {t' : MouthTable} {beneficiary : DigAsker}

section

variable (hh : HoldsInbound t orderID laneID)
include hh

theorem HoldsInbound.filter {p : MouthRow → Bool}
    (hp : ∀ r ∈ t, r.orderID = orderID → r.laneID = laneID → r.mode = .inbound → p r = true) :
    HoldsInbound (t.filter p) orderID laneID := by
  obtain ⟨r, hr, ho, hl, hm⟩ := hh
  exact ⟨r, mem_filter.mpr ⟨hr, hp r hr ho hl hm⟩, ho, hl, hm⟩

theorem HoldsInbound.update {f : MouthRow → MouthRow} (ho : ∀ r, (f r).orderID = r.orderID)
    (hl : ∀ r, (f r).laneID = r.laneID)
    (hm : ∀ r, owner = orderID → l = laneID → (f r).mode = r.mode) :
    HoldsInbound (t.update owner l f) orderID laneID := by
  obtain ⟨r, hr, hro, hrl, hrm⟩ := hh
  refine ⟨_, mem_map_of_mem hr, ?_⟩
  split
  · rename_i hc
    refine ⟨(ho r).trans hro, (hl r).trans hrl, ?_⟩
    rw [hm r (hc.1.symm.trans hro) (hc.2.symm.trans hrl), hrm]
  · exact ⟨hro, hrl, hrm⟩

theorem HoldsInbound.acquireLane (hne : owner = orderID → l = laneID → mode ≠ .dig)
    (h : acquireLane owner mode beneficiary reservedBy t l = .ok t') :
    HoldsInbound t' orderID laneID := by
  unfold Core.acquireLane at h
  split at h
  · cases h
  · split at h
    · cases h
      exact hh.update (fun _ => rfl) (fun _ => rfl) fun _ _ _ => rfl
    · cases h
      exact hh
  · cases h
  · rename_i hv
    cases h
    cases admitMouth_spec hv with
    | upgrade hdig _ _ =>
      refine hh.update (fun _ => rfl) (fun _ => rfl) fun _ ho hl => ?_
      exact absurd hdig (hne ho hl)
  · cases h
    obtain ⟨r, hr, hrow⟩ := hh
    exact ⟨r, mem_append_left _ hr, hrow⟩

end

theorem holdsInbound_acquireLane
    (h : acquireLane owner .inbound beneficiary reservedBy t laneID = .ok t') :
    HoldsInbound t' owner laneID := by
  unfold acquireLane at h
  split at h
  · cases h
  · rename_i hv
    have hh : HoldsInbound t owner laneID := by
      cases admitMouth_spec hv with
      | idempotent own =>
        obtain ⟨r, hr, ho, hm⟩ := own
        obtain ⟨hr, hl⟩ := mem_onLane.mp hr
        exact ⟨r, hr, ho, hl, hm⟩
    split at h
    · cases h
      exact hh.update (fun _ => rfl) (fun _ => rfl) fun _ _ _ => rfl
    · cases h
      exact hh
  · cases h
  · rename_i hv
    cases admitMouth_spec hv with
    | upgrade hdig _ _ => cases hdig
  · cases h
    exact ⟨_, mem_append_right _ (mem_singleton_self _), rfl, rfl, rfl⟩

variable {laneIDs : List Nat}

theorem HoldsInbound.acquireLanesFor (hh : HoldsInbound t orderID laneID)
    (hne : owner = orderID → laneID ∈ laneIDs → mode ≠ .dig)
    (h : acquireLanesFor t owner mode beneficiary reservedBy laneIDs = .ok t') :
    HoldsInbound t' orderID laneID := by
  refine foldlM_ok_inv (P := fun t => HoldsInbound t orderID laneID) ?_ h hh
  intro l hl t t' hh ha
  refine hh.acquireLane (fun ho he => hne ho ?_) ha
  rw [← he]
  exact mem_sortedUniqueLanes.mp hl

theorem holdsInbound_acquireLanesFor (hl : laneID ∈ laneIDs)
    (h : acquireLanesFor t owner .inbound beneficiary reservedBy laneIDs = .ok t') :
    HoldsInbound t' owner laneID := by
  unfold acquireLanesFor at h
  obtain ⟨pre, post, hsplit⟩ := append_of_mem (mem_sortedUniqueLanes.mpr hl)
  rw [hsplit, foldlM_append] at h
  cases hpre : pre.foldlM (acquireLane owner .inbound beneficiary reservedBy) t with
  | error e => rw [hpre] at h; cases h
  | ok t₁ =>
    rw [hpre] at h
    change (laneID :: post).foldlM (acquireLane owner .inbound beneficiary reservedBy) t₁
      = .ok t' at h
    rw [foldlM_cons] at h
    cases ha : acquireLane owner .inbound beneficiary reservedBy t₁ laneID with
    | error e => rw [ha] at h; cases h
    | ok t₂ =>
      -- 取った後の lane では、row は残る
      rw [ha] at h
      refine foldlM_ok_inv (P := fun t => HoldsInbound t owner laneID) ?_ h
        (holdsInbound_acquireLane ha)
      intro l _ t t' hh ha
      exact hh.acquireLane (fun _ _ => by decide) ha

end Mouth

section Acquire

variable {x laneOwner : Nat} {asker : DigAsker}

theorem HoldsInbound.acquireModes (hne : x ≠ orderID) : ∀ {modes : List Mode} {t : MouthTable},
    HoldsInbound t orderID laneID →
    HoldsInbound (acquireModes x asker holds modes t).1 orderID laneID := by
  intro modes
  induction modes with
  | nil => exact fun hh => hh
  | cons mode rest ih =>
    intro t hh
    rw [Dispatch.acquireModes]
    split
    · exact ih hh
    split
    · rename_i ha
      exact ih (hh.acquireLanesFor (fun he => absurd he hne) ha)
    · refine hh.filter fun r _ ho _ _ => ?_
      simpa [ho] using hne.symm
    · exact hh

/-- **許された order は、inbound の hold の row を持っている。** -/
theorem holdsInbound_acquireModes (hmem : ⟨laneID, .inbound⟩ ∈ holds)
    (honly : OnlyInbound holds laneID) : ∀ {modes : List Mode} {t : MouthTable},
    .inbound ∈ modes ∨ HoldsInbound t x laneID →
    (acquireModes x asker holds modes t).2 = .admitted →
    HoldsInbound (acquireModes x asker holds modes t).1 x laneID := by
  intro modes
  induction modes with
  | nil =>
    rintro t (hm | hh) -
    · cases hm
    · exact hh
  | cons mode rest ih =>
    rintro t hor hadm
    have hlanes : mode = .inbound →
        laneID ∈ (holds.filter (·.mode == mode)).map LaneHold.laneID := by
      rintro rfl
      exact mem_map.mpr ⟨_, mem_filter.mpr ⟨hmem, rfl⟩, rfl⟩
    have hdig : laneID ∈ (holds.filter (·.mode == mode)).map LaneHold.laneID → mode ≠ .dig := by
      rintro hl rfl
      obtain ⟨h, hh, hl⟩ := mem_map.mp hl
      obtain ⟨hh, hd⟩ := mem_filter.mp hh
      have hm : h.mode = .dig := by simpa using hd
      rw [honly h hh hl] at hm
      cases hm
    rw [acquireModes] at hadm ⊢
    split at hadm
    · rename_i hnil
      rw [if_pos hnil]
      refine ih (hor.imp_left fun hm => ?_) hadm
      rcases mem_cons.mp hm with he | hm
      · have hl := hlanes he.symm
        rw [hnil] at hl
        cases hl
      · exact hm
    · rename_i hnil
      rw [if_neg hnil]
      split at hadm
      · rename_i ha
        refine ih ?_ hadm
        rcases hor with hm | hh
        · rcases mem_cons.mp hm with rfl | hm
          · exact .inr (holdsInbound_acquireLanesFor (hlanes rfl) ha)
          · exact .inl hm
        · exact .inr (hh.acquireLanesFor (fun _ hl => hdig hl) ha)
      · cases hadm
      · cases hadm

end Acquire

theorem HoldsInbound.handOff {digOwner picker : Nat} (hh : HoldsInbound t orderID laneID) :
    HoldsInbound (handOffLaneToPicker t l digOwner picker reservedBy).1 orderID laneID := by
  have hf : HoldsInbound (t.filter fun r => !r.isDigHold l digOwner) orderID laneID := by
    refine hh.filter fun r _ _ _ hm => ?_
    simp [MouthRow.isDigHold, hm]
  unfold handOffLaneToPicker
  split
  · exact hh
  dsimp only
  split
  · exact hf
  · obtain ⟨r, hr, hrow⟩ := hf
    exact ⟨r, mem_append_left _ hr, hrow⟩

theorem HoldsInbound.release {site : LaneSite} {location : String}
    (hh : HoldsInbound t orderID site.row.id)
    (hne : owner = orderID → site.inside location = false) :
    HoldsInbound (site.releaseOrderLaneFor t owner location) orderID site.row.id := by
  unfold LaneMap.releaseOrderLaneFor
  split
  · exact hh
  rename_i l hl
  refine hh.filter fun r _ ho hr _ => ?_
  by_cases he : owner = orderID
  · have hlane := site.laneOf_ne hl (hne he)
    simp [hr, Ne.symm hlane]
  · simp [ho, Ne.symm he]

end Shingo.Dispatch
