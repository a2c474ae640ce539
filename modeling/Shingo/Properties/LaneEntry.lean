import Mathlib.Data.Finset.Max
import Shingo.Dispatch.LaneEntry

/-!
# lane に入る順番は行き詰まるか

lane へ bin を置きに行く order がどれも待たされる、ということがいつ起きるか。
-/

namespace Shingo.Dispatch

open Core List

/-! ## 判定 -/

theorem classifyLaneEntry_none_iff {self : LaneEntryOrder} {others : List LaneEntryOrder} :
    classifyLaneEntry self others = none ↔
      ∀ o ∈ others, o.id = self.id ∨ sameOrigin self.origin o.origin = true
        ∨ (o.depth ≤ self.depth ∧ o.grouped = false) := by
  induction others with
  | nil => simp [classifyLaneEntry]
  | cons o rest ih =>
    rw [classifyLaneEntry, forall_mem_cons]
    split
    · rename_i hid
      rw [ih, and_iff_right (.inl hid)]
    rename_i hid
    split
    · rename_i hs
      rw [ih, and_iff_right (.inr (.inl hs))]
    rename_i hs
    -- 自分でも仲間でもない order は、depth と組だけで決まる
    simp only [hid, hs, Bool.false_eq_true, false_or]
    split
    · exact iff_of_false nofun fun h => by omega
    split
    · rename_i hg
      exact iff_of_false nofun (by simp [hg])
    · rename_i hd hg
      rw [ih, and_iff_right ⟨Int.not_lt.mp hd, by simpa using hg⟩]

/-! ## 名前から depth を引く -/

theorem depthByName_of_names {l : Lane} {s : Slot} (hs : s ∈ l.slots) {n : String}
    (hn : n = s.name ∨ n = l.dotName s) : l.depthByName n = s.slotDepth := by
  -- 後ろの slot は名前が違うので書き換えない
  have hother : ∀ t ∈ l.slots, t.name ≠ s.name → n ≠ l.dotName t ∧ n ≠ t.name := by
    intro t ht hne
    rcases hn with rfl | rfl
    · exact ⟨l.namesPlain s hs t ht, Ne.symm hne⟩
    · refine ⟨fun he => hne ?_, fun he => l.namesPlain t ht s hs he.symm⟩
      exact (String.append_right_inj _).mp he.symm
  unfold Lane.depthByName
  obtain ⟨pre, post, hl⟩ := append_of_mem hs
  have hnd := l.namesNodup
  rw [hl] at hnd hother ⊢
  rw [map_append, map_cons, nodup_append, nodup_cons] at hnd
  rw [foldl_append, foldl_cons]
  have hpost : ∀ t ∈ post, n ≠ l.dotName t ∧ n ≠ t.name := by
    intro t ht
    refine hother t (by simp [ht]) fun he => hnd.2.1.1 ?_
    rw [← he]
    exact mem_map_of_mem ht
  clear hl hother hnd
  generalize hm : (fun n => if n = l.dotName s then s.slotDepth
    else if n = s.name then s.slotDepth else _) = m
  have hmn : m n = s.slotDepth := by
    rw [← hm]
    rcases hn with rfl | rfl <;> simp
  clear hm
  induction post generalizing m with
  | nil => exact hmn
  | cons t rest ih =>
    obtain ⟨h1, h2⟩ := hpost t (by simp)
    refine ih (fun u hu => hpost u (by simp [hu])) _ ?_
    simp [h1, h2, hmn]

/-! ## 待っている order -/

/-- lane へ置きに行き、まだ置き終えていない order。判定が他の order として見るもの。 -/
def PlantView.pendingStores (v : PlantView) (lane : Lane) : List Order :=
  v.stillWorkingLaneMouth lane.id (v.activeLaneStores lane.slotNames)

def Lane.boundSlot (l : Lane) (o : Order) : Option Slot :=
  l.slots.find? fun s => o.deliveryNode == s.name || o.deliveryNode == l.dotName s

def Lane.storeDepth (l : Lane) (o : Order) : Int := l.depthByName o.deliveryNode

variable {v : PlantView} {lane : Lane} {o : Order}

theorem mem_pendingStores (h : o ∈ v.pendingStores lane) :
    o ∈ v.orders ∧ o.deliveryNode ∈ lane.slotNames := by
  simp only [PlantView.pendingStores, PlantView.stillWorkingLaneMouth, PlantView.activeLaneStores,
    mem_filter, mem_insertionSort, Bool.and_eq_true, contains_iff_mem] at h
  exact ⟨h.1.1, h.1.2.1⟩

theorem eq_of_id_eq {a b : Order} (ha : a ∈ v.orders) (hb : b ∈ v.orders) (h : a.id = b.id) :
    a = b := inj_on_of_nodup_map v.orderIDs ha hb h

theorem exists_boundSlot (h : o ∈ v.pendingStores lane) :
    ∃ dest, lane.boundSlot o = some dest ∧ lane.depthByName dest.name = lane.storeDepth o := by
  obtain ⟨-, hn⟩ := mem_pendingStores h
  obtain ⟨s, hs, hsn⟩ := mem_flatMap.mp hn
  have hsome : (lane.boundSlot o).isSome := by
    refine List.find?_isSome.mpr ⟨s, hs, ?_⟩
    simpa using hsn
  obtain ⟨dest, hdest⟩ := Option.isSome_iff_exists.mp hsome
  refine ⟨dest, hdest, ?_⟩
  have hmem := mem_of_find?_eq_some hdest
  have hname := List.find?_some hdest
  simp only [Bool.or_eq_true, beq_iff_eq] at hname
  rw [depthByName_of_names hmem (.inl rfl), Lane.storeDepth, depthByName_of_names hmem hname]

def PlantView.SharedOrigin (v : PlantView) (lane : Lane) (org : String) : Prop :=
  org ≠ "" ∧ 2 ≤ (v.pendingStores lane).countP (v.laneEntryOriginFor · == org)

/-- **判定が通す条件。** -/
theorem laneEntryCause_admitted_iff (hlen : ¬ lane.slots.length < 2) {dest : Slot} :
    v.laneEntryCause lane o dest = .admitted ↔
      ∀ x ∈ v.pendingStores lane, x.id = o.id
        ∨ sameOrigin (v.laneEntryOriginFor o) (v.laneEntryOriginFor x) = true
        ∨ (lane.storeDepth x ≤ lane.depthByName dest.name
            ∧ ¬ v.SharedOrigin lane (v.laneEntryOriginFor x)) := by
  have hcls : v.laneEntryCause lane o dest = .admitted ↔
      classifyLaneEntry
        (v.buildLaneEntryView o dest lane.id (v.activeLaneStores lane.slotNames)
          lane.depthByName).1
        (v.buildLaneEntryView o dest lane.id (v.activeLaneStores lane.slotNames)
          lane.depthByName).2 = none := by
    unfold PlantView.laneEntryCause
    rw [if_neg hlen]
    dsimp only
    cases classifyLaneEntry _ _ with
    | none | some c => simp
  rw [hcls, classifyLaneEntry_none_iff]
  unfold PlantView.buildLaneEntryView
  simp only [forall_mem_map]
  refine forall₂_congr fun x _ => ?_
  unfold PlantView.SharedOrigin PlantView.pendingStores Lane.storeDepth
  simp only [ne_eq, not_and, not_le, Bool.and_eq_false_iff, bne_eq_false_iff_eq,
    decide_eq_false_iff_not]
  rw [or_iff_not_imp_left (a := v.laneEntryOriginFor x = "")]

/-! ## 行き詰まらない条件 -/

/--
行き詰まらない条件。二つ以上の order が持つ origin は高々一つで、あるなら、
別の origin の order のどれよりも手前でない order がその中にある。
-/
structure PlantView.EntryOrderable (v : PlantView) (lane : Lane) : Prop where
  oneGroup : ∀ a b, v.SharedOrigin lane a → v.SharedOrigin lane b → a = b
  groupDeepest : ∀ org, v.SharedOrigin lane org →
    ∃ g ∈ v.pendingStores lane, v.laneEntryOriginFor g = org ∧
      ∀ x ∈ v.pendingStores lane, v.laneEntryOriginFor x ≠ org →
        lane.storeDepth x ≤ lane.storeDepth g

theorem exists_deepest {l : List Order} (f : Order → Int) (h : l ≠ []) :
    ∃ g ∈ l, ∀ x ∈ l, f x ≤ f g := by
  have hne : l.toFinset.Nonempty := by
    obtain ⟨a, ha⟩ := exists_mem_of_ne_nil l h
    exact ⟨a, mem_toFinset.mpr ha⟩
  obtain ⟨g, hg, hmax⟩ := l.toFinset.exists_max_image f hne
  exact ⟨g, mem_toFinset.mp hg, fun x hx => hmax x (mem_toFinset.mpr hx)⟩

theorem PlantView.SharedOrigin.exists_mem {org : String} (h : v.SharedOrigin lane org) :
    ∃ x ∈ v.pendingStores lane, v.laneEntryOriginFor x = org := by
  obtain ⟨x, hx, hxo⟩ := countP_pos_iff.mp (by have := h.2; omega :
    0 < (v.pendingStores lane).countP (v.laneEntryOriginFor · == org))
  exact ⟨x, hx, by simpa using hxo⟩

theorem admitted_cases {x : Order} {P : Prop} (ho : o ∈ v.pendingStores lane)
    (hx : x ∈ v.pendingStores lane) (h : x.id = o.id
      ∨ sameOrigin (v.laneEntryOriginFor o) (v.laneEntryOriginFor x) = true ∨ P) :
    v.laneEntryOriginFor x = v.laneEntryOriginFor o ∨ P := by
  rcases h with hid | hs | hp
  · rw [eq_of_id_eq (mem_pendingStores hx).1 (mem_pendingStores ho).1 hid]
    exact .inl rfl
  · simp only [sameOrigin, Bool.and_eq_true, beq_iff_eq] at hs
    exact .inl hs.2.symm
  · exact .inr hp

/-- **lane に入る順番が行き詰まらないのはいつか。** -/
theorem lane_entry_admits_iff {v : PlantView} {lane : Lane} (hne : v.pendingStores lane ≠ []) :
    (∃ o ∈ v.pendingStores lane, ∃ dest, lane.boundSlot o = some dest ∧
        v.laneEntryCause lane o dest = .admitted)
      ↔ lane.slots.length < 2 ∨ v.EntryOrderable lane := by
  by_cases hlen : lane.slots.length < 2
  · obtain ⟨o, ho⟩ := exists_mem_of_ne_nil _ hne
    obtain ⟨dest, hdest, -⟩ := exists_boundSlot ho
    refine ⟨fun _ => .inl hlen, fun _ => ⟨o, ho, dest, hdest, ?_⟩⟩
    rw [PlantView.laneEntryCause, if_pos hlen]
  · constructor
    · rintro ⟨o, ho, dest, hdest, hadm⟩
      obtain ⟨dest', hdest', hdepth⟩ := exists_boundSlot ho
      obtain rfl : dest = dest' := Option.some.inj (hdest.symm.trans hdest')
      rw [laneEntryCause_admitted_iff hlen, hdepth] at hadm
      have hcases := fun x hx => admitted_cases ho hx (hadm x hx)
      have horg : ∀ {org}, v.SharedOrigin lane org → v.laneEntryOriginFor o = org := by
        intro org hg
        obtain ⟨x, hx, rfl⟩ := hg.exists_mem
        exact ((hcases x hx).resolve_right fun hp => hp.2 hg).symm
      refine .inr ⟨fun a b ha hb => ?_, fun org hg => ⟨o, ho, horg hg, fun x hx hxo => ?_⟩⟩
      · rw [← horg ha, ← horg hb]
      · exact ((hcases x hx).resolve_left fun he => hxo (he.trans (horg hg))).1
    · intro hcond
      have hcond := hcond.resolve_left hlen
      -- 組があれば組の一番奥、無ければ全体の一番奥が入れる
      by_cases hgroup : ∃ org, v.SharedOrigin lane org
      · obtain ⟨org, hg⟩ := hgroup
        obtain ⟨g, hgm, hgo, hmax⟩ := hcond.groupDeepest org hg
        obtain ⟨dest, hdest, hdepth⟩ := exists_boundSlot hgm
        refine ⟨g, hgm, dest, hdest, (laneEntryCause_admitted_iff hlen).mpr ?_⟩
        intro x hx
        rw [hdepth]
        by_cases hxo : v.laneEntryOriginFor x = org
        · refine .inr (.inl ?_)
          rw [hgo, hxo]
          simp [sameOrigin, hg.1]
        · refine .inr (.inr ⟨hmax x hx hxo, fun hxg => hxo ?_⟩)
          exact hcond.oneGroup _ _ hxg hg
      · obtain ⟨g, hgm, hmax⟩ := exists_deepest lane.storeDepth hne
        obtain ⟨dest, hdest, hdepth⟩ := exists_boundSlot hgm
        refine ⟨g, hgm, dest, hdest, (laneEntryCause_admitted_iff hlen).mpr ?_⟩
        intro x hx
        rw [hdepth]
        exact .inr (.inr ⟨hmax x hx, fun hxg => hgroup ⟨_, hxg⟩⟩)

/-! ## 行き詰まる配置 -/

def threeDeepLane : Lane where
  id := 10
  name := "L"
  slots := [⟨11, "A", some 1⟩, ⟨12, "B", some 2⟩, ⟨13, "C", some 3⟩]
  namesNodup := by decide
  namesPlain := by decide

def rivalStores : PlantView where
  orders :=
    [{ id := 1, status := .queued, processNode := "P1", deliveryNode := "C" },
     { id := 2, status := .queued, processNode := "P2", deliveryNode := "B" },
     { id := 3, status := .queued, processNode := "P2", deliveryNode := "L.A" }]
  mouth := []
  styleClaims := [⟨"P1", "p1", "s1"⟩, ⟨"P2", "p2", "s2"⟩]
  orderIDs := by decide

theorem lane_entry_rivals_iff :
    (∃ o ∈ rivalStores.pendingStores threeDeepLane, ∃ dest,
        threeDeepLane.boundSlot o = some dest ∧
          rivalStores.laneEntryCause threeDeepLane o dest = .admitted)
      ↔ threeDeepLane.slots.length < 2 ∨ rivalStores.EntryOrderable threeDeepLane :=
  lane_entry_admits_iff (by decide)

/-- **行き詰まり。** 奥へ向かう order は組を待ち、組は奥へ向かう order を待つ。 -/
theorem lane_entry_deadlock :
    rivalStores.pendingStores threeDeepLane ≠ [] ∧
      ∀ o ∈ rivalStores.pendingStores threeDeepLane, ∀ dest,
        threeDeepLane.boundSlot o = some dest →
          rivalStores.laneEntryCause threeDeepLane o dest ≠ .admitted := by
  decide

end Shingo.Dispatch
