import Mathlib.Data.List.Nodup
import Mathlib.Data.List.Perm.Basic

/-!
# 一つずつ運ぶ

場所 `κ` に物 `ι` が置いてあり、一度に一つだけ持てる運び手がそれを動かす。
取るのは手が空のとき、置くのは手に在るときだけで、ほかの手は打てない（`step` が `none`）。
-/

namespace Shingo.Infra

open List

/-- 一手。`take none p` は物を名指さず、`p` にいちばん新しく置かれた物を取る。 -/
inductive Move (ι κ : Type*) where
  | take (item : Option ι) (place : κ)
  | put (place : κ)
  | stay

structure Resting (ι κ : Type*) where
  item : ι
  place : κ
  moved : Bool := false
  deriving DecidableEq

structure Carriage (ι κ : Type*) where
  hand : Option ι := none
  resting : List (Resting ι κ)

namespace Carriage

variable {ι κ : Type*}

def items (s : Carriage ι κ) : List ι := s.hand.toList ++ s.resting.map Resting.item

/-- 物は `all` の全部で、一つの場所には一つまでしか置かれていない。 -/
structure Tidy (all : List ι) (s : Carriage ι κ) : Prop where
  items : s.items.Perm all
  places : (s.resting.map Resting.place).Nodup

variable {s s' : Carriage ι κ} {all : List ι}

/-! ## 散らからない -/

theorem nodup_resting (h : s.items.Perm all) (hall : all.Nodup) :
    (s.resting.map Resting.item).Nodup :=
  (h.nodup_iff.mpr hall).of_append_right

variable {item : ι} {place : κ}

theorem hand_notMem (h : s.items.Perm all) (hall : all.Nodup) (hhand : s.hand = some item)
    {r : Resting ι κ} (hr : r ∈ s.resting) : r.item ≠ item := by
  have hn := h.nodup_iff.mpr hall
  rw [Carriage.items, hhand, Option.toList_some, singleton_append, nodup_cons] at hn
  rintro rfl
  exact hn.1 (mem_map_of_mem hr)

theorem mem_items (h : s.items.Perm all) :
    item ∈ all ↔ s.hand = some item ∨ ∃ r ∈ s.resting, r.item = item := by
  rw [← h.mem_iff, Carriage.items, mem_append, Option.mem_toList, mem_map]

namespace Tidy

theorem eq_of_item (h : Tidy all s) (hall : all.Nodup) {r r' : Resting ι κ} (hr : r ∈ s.resting)
    (hr' : r' ∈ s.resting) (he : r.item = r'.item) : r = r' :=
  inj_on_of_nodup_map (nodup_resting h.items hall) hr hr' he

theorem eq_of_place (h : Tidy all s) {r r' : Resting ι κ} (hr : r ∈ s.resting)
    (hr' : r' ∈ s.resting) (he : r.place = r'.place) : r = r' :=
  inj_on_of_nodup_map h.places hr hr' he

theorem put (h : Tidy all s) (hhand : s.hand = some item)
    (hfree : ∀ r ∈ s.resting, r.place ≠ place) :
    Tidy all { hand := none, resting := ⟨item, place, true⟩ :: s.resting } where
  items := by
    have hitems := h.items
    rwa [Carriage.items, hhand] at hitems
  places := by
    refine nodup_cons.mpr ⟨?_, h.places⟩
    intro hmem
    obtain ⟨r, hr, hp⟩ := mem_map.mp hmem
    exact hfree r hr hp

end Tidy

/-! ## 一手 -/

section

variable [DecidableEq ι]

def lift (s : Carriage ι κ) (item : ι) : Carriage ι κ :=
  { hand := some item, resting := s.resting.filter fun r => r.item ≠ item }

variable {r : Resting ι κ}

theorem mem_lift : r ∈ (s.lift item).resting ↔ r ∈ s.resting ∧ r.item ≠ item := by
  simp [lift, mem_filter]

theorem items_lift (h : s.items.Perm all) (hall : all.Nodup) (hempty : s.hand = none)
    (hr : r ∈ s.resting) : (s.lift r.item).items.Perm all := by
  have hitems := h
  rw [Carriage.items, hempty, Option.toList_none, nil_append] at hitems
  refine List.Perm.trans ?_ hitems
  have herase : (s.lift r.item).resting.map Resting.item =
      (s.resting.map Resting.item).erase r.item := by
    rw [(nodup_resting h hall).erase_eq_filter, filter_map]
    congr 1
    refine filter_congr fun x _ => ?_
    by_cases hx : x.item = r.item <;> simp [hx]
  show (r.item :: (s.lift r.item).resting.map Resting.item).Perm _
  rw [herase]
  exact (perm_cons_erase (mem_map_of_mem hr)).symm

theorem Tidy.take (h : Tidy all s) (hall : all.Nodup) (hempty : s.hand = none)
    (hr : r ∈ s.resting) : Tidy all (s.lift r.item) where
  items := items_lift h.items hall hempty hr
  places := h.places.sublist (List.Sublist.map _ filter_sublist)

variable [DecidableEq κ]

def pick (s : Carriage ι κ) : Option ι → κ → Option (Resting ι κ)
  | some item, place => s.resting.find? fun r => r.item = item ∧ r.place = place
  | none, place => s.resting.find? fun r => r.place = place

def step (s : Carriage ι κ) : Move ι κ → Option (Carriage ι κ)
  | .take item place =>
    if s.hand.isSome then none else (s.pick item place).map fun r => s.lift r.item
  | .put place =>
    s.hand.map fun item => { hand := none, resting := ⟨item, place, true⟩ :: s.resting }
  | .stay => some s

theorem pick_spec {item : Option ι} (h : s.pick item place = some r) :
    r ∈ s.resting ∧ r.place = place ∧ ∀ x, item = some x → r.item = x := by
  cases item with
  | none =>
    exact ⟨mem_of_find?_eq_some h, by simpa using List.find?_some h, fun x hx => nomatch hx⟩
  | some item =>
    have hr := List.find?_some h
    simp only [decide_eq_true_eq] at hr
    exact ⟨mem_of_find?_eq_some h, hr.2, fun x hx => hr.1.trans (Option.some.inj hx)⟩

/-- **取れたなら、手は空で、`place` に在る物が手に移る。名指された物ならそれ。** -/
theorem step_take {item : Option ι} (h : s.step (.take item place) = some s') :
    s.hand = none ∧ ∃ r ∈ s.resting, r.place = place ∧ (∀ x, item = some x → r.item = x) ∧
      s' = s.lift r.item := by
  simp only [step] at h
  split at h
  · cases h
  rename_i hempty
  obtain ⟨r, hr, rfl⟩ := Option.map_eq_some_iff.mp h
  obtain ⟨hmem, hplace, hitem⟩ := pick_spec hr
  exact ⟨by simpa using hempty, r, hmem, hplace, hitem, rfl⟩

/-- **置けたなら、手に在った物が `place` に移る。** -/
theorem step_put (h : s.step (.put place) = some s') : ∃ item, s.hand = some item ∧
      s' = { hand := none, resting := ⟨item, place, true⟩ :: s.resting } := by
  obtain ⟨item, hitem, rfl⟩ := Option.map_eq_some_iff.mp h
  exact ⟨item, hitem, rfl⟩

end

end Carriage

end Shingo.Infra
