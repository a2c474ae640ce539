import Mathlib.Algebra.BigOperators.Group.List.Basic
import Mathlib.Algebra.Ring.Int.Defs
import Mathlib.Data.List.Sort

/-!
# 行の列としての表

SQL の `UPDATE … WHERE`、`DELETE … WHERE`、`ORDER BY … LIMIT 1` を、行の列の上の関数として置く。
行ごとの量の合計 `total` が、一行だけに当たる書き込みでどう変わるかを言う。
-/

namespace Shingo.Infra

open List

variable {α : Type*}

/-! ## 文 -/

def updateWhere (p : α → Bool) (f : α → α) (rows : List α) : List α :=
  rows.map fun r => if p r then f r else r

def deleteWhere (p : α → Bool) (rows : List α) : List α :=
  rows.filter fun r => !p r

/-- `SELECT … ORDER BY … LIMIT 1`。並びが決めない行の間では、表の順に前のものを取る。 -/
def firstBy (le : α → α → Prop) [DecidableRel le] (rows : List α) : Option α :=
  (rows.insertionSort le).head?

variable {rows : List α} {p : α → Bool} {g : α → Int} {f : α → α} {x b : α} {β : Type*}

theorem mem_updateWhere : x ∈ updateWhere p f rows ↔ ∃ r ∈ rows, x = if p r then f r else r := by
  unfold updateWhere
  rw [mem_map]
  constructor
  · rintro ⟨r, hr, rfl⟩
    exact ⟨r, hr, rfl⟩
  · rintro ⟨r, hr, rfl⟩
    exact ⟨r, hr, rfl⟩

theorem map_updateWhere {g : α → β} (hg : ∀ r, p r = true → g (f r) = g r) (rows : List α) :
    (updateWhere p f rows).map g = rows.map g := by
  unfold updateWhere
  rw [map_map]
  refine map_congr_left fun r _ => ?_
  show g (if p r then f r else r) = g r
  split
  · next hp => exact hg r hp
  · rfl

theorem nodup_map_concat {g : α → β} (h : (rows.map g).Nodup) (hnew : ∀ r ∈ rows, g r ≠ g x) :
    ((rows ++ [x]).map g).Nodup := by
  rw [map_append]
  refine nodup_append.mpr ⟨h, nodup_singleton _, ?_⟩
  intro a ha b hb
  obtain ⟨r, hr, rfl⟩ := mem_map.mp ha
  rw [mem_singleton.mp hb]
  exact hnew r hr

theorem map_find?_of_map_eq {q : β → Bool} {g : α → β} (hp : ∀ r, p r = q (g r)) {rows' : List α}
    (h : rows'.map g = rows.map g) : (rows'.find? p).map g = (rows.find? p).map g := by
  have hpq : p = q ∘ g := funext hp
  rw [hpq, ← List.find?_map, ← List.find?_map, h]

theorem find?_updateWhere {q : α → Bool} (hq : ∀ r, q (f r) = q r) (rows : List α) :
    (updateWhere p f rows).find? q = (rows.find? q).map fun r => if p r then f r else r := by
  have hcomp : (q ∘ fun r => if p r then f r else r) = q := by
    funext r
    show q (if p r then f r else r) = q r
    split
    · exact hq r
    · rfl
  unfold updateWhere
  rw [List.find?_map, hcomp]

theorem mem_deleteWhere : x ∈ deleteWhere p rows ↔ x ∈ rows ∧ p x = false := by
  simp [deleteWhere]

theorem deleteWhere_eq_self (h : ∀ r ∈ rows, p r = false) : deleteWhere p rows = rows := by
  unfold deleteWhere
  rw [filter_eq_self]
  intro r hr
  rw [h r hr]
  rfl

section FirstBy

variable {le : α → α → Prop} [DecidableRel le] {rows : List α}

theorem mem_of_firstBy (h : firstBy le rows = some b) : b ∈ rows := by
  have hmem : b ∈ rows.insertionSort le := mem_of_head? h
  exact (perm_insertionSort le rows).mem_iff.mp hmem

theorem firstBy_eq_none (h : firstBy le rows = none) : rows = [] := by
  have hnil : rows.insertionSort le = [] := List.head?_eq_none_iff.mp h
  have hperm := perm_insertionSort le rows
  rw [hnil] at hperm
  exact hperm.nil_eq.symm

end FirstBy

/-! ## 合計 -/

theorem sum_map_set (f : α → Int) {l : List α} {i : Nat} {x : α} (h : l[i]? = some x) (y : α) :
    ((l.set i y).map f).sum = (l.map f).sum - f x + f y := by
  obtain ⟨hi, rfl⟩ := List.getElem?_eq_some_iff.mp h
  rw [map_set, sum_set', dif_pos (by simpa using hi), getElem_map]
  omega

def total (g : α → Int) (rows : List α) : Int :=
  rows.foldr (fun r acc => g r + acc) 0

@[simp] theorem total_nil (g : α → Int) : total g [] = 0 := rfl

@[simp] theorem total_cons (g : α → Int) (r : α) (rows : List α) :
    total g (r :: rows) = g r + total g rows := rfl

theorem total_eq_sum (g : α → Int) (rows : List α) : total g rows = (rows.map g).sum := by
  induction rows with
  | nil => rfl
  | cons r rows ih => simp [ih]

theorem total_append (g : α → Int) (xs ys : List α) :
    total g (xs ++ ys) = total g xs + total g ys := by
  simp [total_eq_sum]

theorem total_eq_zero (hg : ∀ r ∈ rows, g r = 0) : total g rows = 0 := by
  rw [total_eq_sum]
  exact sum_eq_zero (by simpa using hg)

theorem total_eq_single (hnd : rows.Nodup) (hb : b ∈ rows) (hg : ∀ r ∈ rows, r ≠ b → g r = 0) :
    total g rows = g b := by
  classical
  rw [total_eq_sum, sum_map_eq_nsmul_single b _ fun r hne hr => hg r hr hne,
    count_eq_one_of_mem hnd hb, one_nsmul]

theorem total_updateWhere_eq_add (rows : List α) : total g (updateWhere p f rows)
    = total g rows + total (fun r => if p r then g (f r) - g r else 0) rows := by
  induction rows with
  | nil => rfl
  | cons r rows ih =>
    show g (if p r then f r else r) + total g (updateWhere p f rows) = _
    rw [total_cons, total_cons, ih]
    split <;> omega

theorem total_deleteWhere_eq_sub (rows : List α) : total g (deleteWhere p rows)
    = total g rows - total (fun r => if p r then g r else 0) rows := by
  induction rows with
  | nil => rfl
  | cons r rows ih =>
    rw [total_cons, total_cons, add_sub_add_comm, ← ih]
    cases hp : p r <;> simp [deleteWhere, hp]

theorem total_updateWhere_of_eq (hf : ∀ r, g (f r) = g r) (rows : List α) :
    total g (updateWhere p f rows) = total g rows := by
  simp [total_updateWhere_eq_add, hf, total_eq_zero]

section OneRow

variable (hnd : rows.Nodup) (hb : b ∈ rows) (hp : ∀ r ∈ rows, p r = true ↔ r = b)
include hnd hb hp

theorem total_ite_single (g : α → Int) : total (fun r => if p r then g r else 0) rows = g b := by
  rw [total_eq_single hnd hb fun r hr hne => if_neg (hne ∘ (hp r hr).mp)]
  exact if_pos ((hp b hb).mpr rfl)

/-- **一行に当たる `UPDATE` は、その行の分だけ合計を変える。** -/
theorem total_updateWhere : total g (updateWhere p f rows) = total g rows - g b + g (f b) := by
  rw [total_updateWhere_eq_add, total_ite_single hnd hb hp fun r => g (f r) - g r]
  omega

/-- **一行に当たる `DELETE` は、その行の分だけ合計を減らす。** -/
theorem total_deleteWhere : total g (deleteWhere p rows) = total g rows - g b := by
  rw [total_deleteWhere_eq_sub, total_ite_single hnd hb hp]

end OneRow

end Shingo.Infra
