import Mathlib.Data.List.Basic

/-!
# 最初の区切りで列を割る

列を「述語 `p` を満たす最初の要素」で割る。区切りが無い列か、
区切りを持たない前半・区切り・後半に分かれる列か、のどちらか。
-/

namespace Shingo.Infra

open List

variable {α : Type*}

def NoneOf (p : α → Bool) (l : List α) : Prop := ∀ x ∈ l, p x = false

@[simp] theorem noneOf_nil (p : α → Bool) : NoneOf p [] := by
  intro x hx
  cases hx

variable {p : α → Bool} {x : α} {l : List α}

@[simp] theorem noneOf_cons : NoneOf p (x :: l) ↔ p x = false ∧ NoneOf p l := by
  simp [NoneOf]

theorem NoneOf.countP_eq_zero (h : NoneOf p l) : l.countP p = 0 :=
  List.countP_eq_zero.mpr fun x hx => by simp [h x hx]

theorem exists_first_split (p : α → Bool) : ∀ l : List α,
    NoneOf p l ∨ ∃ a w b, l = a ++ w :: b ∧ NoneOf p a ∧ p w = true := by
  intro l
  induction l with
  | nil => exact .inl (noneOf_nil p)
  | cons x rest ih =>
    cases hx : p x with
    | true => exact .inr ⟨[], x, rest, rfl, noneOf_nil p, hx⟩
    | false =>
      rcases ih with h | ⟨a, w, b, rfl, ha, hw⟩
      · exact .inl (noneOf_cons.mpr ⟨hx, h⟩)
      · exact .inr ⟨x :: a, w, b, rfl, noneOf_cons.mpr ⟨hx, ha⟩, hw⟩

/--
**区切りごとの帰納法。**

区切りの無い列で成り立ち、後半 `b` で成り立てば `a ++ w :: b` でも成り立つなら、
すべての列で成り立つ。
-/
theorem splitInduction {motive : List α → Prop} (none : ∀ l, NoneOf p l → motive l)
    (cut : ∀ a w b, NoneOf p a → p w = true → motive b → motive (a ++ w :: b)) : ∀ l, motive l := by
  intro l
  induction hn : l.length using Nat.strongRecOn generalizing l with
  | _ n ih =>
    rcases exists_first_split p l with h | ⟨a, w, b, rfl, ha, hw⟩
    · exact none l h
    · refine cut a w b ha hw (ih b.length ?_ b rfl)
      subst hn
      simp only [length_append, length_cons]
      omega

/-! ## 前半が決まる連接 -/

theorem append_inj_of_break : ∀ {a a' r r' : List α},
    (∀ x ∈ a, p x = true) → (∀ x ∈ a', p x = true) →
    (∀ x ∈ r.head?, p x = false) → (∀ x ∈ r'.head?, p x = false) →
    a ++ r = a' ++ r' → a = a' ∧ r = r' := by
  intro a
  induction a with
  | nil =>
    intro a' r r' _ ha' hr _ h
    cases a' with
    | nil => exact ⟨rfl, by simpa using h⟩
    | cons y ys =>
      have hy : p y = true := ha' y (by simp)
      have hr0 : r = y :: (ys ++ r') := by simpa using h
      rw [hr0] at hr
      rw [hr y (by simp)] at hy
      exact absurd hy (by simp)
  | cons x xs ih =>
    intro a' r r' ha ha' hr hr' h
    cases a' with
    | nil =>
      have hx : p x = true := ha x (by simp)
      have hr0 : r' = x :: (xs ++ r) := by simpa using h.symm
      rw [hr0] at hr'
      rw [hr' x (by simp)] at hx
      exact absurd hx (by simp)
    | cons y ys =>
      simp only [cons_append, List.cons.injEq] at h
      obtain ⟨rfl, h⟩ := h
      obtain ⟨rfl, rfl⟩ := ih (fun z hz => ha z (by simp [hz])) (fun z hz => ha' z (by simp [hz]))
        hr hr' h
      exact ⟨rfl, rfl⟩

theorem append_inj_of_count [DecidableEq α] : ∀ {a a' r r' : List α},
    a.count x = a'.count x → a ++ x :: r = a' ++ x :: r' → a = a' ∧ r = r' := by
  intro a
  induction a with intro a' r r' hcount h
  | nil =>
    cases a' with
    | nil => exact ⟨rfl, (List.cons.inj h).2⟩
    | cons y ys =>
      -- 右の前半は区切りで始まるので、数が合わない
      obtain rfl : x = y := (List.cons.inj h).1
      simp at hcount
  | cons z zs ih =>
    cases a' with
    | nil =>
      obtain rfl : z = x := (List.cons.inj h).1
      simp at hcount
    | cons y ys =>
      simp only [cons_append, List.cons.injEq] at h
      obtain ⟨rfl, h⟩ := h
      have hrest : zs.count x = ys.count x := by
        rw [count_cons, count_cons] at hcount
        omega
      obtain ⟨rfl, rfl⟩ := ih hrest h
      exact ⟨rfl, rfl⟩

/-- つないだ列の一つの要素は、どれか一つの列の中にある。 -/
theorem flatMap_split {β : Type*} {f : α → List β} {pre post : List β} {b : β}
    (h : l.flatMap f = pre ++ b :: post) :
    ∃ p a q x y, l = p ++ a :: q ∧ pre = p.flatMap f ++ x ∧ f a = x ++ b :: y := by
  induction l generalizing pre with
  | nil => simp at h
  | cons a l ih =>
    rw [flatMap_cons] at h
    -- `b` が `f a` の中にあるか、残りにあるか
    have hcases : (∃ y, f a = pre ++ b :: y) ∨
        ∃ c, pre = f a ++ c ∧ l.flatMap f = c ++ b :: post := by
      rcases append_eq_append_iff.mp h with hrest | ⟨c, hhead, htail⟩
      · exact .inr hrest
      · cases c with
        | nil => exact .inr ⟨[], by simpa using hhead.symm, htail.symm⟩
        | cons c cs =>
          obtain ⟨rfl, -⟩ := List.cons.inj htail
          exact .inl ⟨cs, hhead⟩
    rcases hcases with ⟨y, hy⟩ | ⟨c, rfl, hrest⟩
    · exact ⟨[], a, l, pre, y, rfl, rfl, hy⟩
    · obtain ⟨p, a', q, x, y, rfl, rfl, ha'⟩ := ih hrest
      exact ⟨a :: p, a', q, x, y, rfl, by rw [flatMap_cons, append_assoc], ha'⟩

end Shingo.Infra
