import Shingo.Infra.Run

/-!
# 単調な最終番号による重複よけ

鍵ごとに最後に受け付けた番号だけを覚え、それより大きい番号だけを受け付ける表。
番号の付いた message の列 `msgs` を、添字の順を問わず何度でも届けるとき、
何が受け付けられるかを言う。
-/

namespace Shingo.Infra

open List

variable {K : Type*}

abbrev Watermark (K : Type*) := K → Option Nat

variable {t : Nat}

namespace Watermark

variable (w : Watermark K)

def Covers (k : K) (seq : Nat) : Prop := ∃ last, w k = some last ∧ seq ≤ last

instance (w : Watermark K) (k : K) (seq : Nat) : Decidable (w.Covers k seq) :=
  match h : w k with
  | none => .isFalse fun ⟨_, hl, _⟩ => by rw [h] at hl; cases hl
  | some last =>
    if hle : seq ≤ last then .isTrue ⟨last, h, hle⟩
    else .isFalse fun ⟨_, hl, hle'⟩ => by rw [h] at hl; cases hl; exact hle hle'

variable [DecidableEq K]

def set (k : K) (seq : Nat) : Watermark K :=
  fun j => if j = k then some seq else w j

@[simp] theorem set_self (k : K) (seq : Nat) : w.set k seq k = some seq :=
  if_pos rfl

variable {k j : K} {seq : Nat}

theorem set_of_ne (seq : Nat) (h : j ≠ k) : w.set k seq j = w j :=
  if_neg h

def claim (k : K) (seq : Nat) : Watermark K × Bool :=
  match w k with
  | none => (w.set k seq, true)
  | some last => if last < seq then (w.set k seq, true) else (w, false)

theorem claim_of_covers {w : Watermark K} (h : w.Covers k seq) : w.claim k seq = (w, false) := by
  obtain ⟨last, hl, hle⟩ := h
  simp only [claim, hl, if_neg (Nat.not_lt.mpr hle)]

theorem claim_of_not_covers {w : Watermark K} (h : ¬ w.Covers k seq) :
    w.claim k seq = (w.set k seq, true) := by
  unfold claim
  cases hl : w k with
  | none => rfl
  | some last =>
    have hlt : last < seq := Nat.lt_of_not_le fun hle => h ⟨last, hl, hle⟩
    simp only [if_pos hlt]

theorem covers_claim_iff {w : Watermark K} :
    (w.claim k seq).1.Covers j t ↔ w.Covers j t ∨ (j = k ∧ t ≤ seq) := by
  by_cases hc : w.Covers k seq
  · rw [claim_of_covers hc]
    refine ⟨Or.inl, ?_⟩
    rintro (h | ⟨rfl, hle⟩)
    · exact h
    · obtain ⟨last, hl, hle'⟩ := hc
      exact ⟨last, hl, Nat.le_trans hle hle'⟩
  · rw [claim_of_not_covers hc]
    unfold Covers
    by_cases hj : j = k
    · subst hj
      simp only [set_self, Option.some.injEq, exists_eq_left', true_and]
      refine ⟨Or.inr, ?_⟩
      rintro (⟨last, hl, hle⟩ | hle)
      · have hlt : last < seq := Nat.lt_of_not_le fun h => hc ⟨last, hl, h⟩
        omega
      · exact hle
    · simp only [set_of_ne w seq hj, hj, false_and, or_false]

end Watermark

/-! ## message の列 -/

section Stream

variable {w : Watermark K} {msgs : List (K × Nat)} {delivered : List Nat} {k : K}

def Ascending (msgs : List (K × Nat)) (k : K) : Prop :=
  msgs.Pairwise fun x y => x.1 = k → y.1 = k → x.2 < y.2

/-- 覆われている鍵 `k` の message は、もう届いている。 -/
def Unseen (w : Watermark K) (msgs : List (K × Nat)) (delivered : List Nat) (k : K) : Prop :=
  ∀ i s, msgs[i]? = some (k, s) → w.Covers k s → i ∈ delivered

/-- 鍵 `k` の最終番号は、届いた message の番号。 -/
def Marked (w : Watermark K) (msgs : List (K × Nat)) (delivered : List Nat) (k : K) : Prop :=
  ∀ last, w k = some last → ∃ i ∈ delivered, msgs[i]? = some (k, last)

/-- 鍵 `k` の message は、前のものから順に届いている。 -/
def DownClosed (msgs : List (K × Nat)) (delivered : List Nat) (k : K) : Prop :=
  ∀ i ∈ delivered, ∀ j s t, j < i → msgs[i]? = some (k, s) → msgs[j]? = some (k, t) →
    j ∈ delivered

variable {i s : Nat} {k' : K}

theorem Ascending.lt_of_lt (h : Ascending msgs k) {j : Nat} (hij : i < j)
    (hi : msgs[i]? = some (k, s)) (hj : msgs[j]? = some (k, t)) : s < t := by
  obtain ⟨hi', hi⟩ := List.getElem?_eq_some_iff.mp hi
  obtain ⟨hj', hj⟩ := List.getElem?_eq_some_iff.mp hj
  have := pairwise_iff_getElem.mp h i j hi' hj' hij
  rw [hi, hj] at this
  exact this rfl rfl

variable {m : K × Nat}

theorem Marked.append (h : Marked w msgs delivered k) : Marked w (msgs ++ [m]) delivered k := by
  intro last hl
  obtain ⟨i, hi, hm⟩ := h last hl
  exact ⟨i, hi, getElem?_append_left_of_lt hm⟩

/-- **番号の増えた message は、足したときには覆われていない。** -/
theorem Unseen.append (h : Unseen w msgs delivered k) (hmark : Marked w msgs delivered k)
    (hasc : Ascending (msgs ++ [m]) k) : Unseen w (msgs ++ [m]) delivered k := by
  intro i s hi hc
  rcases getElem?_append_cases hi with hi | ⟨rfl, rfl⟩
  · exact h i s hi hc
  · -- 最終番号は前からある message の番号なので、足した番号より小さい
    obtain ⟨last, hl, hle⟩ := hc
    obtain ⟨j, -, hj⟩ := hmark last hl
    have hlt := hasc.lt_of_lt (List.getElem?_eq_some_iff.mp hj).1
      (getElem?_append_left_of_lt hj) hi
    omega

theorem DownClosed.append (h : DownClosed msgs delivered k)
    (hlt : ∀ i ∈ delivered, i < msgs.length) : DownClosed (msgs ++ [m]) delivered k := by
  intro i hi j s t hji hs ht
  have hl := hlt i hi
  rw [List.getElem?_append_left hl] at hs
  rw [List.getElem?_append_left (by omega)] at ht
  exact h i hi j s t hji hs ht

theorem DownClosed.deliver (h : DownClosed msgs delivered k)
    (hord : ∀ j s t, j < i → msgs[i]? = some (k, s) → msgs[j]? = some (k, t) → j ∈ delivered) :
    DownClosed msgs (delivered ++ [i]) k := by
  intro n hn j s t hjn hs ht
  refine mem_append_left _ ?_
  rcases Infra.mem_append_last.mp hn with hn | rfl
  · exact h n hn j s t hjn hs ht
  · exact hord j s t hjn hs ht

theorem Unseen.deliver (h : Unseen w msgs delivered k) (i : Nat) :
    Unseen w msgs (delivered ++ [i]) k :=
  fun j s hj hc => mem_append_left _ (h j s hj hc)

theorem Marked.deliver (h : Marked w msgs delivered k) (i : Nat) :
    Marked w msgs (delivered ++ [i]) k := by
  intro last hl
  obtain ⟨j, hj, hm⟩ := h last hl
  exact ⟨j, mem_append_left _ hj, hm⟩

variable [DecidableEq K]

/-- **順に届けた message を受け付けても、届けていない message は覆われない。** -/
theorem Unseen.claim (h : Unseen w msgs delivered k) (hasc : Ascending msgs k)
    (hi : msgs[i]? = some (k', s))
    (hord : k = k' → ∀ j t, j < i → msgs[j]? = some (k', t) → j ∈ delivered) :
    Unseen (w.claim k' s).1 msgs (delivered ++ [i]) k := by
  intro j t hj hc
  rcases Watermark.covers_claim_iff.mp hc with hc | ⟨rfl, hle⟩
  · exact mem_append_left _ (h j t hj hc)
  · rcases Nat.lt_trichotomy j i with hlt | rfl | hgt
    · exact mem_append_left _ (hord rfl j t hlt hj)
    · exact mem_append_right _ (mem_singleton_self j)
    · have := hasc.lt_of_lt hgt hi hj
      omega

theorem Marked.claim (h : Marked w msgs delivered k) (hi : msgs[i]? = some (k', s))
    (hc : ¬ w.Covers k' s) : Marked (w.claim k' s).1 msgs (delivered ++ [i]) k := by
  intro last hl
  rw [Watermark.claim_of_not_covers hc] at hl
  by_cases hk : k = k'
  · subst hk
    simp only [Watermark.set_self, Option.some.injEq] at hl
    subst hl
    exact ⟨i, mem_append_right _ (mem_singleton_self i), hi⟩
  · simp only [Watermark.set_of_ne w s hk] at hl
    exact h.deliver i last hl

end Stream

end Shingo.Infra
