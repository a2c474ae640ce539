import Mathlib.Data.List.Basic

/-!
# 列の中の、最初に当たるもの

条件に当たる最初の要素だけを書き換える `modifyFirst` と、`find?` を絞り込む補題。

条件に当たる要素の列（`filter p`）を queue と見ると、当たる要素を一つ使うことは
queue の先頭を取ることに等しい。
-/

namespace Shingo.Infra

open List

variable {α : Type*}

def modifyFirst (p : α → Bool) (f : α → α) : List α → List α
  | [] => []
  | a :: rest => if p a then f a :: rest else a :: modifyFirst p f rest

variable {p q : α → Bool} {f : α → α}

theorem filter_modifyFirst_self (hf : ∀ a, p a = true → p (f a) = false)
    (l : List α) : (modifyFirst p f l).filter p = (l.filter p).tail := by
  induction l with
  | nil => rfl
  | cons a rest ih =>
    unfold modifyFirst
    by_cases ha : p a = true
    · rw [if_pos ha, filter_cons_of_neg (by simp [hf a ha]), filter_cons_of_pos ha,
        tail_cons]
    · rw [if_neg ha, filter_cons_of_neg ha, filter_cons_of_neg ha, ih]

theorem filter_modifyFirst_other (hq : ∀ a, p a = true → q a = false ∧ q (f a) = false)
    (l : List α) : (modifyFirst p f l).filter q = l.filter q := by
  induction l with
  | nil => rfl
  | cons a rest ih =>
    unfold modifyFirst
    by_cases ha : p a = true
    · obtain ⟨hqa, hqf⟩ := hq a ha
      rw [if_pos ha, filter_cons_of_neg (by simp [hqf]),
        filter_cons_of_neg (by simp [hqa])]
    · rw [if_neg ha, filter_cons, filter_cons, ih]

variable {l : List α} {b a : α}

theorem perm_filter_modifyFirst (hpq : ∀ a, p a = true → q a = true ∧ q (f a) = false)
    (h : l.find? p = some b) : (l.filter q).Perm (b :: (modifyFirst p f l).filter q) := by
  induction l with
  | nil => cases h
  | cons a rest ih =>
    unfold modifyFirst
    by_cases ha : p a = true
    · rw [List.find?_cons_of_pos ha] at h
      obtain rfl := Option.some.inj h
      simp [ha, hpq a ha]
    · rw [List.find?_cons_of_neg ha] at h
      rw [if_neg ha, filter_cons, filter_cons]
      split
      · exact ((ih h).cons a).trans (List.Perm.swap _ _ _)
      · exact ih h

theorem mem_modifyFirst (ha : a ∈ modifyFirst p f l) : a ∈ l ∨ ∃ b ∈ l, p b = true ∧ a = f b := by
  induction l with
  | nil => cases ha
  | cons b rest ih =>
    unfold modifyFirst at ha
    by_cases hb : p b = true
    · rw [if_pos hb] at ha
      rcases mem_cons.mp ha with rfl | ha
      · exact .inr ⟨b, mem_cons_self, hb, rfl⟩
      · exact .inl (mem_cons_of_mem b ha)
    · rw [if_neg hb] at ha
      rcases mem_cons.mp ha with rfl | ha
      · exact .inl mem_cons_self
      · rcases ih ha with ha | ⟨c, hc, hpc, rfl⟩
        · exact .inl (mem_cons_of_mem b ha)
        · exact .inr ⟨c, mem_cons_of_mem b hc, hpc, rfl⟩

theorem find?_none_of_imp (hqp : ∀ a, q a = true → p a = true)
    (h : l.find? p = none) : l.find? q = none := by
  rw [List.find?_eq_none] at h ⊢
  exact fun a ha hq => h a ha (hqp a hq)

theorem find?_of_imp (hqp : ∀ a, q a = true → p a = true) (hb : q b = true)
    (h : l.find? p = some b) : l.find? q = some b := by
  rw [List.find?_eq_some_iff_append] at h ⊢
  obtain ⟨-, pre, post, rfl, hpre⟩ := h
  refine ⟨hb, pre, post, rfl, fun a ha => ?_⟩
  have hpa := hpre a ha
  by_contra hqa
  simp only [Bool.not_eq_true, Bool.not_eq_false'] at hqa
  simp [hqp a hqa] at hpa

theorem find?_of_nodup_map {κ : Type*} [BEq κ] [LawfulBEq κ] {f : α → κ} (hn : (l.map f).Nodup)
    (ha : a ∈ l) : l.find? (fun x => f x == f a) = some a := by
  rw [List.find?_eq_some_iff_append]
  obtain ⟨pre, post, rfl⟩ := append_of_mem ha
  refine ⟨by simp, pre, post, rfl, fun x hx => ?_⟩
  rw [map_append, nodup_append] at hn
  have hne := hn.2.2 (f x) (mem_map_of_mem hx) (f a) (by simp)
  simp [hne]

end Shingo.Infra
