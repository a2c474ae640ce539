import Mathlib
import Shingo.Infra.ListSplit

/-!
# 十進表記の一意性

`toString n` は数字だけからなるので、数字でない文字か終わりが続けば、
どこまでが数かは一通りに決まる。
-/

namespace Shingo.Infra

theorem toList_toString (n : Nat) : (toString n).toList = Nat.toDigits 10 n := by
  simp [toString]

variable {n m : Nat} {c : Char}

theorem isDigit_of_mem_toString (h : c ∈ (toString n).toList) : c.isDigit = true := by
  rw [toList_toString] at h
  exact Nat.isDigit_of_mem_toDigits (by omega) (by omega) h

theorem toString_append_inj {r r' : List Char} (hr : ∀ c ∈ r.head?, c.isDigit = false)
    (hr' : ∀ c ∈ r'.head?, c.isDigit = false)
    (h : (toString m).toList ++ r = (toString n).toList ++ r') : m = n ∧ r = r' := by
  obtain ⟨hd, hrest⟩ := append_inj_of_break (p := Char.isDigit)
    (fun _ hc => isDigit_of_mem_toString hc) (fun _ hc => isDigit_of_mem_toString hc) hr hr' h
  refine ⟨Nat.repr_injective ?_, hrest⟩
  exact String.toList_inj.mp hd

theorem toString_inj (h : toString m = toString n) : m = n :=
  Nat.repr_injective h

/-! ## 整数 -/

theorem toList_toString_negSucc (m : Nat) :
    (toString (Int.negSucc m)).toList = '-' :: (toString (m + 1)).toList := by
  show ("-" ++ Nat.repr (m + 1)).toList = _
  rw [String.toList_append]
  rfl

theorem digit_or_minus_of_mem_toString {n : Int} (h : c ∈ (toString n).toList) :
    c.isDigit = true ∨ c = '-' := by
  cases n with
  | ofNat m => exact .inl (isDigit_of_mem_toString (n := m) h)
  | negSucc m =>
    rw [toList_toString_negSucc] at h
    rcases List.mem_cons.mp h with rfl | h
    · exact .inr rfl
    · exact .inl (isDigit_of_mem_toString h)

theorem notMem_toString (hc : ¬ (c.isDigit = true ∨ c = '-')) (n : Int) : c ∉ (toString n).toList :=
  fun h => hc (digit_or_minus_of_mem_toString h)

theorem int_toString_inj {m n : Int} (h : toString m = toString n) : m = n := by
  -- 負の数だけが負号で始まる
  have hsign : ∀ a b : Nat, toString (Int.ofNat a) ≠ toString (Int.negSucc b) := by
    intro a b hab
    have hmem : '-' ∈ (toString a).toList := by
      show '-' ∈ (toString (Int.ofNat a)).toList
      rw [hab, toList_toString_negSucc]
      exact List.mem_cons_self
    exact absurd (isDigit_of_mem_toString hmem) (by decide)
  cases m with
  | ofNat a =>
    cases n with
    | ofNat b => exact congrArg Int.ofNat (toString_inj (m := a) (n := b) h)
    | negSucc b => exact absurd h (hsign a b)
  | negSucc a =>
    cases n with
    | ofNat b => exact absurd h.symm (hsign b a)
    | negSucc b =>
      have hl := congrArg String.toList h
      rw [toList_toString_negSucc, toList_toString_negSucc] at hl
      have heq := toString_inj (String.toList_inj.mp (List.cons.inj hl).2)
      rw [Nat.succ.inj heq]

end Shingo.Infra
