import Mathlib.Data.List.Basic

/-!
# 動作の列と不変条件

状態 `σ` の機械を、動作 `α` の列で一歩ずつ動かす。失敗しうる動作は、失敗したことを
動作の側に書いておく。こうすると一歩は関数になり、実行は動作の列だけで決まる。
-/

namespace Shingo.Infra

open List

variable {σ α : Type*} {l : List α}

theorem mem_append_last {x a : α} : x ∈ l ++ [a] ↔ x ∈ l ∨ x = a := by
  rw [mem_append, mem_singleton]

def runSteps (step : σ → α → σ) (s : σ) (as : List α) : σ := as.foldl step s

def visited (step : σ → α → σ) : σ → List α → List σ
  | s, [] => [s]
  | s, a :: as => s :: visited step (step s a) as

def AllSteps (step : σ → α → σ) (ok : σ → α → Prop) : σ → List α → Prop
  | _, [] => True
  | s, a :: as => ok s a ∧ AllSteps step ok (step s a) as

instance AllSteps.decidable (step : σ → α → σ) (ok : σ → α → Prop)
    [∀ s a, Decidable (ok s a)] : ∀ s as, Decidable (AllSteps step ok s as)
  | _, [] => .isTrue trivial
  | s, a :: as =>
    have := AllSteps.decidable step ok (step s a) as
    inferInstanceAs (Decidable (ok s a ∧ AllSteps step ok (step s a) as))

section

variable {step : σ → α → σ} {ok : σ → α → Prop} {Inv : σ → Prop}

theorem mem_visited_runSteps (s : σ) (as : List α) : runSteps step s as ∈ visited step s as := by
  induction as generalizing s with
  | nil => exact mem_singleton_self s
  | cons a as ih => exact mem_cons_of_mem _ (ih (step s a))

/-- **条件を満たす一歩が保つ性質は、通った状態のどれでも成り立つ。** -/
theorem AllSteps.visited_of_inv (hstep : ∀ s a, Inv s → ok s a → Inv (step s a)) :
    ∀ {as : List α} {s : σ}, Inv s → AllSteps step ok s as → ∀ t ∈ visited step s as, Inv t := by
  intro as
  induction as with
  | nil =>
    intro s hs _ t ht
    rw [visited, mem_singleton] at ht
    rwa [ht]
  | cons a as ih =>
    intro s hs hok t ht
    obtain ⟨ha, hrest⟩ := hok
    rcases mem_cons.mp ht with rfl | ht
    · exact hs
    · exact ih (hstep s a hs ha) hrest t ht

section

variable {R : σ → σ → Prop} (hrefl : ∀ s, R s s) (htrans : ∀ s t u, R s t → R t u → R s u)
  (hstep : ∀ s a, Inv s → ok s a → Inv (step s a) ∧ R s (step s a))
include hrefl htrans hstep

/-- **一歩ごとに成り立つ前後の関係は、通ったどの二つの状態の間でも成り立つ。** -/
theorem AllSteps.visited_pairwise :
    ∀ {as : List α} {s : σ}, Inv s → AllSteps step ok s as →
      (visited step s as).Pairwise R ∧ ∀ t ∈ visited step s as, R s t := by
  intro as
  induction as with
  | nil =>
    intro s _ _
    refine ⟨pairwise_singleton _ _, fun t ht => ?_⟩
    rw [mem_singleton.mp ht]
    exact hrefl s
  | cons a as ih =>
    rintro s hs ⟨ha, hrest⟩
    obtain ⟨hinv, hR⟩ := hstep s a hs ha
    obtain ⟨hpair, hfrom⟩ := ih hinv hrest
    have hall : ∀ t ∈ visited step (step s a) as, R s t := fun t ht =>
      htrans s (step s a) t hR (hfrom t ht)
    refine ⟨pairwise_cons.mpr ⟨hall, hpair⟩, fun t ht => ?_⟩
    rcases mem_cons.mp ht with rfl | ht
    · exact hrefl _
    · exact hall t ht

theorem AllSteps.visited_run :
    ∀ {as : List α} {s : σ}, Inv s → AllSteps step ok s as →
      ∀ t ∈ visited step s as, R t (runSteps step s as) := by
  intro as
  induction as with
  | nil =>
    intro s _ _ t ht
    rw [mem_singleton.mp ht]
    exact hrefl s
  | cons a as ih =>
    intro s hs hok t ht
    rcases mem_cons.mp ht with rfl | ht
    · exact (AllSteps.visited_pairwise hrefl htrans hstep hs hok).2 _ (mem_visited_runSteps _ _)
    · exact ih (hstep s a hs hok.1).1 hok.2 t ht

end

theorem AllSteps.of_inv {P : σ → α → Prop} (hstep : ∀ s a, Inv s → ok s a → Inv (step s a))
    (himp : ∀ s a, Inv s → ok s a → P s a) :
    ∀ {as : List α} {s : σ}, Inv s → AllSteps step ok s as → AllSteps step P s as := by
  intro as
  induction as with
  | nil => exact fun _ _ => trivial
  | cons a as ih =>
    rintro s hs ⟨ha, hrest⟩
    exact ⟨himp s a hs ha, ih (hstep s a hs ha) hrest⟩

theorem AllSteps.of_isChain {R : α → α → Prop}
    (hstep : ∀ s a, Inv s → ok s a → Inv (step s a) ∧ ∀ b, R a b → ok (step s a) b) :
    ∀ {as : List α} {s : σ}, Inv s → (∀ a ∈ as.head?, ok s a) → as.IsChain R →
      AllSteps step ok s as := by
  intro as
  induction as with
  | nil => exact fun _ _ _ => trivial
  | cons a as ih =>
    intro s hs hhead hchain
    have ha : ok s a := hhead a rfl
    obtain ⟨hinv, hnext⟩ := hstep s a hs ha
    refine ⟨ha, ?_⟩
    cases as with
    | nil => trivial
    | cons b bs =>
      obtain ⟨hab, hrest⟩ := isChain_cons_cons.mp hchain
      refine ih hinv ?_ hrest
      rintro c ⟨⟩
      exact hnext b hab

/-- **落ち着いた後、一度起きれば `Goal` になる。** -/
theorem AllSteps.settles {Goal : σ → Prop} {calm fires : α → Prop}
    (hstep : ∀ s a, Inv s → ok s a → Inv (step s a))
    (hkeep : ∀ s a, Inv s → ok s a → calm a → Goal s → Goal (step s a))
    (hfire : ∀ s a, Inv s → ok s a → calm a → fires a → Goal (step s a)) :
    ∀ {pre suf : List α} {s : σ}, Inv s → AllSteps step ok s (pre ++ suf) →
      (∀ a ∈ suf, calm a) → (∃ a ∈ suf, fires a) →
      Inv (runSteps step s (pre ++ suf)) ∧ Goal (runSteps step s (pre ++ suf)) := by
  -- `suf` の途中では、もう `Goal` であるか、まだ `fires` な動作が残っている
  have hsuf : ∀ {suf : List α} {s : σ}, Inv s → AllSteps step ok s suf → (∀ a ∈ suf, calm a) →
      (Goal s ∨ ∃ a ∈ suf, fires a) → Inv (runSteps step s suf) ∧ Goal (runSteps step s suf) := by
    intro suf
    induction suf with
    | nil =>
      rintro s hs _ _ (hg | ⟨a, ha, -⟩)
      · exact ⟨hs, hg⟩
      · exact absurd ha not_mem_nil
    | cons a suf ih =>
      rintro s hs ⟨ha, hrest⟩ hcalm hgoal
      have hc := hcalm a mem_cons_self
      refine ih (hstep s a hs ha) hrest (fun x hx => hcalm x (mem_cons_of_mem _ hx)) ?_
      rcases hgoal with hg | ⟨x, hx, hf⟩
      · exact .inl (hkeep s a hs ha hc hg)
      · rcases mem_cons.mp hx with rfl | hx
        · exact .inl (hfire s x hs ha hc hf)
        · exact .inr ⟨x, hx, hf⟩
  intro pre
  induction pre with
  | nil => exact fun hs hall hcalm hfires => hsuf hs hall hcalm (.inr hfires)
  | cons a pre ih =>
    rintro suf s hs ⟨ha, hrest⟩ hcalm hfires
    exact ih (hstep s a hs ha) hrest hcalm hfires

theorem visited_of_inv (hstep : ∀ s a, Inv s → Inv (step s a)) :
    ∀ {as : List α} {s : σ}, Inv s → ∀ t ∈ visited step s as, Inv t := by
  intro as s hs
  have hall : AllSteps step (fun _ _ => True) s as := by
    clear hs
    induction as generalizing s with
    | nil => trivial
    | cons a as ih => exact ⟨trivial, ih⟩
  exact AllSteps.visited_of_inv (fun s a h _ => hstep s a h) hs hall

end

/-! ## 失敗しうる列 -/

variable {ε : Type*} {P : σ → Prop} {i : Nat}

theorem toOption_getD_of {r : Except ε σ} {s : σ} (hs : P s) (h : ∀ s', r = .ok s' → P s') :
    P (r.toOption.getD s) := by
  cases r with
  | error e => exact hs
  | ok s' => exact h s' rfl

theorem foldlM_ok_inv {f : σ → α → Except ε σ} :
    ∀ {as : List α} {s s' : σ}, (∀ a ∈ as, ∀ s s', P s → f s a = .ok s' → P s') →
      as.foldlM f s = .ok s' → P s → P s' := by
  intro as
  induction as with
  | nil =>
    rintro s s' - h hs
    cases h
    exact hs
  | cons a as ih =>
    rintro s s' hstep h hs
    rw [foldlM_cons] at h
    cases ha : f s a with
    | error e => rw [ha] at h; cases h
    | ok s₁ =>
      rw [ha] at h
      exact ih (fun b hb => hstep b (mem_cons_of_mem _ hb)) h
        (hstep a mem_cons_self s s₁ hs ha)

/-! ## 伸びる一覧と、その要素の書き換え -/

variable {x y : α}

theorem getElem?_append_left_of_lt (h : l[i]? = some x) : (l ++ [y])[i]? = some x := by
  rw [List.getElem?_append_left (List.getElem?_eq_some_iff.mp h).1]
  exact h

theorem getElem?_append_cases (h : (l ++ [y])[i]? = some x) :
    l[i]? = some x ∨ (i = l.length ∧ x = y) := by
  by_cases hi : i < l.length
  · rw [List.getElem?_append_left hi] at h
    exact .inl h
  · rw [List.getElem?_append_right (Nat.not_lt.mp hi)] at h
    obtain ⟨hlt, h⟩ := List.getElem?_eq_some_iff.mp h
    simp only [length_singleton, Nat.lt_one_iff] at hlt
    refine .inr ⟨by omega, ?_⟩
    simpa [hlt] using h.symm

theorem getElem?_set_cases {j : Nat} (h : (l.set i x)[j]? = some y) :
    (j = i ∧ y = x) ∨ (j ≠ i ∧ l[j]? = some y) := by
  by_cases hji : j = i
  · subst hji
    obtain ⟨hlt, hget⟩ := List.getElem?_eq_some_iff.mp h
    rw [getElem_set_self] at hget
    exact .inl ⟨rfl, hget.symm⟩
  · rw [List.getElem?_set_ne (Ne.symm hji)] at h
    exact .inr ⟨hji, h⟩

theorem mem_set_cases (h : y ∈ l.set i x) : y = x ∨ y ∈ l.eraseIdx i := by
  obtain ⟨j, hj⟩ := mem_iff_getElem?.mp h
  rcases getElem?_set_cases hj with ⟨-, rfl⟩ | ⟨hne, hj⟩
  · exact .inl rfl
  · exact .inr (mem_eraseIdx_iff_getElem?.mpr ⟨j, hne, hj⟩)

theorem countP_set_of_getElem? {p : α → Bool} (h : l[i]? = some x) :
    (l.set i y).countP p + (if p x then 1 else 0) = l.countP p + (if p y then 1 else 0) := by
  obtain ⟨hi, hx⟩ := List.getElem?_eq_some_iff.mp h
  have hle : (if p x then 1 else 0) ≤ l.countP p := by
    by_cases hp : p x = true
    · rw [if_pos hp, Nat.one_le_iff_ne_zero, ← Nat.pos_iff_ne_zero, countP_pos_iff]
      exact ⟨x, mem_of_getElem? h, hp⟩
    · rw [if_neg hp]
      exact Nat.zero_le _
  rw [countP_set hi, hx]
  omega

end Shingo.Infra
