import Mathlib.Data.List.Basic

/-!
# pointer を持つ map

鍵から pointer を引く表と、pointer の指す cell。表から外れた cell も、pointer を
持っている者がいるかぎり読み書きできる。並行に使われる map（`LoadOrStore`、
`CompareAndDelete`、cell ごとの lock）の、一つの操作を一つの関数にしたもの。
-/

namespace Shingo.Infra

variable {K E : Type*}

structure PtrMap (K E : Type*) where
  cells : List (K × E)
  slot : K → Option Nat

namespace PtrMap

def empty : PtrMap K E := { cells := [], slot := fun _ => none }

def get? (m : PtrMap K E) (p : Nat) : Option (K × E) := m.cells[p]?

def loadOrStore [DecidableEq K] (m : PtrMap K E) (k : K) (x : E) : PtrMap K E × Nat :=
  match m.slot k with
  | some p => (m, p)
  | none =>
    ({ cells := m.cells ++ [(k, x)], slot := Function.update m.slot k (some m.cells.length) },
      m.cells.length)

def modify (m : PtrMap K E) (p : Nat) (f : E → E) : PtrMap K E :=
  { m with cells := m.cells.modify p fun (k, e) => (k, f e) }

def compareAndDelete [DecidableEq K] (m : PtrMap K E) (k : K) (p : Nat) : PtrMap K E :=
  if m.slot k = some p then { m with slot := Function.update m.slot k none } else m

def held (v : E → Int) (m : PtrMap K E) (k : K) : Int :=
  match m.slot k with
  | none => 0
  | some p => ((m.get? p).map fun c => v c.2).getD 0

/-- 表と cell のつじつま。`dead` は、もう書かれない cell の印。 -/
structure Sound (dead : E → Prop) (m : PtrMap K E) : Prop where
  slotValid : ∀ {k p}, m.slot k = some p → ∃ e, m.get? p = some (k, e)
  unmappedDead : ∀ {p k e}, m.get? p = some (k, e) → m.slot k ≠ some p → dead e

variable {e : E} {v : E → Int} {dead : E → Prop} {k : K} {q : Nat}

theorem Sound.empty : Sound dead (empty : PtrMap K E) where
  slotValid h := by cases h
  unmappedDead h := by simp [PtrMap.empty, get?] at h

variable {m : PtrMap K E} {p : Nat}

theorem Sound.mapped (h : Sound dead m)
    (he : m.get? p = some (k, e)) (hlive : ¬ dead e) : m.slot k = some p := by
  by_contra hc
  exact hlive (h.unmappedDead he hc)

theorem held_of_slot (hs : m.slot k = some p) (he : m.get? p = some (k, e)) : m.held v k = v e := by
  simp [held, hs, he]

/-! ## cell の書き換え -/

variable {f : E → E}

theorem get?_modify : (m.modify p f).get? q
      = if p = q then (m.get? q).map fun c => (c.1, f c.2) else m.get? q := by
  simp only [modify, get?, List.getElem?_modify]
  split
  · rfl
  · simp

theorem get?_modify_self (h : m.get? p = some (k, e)) : (m.modify p f).get? p = some (k, f e) := by
  rw [get?_modify, if_pos rfl, h]
  rfl

theorem get?_modify_cases (h : (m.modify p f).get? q = some (k, e)) :
    (p = q ∧ ∃ e₀, m.get? q = some (k, e₀) ∧ e = f e₀) ∨ (p ≠ q ∧ m.get? q = some (k, e)) := by
  rw [get?_modify] at h
  split at h
  · rename_i hpq
    obtain ⟨⟨k₀, e₀⟩, h₀, h₁⟩ := Option.map_eq_some_iff.mp h
    obtain ⟨rfl, rfl⟩ := h₁
    exact .inl ⟨hpq, e₀, h₀, rfl⟩
  · rename_i hpq
    exact .inr ⟨hpq, h⟩

theorem exists_get?_modify
    (h : m.get? q = some (k, e)) : ∃ e', (m.modify p f).get? q = some (k, e') := by
  rw [get?_modify, h]
  split
  · exact ⟨f e, rfl⟩
  · exact ⟨e, rfl⟩

theorem Sound.modify (h : Sound dead m)
    (hf : ∀ {k e}, m.get? p = some (k, e) → dead e → dead (f e)) : Sound dead (m.modify p f) where
  slotValid := by
    intro k q hq
    obtain ⟨e, he⟩ := h.slotValid hq
    exact exists_get?_modify he
  unmappedDead := by
    intro q k e he hs
    rcases get?_modify_cases he with ⟨rfl, e₀, h₀, rfl⟩ | ⟨-, h₀⟩
    · exact hf h₀ (h.unmappedDead h₀ hs)
    · exact h.unmappedDead h₀ hs

/-- **表にある cell の書き換えは、その鍵の値だけを動かす。** -/
theorem held_modify (h : Sound dead m)
    [DecidableEq K] (he : m.get? p = some (k, e)) (hs : m.slot k = some p) (j : K) :
    (m.modify p f).held v j = m.held v j + if j = k then v (f e) - v e else 0 := by
  by_cases hj : j = k
  · subst hj
    rw [if_pos rfl, held_of_slot hs he, held_of_slot (m := m.modify p f) hs (get?_modify_self he)]
    omega
  · rw [if_neg hj, Int.add_zero]
    unfold held
    show (match m.slot j with | none => _ | some q => _) = _
    cases hq : m.slot j with
    | none => rfl
    | some q =>
      have hpq : p ≠ q := by
        rintro rfl
        obtain ⟨e', he'⟩ := h.slotValid hq
        rw [he] at he'
        cases he'
        exact hj rfl
      simp only [get?_modify, if_neg hpq]

theorem held_modify_same (hf : ∀ {k e}, m.get? p = some (k, e) → v (f e) = v e) (j : K) :
    (m.modify p f).held v j = m.held v j := by
  unfold held
  show (match m.slot j with | none => _ | some q => _) = _
  cases hq : m.slot j with
  | none => rfl
  | some q =>
    simp only [get?_modify]
    split
    · rename_i hpq
      subst hpq
      cases hc : m.get? p with
      | none => rfl
      | some c => simp [hf (k := c.1) (e := c.2) hc]
    · rfl

/-! ## `loadOrStore` -/

section

variable [DecidableEq K]

theorem loadOrStore_spec (h : Sound dead m) {x : E} : Sound dead (m.loadOrStore k x).1
      ∧ (∃ e, (m.loadOrStore k x).1.get? (m.loadOrStore k x).2 = some (k, e))
      ∧ (∀ {p c}, m.get? p = some c → (m.loadOrStore k x).1.get? p = some c)
      ∧ (∀ {p c}, (m.loadOrStore k x).1.get? p = some c →
          m.get? p = some c ∨ c = (k, x)) := by
  unfold loadOrStore
  cases hs : m.slot k with
  | some p =>
    exact ⟨h, h.slotValid hs, fun hc => hc, fun hc => .inl hc⟩
  | none =>
    have hkeep : ∀ {p c}, m.get? p = some c → (m.cells ++ [(k, x)])[p]? = some c := by
      intro p c hc
      obtain ⟨hlt, -⟩ := List.getElem?_eq_some_iff.mp hc
      rw [List.getElem?_append_left hlt]
      exact hc
    have hnew : ∀ {p c}, (m.cells ++ [(k, x)])[p]? = some c →
        m.get? p = some c ∨ p = m.cells.length ∧ c = (k, x) := by
      intro p c hc
      rw [List.getElem?_append] at hc
      split at hc
      · exact .inl hc
      rename_i hlt
      obtain ⟨hlt', hc⟩ := List.getElem?_eq_some_iff.mp hc
      simp only [List.length_singleton] at hlt'
      obtain rfl : p = m.cells.length := by omega
      right
      simpa using hc.symm
    refine ⟨⟨?_, ?_⟩, ⟨x, by simp [get?]⟩, hkeep, ?_⟩
    · intro j p hp
      simp only [Function.update_apply] at hp
      split at hp
      · rename_i hj
        cases hp
        exact ⟨x, by simp [get?, hj]⟩
      · obtain ⟨e, he⟩ := h.slotValid hp
        exact ⟨e, hkeep he⟩
    · intro p j e he hp
      simp only [Function.update_apply] at hp
      rcases hnew he with he | ⟨rfl, hc⟩
      · refine h.unmappedDead he fun hj => ?_
        by_cases hjk : j = k
        · subst hjk
          rw [hs] at hj
          cases hj
        · rw [if_neg hjk] at hp
          exact hp hj
      · cases hc
        rw [if_pos rfl] at hp
        exact absurd rfl hp
    · intro p c hc
      rcases hnew hc with hc | ⟨-, hc⟩
      · exact .inl hc
      · exact .inr hc

theorem held_loadOrStore (h : Sound dead m) {x : E} (hf : v x = 0) (j : K) :
    (m.loadOrStore k x).1.held v j = m.held v j := by
  unfold loadOrStore
  cases hs : m.slot k with
  | some p => rfl
  | none =>
    unfold held get?
    simp only [Function.update_apply]
    by_cases hj : j = k
    · subst hj
      simp [hs, hf]
    · rw [if_neg hj]
      cases hq : m.slot j with
      | none => rfl
      | some q =>
        obtain ⟨e, he⟩ := h.slotValid hq
        obtain ⟨hlt, -⟩ := List.getElem?_eq_some_iff.mp he
        simp only [List.getElem?_append_left hlt]

/-! ## `compareAndDelete` -/

@[simp] theorem get?_compareAndDelete : (m.compareAndDelete k p).get? q = m.get? q := by
  unfold compareAndDelete
  split <;> rfl

theorem Sound.compareAndDelete (h : Sound dead m) (he : m.get? p = some (k, e)) (hd : dead e) :
    Sound dead (m.compareAndDelete k p) := by
  unfold PtrMap.compareAndDelete
  split
  · rename_i hs
    constructor
    · intro j q hq
      simp only [Function.update_apply] at hq
      split at hq
      · cases hq
      · exact h.slotValid hq
    · intro q j e' he' hq
      simp only [Function.update_apply] at hq
      by_cases hj : m.slot j = some q
      · by_cases hjk : j = k
        · subst hjk
          obtain rfl : p = q := Option.some.inj (hs.symm.trans hj)
          cases he.symm.trans he'
          exact hd
        · rw [if_neg hjk] at hq
          exact absurd hj hq
      · exact h.unmappedDead he' hj
  · exact h

theorem held_compareAndDelete (he : m.get? p = some (k, e)) (hv : v e = 0) (j : K) :
    (m.compareAndDelete k p).held v j = m.held v j := by
  unfold compareAndDelete
  split
  · rename_i hs
    unfold held
    simp only [Function.update_apply]
    by_cases hj : j = k
    · subst hj
      simp [hs, he, hv]
    · rw [if_neg hj]
      rfl
  · rfl

end

end PtrMap

end Shingo.Infra
