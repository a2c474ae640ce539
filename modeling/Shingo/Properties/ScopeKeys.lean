import Shingo.Edge.Accumulator
import Shingo.Infra.Decimal
import Shingo.Properties.Applier

/-!
# 範囲の鍵は bucket を決めるか

edge と core の `bucketScopeKey` は、node・pair key・style id・part を `|` でつないだだけの
文字列で、成分の中の `|` を逃がさない。style id の表記に `|` は入らないので、鍵が重なるのは、
一方の pair key（core では node 名と pair key をつないだもの）がもう一方に `|` と整数を続けて、
そこで終わるか `|` の続く文字列であるとき（`Extends`）に限る。
-/

namespace Shingo.Core

open Infra Protocol

def bars (s : String) : Nat := s.toList.count '|'

theorem bars_toString (n : Int) : bars (toString n) = 0 := by
  unfold bars
  rw [List.count_eq_zero]
  exact notMem_toString (by decide) n

theorem toList_bar_inj {s s' : String} {r r' : List Char} (hbars : bars s = bars s')
    (h : s.toList ++ '|' :: r = s'.toList ++ '|' :: r') : s = s' ∧ r = r' := by
  obtain ⟨hs, hr⟩ := append_inj_of_count hbars h
  exact ⟨String.toList_inj.mp hs, hr⟩

def scopeTail (pairKey : String) (styleID : Int) (partNumber : String) : List Char :=
  pairKey.toList ++ '|' :: ((toString styleID).toList ++ '|' :: partNumber.toList)

variable {p p' q q' : String} {n n' s s' : Int}

/-- **pair key の区切りの数が同じなら、後ろの三つの成分は読み戻せる。** -/
theorem scopeTail_inj (hbars : bars p = bars p') (h : scopeTail p n q = scopeTail p' n' q') :
    p = p' ∧ n = n' ∧ q = q' := by
  obtain ⟨hp, h⟩ := toList_bar_inj hbars h
  have hnum : bars (toString n) = bars (toString n') := by rw [bars_toString, bars_toString]
  obtain ⟨hn, hq⟩ := toList_bar_inj hnum h
  exact ⟨hp, int_toString_inj hn, String.toList_inj.mp hq⟩

theorem toList_scopeKey (x p : String) (n : Int) (q : String) :
    (x ++ "|" ++ p ++ "|" ++ toString n ++ "|" ++ q).toList
      = x.toList ++ '|' :: scopeTail p n q := by
  have hbar : ("|" : String).toList = ['|'] := rfl
  simp only [String.toList_append, hbar, List.append_assoc, List.cons_append, List.nil_append,
    scopeTail]

/-- `p'` は `p` に `|` と整数を続けた文字列で、そこで終わるか、`|` が続く。 -/
def Extends (p p' : String) : Prop :=
  ∃ (s : Int) (rest : String), p'.toList ++ ['|'] = scopeTail p s rest

/-- 区切りの無い `a` は、区切りで割った最初の成分。 -/
theorem first_component {a r b c : List Char} (ha : '|' ∉ a)
    (h : a ++ '|' :: b = r ++ '|' :: c) : ∃ rest, r ++ ['|'] = a ++ '|' :: rest := by
  rcases List.append_eq_append_iff.mp h with ⟨t, rfl, ht⟩ | ⟨t, rfl, ht⟩
  · cases t with
    | nil => exact ⟨[], by simp⟩
    | cons x t =>
      cases (List.cons.inj ht).1
      exact ⟨t ++ ['|'], by simp⟩
  · cases t with
    | nil => exact ⟨[], by simp⟩
    | cons x t =>
      cases (List.cons.inj ht).1
      exact absurd (List.mem_append_right r List.mem_cons_self) ha

theorem extends_of_append {r b c : List Char} (hp : p'.toList = p.toList ++ r)
    (h : '|' :: ((toString n).toList ++ '|' :: b) = r ++ '|' :: c) : p = p' ∨ Extends p p' := by
  cases r with
  | nil => exact .inl (String.toList_inj.mp (by simpa using hp.symm))
  | cons x r =>
    obtain ⟨rfl, htail⟩ := List.cons.inj h
    obtain ⟨rest, hrest⟩ := first_component (notMem_toString (by decide) n) htail
    refine .inr ⟨n, .ofList rest, ?_⟩
    rw [hp, scopeTail, String.toList_ofList, List.append_assoc, List.cons_append, hrest]

theorem scopeTail_cases (h : scopeTail p n q = scopeTail p' n' q') :
    p = p' ∨ Extends p p' ∨ Extends p' p := by
  rcases List.append_eq_append_iff.mp h with ⟨r, hp, hr⟩ | ⟨r, hp, hr⟩
  · exact (extends_of_append hp hr).imp_right .inl
  · exact (extends_of_append hp hr).imp Eq.symm .inr

theorem Extends.collide (h : Extends p p') :
    p ≠ p' ∧ ∃ s q, scopeTail p s q = scopeTail p' 0 "" := by
  obtain ⟨s, rest, h⟩ := h
  constructor
  · rintro rfl
    have := (List.cons.inj (List.append_cancel_left h)).2
    simp at this
  · refine ⟨s, rest ++ "0|", ?_⟩
    have htail : scopeTail p s (rest ++ "0|") = scopeTail p s rest ++ ['0', '|'] := by
      simp [scopeTail]
    rw [htail, ← h]
    simp only [scopeTail, List.append_assoc, List.cons_append, List.nil_append]
    rfl

/-- **後ろの三つの成分がいつも読み戻せるのは、どちらの pair key も、もう一方に整数を
続けたものでないとき、かつそのときに限る。** -/
theorem scopeTail_inj_iff (p p' : String) :
    (∀ s s' q q', scopeTail p s q = scopeTail p' s' q' → p = p' ∧ s = s' ∧ q = q') ↔
      ¬ Extends p p' ∧ ¬ Extends p' p := by
  constructor
  · intro h
    refine ⟨fun he => ?_, fun he => ?_⟩
    · obtain ⟨hne, s, q, hkey⟩ := he.collide
      exact hne (h _ _ _ _ hkey).1
    · obtain ⟨hne, s, q, hkey⟩ := he.collide
      exact hne (h _ _ _ _ hkey.symm).1.symm
  · rintro ⟨h₁, h₂⟩ s s' q q' h
    obtain rfl := (scopeTail_cases h).resolve_right fun he => he.elim h₁ h₂
    exact scopeTail_inj rfl h

theorem edge_key_iff : Edge.bucketScopeKey n p s q = Edge.bucketScopeKey n' p' s' q' ↔
    n = n' ∧ scopeTail p s q = scopeTail p' s' q' := by
  unfold Edge.bucketScopeKey
  rw [← String.toList_inj, toList_scopeKey, toList_scopeKey]
  constructor
  · intro h
    have hnum : bars (toString n) = bars (toString n') := by rw [bars_toString, bars_toString]
    obtain ⟨hn, h⟩ := toList_bar_inj hnum h
    exact ⟨int_toString_inj hn, h⟩
  · rintro ⟨rfl, h⟩
    rw [h]

theorem core_key_iff {x x' : String} : bucketScopeKey x p s q = bucketScopeKey x' p' s' q' ↔
    scopeTail (x ++ "|" ++ p) s q = scopeTail (x' ++ "|" ++ p') s' q' := by
  unfold bucketScopeKey
  rw [← String.toList_inj]
  simp [scopeTail]

/--
**鍵が bucket を決めるのは、どちらの pair key も、もう一方に整数を続けたものでないとき、かつ
そのときに限る。**

core の鍵では、node 名と pair key をつないだもの同士で言う。
-/
theorem scope_keys_separate (x x' p p' : String) :
    ((∀ n n' s s' q q', Edge.bucketScopeKey n p s q = Edge.bucketScopeKey n' p' s' q' →
        (n, p, s, q) = (n', p', s', q')) ↔ ¬ Extends p p' ∧ ¬ Extends p' p) ∧
    ((∀ s s' q q', bucketScopeKey x p s q = bucketScopeKey x' p' s' q' →
        (x, p, s, q) = (x', p', s', q')) ↔
      (x ++ "|" ++ p = x' ++ "|" ++ p' → x = x' ∧ p = p') ∧
        ¬ Extends (x ++ "|" ++ p) (x' ++ "|" ++ p') ∧
        ¬ Extends (x' ++ "|" ++ p') (x ++ "|" ++ p)) := by
  constructor
  · rw [← scopeTail_inj_iff]
    simp only [edge_key_iff, Prod.mk.injEq]
    constructor
    · intro h s s' q q' hkey
      exact (h 0 0 s s' q q' ⟨rfl, hkey⟩).2
    · rintro h n n' s s' q q' ⟨hn, hkey⟩
      exact ⟨hn, h s s' q q' hkey⟩
  · rw [← scopeTail_inj_iff]
    simp only [core_key_iff, Prod.mk.injEq]
    constructor
    · intro h
      refine ⟨fun hjoin => ?_, fun s s' q q' hkey => ?_⟩
      · obtain ⟨hx, hp, -⟩ := h 0 0 "" "" (by rw [hjoin])
        exact ⟨hx, hp⟩
      · obtain ⟨rfl, rfl, hs, hq⟩ := h s s' q q' hkey
        exact ⟨rfl, hs, hq⟩
    · rintro ⟨hjoin, h⟩ s s' q q' hkey
      obtain ⟨hy, hs, hq⟩ := h s s' q q' hkey
      obtain ⟨hx, hp⟩ := hjoin hy
      exact ⟨hx, hp, hs, hq⟩

def firstFill (pairKey : String) (styleID : Int) (partNumber : String) : LinesideBucketDelta where
  coreNodeName := "N"
  pairKey
  styleID
  partNumber
  payloadCode := ""
  delta := 5
  reason := some .captureFill
  sequenceID := 1
  windowStart := 1
  windowEnd := 1

/-! ## 鍵が重なるとき -/

def oneNodeCore : CoreInventory where
  bins _ := none
  buckets _ := none
  nodes name := name == "N"
  dedup _ := none
  ledger := []
  exceptions := []
  announced := []
  announceWired := false
  repaired _ := 0
  binManifest := none
  droppedStaleEpoch := 0
  droppedPayloadMismatch := 0

/--
pair key `A|1|B`・style 2・part `C` と、pair key `A`・style 1・part `B|2|C` は別の bucket だが、
edge でも core でも同じ鍵になる。core に両方の最初の電文が届くと、二つ目は「適用済み」として
飛ばされ、その bucket の行は作られない。
-/
theorem scope_keys_collide :
    Edge.bucketScopeKey 7 "A|1|B" 2 "C" = Edge.bucketScopeKey 7 "A" 1 "B|2|C"
    ∧ bucketScopeKey "N" "A|1|B" 2 "C" = bucketScopeKey "N" "A" 1 "B|2|C"
    ∧ (let applied := applyLinesideBucketDelta oneNodeCore "E1" (firstFill "A|1|B" 2 "C")
       applied.2 = none
       ∧ (applyLinesideBucketDelta applied.1 "E1" (firstFill "A" 1 "B|2|C")).2 = some .skipped
       ∧ (applyLinesideBucketDelta applied.1 "E1" (firstFill "A" 1 "B|2|C")).1.buckets
          ⟨"N", "A", 1, "B|2|C"⟩ = none) := by
  decide +kernel

end Shingo.Core
