import Shingo.Dispatch.Steps
import Shingo.Infra.Decimal

/-!
# 行程の区間分割

発注時に送る区間（`splitAtWait`）と、`splitSegment` が順に返す区間を並べると、
block を出す行程がちょうど一度ずつ、行程の順に現れることを示す。

二つの関数は wait を別々に数える。証明は最初の wait で行程を割り
（`splitInduction`）、`splitSegment` が後半の行程の `splitSegment` に帰着することを言う。
-/

namespace Shingo.Dispatch

open Infra List ResolvedStep

/-! ## 二つのループと最初の wait -/

variable {k n : Nat} {x a : List ResolvedStep}

theorem findStart_noWait (i seen : Nat) (l : List ResolvedStep) (h : NoneOf isWait a) :
    findStart k i seen (a ++ l) = findStart k (i + a.length) seen l := by
  induction a generalizing i with
  | nil => rfl
  | cons s rest ih =>
    obtain ⟨hs, hrest⟩ := noneOf_cons.mp h
    rw [cons_append, findStart, if_neg (by simp [hs]), ih (i + 1) hrest]
    congr 1
    simp only [length_cons]
    omega

variable {w : ResolvedStep} {b : List ResolvedStep}

theorem findStart_wait {i seen : Nat} (hw : w.isWait = true) :
    findStart k i seen (w :: b)
      = if seen = k then some (i + 1) else findStart k (i + 1) (seen + 1) b := by
  rw [findStart, if_pos hw]
  simp only [Nat.add_right_cancel_iff]

theorem findStart_shift {d : Nat} (l : List ResolvedStep) (i seen : Nat) :
    findStart (k + 1) (i + d) (seen + 1) l = (findStart k i seen l).map (· + d) := by
  induction l generalizing i seen with
  | nil => rfl
  | cons s rest ih =>
    rw [findStart, findStart, show i + d + 1 = i + 1 + d from by omega]
    simp only [Nat.add_right_cancel_iff]
    split
    · split
      · rfl
      · exact ih (i + 1) (seen + 1)
    · exact ih (i + 1) seen

theorem findEnd_eq_splitAtWait (l : List ResolvedStep) (i : Nat) :
    findEnd i l = (i + (splitAtWait l).1.length, (splitAtWait l).2)
      ∧ l.take (splitAtWait l).1.length = (splitAtWait l).1 := by
  induction l generalizing i with
  | nil => exact ⟨rfl, rfl⟩
  | cons s rest ih =>
    by_cases hs : s.isWait = true
    · by_cases hn : (s.node != "") = true
      · simp [findEnd, splitAtWait, hs, hn]
      · simp [findEnd, splitAtWait, hs, hn]
    · obtain ⟨h1, h2⟩ := ih (i + 1)
      rw [findEnd, splitAtWait, if_neg hs, if_neg hs, h1]
      simp only [length_cons, take_succ_cons, h2, and_true, Prod.mk.injEq]
      omega

theorem splitAtWait_cut (ha : NoneOf isWait a) (hw : w.isWait = true) :
    splitAtWait (a ++ w :: b) = (a ++ [w].filter producesBlock, true) := by
  induction a with
  | nil =>
    have hact : w.action = .wait := by simpa [isWait] using hw
    by_cases hn : w.node = ""
    · simp [splitAtWait, hw, hn, producesBlock, hact]
    · simp [splitAtWait, hw, hn, producesBlock, hact]
  | cons s rest ih =>
    obtain ⟨hs, hrest⟩ := noneOf_cons.mp ha
    rw [cons_append, splitAtWait, if_neg (by simp [hs]), ih hrest]
    rfl

variable {l : List ResolvedStep}

theorem splitAtWait_noWait (h : NoneOf isWait l) : splitAtWait l = (l, false) := by
  induction l with
  | nil => rfl
  | cons s rest ih =>
    obtain ⟨hs, hrest⟩ := noneOf_cons.mp h
    rw [splitAtWait, if_neg (by simp [hs]), ih hrest]

/-! ## `splitSegment` は後半の行程に降りる -/

def Segment.shift (d : Nat) (g : Segment) : Segment := { g with blockOffset := d + g.blockOffset }

theorem splitSegment_noWait (h : NoneOf isWait l) (k : Nat) : splitSegment l k = none := by
  have hf : findStart k 0 0 l = none := by
    have := findStart_noWait (k := k) 0 0 [] h
    rwa [append_nil] at this
  simp [splitSegment, hf]

theorem splitSegment_cut_zero (ha : NoneOf isWait a) (hw : w.isWait = true) :
    splitSegment (a ++ w :: b) 0
      = some { segment := (splitAtWait b).1, moreWaits := (splitAtWait b).2,
               blockOffset := (a ++ [w]).countP producesBlock } := by
  have hf : findStart 0 0 0 (a ++ w :: b) = some (a.length + 1) := by
    rw [findStart_noWait 0 0 (w :: b) ha, findStart_wait hw, if_pos rfl]
    simp
  have happ : a ++ w :: b = (a ++ [w]) ++ b := by simp
  have hlen : (a ++ [w]).length = a.length + 1 := by simp
  obtain ⟨hend, htake⟩ := findEnd_eq_splitAtWait b (a.length + 1)
  simp only [splitSegment, hf]
  rw [happ, ← hlen, drop_left, take_left, hlen, hend]
  rw [← hlen, take_length_add_append, drop_left, htake]

theorem splitSegment_cut_succ (ha : NoneOf isWait a) (hw : w.isWait = true) (k : Nat) :
    splitSegment (a ++ w :: b) (k + 1)
      = (splitSegment b k).map (Segment.shift ((a ++ [w]).countP producesBlock)) := by
  have hf : findStart (k + 1) 0 0 (a ++ w :: b)
      = (findStart k 0 0 b).map (· + (a.length + 1)) := by
    rw [findStart_noWait 0 0 (w :: b) ha, findStart_wait hw, if_neg (by omega), Nat.add_assoc]
    exact findStart_shift b 0 0
  have happ : a ++ w :: b = (a ++ [w]) ++ b := by simp
  have hlen : (a ++ [w]).length = a.length + 1 := by simp
  simp only [splitSegment, hf]
  cases hs : findStart k 0 0 b with
  | none => simp
  | some j =>
    obtain ⟨hend, _⟩ := findEnd_eq_splitAtWait (b.drop j) j
    obtain ⟨hend', _⟩ := findEnd_eq_splitAtWait (b.drop j) (j + (a.length + 1))
    have hdrop : (a ++ w :: b).drop (j + (a.length + 1)) = b.drop j := by
      rw [happ, ← hlen, Nat.add_comm, drop_length_add_append]
    simp only [Option.map_some, hdrop, hend, hend', Segment.shift, Option.some.injEq,
      Segment.mk.injEq, true_and]
    constructor
    · rw [happ, show j + (a.length + 1) + (splitAtWait (b.drop j)).1.length
        = (a ++ [w]).length + (j + (splitAtWait (b.drop j)).1.length) from by rw [hlen]; omega,
        take_length_add_append, ← hlen, Nat.add_comm j, drop_length_add_append]
    · rw [happ, ← hlen, Nat.add_comm j, take_length_add_append, countP_append]

/-! ## 区間を順に取り出す -/

/-- `splitSegment steps k`、`splitSegment steps (k + 1)`、… を、区間が無くなるまで並べる。 -/
def segmentsFrom (steps : List ResolvedStep) : Nat → Nat → List Segment
  | 0, _ => []
  | fuel + 1, k =>
    match splitSegment steps k with
    | none => []
    | some g => g :: segmentsFrom steps fuel (k + 1)

/-- 発注後に足される区間の全部。区間は行程の歩数より多くならない。 -/
def releasedSegments (steps : List ResolvedStep) : List Segment :=
  segmentsFrom steps steps.length 0

theorem segmentsFrom_noWait (h : NoneOf isWait l) (fuel k : Nat) : segmentsFrom l fuel k = [] := by
  cases fuel with
  | zero => rfl
  | succ fuel => rw [segmentsFrom, splitSegment_noWait h k]

theorem segmentsFrom_cut_succ (ha : NoneOf isWait a) (hw : w.isWait = true) (fuel k : Nat) :
    segmentsFrom (a ++ w :: b) fuel (k + 1)
      = (segmentsFrom b fuel k).map (Segment.shift ((a ++ [w]).countP producesBlock)) := by
  induction fuel generalizing k with
  | zero => rfl
  | succ fuel ih =>
    rw [segmentsFrom, segmentsFrom, splitSegment_cut_succ ha hw k]
    cases splitSegment b k with
    | none => rfl
    | some g => simp only [Option.map_some, map_cons, ih (k + 1)]

theorem segmentsFrom_fuel : ∀ (l : List ResolvedStep) (d : Nat),
    segmentsFrom l (d + l.length) 0 = releasedSegments l := by
  refine splitInduction (p := isWait) ?_ ?_
  · intro l h d
    rw [releasedSegments, segmentsFrom_noWait h, segmentsFrom_noWait h]
  · intro a w b ha hw ih d
    have hlen : (a ++ w :: b).length = (a.length + b.length) + 1 := by
      simp only [length_append, length_cons]; omega
    rw [releasedSegments, hlen, ← Nat.add_assoc, segmentsFrom, segmentsFrom,
      splitSegment_cut_zero ha hw]
    rw [segmentsFrom_cut_succ ha hw, segmentsFrom_cut_succ ha hw,
      show d + (a.length + b.length) = (d + a.length) + b.length from by omega, ih, ih]

theorem releasedSegments_noWait (h : NoneOf isWait l) :
    releasedSegments l = [] := segmentsFrom_noWait h _ _

theorem releasedSegments_cut (ha : NoneOf isWait a) (hw : w.isWait = true) :
    releasedSegments (a ++ w :: b)
      = { segment := (splitAtWait b).1, moreWaits := (splitAtWait b).2,
          blockOffset := (a ++ [w]).countP producesBlock }
        :: (releasedSegments b).map (Segment.shift ((a ++ [w]).countP producesBlock)) := by
  have hlen : (a ++ w :: b).length = (a.length + b.length) + 1 := by
    simp only [length_append, length_cons]; omega
  rw [releasedSegments, hlen, segmentsFrom, splitSegment_cut_zero ha hw]
  rw [segmentsFrom_cut_succ ha hw, segmentsFrom_fuel]

theorem releasedSegments_length : ∀ l : List ResolvedStep,
    (releasedSegments l).length = l.countP isWait := by
  refine splitInduction (p := isWait) ?_ ?_
  · intro l h
    rw [releasedSegments_noWait h, h.countP_eq_zero]
    rfl
  · intro a w b ha hw ih
    rw [releasedSegments_cut ha hw, length_cons, length_map, ih, countP_append,
      countP_cons_of_pos hw, ha.countP_eq_zero]
    omega

theorem splitSegment_eq_getElem : ∀ (l : List ResolvedStep) (k : Nat),
    splitSegment l k = (releasedSegments l)[k]? := by
  refine splitInduction (p := isWait) ?_ ?_
  · intro l h k
    rw [splitSegment_noWait h, releasedSegments_noWait h]
    rfl
  · intro a w b ha hw ih k
    rw [releasedSegments_cut ha hw]
    cases k with
    | zero => rw [splitSegment_cut_zero ha hw]; rfl
    | succ k =>
      rw [splitSegment_cut_succ ha hw, ih, List.getElem?_cons_succ, List.getElem?_map]

theorem releasedSegments_moreWaits : ∀ (l : List ResolvedStep) (k : Nat) (g : Segment),
    (releasedSegments l)[k]? = some g →
    (g.moreWaits = false ↔ k + 1 = (releasedSegments l).length) := by
  refine splitInduction (p := isWait) ?_ ?_
  · intro l h k g hg
    rw [releasedSegments_noWait h] at hg
    simp at hg
  · intro a w b ha hw ih k g hg
    rw [releasedSegments_cut ha hw] at hg ⊢
    cases k with
    | zero =>
      simp only [List.getElem?_cons_zero, Option.some.injEq] at hg
      subst hg
      simp only [length_cons, length_map, releasedSegments_length]
      rcases exists_first_split isWait b with hb | ⟨a', w', b', rfl, ha', hw'⟩
      · rw [splitAtWait_noWait hb, hb.countP_eq_zero]
        simp
      · rw [splitAtWait_cut ha' hw', countP_append, countP_cons_of_pos hw']
        simp
    | succ k =>
      rw [List.getElem?_cons_succ, List.getElem?_map] at hg
      cases hb : (releasedSegments b)[k]? with
      | none => rw [hb] at hg; simp at hg
      | some g' =>
        rw [hb] at hg
        simp only [Option.map_some, Option.some.injEq] at hg
        subst hg
        have := ih k g' hb
        simp only [length_cons, length_map, Nat.add_right_cancel_iff]
        exact this

/-! ## block を出す行程 -/

theorem filter_noWait (h : NoneOf isWait a) : a.filter producesBlock = a := by
  refine filter_eq_self.mpr fun s hs => ?_
  have hw := h s hs
  have hact : ¬ s.action = .wait := by simpa [isWait] using hw
  simp [producesBlock, hact]

theorem splitAtWait_isPrefix (l : List ResolvedStep) :
    (splitAtWait l).1 <+: l.filter producesBlock := by
  rcases exists_first_split isWait l with h | ⟨a, w, b, rfl, ha, hw⟩
  · rw [splitAtWait_noWait h, filter_noWait h]
  · rw [splitAtWait_cut ha hw, show a ++ w :: b = a ++ [w] ++ b from by simp, filter_append,
      filter_append, filter_noWait ha]
    exact prefix_append _ _

/-- **発注時の区間と後の区間を並べると、block を出す一歩がその番号で一度ずつ現れる。** -/
theorem segment_steps : ∀ (l : List ResolvedStep) (o : Nat),
    (splitAtWait l).1.zipIdx o ++ (releasedSegments l).flatMap
          (fun g => g.segment.zipIdx (o + g.blockOffset))
      = (l.filter producesBlock).zipIdx o := by
  refine splitInduction (p := isWait) ?_ ?_
  · intro l h o
    rw [releasedSegments_noWait h, splitAtWait_noWait h, filter_noWait h]
    simp
  · intro a w b ha hw ih o
    have hcount : (a ++ [w].filter producesBlock).length
        = (a ++ [w]).countP producesBlock := by
      rw [countP_eq_length_filter, filter_append, filter_noWait ha]
    have hfilter : (a ++ w :: b).filter producesBlock
        = (a ++ [w].filter producesBlock) ++ b.filter producesBlock := by
      rw [show a ++ w :: b = a ++ [w] ++ b from by simp, filter_append, filter_append,
        filter_noWait ha]
    have hzip : ((a ++ [w].filter producesBlock) ++ b.filter producesBlock).zipIdx o = _ :=
      zipIdx_append
    rw [releasedSegments_cut ha hw, splitAtWait_cut ha hw, hfilter, hzip, hcount, ← ih]
    simp only [flatMap_cons, flatMap_map, Segment.shift, Nat.add_assoc]

/-! ## block id -/

variable (v : String) {loadSeq : List String}

theorem loadBlockID_toList (base k : Nat) : (loadBlockID v base k).toList
      = (v ++ "-b").toList ++ ((toString base).toList
          ++ (if k = 0 then [] else '-' :: (toString k).toList)) := by
  unfold loadBlockID mintBlockID
  split <;> simp [String.toList_append]

/-- **block id は番号と load leg の中の順番を決める。** 数字の後ろに来るのは `-` か終わり。 -/
theorem loadBlockID_inj {v : String} {m j : Nat} (h : loadBlockID v m k = loadBlockID v n j) :
    m = n ∧ k = j := by
  have hl : (loadBlockID v m k).toList = (loadBlockID v n j).toList := by rw [h]
  rw [loadBlockID_toList, loadBlockID_toList] at hl
  have hbreak : ∀ i : Nat, ∀ c ∈ (if i = 0 then [] else '-' :: (toString i).toList).head?,
      Char.isDigit c = false := by
    intro i c hc
    split at hc
    · simp at hc
    simp only [List.head?_cons, Option.mem_def, Option.some.injEq] at hc
    rw [← hc]
    rfl
  obtain ⟨hmn, hrest⟩ := toString_append_inj (hbreak k) (hbreak j) (append_cancel_left hl)
  refine ⟨hmn, ?_⟩
  by_cases hk : k = 0 <;> by_cases hj : j = 0
  · rw [hk, hj]
  · simp [hk, hj] at hrest
  · simp [hk, hj] at hrest
  · rw [if_neg hk, if_neg hj, List.cons.injEq] at hrest
    exact toString_inj (String.toList_inj.mp hrest.2)

theorem mem_loadBlocks {v : String} {base : Nat} {s : ResolvedStep}
    {b : OrderBlock} (h : b ∈ loadBlocks v base s loadSeq) :
    ∃ k, b.blockID = loadBlockID v base k ∧ b.location = s.node := by
  obtain ⟨⟨task, k⟩, _, rfl⟩ := mem_map.mp h
  exact ⟨k, rfl, rfl⟩

theorem loadBlocks_nodup (base : Nat) (s : ResolvedStep) (loadSeq : List String) :
    ((loadBlocks v base s loadSeq).map OrderBlock.blockID).Nodup := by
  have hids : (loadBlocks v base s loadSeq).map OrderBlock.blockID
      = (List.range loadSeq.length).map (loadBlockID v base) := by
    unfold loadBlocks
    rw [map_map, range_eq_range', ← zipIdx_map_snd 0 loadSeq, map_map]
    rfl
  rw [hids]
  refine List.Nodup.map (fun k j h => (loadBlockID_inj h).2) ?_
  exact nodup_range

theorem mem_stepsToBlocksFrom {v : String} {e : Bool} {b : OrderBlock}
    (h : b ∈ stepsToBlocksFrom v loadSeq n e l) :
    ∃ i s k, l[i]? = some s ∧ b.blockID = loadBlockID v (n + i + 1) k ∧ b.location = s.node := by
  induction l generalizing n e with
  | nil => cases h
  | cons s rest ih =>
    have hrec : ∀ {e'}, b ∈ stepsToBlocksFrom v loadSeq (n + 1) e' rest →
        ∃ i t k, (s :: rest)[i]? = some t ∧ b.blockID = loadBlockID v (n + i + 1) k
          ∧ b.location = t.node := by
      intro e' h
      obtain ⟨i, t, k, ht, hid, hloc⟩ := ih h
      refine ⟨i + 1, t, k, ht, ?_, hloc⟩
      rw [hid, Nat.add_right_comm n 1 i]
      rfl
    rw [stepsToBlocksFrom] at h
    split at h
    · exact hrec h
    split at h
    · rcases mem_append.mp h with h | h
      · obtain ⟨k, hid, hloc⟩ := mem_loadBlocks h
        exact ⟨0, s, k, rfl, hid, hloc⟩
      · exact hrec h
    · rcases mem_cons.mp h with rfl | h
      · exact ⟨0, s, 0, rfl, by simp [loadBlockID], rfl⟩
      · exact hrec h

/-! ## 一歩ずつの block -/

/-- `p.2` 番目の一歩 `p.1` の block。`load` は load leg として展開する一歩。 -/
def stepBlocks (loadSeq : List String) (load : Option Nat) (p : ResolvedStep × Nat) :
    List OrderBlock :=
  if load = some p.2 then loadBlocks v (p.2 + 1) p.1 loadSeq
  else [{ blockID := mintBlockID v (p.2 + 1), location := p.1.node,
          binTask := binTaskForAction p.1.action }]

variable {load : Option Nat} {s : ResolvedStep}

theorem not_bare (h : s.producesBlock = true) : ¬ (s.action = .wait ∧ s.node = "") := by
  rintro ⟨ha, hn⟩
  simp [producesBlock, ha, hn] at h

/-- 展開する pickup が無いか、もう過ぎていれば、どの一歩の block も一つ。 -/
theorem stepsToBlocksFrom_plain {seq : List String} {e : Bool} (hseq : seq = [] ∨ e = true)
    (hl : ∀ p ∈ l.zipIdx n, p.1.producesBlock = true ∧ load ≠ some p.2) :
    stepsToBlocksFrom v seq n e l = (l.zipIdx n).flatMap (stepBlocks v loadSeq load) := by
  induction l generalizing n with
  | nil => rfl
  | cons s rest ih =>
    rw [zipIdx_cons] at hl ⊢
    obtain ⟨hs, hne⟩ := hl _ mem_cons_self
    have hload : ¬ (0 < seq.length ∧ e = false ∧ s.action = .pickup) := by
      rintro ⟨hpos, he, -⟩
      rcases hseq with rfl | rfl
      · cases hpos
      · cases he
    rw [flatMap_cons, stepsToBlocksFrom, if_neg (not_bare hs), if_neg hload, stepBlocks,
      if_neg hne, ih fun p hp => hl p (mem_cons_of_mem _ hp)]
    rfl

/-- **`stepsToBlocks` は一歩ずつの block を並べる。** 展開するのは最初の pickup だけ。 -/
theorem stepsToBlocksFrom_eq (hl : ∀ s ∈ l, s.producesBlock = true) (hseq : loadSeq ≠ [])
    (hload : load = (l.findIdx? (·.action == .pickup)).map (n + ·)) :
    stepsToBlocksFrom v loadSeq n false l
      = (l.zipIdx n).flatMap (stepBlocks v loadSeq load) := by
  induction l generalizing n with
  | nil => rfl
  | cons s rest ih =>
    have hrest : ∀ t ∈ rest, t.producesBlock = true := fun t ht => hl t (mem_cons_of_mem _ ht)
    rw [zipIdx_cons, flatMap_cons, stepsToBlocksFrom, if_neg (not_bare (hl s mem_cons_self)),
      stepBlocks]
    by_cases hp : s.action = .pickup
    · have hn : load = some n := by simp [hload, findIdx?_cons, hp]
      rw [if_pos ⟨length_pos_iff.mpr hseq, rfl, hp⟩, if_pos hn,
        stepsToBlocksFrom_plain v (.inr rfl) fun p hp => ?_]
      have hle := (mem_zipIdx hp).1
      refine ⟨hrest p.1 (fst_mem_of_mem_zipIdx hp), ?_⟩
      rw [hn, Ne, Option.some_inj]
      omega
    · have hlater : load = (rest.findIdx? (·.action == .pickup)).map (n + 1 + ·) := by
        rw [hload, findIdx?_cons, if_neg (by simpa using hp), Option.map_map]
        congr 1
        funext i
        simp only [Function.comp_apply]
        omega
      have hne : load ≠ some n := by
        rw [hlater]
        intro h
        obtain ⟨i, -, hi⟩ := Option.map_eq_some_iff.mp h
        omega
      rw [if_neg fun h => hp h.2.2, if_neg hne, ih hrest hlater]
      rfl

theorem stepBlocks_id {p : ResolvedStep × Nat} {b : OrderBlock}
    (h : b ∈ stepBlocks v loadSeq load p) : ∃ k, b.blockID = loadBlockID v (p.2 + 1) k := by
  unfold stepBlocks at h
  split at h
  · obtain ⟨k, hid, -⟩ := mem_loadBlocks h
    exact ⟨k, hid⟩
  · rw [mem_singleton.mp h]
    exact ⟨0, rfl⟩

theorem stepBlocks_nodup (l : List ResolvedStep) (n : Nat) :
    (((l.zipIdx n).flatMap (stepBlocks v loadSeq load)).map OrderBlock.blockID).Nodup := by
  induction l generalizing n with
  | nil => exact nodup_nil
  | cons s rest ih =>
    rw [zipIdx_cons, flatMap_cons, map_append, nodup_append]
    refine ⟨?_, ih (n + 1), ?_⟩
    · unfold stepBlocks
      split
      · exact loadBlocks_nodup v (n + 1) s loadSeq
      · exact nodup_singleton _
    · -- 後の一歩の番号はここより大きい
      rintro id hid id' hid' rfl
      obtain ⟨b, hb, rfl⟩ := mem_map.mp hid
      obtain ⟨b', hb', hsame⟩ := mem_map.mp hid'
      obtain ⟨p, hp, hbp⟩ := mem_flatMap.mp hb'
      obtain ⟨k, hk⟩ := stepBlocks_id v hb
      obtain ⟨j, hj⟩ := stepBlocks_id v hbp
      have hlt := (mem_zipIdx hp).1
      have := (loadBlockID_inj (hk.symm.trans (hsame.symm.trans hj))).1
      dsimp only at this
      omega

/-! ## まとめ -/

/-- load leg として展開する一歩。最初の wait より前の、最初の pickup。 -/
def loadLeg (steps : List ResolvedStep) (loadSeq : List String) : Option Nat :=
  if loadSeq = [] then none
  else (steps.takeWhile fun s => !s.isWait).findIdx? (·.action == .pickup)

variable (vendorOrderID : String)

/-- 行程全体の block。block を出す一歩ずつの block を、行程の順に並べる。 -/
def planBlocks (steps : List ResolvedStep) (loadSeq : List String) : List OrderBlock :=
  (steps.filter producesBlock).zipIdx.flatMap
    (stepBlocks vendorOrderID loadSeq (loadLeg steps loadSeq))

def createBlocks (steps : List ResolvedStep) (loadSeq : List String) : List OrderBlock :=
  stepsToBlocks vendorOrderID (splitAtWait steps).1 0 loadSeq

def Segment.blocks (g : Segment) : List OrderBlock :=
  stepsToBlocks vendorOrderID g.segment g.blockOffset []

theorem loadLeg_eq (hseq : loadSeq ≠ []) :
    loadLeg l loadSeq = (splitAtWait l).1.findIdx? (·.action == .pickup) := by
  rw [loadLeg, if_neg hseq]
  rcases exists_first_split isWait l with h | ⟨a, w, b, rfl, ha, hw⟩
  · rw [splitAtWait_noWait h, takeWhile_eq_self_iff.mpr fun s hs => by simp [h s hs]]
  · -- 区間の終わりの wait は pickup ではない
    have hwait : (w.action == .pickup) = false := by
      rw [show w.action = .wait by simpa [isWait] using hw]
      rfl
    rw [splitAtWait_cut ha hw, takeWhile_append_of_pos fun s hs => by simp [ha s hs]]
    by_cases hb : w.producesBlock = true <;> simp [hw, hb, hwait, findIdx?_append]

theorem createBlocks_append_segments (steps : List ResolvedStep) (loadSeq : List String) :
    createBlocks v steps loadSeq ++ (releasedSegments steps).flatMap (Segment.blocks v)
      = planBlocks v steps loadSeq := by
  have hsegs := segment_steps steps 0
  obtain ⟨y, hy⟩ := splitAtWait_isPrefix steps
  have hl : ∀ s ∈ steps.filter producesBlock, s.producesBlock = true :=
    fun s hs => (mem_filter.mp hs).2
  have hfirst : ∀ s ∈ (splitAtWait steps).1, s.producesBlock = true :=
    fun s hs => hl s (hy ▸ mem_append_left _ hs)
  rw [← hy, zipIdx_append] at hsegs
  simp only [Nat.zero_add] at hsegs
  have hlater := append_cancel_left hsegs
  unfold planBlocks
  rw [← hy, zipIdx_append, flatMap_append, Nat.zero_add]
  congr 1
  · by_cases hseq : loadSeq = []
    · refine stepsToBlocksFrom_plain v (.inl hseq) fun p hp => ?_
      rw [loadLeg, if_pos hseq]
      exact ⟨hfirst p.1 (fst_mem_of_mem_zipIdx hp), nofun⟩
    · refine stepsToBlocksFrom_eq v hfirst hseq ?_
      rw [loadLeg_eq hseq]
      simp
  · rw [← hlater, flatMap_assoc]
    refine flatMap_congr fun g hg => ?_
    refine stepsToBlocksFrom_plain v (.inl rfl) fun p hp => ?_
    have hmem : p ∈ y.zipIdx (splitAtWait steps).1.length := hlater ▸ mem_flatMap.mpr ⟨g, hg, hp⟩
    refine ⟨hl p.1 (hy ▸ mem_append_right _ (fst_mem_of_mem_zipIdx hmem)), fun hload => ?_⟩
    -- 展開する pickup は発注時の区間にある
    by_cases hseq : loadSeq = []
    · simp [loadLeg, hseq] at hload
    · rw [loadLeg_eq hseq] at hload
      obtain ⟨hlt, -⟩ := findIdx?_eq_some_iff_getElem.mp hload
      have hle := (mem_zipIdx hmem).1
      omega

/-- **行程の区間分割。** -/
theorem waybill_segments_partition (v : String) (steps : List ResolvedStep)
    (loadSeq : List String) :
    createBlocks v steps loadSeq ++ (releasedSegments steps).flatMap (Segment.blocks v)
        = planBlocks v steps loadSeq
      ∧ ((createBlocks v steps loadSeq
            ++ (releasedSegments steps).flatMap (Segment.blocks v)).map OrderBlock.blockID).Nodup
      ∧ (∀ k, splitSegment steps k = (releasedSegments steps)[k]?)
      ∧ (∀ k g, splitSegment steps k = some g →
          (g.moreWaits = false ↔ k + 1 = (releasedSegments steps).length)) := by
  refine ⟨createBlocks_append_segments v steps loadSeq, ?_, splitSegment_eq_getElem steps, ?_⟩
  · rw [createBlocks_append_segments]
    exact stepBlocks_nodup v _ 0
  · intro k g h
    rw [splitSegment_eq_getElem] at h
    exact releasedSegments_moreWaits steps k g h

end Shingo.Dispatch
