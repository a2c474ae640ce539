import Shingo.Dispatch.Release
import Shingo.Infra.Run
import Shingo.Properties.Segments

/-!
# 区間はちょうど一度だけ足される

操作者と lane の門が同じ order をめぐってどう重なっても、fleet の追加・`wait_index` の
書き込み・status の遷移のどれが失敗しても、区間は wait の順に一度ずつ足される。
よりどころは二つで、fleet が持っている block id を拒むことと、
`wait_index` が fleet の受け取った区間の数から二つ以上遅れないこと。

block を一つも出さない区間には拒むべき id が無く、何度でも足せる。
-/

namespace Shingo.Dispatch

open Infra List ResolvedStep ReleaseWorld

/-! ## 行程の形

門は入る所の node を書き換えるが、行程の形は変えない。block id は形だけで決まる。
-/

def ResolvedStep.shape (s : ResolvedStep) : Bool × Bool := (s.isWait, s.producesBlock)

theorem shape_of_ne_wait {s : ResolvedStep} (h : s.action ≠ .wait) : s.shape = (false, true) := by
  have hw : (s.action == .wait) = false := beq_false_of_ne h
  simp only [shape, isWait, producesBlock, bne, hw,
    Bool.not_false, Bool.true_or]

def planShape (steps : List ResolvedStep) : List (Bool × Bool) := steps.map shape

def idsOfShape (v : String) : Nat → List (Bool × Bool) → List String
  | _, [] => []
  | n, sh :: rest =>
    if sh.2 then mintBlockID v (n + 1) :: idsOfShape v (n + 1) rest
    else idsOfShape v (n + 1) rest

theorem producesBlock_eq_false_iff (s : ResolvedStep) :
    s.producesBlock = false ↔ s.action = .wait ∧ s.node = "" := by
  simp [producesBlock]

theorem blockIDs_eq_idsOfShape (v : String) (steps : List ResolvedStep) (n : Nat) (e : Bool) :
    (stepsToBlocksFrom v [] n e steps).map OrderBlock.blockID
      = idsOfShape v n (planShape steps) := by
  induction steps generalizing n with
  | nil => rfl
  | cons s rest ih =>
    show _ = idsOfShape v n (s.shape :: planShape rest)
    rw [stepsToBlocksFrom, idsOfShape]
    by_cases hb : s.action = .wait ∧ s.node = ""
    · have hp : s.shape.2 = false := (producesBlock_eq_false_iff s).mpr hb
      rw [if_pos hb, hp, ih]
      rfl
    · have hp : s.shape.2 = true := by
        cases hs : s.shape.2 with
        | true => rfl
        | false => exact absurd ((producesBlock_eq_false_iff s).mp hs) hb
      rw [if_neg hb, if_neg (by simp), hp, if_pos rfl, map_cons, ih]

theorem idsOfShape_ne_nil (v : String) {l : List ResolvedStep} (n : Nat)
    (h : l.any producesBlock = true) : idsOfShape v n (planShape l) ≠ [] := by
  induction l generalizing n with
  | nil => cases h
  | cons s rest ih =>
    show idsOfShape v n (s.shape :: planShape rest) ≠ []
    rw [idsOfShape]
    by_cases hp : s.shape.2 = true
    · rw [if_pos hp]; simp
    · rw [if_neg hp]
      refine ih (n + 1) ?_
      rw [any_cons, Bool.or_eq_true] at h
      exact h.resolve_left hp

variable {s t plan : List ResolvedStep} {g : Segment}

theorem findStart_shape {k : Nat} (h : planShape s = planShape t) (i n : Nat) :
    findStart k i n s = findStart k i n t := by
  induction s generalizing t i n with
  | nil => rw [map_eq_nil_iff.mp h.symm]
  | cons x s ih =>
    cases t with
    | nil => cases h
    | cons y t =>
      obtain ⟨hxy, hst⟩ := List.cons.inj h
      have hw : x.isWait = y.isWait := congrArg Prod.fst hxy
      rw [findStart, findStart, hw, ih hst, ih hst]

theorem findEnd_shape (h : planShape s = planShape t) (i : Nat) : findEnd i s = findEnd i t := by
  induction s generalizing t i with
  | nil => rw [map_eq_nil_iff.mp h.symm]
  | cons x s ih =>
    cases t with
    | nil => cases h
    | cons y t =>
      obtain ⟨hxy, hst⟩ := List.cons.inj h
      have hw : x.isWait = y.isWait := congrArg Prod.fst hxy
      have hp : x.producesBlock = y.producesBlock := congrArg Prod.snd hxy
      rw [findEnd, findEnd, ih hst]
      by_cases hx : x.isWait = true
      · -- wait が区間に入るかどうかは、block を出すかどうか
        have hx' : x.action = .wait := by simpa [isWait] using hx
        have hy : y.isWait = true := by rw [← hw]; exact hx
        have hy' : y.action = .wait := by simpa [isWait] using hy
        have hn : (x.node != "") = (y.node != "") := by
          simpa [producesBlock, hx', hy'] using hp
        rw [if_pos hx, if_pos hy, hn]
      · rw [if_neg hx, if_neg fun hy => hx (hw.trans hy)]

def Segment.shape (g : Segment) : List (Bool × Bool) × Bool × Nat :=
  (planShape g.segment, g.moreWaits, g.blockOffset)

section

variable (h : planShape s = planShape t)
include h

theorem planShape_take (n : Nat) : planShape (s.take n) = planShape (t.take n) := by
  rw [planShape, planShape, map_take, map_take]
  exact congrArg (List.take n) h

theorem countP_take_shape (n : Nat) :
    (s.take n).countP producesBlock
      = (t.take n).countP producesBlock := by
  have hsnd : ∀ l : List ResolvedStep, l.countP producesBlock
      = (planShape l).countP Prod.snd := by
    intro l
    rw [planShape, countP_map]
    rfl
  rw [hsnd, hsnd, planShape_take h]

/-- **形が同じ行程は、形が同じ区間に割れる。** -/
theorem splitSegment_shape (k : Nat) :
    (splitSegment s k).map Segment.shape = (splitSegment t k).map Segment.shape := by
  have hdrop : ∀ n, planShape (s.drop n) = planShape (t.drop n) := by
    intro n
    rw [planShape, planShape, map_drop, map_drop]
    exact congrArg (List.drop n) h
  unfold splitSegment
  rw [findStart_shape h]
  cases findStart k 0 0 t with
  | none => rfl
  | some startIdx =>
    dsimp only
    rw [findEnd_shape (hdrop startIdx), countP_take_shape h]
    simp only [Option.map_some, Segment.shape, Option.some.injEq, Prod.mk.injEq, and_true]
    rw [planShape, planShape, map_drop, map_drop]
    exact congrArg (List.drop startIdx) (planShape_take h _)

end

theorem applyPlanNode_shape (steps : List ResolvedStep) (node : String) (i : Nat)
    (want : StepAction) (hw : want ≠ .wait) :
    planShape (applyPlanNode steps node i want) = planShape steps := by
  unfold applyPlanNode
  cases hi : steps[i]? with
  | none => rfl
  | some s =>
    dsimp only
    split
    · rename_i hact
      have hne : s.action ≠ .wait := by rw [hact]; exact hw
      obtain ⟨hlt, hget⟩ := List.getElem?_eq_some_iff.mp hi
      rw [planShape, map_set]
      have hshape : ({ s with node } : ResolvedStep).shape = s.shape := by
        rw [shape_of_ne_wait hne, shape_of_ne_wait (s := { s with node }) hne]
      rw [hshape, ← hget, planShape]
      exact ext_getElem (by simp) fun n h₁ h₂ => by
        rw [getElem_set]
        split
        · rename_i heq; subst heq; simp
        · rfl
    · rfl

theorem patchLastDropoff_shape {node : String} {l l' : List ResolvedStep}
    (h : patchLastDropoff node l = some l') : planShape l' = planShape l := by
  induction l generalizing l' with
  | nil => cases h
  | cons s rest ih =>
    rw [patchLastDropoff] at h
    cases hr : patchLastDropoff node rest with rw [hr] at h
    | some rest' =>
      cases h
      show s.shape :: planShape rest' = s.shape :: planShape rest
      rw [ih hr]
    | none =>
      dsimp only at h
      split at h
      · rename_i hact
        cases h
        show _ :: planShape rest = s.shape :: planShape rest
        have hne : s.action ≠ .wait := by rw [hact]; decide
        rw [shape_of_ne_wait hne, shape_of_ne_wait (s := { s with node }) hne]
      · cases h

theorem patchRedirectSegments_shape (segment : List ResolvedStep) (node : String)
    (moreWaits : Bool) :
    planShape (patchRedirectSegments segment node moreWaits) = planShape segment := by
  unfold patchRedirectSegments
  split
  · rfl
  · cases h : patchLastDropoff node segment with
    | none => rfl
    | some l => exact patchLastDropoff_shape h

/-! ## 守ること -/

def segmentIDs (v : String) (plan : List ResolvedStep) (k : Nat) : List String :=
  ((splitSegment plan k).map fun g => idsOfShape v g.blockOffset (planShape g.segment)).getD []

def SegmentsHaveBlocks (plan : List ResolvedStep) : Prop :=
  ∀ g ∈ releasedSegments plan, g.segment.any producesBlock = true
  deriving Decidable

theorem SegmentsHaveBlocks.ids_ne_nil (h : SegmentsHaveBlocks plan) (v : String) {k : Nat}
    (hg : splitSegment plan k = some g) : segmentIDs v plan k ≠ [] := by
  have hmem : g ∈ releasedSegments plan := by
    rw [splitSegment_eq_getElem] at hg
    exact mem_of_getElem? hg
  rw [segmentIDs, hg]
  exact idsOfShape_ne_nil v g.blockOffset (h g hmem)

/-- 呼び出しの持つ写し。行程の形と vendor は row と同じで、`wait_index` は row を越えない。 -/
structure SnapOk (v : String) (plan : List ResolvedStep) (waitIndex : Nat) (o : Order) : Prop where
  vendor : o.vendorOrderID = v
  shape : planShape o.steps = planShape plan
  behind : o.waitIndex ≤ waitIndex

def CallOk (v : String) (plan : List ResolvedStep) (waitIndex m : Nat) : ReleasePC → Prop
  | .gate o => SnapOk v plan waitIndex o
  | .ready o g => SnapOk v plan waitIndex o
      ∧ ∃ g', splitSegment plan o.waitIndex = some g' ∧ g.shape = g'.shape
  | .landed o => o.waitIndex = waitIndex ∧ o.waitIndex + 1 = m
  | .advanced _ => True
  | .returned => True

structure ReleaseInv (v : String) (plan : List ResolvedStep) (w : ReleaseWorld) : Prop where
  row : SnapOk v plan w.row.waitIndex w.row
  inOrder : w.accepted = List.range w.accepted.length
  ahead : w.row.waitIndex ≤ w.accepted.length
  behind : w.accepted.length ≤ w.row.waitIndex + 1
  held : ∀ k < w.accepted.length, ∀ id ∈ segmentIDs v plan k, ∃ b ∈ w.blocks, b.blockID = id
  calls : ∀ {j : Nat} {pc}, w.calls[j]? = some pc →
    CallOk v plan w.row.waitIndex w.accepted.length pc
  landedOnce : ∀ {i j : Nat} {o o'},
    w.calls[i]? = some (.landed o) → w.calls[j]? = some (.landed o') → i = j

theorem ReleaseInv.created (o : Order) (loadSeq : List String) :
    ReleaseInv o.vendorOrderID o.steps (created o loadSeq) where
  row := ⟨rfl, rfl, Nat.le_refl _⟩
  inOrder := rfl
  ahead := Nat.le_refl _
  behind := Nat.zero_le _
  held k hk := by cases hk
  calls h := by cases h
  landedOnce h := by cases h

section Step

variable {v : String} {w : ReleaseWorld}

variable {pc : ReleasePC} {g' : Segment}

theorem ReleaseInv.goto (h : ReleaseInv v plan w) (i : Nat)
    (hpc : CallOk v plan w.row.waitIndex w.accepted.length pc) (hne : ∀ o, pc ≠ .landed o)
    {row : Order} (hrow : SnapOk v plan w.row.waitIndex row)
    (hwi : row.waitIndex = w.row.waitIndex) :
    ReleaseInv v plan { (w.goto i pc) with row := row } where
  __ := h
  row := by rw [hwi]; exact hrow
  ahead := by rw [hwi]; exact h.ahead
  behind := by rw [hwi]; exact h.behind
  calls hj := by
    show CallOk v plan row.waitIndex w.accepted.length _
    rw [hwi]
    rcases getElem?_set_cases hj with ⟨-, rfl⟩ | ⟨-, hj⟩
    · exact hpc
    · exact h.calls hj
  landedOnce hi hj := by
    rcases getElem?_set_cases hi with ⟨-, he⟩ | ⟨-, hi⟩
    · exact absurd he.symm (hne _)
    · rcases getElem?_set_cases hj with ⟨-, he⟩ | ⟨-, hj⟩
      · exact absurd he.symm (hne _)
      · exact h.landedOnce hi hj

theorem ReleaseInv.returned (h : ReleaseInv v plan w) (i : Nat) :
    ReleaseInv v plan (w.goto i .returned) :=
  h.goto i (show CallOk v plan w.row.waitIndex w.accepted.length .returned from trivial)
    nofun h.row rfl

theorem ReleaseInv.start (h : ReleaseInv v plan w)
    (hpc : CallOk v plan w.row.waitIndex w.accepted.length pc) (hne : ∀ o, pc ≠ .landed o) :
    ReleaseInv v plan (w.start (some pc)) := by
  refine ⟨h.row, h.inOrder, h.ahead, h.behind, h.held, ?_, ?_⟩
  · intro j x hj
    rcases getElem?_append_cases hj with hj | ⟨-, rfl⟩
    · exact h.calls hj
    · exact hpc
  · intro i j o o' hi hj
    rcases getElem?_append_cases hi with hi | ⟨-, he⟩
    · rcases getElem?_append_cases hj with hj | ⟨-, he⟩
      · exact h.landedOnce hi hj
      · exact absurd he.symm (hne _)
    · exact absurd he.symm (hne _)

variable {o : Order} {waitIndex : Nat}

section

variable (h : SnapOk v plan waitIndex o) (hg : splitSegment o.steps o.waitIndex = some g)
include h hg

theorem SnapOk.segment : ∃ g', splitSegment plan o.waitIndex = some g' ∧ g.shape = g'.shape := by
  have hs := splitSegment_shape h.shape o.waitIndex
  rw [hg, Option.map_some] at hs
  obtain ⟨g', hg', hshape⟩ := Option.map_eq_some_iff.mp hs.symm
  exact ⟨g', hg', hshape.symm⟩

theorem SnapOk.patched (node : String) :
    ∃ g', splitSegment plan o.waitIndex = some g'
      ∧ ({ g with segment := patchRedirectSegments g.segment node g.moreWaits } : Segment).shape
        = g'.shape := by
  obtain ⟨g', hg', hshape⟩ := h.segment hg
  refine ⟨g', hg', ?_⟩
  rw [← hshape]
  simp only [Segment.shape, patchRedirectSegments_shape]

end

theorem ReleaseInv.startPatched (h : ReleaseInv v plan w)
    (hg : splitSegment w.row.steps w.row.waitIndex = some g) :
    ReleaseInv v plan (w.start (some (.ready w.row { g with
      segment := patchRedirectSegments g.segment w.row.deliveryNode g.moreWaits }))) :=
  h.start ⟨h.row, h.row.patched hg _⟩ nofun

theorem segmentBlocks_ids (h : SnapOk v plan waitIndex o)
    (hg' : splitSegment plan o.waitIndex = some g') (hshape : g.shape = g'.shape) :
    (segmentBlocks o g).map OrderBlock.blockID = segmentIDs v plan o.waitIndex := by
  simp only [Segment.shape, Prod.mk.injEq] at hshape
  rw [segmentBlocks, stepsToBlocks, blockIDs_eq_idsOfShape, h.vendor, hshape.1, hshape.2.2,
    segmentIDs, hg']
  rfl

section

variable (h : ReleaseInv v plan w) (hplan : SegmentsHaveBlocks plan)
    (ho : SnapOk v plan w.row.waitIndex o) (hg' : splitSegment plan o.waitIndex = some g')
    (hshape : g.shape = g'.shape)
include h hplan ho hg' hshape

/-- **もう受け取った番号の区間は、拒まれる。** -/
theorem ReleaseInv.rejects_old
    (hold : o.waitIndex < w.accepted.length) : w.rejects (segmentBlocks o g) = true := by
  have hids := segmentBlocks_ids ho hg' hshape
  obtain ⟨id, hid⟩ := exists_mem_of_ne_nil _ (hplan.ids_ne_nil v hg')
  obtain ⟨b', hb', hbid⟩ := h.held o.waitIndex hold id hid
  rw [← hids] at hid
  obtain ⟨b, hb, rfl⟩ := mem_map.mp hid
  unfold rejects
  rw [any_eq_true]
  refine ⟨b, hb, ?_⟩
  rw [any_eq_true]
  exact ⟨b', hb', by rw [hbid]; exact beq_self_eq_true _⟩

theorem ReleaseInv.next_of_not_rejected (hrej : ¬ w.rejects (segmentBlocks o g) = true) :
    o.waitIndex = w.accepted.length ∧ w.row.waitIndex = w.accepted.length := by
  have hbehind := ho.behind
  have hahead := h.ahead
  rcases Nat.lt_or_eq_of_le (Nat.le_trans hbehind hahead) with hlt | heq
  · exact absurd (h.rejects_old hplan ho hg' hshape hlt) hrej
  · exact ⟨heq, by omega⟩

end

theorem ReleaseInv.accept (h : ReleaseInv v plan w)
    (hids : (segmentBlocks o g).map OrderBlock.blockID = segmentIDs v plan o.waitIndex)
    (hm : o.waitIndex = w.accepted.length) (hwi : w.row.waitIndex = w.accepted.length) (i : Nat)
    (hpc : CallOk v plan w.row.waitIndex (w.accepted.length + 1) pc) :
    ReleaseInv v plan { (w.goto i pc) with
      blocks := w.blocks ++ segmentBlocks o g, accepted := w.accepted ++ [o.waitIndex] } := by
  have hlen : (w.accepted ++ [o.waitIndex]).length = w.accepted.length + 1 := by
    rw [length_append, length_singleton]
  -- 受け取られた区間の `wait_index` を書いていない呼び出しは、ほかに無い
  have hnone : ∀ {j : Nat} {o'}, w.calls[j]? = some (.landed o') → False := by
    intro j o' hj
    obtain ⟨h₁, h₂⟩ := h.calls hj
    omega
  refine ⟨h.row, ?_, ?_, ?_, ?_, ?_, ?_⟩
  · show w.accepted ++ [o.waitIndex] = List.range (w.accepted ++ [o.waitIndex]).length
    rw [hlen, range_succ, ← h.inOrder, hm]
  · show w.row.waitIndex ≤ (w.accepted ++ [o.waitIndex]).length
    omega
  · show (w.accepted ++ [o.waitIndex]).length ≤ w.row.waitIndex + 1
    omega
  · intro k hk id hid
    by_cases hlt : k < w.accepted.length
    · obtain ⟨b, hb, hbid⟩ := h.held k hlt id hid
      exact ⟨b, mem_append_left _ hb, hbid⟩
    · have hk' : k = o.waitIndex := by
        rw [hlen] at hk
        omega
      rw [hk', ← hids] at hid
      obtain ⟨b, hb, hbid⟩ := mem_map.mp hid
      exact ⟨b, mem_append_right _ hb, hbid⟩
  · intro j pc' hj
    rw [hlen]
    rcases getElem?_set_cases hj with ⟨-, rfl⟩ | ⟨-, hj⟩
    · exact hpc
    · have hcall := h.calls hj
      cases pc' with
      | landed o' => exact absurd hj hnone
      | gate o' | ready o' g' => exact hcall
      | advanced o' | returned => trivial
  · intro a b o₁ o₂ ha hb
    rcases getElem?_set_cases ha with ⟨rfl, -⟩ | ⟨-, ha⟩
    · rcases getElem?_set_cases hb with ⟨rfl, -⟩ | ⟨-, hb⟩
      · rfl
      · exact absurd hb hnone
    · exact absurd ha hnone

/-- **fleet に足す。** 受け取られるのは、まだ受け取られていない次の区間だけ。 -/
theorem ReleaseInv.releaseOrder (h : ReleaseInv v plan w) (hplan : SegmentsHaveBlocks plan)
    {i : Nat} (hi : w.calls[i]? = some (.ready o g))
    (out : AppendOutcome) : ReleaseInv v plan (w.releaseOrder i o g out) := by
  obtain ⟨ho, g', hg', hshape⟩ := h.calls hi
  have hids := segmentBlocks_ids ho hg' hshape
  unfold ReleaseWorld.releaseOrder
  dsimp only
  split
  · exact h.returned i
  rename_i hrej
  obtain ⟨hm, hwi⟩ := h.next_of_not_rejected hplan ho hg' hshape hrej
  cases out with
  | failed => exact h.returned i
  | ok =>
    have hlanded : CallOk v plan w.row.waitIndex (w.accepted.length + 1) (.landed o) :=
      ⟨hm.trans hwi.symm, by rw [hm]⟩
    exact h.accept hids hm hwi i hlanded
  | lostReply =>
    have hreturned : CallOk v plan w.row.waitIndex (w.accepted.length + 1) .returned := trivial
    exact h.accept hids hm hwi i hreturned

/-- **`wait_index` を書く。** 書き終えると、受け取られた区間の数に追いつく。 -/
theorem ReleaseInv.writeWaitIndex (h : ReleaseInv v plan w) {i : Nat}
    (hi : w.calls[i]? = some (.landed o)) : ReleaseInv v plan
      { (w.goto i (.advanced o)) with row := { w.row with waitIndex := o.waitIndex + 1 } } := by
  obtain ⟨hwi, hm⟩ := h.calls hi
  refine ⟨⟨h.row.vendor, h.row.shape, Nat.le_refl _⟩, h.inOrder, Nat.le_of_eq hm, ?_, h.held,
    ?_, ?_⟩
  · show w.accepted.length ≤ o.waitIndex + 1 + 1
    omega
  · intro j pc hj
    rcases getElem?_set_cases hj with ⟨-, rfl⟩ | ⟨hne, hj⟩
    · trivial
    · have hgrow : ∀ {o'}, SnapOk v plan w.row.waitIndex o' → SnapOk v plan (o.waitIndex + 1) o' :=
        fun hs => ⟨hs.vendor, hs.shape, by have := hs.behind; omega⟩
      have := h.calls hj
      cases pc with
      | landed o' => exact absurd (h.landedOnce hj hi) hne
      | gate o' => exact hgrow this
      | ready o' g' => exact ⟨hgrow this.1, this.2⟩
      | advanced o' | returned => trivial
  · intro a b o₁ o₂ ha hb
    rcases getElem?_set_cases ha with ⟨-, he⟩ | ⟨hne, ha⟩
    · cases he
    · exact absurd (h.landedOnce ha hi) hne

theorem SnapOk.rebound {p : Order} (hp : SnapOk v plan waitIndex p) (ho : SnapOk v plan waitIndex o)
    (retrieve : Bool) (node : String) (stepIndex : Nat) :
    SnapOk v plan waitIndex (rebound p (applyPlanNode o.steps node stepIndex
      (if retrieve then .pickup else .dropoff)) retrieve node)
      ∧ (rebound p (applyPlanNode o.steps node stepIndex
        (if retrieve then .pickup else .dropoff)) retrieve node).waitIndex = p.waitIndex := by
  have hshape : planShape (applyPlanNode o.steps node stepIndex
      (if retrieve then .pickup else .dropoff)) = planShape plan := by
    rw [applyPlanNode_shape _ _ _ _ (by cases retrieve <;> decide), ho.shape]
  unfold Dispatch.rebound
  cases retrieve with
  | true | false => exact ⟨⟨hp.vendor, hshape, hp.behind⟩, rfl⟩

/-- **どの動作も、区間が順に一度ずつ足されることを保つ。** -/
theorem ReleaseInv.step (h : ReleaseInv v plan w) (hplan : SegmentsHaveBlocks plan)
    (a : ReleaseAction) : ReleaseInv v plan (releaseStep w a) := by
  cases a with dsimp only [releaseStep]
  | operatorRelease =>
    cases hpc : handleOrderRelease w.row with
    | none => exact h
    | some pc =>
      obtain ⟨g, hg, rfl⟩ := released_ready (.inl hpc)
      exact h.startPatched hg
  | hardRelease =>
    cases hpc : hardReleaseStagedOrder w.row with
    | none => exact h
    | some pc =>
      obtain ⟨g, hg, rfl⟩ := released_ready (.inr hpc)
      exact h.startPatched hg
  | gateLoad => exact h.start h.row nofun
  | rebind i retrieve node stepIndex =>
    split
    · rename_i o hi
      have ho : SnapOk v plan w.row.waitIndex o := h.calls hi
      obtain ⟨hrow, hwi⟩ := h.row.rebound ho retrieve node stepIndex
      have hcall : CallOk v plan w.row.waitIndex w.accepted.length (.gate (rebound o
          (applyPlanNode o.steps node stepIndex (if retrieve then .pickup else .dropoff))
          retrieve node)) := (ho.rebound ho retrieve node stepIndex).1
      exact h.goto i hcall nofun hrow hwi
    · exact h
  | gateTail i =>
    split
    · rename_i o hi
      have ho : SnapOk v plan w.row.waitIndex o := h.calls hi
      cases htail : appendGateTail w.row o with
      | none => exact h.returned i
      | some pc =>
        obtain ⟨g, hg, rfl⟩ := appendGateTail_ready htail
        have hcall : CallOk v plan w.row.waitIndex w.accepted.length (.ready o g) :=
          ⟨ho, ho.segment hg⟩
        exact h.goto i hcall nofun h.row rfl
    · exact h
  | releaseOrder i out =>
    split
    · rename_i o g hi
      exact h.releaseOrder hplan hi out
    · exact h
  | writeWaitIndex i ok =>
    split
    · rename_i o hi
      split
      · exact h.writeWaitIndex hi
      · exact h.returned i
    · exact h
  | transition i ok =>
    split
    · split
      · exact h.goto i (show CallOk v plan w.row.waitIndex w.accepted.length .returned from trivial)
          nofun { h.row with } rfl
      · exact h.returned i
    · exact h
  | abort i => exact h.returned i
  | setStatus s | redirect node => exact { h with row := { h.row with } }

end Step

/-- **区間は順に一度ずつ足され、`wait_index` は一つより多く遅れない。** -/
theorem append_exactly_once (o : Order) (loadSeq : List String) (acts : List ReleaseAction)
    (hplan : SegmentsHaveBlocks o.steps) :
    ∀ w ∈ visited releaseStep (created o loadSeq) acts,
      w.accepted = List.range w.accepted.length
        ∧ w.row.waitIndex ≤ w.accepted.length
        ∧ w.accepted.length ≤ w.row.waitIndex + 1 := by
  intro w hw
  have hstep : ∀ w a, ReleaseInv o.vendorOrderID o.steps w →
      ReleaseInv o.vendorOrderID o.steps (releaseStep w a) := fun w a h => h.step hplan a
  have hinv := visited_of_inv hstep (ReleaseInv.created o loadSeq) w hw
  exact ⟨hinv.inOrder, hinv.ahead, hinv.behind⟩

def gatedOrder : Order :=
  { id := 1, status := .dispatched, vendorOrderID := "sg-1"
    steps := [{ action := .pickup, node := "P1" },
      { action := .wait, node := "G1", waitKind := .lane, waitLane := 7 },
      { action := .dropoff, node := "L7.S2" }, { action := .wait, waitKind := .station },
      { action := .pickup, node := "L7.S1" }, { action := .dropoff, node := "P1" }] }

def racingGates : List ReleaseAction :=
  [.setStatus .staged, .gateLoad, .gateLoad, .rebind 1 false "L7.S3" 2, .gateTail 0, .gateTail 1,
   .releaseOrder 0 .ok, .releaseOrder 1 .ok, .writeWaitIndex 0 false, .gateLoad, .gateTail 2,
   .releaseOrder 2 .ok]

theorem append_exactly_once_racing_gates :
    SegmentsHaveBlocks gatedOrder.steps
      ∧ (runSteps releaseStep (created gatedOrder []) racingGates).accepted = [0] := by
  have h := append_exactly_once gatedOrder [] racingGates (by decide) _ (mem_visited_runSteps _ _)
  refine ⟨by decide, ?_⟩
  decide

def dwellingLeg : Order :=
  { id := 2, status := .dispatched, vendorOrderID := "sg-2"
    steps := [{ action := .pickup, node := "L7.S1" },
      { action := .wait, node := "L7.S0", waitKind := .lane, waitLane := 7 }] }

def hardReleaseTwice : List ReleaseAction :=
  [.setStatus .staged, .hardRelease, .releaseOrder 0 .ok, .writeWaitIndex 0 false,
   .hardRelease, .releaseOrder 1 .ok]

/--
**空の区間は二度足される。**

fleet は二度とも受け取り、`wait_index` は受け取られた区間の数から二つ遅れる。
-/
theorem append_twice_empty_segment :
    (runSteps releaseStep (created dwellingLeg []) hardReleaseTwice).accepted = [0, 0]
      ∧ ¬ (runSteps releaseStep (created dwellingLeg [])
          hardReleaseTwice).accepted.length
        ≤ (runSteps releaseStep (created dwellingLeg [])
            hardReleaseTwice).row.waitIndex + 1 := by
  constructor
  · decide
  · decide

end Shingo.Dispatch
