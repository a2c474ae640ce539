import Shingo.Core.Applier

/-!
# 適用の二つの関数がすること

`applyBinUOPDelta` と `applyLinesideBucketDelta` が、重複よけの表と `uop_remaining` に
何をするかを言う。ledger・exception・知らせの書き込みは、どちらにも触れない。
-/

namespace Shingo.Core

open Infra Protocol Option CoreInventory

def CoreInventory.uop (c : CoreInventory) (binID : Int) : Option Int :=
  (c.bins binID).map Bin.uopRemaining

def binDedupKey (station : String) (d : BinUOPDelta) : DedupKey :=
  ⟨station, .bin, toString d.binID, d.epoch⟩

def bucketDedupKey (station : String) (d : LinesideBucketDelta) : DedupKey :=
  ⟨station, .bucket, bucketScopeKey d.coreNodeName d.pairKey d.styleID d.partNumber, 0⟩

def payloadRefused (d : BinUOPDelta) (bin : Bin) : Bool :=
  d.payloadCode != "" && bin.payloadCode != "" && d.payloadCode != bin.payloadCode
    && d.reason != some .produceTick

def clears (c : CoreInventory) (d : BinUOPDelta) (bin : Bin) : Bool :=
  c.binManifest.isSome && d.reason == some .captureReduction
    && decide (bin.uopRemaining + d.delta ≤ 0)

/-! ## 表を書く小さな関数 -/

section Writes

variable (c : CoreInventory)

theorem updateBin_bins_self {b : Int} {bin : Bin} (f : Bin → Bin) (h : c.bins b = some bin) :
    (c.updateBin b f).bins b = some (f bin) := by
  simp [updateBin, h]

theorem updateBin_bins_of_ne {b j : Int} (f : Bin → Bin) (h : j ≠ b) :
    (c.updateBin b f).bins j = c.bins j := by
  simp [updateBin, h]

theorem updateBin_bins_map {α : Type} {g : Bin → α} (b : Int) {f : Bin → Bin}
    (hf : ∀ x, g (f x) = g x) (j : Int) : ((c.updateBin b f).bins j).map g = (c.bins j).map g := by
  by_cases hj : j = b
  · subst hj
    cases h : c.bins j with
    | none => simp [updateBin, h]
    | some bin => rw [updateBin_bins_self c f h, map_some, map_some, hf]
  · rw [updateBin_bins_of_ne c f hj]

theorem repairEpoch_keeps (b : Int) (bin : Bin) :
    (repairEpoch c b bin).dedup = c.dedup ∧ (repairEpoch c b bin).bins = c.bins := by
  unfold repairEpoch
  split
  · exact ⟨rfl, rfl⟩
  split
  · exact ⟨rfl, rfl⟩
  · split <;> exact ⟨rfl, rfl⟩

end Writes

/-! ## 適用するときに書くもの -/

variable {c : CoreInventory} {d : BinUOPDelta}

variable {bin : Bin}

theorem bindProduceTick_spec (station : String) (h : c.bins d.binID = some bin) :
    ∃ bin', (bindProduceTick c station d bin).2 = bin'
      ∧ (bindProduceTick c station d bin).1.bins d.binID = some bin'
      ∧ bin'.uopRemaining = bin.uopRemaining
      ∧ (bindProduceTick c station d bin).1.dedup = c.dedup
      ∧ (bindProduceTick c station d bin).1.binManifest = c.binManifest
      ∧ (∀ j, j ≠ d.binID → (bindProduceTick c station d bin).1.bins j = c.bins j) := by
  unfold bindProduceTick
  split
  · split
    · exact ⟨_, rfl, updateBin_bins_self c _ h, rfl, rfl, rfl,
        fun j hj => updateBin_bins_of_ne c _ hj⟩
    · exact ⟨_, rfl, updateBin_bins_self c _ h, rfl, rfl, rfl,
        fun j hj => updateBin_bins_of_ne c _ hj⟩
  · exact ⟨bin, rfl, h, rfl, rfl, rfl, fun _ _ => rfl⟩

theorem bindProduceTick_refused_iff (c : CoreInventory) (station : String) (d : BinUOPDelta)
    (bin : Bin) : (d.payloadCode ≠ "" ∧ (bindProduceTick c station d bin).2.payloadCode ≠ ""
        ∧ d.payloadCode ≠ (bindProduceTick c station d bin).2.payloadCode)
      ↔ payloadRefused d bin = true := by
  simp only [payloadRefused, Bool.and_eq_true, bne_iff_ne]
  unfold bindProduceTick
  by_cases hr : d.reason = some .produceTick
  · refine ⟨?_, fun h => absurd hr h.2⟩
    rintro ⟨hne, -, hdiff⟩
    by_cases hp : bin.payloadCode = d.payloadCode
    · simp [hp] at hdiff
    · exfalso
      simp only [hr, hne, hp, ne_eq, not_false_eq_true, and_self, if_true] at hdiff
      split at hdiff <;> exact hdiff rfl
  · simp [hr]
    tauto

theorem bindProduceTick_of_refused (c : CoreInventory) (station : String)
    (h : payloadRefused d bin = true) : bindProduceTick c station d bin = (c, bin) := by
  simp only [payloadRefused, Bool.and_eq_true, bne_iff_ne] at h
  unfold bindProduceTick
  rw [if_neg fun hc => h.2 hc.1]

theorem addUOP_spec (station : String) (h : c.bins d.binID = some bin) :
    (addUOP c station d bin).bins d.binID
        = some { bin with uopRemaining := bin.uopRemaining + d.delta }
      ∧ (addUOP c station d bin).dedup = c.dedup
      ∧ (addUOP c station d bin).binManifest = c.binManifest
      ∧ (∀ j, j ≠ d.binID → (addUOP c station d bin).bins j = c.bins j) := by
  unfold addUOP
  split
  case' isFalse => split
  all_goals exact ⟨updateBin_bins_self c _ h, rfl, rfl, fun j hj => updateBin_bins_of_ne c _ hj⟩

theorem clearForReuseTx_spec {b : Int} (svc : ManifestClearer)
    (h : c.bins b = some bin) : (clearForReuseTx c b svc).bins b = some
        { bin with payloadCode := "", uopRemaining := 0, deltaEpoch := bin.deltaEpoch + 1 }
      ∧ (clearForReuseTx c b svc).dedup = c.dedup
      ∧ (∀ j, j ≠ b → (clearForReuseTx c b svc).bins j = c.bins j) := by
  simp only [clearForReuseTx, h]
  split
  all_goals exact ⟨updateBin_bins_self c _ h, rfl, fun j hj => updateBin_bins_of_ne c _ hj⟩

theorem clears_congr {c' : CoreInventory} {bin' : Bin} (hm : c'.binManifest = c.binManifest)
    (hu : bin'.uopRemaining = bin.uopRemaining) : clears c' d bin' = clears c d bin := by
  simp only [clears, hm, hu]

theorem clearIfCaptured_spec (bin : Bin)
    {x : Bin} (h : c.bins d.binID = some x) (hx : x.uopRemaining = bin.uopRemaining + d.delta) :
    (clearIfCaptured c d bin).uop d.binID
        = some (if clears c d bin then 0 else bin.uopRemaining + d.delta)
      ∧ (clearIfCaptured c d bin).dedup = c.dedup
      ∧ (∀ j, j ≠ d.binID → (clearIfCaptured c d bin).uop j = c.uop j) := by
  have hkeep : c.uop d.binID = some (bin.uopRemaining + d.delta) := by
    rw [uop, h, map_some, hx]
  unfold clearIfCaptured clears
  cases hm : c.binManifest with
  | none => exact ⟨by simpa using hkeep, rfl, fun _ _ => rfl⟩
  | some svc =>
    dsimp only
    split
    · rename_i hc
      obtain ⟨hz, hd, hr⟩ := clearForReuseTx_spec svc h
      exact ⟨by simp [uop, hz, hc.1, hc.2], hd, fun j hj => by rw [uop, hr j hj, uop]⟩
    · rename_i hc
      refine ⟨?_, rfl, fun _ _ => rfl⟩
      rw [hkeep]
      simp only [isSome_some, Bool.true_and, Bool.and_eq_true, beq_iff_eq,
        decide_eq_true_eq, hc, if_false]

/-! ## bin の適用 -/

/-- 断られたときに起きること。番号は使われず、bin に付くのは印だけ。 -/
structure BinRefused (c c' : CoreInventory) : Prop where
  dedup : c'.dedup = c.dedup
  bins : ∀ {α : Type} {g : Bin → α}, (∀ b, g { b with anomaly := true } = g b) →
    ∀ j, (c'.bins j).map g = (c.bins j).map g

namespace BinRefused

variable {c c' : CoreInventory}

theorem refl (c : CoreInventory) : BinRefused c c := ⟨rfl, fun _ _ => rfl⟩

theorem uop (h : BinRefused c c') (j : Int) : c'.uop j = c.uop j := h.bins (fun _ => rfl) j

theorem dropStaleEpoch (c : CoreInventory) (station : String) (d : BinUOPDelta) (bin : Bin) :
    BinRefused c (dropStaleEpoch c station d bin) := by
  unfold Core.dropStaleEpoch
  refine ⟨(repairEpoch_keeps ..).1, fun hg j => ?_⟩
  dsimp only
  rw [(repairEpoch_keeps ..).2]
  exact updateBin_bins_map c d.binID hg j

theorem recordRejectedDelta (c : CoreInventory) (station : String) (d : BinUOPDelta) (bin : Bin) :
    BinRefused c (recordRejectedDelta c station d bin) := by
  unfold Core.recordRejectedDelta
  split
  · exact ⟨rfl, fun _ _ => rfl⟩
  · exact ⟨rfl, updateBin_bins_map c d.binID⟩

end BinRefused

structure BinApplied (c c' : CoreInventory) (station : String) (d : BinUOPDelta) (bin : Bin) :
    Prop where
  fresh : ¬ c.dedup.Covers (binDedupKey station d) d.sequenceID
  dedup : c'.dedup = (c.dedup.claim (binDedupKey station d) d.sequenceID).1
  uop : c'.uop d.binID = some (if clears c d bin then 0 else bin.uopRemaining + d.delta)
  others : ∀ j, j ≠ d.binID → c'.uop j = c.uop j

variable {c : CoreInventory} (dedup : Watermark DedupKey)

theorem applyClaimed_cases (station : String) (h : c.bins d.binID = some bin) :
    (payloadRefused d bin = true ∧ ∃ c', applyClaimed c dedup station d
          = (c', some (.payloadMismatch d.binID d.payloadCode bin.payloadCode))
        ∧ BinRefused c c')
      ∨ (payloadRefused d bin = false ∧ ∃ c', applyClaimed c dedup station d = (c', none)
        ∧ c'.dedup = dedup
        ∧ c'.uop d.binID = some (if clears c d bin then 0 else bin.uopRemaining + d.delta)
        ∧ ∀ j, j ≠ d.binID → c'.uop j = c.uop j) := by
  have hc₁ : ({ c with dedup := dedup } : CoreInventory).bins d.binID = some bin := h
  obtain ⟨bin', hb, hbins, huop, hd, hm, hother⟩ := bindProduceTick_spec station hc₁
  have hiff := bindProduceTick_refused_iff { c with dedup := dedup } station d bin
  rw [hb] at hiff
  unfold applyClaimed
  rw [h]
  dsimp only
  rw [hb]
  by_cases hp : payloadRefused d bin = true
  · refine .inl ⟨hp, ?_⟩
    rw [if_pos (hiff.mpr hp)]
    have hkeep := bindProduceTick_of_refused { c with dedup := dedup } station hp
    rw [hkeep] at hb
    rw [← hb]
    exact ⟨_, rfl, BinRefused.recordRejectedDelta c station d bin⟩
  · refine .inr ⟨by simpa using hp, ?_⟩
    rw [if_neg fun hc => hp (hiff.mp hc)]
    obtain ⟨hself, hd₂, hm₂, hother₂⟩ := addUOP_spec station hbins
    obtain ⟨huop₃, hd₃, hother₃⟩ := clearIfCaptured_spec bin' hself rfl
    refine ⟨_, rfl, by rw [hd₃, hd₂, hd], ?_, ?_⟩
    · rw [huop₃, clears_congr (hm₂.trans hm) huop, huop]
      rfl
    · intro j hj
      rw [hother₃ j hj]
      unfold uop
      rw [hother₂ j hj, hother j hj]

theorem claimDeltaSequence_bin (station : String) (d : BinUOPDelta) :
    claimDeltaSequence dedup station .bin (toString d.binID) d.epoch d.sequenceID
      = dedup.claim (binDedupKey station d) d.sequenceID := rfl

/-- **error なら数も番号の表も変わらず、さもなければ番号を取って足す。** -/
theorem applyBinUOPDelta_cases (c : CoreInventory) (station : String) (d : BinUOPDelta) :
    (∃ c' e, applyBinUOPDelta c station d = (c', some e) ∧ BinRefused c c')
      ∨ ∃ c' bin, applyBinUOPDelta c station d = (c', none) ∧ c.bins d.binID = some bin
        ∧ BinApplied c c' station d bin := by
  unfold applyBinUOPDelta
  by_cases hst : station = ""
  · exact .inl ⟨c, _, if_pos hst, .refl c⟩
  rw [if_neg hst]
  by_cases hid : d.binID ≤ 0
  · exact .inl ⟨c, _, if_pos hid, .refl c⟩
  rw [if_neg hid]
  by_cases hstale : staleEpoch c d = true
  · rw [if_pos hstale]
    cases hb : c.bins d.binID with
    | none => exact .inl ⟨c, _, rfl, .refl c⟩
    | some bin => exact .inl ⟨_, _, rfl, .dropStaleEpoch c station d bin⟩
  rw [if_neg hstale]
  by_cases hcov : c.dedup.Covers (binDedupKey station d) d.sequenceID
  · refine .inl ⟨c, .skipped, ?_, .refl c⟩
    rw [claimDeltaSequence_bin, Watermark.claim_of_covers hcov]
  · have hclaim := Watermark.claim_of_not_covers hcov
    rw [claimDeltaSequence_bin, hclaim]
    cases hb : c.bins d.binID with
    | none =>
      refine .inl ⟨c, .noSuchBin d.binID, ?_, .refl c⟩
      simp [applyClaimed, hb]
    | some bin =>
      rcases applyClaimed_cases (c.dedup.set (binDedupKey station d) d.sequenceID) station hb with
        ⟨-, c', he, hr⟩ | ⟨-, c', he, hd, hu, ho⟩
      · exact .inl ⟨c', _, he, hr⟩
      · exact .inr ⟨c', bin, he, rfl, ⟨hcov, by rw [hd, hclaim], hu, ho⟩⟩

variable {station : String}

/-- **新しい番号で世代も合えば、断られるのは payload が違うときだけ。** -/
theorem applyBinUOPDelta_of_new (hst : station ≠ "") (hid : 0 < d.binID)
    (hbin : c.bins d.binID = some bin) (hstale : staleEpoch c d = false)
    (hnew : ¬ c.dedup.Covers (binDedupKey station d) d.sequenceID) :
    (applyBinUOPDelta c station d).2 = if payloadRefused d bin then
      some (.payloadMismatch d.binID d.payloadCode bin.payloadCode) else none := by
  unfold applyBinUOPDelta
  rw [if_neg hst, if_neg (by omega), hstale, if_neg (by decide), claimDeltaSequence_bin,
    Watermark.claim_of_not_covers hnew]
  dsimp only
  rcases applyClaimed_cases (c.dedup.set (binDedupKey station d) d.sequenceID) station hbin with
    ⟨hp, c', he, -⟩ | ⟨hp, c', he, -⟩
  · rw [he, if_pos hp]
  · rw [he, hp]
    rfl

/-! ## bucket の適用 -/

def CoreInventory.bucketQty (c : CoreInventory) (k : BucketKey) : Int :=
  ((c.buckets k).map Bucket.qty).getD 0

theorem upsertBucket_adds (station : String) (d : LinesideBucketDelta) {b : Option Bucket}
    (hqty : 0 ≤ (b.map Bucket.qty).getD 0 + d.delta) : ∃ row, upsertBucket station d b = some row
      ∧ (row.map Bucket.qty).getD 0 = (b.map Bucket.qty).getD 0 + d.delta
      ∧ ∀ r, row = some r → 0 < r.qty := by
  cases b with
  | none =>
    simp only [map_none, getD_none, Int.zero_add] at hqty ⊢
    refine ⟨_, rfl, ?_, ?_⟩
    · split
      · next hz => simp only [map_none, getD_none]; omega
      · simp only [map_some, getD_some]; omega
    · intro r hr
      split at hr
      · cases hr
      · cases hr
        dsimp only
        omega
  | some b =>
    simp only [map_some, getD_some] at hqty ⊢
    unfold upsertBucket
    dsimp only
    rw [if_neg (Int.not_lt.mpr hqty)]
    refine ⟨_, rfl, ?_, ?_⟩
    · split
      · next hz => simp only [map_none, getD_none]; omega
      · rfl
    · intro r hr
      split at hr
      · cases hr
      · cases hr
        dsimp only
        omega

variable {d : LinesideBucketDelta}

theorem upsertBucket_nonneg {b row : Option Bucket} (h : upsertBucket station d b = some row)
    (hmiss : ¬ (d.delta < 0 ∧ b = none)) : 0 ≤ (b.map Bucket.qty).getD 0 + d.delta := by
  cases b with
  | none =>
    simp only [and_true] at hmiss
    simp only [map_none, getD_none]
    omega
  | some b =>
    simp only [upsertBucket] at h
    split at h
    · cases h
    · simp only [map_some, getD_some]
      omega

/-- 適用されたときに起きること。`row` は新しい行で、`none` は数が 0 になって消えたこと。 -/
structure BucketApplied (c c' : CoreInventory) (station : String) (d : LinesideBucketDelta)
    (row : Option Bucket) : Prop where
  fresh : ¬ c.dedup.Covers (bucketDedupKey station d) d.sequenceID
  state : c' = { c with
    dedup := c.dedup.set (bucketDedupKey station d) d.sequenceID
    buckets := fun k => if k = bucketKeyOf d then row else c.buckets k }
  qty : (row.map Bucket.qty).getD 0 = c.bucketQty (bucketKeyOf d) + d.delta
  pos : ∀ r, row = some r → 0 < r.qty

theorem claimDeltaSequence_bucket (station : String) (d : LinesideBucketDelta) :
    claimDeltaSequence dedup station .bucket
        (bucketScopeKey d.coreNodeName d.pairKey d.styleID d.partNumber) 0 d.sequenceID
      = dedup.claim (bucketDedupKey station d) d.sequenceID := rfl

/-- **error なら何も変わらず、さもなければ番号を取って足す。** -/
theorem applyLinesideBucketDelta_cases (c : CoreInventory) (station : String)
    (d : LinesideBucketDelta) : (∃ e, applyLinesideBucketDelta c station d = (c, some e)
        ∧ (e = .skipped → c.dedup.Covers (bucketDedupKey station d) d.sequenceID))
      ∨ ∃ c' row, applyLinesideBucketDelta c station d = (c', none)
        ∧ BucketApplied c c' station d row := by
  unfold applyLinesideBucketDelta
  by_cases hst : station = ""
  · exact .inl ⟨_, if_pos hst, by simp⟩
  rw [if_neg hst]
  by_cases hn : d.coreNodeName = ""
  · exact .inl ⟨_, if_pos hn, by simp⟩
  rw [if_neg hn]
  by_cases hp : d.partNumber = ""
  · exact .inl ⟨_, if_pos hp, by simp⟩
  rw [if_neg hp]
  by_cases hk : c.nodes d.coreNodeName = false
  · exact .inl ⟨_, if_pos hk, by simp⟩
  rw [if_neg hk]
  by_cases hcov : c.dedup.Covers (bucketDedupKey station d) d.sequenceID
  · rw [claimDeltaSequence_bucket, Watermark.claim_of_covers hcov]
    exact .inl ⟨_, rfl, fun _ => hcov⟩
  · rw [claimDeltaSequence_bucket, Watermark.claim_of_not_covers hcov]
    dsimp only
    by_cases hmiss : d.delta < 0 ∧ c.buckets (bucketKeyOf d) = none
    · rw [if_pos hmiss]
      exact .inl ⟨_, rfl, by simp⟩
    rw [if_neg hmiss]
    cases hrow : upsertBucket station d (c.buckets (bucketKeyOf d)) with
    | none => exact .inl ⟨_, rfl, by simp⟩
    | some row =>
      obtain ⟨row', hrow', hqty, hpos⟩ :=
        upsertBucket_adds station d (upsertBucket_nonneg hrow hmiss)
      obtain rfl : row = row' := some.inj (hrow.symm.trans hrow')
      exact .inr ⟨_, row, rfl, ⟨hcov, rfl, hqty, hpos⟩⟩

theorem applyLinesideBucketDelta_skipped
    (h : (applyLinesideBucketDelta c station d).2 = some .skipped) :
    c.dedup.Covers (bucketDedupKey station d) d.sequenceID := by
  rcases applyLinesideBucketDelta_cases c station d with ⟨e, he, hcov⟩ | ⟨c', row, he, -⟩
  · rw [he] at h
    exact hcov (some.inj h)
  · rw [he] at h
    cases h

theorem applyLinesideBucketDelta_bins (c : CoreInventory) (station : String)
    (d : LinesideBucketDelta) : (applyLinesideBucketDelta c station d).1.bins = c.bins := by
  rcases applyLinesideBucketDelta_cases c station d with ⟨e, he, -⟩ | ⟨c', row, he, ha⟩
  · rw [he]
  · rw [he, ha.state]

theorem applyLinesideBucketDelta_dedup (c : CoreInventory) (station : String)
    (d : LinesideBucketDelta) : (applyLinesideBucketDelta c station d).1.dedup = c.dedup
      ∨ ¬ c.dedup.Covers (bucketDedupKey station d) d.sequenceID
        ∧ (applyLinesideBucketDelta c station d).1.dedup
          = (c.dedup.claim (bucketDedupKey station d) d.sequenceID).1 := by
  rcases applyLinesideBucketDelta_cases c station d with ⟨e, he, -⟩ | ⟨c', row, he, ha⟩
  · rw [he]
    exact .inl rfl
  · rw [he, ha.state, Watermark.claim_of_not_covers ha.fresh]
    exact .inr ⟨ha.fresh, rfl⟩

/-- **覆われておらず、結果が負にならない bucket の電文は、数を足す。** -/
theorem applyLinesideBucketDelta_adds (hst : station ≠ "") (hname : d.coreNodeName ≠ "")
    (hpart : d.partNumber ≠ "") (hnode : c.nodes d.coreNodeName = true)
    (hcov : ¬ c.dedup.Covers (bucketDedupKey station d) d.sequenceID)
    (hqty : 0 ≤ c.bucketQty (bucketKeyOf d) + d.delta) :
    ∃ row, (applyLinesideBucketDelta c station d).1
        = { c with
            dedup := c.dedup.set (bucketDedupKey station d) d.sequenceID
            buckets := fun k => if k = bucketKeyOf d then row else c.buckets k }
      ∧ (row.map Bucket.qty).getD 0 = c.bucketQty (bucketKeyOf d) + d.delta
      ∧ ∀ r, row = some r → 0 < r.qty := by
  obtain ⟨row, hrow, hsum, hpos⟩ := upsertBucket_adds station d hqty
  have hpresent : ¬ (d.delta < 0 ∧ c.buckets (bucketKeyOf d) = none) := by
    rintro ⟨hneg, hnone⟩
    rw [bucketQty, hnone] at hqty
    simp only [map_none, getD_none] at hqty
    omega
  refine ⟨row, ?_, hsum, hpos⟩
  unfold applyLinesideBucketDelta
  rw [if_neg hst, if_neg hname, if_neg hpart, hnode, if_neg (by decide),
    claimDeltaSequence_bucket, Watermark.claim_of_not_covers hcov]
  dsimp only
  rw [if_neg hpresent, hrow]

end Shingo.Core
