import Shingo.Properties.CountFence

/-!
# 受け付けた電文の和

`ApplyBinUOPDelta` と `ApplyLinesideBucketDelta` を、どんな電文の列にも適用する。断られた電文は
数にも札にも番号の表にも触れないので、数は受け付けた電文の和だけで決まる。

bin の数は途中で決め直される。capture_reduction で空になった bin の manifest が消えるのも
決め直しの一つで、0 が書かれる。lineside bucket の数は決め直されず、行は数が 0 になると消える。
-/

namespace Shingo.Core

open Infra Protocol List

def CoreInventory.payload (c : CoreInventory) (binID : Int) : Option String :=
  (c.bins binID).map Bin.payloadCode

/-! ## 断られる電文 -/

variable {c c' : CoreInventory}

section Refused

variable {station : String} {d : BinUOPDelta} {bin : Bin}

theorem applyBinUOPDelta_of_stale (hst : station ≠ "") (hid : 0 < d.binID)
    (hbin : c.bins d.binID = some bin) (hpos : 0 < d.epoch) (hlt : d.epoch < bin.deltaEpoch) :
    (applyBinUOPDelta c station d).2 = some .skipped := by
  have hstale : staleEpoch c d = true := by simp [staleEpoch, hbin, hpos, hlt]
  unfold applyBinUOPDelta
  rw [if_neg hst, if_neg (by omega), if_pos hstale, hbin]

/-- **断られた電文は、どの bin の数にも札にも、番号の表にも触れない。** -/
theorem applyBinUOPDelta_refused {e : ApplyError}
    (h : applyBinUOPDelta c station d = (c', some e)) : BinRefused c c' := by
  rcases applyBinUOPDelta_cases c station d with ⟨c₁, e₁, he, hr⟩ | ⟨c₁, bin₁, he, -⟩
  · rw [h] at he
    cases he
    exact hr
  · rw [h] at he
    cases he

end Refused

/-! ## bin の数の履歴 -/

inductive CountReset where
  | clearForReuse
  | setForProduction (payloadCode : String) (uop : Int)
  | claim (remainingUOP : Int) (guard : Bool)
  | release (orderID remainingUOP : Int) (sourceNodeFallback guard : Bool)

def CountReset.value : CountReset → Int
  | .clearForReuse => 0
  | .setForProduction _ uop => uop
  | .claim n _ => max n 0
  | .release _ n _ _ => n

def CountReset.run (binID : Int) (svc : ManifestClearer) (c : CoreInventory) :
    CountReset → Except ManifestError CoreInventory
  | .clearForReuse => Core.clearForReuse c svc binID
  | .setForProduction payloadCode uop => Core.setForProduction c svc binID payloadCode uop
  | .claim n guard => claimUnderReservationTx c svc binID (some n) guard
  | .release orderID n fallback guard =>
    syncOrClearForReleased c svc binID orderID (some n) fallback guard

/-- 数の履歴。`base` は最後に書かれた値、`since` はその後に受け付けた電文。 -/
structure CountWorld where
  core : CoreInventory
  base : Int
  since : List BinUOPDelta

inductive CountAction where
  | apply (station : String) (d : BinUOPDelta)
  | reset (r : CountReset)

def CountWorld.counted (w : CountWorld) : Int := (w.since.map BinUOPDelta.delta).sum

/-- bin `binID` の数の一歩。適用のついでに manifest が消えたら、0 が書かれている。 -/
def countStep (binID : Int) (svc : ManifestClearer) (w : CountWorld) : CountAction → CountWorld
  | .apply station d =>
    match applyBinUOPDelta w.core station d with
    | (core, some _) => { w with core }
    | (core, none) =>
      if d.binID ≠ binID then { w with core }
      else if (w.core.bins binID).any (clears w.core d) then { core, base := 0, since := [] }
      else { w with core, since := w.since ++ [d] }
  | .reset r =>
    match r.run binID svc w.core with
    | .error _ => w
    | .ok core => { core, base := r.value, since := [] }

section Reset

variable {b : Int} {svc : ManifestClearer} {f : Bin → Bin} {value n : Int} {guard : Bool}

theorem uop_bumpEpoch_updateBin (h : ¬ (c.bins b).isNone = true)
    (hf : ∀ x, (f x).uopRemaining = value) :
    (bumpEpoch (c.updateBin b f) svc b).uop b = some value := by
  obtain ⟨bin, hbin⟩ := Option.ne_none_iff_exists'.mp (by simpa using h)
  obtain ⟨hbins, -⟩ := bumpEpoch_spec svc (updateBin_bins_self c f hbin)
  rw [CoreInventory.uop, hbins, Option.map_some, hf]

theorem uop_updateBin (h : ¬ (c.bins b).isNone = true) (hf : ∀ x, (f x).uopRemaining = value) :
    (c.updateBin b f).uop b = some value := by
  obtain ⟨bin, hbin⟩ := Option.ne_none_iff_exists'.mp (by simpa using h)
  rw [CoreInventory.uop, updateBin_bins_self c f hbin, Option.map_some, hf]

theorem clearAndClaimTx_uop (h : clearAndClaimTx c svc b guard = .ok c') : c'.uop b = some 0 := by
  unfold clearAndClaimTx at h
  split at h
  · cases h
  rename_i hbin
  split at h
  · cases h
    exact uop_bumpEpoch_updateBin hbin fun _ => rfl
  · cases h

theorem syncUOPAndClaimTx_uop (h : syncUOPAndClaimTx c b n guard = .ok c') : c'.uop b = some n := by
  unfold syncUOPAndClaimTx at h
  split at h
  · cases h
  rename_i hbin
  split at h
  · cases h
    exact uop_updateBin hbin fun _ => rfl
  · cases h

theorem syncOrClearForReleased_uop {orderID : Int} {fallback : Bool}
    (h : syncOrClearForReleased c svc b orderID (some n) fallback guard = .ok c') :
    c'.uop b = some n := by
  unfold syncOrClearForReleased at h
  dsimp only at h
  split at h
  · cases h
  split at h
  · cases h
  rename_i hbin
  split at h
  · cases h
  split at h
  · next hzero =>
    cases h
    rw [hzero]
    exact uop_bumpEpoch_updateBin hbin fun _ => rfl
  · cases h
    exact uop_bumpEpoch_updateBin hbin fun _ => rfl

/-- **決め直しに成功すれば、数は書いた値になる。** -/
theorem CountReset.run_uop {r : CountReset} (h : r.run b svc c = .ok c') :
    c'.uop b = some r.value := by
  cases r with
  | clearForReuse =>
    simp only [CountReset.run, Core.clearForReuse] at h
    split at h
    · cases h
    rename_i hbin
    cases h
    exact uop_bumpEpoch_updateBin hbin fun _ => rfl
  | setForProduction payloadCode uop =>
    simp only [CountReset.run, Core.setForProduction] at h
    split at h
    · cases h
    rename_i hbin
    cases h
    exact uop_bumpEpoch_updateBin hbin fun _ => rfl
  | claim n guard =>
    simp only [CountReset.run, claimUnderReservationTx] at h
    show _ = some (max n 0)
    split at h
    · next hn =>
      rw [Int.max_eq_right hn]
      exact clearAndClaimTx_uop h
    · next hn =>
      rw [Int.max_eq_left (by omega)]
      exact syncUOPAndClaimTx_uop h
  | release orderID n fallback guard => exact syncOrClearForReleased_uop h

end Reset

def CountWorld.Counted (binID : Int) (w : CountWorld) : Prop :=
  w.core.uop binID = some (w.base + w.counted)

theorem CountWorld.Counted.step {binID : Int} (svc : ManifestClearer) {w : CountWorld}
    (h : w.Counted binID) (a : CountAction) : (countStep binID svc w a).Counted binID := by
  cases a with unfold countStep
  | apply station d =>
    rcases applyBinUOPDelta_cases w.core station d with ⟨core, e, he, hr⟩ | ⟨core, bin, he, hb, ha⟩
    · simp only [he]
      exact (hr.uop binID).trans h
    · simp only [he]
      by_cases hid : d.binID = binID
      · rw [if_neg (by simpa using hid)]
        subst hid
        have huop : bin.uopRemaining = w.base + w.counted := by
          have hw : w.core.uop d.binID = some (w.base + w.counted) := h
          rw [CoreInventory.uop, hb, Option.map_some] at hw
          exact Option.some.inj hw
        have hset := ha.uop
        rw [hb, Option.any_some]
        cases hcl : clears w.core d bin with rw [hcl] at hset
        | true =>
          exact hset
        | false =>
          simp only [Bool.false_eq_true, if_false] at hset ⊢
          show core.uop d.binID = some (w.base + ((w.since ++ [d]).map BinUOPDelta.delta).sum)
          rw [hset, huop, CountWorld.counted, map_append, sum_append]
          simp only [map_cons, map_nil, sum_cons, sum_nil, add_zero]
          rw [Int.add_assoc]
      · rw [if_pos hid]
        exact (ha.others binID (Ne.symm hid)).trans h
  | reset r =>
    dsimp only
    cases hrun : r.run binID svc w.core with
    | error e => exact h
    | ok core =>
      show core.uop binID = some (r.value + 0)
      rw [CountReset.run_uop hrun, Int.add_zero]

/-- **断られた bin の電文は何も動かさず、数は決め直しの値と受け付けた和。** -/
theorem refused_delta_inert :
    (∀ (c : CoreInventory) (station : String) (d : BinUOPDelta) (bin : Bin), station ≠ "" →
      0 < d.binID → c.bins d.binID = some bin →
      (0 < d.epoch → d.epoch < bin.deltaEpoch →
        (applyBinUOPDelta c station d).2 = some .skipped)
      ∧ (staleEpoch c d = false →
        ¬ c.dedup.Covers (binDedupKey station d) d.sequenceID → payloadRefused d bin = true →
        (applyBinUOPDelta c station d).2
          = some (.payloadMismatch d.binID d.payloadCode bin.payloadCode)))
    ∧ (∀ (c c' : CoreInventory) (station : String) (d : BinUOPDelta) (e : ApplyError),
      applyBinUOPDelta c station d = (c', some e) →
      c'.dedup = c.dedup ∧ ∀ j, c'.uop j = c.uop j ∧ c'.payload j = c.payload j)
    ∧ (∀ (core : CoreInventory) (binID base : Int) (svc : ManifestClearer)
        (acts : List CountAction), core.uop binID = some base →
      ∀ w ∈ visited (countStep binID svc) ⟨core, base, []⟩ acts,
        w.core.uop binID = some (w.base + w.counted)) := by
  refine ⟨?_, ?_, ?_⟩
  · intro c station d bin hst hid hbin
    refine ⟨?_, ?_⟩
    · intro hpos hlt
      exact applyBinUOPDelta_of_stale hst hid hbin hpos hlt
    · intro hstale hnew hpay
      rw [applyBinUOPDelta_of_new hst hid hbin hstale hnew, if_pos hpay]
  · intro c c' station d e h
    have hr := applyBinUOPDelta_refused h
    exact ⟨hr.dedup, fun j => ⟨hr.uop j, hr.bins (fun _ => rfl) j⟩⟩
  · intro core binID base svc acts hbase
    have hstart : CountWorld.Counted binID ⟨core, base, []⟩ := by
      show core.uop binID = some (base + 0)
      rw [hbase, Int.add_zero]
    have hinv : ∀ w ∈ visited (countStep binID svc) ⟨core, base, []⟩ acts, w.Counted binID :=
      visited_of_inv (fun _ a hw => hw.step svc a) hstart
    exact hinv

def binTick (payloadCode : String) (delta epoch : Int) (sequenceID : Nat) : BinUOPDelta :=
  ⟨"ST1", 7, payloadCode, delta, some .consumeTick, sequenceID, epoch, 1, 2⟩

def resetMidway : List CountAction :=
  [.apply "ST1" (binTick "P" (-4) 1 1), .apply "ST1" (binTick "Q" (-1) 1 2),
   .reset (.setForProduction "Q" 90), .apply "ST1" (binTick "P" (-1) 1 2),
   .apply "ST1" (binTick "Q" (-7) 2 1)]

theorem refused_delta_inert_resetMidway :
    (applyBinUOPDelta coreAtFifty "ST1" (binTick "Q" (-1) 1 2)).2
      = some (.payloadMismatch 7 "Q" "P")
    ∧ (applyBinUOPDelta coreAtFifty "ST1" (binTick "Q" (-1) 1 2)).1.payload 7 = some "P"
    ∧ (runSteps (countStep 7 ⟨true⟩) ⟨coreAtFifty, 50, []⟩ resetMidway).core.uop 7
      = some (90 + -7) := by
  have hpay := (refused_delta_inert.1 coreAtFifty "ST1" (binTick "Q" (-1) 1 2) _ (by decide)
    (by decide) rfl).2 (by decide) (by decide) (by decide)
  have hframe := refused_delta_inert.2.1 coreAtFifty _ "ST1" (binTick "Q" (-1) 1 2) _
    (Prod.ext rfl hpay)
  have hrun := refused_delta_inert.2.2 coreAtFifty 7 50 ⟨true⟩ resetMidway rfl _
    (mem_visited_runSteps _ _)
  exact ⟨hpay, (hframe.2 7).2, hrun⟩

/-! ## lineside bucket の履歴 -/

structure BucketWorld where
  core : CoreInventory
  accepted : List LinesideBucketDelta

def bucketStep (w : BucketWorld) (a : String × LinesideBucketDelta) : BucketWorld :=
  match applyLinesideBucketDelta w.core a.1 a.2 with
  | (core, some _) => { w with core }
  | (core, none) => { core, accepted := w.accepted ++ [a.2] }

def BucketWorld.counted (k : BucketKey) (w : BucketWorld) : Int :=
  ((w.accepted.filter (bucketKeyOf · == k)).map LinesideBucketDelta.delta).sum

/-- bucket `k` の行は空でなく、数は始めの数と受け付けた和。 -/
structure BucketInv (k : BucketKey) (initial : Int) (w : BucketWorld) : Prop where
  pos : ∀ b, w.core.buckets k = some b → 0 < b.qty
  sum : w.core.bucketQty k = initial + w.counted k

variable {k : BucketKey}

theorem BucketInv.step {initial : Int} {w : BucketWorld} (h : BucketInv k initial w)
    (a : String × LinesideBucketDelta) : BucketInv k initial (bucketStep w a) := by
  obtain ⟨station, d⟩ := a
  unfold bucketStep
  rcases applyLinesideBucketDelta_cases w.core station d with ⟨e, he, -⟩ | ⟨core, row, he, ha⟩
  · simp only [he]
    exact h
  · simp only [he]
    have hat : core.buckets k = if k = bucketKeyOf d then row else w.core.buckets k := by
      rw [ha.state]
    by_cases hk : k = bucketKeyOf d
    · rw [if_pos hk] at hat
      refine ⟨fun b hb => ha.pos b (hat.symm.trans hb), ?_⟩
      have hcount : (BucketWorld.mk core (w.accepted ++ [d])).counted k
          = w.counted k + d.delta := by
        simp [BucketWorld.counted, filter_append, hk]
      rw [hcount, CoreInventory.bucketQty, hat, ha.qty, ← hk, h.sum, Int.add_assoc]
    · rw [if_neg hk] at hat
      refine ⟨fun b hb => h.pos b (hat.symm.trans hb), ?_⟩
      have hcount : (BucketWorld.mk core (w.accepted ++ [d])).counted k = w.counted k := by
        simp [BucketWorld.counted, filter_append, Ne.symm hk]
      rw [hcount, CoreInventory.bucketQty, hat]
      exact h.sum

theorem bucketQty_of_pos (h : ∀ b, c.buckets k = some b → 0 < b.qty) :
    ((c.buckets k).isSome = true ↔ 0 < c.bucketQty k) ∧ 0 ≤ c.bucketQty k := by
  unfold CoreInventory.bucketQty
  cases hb : c.buckets k with
  | none => simp
  | some b =>
    have := h b hb
    simp only [Option.isSome_some, Option.map_some, Option.getD_some, true_iff]
    omega

/-- **bucket の行は数が正のときだけ在り、数は受け付けた電文の和。** -/
theorem bucket_ledger (core : CoreInventory) (k : BucketKey)
    (hstart : ∀ b, core.buckets k = some b → 0 < b.qty)
    (calls : List (String × LinesideBucketDelta)) :
    ∀ w ∈ visited bucketStep ⟨core, []⟩ calls,
      ((w.core.buckets k).isSome = true ↔ 0 < w.core.bucketQty k)
      ∧ 0 ≤ w.core.bucketQty k
      ∧ w.core.bucketQty k = core.bucketQty k + w.counted k
      ∧ ∀ station d e, (applyLinesideBucketDelta w.core station d).2 = some e →
          (applyLinesideBucketDelta w.core station d).1 = w.core := by
  have hinit : BucketInv k (core.bucketQty k) ⟨core, []⟩ :=
    ⟨hstart, by simp [BucketWorld.counted]⟩
  intro w hw
  have hinv : BucketInv k (core.bucketQty k) w :=
    visited_of_inv (fun _ a hv => hv.step a) hinit w hw
  obtain ⟨hrow, hnonneg⟩ := bucketQty_of_pos hinv.pos
  refine ⟨hrow, hnonneg, hinv.sum, ?_⟩
  intro station d e he
  rcases applyLinesideBucketDelta_cases w.core station d with ⟨e', he', -⟩ | ⟨c', row, he', -⟩
  · rw [he']
  · rw [he'] at he
    cases he

def bucketTick (delta : Int) (sequenceID : Nat) : LinesideBucketDelta :=
  ⟨"PRESS", "", 1, "BRK", "", delta, none, sequenceID, 1, 2⟩

/-- 無い行からの引き算、重複、引きすぎは断られ、ちょうど 0 になって行が消える。 -/
def drainedBucket : List (String × LinesideBucketDelta) :=
  [("ST1", bucketTick (-1) 1), ("ST1", bucketTick 6 1), ("ST1", bucketTick 6 1),
   ("ST2", bucketTick (-7) 1), ("ST2", bucketTick (-6) 1)]

theorem bucket_ledger_drained :
    (runSteps bucketStep ⟨coreAtFifty, []⟩ (drainedBucket.take 4)).core.bucketQty
        ⟨"PRESS", "", 1, "BRK"⟩ = 0 + 6
    ∧ ¬ ((runSteps bucketStep ⟨coreAtFifty, []⟩ drainedBucket).core.buckets
        ⟨"PRESS", "", 1, "BRK"⟩).isSome = true := by
  have hledger := bucket_ledger coreAtFifty ⟨"PRESS", "", 1, "BRK"⟩ (fun b hb => by cases hb)
  obtain ⟨-, -, hmid, -⟩ := hledger (drainedBucket.take 4) _ (mem_visited_runSteps _ _)
  obtain ⟨hrow, -, hend, -⟩ := hledger drainedBucket _ (mem_visited_runSteps _ _)
  have hsum : (runSteps bucketStep ⟨coreAtFifty, []⟩ (drainedBucket.take 4)).counted
        ⟨"PRESS", "", 1, "BRK"⟩ = 6
      ∧ (runSteps bucketStep ⟨coreAtFifty, []⟩ drainedBucket).counted
        ⟨"PRESS", "", 1, "BRK"⟩ = 0 := by decide +kernel
  refine ⟨by rw [hmid, hsum.1]; rfl, ?_⟩
  decide

end Shingo.Core
