import Shingo.Properties.Conservation

/-!
# 電文の通し番号

edge は範囲（`DeltaScope`）ごとに番号を取り、番号一つにつき電文を高々一つ outbox に入れる。
番号を取ってから入れるまでの間に失敗すると、その番号は使われずに終わる。
-/

namespace Shingo.Edge

open Infra Protocol

def Envelope.scope : Envelope → DeltaScope
  | .bin d => ⟨.bin, toString d.binID, d.epoch⟩
  | .bucket scopeKey _ => ⟨.bucket, scopeKey, 0⟩

def Envelope.seq : Envelope → Nat
  | .bin d => d.sequenceID
  | .bucket _ d => d.sequenceID

def FlushPC.pendingSeq : FlushPC → Option (DeltaScope × Nat)
  | .flushBins (some (s, .allocated seq)) => some (⟨.bin, s.key, s.entry.info.epoch⟩, seq)
  | .flushBins (some (s, .encoded seq)) => some (⟨.bin, s.key, s.entry.info.epoch⟩, seq)
  | .flushBuckets (some (s, .allocated seq)) => some (⟨.bucket, s.key, 0⟩, seq)
  | .flushBuckets (some (s, .encoded seq)) => some (⟨.bucket, s.key, 0⟩, seq)
  | _ => none

def enqueues (a : Accumulator) : AccAction → Option Envelope
  | .callback true _ _ =>
    match a.pc with
    | .flushBins (some (s, .encoded seq)) => some (.bin (binEnvelope a.stationID s.entry seq))
    | .flushBuckets (some (s, .encoded seq)) => some (.bucket s.key (bucketEnvelope s.entry seq))
    | _ => none
  | _ => none

/-! ## 一つの動作 -/

/-- 一つの動作が番号と outbox にすることは、何もしないか、番号を取るか、入れるか。 -/
inductive SeqEffect (a a' : Accumulator) (env : Option Envelope) : Prop where
  | quiet (hout : a'.outbox = a.outbox) (hseqs : a'.seqs = a.seqs) (henv : env = none)
      (hpc : a'.pc.pendingSeq = none ∨ a'.pc.pendingSeq = a.pc.pendingSeq)
  | allocated (sc : DeltaScope) (hout : a'.outbox = a.outbox)
      (hseqs : a'.seqs = (allocateInventoryDeltaSeq a.seqs sc).1) (henv : env = none)
      (hpc : a'.pc.pendingSeq = some (sc, a.seqs sc + 1))
  | enqueued (e : Envelope) (hout : a'.outbox = a.outbox ++ [e]) (hseqs : a'.seqs = a.seqs)
      (henv : env = some e) (hpend : a.pc.pendingSeq = some (e.scope, e.seq))
      (hpc : a'.pc.pendingSeq = none)

variable {a : Accumulator}

theorem flushBinsStep_seq (h : AccInv a) {sn : Snap BinInfo} {pc : SendPC}
    (hpc : a.pc = .flushBins (some (sn, pc))) (ok : Bool) (now : Nat) (lookup : Option String) :
    SeqEffect a (flushBinsStep a sn ok now pc) (enqueues a (.callback ok now lookup)) := by
  cases ok with
  | false => cases pc <;> exact .quiet rfl rfl rfl (.inl rfl)
  | true =>
    cases pc with
    | snapped | named | unnamed =>
      exact .allocated ⟨.bin, sn.key, sn.entry.info.epoch⟩ rfl rfl (by simp [enqueues, hpc]) rfl
    | allocated seq => exact .quiet rfl rfl (by simp [enqueues, hpc]) (.inr (by rw [hpc]; rfl))
    | encoded seq =>
      -- 電文の bin id から読める鍵は、番号を取った鍵
      obtain ⟨_, hb, -⟩ := h
      rw [hpc] at hb
      have hkey : toString sn.entry.info.binID = sn.key := hb.shape.snapKeyed rfl
      refine .enqueued (.bin (binEnvelope a.stationID sn.entry seq)) rfl rfl
        (by simp [enqueues, hpc]) ?_ rfl
      rw [hpc]
      simp only [FlushPC.pendingSeq, Envelope.scope, Envelope.seq, binEnvelope, hkey]
    | enqueued seq => exact .quiet rfl rfl (by simp [enqueues, hpc]) (.inl rfl)

theorem flushBucketsStep_seq {sn : Snap BucketInfo} {pc : SendPC}
    (hpc : a.pc = .flushBuckets (some (sn, pc))) (ok : Bool) (now : Nat) (lookup : Option String) :
    SeqEffect a (flushBucketsStep a sn ok now lookup pc)
      (enqueues a (.callback ok now lookup)) := by
  cases ok with
  | false =>
    cases pc with
    | snapped =>
      dsimp only [flushBucketsStep]
      split <;> exact .quiet rfl rfl rfl (.inl rfl)
    | _ => exact .quiet rfl rfl rfl (.inl rfl)
  | true =>
    cases pc with
    | snapped =>
      dsimp only [flushBucketsStep]
      split <;> exact .quiet rfl rfl (by simp [enqueues, hpc]) (.inl rfl)
    | unnamed | enqueued seq => exact .quiet rfl rfl (by simp [enqueues, hpc]) (.inl rfl)
    | named => exact .allocated ⟨.bucket, sn.key, 0⟩ rfl rfl (by simp [enqueues, hpc]) rfl
    | allocated seq => exact .quiet rfl rfl (by simp [enqueues, hpc]) (.inr (by rw [hpc]; rfl))
    | encoded seq =>
      refine .enqueued (.bucket sn.key (bucketEnvelope sn.entry seq)) rfl rfl
        (by simp [enqueues, hpc]) ?_ rfl
      rw [hpc]
      rfl

/-- **一つの動作が番号と outbox にすること。** -/
theorem accStep_seq_cases (h : AccInv a) (act : AccAction) :
    SeqEffect a (accStep a act) (enqueues a act) := by
  cases act with
  | recordBin c | recordBucket c | advanceBin i
  | advanceBucket i => exact .quiet rfl rfl rfl (.inr rfl)
  | visit p =>
    unfold accStep
    dsimp only
    split
    iterate 2
      · refine .quiet rfl rfl rfl (.inl ?_)
        dsimp only [takeSnap]
        split
        · rfl
        · split <;> rfl
    all_goals first
      | exact .quiet rfl rfl rfl (.inl rfl)
      | exact .quiet rfl rfl rfl (.inr rfl)
  | flush | rangeDone cutoff =>
    unfold accStep
    dsimp only
    split <;> first
      | exact .quiet rfl rfl rfl (.inl rfl)
      | exact .quiet rfl rfl rfl (.inr rfl)
  | callback ok now lookup =>
    rcases hpc : a.pc with _ | (_ | ⟨sn, pc⟩) | (_ | ⟨sn, pc⟩) | ⟨_, _ | _⟩ | ⟨_, _ | _⟩
    all_goals simp only [accStep, hpc]
    case flushBins.some => exact flushBinsStep_seq h hpc ok now lookup
    case flushBuckets.some => exact flushBucketsStep_seq hpc ok now lookup
    all_goals
      refine .quiet rfl rfl (by cases ok <;> simp [enqueues, hpc]) ?_
      first | exact .inl rfl | exact .inr rfl

theorem accStep_outbox (h : AccInv a) (act : AccAction) :
    (accStep a act).outbox = a.outbox ++ (enqueues a act).toList := by
  cases accStep_seq_cases h act with
  | quiet hout _ henv _ | allocated _ hout _ henv _
  | enqueued e hout _ henv _ _ => simp [hout, henv]

theorem accStep_stationID (a : Accumulator) (act : AccAction) :
    (accStep a act).stationID = a.stationID := by
  cases act with
  | callback ok now lookup =>
    unfold accStep
    dsimp only
    split
    · rename_i sn pc _
      cases pc <;> simp only [flushBinsStep] <;> split <;> rfl
    · rename_i sn pc _
      cases pc <;> simp only [flushBucketsStep] <;> (try split) <;> rfl
    · rfl
    · rfl
    · rfl
  | flush | visit p | rangeDone cutoff => unfold accStep; dsimp only; split <;> rfl
  | _ => rfl

/-! ## 番号は増えていく -/

/-- outbox の番号は、取った番号の中にあり、同じ範囲では入れた順に増える。 -/
structure SeqInv (a : Accumulator) : Prop where
  bounded : ∀ e ∈ a.outbox, e.seq ≤ a.seqs e.scope
  ascending : a.outbox.Pairwise fun x y => x.scope = y.scope → x.seq < y.seq
  pending : ∀ {sc n}, a.pc.pendingSeq = some (sc, n) →
    n ≤ a.seqs sc ∧ ∀ e ∈ a.outbox, e.scope = sc → e.seq < n

theorem SeqInv.init (stationID : String) (seqs : DeltaScope → Nat) :
    SeqInv (newAccumulator stationID seqs) where
  bounded e he := by cases he
  ascending := List.Pairwise.nil
  pending h := by cases h

variable {a' : Accumulator} {env : Option Envelope}

theorem SeqInv.effect (hs : SeqInv a) (he : SeqEffect a a' env) : SeqInv a' := by
  cases he with
  | quiet hout hseqs _ hpc =>
    refine ⟨?_, ?_, ?_⟩
    · rw [hout, hseqs]; exact hs.bounded
    · rw [hout]; exact hs.ascending
    · intro sc n hp
      rw [hout, hseqs]
      rcases hpc with hnone | hsame
      · rw [hnone] at hp; cases hp
      · rw [hsame] at hp; exact hs.pending hp
  | allocated sc hout hseqs _ hpc =>
    have hle : ∀ sc', a.seqs sc' ≤ a'.seqs sc' := by
      intro sc'
      rw [hseqs]
      simp only [allocateInventoryDeltaSeq]
      split
      · rename_i heq; rw [heq]; omega
      · exact Nat.le_refl _
    refine ⟨?_, ?_, ?_⟩
    · rw [hout]
      exact fun e he => Nat.le_trans (hs.bounded e he) (hle _)
    · rw [hout]; exact hs.ascending
    · intro sc' n hp
      rw [hpc] at hp
      cases hp
      rw [hout, hseqs]
      refine ⟨by simp [allocateInventoryDeltaSeq], fun e he hsc => ?_⟩
      have := hs.bounded e he
      rw [hsc] at this
      omega
  | enqueued e hout hseqs _ hpend hpc =>
    obtain ⟨hle, hlt⟩ := hs.pending hpend
    refine ⟨?_, ?_, ?_⟩
    · intro x hx
      rw [hout] at hx
      rw [hseqs]
      rcases List.mem_append.mp hx with hx | hx
      · exact hs.bounded x hx
      · rw [List.mem_singleton.mp hx]; exact hle
    · rw [hout]
      refine List.pairwise_append.mpr ⟨hs.ascending, List.pairwise_singleton _ _, ?_⟩
      intro x hx y hy hsc
      rw [List.mem_singleton.mp hy] at hsc ⊢
      exact hlt x hx hsc
    · intro sc n hp
      rw [hpc] at hp
      cases hp

/-- **どの動作でも、番号は増えていく。** -/
theorem SeqInv.step (hs : SeqInv a) (h : AccInv a) (act : AccAction) : SeqInv (accStep a act) :=
  hs.effect (accStep_seq_cases h act)

/-! ## 再起動 -/

/-- edge の一回の起動。番号と outbox は database に残り、ほかは失われる。 -/
def accLife (a : Accumulator) (acts : List AccAction) : Accumulator :=
  let b := runSteps accStep (newAccumulator a.stationID a.seqs) acts
  { b with outbox := a.outbox ++ b.outbox }

theorem SeqEffect.after (old : List Envelope) (h : SeqEffect a a' env) :
    SeqEffect { a with outbox := old ++ a.outbox } { a' with outbox := old ++ a'.outbox } env := by
  cases h with
  | quiet hout hseqs henv hpc => exact .quiet (by rw [hout]) hseqs henv hpc
  | allocated sc hout hseqs henv hpc => exact .allocated sc (by rw [hout]) hseqs henv hpc
  | enqueued e hout hseqs henv hpend hpc =>
    exact .enqueued e (by rw [hout, List.append_assoc]) hseqs henv hpend hpc

theorem SeqInv.life (h : SeqInv a) (acts : List AccAction) : SeqInv (accLife a acts) := by
  -- 前の起動の outbox の後ろに、この起動の outbox が続く
  suffices hrun : ∀ b, AccInv b → SeqInv { b with outbox := a.outbox ++ b.outbox } →
      let b' := runSteps accStep b acts
      SeqInv { b' with outbox := a.outbox ++ b'.outbox } by
    refine hrun _ (.init ..) ⟨?_, ?_, fun hp => by cases hp⟩
    · rw [newAccumulator, List.append_nil]
      exact h.bounded
    · rw [newAccumulator, List.append_nil]
      exact h.ascending
  induction acts with
  | nil => exact fun _ _ hb => hb
  | cons act acts ih =>
    exact fun b hacc hb => ih _ (hacc.step act) (hb.effect ((accStep_seq_cases hacc act).after _))

/-- **edge が何度どこで落ちても、同じ範囲の番号は入れた順に増え、二度使われない。** -/
theorem outbox_seqs_ascend (stationID : String) (seqs : DeltaScope → Nat)
    (lives : List (List AccAction)) :
    (lives.foldl accLife (newAccumulator stationID seqs)).outbox.Pairwise
      fun x y => x.scope = y.scope → x.seq < y.seq :=
  (List.foldlRecOn lives _ (SeqInv.init stationID seqs) fun _ h acts _ => h.life acts).ascending

end Shingo.Edge
