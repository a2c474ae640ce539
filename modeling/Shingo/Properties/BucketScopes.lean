import Shingo.Properties.ExactlyOnce

/-!
# lineside bucket の番号の範囲

edge は node id で範囲を分けて番号を取り、core は node 名で重複をよける。
同じ node 名の下で二つの node id が番号を取ると、二つ目の番号は 1 からやり直しになり、
core はそれを「適用済み」として飛ばす。
-/

namespace Shingo.Protocol

open Infra Edge Core List Pipeline

/-- 初めて届いた bucket の電文は、重複として飛ばされていない。 -/
def Pipeline.FirstsAccepted (w : Pipeline) : Prop :=
  ∀ n i r, w.deliveries[n]? = some (i, r) → i ∉ (w.deliveries.take n).map Prod.fst →
    w.kindAt i = some .bucket → r ≠ some .skipped

/-- 入れる bucket の電文は、core の鍵が同じ前の電文と、edge の範囲も同じ。 -/
def OneEdgeScope (w : Pipeline) : PipeAction → Prop
  | .edge act => ∀ env ∈ enqueues w.edge act, ScopesAgree .bucket w env
  | _ => True

instance (kind : DeltaScopeKind) (w : Pipeline) (env : Envelope) :
    Decidable (ScopesAgree kind w env) :=
  inferInstanceAs (Decidable (∀ _ ∈ _, _ → _ → _))

instance (w : Pipeline) (a : PipeAction) : Decidable (OneEdgeScope w a) :=
  match a with
  | .edge _ => inferInstanceAs (Decidable (∀ _ ∈ _, _))
  | .deliver _ | .drain _ | .publishOne _ | .requeue _ => .isTrue trivial

variable {w w' : Pipeline} {i : Nat}

theorem kindAt_edgeStep {act : AccAction} (hacc : AccInv w.edge)
    (hedge : w'.edge = accStep w.edge act) (hi : i < w.edge.outbox.length) :
    w'.kindAt i = w.kindAt i := by
  unfold kindAt
  rw [hedge, accStep_outbox hacc, List.getElem?_append_left hi]

theorem FirstsAccepted.deliver (h : w.FirstsAccepted) (hinv : DeliveryInv .bucket w)
    {env : Envelope} (hd : Delivers w w' i env) : w'.FirstsAccepted := by
  obtain ⟨henv, hedge, -, hdel⟩ := hd
  intro n j r hn hfirst hkind
  have hkind' : w.kindAt j = some .bucket := by
    unfold kindAt at hkind ⊢
    rwa [hedge] at hkind
  rw [hdel] at hn hfirst
  by_cases hlt : n < w.deliveries.length
  · rw [List.getElem?_append_left hlt] at hn
    rw [take_append_of_le_length (Nat.le_of_lt hlt)] at hfirst
    exact h n j r hn hfirst hkind'
  · -- 今届いた電文。初めてなら、その番号は覆われていない
    have hle := Nat.not_lt.mp hlt
    rw [List.getElem?_append_right hle] at hn
    obtain ⟨hn0, hn⟩ := List.getElem?_eq_some_iff.mp hn
    simp only [length_singleton, Nat.lt_one_iff] at hn0
    simp only [hn0, getElem_cons_zero, Prod.mk.injEq] at hn
    obtain ⟨rfl, rfl⟩ := hn
    have hnl : n = w.deliveries.length := by omega
    rw [hnl, take_left] at hfirst
    intro hskip
    cases env with
    | bin d => rw [kindAt, henv] at hkind'; cases hkind'
    | bucket k d =>
      have hcov := applyLinesideBucketDelta_skipped hskip
      exact hfirst (hinv.unseen _ rfl rfl i _ (msgs_getElem? henv) hcov)

/-- **core の鍵ごとに edge の範囲が一つなら、初めて届いた電文は飛ばされない。** -/
theorem bucket_delta_accepted (stationID : String) (seqs : DeltaScope → Nat)
    (core : CoreInventory) (acts : List PipeAction)
    (hnew : ∀ k, k.station = stationID → core.dedup k = none)
    (hok : AllSteps pipeStep (fun w a => InOrder .bucket w a ∧ OneEdgeScope w a)
      (start stationID seqs core) acts) :
    ∀ w ∈ visited pipeStep (start stationID seqs core) acts,
      w.FirstsAccepted ∧ ∀ k, k.kind = .bucket → Ascending w.msgs k := by
  have hstep : ∀ w a, DeliveryInv .bucket w ∧ w.FirstsAccepted →
      InOrder .bucket w a ∧ OneEdgeScope w a →
      DeliveryInv .bucket (pipeStep w a) ∧ (pipeStep w a).FirstsAccepted := by
    rintro w a ⟨hinv, hfirst⟩ ⟨hord, hone⟩
    refine ⟨hinv.step a hord ?_, ?_⟩
    · rintro act rfl env henv
      exact hone env henv
    · cases pipeStep_cases w a with
      | edge act hedge hcore hdel =>
        intro n i r hn hf hkind
        have hi : i ∈ w.delivered := mem_map.mpr ⟨_, mem_of_getElem? hn, rfl⟩
        rw [kindAt_edgeStep hinv.acc hedge (hinv.inOutbox i hi)] at hkind
        exact hfirst n i r hn hf hkind
      | quiet _ hedge hcore hdel =>
        intro n i r hn hf hkind
        rw [hdel] at hn hf
        rw [kindAt, hedge] at hkind
        exact hfirst n i r hn hf hkind
      | delivered i env henv hedge hcore hdel =>
        exact FirstsAccepted.deliver hfirst hinv ⟨henv, hedge, hcore, hdel⟩
  have hstart : DeliveryInv .bucket (start stationID seqs core)
      ∧ (start stationID seqs core).FirstsAccepted :=
    ⟨DeliveryInv.start hnew, fun n i r hn => by cases hn⟩
  intro w hw
  obtain ⟨hinv, hfirst⟩ := AllSteps.visited_of_inv hstep hstart hok w hw
  exact ⟨hfirst, fun k hk => ascending_of_keysAgree hinv.seqs hinv.agree hk⟩

/-! ## 外して足し直した node -/

def captureAndFlush (nodeID : Int) (call p now : Nat) : List PipeAction :=
  ([.recordBucket ⟨nodeID, "N1", "", 3, "X", "P", 5, .captureFill, now⟩, .advanceBucket call,
    .advanceBucket call, .flush, .rangeDone 0, .visit p, .callback true now none,
    .callback true now none, .callback true now none, .callback true now none,
    .callback true now none, .rangeDone 0, .rangeDone 0, .rangeDone 0] :
    List AccAction).map PipeAction.edge

def sameNodeTwice : List PipeAction :=
  captureAndFlush 1 0 0 10 ++ [.drain 50, .publishOne .acked, .deliver 0]
    ++ captureAndFlush 1 1 0 20 ++ [.drain 50, .publishOne .acked, .deliver 1, .deliver 0]

theorem bucket_delta_accepted_one_node :
    (runSteps pipeStep (start "ST1" (fun _ => 0) coreWithBin7)
      sameNodeTwice).FirstsAccepted :=
  (bucket_delta_accepted "ST1" (fun _ => 0) coreWithBin7 sameNodeTwice (fun _ _ => rfl)
    (by decide) _ (mem_visited_runSteps _ _)).1

def readdedNode : List PipeAction :=
  captureAndFlush 1 0 0 10 ++ [.drain 50, .publishOne .acked, .deliver 0]
    ++ captureAndFlush 2 1 1 20 ++ [.drain 50, .publishOne .acked, .deliver 1]

/--
**足し直した node の最初の電文は、重複として飛ばされる。**

どの電文も一度だけ、入れた順に届いている。
-/
theorem bucket_delta_readded_node :
    AllSteps pipeStep (InOrder .bucket) (start "ST1" (fun _ => 0) coreWithBin7)
        readdedNode
      ∧ (runSteps pipeStep (start "ST1" (fun _ => 0) coreWithBin7)
          readdedNode).deliveries = [(0, none), (1, some .skipped)]
      ∧ ¬ (runSteps pipeStep (start "ST1" (fun _ => 0) coreWithBin7)
          readdedNode).FirstsAccepted := by
  refine ⟨by decide, by decide, fun h => ?_⟩
  exact h 1 1 (some .skipped) (by decide) (by decide) (by decide) rfl

end Shingo.Protocol
