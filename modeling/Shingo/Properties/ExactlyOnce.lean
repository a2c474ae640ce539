import Mathlib.Algebra.BigOperators.Group.Finset.Basic
import Shingo.Properties.Applier
import Shingo.Properties.DeltaSequence
import Shingo.Protocol.Pipeline

/-!
# 電文はちょうど一度だけ数えられるか

edge が入れた電文を、drainer が出し直しながら bus に出し、bus が何度でも届けるとき、
core は一つの電文を一度だけ数えるか。

core の重複よけは鍵ごとの最終番号だけなので、後の番号が先に届くと、
遅れて届いた前の番号は「適用済み」として飛ばされる。順に届くかぎりは、
どの電文もちょうど一度だけ数えられる。
-/

namespace Shingo.Protocol

open Infra Edge Core List Pipeline Option

/-! ## 届く電文の列 -/

def dedupKeyOf (station : String) : Envelope → DedupKey
  | .bin d => binDedupKey station d
  | .bucket _ d => bucketDedupKey station d

def Pipeline.msgs (w : Pipeline) : List (DedupKey × Nat) :=
  w.edge.outbox.map fun e => (dedupKeyOf w.edge.stationID e, e.seq)

variable {i : Nat}

variable {k : DedupKey} {env : Envelope} {w : Pipeline} {station : String}

theorem msgs_getElem? {e : Envelope} (h : w.edge.outbox[i]? = some e) :
    w.msgs[i]? = some (dedupKeyOf w.edge.stationID e, e.seq) := by
  simp [msgs, h]

/--
`i` 番を今届けると、同じ鍵の前の電文を追い越すか。前の電文のうち、
まだ一度も届いていないものがあることをいう。
-/
def Pipeline.overtakes (w : Pipeline) (i : Nat) : Bool :=
  (List.range i).any fun j =>
    decide (j ∉ w.delivered)
      && w.edge.outbox[j]?.map (dedupKeyOf w.edge.stationID)
        == w.edge.outbox[i]?.map (dedupKeyOf w.edge.stationID)

variable {s : Nat} {act : AccAction} {stationID : String} {seqs : DeltaScope → Nat}
  {core c : CoreInventory}

theorem mem_delivered_of_not_overtakes {j t : Nat} (h : w.overtakes i = false) (hj : j < i)
    (hi : w.msgs[i]? = some (k, s)) (hjm : w.msgs[j]? = some (k, t)) : j ∈ w.delivered := by
  by_contra hnot
  have hkey : ∀ {n r : Nat}, w.msgs[n]? = some (k, r) →
      w.edge.outbox[n]?.map (dedupKeyOf w.edge.stationID) = some k := by
    intro n r hn
    simp only [msgs, List.getElem?_map, map_eq_some_iff, Prod.mk.injEq] at hn
    obtain ⟨e, he, hke, -⟩ := hn
    rw [he, map_some, hke]
  have := any_eq_false.mp h j (mem_range.mpr hj)
  rw [hkey hi, hkey hjm] at this
  simp [hnot] at this

def Pipeline.kindAt (w : Pipeline) (i : Nat) : Option DeltaScopeKind :=
  w.edge.outbox[i]?.map fun e => e.scope.kind

/-- 種類 `kind` の電文は、同じ鍵の前の電文を追い越して届くことがない。 -/
def InOrder (kind : DeltaScopeKind) (w : Pipeline) : PipeAction → Prop
  | .deliver i => i ∉ w.delivered → w.kindAt i = some kind → w.overtakes i = false
  | _ => True

instance (kind : DeltaScopeKind) (w : Pipeline) (a : PipeAction) :
    Decidable (InOrder kind w a) :=
  match a with
  | .deliver _ => inferInstanceAs (Decidable (_ → _ → _))
  | .edge _ | .drain _ | .publishOne _ | .requeue _ => .isTrue trivial

theorem dedupKeyOf_kind (station : String) (e : Envelope) :
    (dedupKeyOf station e).kind = e.scope.kind := by
  cases e <;> rfl

theorem scope_eq_of_bin_key {x y : Envelope} (hx : x.scope.kind = .bin)
    (h : dedupKeyOf station x = dedupKeyOf station y) : x.scope = y.scope := by
  have hk := congrArg DedupKey.kind h
  cases x with
  | bucket k d => cases hx
  | bin d =>
    cases y with
    | bucket k d' => cases hk
    | bin d' =>
      simp only [dedupKeyOf, binDedupKey, DedupKey.mk.injEq] at h
      simp only [Envelope.scope, h.2.2.1, h.2.2.2]

/-! ## 一つの動作 -/

/-- **core と届いた電文の控えを動かすのは `deliver` だけ。** -/
inductive PipeEffect (w w' : Pipeline) : PipeAction → Prop where
  | edge (act : AccAction) (hedge : w'.edge = accStep w.edge act) (hcore : w'.core = w.core)
      (hdel : w'.deliveries = w.deliveries) : PipeEffect w w' (.edge act)
  | quiet (a : PipeAction) (hedge : w'.edge = w.edge) (hcore : w'.core = w.core)
      (hdel : w'.deliveries = w.deliveries) : PipeEffect w w' a
  | delivered (i : Nat) (env : Envelope) (henv : w.edge.outbox[i]? = some env)
      (hedge : w'.edge = w.edge)
      (hcore : w'.core = (applyEnvelope w.core w.edge.stationID env).1)
      (hdel : w'.deliveries
        = w.deliveries ++ [(i, (applyEnvelope w.core w.edge.stationID env).2)]) :
      PipeEffect w w' (.deliver i)

theorem pipeStep_cases (w : Pipeline) (a : PipeAction) : PipeEffect w (pipeStep w a) a := by
  cases a with
  | edge act => exact .edge act rfl rfl rfl
  | drain limit =>
    unfold pipeStep
    dsimp only
    split
    · exact .quiet _ rfl rfl rfl
    · exact .quiet _ rfl rfl rfl
  | publishOne o =>
    unfold pipeStep
    dsimp only
    split
    · exact .quiet _ rfl rfl rfl
    · exact .quiet _ rfl rfl rfl
  | requeue i => exact .quiet _ rfl rfl rfl
  | deliver i =>
    unfold pipeStep deliver
    dsimp only
    cases henv : w.edge.outbox[i]? with
    | none => exact .quiet _ rfl rfl rfl
    | some env =>
      dsimp only
      split
      · exact .delivered i env henv rfl rfl rfl
      · exact .quiet _ rfl rfl rfl

theorem applyEnvelope_dedup (c : CoreInventory) (station : String) (env : Envelope) :
    (applyEnvelope c station env).1.dedup = c.dedup
      ∨ ¬ c.dedup.Covers (dedupKeyOf station env) env.seq
        ∧ (applyEnvelope c station env).1.dedup
          = (c.dedup.claim (dedupKeyOf station env) env.seq).1 := by
  cases env with
  | bin d =>
    rcases applyBinUOPDelta_cases c station d with ⟨c', e, he, hr⟩ | ⟨c', bin, he, -, ha⟩
    · left
      simp only [applyEnvelope, he, hr.dedup]
    · right
      simp only [applyEnvelope, he]
      exact ⟨ha.fresh, ha.dedup⟩
  | bucket k d => exact applyLinesideBucketDelta_dedup c station d

/-! ## 届いていない電文は覆われていない -/

/-- 種類 `kind` の電文では、core の鍵が同じなら edge の範囲も同じ。 -/
def KeysAgree (kind : DeltaScopeKind) (station : String) (outbox : List Envelope) : Prop :=
  outbox.Pairwise fun x y =>
    dedupKeyOf station x = dedupKeyOf station y → x.scope.kind = kind → x.scope = y.scope

variable {kind : DeltaScopeKind}

theorem ascending_of_keysAgree (hs : SeqInv w.edge)
    (ha : KeysAgree kind w.edge.stationID w.edge.outbox) (hk : k.kind = kind) :
    Ascending w.msgs k := by
  unfold Ascending msgs
  rw [pairwise_map]
  refine (hs.ascending.and ha).imp ?_
  rintro x y ⟨hasc, hagree⟩ hx hy
  refine hasc (hagree (hx.trans hy.symm) ?_)
  rw [← dedupKeyOf_kind w.edge.stationID, ← hk, ← hx]

structure DeliveryInv (kind : DeltaScopeKind) (w : Pipeline) : Prop where
  acc : AccInv w.edge
  seqs : SeqInv w.edge
  inOutbox : ∀ i ∈ w.delivered, i < w.edge.outbox.length
  agree : KeysAgree kind w.edge.stationID w.edge.outbox
  unseen : ∀ k, k.kind = kind → k.station = w.edge.stationID →
    Unseen w.core.dedup w.msgs w.delivered k
  marked : ∀ k, k.kind = kind → k.station = w.edge.stationID →
    Marked w.core.dedup w.msgs w.delivered k
  closed : ∀ k, k.kind = kind → DownClosed w.msgs w.delivered k

/-- 新しく入る電文の鍵が前の電文と同じなら、edge の範囲も同じ。 -/
def ScopesAgree (kind : DeltaScopeKind) (w : Pipeline) (env : Envelope) : Prop :=
  ∀ x ∈ w.edge.outbox, dedupKeyOf w.edge.stationID x = dedupKeyOf w.edge.stationID env →
    x.scope.kind = kind → x.scope = env.scope

theorem scopesAgree_bin (w : Pipeline) (env : Envelope) : ScopesAgree .bin w env :=
  fun _ _ hkey hkind => scope_eq_of_bin_key hkind hkey

variable {w w' : Pipeline}

theorem DeliveryInv.of_same (h : DeliveryInv kind w) (hacc : AccInv w'.edge)
    (hseqs : SeqInv w'.edge) (hout : w'.edge.outbox = w.edge.outbox)
    (hst : w'.edge.stationID = w.edge.stationID) (hcore : w'.core = w.core)
    (hdeliv : w'.delivered = w.delivered) : DeliveryInv kind w' := by
  have hmsgs : w'.msgs = w.msgs := by unfold msgs; rw [hout, hst]
  refine ⟨hacc, hseqs, ?_, ?_, ?_, ?_, ?_⟩
  · rw [hdeliv, hout]; exact h.inOutbox
  · rw [hout, hst]; exact h.agree
  · rw [hcore, hmsgs, hdeliv, hst]; exact h.unseen
  · rw [hcore, hmsgs, hdeliv, hst]; exact h.marked
  · rw [hmsgs, hdeliv]; exact h.closed

theorem DeliveryInv.edgeStep (h : DeliveryInv kind w) (hedge : w'.edge = accStep w.edge act)
    (hcore : w'.core = w.core) (hdel : w'.deliveries = w.deliveries)
    (hagree : ∀ env, enqueues w.edge act = some env → ScopesAgree kind w env) :
    DeliveryInv kind w' := by
  have hst : w'.edge.stationID = w.edge.stationID := by rw [hedge, accStep_stationID]
  have hout : w'.edge.outbox = w.edge.outbox ++ (enqueues w.edge act).toList := by
    rw [hedge, accStep_outbox h.acc]
  have hacc : AccInv w'.edge := by rw [hedge]; exact h.acc.step act
  have hseqs : SeqInv w'.edge := by rw [hedge]; exact h.seqs.step h.acc act
  have hdeliv : w'.delivered = w.delivered := by unfold delivered; rw [hdel]
  cases henq : enqueues w.edge act with
  | none =>
    rw [henq, toList_none, append_nil] at hout
    exact h.of_same hacc hseqs hout hst hcore hdeliv
  | some env =>
    rw [henq, toList_some] at hout
    have hmsgs : w'.msgs = w.msgs ++ [(dedupKeyOf w.edge.stationID env, env.seq)] := by
      unfold msgs
      rw [hout, hst, map_append]
      rfl
    have hagr : KeysAgree kind w'.edge.stationID w'.edge.outbox := by
      rw [hout, hst]
      refine pairwise_append.mpr ⟨h.agree, pairwise_singleton _ _, ?_⟩
      intro x hx y hy
      rw [mem_singleton.mp hy]
      exact hagree env henq x hx
    have hmarked : ∀ k, k.kind = kind → k.station = w'.edge.stationID →
        Marked w'.core.dedup w'.msgs w'.delivered k := by
      intro k hk hks
      rw [hcore, hmsgs, hdeliv]
      exact (h.marked k hk (hks.trans hst)).append
    have hlt : ∀ i ∈ w.delivered, i < w.msgs.length := by
      intro i hi
      rw [msgs, length_map]
      exact h.inOutbox i hi
    refine ⟨hacc, hseqs, ?_, hagr, ?_, hmarked, ?_⟩
    · intro i hi
      rw [hdeliv] at hi
      have := h.inOutbox i hi
      rw [hout, length_append]
      omega
    · intro k hk hks
      have hasc := ascending_of_keysAgree hseqs hagr hk
      rw [hmsgs] at hasc
      rw [hcore, hmsgs, hdeliv]
      exact (h.unseen k hk (hks.trans hst)).append (h.marked k hk (hks.trans hst)) hasc
    · intro k hk
      rw [hmsgs, hdeliv]
      exact (h.closed k hk).append hlt

theorem delivered_append {r : Option ApplyError}
    (hdel : w'.deliveries = w.deliveries ++ [(i, r)]) : w'.delivered = w.delivered ++ [i] := by
  unfold delivered
  rw [hdel, map_append]
  rfl

/-- `i` 番の電文 `env` が届いた前後。 -/
structure Delivers (w w' : Pipeline) (i : Nat) (env : Envelope) : Prop where
  henv : w.edge.outbox[i]? = some env
  hedge : w'.edge = w.edge
  hcore : w'.core = (applyEnvelope w.core w.edge.stationID env).1
  hdel : w'.deliveries = w.deliveries ++ [(i, (applyEnvelope w.core w.edge.stationID env).2)]

theorem DeliveryInv.deliver (h : DeliveryInv kind w) (hd : Delivers w w' i env)
    (hord : InOrder kind w (.deliver i)) : DeliveryInv kind w' := by
  obtain ⟨henv, hedge, hcore, hdel⟩ := hd
  have hmsgs : w'.msgs = w.msgs := by unfold msgs; rw [hedge]
  have hdeliv := delivered_append hdel
  have hi := msgs_getElem? henv
  have hearlier : ∀ {k}, k.kind = kind → ∀ j s t, j < i → w.msgs[i]? = some (k, s) →
      w.msgs[j]? = some (k, t) → j ∈ w.delivered := by
    intro k hk j s t hji his hjt
    by_cases hmem : i ∈ w.delivered
    · exact h.closed k hk i hmem j s t hji his hjt
    · have hkind : w.kindAt i = some kind := by
        rw [hi, some.injEq, Prod.mk.injEq] at his
        rw [kindAt, henv, map_some, ← hk, ← his.1, dedupKeyOf_kind]
      exact mem_delivered_of_not_overtakes (hord hmem hkind) hji his hjt
  refine ⟨by rw [hedge]; exact h.acc, by rw [hedge]; exact h.seqs, ?_,
    by rw [hedge]; exact h.agree, ?_, ?_, ?_⟩
  · intro j hj
    rw [hdeliv] at hj
    rw [hedge]
    rcases mem_append_last.mp hj with hj | rfl
    · exact h.inOutbox j hj
    · exact (List.getElem?_eq_some_iff.mp henv).1
  · intro k hk hks
    rw [hedge] at hks
    rw [hmsgs, hdeliv, hcore]
    rcases applyEnvelope_dedup w.core w.edge.stationID env with hd | ⟨-, hd⟩
    · rw [hd]
      exact (h.unseen k hk hks).deliver i
    · rw [hd]
      refine (h.unseen k hk hks).claim (ascending_of_keysAgree h.seqs h.agree hk) hi ?_
      rintro rfl j t hj hjm
      exact hearlier hk j _ t hj hi hjm
  · intro k hk hks
    rw [hedge] at hks
    rw [hmsgs, hdeliv, hcore]
    rcases applyEnvelope_dedup w.core w.edge.stationID env with hd | ⟨hnew, hd⟩
    · rw [hd]
      exact (h.marked k hk hks).deliver i
    · rw [hd]
      exact (h.marked k hk hks).claim hi hnew
  · intro k hk
    rw [hmsgs, hdeliv]
    exact (h.closed k hk).deliver (hearlier hk)

/-- **順に届くかぎり、届いていない電文の番号は覆われていない。** -/
theorem DeliveryInv.step (h : DeliveryInv kind w) (a : PipeAction) (hord : InOrder kind w a)
    (hagree : ∀ act, a = .edge act → ∀ env, enqueues w.edge act = some env →
      ScopesAgree kind w env) : DeliveryInv kind (pipeStep w a) := by
  cases pipeStep_cases w a with
  | edge act hedge hcore hdel => exact h.edgeStep hedge hcore hdel (hagree act rfl)
  | quiet _ hedge hcore hdel =>
    refine h.of_same ?_ ?_ (by rw [hedge]) (by rw [hedge]) hcore (by unfold delivered; rw [hdel])
    · rw [hedge]; exact h.acc
    · rw [hedge]; exact h.seqs
  | delivered i env henv hedge hcore hdel => exact h.deliver ⟨henv, hedge, hcore, hdel⟩ hord

theorem DeliveryInv.start (hnew : ∀ k, k.station = stationID → core.dedup k = none) :
    DeliveryInv kind (start stationID seqs core) where
  acc := AccInv.init stationID seqs
  seqs := SeqInv.init stationID seqs
  inOutbox i hi := by cases hi
  agree := List.Pairwise.nil
  unseen k _ _ i s hi := by cases hi
  marked k _ hks last hl := by
    have := hnew k hks
    rw [show (Pipeline.start stationID seqs core).core = core from rfl, this] at hl
    cases hl
  closed k _ i hi := by cases hi

/-! ## bin の数 -/

def binDeltaOf (b : Int) : Envelope → Int
  | .bin d => if d.binID = b then d.delta else 0
  | .bucket _ _ => 0

variable (outbox : List Envelope)

def enqueuedSum (b : Int) : Int := (outbox.map (binDeltaOf b)).sum

def binDeltaAt (b : Int) (i : Nat) : Int :=
  (outbox[i]?.map (binDeltaOf b)).getD 0

theorem sum_binDeltaAt (b : Int) :
    ∑ i ∈ Finset.range outbox.length, binDeltaAt outbox b i = enqueuedSum outbox b := by
  induction outbox with
  | nil => rfl
  | cons e rest ih =>
    rw [length_cons, Finset.sum_range_succ']
    have hshift : ∀ i, binDeltaAt (e :: rest) b (i + 1) = binDeltaAt rest b i := fun _ => rfl
    simp only [hshift, ih]
    simp only [enqueuedSum, binDeltaAt, map_cons, sum_cons, List.getElem?_cons_zero,
      map_some, getD_some]
    omega

theorem binDeltaAt_append {outbox more : List Envelope} {b : Int}
    (h : i < outbox.length) : binDeltaAt (outbox ++ more) b i = binDeltaAt outbox b i := by
  rw [binDeltaAt, List.getElem?_append_left h]
  rfl

def Pipeline.AllBinsDelivered (w : Pipeline) : Prop :=
  ∀ i < w.edge.outbox.length, w.kindAt i = some .bin → i ∈ w.delivered

instance (w : Pipeline) : Decidable w.AllBinsDelivered :=
  inferInstanceAs (Decidable
    (∀ i < w.edge.outbox.length, w.kindAt i = some .bin → i ∈ w.delivered))

def Pipeline.refuses (w : Pipeline) (i : Nat) : Bool :=
  match w.edge.outbox[i]? with
  | some (.bin d) =>
    staleEpoch w.core d || (w.core.bins d.binID).any (payloadRefused d)
  | _ => false

def Pipeline.washesOut (w : Pipeline) (i : Nat) : Bool :=
  match w.edge.outbox[i]? with
  | some (.bin d) =>
    (w.core.bins d.binID).any fun bin =>
      clears w.core d bin && decide (bin.uopRemaining + d.delta < 0)
  | _ => false

/-- 初めて届く電文は断られず、負の残りを消しもしない。 -/
def Counted (w : Pipeline) : PipeAction → Prop
  | .deliver i => i ∉ w.delivered → w.refuses i = false ∧ w.washesOut i = false
  | _ => True

instance (w : Pipeline) (a : PipeAction) : Decidable (Counted w a) :=
  match a with
  | .deliver _ => inferInstanceAs (Decidable (_ → _ ∧ _))
  | .edge _ | .drain _ | .publishOne _ | .requeue _ => .isTrue trivial

structure NewStation (stationID : String) (core : CoreInventory) : Prop where
  named : stationID ≠ ""
  binIDs : ∀ b, (core.bins b).isSome → 0 < b
  unknown : ∀ k, k.station = stationID → core.dedup k = none

structure ExactInv (b u₀ : Int) (w : Pipeline) : Prop where
  named : w.edge.stationID ≠ ""
  delivery : DeliveryInv .bin w
  settled : ∀ {i d}, w.edge.outbox[i]? = some (.bin d) → d.binID = b → i ∈ w.delivered →
    w.core.dedup.Covers (binDedupKey w.edge.stationID d) d.sequenceID
  once : ∀ {i d}, w.edge.outbox[i]? = some (.bin d) → d.binID = b →
    w.deliveries.count (i, none) = if i ∈ w.delivered then 1 else 0
  uop : w.core.uop b
    = some (u₀ + ∑ i ∈ w.delivered.toFinset, binDeltaAt w.edge.outbox b i)

variable {b u₀ : Int}

theorem ExactInv.start (h : NewStation stationID core) (hu : core.uop b = some u₀) :
    ExactInv b u₀ (start stationID seqs core) where
  named := h.named
  delivery := DeliveryInv.start h.unknown
  settled hi := by cases hi
  once hi := by cases hi
  uop := by simpa [Pipeline.start, Pipeline.delivered] using hu

theorem sum_toFinset_append (l : List Nat) (i : Nat) (f : Nat → Int) :
    ∑ j ∈ (l ++ [i]).toFinset, f j = (∑ j ∈ l.toFinset, f j) + if i ∈ l then 0 else f i := by
  have hins : (l ++ [i]).toFinset = insert i l.toFinset := by
    ext j
    simp
  rw [hins]
  by_cases hi : i ∈ l
  · rw [Finset.insert_eq_of_mem (mem_toFinset.mpr hi), if_pos hi, add_zero]
  · rw [Finset.sum_insert (fun h => hi (mem_toFinset.mp h)), if_neg hi, add_comm]

theorem ExactInv.edgeStep (h : ExactInv b u₀ w) (hedge : w'.edge = accStep w.edge act)
    (hcore : w'.core = w.core) (hdel : w'.deliveries = w.deliveries) : ExactInv b u₀ w' := by
  have hst : w'.edge.stationID = w.edge.stationID := by rw [hedge, accStep_stationID]
  have hout : w'.edge.outbox = w.edge.outbox ++ (enqueues w.edge act).toList := by
    rw [hedge, accStep_outbox h.delivery.acc]
  have hdeliv : w'.delivered = w.delivered := by unfold delivered; rw [hdel]
  -- 新しい電文は、まだ届いていない
  have hold : ∀ {i e}, w'.edge.outbox[i]? = some e → i ∈ w.delivered →
      w.edge.outbox[i]? = some e := by
    intro i e hi hmem
    rwa [hout, List.getElem?_append_left (h.delivery.inOutbox i hmem)] at hi
  refine ⟨by rw [hst]; exact h.named,
    h.delivery.edgeStep hedge hcore hdel fun env _ => scopesAgree_bin w env, ?_, ?_, ?_⟩
  · intro i d hi hb hmem
    rw [hdeliv] at hmem
    rw [hcore, hst]
    exact h.settled (hold hi hmem) hb hmem
  · intro i d hi hb
    rw [hdel, hdeliv]
    by_cases hmem : i ∈ w.delivered
    · exact h.once (hold hi hmem) hb
    · rw [if_neg hmem]
      exact count_eq_zero.mpr fun hc => hmem (mem_map.mpr ⟨_, hc, rfl⟩)
  · rw [hcore, hdeliv, h.uop, hout]
    refine congrArg some (congrArg (u₀ + ·) (Finset.sum_congr rfl fun i hi => ?_))
    exact (binDeltaAt_append (h.delivery.inOutbox i (mem_toFinset.mp hi))).symm

theorem applyEnvelope_covers (env : Envelope) (h : c.dedup.Covers k s) :
    (applyEnvelope c station env).1.dedup.Covers k s := by
  rcases applyEnvelope_dedup c station env with hd | ⟨-, hd⟩
  · rw [hd]; exact h
  · rw [hd]; exact Watermark.covers_claim_iff.mpr (Or.inl h)

theorem applyEnvelope_uop_other (h : ∀ d, env = .bin d → d.binID ≠ b) :
    (applyEnvelope c station env).1.uop b = c.uop b := by
  cases env with
  | bucket k d =>
    have := applyLinesideBucketDelta_bins c station d
    unfold CoreInventory.uop
    rw [applyEnvelope, this]
  | bin d =>
    rcases applyBinUOPDelta_cases c station d with ⟨c', e, he, hr⟩ | ⟨c', bin, he, -, ha⟩
    · rw [applyEnvelope, he]; exact hr.uop b
    · rw [applyEnvelope, he]; exact ha.others b (h d rfl).symm

section

variable (h : ExactInv b u₀ w)
include h

theorem ExactInv.deliver_frame (hd : Delivers w w' i env)
    (hord : InOrder .bin w (.deliver i)) (hown : ∀ d, env = .bin d → d.binID = b →
      w'.core.dedup.Covers (binDedupKey w.edge.stationID d) d.sequenceID
        ∧ w'.deliveries.count (i, none) = 1) (huop : w'.core.uop b
      = some (u₀ + ∑ j ∈ w'.delivered.toFinset, binDeltaAt w.edge.outbox b j)) :
    ExactInv b u₀ w' := by
  have ⟨henv, hedge, hcore, hdel⟩ := hd
  have hdeliv := delivered_append hdel
  refine ⟨by rw [hedge]; exact h.named, h.delivery.deliver hd hord, ?_, ?_, ?_⟩
  · intro j d hj hb hmem
    rw [hedge] at hj ⊢
    rw [hdeliv] at hmem
    by_cases hji : j = i
    · subst hji
      rw [henv] at hj
      exact (hown d (some.inj hj) hb).1
    · have hmem' : j ∈ w.delivered := by simpa [hji] using hmem
      rw [hcore]
      exact applyEnvelope_covers env (h.settled hj hb hmem')
  · intro j d hj hb
    rw [hedge] at hj
    by_cases hji : j = i
    · subst hji
      rw [henv] at hj
      rw [(hown d (some.inj hj) hb).2, hdeliv, if_pos (by simp)]
    · have hcount := h.once hj hb
      rw [hdel, count_append, hcount, hdeliv]
      simp [hji, Ne.symm hji]
  · rw [hedge]; exact huop

variable {d : BinUOPDelta}

theorem ExactInv.deliverAgain (hd : Delivers w w' i (.bin d)) (hb : d.binID = b)
    (hmem : i ∈ w.delivered) (hord : InOrder .bin w (.deliver i)) : ExactInv b u₀ w' := by
  have ⟨henv, _, hcore, hdel⟩ := hd
  have hcov := h.settled henv hb hmem
  rcases applyBinUOPDelta_cases w.core w.edge.stationID d with
    ⟨c', e, he, hr⟩ | ⟨c', bin, -, -, ha⟩
  · refine h.deliver_frame hd hord ?_ ?_
    · rintro d' hd' -
      cases hd'
      refine ⟨by rw [hcore]; exact applyEnvelope_covers _ hcov, ?_⟩
      have hcount := h.once henv hb
      rw [if_pos hmem] at hcount
      rw [hdel, count_append, hcount, applyEnvelope, he]
      simp
    · rw [delivered_append hdel, sum_toFinset_append, if_pos hmem, add_zero, ← h.uop, hcore,
        applyEnvelope, he]
      exact hr.uop b
  · exact absurd hcov ha.fresh

/-- **初めて届いた bin `b` の電文は、追い越していなければ足される。** -/
theorem ExactInv.deliverFirst (hpos : 0 < b) (hd : Delivers w w' i (.bin d)) (hb : d.binID = b)
    (hmem : i ∉ w.delivered) (hord : InOrder .bin w (.deliver i))
    (hcounted : Counted w (.deliver i)) : ExactInv b u₀ w' := by
  have ⟨henv, _, hcore, hdel⟩ := hd
  have hnew : ¬ w.core.dedup.Covers (binDedupKey w.edge.stationID d) d.sequenceID := fun hc =>
    hmem (h.delivery.unseen _ rfl rfl i _ (msgs_getElem? henv) hc)
  obtain ⟨bin, hbin, hval⟩ := map_eq_some_iff.mp h.uop
  rw [← hb] at hbin
  obtain ⟨hrefuse, hwash⟩ := hcounted hmem
  simp only [refuses, henv, hbin, any_some, Bool.or_eq_false_iff] at hrefuse
  simp only [washesOut, henv, hbin, any_some, Bool.and_eq_false_iff,
    decide_eq_false_iff_not, Int.not_lt] at hwash
  have hnone : (applyBinUOPDelta w.core w.edge.stationID d).2 = none := by
    rw [applyBinUOPDelta_of_new h.named (by omega) hbin hrefuse.1 hnew, hrefuse.2]
    rfl
  rcases applyBinUOPDelta_cases w.core w.edge.stationID d with
    ⟨c', e, he, -⟩ | ⟨c', bin', he, hbin', ha⟩
  · rw [he] at hnone
    cases hnone
  · rw [hbin] at hbin'
    cases hbin'
    refine h.deliver_frame hd hord ?_ ?_
    · rintro d' hd' -
      cases hd'
      constructor
      · rw [hcore, applyEnvelope, he, ha.dedup]
        exact Watermark.covers_claim_iff.mpr (Or.inr ⟨rfl, Nat.le_refl _⟩)
      · have hcount := h.once henv hb
        rw [if_neg hmem] at hcount
        rw [hdel, count_append, hcount, applyEnvelope, he]
        simp
    · have hdeliv := delivered_append hdel
      have hdelta : binDeltaAt w.edge.outbox b i = d.delta := by
        rw [binDeltaAt, henv, map_some, getD_some, binDeltaOf, if_pos hb]
      -- manifest が消されたのなら、残りはちょうど 0 だった
      have hsum : (if clears w.core d bin then 0 else bin.uopRemaining + d.delta)
          = bin.uopRemaining + d.delta := by
        split
        · rename_i hcl
          have hle := hcl
          simp only [clears, Bool.and_eq_true, decide_eq_true_eq] at hle
          rcases hwash with hno | hge
          · rw [hcl] at hno; cases hno
          · omega
        · rfl
      have hu := ha.uop
      rw [hb, hsum] at hu
      rw [hdeliv, sum_toFinset_append, if_neg hmem, hdelta, hcore, applyEnvelope, he, hu, hval]
      exact congrArg some (by omega)

/-- **追い越しの無い一歩は、ちょうど一度だけ数えることを保つ。** -/
theorem ExactInv.step (hpos : 0 < b) (a : PipeAction) (hcounted : Counted w a)
    (hord : InOrder .bin w a) : ExactInv b u₀ (pipeStep w a) := by
  have hdelivery : DeliveryInv .bin (pipeStep w a) :=
    h.delivery.step a hord fun _ _ env _ => scopesAgree_bin w env
  cases pipeStep_cases w a with
  | edge act hedge hcore hdel => exact h.edgeStep hedge hcore hdel
  | quiet _ hedge hcore hdel =>
    have hdeliv : (pipeStep w a).delivered = w.delivered := by
      unfold delivered; rw [hdel]
    refine ⟨by rw [hedge]; exact h.named, hdelivery, ?_, ?_, ?_⟩
    · rw [hedge, hcore, hdeliv]; exact h.settled
    · rw [hedge, hdel, hdeliv]; exact h.once
    · rw [hedge, hcore, hdeliv]; exact h.uop
  | delivered i env henv hedge hcore hdel =>
    have hd : Delivers w (pipeStep w (.deliver i)) i env := ⟨henv, hedge, hcore, hdel⟩
    by_cases hown : ∃ d, env = .bin d ∧ d.binID = b
    · obtain ⟨d, rfl, hb⟩ := hown
      by_cases hmem : i ∈ w.delivered
      · exact h.deliverAgain hd hb hmem hord
      · exact h.deliverFirst hpos hd hb hmem hord hcounted
    · have hother : ∀ d, env = .bin d → d.binID ≠ b := fun d hd hb => hown ⟨d, hd, hb⟩
      refine h.deliver_frame hd hord (fun d hd hb => absurd hb (hother d hd)) ?_
      have hzero : binDeltaAt w.edge.outbox b i = 0 := by
        rw [binDeltaAt, henv, map_some, getD_some]
        cases env with
        | bucket k d => rfl
        | bin d => exact if_neg (hother d rfl)
      have hdeliv : (pipeStep w (.deliver i)).delivered = w.delivered ++ [i] := by
        simp [delivered, hdel]
      rw [hcore, applyEnvelope_uop_other hother, hdeliv, sum_toFinset_append, hzero, ite_self,
        add_zero]
      exact h.uop

end

/-- **追い越しの無い実行では、どの電文もちょうど一度だけ数えられる。** -/
theorem bin_delta_exactly_once (stationID : String) (seqs : DeltaScope → Nat)
    (core : CoreInventory) (acts : List PipeAction) (hnew : NewStation stationID core)
    (hok : AllSteps pipeStep (fun w a => Counted w a ∧ InOrder .bin w a)
      (start stationID seqs core) acts) :
    ∀ w ∈ visited pipeStep (start stationID seqs core) acts, w.AllBinsDelivered →
      ∀ b u₀, core.uop b = some u₀ →
        w.core.uop b = some (u₀ + enqueuedSum w.edge.outbox b)
          ∧ ∀ i d, w.edge.outbox[i]? = some (.bin d) → d.binID = b →
            w.deliveries.count (i, none) = 1 := by
  intro w hw hall b u₀ hu
  have hpos : 0 < b := by
    obtain ⟨bin, hbin, -⟩ := map_eq_some_iff.mp hu
    exact hnew.binIDs b (by rw [hbin]; rfl)
  have hinv : ExactInv b u₀ w := AllSteps.visited_of_inv
    (fun w a h hok => h.step hpos a hok.1 hok.2) (ExactInv.start hnew hu) hok w hw
  have hin : ∀ i d, w.edge.outbox[i]? = some (.bin d) → i ∈ w.delivered := by
    intro i d hi
    exact hall i (List.getElem?_eq_some_iff.mp hi).1 (by rw [kindAt, hi]; rfl)
  refine ⟨?_, fun i d hi hb => by rw [hinv.once hi hb, if_pos (hin i d hi)]⟩
  -- 届いていない電文は bucket のものだけなので、足しても変わらない
  rw [hinv.uop, ← sum_binDeltaAt]
  refine congrArg some (congrArg (u₀ + ·) (Finset.sum_subset ?_ ?_))
  · intro i hi
    exact Finset.mem_range.mpr (hinv.delivery.inOutbox i (mem_toFinset.mp hi))
  · intro i hi hnot
    have hlt := Finset.mem_range.mp hi
    rw [binDeltaAt, List.getElem?_eq_getElem hlt, map_some, getD_some]
    cases henv : w.edge.outbox[i] with
    | bucket k d => rfl
    | bin d =>
      exact absurd (mem_toFinset.mpr
        (hin i d (by rw [List.getElem?_eq_getElem hlt, henv]))) hnot

/-! ## 追い越された電文 -/

def coreWithBin7 : CoreInventory where
  bins b := if b = 7 then some ⟨"P", 100, 1, false, "N1"⟩ else none
  buckets _ := none
  nodes n := n == "N1"
  dedup _ := none
  ledger := []
  exceptions := []
  announced := []
  announceWired := true
  repaired _ := 0
  binManifest := some ⟨true⟩
  droppedStaleEpoch := 0
  droppedPayloadMismatch := 0

theorem coreWithBin7_newStation : NewStation "ST1" coreWithBin7 where
  named := by decide
  binIDs b hb := by
    by_cases h : b = 7
    · omega
    · simp [coreWithBin7, h] at hb
  unknown _ _ := rfl

def recordAndFlush (delta : Int) (call now : Nat) : List PipeAction :=
  ([.recordBin ⟨7, "P", delta, .consumeTick, 1, now⟩, .advanceBin call, .advanceBin call,
    .flush, .visit 0, .callback true now none, .callback true now none, .callback true now none,
    .callback true now none, .rangeDone 0, .rangeDone 0, .rangeDone 0, .rangeDone 0] :
    List AccAction).map PipeAction.edge

def deliveredInOrder : List PipeAction :=
  recordAndFlush (-3) 0 10 ++ recordAndFlush (-4) 1 20
    ++ [.drain 50, .publishOne .acked, .publishOne .ackLost, .deliver 0, .deliver 1,
      .drain 50, .publishOne .acked, .deliver 1]

theorem bin_delta_exactly_once_in_order :
    (runSteps pipeStep (start "ST1" (fun _ => 0) coreWithBin7)
      deliveredInOrder).core.uop 7 = some 93 :=
  (bin_delta_exactly_once "ST1" (fun _ => 0) coreWithBin7 deliveredInOrder
    coreWithBin7_newStation (by decide) _ (mem_visited_runSteps _ _) (by decide) 7 100 rfl).1

def deliveredOvertaken : List PipeAction :=
  recordAndFlush (-3) 0 10 ++ recordAndFlush (-4) 1 20
    ++ [.drain 50, .publishOne (.failed false), .publishOne .acked, .deliver 1,
      .drain 50, .publishOne .acked, .deliver 0]

/--
**追い越された電文は数えられない。**

一つ目の電文は断られたのではなく「適用済み」として飛ばされ、3 個の消費が消える。
-/
theorem bin_delta_overtaken :
    AllSteps pipeStep Counted (start "ST1" (fun _ => 0) coreWithBin7) deliveredOvertaken
      ∧ (runSteps pipeStep (start "ST1" (fun _ => 0) coreWithBin7)
          deliveredOvertaken).AllBinsDelivered
      ∧ ¬ ((runSteps pipeStep (start "ST1" (fun _ => 0) coreWithBin7)
            deliveredOvertaken).core.uop 7
          = some (100 + enqueuedSum (runSteps pipeStep
              (start "ST1" (fun _ => 0) coreWithBin7) deliveredOvertaken).edge.outbox 7))
      ∧ (runSteps pipeStep (start "ST1" (fun _ => 0) coreWithBin7)
          deliveredOvertaken).deliveries = [(1, none), (0, some .skipped)] := by
  refine ⟨by decide, by decide, by decide, by decide⟩

/-! ## 二度は数えない -/

/-- error の無い適用は、覆われていない番号を覆う。 -/
theorem applyEnvelope_ok (h : (applyEnvelope c station env).2 = none) :
    ¬ c.dedup.Covers (dedupKeyOf station env) env.seq
      ∧ (applyEnvelope c station env).1.dedup.Covers (dedupKeyOf station env) env.seq := by
  cases env with
  | bin d =>
    rcases applyBinUOPDelta_cases c station d with ⟨c', e, he, -⟩ | ⟨c', bin, he, -, ha⟩
    · rw [applyEnvelope, he] at h
      cases h
    · rw [applyEnvelope, he, ha.dedup]
      exact ⟨ha.fresh, Watermark.covers_claim_iff.mpr (.inr ⟨rfl, Nat.le_refl _⟩)⟩
  | bucket k d =>
    rcases applyLinesideBucketDelta_cases c station d with ⟨e, he, -⟩ | ⟨c', row, he, ha⟩
    · rw [applyEnvelope, he] at h
      cases h
    · rw [applyEnvelope, he, ha.state]
      exact ⟨ha.fresh, _, Watermark.set_self .., Nat.le_refl _⟩

structure OnceInv (w : Pipeline) : Prop where
  acc : AccInv w.edge
  covered : ∀ i, (i, none) ∈ w.deliveries → ∃ env, w.edge.outbox[i]? = some env
    ∧ w.core.dedup.Covers (dedupKeyOf w.edge.stationID env) env.seq
  once : ∀ i, w.deliveries.count (i, none) ≤ 1

theorem OnceInv.step (h : OnceInv w) (a : PipeAction) : OnceInv (pipeStep w a) := by
  cases pipeStep_cases w a with
  | edge act hedge hcore hdel =>
    refine ⟨by rw [hedge]; exact h.acc.step act, fun i hi => ?_, by rw [hdel]; exact h.once⟩
    rw [hdel] at hi
    obtain ⟨env, henv, hcov⟩ := h.covered i hi
    rw [hedge, hcore, accStep_stationID, accStep_outbox h.acc,
      List.getElem?_append_left (List.getElem?_eq_some_iff.mp henv).1]
    exact ⟨env, henv, hcov⟩
  | quiet _ hedge hcore hdel =>
    refine ⟨by rw [hedge]; exact h.acc, ?_, by rw [hdel]; exact h.once⟩
    rw [hdel, hedge, hcore]
    exact h.covered
  | delivered i env henv hedge hcore hdel =>
    refine ⟨by rw [hedge]; exact h.acc, fun j hj => ?_, fun j => ?_⟩
    · rw [hdel] at hj
      rw [hedge, hcore]
      rcases mem_append_last.mp hj with hj | hj
      · obtain ⟨e, he, hcov⟩ := h.covered j hj
        exact ⟨e, he, applyEnvelope_covers env hcov⟩
      · obtain ⟨rfl, hok⟩ := Prod.mk.inj hj
        exact ⟨env, henv, (applyEnvelope_ok hok.symm).2⟩
    rw [hdel, count_append]
    by_cases hj : (j, none) ∈ [(i, (applyEnvelope w.core w.edge.stationID env).2)]
    · -- 今数えたのなら、前には数えていない
      obtain ⟨rfl, hok⟩ := Prod.mk.inj (mem_singleton.mp hj)
      have hnew : (j, none) ∉ w.deliveries := by
        intro hmem
        obtain ⟨e, he, hcov⟩ := h.covered j hmem
        cases henv.symm.trans he
        exact (applyEnvelope_ok hok.symm).1 hcov
      rw [count_eq_zero.mpr hnew, Nat.zero_add]
      exact count_le_length
    · rw [count_eq_zero.mpr hj]
      exact h.once j

/-- **どの順に何度届いても、どの電文も二度は数えられない。** -/
theorem delta_at_most_once (stationID : String) (seqs : DeltaScope → Nat) (core : CoreInventory)
    (acts : List PipeAction) (i : Nat) :
    (runSteps pipeStep (start stationID seqs core) acts).deliveries.count (i, none) ≤ 1 :=
  (foldlRecOn acts _ (⟨.init .., (fun _ h => by cases h), fun _ => Nat.zero_le _⟩ :
    OnceInv (start stationID seqs core)) fun _ h a _ => h.step a).once i

end Shingo.Protocol
