import Shingo.Properties.LinesideTable

/-!
# edge と core の lineside bucket

一つの node の edge の表と core の `lineside_buckets` を、増減だけでつなぐ。
不変条件は一つで、鍵ごとに「edge の数 = core の数 + まだ渡していない増減」。
捕捉は style を書き換えて足すので、別の style の行に当たると、この等式は両方の鍵で破れる。
-/

namespace Shingo.Edge

open Infra Protocol Shingo.Core List LinesideWorld

/-! ## 鍵と窓 -/

def LinesideNode.scopeKey (node : LinesideNode) (k : BucketKey) : String :=
  Edge.bucketScopeKey node.nodeID k.pairKey k.styleID k.partNumber

def LinesideNode.dedupKey (node : LinesideNode) (k : BucketKey) : DedupKey :=
  ⟨node.stationID, .bucket,
    Core.bucketScopeKey k.coreNodeName k.pairKey k.styleID k.partNumber, 0⟩

def BucketInfo.coreKey (m : BucketInfo) : BucketKey where
  coreNodeName := m.coreNodeName
  pairKey := m.pairKey
  styleID := m.styleID
  partNumber := m.partNumber

structure NodeKey (node : LinesideNode) (k : BucketKey) : Prop where
  name : k.coreNodeName = node.coreNodeName
  pair : PlainPair k.pairKey

variable {k : BucketKey} {t : LinesideTable} {k' : BucketKey} {c : BucketCall} {key : String}
  {core : CoreInventory} {b : LinesideBucket} {w : LinesideWorld}

theorem NodeKey.eq_of_scopeKey {node : LinesideNode} (h : NodeKey node k) (h' : NodeKey node k')
    (heq : node.scopeKey k = node.scopeKey k') : k = k' := by
  obtain ⟨hp, hs, hq⟩ := scopeKey_inj h.pair h'.pair heq
  cases k
  cases k'
  simp only [BucketKey.mk.injEq]
  exact ⟨h.name.trans h'.name.symm, hp, hs, hq⟩

theorem NodeKey.eq_of_dedupKey {node : LinesideNode} (h : NodeKey node k) (h' : NodeKey node k')
    (heq : node.dedupKey k = node.dedupKey k') : k = k' := by
  have hkey := (DedupKey.mk.inj heq).2.2.1
  rw [h.name, h'.name] at hkey
  obtain ⟨hp, hs, hq⟩ := scopeKey_inj h.pair h'.pair hkey
  cases k
  cases k'
  simp only [BucketKey.mk.injEq]
  exact ⟨h.name.trans h'.name.symm, hp, hs, hq⟩

theorem coreKey_add (c : BucketCall) (e : Entry BucketInfo) :
    (bucketOps.add c e).info.coreKey = e.info.coreKey := by
  simp only [ScopeOps.add, bucketOps, BucketInfo.coreKey]
  split <;> split <;> rfl

namespace LinesideWorld

def pendingAt (node : LinesideNode) (w : LinesideWorld) (k : BucketKey) : Int :=
  ((w.pending (node.scopeKey k)).map Entry.delta).getD 0

@[simp] theorem setWindow_pending (w : LinesideWorld) (key k : String) (e : Entry BucketInfo) :
    (w.setWindow key e).pending k = if k = key then some e else w.pending k := rfl

theorem record_pending_of_ne (w : LinesideWorld) (h : key ≠ bucketOps.key c) :
    (w.record c).pending key = w.pending key := by
  unfold record
  split
  · rfl
  · rw [setWindow_pending, if_neg h]

theorem flushKey_pending_of_ne (node : LinesideNode) (w : LinesideWorld) {k : String} (h : k ≠ key)
    (now : Nat) : (w.flushKey node key now).pending k = w.pending k := by
  unfold flushKey
  split
  · rfl
  split
  · rfl
  · dsimp only
    rw [setWindow_pending, if_neg h]

def outstanding (node : LinesideNode) (w : LinesideWorld) (k : BucketKey) : Int :=
  w.core.bucketQty k + w.pendingAt node k

end LinesideWorld

structure WindowsInv (node : LinesideNode) (w : LinesideWorld) : Prop where
  windows : ∀ key e, w.pending key = some e →
    NodeKey node e.info.coreKey ∧ e.info.coreKey.partNumber ≠ ""
      ∧ node.scopeKey e.info.coreKey = key
  plain : ∀ k, k.coreNodeName = node.coreNodeName → ¬ PlainPair k.pairKey →
    w.core.buckets k = none
  positive : ∀ k r, k.coreNodeName = node.coreNodeName → w.core.buckets k = some r → 0 < r.qty
  marks : ∀ k, NodeKey node k → ∀ last, w.core.dedup (node.dedupKey k) = some last →
    last ≤ w.seqs ⟨.bucket, node.scopeKey k, 0⟩
  known : w.core.nodes node.coreNodeName = true

namespace WindowsInv

variable {node : LinesideNode}

theorem record (h : WindowsInv node w) (hc : CallOk node c) :
    WindowsInv node (w.record c)
      ∧ ∀ k, NodeKey node k →
        (w.record c).outstanding node k = w.outstanding node k + c.deltaAt k := by
  have hkey : bucketOps.key c = node.scopeKey c.coreKey := by
    show Edge.bucketScopeKey c.nodeID _ _ _ = _
    rw [hc.ofNode]
    rfl
  have hnode : NodeKey node c.coreKey := ⟨hc.name, hc.pair⟩
  have hignored : bucketOps.ignored c = false := by
    have hpos := node.nodeID_pos
    show (c.delta == 0 || (decide (c.nodeID ≤ 0) || c.partNumber == "")) = false
    rw [beq_false_of_ne hc.delta, decide_eq_false (by rw [hc.ofNode]; omega),
      beq_false_of_ne hc.part]
    rfl
  have heq : w.record c = w.setWindow (node.scopeKey c.coreKey)
      (bucketOps.add c ((w.pending (node.scopeKey c.coreKey)).getD (bucketOps.freshEntry c))) := by
    unfold LinesideWorld.record
    rw [hignored, if_neg (by decide), hkey]
  have hinfo : ((w.pending (node.scopeKey c.coreKey)).getD (bucketOps.freshEntry c)).info.coreKey
      = c.coreKey := by
    cases hp : w.pending (node.scopeKey c.coreKey) with
    | none => rfl
    | some e =>
      obtain ⟨hn, -, hk⟩ := h.windows _ e hp
      exact hn.eq_of_scopeKey hnode hk
  rw [heq]
  refine ⟨⟨?_, h.plain, h.positive, h.marks, h.known⟩, ?_⟩
  · intro key e he
    by_cases hk : key = node.scopeKey c.coreKey
    · have hadd := coreKey_add c
        ((w.pending (node.scopeKey c.coreKey)).getD (bucketOps.freshEntry c))
      rw [setWindow_pending, if_pos hk, Option.some.injEq] at he
      rw [he, hinfo] at hadd
      rw [hadd]
      exact ⟨hnode, hc.part, hk.symm⟩
    · rw [setWindow_pending, if_neg hk] at he
      exact h.windows key e he
  · intro k hkn
    unfold outstanding pendingAt BucketCall.deltaAt
    rw [setWindow_pending]
    by_cases hk : c.coreKey = k
    · subst hk
      rw [if_pos rfl, if_pos rfl]
      cases w.pending (node.scopeKey c.coreKey) with
      | none | some e => exact (Int.add_assoc _ _ _).symm
    · have hne : node.scopeKey k ≠ node.scopeKey c.coreKey := fun hs =>
        hk (hnode.eq_of_scopeKey hkn hs.symm)
      rw [if_neg hne, if_neg hk, Int.add_zero]
      rfl

theorem records (cs : List BucketCall) : ∀ {w : LinesideWorld}, WindowsInv node w →
    (∀ c ∈ cs, CallOk node c) →
    WindowsInv node (cs.foldl LinesideWorld.record w)
      ∧ ∀ k, NodeKey node k → (cs.foldl LinesideWorld.record w).outstanding node k
        = w.outstanding node k + total (BucketCall.deltaAt k) cs := by
  induction cs with
  | nil =>
    intro w h _
    exact ⟨h, fun k _ => (Int.add_zero _).symm⟩
  | cons c cs ih =>
    intro w h hcs
    obtain ⟨h', hout⟩ := h.record (hcs c mem_cons_self)
    obtain ⟨h'', hrest⟩ := ih h' fun x hx => hcs x (mem_cons_of_mem _ hx)
    refine ⟨h'', fun k hk => ?_⟩
    rw [foldl_cons, hrest k hk, hout k hk, total_cons, Int.add_assoc]

theorem sent (h : WindowsInv node w) {e : Entry BucketInfo} (he : w.pending key = some e)
    {row : Option Bucket} (hcore : core = { w.core with
      dedup := w.core.dedup.set (node.dedupKey e.info.coreKey) (w.seqs ⟨.bucket, key, 0⟩ + 1)
      buckets := fun k => if k = e.info.coreKey then row else w.core.buckets k })
    (hsum : (row.map Bucket.qty).getD 0 = w.core.bucketQty e.info.coreKey + e.delta)
    (hpos : ∀ r, row = some r → 0 < r.qty) (now : Nat) {w' : LinesideWorld}
    (hw : w' = { w.setWindow key (bucketOps.commit e now e) with
      seqs := (allocateInventoryDeltaSeq w.seqs ⟨.bucket, key, 0⟩).1
      core }) :
    WindowsInv node w' ∧ ∀ k, NodeKey node k → w'.outstanding node k = w.outstanding node k := by
  obtain ⟨hkn, hpart, hscope⟩ := h.windows key e he
  have hinfo : (bucketOps.commit e now e).info.coreKey = e.info.coreKey := by
    simp only [ScopeOps.commit, ScopeOps.subtract, bucketOps, BucketInfo.coreKey]
    split <;> rfl
  have hzero : (bucketOps.commit e now e).delta = 0 := Int.sub_self e.delta
  subst hw hcore
  refine ⟨⟨?_, ?_, ?_, ?_, h.known⟩, ?_⟩
  · intro j x hx
    rw [setWindow_pending] at hx
    split at hx
    · next hj =>
      cases hx
      rw [hinfo]
      exact ⟨hkn, hpart, hscope.trans hj.symm⟩
    · exact h.windows j x hx
  · intro k hk hplain
    have hne : k ≠ e.info.coreKey := by
      rintro rfl
      exact hplain hkn.pair
    dsimp only
    rw [if_neg hne]
    exact h.plain k hk hplain
  · intro k r hk hr
    dsimp only at hr
    split at hr
    · exact hpos r hr
    · exact h.positive k r hk hr
  · intro k hk last hlast
    dsimp only [allocateInventoryDeltaSeq] at hlast ⊢
    by_cases heq : k = e.info.coreKey
    · subst heq
      rw [Watermark.set_self, Option.some.injEq] at hlast
      rw [if_pos (by rw [hscope]), ← hlast]
    · rw [Watermark.set_of_ne _ _ fun hd => heq (hk.eq_of_dedupKey hkn hd)] at hlast
      rw [if_neg]
      · exact h.marks k hk last hlast
      · intro hs
        rw [DeltaScope.mk.injEq, ← hscope] at hs
        exact heq (hk.eq_of_scopeKey hkn hs.2.1)
  · intro k hk
    unfold outstanding pendingAt CoreInventory.bucketQty
    dsimp only
    rw [setWindow_pending]
    by_cases heq : k = e.info.coreKey
    · subst heq
      rw [if_pos rfl, if_pos hscope, hsum, hscope, he, Option.map_some, Option.map_some, hzero]
      exact Int.add_zero _
    · rw [if_neg heq, if_neg fun hs => heq (hk.eq_of_scopeKey hkn (hs.trans hscope.symm))]

theorem flush (h : WindowsInv node w) (key : String) (now : Nat)
    (hnonneg : ∀ k, NodeKey node k → 0 ≤ w.outstanding node k) :
    WindowsInv node (w.flushKey node key now)
      ∧ ∀ k, NodeKey node k → (w.flushKey node key now).outstanding node k
        = w.outstanding node k := by
  unfold flushKey
  split
  · exact ⟨h, fun _ _ => rfl⟩
  rename_i e he
  obtain ⟨hkn, hpart, hscope⟩ := h.windows key e he
  have hname : e.info.coreNodeName ≠ "" := by
    rw [show e.info.coreNodeName = node.coreNodeName from hkn.name]
    exact node.name_ne
  have hresolve : resolveName e (some node.coreNodeName) = e := if_neg hname
  split
  · exact ⟨h, fun _ _ => rfl⟩
  rw [hresolve]
  -- 番号は core の最終番号より大きく、足した数は edge の数なので負でない
  have hcov : ¬ w.core.dedup.Covers (node.dedupKey e.info.coreKey)
      (w.seqs ⟨.bucket, key, 0⟩ + 1) := by
    rintro ⟨last, hlast, hle⟩
    have := h.marks _ hkn last hlast
    rw [hscope] at this
    omega
  have hpend : w.pendingAt node e.info.coreKey = e.delta := by
    unfold pendingAt
    rw [hscope, he]
    rfl
  have hqty := hnonneg _ hkn
  rw [outstanding, hpend] at hqty
  obtain ⟨row, hcore, hsum, hpos⟩ := applyLinesideBucketDelta_adds
    (d := bucketEnvelope e (w.seqs ⟨.bucket, key, 0⟩ + 1)) node.station_ne hname hpart
    (by rw [← h.known]; exact congrArg _ hkn.name) hcov hqty
  exact sent h he hcore hsum hpos now rfl

end WindowsInv

/-! ## 一つの動作 -/

/--
動作の条件。

* 捕捉は、当たる行と同じ style と pair key で行われる
* 払い出しは、当たる行と同じ pair key の claim で、許された part に重なりの無いものが行う
-/
def KeysMatch (w : LinesideWorld) : LinesideAction → Prop
  | .release ev _ => ev.Keyed ∧ ∀ b ∈ w.table.rows, b.partNumber ∈ ev.parts →
      b.styleID = ev.styleID ∧ b.pairKey = ev.pairKey
  | .tick claim _ _ _ => claim.allowedPayloads.Nodup
      ∧ ∀ b ∈ w.table.rows, b.state = .active → b.partNumber ∈ claim.drainParts →
        b.pairKey = claim.pairedCoreNode
  | .adjust _ _ _ _ | .flush _ _ => True

instance (w : LinesideWorld) : ∀ a, Decidable (KeysMatch w a)
  | .release _ _ | .tick _ _ _ _ => inferInstanceAs (Decidable (_ ∧ _))
  | .adjust _ _ _ _ | .flush _ _ => .isTrue trivial

/-- edge の数は、core の数に渡していない増減を足したもの。 -/
structure MirrorInv (node : LinesideNode) (w : LinesideWorld) : Prop where
  table : TableInv node w.table
  windows : WindowsInv node w
  balance : ∀ k, NodeKey node k →
    w.table.qtyAt node.coreNodeName k = w.outstanding node k

namespace MirrorInv

variable {node : LinesideNode}

theorem record_table (cs : List BucketCall) :
    ∀ w : LinesideWorld, (cs.foldl record w).table = w.table := by
  induction cs with
  | nil => intro w; rfl
  | cons c cs ih =>
    intro w
    rw [foldl_cons, ih]
    unfold record
    split <;> rfl

theorem moves (h : MirrorInv node w) {cs : List BucketCall} (hm : Moves node w.table t cs) :
    MirrorInv node (cs.foldl record { w with table := t }) := by
  have hwin : WindowsInv node { w with table := t } :=
    ⟨h.windows.windows, h.windows.plain, h.windows.positive, h.windows.marks, h.windows.known⟩
  obtain ⟨hwin', hout⟩ := hwin.records cs hm.callsOk
  refine ⟨?_, hwin', ?_⟩
  · rw [record_table]
    exact hm.inv
  · intro k hk
    rw [record_table, hout k hk, hm.qty k, h.balance k hk]
    rfl

theorem qtyAt_nonneg (h : TableInv node t) (k : BucketKey) : 0 ≤ t.qtyAt node.coreNodeName k := by
  unfold LinesideTable.qtyAt
  rw [total_eq_sum]
  refine List.sum_nonneg fun qty hqty => ?_
  obtain ⟨b, hb, rfl⟩ := mem_map.mp hqty
  have hpos := (h.rows b hb).pos
  unfold LinesideBucket.qtyAt
  split <;> omega

theorem step (w : LinesideWorld) (a : LinesideAction) (h : MirrorInv node w)
    (hok : KeysMatch w a) : MirrorInv node (linesideStep node w a) := by
  cases a with
  | release ev now =>
    exact h.moves (Moves.captureToLineside h.table hok.1 hok.2)
  | tick claim payloadCode delta now =>
    exact h.moves (Moves.drainLinesideFirst h.table hok.1 hok.2)
  | adjust bucketID targetQty clearBucket now =>
    exact h.moves (Moves.adjust h.table bucketID targetQty clearBucket now)
  | flush key now =>
    have hnonneg : ∀ k, NodeKey node k → 0 ≤ w.outstanding node k := by
      intro k hk
      rw [← h.balance k hk]
      exact qtyAt_nonneg h.table k
    obtain ⟨hwin, hout⟩ := h.windows.flush key now hnonneg
    have htable : (w.flushKey node key now).table = w.table := by
      unfold flushKey
      split
      · rfl
      · split <;> rfl
    refine ⟨?_, hwin, ?_⟩
    · show TableInv node (w.flushKey node key now).table
      rw [htable]
      exact h.table
    · intro k hk
      show (w.flushKey node key now).table.qtyAt node.coreNodeName k
        = (w.flushKey node key now).outstanding node k
      rw [htable, hout k hk]
      exact h.balance k hk

end MirrorInv

/-! ## 実行 -/

def LinesideTable.bucketAt (t : LinesideTable) (nodeID : Int) (k : BucketKey) :
    Option LinesideBucket :=
  t.rows.find? fun b => b.nodeID == nodeID && b.coreKey k.coreNodeName == k

theorem bucketAt_key {nodeID : Int} (h : t.bucketAt nodeID k = some b) :
    b ∈ t.rows ∧ b.coreKey k.coreNodeName = k := by
  have hsel := List.find?_some h
  rw [Bool.and_eq_true, beq_iff_eq, beq_iff_eq] at hsel
  exact ⟨mem_of_find?_eq_some h, hsel.2⟩

variable {node : LinesideNode}

theorem TableInv.qtyAt_of_some (h : TableInv node t) (hk : k.coreNodeName = node.coreNodeName)
    (hb : t.bucketAt node.nodeID k = some b) : t.qtyAt node.coreNodeName k = b.qty ∧ 0 < b.qty := by
  obtain ⟨hmem, hkey⟩ := bucketAt_key hb
  rw [hk] at hkey
  refine ⟨?_, (h.rows b hmem).pos⟩
  unfold LinesideTable.qtyAt
  rw [total_eq_single h.nodup hmem]
  · exact if_pos hkey
  · intro r hr hne
    refine if_neg fun hkey' => hne (h.onePart r hr b hmem ?_)
    have hpart := congrArg BucketKey.partNumber (hkey'.trans hkey.symm)
    exact hpart

theorem TableInv.qtyAt_of_none (h : TableInv node t) (hk : k.coreNodeName = node.coreNodeName)
    (hb : t.bucketAt node.nodeID k = none) : t.qtyAt node.coreNodeName k = 0 := by
  apply total_eq_zero
  intro r hr
  refine if_neg fun hkey => ?_
  apply List.find?_eq_none.mp hb r hr
  rw [Bool.and_eq_true, beq_iff_eq, beq_iff_eq, hk]
  exact ⟨(h.rows r hr).node, hkey⟩

def LinesideWorld.Settled (w : LinesideWorld) : Prop :=
  ∀ key e, w.pending key = some e → e.delta = 0

theorem LinesideWorld.Settled.pendingAt (h : w.Settled) (node : LinesideNode) (k : BucketKey) :
    w.pendingAt node k = 0 := by
  unfold LinesideWorld.pendingAt
  cases hp : w.pending (node.scopeKey k) with
  | none => rfl
  | some e => exact h _ e hp

def LinesideWorld.start (seqs : DeltaScope → Nat) (core : CoreInventory) : LinesideWorld where
  table := { rows := [], nextID := 1 }
  pending := fun _ => none
  seqs := seqs
  core := core

theorem MirrorInv.start (seqs : DeltaScope → Nat)
    (hempty : ∀ k, k.coreNodeName = node.coreNodeName → core.buckets k = none)
    (hknown : core.nodes node.coreNodeName = true)
    (hnew : ∀ k, k.station = node.stationID → core.dedup k = none) :
    MirrorInv node (start seqs core) where
  table :=
    ⟨nodup_nil, forall_mem_nil _,
      forall_mem_nil _, forall_mem_nil _⟩
  windows :=
    { windows := fun key e he => by cases he
      plain := fun k hk _ => hempty k hk
      positive := fun k r hk hr => by
        rw [LinesideWorld.start, hempty k hk] at hr
        cases hr
      marks := fun k hk last hlast => by
        rw [LinesideWorld.start, hnew (node.dedupKey k) rfl] at hlast
        cases hlast
      known := hknown }
  balance k hk := by
    unfold outstanding pendingAt CoreInventory.bucketQty
    rw [LinesideWorld.start, hempty k hk.name]
    rfl

theorem MirrorInv.settled (h : MirrorInv node w) (hs : w.Settled) (k : BucketKey)
    (hk : k.coreNodeName = node.coreNodeName) :
    (w.core.buckets k).map Bucket.qty
      = (w.table.bucketAt node.nodeID k).map LinesideBucket.qty := by
  by_cases hpair : PlainPair k.pairKey
  · have hbal := h.balance k ⟨hk, hpair⟩
    rw [outstanding, hs.pendingAt node k, Int.add_zero] at hbal
    cases hb : w.table.bucketAt node.nodeID k with
    | none =>
      rw [h.table.qtyAt_of_none hk hb] at hbal
      cases hc : w.core.buckets k with
      | none => rfl
      | some r =>
        have hpos := h.windows.positive k r hk hc
        rw [CoreInventory.bucketQty, hc] at hbal
        exact absurd hbal (Int.ne_of_lt hpos)
    | some b =>
      obtain ⟨hqty, hpos⟩ := h.table.qtyAt_of_some hk hb
      rw [hqty] at hbal
      cases hc : w.core.buckets k with rw [CoreInventory.bucketQty, hc] at hbal
      | none =>
        exact absurd hbal (Int.ne_of_gt hpos)
      | some r =>
        exact congrArg some hbal.symm
  · -- 区切りの入る鍵には、edge にも core にも bucket が無い
    rw [h.windows.plain k hk hpair]
    cases hb : w.table.bucketAt node.nodeID k with
    | none => rfl
    | some b =>
      obtain ⟨hmem, hkey⟩ := bucketAt_key hb
      have hplain := (h.table.rows b hmem).pair
      rw [← hkey] at hpair
      exact absurd hplain hpair

/-- **渡し終えた edge と core の lineside bucket は、鍵ごとに等しい。** -/
theorem lineside_mirrored (node : LinesideNode) (seqs : DeltaScope → Nat) (core : CoreInventory)
    (acts : List LinesideAction)
    (hempty : ∀ k, k.coreNodeName = node.coreNodeName → core.buckets k = none)
    (hknown : core.nodes node.coreNodeName = true)
    (hnew : ∀ k, k.station = node.stationID → core.dedup k = none)
    (hok : AllSteps (linesideStep node) KeysMatch (start seqs core) acts) :
    ∀ w ∈ visited (linesideStep node) (start seqs core) acts, w.Settled →
      ∀ k, k.coreNodeName = node.coreNodeName →
        (w.core.buckets k).map Bucket.qty
          = (w.table.bucketAt node.nodeID k).map LinesideBucket.qty := by
  intro w hw hs k hk
  have hinv := AllSteps.visited_of_inv MirrorInv.step
    (MirrorInv.start seqs hempty hknown hnew) hok w hw
  exact hinv.settled hs k hk

/-! ## 二つの style の press -/

def pressNode : LinesideNode where
  stationID := "ST1"
  nodeID := 7
  coreNodeName := "PRESS"
  station_ne := by decide
  nodeID_pos := by decide
  name_ne := by decide

def pressCore : CoreInventory where
  bins _ := none
  buckets _ := none
  nodes n := n == "PRESS"
  dedup _ := none
  ledger := []
  exceptions := []
  announced := []
  announceWired := true
  repaired _ := 0
  binManifest := none
  droppedStaleEpoch := 0
  droppedPayloadMismatch := 0

def captureOne (styleID : Int) (part : String) (qty : Int) : CaptureEvent where
  styleID := styleID
  pairKey := ""
  lineside := some [(part, qty)]
  binID := 0
  payloadCode := part
  binEpoch := 0
  suppressBinDelta := true

def oneStyle : List LinesideAction :=
  [.release (captureOne 1 "BRK" 5) 1, .tick ⟨1, "BRK", [], ""⟩ "BRK" 2 2, .flush "7||1|BRK" 3]

abbrev pressRun (as : List LinesideAction) : LinesideWorld :=
  runSteps (linesideStep pressNode) (start (fun _ => 0) pressCore) as

theorem oneStyle_settled : (pressRun oneStyle).Settled := by
  intro key e he
  by_cases hk : key = "7||1|BRK"
  · subst hk
    have hzero : ((pressRun oneStyle).pending "7||1|BRK").map Entry.delta = some 0 := by decide
    rw [he] at hzero
    exact Option.some.inj hzero
  · have hscope : ∀ delta reason now,
        key ≠ bucketOps.key (pressNode.call "" 1 "BRK" "BRK" delta reason now) := by
      intro delta reason now
      show key ≠ Edge.bucketScopeKey 7 "" 1 "BRK"
      exact hk
    have hflush : pressRun oneStyle
        = (pressRun (oneStyle.take 2)).flushKey pressNode "7||1|BRK" 3 := rfl
    obtain ⟨t, htick⟩ : ∃ t, pressRun (oneStyle.take 2)
        = record { pressRun (oneStyle.take 1) with table := t }
          (pressNode.call "" 1 "BRK" "BRK" (-2) .consumeDrain 2) := ⟨_, rfl⟩
    obtain ⟨t', hrelease⟩ : ∃ t, pressRun (oneStyle.take 1)
        = record { start (fun _ => 0) pressCore with table := t }
          (pressNode.call "" 1 "BRK" "BRK" 5 .captureFill 1) := ⟨_, rfl⟩
    rw [hflush, flushKey_pending_of_ne _ _ hk, htick,
      record_pending_of_ne _ (hscope _ _ _), hrelease] at he
    rw [record_pending_of_ne _ (hscope _ _ _)] at he
    cases he

theorem lineside_mirrored_oneStyle :
    ((runSteps (linesideStep pressNode) (start (fun _ => 0) pressCore)
        oneStyle).core.buckets ⟨"PRESS", "", 1, "BRK"⟩).map Bucket.qty = some 3
      ∧ ((runSteps (linesideStep pressNode) (start (fun _ => 0) pressCore)
          oneStyle).core.buckets ⟨"PRESS", "", 1, "BRK"⟩).map Bucket.qty
        = ((runSteps (linesideStep pressNode) (start (fun _ => 0) pressCore)
          oneStyle).table.bucketAt 7 ⟨"PRESS", "", 1, "BRK"⟩).map LinesideBucket.qty :=
  ⟨by decide,
    lineside_mirrored pressNode (fun _ => 0) pressCore oneStyle (fun _ _ => rfl) rfl
      (fun _ _ => rfl) (by decide) _ (mem_visited_runSteps _ _) oneStyle_settled _ rfl⟩

def twoStyles : List LinesideAction :=
  [.release (captureOne 1 "BRK" 5) 1, .release (captureOne 2 "BRK" 3) 2,
   .flush "7||1|BRK" 3, .flush "7||2|BRK" 3]

/--
捕捉は style 1 の行に足して style 2 に書き換えるので、edge には style 2 の 8 個だけがある。
core には style 1 の 5 個が残り、style 2 は 3 個しか無い。
-/
theorem capture_restamps_style :
    ((runSteps (linesideStep pressNode) (start (fun _ => 0) pressCore)
        twoStyles).pending "7||1|BRK").map Entry.delta = some 0
      ∧ ((runSteps (linesideStep pressNode) (start (fun _ => 0) pressCore)
          twoStyles).pending "7||2|BRK").map Entry.delta = some 0
      ∧ (runSteps (linesideStep pressNode) (start (fun _ => 0) pressCore)
          twoStyles).table.rows.map (fun b => (b.styleID, b.qty)) = [(2, 8)]
      ∧ ((runSteps (linesideStep pressNode) (start (fun _ => 0) pressCore)
          twoStyles).core.buckets ⟨"PRESS", "", 1, "BRK"⟩).map Bucket.qty = some 5
      ∧ ((runSteps (linesideStep pressNode) (start (fun _ => 0) pressCore)
          twoStyles).core.buckets ⟨"PRESS", "", 2, "BRK"⟩).map Bucket.qty = some 3 := by
  decide

end Shingo.Edge
