import Shingo.Edge.Lineside
import Shingo.Properties.ScopeKeys

/-!
# lineside bucket の表の操作

表の操作が鍵ごとに変えた数は、同じ操作が出した増減に等しい。捕捉は当たる行の style と
pair key に、払い出しは当たる行の pair key に合うことが要る。
-/

namespace Shingo.Edge

open Infra Protocol Shingo.Core List LinesideBucket

/-! ## 鍵 -/

def LinesideBucket.coreKey (coreNodeName : String) (b : LinesideBucket) : BucketKey where
  coreNodeName := coreNodeName
  pairKey := b.pairKey
  styleID := b.styleID
  partNumber := b.partNumber

def BucketCall.coreKey (c : BucketCall) : BucketKey where
  coreNodeName := c.coreNodeName
  pairKey := c.pairKey
  styleID := c.styleID
  partNumber := c.partNumber

def PlainPair (pairKey : String) : Prop := '|' ∉ pairKey.toList
  deriving Decidable

theorem scopeKey_inj {x p p' q q' : String} {n n' : Int} (hp : PlainPair p) (hp' : PlainPair p')
    (h : x ++ "|" ++ p ++ "|" ++ toString n ++ "|" ++ q
      = x ++ "|" ++ p' ++ "|" ++ toString n' ++ "|" ++ q') : p = p' ∧ n = n' ∧ q = q' := by
  have hbars : bars p = bars p' := by
    unfold bars
    rw [count_eq_zero.mpr hp, count_eq_zero.mpr hp']
  have hl := congrArg String.toList h
  rw [toList_scopeKey, toList_scopeKey] at hl
  exact scopeTail_inj hbars (List.cons.inj (append_cancel_left hl)).2

/-! ## 表の不変条件 -/

structure RowOk (node : LinesideNode) (b : LinesideBucket) : Prop where
  node : b.nodeID = node.nodeID
  pos : 0 < b.qty
  style : b.styleID ≠ 0
  pair : PlainPair b.pairKey
  part : b.partNumber ≠ ""

structure TableInv (node : LinesideNode) (t : LinesideTable) : Prop where
  ids : (t.rows.map LinesideBucket.id).Nodup
  fresh : ∀ b ∈ t.rows, b.id < t.nextID
  onePart : ∀ a ∈ t.rows, ∀ b ∈ t.rows, a.partNumber = b.partNumber → a = b
  rows : ∀ b ∈ t.rows, RowOk node b

variable {f : LinesideBucket → LinesideBucket} {p : LinesideBucket → Bool} {hit : LinesideBucket}
  {node : LinesideNode}

namespace TableInv

variable {t : LinesideTable}

section

variable (h : TableInv node t)
include h

theorem nodup : t.rows.Nodup := h.ids.of_map

theorem id_iff (hhit : hit ∈ t.rows) : ∀ r ∈ t.rows, (r.id == hit.id) = true ↔ r = hit := by
  intro r hr
  rw [beq_iff_eq]
  exact ⟨fun hid => inj_on_of_nodup_map h.ids hr hhit hid, congrArg _⟩

theorem update (hid : ∀ b, (f b).id = b.id) (hpart : ∀ b, (f b).partNumber = b.partNumber)
    (hrow : ∀ r ∈ t.rows, p r = true → RowOk node (f r)) :
    TableInv node { t with rows := updateWhere p f t.rows } := by
  have hids : ∀ r, (if p r then f r else r).id = r.id := fun r => by
    rw [apply_ite LinesideBucket.id, hid, ite_self]
  have hparts : ∀ r, (if p r then f r else r).partNumber = r.partNumber := fun r => by
    rw [apply_ite partNumber, hpart, ite_self]
  refine ⟨?_, ?_, ?_, ?_⟩
  · rw [map_updateWhere fun r _ => hid r]
    exact h.ids
  · intro b hb
    obtain ⟨r, hr, rfl⟩ := mem_updateWhere.mp hb
    rw [hids]
    exact h.fresh r hr
  · intro a ha b hb hab
    obtain ⟨r, hr, rfl⟩ := mem_updateWhere.mp ha
    obtain ⟨r', hr', rfl⟩ := mem_updateWhere.mp hb
    rw [hparts, hparts] at hab
    rw [h.onePart r hr r' hr' hab]
  · intro b hb
    obtain ⟨r, hr, rfl⟩ := mem_updateWhere.mp hb
    split
    · next hpr => exact hrow r hr hpr
    · exact h.rows r hr

theorem activeUnique : LinesideTable.ActiveUnique t.rows := by
  refine List.Pairwise.imp_of_mem ?_ h.nodup
  intro a b ha hb hne _ _ _ hpart
  exact hne (h.onePart a ha b hb hpart)

theorem delete (p : LinesideBucket → Bool) :
    TableInv node { t with rows := deleteWhere p t.rows } where
  ids := h.ids.sublist (List.Sublist.map _ filter_sublist)
  fresh b hb := h.fresh b (mem_deleteWhere.mp hb).1
  onePart a ha b hb := h.onePart a (mem_deleteWhere.mp ha).1 b (mem_deleteWhere.mp hb).1
  rows b hb := h.rows b (mem_deleteWhere.mp hb).1

theorem insert {now : Nat} {pairKey partNumber : String}
    {styleID qty : Int} (hnew : ∀ b ∈ t.rows, b.partNumber ≠ partNumber) (hqty : 0 < qty)
    (hstyle : styleID ≠ 0) (hpair : PlainPair pairKey) (hpart : partNumber ≠ "") :
    TableInv node (t.insert now node.nodeID pairKey styleID partNumber qty) where
  ids := nodup_map_concat h.ids fun r hr => Nat.ne_of_lt (h.fresh r hr)
  fresh b hb := by
    rcases mem_append_last.mp hb with hb | rfl
    · exact Nat.lt_succ_of_lt (h.fresh b hb)
    · exact Nat.lt_succ_self _
  onePart a ha b hb hab := by
    rcases mem_append_last.mp ha with ha | rfl <;> rcases mem_append_last.mp hb with hb | rfl
    · exact h.onePart a ha b hb hab
    · exact absurd hab (hnew a ha)
    · exact absurd hab.symm (hnew b hb)
    · rfl
  rows b hb := by
    rcases mem_append_last.mp hb with hb | rfl
    · exact h.rows b hb
    · exact ⟨rfl, hqty, hstyle, hpair, hpart⟩

end

end TableInv

/-! ## 鍵ごとの数 -/

def LinesideBucket.qtyAt (coreNodeName : String) (k : BucketKey) (b : LinesideBucket) : Int :=
  if b.coreKey coreNodeName = k then b.qty else 0

def LinesideTable.qtyAt (t : LinesideTable) (coreNodeName : String) (k : BucketKey) : Int :=
  total (LinesideBucket.qtyAt coreNodeName k) t.rows

/-- 捕捉する part。 -/
def CaptureEvent.parts (ev : CaptureEvent) : List String :=
  ((ev.lineside.getD []).filter fun e => 0 < e.2 && e.1 != "").map Prod.fst

/-- 何かを捕捉するなら、style は 0 でなく、pair key に区切りは無い。 -/
def CaptureEvent.Keyed (ev : CaptureEvent) : Prop :=
  ev.parts ≠ [] → ev.styleID ≠ 0 ∧ PlainPair ev.pairKey
  deriving Decidable

def BucketCall.deltaAt (k : BucketKey) (c : BucketCall) : Int :=
  if c.coreKey = k then c.delta else 0

structure CallOk (node : LinesideNode) (c : BucketCall) : Prop where
  ofNode : c.nodeID = node.nodeID
  name : c.coreNodeName = node.coreNodeName
  pair : PlainPair c.pairKey
  part : c.partNumber ≠ ""
  delta : c.delta ≠ 0

/-- **表の操作が変えた数は、出した増減に等しい。** -/
structure Moves (node : LinesideNode) (t t' : LinesideTable) (calls : List BucketCall) : Prop where
  inv : TableInv node t'
  callsOk : ∀ c ∈ calls, CallOk node c
  qty : ∀ k, t'.qtyAt node.coreNodeName k
    = t.qtyAt node.coreNodeName k + total (BucketCall.deltaAt k) calls

namespace Moves

variable {t t' t'' : LinesideTable} {cs cs' : List BucketCall}

theorem refl (h : TableInv node t) : Moves node t t [] where
  inv := h
  callsOk := forall_mem_nil _
  qty k := by rw [total_nil, Int.add_zero]

theorem trans (h : Moves node t t' cs) (h' : Moves node t' t'' cs') :
    Moves node t t'' (cs ++ cs') where
  inv := h'.inv
  callsOk c hc := (mem_append.mp hc).elim (h.callsOk c) (h'.callsOk c)
  qty k := by rw [h'.qty, h.qty, total_append, Int.add_assoc]

section

variable (h : TableInv node t) {c : BucketCall} (hhit : hit ∈ t.rows)
  (hp : ∀ r ∈ t.rows, p r = true ↔ r = hit) (hc : CallOk node c)
  (hck : c.coreKey = hit.coreKey node.coreNodeName)
include h hhit hp hc hck

theorem update (hid : ∀ b, (f b).id = b.id) (hpart : ∀ b, (f b).partNumber = b.partNumber)
    (hrow : RowOk node (f hit))
    (hkey : (f hit).coreKey node.coreNodeName = hit.coreKey node.coreNodeName)
    (hdelta : (f hit).qty = hit.qty + c.delta) :
    Moves node t { t with rows := updateWhere p f t.rows } [c] where
  inv := h.update hid hpart fun r hr hpr => by rw [(hp r hr).mp hpr]; exact hrow
  callsOk d hd := by rw [mem_singleton.mp hd]; exact hc
  qty k := by
    unfold LinesideTable.qtyAt
    rw [total_updateWhere h.nodup hhit hp]
    simp only [total_cons, total_nil, LinesideBucket.qtyAt, BucketCall.deltaAt, hkey, hck, hdelta]
    split <;> omega

theorem delete (hdelta : c.delta = -hit.qty) :
    Moves node t { t with rows := deleteWhere p t.rows } [c] where
  inv := h.delete p
  callsOk d hd := by rw [mem_singleton.mp hd]; exact hc
  qty k := by
    unfold LinesideTable.qtyAt
    rw [total_deleteWhere h.nodup hhit hp]
    simp only [total_cons, total_nil, LinesideBucket.qtyAt, BucketCall.deltaAt, hck, hdelta]
    split <;> omega

end

theorem silent (h : TableInv node t')
    (hqty : ∀ k, t'.qtyAt node.coreNodeName k = t.qtyAt node.coreNodeName k) :
    Moves node t t' [] where
  inv := h
  callsOk := forall_mem_nil _
  qty k := by rw [hqty, total_nil, Int.add_zero]

/-! ### 捕捉 -/

variable {qty styleID : Int} {pairKey partNumber payloadCode part : String}

theorem capture_cases (h : TableInv node t) (now : Nat) (pairKey partNumber : String)
    (styleID : Int) (hqty : 0 < qty) : (∃ hit ∈ t.rows, hit.partNumber = partNumber
      ∧ t.capture now node.nodeID pairKey styleID partNumber qty
        = { t with
            rows := updateWhere (fun b => b.id == hit.id) (fun b => { b with
                qty := b.qty + qty, styleID, state := .active, updatedAt := now }) t.rows })
    ∨ ((∀ b ∈ t.rows, b.partNumber ≠ partNumber)
      ∧ t.capture now node.nodeID pairKey styleID partNumber qty
        = t.insert now node.nodeID pairKey styleID partNumber qty) := by
  unfold LinesideTable.capture
  rw [if_neg (by omega)]
  split
  · next hit hfirst =>
    obtain ⟨hmem, hsel⟩ := mem_filter.mp (mem_of_firstBy hfirst)
    rw [Bool.and_eq_true, beq_iff_eq, beq_iff_eq] at hsel
    exact .inl ⟨hit, hmem, hsel.2, rfl⟩
  · next hfirst =>
    refine .inr ⟨?_, rfl⟩
    intro b hb hpart
    have hnil := firstBy_eq_none hfirst
    rw [filter_eq_nil_iff] at hnil
    apply hnil b hb
    rw [Bool.and_eq_true, beq_iff_eq, beq_iff_eq]
    exact ⟨(h.rows b hb).node, hpart⟩

variable {now : Nat} {delta : Int}

theorem callOk_call (node : LinesideNode) {reason : LinesideBucketDeltaReason}
    (hpair : PlainPair pairKey) (hpart : partNumber ≠ "") (hdelta : delta ≠ 0) :
    CallOk node (node.call pairKey styleID partNumber payloadCode delta reason now) :=
  ⟨rfl, rfl, hpair, hpart, hdelta⟩

def Fits (parts : List String) (styleID : Int) (pairKey : String) (t : LinesideTable) : Prop :=
  ∀ b ∈ t.rows, b.partNumber ∈ parts → b.styleID = styleID ∧ b.pairKey = pairKey

theorem capture (h : TableInv node t)
    (hqty : 0 < qty) (hstyle : styleID ≠ 0) (hpair : PlainPair pairKey) (hpart : partNumber ≠ "")
    (hmatch : ∀ b ∈ t.rows, b.partNumber = partNumber → b.styleID = styleID ∧ b.pairKey = pairKey) :
    Moves node t (t.capture now node.nodeID pairKey styleID partNumber qty)
      [node.call pairKey styleID partNumber payloadCode qty .captureFill now] := by
  have hcall : CallOk node
      (node.call pairKey styleID partNumber payloadCode qty .captureFill now) :=
    callOk_call node hpair hpart (Int.ne_of_gt hqty)
  rcases capture_cases h now pairKey partNumber styleID hqty with ⟨hit, hhit, hp, heq⟩ | ⟨hnew, heq⟩
  · obtain ⟨hs, hk⟩ := hmatch hit hhit hp
    have hrow := h.rows hit hhit
    rw [heq]
    refine update h hhit (h.id_iff hhit) hcall ?_ (fun _ => rfl) (fun _ => rfl) ?_ ?_ ?_
    · simp only [BucketCall.coreKey, coreKey, LinesideNode.call, hs, hk, hp]
    · exact ⟨hrow.node, by have := hrow.pos; dsimp only; omega, hstyle, hrow.pair, hrow.part⟩
    · simp only [coreKey, hs]
    · rfl
  · rw [heq]
    refine ⟨h.insert hnew hqty hstyle hpair hpart, ?_, ?_⟩
    · intro c hc
      rw [mem_singleton.mp hc]
      exact hcall
    · intro k
      unfold LinesideTable.qtyAt LinesideTable.insert
      rw [total_append]
      rfl

variable {parts : List String} {ev : CaptureEvent}

theorem capture_match (h : TableInv node t) (hqty : 0 < qty)
    (hmatch : Fits parts styleID pairKey t) :
    Fits parts styleID pairKey (t.capture now node.nodeID pairKey styleID partNumber qty) := by
  intro b hb hmem
  rcases capture_cases h now pairKey partNumber styleID hqty with ⟨hit, hhit, hp, heq⟩ | ⟨-, heq⟩
  · rw [heq] at hb
    obtain ⟨r, hr, rfl⟩ := mem_updateWhere.mp hb
    have hr' : r.partNumber ∈ parts := by
      rw [apply_ite LinesideBucket.partNumber, ite_self] at hmem
      exact hmem
    obtain ⟨hs, hk⟩ := hmatch r hr hr'
    split
    · exact ⟨rfl, hk⟩
    · exact ⟨hs, hk⟩
  · rw [heq] at hb
    rcases mem_append_last.mp hb with hb | rfl
    · exact hmatch b hb hmem
    · exact ⟨rfl, rfl⟩

theorem deactivate (h : TableInv node t) (now : Nat) (keepStyleID : Int) :
    Moves node t (t.deactivateOtherStyles now node.nodeID keepStyleID) [] := by
  have hkeep : ∀ others : LinesideBucket → Bool,
      deleteWhere (fun b => others b && decide (b.qty ≤ 0)) t.rows = t.rows := by
    intro others
    apply deleteWhere_eq_self
    intro b hb
    have hpos := (h.rows b hb).pos
    rw [decide_eq_false (by omega), Bool.and_false]
  unfold LinesideTable.deactivateOtherStyles
  dsimp only
  rw [hkeep]
  refine silent (h.update (fun _ => rfl) (fun _ => rfl) ?_) ?_
  · intro r hr _
    have hrow := h.rows r hr
    exact ⟨hrow.node, hrow.pos, hrow.style, hrow.pair, hrow.part⟩
  · intro k
    unfold LinesideTable.qtyAt
    rw [total_updateWhere_of_eq]
    exact fun _ => rfl

theorem captureEntry (now : Nat) {acc : LinesideTable × List BucketCall} {entry : String × Int}
    (h : Moves node t acc.1 acc.2) (hkeyed : ev.Keyed) (hentry : entry ∈ ev.lineside.getD [])
    (hmatch : Fits ev.parts ev.styleID ev.pairKey acc.1) :
    Moves node t (Edge.captureEntry node ev now acc entry).1
        (Edge.captureEntry node ev now acc entry).2
      ∧ Fits ev.parts ev.styleID ev.pairKey (Edge.captureEntry node ev now acc entry).1 := by
  unfold Edge.captureEntry
  split
  · exact ⟨h, hmatch⟩
  rename_i hok
  rw [not_or, Int.not_le] at hok
  have hpart : entry.1 ∈ ev.parts :=
    mem_map_of_mem (mem_filter.mpr ⟨hentry, by simpa using hok⟩)
  obtain ⟨hstyle, hpair⟩ := hkeyed (ne_nil_of_mem hpart)
  refine ⟨h.trans (capture h.inv hok.1 hstyle hpair hok.2 ?_), ?_⟩
  · intro b hb hp
    exact hmatch b hb (hp ▸ hpart)
  · exact capture_match h.inv hok.1 hmatch

theorem captureEntries {entries : List (String × Int)} {acc : LinesideTable × List BucketCall}
    (hkeyed : ev.Keyed) (hsub : entries ⊆ ev.lineside.getD []) (hacc : Moves node t acc.1 acc.2)
    (hmatch : Fits ev.parts ev.styleID ev.pairKey acc.1) :
    Moves node t (entries.foldl (Edge.captureEntry node ev now) acc).1
      (entries.foldl (Edge.captureEntry node ev now) acc).2 := by
  induction entries generalizing acc with
  | nil => exact hacc
  | cons e entries ih =>
    obtain ⟨hentry, hrest⟩ := cons_subset.mp hsub
    obtain ⟨hacc', hmatch'⟩ := captureEntry now hacc hkeyed hentry hmatch
    exact ih hrest hacc' hmatch'

theorem captureToLineside (h : TableInv node t) (hkeyed : ev.Keyed)
    (hmatch : Fits ev.parts ev.styleID ev.pairKey t) :
    Moves node t (Edge.captureToLineside node t ev now).1
      (Edge.captureToLineside node t ev now).2.1 := by
  have hcaptured := @captureEntries node t now ev _ (t, []) hkeyed (Subset.refl _) (refl h) hmatch
  have hdone := hcaptured.trans (deactivate hcaptured.inv now ev.styleID)
  rw [append_nil] at hdone
  exact hdone

/-! ### 払い出し -/

/-- 払い出した行に `left` を残す。残りが無ければ行を消す。 -/
def leave (t : LinesideTable) (hit : LinesideBucket) (left : Int) (now : Nat) : LinesideTable where
  rows := if left = 0 then deleteWhere (fun b => b.id == hit.id) t.rows
    else updateWhere (fun b => b.id == hit.id) (fun b => { b with qty := left, updatedAt := now })
      t.rows
  nextID := t.nextID

theorem drain_cases (h : TableInv node t) (now : Nat) (part : String) (delta : Int) :
    t.drain now node.nodeID part delta = (t, 0, 0)
    ∨ ∃ hit ∈ t.rows, hit.partNumber = part ∧ hit.state = .active ∧ 0 < min delta hit.qty
      ∧ t.drain now node.nodeID part delta
        = (leave t hit (hit.qty - min delta hit.qty) now, min delta hit.qty, hit.styleID) := by
  unfold LinesideTable.drain
  split
  · exact .inl rfl
  rename_i hdelta
  split
  · exact .inl rfl
  rename_i hit hfirst
  obtain ⟨hmem, hsel⟩ := mem_filter.mp (mem_of_firstBy hfirst)
  simp only [Bool.and_eq_true, beq_iff_eq] at hsel
  have hpos := (h.rows hit hmem).pos
  refine .inr ⟨hit, hmem, hsel.2.1, hsel.2.2, by omega, ?_⟩
  unfold leave
  dsimp only
  split <;> rfl

variable {claim : LinesideClaim}

theorem drain (h : TableInv node t) (payloadCode : String) (now : Nat) (hit : LinesideBucket)
    (hhit : hit ∈ t.rows) (hpart : hit.partNumber = part)
    (hpair : hit.pairKey = claim.pairedCoreNode) (hpos : 0 < min delta hit.qty) :
    Moves node t (leave t hit (hit.qty - min delta hit.qty) now)
      (drainCalls node claim payloadCode now
        [(part, { qty := min delta hit.qty, styleID := hit.styleID })]) := by
  have hrow := h.rows hit hhit
  have hcalls : drainCalls node claim payloadCode now
      [(part, { qty := min delta hit.qty, styleID := hit.styleID })]
      = [node.call claim.pairedCoreNode hit.styleID part payloadCode (-min delta hit.qty)
          .consumeDrain now] := by
    simp only [drainCalls, filterMap_cons, hpos, if_true, hrow.style, if_false,
      filterMap_nil]
  have hcall : CallOk node (node.call claim.pairedCoreNode hit.styleID part payloadCode
      (-min delta hit.qty) .consumeDrain now) :=
    callOk_call node (hpair ▸ hrow.pair) (hpart ▸ hrow.part) (by omega)
  have hkey : (node.call claim.pairedCoreNode hit.styleID part payloadCode
      (-min delta hit.qty) .consumeDrain now).coreKey = hit.coreKey node.coreNodeName := by
    simp only [BucketCall.coreKey, coreKey, LinesideNode.call, hpart, hpair]
  rw [hcalls]
  unfold leave
  split
  · exact delete h hhit (h.id_iff hhit) hcall hkey (by show -min delta hit.qty = _; omega)
  refine update h hhit (h.id_iff hhit) hcall hkey (fun _ => rfl) (fun _ => rfl) ?_ rfl ?_
  · exact ⟨hrow.node, by dsimp only; omega, hrow.style, hrow.pair, hrow.part⟩
  · exact Int.sub_eq_add_neg

variable {b : LinesideBucket}

theorem drain_rows (h : TableInv node t) (hb : b ∈ (t.drain now node.nodeID part delta).1.rows) :
    ∃ r ∈ t.rows, b.partNumber = r.partNumber ∧ b.pairKey = r.pairKey ∧ b.state = r.state := by
  rcases drain_cases h now part delta with heq | ⟨hit, -, -, -, -, heq⟩ <;> rw [heq] at hb
  · exact ⟨b, hb, rfl, rfl, rfl⟩
  · dsimp only [leave] at hb
    split at hb
    · exact ⟨b, (mem_deleteWhere.mp hb).1, rfl, rfl, rfl⟩
    obtain ⟨r, hr, rfl⟩ := mem_updateWhere.mp hb
    refine ⟨r, hr, ?_⟩
    split <;> exact ⟨rfl, rfl, rfl⟩

theorem drainCalls_append (node : LinesideNode) (claim : LinesideClaim) (payloadCode : String)
    (now : Nat) (xs ys : List (String × LinesideDrain)) :
    drainCalls node claim payloadCode now (xs ++ ys)
      = drainCalls node claim payloadCode now xs ++ drainCalls node claim payloadCode now ys :=
  filterMap_append

def PairsMatch (claim : LinesideClaim) (t : LinesideTable) : Prop :=
  ∀ b ∈ t.rows, b.state = .active → b.partNumber ∈ claim.drainParts →
    b.pairKey = claim.pairedCoreNode

theorem drainPart {acc : LinesideTable × List (String × LinesideDrain)}
    (h : Moves node t acc.1 (drainCalls node claim payloadCode now acc.2))
    (hmem : part ∈ claim.drainParts) (hnew : ∀ e ∈ acc.2, e.1 ≠ part)
    (hpairs : PairsMatch claim acc.1) :
    Moves node t (Edge.drainPart node.nodeID delta now acc part).1
        (drainCalls node claim payloadCode now (Edge.drainPart node.nodeID delta now acc part).2)
      ∧ (∀ e ∈ (Edge.drainPart node.nodeID delta now acc part).2, e ∈ acc.2 ∨ e.1 = part)
      ∧ PairsMatch claim (Edge.drainPart node.nodeID delta now acc part).1 := by
  have hrows : PairsMatch claim (Edge.drainPart node.nodeID delta now acc part).1 := by
    intro b hb hst hp
    obtain ⟨r, hr, hpart, hpair, hstate⟩ := drain_rows h.inv hb
    rw [hpair]
    exact hpairs r hr (hstate ▸ hst) (hpart ▸ hp)
  refine ⟨?_, ?_, hrows⟩
  · rcases drain_cases h.inv now part delta with
      heq | ⟨hit, hhit, hp, hst, hpos, heq⟩
    · unfold Edge.drainPart
      rw [heq]
      exact h
    · have hfilter : acc.2.filter (fun e => e.1 != part) = acc.2 := by
        rw [filter_eq_self]
        intro e he
        exact bne_iff_ne.mpr (hnew e he)
      unfold Edge.drainPart
      rw [heq]
      dsimp only
      rw [if_pos hpos, setDrain, hfilter, drainCalls_append]
      exact h.trans
        (drain h.inv payloadCode now hit hhit hp (hpairs hit hhit hst (hp ▸ hmem)) hpos)
  · intro e he
    unfold Edge.drainPart at he
    dsimp only at he
    split at he
    · rcases mem_append.mp he with he | he
      · exact .inl (mem_filter.mp he).1
      · exact .inr (by rw [mem_singleton.mp he])
    · exact .inl he

theorem drainParts_nodup (h : claim.allowedPayloads.Nodup) : claim.drainParts.Nodup := by
  refine nodup_append.mpr ⟨?_, h.filter _, ?_⟩
  · split
    · exact nodup_singleton _
    · exact nodup_nil
  · intro a ha b hb hab
    obtain ⟨-, hb⟩ := mem_filter.mp hb
    rw [Bool.and_eq_true, bne_iff_ne, bne_iff_ne] at hb
    split at ha
    · exact hb.2 (hab ▸ mem_singleton.mp ha)
    · cases ha

/-- 残りの part は map に無く、済んだ part は二度と来ない。 -/
theorem drainAll {parts : List String} {acc : LinesideTable × List (String × LinesideDrain)}
    (hnd : parts.Nodup) (hsub : parts ⊆ claim.drainParts) (hdone : ∀ e ∈ acc.2, e.1 ∉ parts)
    (hacc : Moves node t acc.1 (drainCalls node claim payloadCode now acc.2))
    (hpairs : PairsMatch claim acc.1) :
    Moves node t (parts.foldl (Edge.drainPart node.nodeID delta now) acc).1
      (drainCalls node claim payloadCode now
        (parts.foldl (Edge.drainPart node.nodeID delta now) acc).2) := by
  induction parts generalizing acc with
  | nil => exact hacc
  | cons p parts ih =>
    obtain ⟨hp, hnd⟩ := nodup_cons.mp hnd
    obtain ⟨hpart, hrest⟩ := cons_subset.mp hsub
    obtain ⟨hacc', hkeys, hpairs'⟩ := drainPart hacc hpart
      (fun e he h => hdone e he (h ▸ mem_cons_self)) hpairs
    refine ih hnd hrest ?_ hacc' hpairs'
    intro e he
    rcases hkeys e he with he | he
    · exact fun hx => hdone e he (mem_cons_of_mem _ hx)
    · rw [he]
      exact hp

theorem drainLinesideFirst (h : TableInv node t)
    (hnd : claim.allowedPayloads.Nodup) (hpairs : PairsMatch claim t) :
    Moves node t (Edge.drainLinesideFirst node.nodeID t claim delta now).1
      (drainCalls node claim payloadCode now
        (Edge.drainLinesideFirst node.nodeID t claim delta now).2) := by
  unfold Edge.drainLinesideFirst
  split
  · exact refl h
  · exact drainAll (drainParts_nodup hnd) (Subset.refl _) (forall_mem_nil _) (refl h) hpairs

/-! ### 調整 -/

theorem reconcile_iff (h : TableInv node t) (hb : b ∈ t.rows) :
    ∀ r ∈ t.rows, (r.nodeID == b.nodeID && (r.styleID == b.styleID
      && r.partNumber == b.partNumber)) = true ↔ r = b := by
  intro r hr
  simp only [Bool.and_eq_true, beq_iff_eq]
  constructor
  · rintro ⟨-, -, hp⟩
    exact h.onePart r hr b hb hp
  · rintro rfl
    exact ⟨rfl, rfl, rfl⟩

theorem setForReconcile (h : TableInv node t) (hb : b ∈ t.rows)
    {target : Int} (htarget : 0 ≤ target) (now : Nat) : Moves node t
      ((t.setForReconcile now b.nodeID b.pairKey b.styleID b.partNumber target).getD t)
      (if target - b.qty ≠ 0 then
        [node.call b.pairKey b.styleID b.partNumber "" (target - b.qty) .operatorCorrection now]
      else []) := by
  have hrow := h.rows b hb
  have hpos := hrow.pos
  have hcall : target - b.qty ≠ 0 → CallOk node (node.call b.pairKey b.styleID b.partNumber ""
      (target - b.qty) .operatorCorrection now) :=
    callOk_call node hrow.pair hrow.part
  by_cases hzero : target ≤ 0
  · have hne : target - b.qty ≠ 0 := by omega
    have hmoves := delete h hb (reconcile_iff h hb) (hcall hne) rfl
      (by show target - b.qty = -b.qty; omega)
    unfold LinesideTable.setForReconcile
    dsimp only
    rw [if_pos hzero, if_pos hmoves.inv.activeUnique, if_pos hne]
    exact hmoves
  · have hany : t.rows.any (fun r => r.nodeID == b.nodeID && (r.styleID == b.styleID
        && r.partNumber == b.partNumber)) = true :=
      any_eq_true.mpr ⟨b, hb, (reconcile_iff h hb b hb).mpr rfl⟩
    have hinv : TableInv node { t with
        rows := updateWhere (fun r => r.nodeID == b.nodeID && (r.styleID == b.styleID
            && r.partNumber == b.partNumber))
          (fun r => { r with qty := target, state := .active, updatedAt := now }) t.rows } := by
      refine h.update (fun _ => rfl) (fun _ => rfl) ?_
      intro r hr _
      have hr := h.rows r hr
      exact ⟨hr.node, by dsimp only; omega, hr.style, hr.pair, hr.part⟩
    unfold LinesideTable.setForReconcile
    dsimp only
    rw [if_neg hzero, if_pos hany, if_pos hinv.activeUnique, Option.getD_some]
    by_cases hne : target - b.qty ≠ 0
    · rw [if_pos hne]
      refine update h hb (reconcile_iff h hb) (hcall hne) rfl (fun _ => rfl) (fun _ => rfl) ?_ ?_ ?_
      · exact ⟨hrow.node, by dsimp only; omega, hrow.style, hrow.pair, hrow.part⟩
      · rfl
      · show target = b.qty + (target - b.qty)
        omega
    · rw [if_neg hne]
      refine silent hinv fun k => ?_
      have hsame : target = b.qty := by omega
      unfold LinesideTable.qtyAt
      rw [total_updateWhere h.nodup hb (reconcile_iff h hb), hsame]
      exact Int.sub_add_cancel _ _

theorem adjust (h : TableInv node t) (bucketID : Nat) (targetQty : Int) (clearBucket : Bool)
    (now : Nat) : Moves node t
      (adminAdjustLinesideBucket node t bucketID targetQty clearBucket now).1
      (adminAdjustLinesideBucket node t bucketID targetQty clearBucket now).2 := by
  unfold adminAdjustLinesideBucket
  generalize (if clearBucket = true then 0 else targetQty) = target
  split
  · exact refl h
  rename_i b hfind
  dsimp only
  split
  · exact refl h
  · next hneg =>
    exact setForReconcile h (mem_of_find?_eq_some hfind) (Int.not_lt.mp hneg) now

end Moves

end Shingo.Edge
