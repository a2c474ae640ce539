import Shingo.Edge.CellLevel

/-!
# cell の episode が閉じるとき
-/

namespace Shingo.Edge

open Infra Protocol List CellWorld NodeClaim Option Function

/-! ## 鍵 -/

theorem ClaimRole.length_word (role : ClaimRole) : role.word.toList.length = 7 := by
  cases role <;> rfl

variable {role role' : ClaimRole} {d : NodeClaim} {clear ok : Bool} {edge : LevelEdge}
  {e : EpisodeEdge} {key : String} {r' ep : OpenOrigin}

theorem ClaimRole.word_inj (h : role.word = role'.word) : role = role' := by
  cases role <;> cases role' <;> first | rfl | exact absurd h (by decide)

theorem cellEpisodeKey_inj {name payload payload' : String}
    (h : cellEpisodeKey name payload role = cellEpisodeKey name payload' role') :
    payload = payload' ∧ role = role' := by
  have hlist := congrArg String.toList h
  simp only [cellEpisodeKey, String.toList_append, append_assoc] at hlist
  have htail := append_cancel_left (append_cancel_left (append_cancel_left hlist))
  have hlen : ("|".toList ++ role.word.toList).length =
    ("|".toList ++ role'.word.toList).length := by
    rw [length_append, length_append, ClaimRole.length_word, ClaimRole.length_word]
  obtain ⟨hpayload, hrole⟩ := append_inj' htail hlen
  refine ⟨String.toList_injective hpayload, ClaimRole.word_inj ?_⟩
  exact String.toList_injective (append_cancel_left hrole)

/-! ## claim の表 -/

namespace CellWorld

variable {w : CellWorld}

theorem mem_of_findActiveClaim {n : CellNode} {c : NodeClaim} (h : w.findActiveClaim n = some c) :
    ∃ d ∈ w.claims.rows, scanNodeClaim d = c := by
  have hby : ∀ {styleID}, w.claimByNode styleID n.coreNodeName = some c →
      ∃ d ∈ w.claims.rows, scanNodeClaim d = c := by
    intro styleID h
    obtain ⟨d, hd, rfl⟩ := map_eq_some_iff.mp h
    exact ⟨d, mem_of_find?_eq_some hd, rfl⟩
  rcases or_eq_some_iff.mp h with h | ⟨-, h⟩
  · obtain ⟨s, -, h⟩ := bind_eq_some_iff.mp h
    exact hby h
  · obtain ⟨s, -, h⟩ := bind_eq_some_iff.mp h
    exact hby h

/-- 端を書いても、読んだ claim は変わらない。 -/
theorem findActiveClaim_setBelow (w : CellWorld) (id : Int) (since : Option Nat) (n : CellNode) :
    findActiveClaim { w with claims := w.claims.setBelow id since } n = w.findActiveClaim n := by
  have hscan : scanNodeClaim ∘ stamp id since = scanNodeClaim := by
    funext c
    simp only [comp, stamp]
    split <;> rfl
  have hby : ∀ styleID, claimByNode { w with claims := w.claims.setBelow id since } styleID
      n.coreNodeName = w.claimByNode styleID n.coreNodeName := by
    intro styleID
    unfold claimByNode ClaimTable.setBelow
    rw [List.find?_map, Option.map_map, hscan]
    congr 2
    funext c
    simp only [comp, stamp]
    split <;> rfl
  unfold findActiveClaim
  simp only [hby]

end CellWorld

/-- 列に端が残っている。 -/
def ClaimTable.Flagged (t : ClaimTable) (id : Int) : Prop :=
  ∀ c ∈ t.rows, c.id = id → c.belowReorderSince ≠ none
  deriving Decidable

theorem ClaimTable.flagged_setBelow {t : ClaimTable} {id id' : Int} (now : Nat)
    (h : id ≠ id' → t.Flagged id) : (t.setBelow id' (some now)).Flagged id := by
  intro c hc hid
  obtain ⟨d, hd, rfl⟩ := mem_map.mp hc
  rw [stamp_id] at hid
  unfold stamp
  split
  · nofun
  · next hne => exact h (hid ▸ hne) d hd hid

variable {n : CellNode} {w : CellWorld} {remaining : Int} {i : Nat} {c : NodeClaim} {t : TickInput}

/-! ## level -/

def NodeClaim.level (c : NodeClaim) : Int :=
  match c.role with
  | .consume => c.reorderPoint
  | .produce => c.uopCapacity

/-- level に達している。0 の level は使わないことを言う。 -/
def NodeClaim.AtLevel (c : NodeClaim) (remaining : Int) : Prop :=
  0 < c.level ∧ (c.role = .consume → remaining ≤ c.level) ∧
    (c.role = .produce → c.level ≤ remaining)
  deriving Decidable

/-- level に達した tick は端を書き、どの tick も端を消さず、閉じない。 -/
structure EdgeOk (c : NodeClaim) (remaining : Int) (edge : LevelEdge) : Prop where
  stamped : c.AtLevel remaining → ∃ now, edge.write = some (some now)
  kept : edge.write ≠ some none
  left : edge.shouldClose = false

variable {c : NodeClaim} {rt : RuntimeState}

theorem evaluateLevel_ok {breached : Bool} (now : Nat)
    (hat : c.AtLevel remaining → breached = true) :
    EdgeOk c remaining (evaluateLevel breached clear none now) := by
  cases hb : breached with
  | true => exact ⟨fun _ => ⟨now, rfl⟩, nofun, rfl⟩
  | false =>
    have hnot : ¬ c.AtLevel remaining := by
      intro hl
      rw [hat hl] at hb
      cases hb
    cases clear <;> exact ⟨fun hl => absurd hl hnot, nofun, rfl⟩

theorem guardedLevel_ok {point : Int} {breached : Prop} [Decidable breached] (now : Nat)
    (hat : c.AtLevel remaining → 0 < point ∧ breached) :
    EdgeOk c remaining (if point ≤ 0 then ⟨none, false, false⟩
      else evaluateLevel (decide breached) clear none now) := by
  split
  · exact ⟨fun hl => by have := (hat hl).1; omega, nofun, rfl⟩
  · exact evaluateLevel_ok now fun hl => decide_eq_true (hat hl).2

theorem evaluateCellLevel_ok (h : Hysteresis) (hrole : c.role = .consume)
    (hs : c.belowReorderSince = none) (remaining : Int) (now : Nat) :
    EdgeOk c remaining (evaluateCellLevel h c remaining now) := by
  rw [evaluateCellLevel, hs]
  exact guardedLevel_ok now (by simp [NodeClaim.AtLevel, level, hrole])

theorem evaluateProduceLevel_ok (h : Hysteresis) (hrole : c.role = .produce)
    (hs : c.belowReorderSince = none) (remaining : Int) (now : Nat) :
    EdgeOk c remaining (evaluateProduceLevel h c remaining now) := by
  rw [evaluateProduceLevel, hs]
  exact guardedLevel_ok now (by simp [NodeClaim.AtLevel, level, hrole])

/-! ## 一つの node の tick -/

theorem remaining_applyHoldAndReplay (t : Tick) (input : Int) :
    (NodeWorld.applyHoldAndReplay t.runtime t input true).remainingUOPCached
      = t.newRemaining input := by
  unfold NodeWorld.applyHoldAndReplay Tick.newRemaining
  rw [if_neg (by decide)]
  split
  · split <;> rfl
  · split <;> rfl

def CellWorld.setRuntime (w : CellWorld) (i : Nat) (n : CellNode) (rt : RuntimeState) : CellWorld :=
  { w with nodes := w.nodes.set i { n with runtime := rt } }

inductive TickResult (w : CellWorld) (i : Nat) (t : TickInput) : CellWorld → Prop
  | skipped : TickResult w i t w
  | counted (n : CellNode) (c : NodeClaim) (rt : RuntimeState)
      (hticked : w.ticked i t.styleID = some (n, c))
      (hlevel : c.AtLevel rt.remainingUOPCached → c.autoReorder = true →
        rt.remainingUOPCached = n.runtime.remainingUOPCached) :
      TickResult w i t (w.setRuntime i n rt)
  | evaluated (n : CellNode) (c : NodeClaim) (rt : RuntimeState) (edge : LevelEdge)
      (hticked : w.ticked i t.styleID = some (n, c))
      (hedge : EdgeOk c rt.remainingUOPCached edge) :
      TickResult w i t ((w.setRuntime i n rt).writeEdge c edge t.stampOk)

theorem EdgeOk.recoverEdge_eq (h : EdgeOk c remaining edge) (w : CellWorld) (t : TickInput) :
    w.recoverEdge c edge t = w.writeEdge c edge t.stampOk := by
  unfold recoverEdge
  rw [h.left]
  rfl

theorem CellWorld.ticked_some {styleID : Int} (h : w.ticked i styleID = some (n, c)) :
    w.nodes[i]? = some n ∧ w.findActiveClaim n = some c := by
  obtain ⟨n', hn, h⟩ := bind_eq_some_iff.mp h
  obtain ⟨c', hc, h⟩ := bind_eq_some_iff.mp h
  split at h
  · cases h
  · cases h
    exact ⟨hn, hc⟩

variable (h : Hysteresis)

section

variable (w : CellWorld) (hticked : w.ticked i t.styleID = some (n, c))
include hticked

theorem belowReorderSince_ticked : c.belowReorderSince = none := by
  obtain ⟨d, -, rfl⟩ := mem_of_findActiveClaim (ticked_some hticked).2
  rfl

theorem TickResult.not_level (hlevel : c.level ≤ 0) : TickResult w i t (w.setRuntime i n rt) :=
  .counted n c rt hticked fun hat => absurd hat.1 (Int.not_lt.mpr hlevel)

theorem TickResult.not_auto (hauto : c.autoReorder = false) :
    TickResult w i t (w.setRuntime i n rt) :=
  .counted n c rt hticked fun _ htrue => Bool.noConfusion (hauto.symm.trans htrue)

theorem TickResult.not_bound (role : TickRole) (input : Int)
    (hnone : n.runtime.activeBinID.isNone = true) :
    TickResult w i t (w.setRuntime i n
      (NodeWorld.applyHoldAndReplay n.runtime (n.tick role c t.delta) input true)) := by
  refine .counted n c _ hticked fun _ _ => ?_
  have hunbound : ¬ n.runtime.activeBinID.isSome = true := by
    rw [isNone_iff_eq_none.mp hnone]
    nofun
  exact (remaining_applyHoldAndReplay (n.tick role c t.delta) input).trans (if_neg hunbound)

variable (huop : t.uopOk = true)
include huop

theorem handleConsumeTick_result (hrole : c.role = .consume) :
    TickResult w i t (w.handleConsumeTick h i n c t) := by
  have hlevel : c.level = c.reorderPoint := by rw [level, hrole]
  have hok := evaluateCellLevel_ok h hrole (belowReorderSince_ticked w hticked)
  unfold handleConsumeTick
  dsimp only
  rw [huop]
  generalize NodeWorld.drainLinesideFirst (n.tick .consume c t.delta) t.drainQty t.drainOk = input
  rw [← remaining_applyHoldAndReplay (n.tick .consume c t.delta) input]
  split
  · next hauto => exact .not_auto w hticked hauto
  split
  · next hnone => exact .not_bound w hticked _ _ hnone
  split
  · next hpoint => exact .not_level w hticked (hlevel ▸ hpoint)
  split
  · exact .evaluated n c _ _ hticked (hok _ _)
  · rw [(hok _ _).recoverEdge_eq]
    exact .evaluated n c _ _ hticked (hok _ _)

theorem handleProduceTick_result (hrole : c.role = .produce) :
    TickResult w i t (w.handleProduceTick h i n c t) := by
  have hlevel : c.level = c.uopCapacity := by rw [level, hrole]
  have hok := evaluateProduceLevel_ok h hrole (belowReorderSince_ticked w hticked)
  unfold handleProduceTick
  dsimp only
  rw [huop, ← remaining_applyHoldAndReplay (n.tick .produce c t.delta) t.delta]
  split
  · next hoff =>
    rcases hoff with hauto | hcap
    · exact .not_auto w hticked hauto
    · exact .not_level w hticked (hlevel ▸ hcap)
  split
  · next hnone => exact .not_bound w hticked _ _ hnone
  split
  · rw [(hok _ _).recoverEdge_eq]
    exact .evaluated n c _ _ hticked (hok _ _)
  · exact .evaluated n c _ _ hticked (hok _ _)

end

theorem tickNode_result (w : CellWorld) (i : Nat)
    (huop : t.uopOk = true) : TickResult w i t (w.tickNode h i t) := by
  unfold tickNode
  split
  · exact .skipped
  rename_i n c hticked
  split
  · exact .skipped
  cases hrole : c.role with
  | consume => exact handleConsumeTick_result h w hticked huop hrole
  | produce => exact handleProduceTick_result h w hticked huop hrole

/-! ## 不変条件 -/

/-- level に達した node の claim には、列に端が残っている。 -/
def CellWorld.Covered (w : CellWorld) (n : CellNode) : Prop :=
  ∀ c ∈ w.findActiveClaim n, c.AtLevel n.runtime.remainingUOPCached → w.claims.Flagged c.id
  deriving Decidable

def CellRowOk (name key : String) (r : OpenOrigin) : Prop :=
  r.episodeKey = key ∧ r.content.kind = .cell ∧ r.content.processID = name
    ∧ ∃ role, r.content.direction = some role
      ∧ key = cellEpisodeKey name r.content.payloadCode role

structure CellInv (w : CellWorld) : Prop where
  covered : ∀ n ∈ w.nodes, w.Covered n
  rows : ∀ key r, (w.episodes key).row = some r → CellRowOk w.name key r

def recoveredCloses (e : EpisodeEdge) : Nat :=
  e.sent.countP fun m => m.closed.map EpisodeClose.reason == some .recovered

/--
動作の条件。

* tick の当たる claim は auto reorder で、tick の書き込みは失敗しない
* tick のほかに level へ達する変化は、端の残っている claim にしか起きない
* sweep のとき、効いている claim は active の style のもの
-/
def FlagsCover (w : CellWorld) : CellAction → Prop
  | .tick i t => (t.uopOk = true ∧ t.stampOk = true)
    ∧ ∀ nc ∈ w.ticked i t.styleID, nc.2.autoReorder = true ∨ nc.2.level ≤ 0
  | .fallthrough i t => ∀ n ∈ (w.fallthroughNode i t).nodes[i]?, (w.fallthroughNode i t).Covered n
  | .setNode i runtime activePull => ∀ n ∈ w.nodes[i]?,
    w.Covered { n with runtime, activePull }
  | .setStyles active target => ∀ n ∈ w.nodes,
    CellWorld.Covered { w with activeStyleID := active, targetStyleID := target } n
  | .request _ _ _ _ _ _ _ _ => True
  | .sweep _ => ∀ n ∈ w.nodes, ∀ c ∈ w.findActiveClaim n, w.activeStyleID = some c.styleID

instance (w : CellWorld) : ∀ a, Decidable (FlagsCover w a)
  | .tick _ _ => inferInstanceAs (Decidable ((_ ∧ _) ∧ ∀ _ ∈ _, _ ∨ _))
  | .fallthrough _ _ => inferInstanceAs (Decidable (∀ _ ∈ _, _))
  | .setNode _ _ _ => inferInstanceAs (Decidable (∀ _ ∈ _, _))
  | .setStyles _ _ => inferInstanceAs (Decidable (∀ _ ∈ _, _))
  | .request _ _ _ _ _ _ _ _ => .isTrue trivial
  | .sweep _ => inferInstanceAs (Decidable (∀ _ ∈ _, ∀ _ ∈ _, _))

/-- recovered で閉じた動作の後、同じ payload と役割の claim はどれも level に達していない。 -/
def ClosesOver (w : CellWorld) (a : CellAction) : Prop :=
  ∀ payload role,
    recoveredCloses (w.episodes (cellEpisodeKey w.name payload role))
      < recoveredCloses ((cellStep h w a).episodes (cellEpisodeKey w.name payload role)) →
    ∀ n ∈ (cellStep h w a).nodes, ∀ c, (cellStep h w a).findActiveClaim n = some c →
      c.payloadCode = payload → c.role = role → ¬ c.AtLevel n.runtime.remainingUOPCached

/-! ## 電文 -/

theorem recoveredCloses_emit_open (e : EpisodeEdge) (r : OpenOrigin) (ok : Bool) :
    recoveredCloses (e.emit (r.state none) ok) = recoveredCloses e := by
  cases ok with
  | false => rfl
  | true => exact countP_append.trans (Nat.add_zero _)

theorem recoveredCloses_request (e : EpisodeEdge) (key originID : String) (content : EpisodeContent)
    (ok : Bool) : recoveredCloses (e.request key originID content ok) = recoveredCloses e := by
  unfold EpisodeEdge.request
  split <;> exact recoveredCloses_emit_open _ _ _

theorem recoveredCloses_openCellEpisode (w : CellWorld) (c : NodeClaim) (originID : String)
    (content : EpisodeContent) (ok : Bool) (key : String) :
    recoveredCloses ((w.openCellEpisode c originID content ok).episodes key)
      = recoveredCloses (w.episodes key) := by
  unfold openCellEpisode
  split
  · rfl
  dsimp only
  by_cases hk : key = cellEpisodeKey w.name c.payloadCode c.role
  · rw [hk, update_self, recoveredCloses_request]
  · rw [update_of_ne hk]

/-! ## 開いた行 -/

theorem row_request {originID : String} {content : EpisodeContent}
    (h : (e.request key originID content ok).row = some r') :
    (∃ r, e.row = some r ∧ r' = r.join) ∨ r' = OpenOrigin.mint key originID content := by
  have hemit : ∀ (e : EpisodeEdge) st, (e.emit st ok).row = e.row := by
    intro e st
    cases ok <;> rfl
  unfold EpisodeEdge.request at h
  split at h
  · next r hr =>
    rw [hemit] at h
    exact .inl ⟨r, hr, (some.inj h).symm⟩
  · rw [hemit] at h
    exact .inr (some.inj h).symm

theorem row_close {closed : EpisodeClose} {deleteOk : Bool}
    (h : (e.close closed ok deleteOk).row = some r') : ∃ r, e.row = some r ∧ r' = r.bump := by
  unfold EpisodeEdge.close at h
  split at h
  · next hr =>
    rw [hr] at h
    cases h
  · next r hr =>
    split at h
    · cases h
    · refine ⟨r, hr, ?_⟩
      cases ok <;> exact (some.inj h).symm

namespace CellInv

variable {w : CellWorld}

theorem closeEpisode (h : CellInv w) (key : String) (closed : EpisodeClose) (ok deleteOk : Bool) :
    CellInv (w.closeEpisode key closed ok deleteOk) := by
  refine ⟨h.covered, fun key' r' hr' => ?_⟩
  by_cases hk : key' = key
  · subst hk
    rw [episodes_closeEpisode_self] at hr'
    obtain ⟨r, hr, rfl⟩ := row_close hr'
    exact h.rows key' r hr
  · rw [episodes_closeEpisode_of_ne w hk] at hr'
    exact h.rows key' r' hr'

theorem openCellEpisode (h : CellInv w) (c : NodeClaim) (originID trigger : String)
    (expectedOrders openedTotal : Int) (discretionary ok : Bool) (now : Nat) :
    CellInv (w.openCellEpisode c originID
      (w.cellContent c trigger expectedOrders openedTotal discretionary now) ok) := by
  unfold CellWorld.openCellEpisode
  split
  · exact h
  refine ⟨h.covered, fun key' r' hr' => ?_⟩
  by_cases hk : key' = cellEpisodeKey w.name c.payloadCode c.role
  · subst hk
    dsimp only at hr'
    rw [update_self] at hr'
    rcases row_request hr' with ⟨r, hr, rfl⟩ | rfl
    · exact h.rows _ r hr
    · exact ⟨rfl, rfl, rfl, c.role, rfl, rfl⟩
  · dsimp only at hr'
    rw [update_of_ne hk] at hr'
    exact h.rows key' r' hr'

end CellInv

/-! ## tick の後 -/

section

variable {w : CellWorld} {i : Nat} {n : CellNode} {c : NodeClaim}

theorem covered_setRuntime (h : ∀ m ∈ w.nodes, w.Covered m)
    (hnew : w.Covered { n with runtime := rt }) :
    ∀ m ∈ (w.setRuntime i n rt).nodes, (w.setRuntime i n rt).Covered m := by
  intro m hm
  rcases mem_or_eq_of_mem_set hm with hm | rfl
  · exact h m hm
  · exact hnew

theorem covered_writeEdge (h : ∀ m ∈ w.nodes, w.Covered m)
    (hc : w.findActiveClaim n = some c) (hedge : EdgeOk c rt.remainingUOPCached edge) :
    ∀ m ∈ ((w.setRuntime i n rt).writeEdge c edge true).nodes,
      ((w.setRuntime i n rt).writeEdge c edge true).Covered m := by
  unfold writeEdge
  match hw : edge.write with
  | none =>
    refine covered_setRuntime h fun d hd hat => ?_
    cases hd.symm.trans hc
    obtain ⟨now, hs⟩ := hedge.stamped hat
    rw [hw] at hs
    cases hs
  | some none => exact absurd hw hedge.kept
  | some (some now) =>
    intro m hm d hd hat
    replace hd : w.findActiveClaim m = some d :=
      (findActiveClaim_setBelow (w.setRuntime i n rt) c.id (some now) m).symm.trans hd
    refine ClaimTable.flagged_setBelow now fun hne => ?_
    rcases mem_or_eq_of_mem_set hm with hm | rfl
    · exact h m hm d hd hat
    · cases hd.symm.trans hc
      exact absurd rfl hne

end

/-- tick は不変条件を保ち、電文を送らない。 -/
theorem CellInv.tick {w' : CellWorld} (hinv : CellInv w) (hres : TickResult w i t w')
    (hok : FlagsCover w (.tick i t)) : CellInv w' ∧ w'.episodes = w.episodes := by
  obtain ⟨⟨-, hstamp⟩, hticks⟩ := hok
  cases hres with
  | skipped => exact ⟨hinv, rfl⟩
  | counted n c rt hticked hlevel =>
    obtain ⟨hn, hc⟩ := ticked_some hticked
    refine ⟨⟨covered_setRuntime hinv.covered fun d hd hat => ?_, hinv.rows⟩, rfl⟩
    cases hd.symm.trans hc
    rcases hticks _ hticked with hauto | hzero
    · dsimp only at hat
      rw [hlevel hat hauto] at hat
      exact hinv.covered n (mem_of_getElem? hn) c hc hat
    · exact absurd hat.1 (Int.not_lt.mpr hzero)
  | evaluated n c rt edge hticked hedge =>
    obtain ⟨-, hc⟩ := ticked_some hticked
    have hcovered := covered_writeEdge (i := i) hinv.covered hc hedge
    rw [hstamp]
    unfold writeEdge at hcovered ⊢
    split
    · next hw =>
      simp only [hw] at hcovered
      exact ⟨⟨hcovered, hinv.rows⟩, rfl⟩
    · next hw =>
      simp only [hw] at hcovered
      exact ⟨⟨hcovered, hinv.rows⟩, rfl⟩

/-! ## sweep の後 -/

theorem preconditionGone_clear {reason : CloseReason}
    (h : w.episodePreconditionGone ep = some reason) :
    ∀ c ∈ w.claimsOf ep, c.belowReorderSince = none := by
  unfold episodePreconditionGone at h
  split at h
  · unfold cellPreconditionGone at h
    split at h
    · cases h
    rename_i hany
    intro c hc
    by_contra hne
    refine hany (any_eq_true.mpr ⟨c, hc, ?_⟩)
    exact isSome_iff_ne_none.mpr hne
  · cases h

theorem CellInv.reconcile (h : CellInv w) (ep : OpenOrigin) (s : SweepInput) :
    CellInv (w.reconcile ep s) ∧ ∃ episodes, w.reconcile ep s = { w with episodes } := by
  unfold CellWorld.reconcile
  split
  · split
    · exact ⟨h, w.episodes, rfl⟩
    · exact ⟨h.closeEpisode _ _ _ _, _, rfl⟩
  · exact ⟨h, w.episodes, rfl⟩

theorem reconcile_recovered {s : SweepInput}
    (hlt : recoveredCloses (w.episodes key) < recoveredCloses ((w.reconcile ep s).episodes key)) :
    ep.episodeKey = key ∧ ∀ c ∈ w.claimsOf ep, c.belowReorderSince = none := by
  unfold reconcile at hlt
  split at hlt
  · split at hlt
    · exact absurd hlt (Nat.lt_irrefl _)
    rename_i reason hreason
    by_cases hk : key = ep.episodeKey
    · subst hk
      exact ⟨rfl, preconditionGone_clear hreason⟩
    · rw [episodes_closeEpisode_of_ne w hk] at hlt
      exact absurd hlt (Nat.lt_irrefl _)
  · exact absurd hlt (Nat.lt_irrefl _)

theorem CellInv.sweepRows (eps : List (OpenOrigin × SweepInput)) :
    ∀ {w : CellWorld}, CellInv w → (∀ p ∈ eps, ∃ key, CellRowOk w.name key p.1) →
      CellInv (eps.foldl (fun w p => w.reconcile p.1 p.2) w)
      ∧ (∃ episodes, eps.foldl (fun w p => w.reconcile p.1 p.2) w = { w with episodes })
      ∧ ∀ key, recoveredCloses (w.episodes key)
          < recoveredCloses ((eps.foldl (fun w p => w.reconcile p.1 p.2) w).episodes key) →
        ∃ ep, CellRowOk w.name key ep ∧ ∀ c ∈ w.claimsOf ep, c.belowReorderSince = none := by
  induction eps with
  | nil => exact fun h _ => ⟨h, ⟨_, rfl⟩, fun key hlt => absurd hlt (Nat.lt_irrefl _)⟩
  | cons p eps ih =>
    intro w h hrows
    obtain ⟨hinv, episodes, hframe⟩ := h.reconcile p.1 p.2
    have hrest : ∀ q ∈ eps, ∃ key, CellRowOk (w.reconcile p.1 p.2).name key q.1 := by
      intro q hq
      rw [hframe]
      exact hrows q (mem_cons_of_mem _ hq)
    obtain ⟨hinv', ⟨episodes', hframe'⟩, hcloses⟩ := ih hinv hrest
    refine ⟨hinv', ⟨episodes', ?_⟩, fun key hlt => ?_⟩
    · rw [foldl_cons, hframe', hframe]
    · by_cases hfirst : recoveredCloses (w.episodes key)
          < recoveredCloses ((w.reconcile p.1 p.2).episodes key)
      · obtain ⟨hkey, hnone⟩ := reconcile_recovered hfirst
        obtain ⟨key', hrow⟩ := hrows p mem_cons_self
        rw [← hkey, hrow.1]
        exact ⟨p.1, hrow, hnone⟩
      · obtain ⟨ep, hrow, hnone⟩ := hcloses key (by rw [foldl_cons] at hlt; omega)
        rw [hframe] at hrow hnone
        exact ⟨ep, hrow, hnone⟩

/-! ## 一歩と実行 -/

namespace CellInv

variable {h : Hysteresis} {w : CellWorld}

theorem listOpen_rows (hinv : CellInv w) (inputs : List SweepInput) :
    ∀ p ∈ w.listOpen inputs, ∃ key, CellRowOk w.name key p.1 := by
  intro p hp
  obtain ⟨s, -, hs⟩ := mem_filterMap.mp hp
  obtain ⟨ep, hep, rfl⟩ := map_eq_some_iff.mp hs
  exact ⟨s.key, hinv.rows s.key ep hep⟩

theorem fallthrough (hinv : CellInv w) (i : Nat) (t : TickInput)
    (hok : ∀ n ∈ (w.fallthroughNode i t).nodes[i]?, (w.fallthroughNode i t).Covered n) :
    CellInv (w.fallthroughNode i t) := by
  revert hok
  unfold fallthroughNode
  split
  · exact fun _ => hinv
  rename_i n c hticked
  intro hok
  obtain ⟨hn, -⟩ := ticked_some hticked
  obtain ⟨hlt, -⟩ := List.getElem?_eq_some_iff.mp hn
  refine ⟨covered_setRuntime hinv.covered ?_, hinv.rows⟩
  exact hok _ (List.getElem?_set_self hlt)

theorem setNode (hinv : CellInv w) (i : Nat) (runtime : RuntimeState) (activePull : Bool)
    (hok : FlagsCover w (.setNode i runtime activePull)) :
    CellInv (cellStep h w (.setNode i runtime activePull)) := by
  refine ⟨fun m hm => ?_, hinv.rows⟩
  obtain ⟨j, hj⟩ := mem_iff_getElem?.mp hm
  simp only [cellStep, List.getElem?_modify] at hj
  split at hj
  · next hij =>
    subst hij
    obtain ⟨n, hn, rfl⟩ := map_eq_some_iff.mp hj
    exact hok n hn
  · obtain ⟨n, hn, rfl⟩ := map_eq_some_iff.mp hj
    exact hinv.covered n (mem_of_getElem? hn)

theorem step (h : Hysteresis) (w : CellWorld) (a : CellAction) (hinv : CellInv w)
    (hok : FlagsCover w a) : CellInv (cellStep h w a) := by
  cases a with
  | tick i t => exact (hinv.tick (tickNode_result h w i hok.1.1) hok).1
  | fallthrough i t => exact hinv.fallthrough i t hok
  | setNode i runtime activePull => exact hinv.setNode i runtime activePull hok
  | setStyles active target => exact ⟨hok, hinv.rows⟩
  | request c originID trigger expectedOrders openedTotal discretionary enqueueOk now =>
    exact hinv.openCellEpisode c originID trigger expectedOrders openedTotal discretionary enqueueOk
      now
  | sweep inputs => exact (CellInv.sweepRows _ hinv (hinv.listOpen_rows inputs)).1

theorem closesOver (h : Hysteresis) (w : CellWorld) (a : CellAction) (hinv : CellInv w)
    (hok : FlagsCover w a) : ClosesOver h w a := by
  intro payload role hlt
  cases a with
  | tick i t =>
    have hsame := (hinv.tick (tickNode_result h w i hok.1.1) hok).2
    simp only [cellStep, hsame] at hlt
    exact absurd hlt (Nat.lt_irrefl _)
  | fallthrough i t =>
    have hsame : (w.fallthroughNode i t).episodes = w.episodes := by
      unfold fallthroughNode
      split <;> rfl
    simp only [cellStep, hsame] at hlt
    exact absurd hlt (Nat.lt_irrefl _)
  | setNode i runtime activePull | setStyles active target => exact absurd hlt (Nat.lt_irrefl _)
  | request c originID trigger expectedOrders openedTotal discretionary enqueueOk now =>
    have hsame := recoveredCloses_openCellEpisode w c originID
      (w.cellContent c trigger expectedOrders openedTotal discretionary now) enqueueOk
      (cellEpisodeKey w.name payload role)
    exact absurd (Nat.lt_of_lt_of_eq hlt hsame) (Nat.lt_irrefl _)
  | sweep inputs =>
    obtain ⟨-, ⟨episodes, hframe⟩, hcloses⟩ :=
      CellInv.sweepRows _ hinv (hinv.listOpen_rows inputs)
    obtain ⟨ep, hrow, hclear⟩ := hcloses _ hlt
    intro n hn c hc hpayload hrole hat
    simp only [cellStep, reconcileDemandEpisodes, hframe] at hn hc
    obtain ⟨-, -, hprocess, role', hdirection, hkey⟩ := hrow
    obtain ⟨hpay, rfl⟩ := cellEpisodeKey_inj hkey
    obtain ⟨d, hd, rfl⟩ := mem_of_findActiveClaim hc
    have hfind : w.findActiveClaim n = some (scanNodeClaim d) := hc
    have hstyle : w.activeStyleID = some d.styleID :=
      hok n hn (scanNodeClaim d) hfind
    have hmem : d ∈ w.claimsOf ep := by
      refine mem_filter.mpr ⟨hd, ?_⟩
      simp [hstyle, hprocess, hdirection, ← hpay, ← hpayload, ← hrole, scanNodeClaim]
    exact hinv.covered n hn (scanNodeClaim d) hfind hat d hd rfl (hclear d hmem)

end CellInv

/-- **cell の episode が recovered で閉じるのは、足りない claim が無くなった時。** -/
theorem recovered_only_when_over (h : Hysteresis) (w : CellWorld) (acts : List CellAction)
    (hcovered : ∀ n ∈ w.nodes, w.Covered n) (hnone : ∀ key, (w.episodes key).row = none)
    (hok : AllSteps (cellStep h) FlagsCover w acts) :
    AllSteps (cellStep h) (ClosesOver h) w acts := by
  refine AllSteps.of_inv (CellInv.step h) (CellInv.closesOver h) ⟨hcovered, ?_⟩ hok
  intro key r hr
  rw [hnone key] at hr
  cases hr

/-! ## auto reorder でない claim -/

def tenPercent : Hysteresis := ⟨false, fun reorderPoint => reorderPoint / 10⟩

def pressClaim (autoReorder : Bool) (id : Int) (coreNodeName pairedCoreNode : String) :
    NodeClaim where
  id := id
  styleID := 5
  coreNodeName := coreNodeName
  role := .consume
  manualSwap := false
  payloadCode := "P1"
  uopCapacity := 0
  reorderPoint := 10
  autoReorder := autoReorder
  pairedCoreNode := pairedCoreNode
  belowReorderSince := none

def holding (remaining : Int) : RuntimeState where
  activeBinID := some ⟨1, Int.one_pos⟩
  remainingUOPCached := remaining

/-- A が引いている A/B の対。 -/
def pressPair (autoReorder : Bool) (remaining : Int) : CellWorld where
  name := "PRESS"
  activeStyleID := some 5
  targetStyleID := none
  nodes := [⟨"A", holding remaining, true⟩, ⟨"B", holding 100, false⟩]
  claims := ⟨[pressClaim autoReorder 1 "A" "B", pressClaim autoReorder 2 "B" "A"],
    by cases autoReorder <;> decide⟩
  episodes := fun _ => ⟨none, []⟩

/-- 二つ引き、operator が要求し、sweep が回る。 -/
def pulledAndSwept (autoReorder : Bool) : List CellAction :=
  [.tick 0 ⟨5, 2, 0, true, true, true, true, true, 1⟩,
    .request (pressClaim autoReorder 1 "A" "B") "O1" "operator" 1 9 true true 1,
    .sweep [⟨cellEpisodeKey "PRESS" "P1" .consume, true, true, true, 2⟩]]

theorem recovered_only_when_over_press :
    AllSteps (cellStep tenPercent) FlagsCover (pressPair true 100) (pulledAndSwept true)
      ∧ AllSteps (cellStep tenPercent) (ClosesOver tenPercent) (pressPair true 100)
        (pulledAndSwept true)
      ∧ ((runSteps (cellStep tenPercent) (pressPair true 100) (pulledAndSwept true)).episodes
          (cellEpisodeKey "PRESS" "P1" .consume)).sent.map (fun m => (m.originID, m.closed))
        = [("O1", none), ("O1", some ⟨2, .recovered, some .sweep⟩)] :=
  ⟨by decide,
    recovered_only_when_over tenPercent (pressPair true 100) (pulledAndSwept true) (by decide)
      (fun _ => rfl) (by decide),
    by decide⟩

/-- auto reorder でない claim の tick は端を書かず、sweep が足りないままの episode を閉じる。 -/
theorem recovered_while_low :
    ((runSteps (cellStep tenPercent) (pressPair false 11) (pulledAndSwept false)).episodes
        (cellEpisodeKey "PRESS" "P1" .consume)).sent.map (fun m => (m.originID, m.closed))
      = [("O1", none), ("O1", some ⟨2, .recovered, some .sweep⟩)]
      ∧ (runSteps (cellStep tenPercent) (pressPair false 11) (pulledAndSwept false)).nodes.map
          (fun n => n.runtime.remainingUOPCached) = [9, 100]
      ∧ (runSteps (cellStep tenPercent) (pressPair false 11) (pulledAndSwept false)).claims.rows.map
          (fun c => (c.reorderPoint, c.belowReorderSince)) = [(10, none), (10, none)] := by
  decide

end Shingo.Edge
