import Shingo.Infra.Run
import Shingo.Core.ThresholdMonitor
import Shingo.Properties.DemandOrigins

/-!
# threshold の episode は、戻れば閉じる
-/

namespace Shingo.Core

open Infra Protocol List ThresholdMonitor Function Option

/-! ## 不変条件 -/

/-- 表の行は binding の場所の鍵を持ち、開いた行は場所に一つ。 -/
structure TableOk (m : ThresholdMonitor) : Prop where
  origins : OriginsInv m.rows
  keyed : ∀ r ∈ m.rows, r.state.episodeKey
    = thresholdEpisodeKey r.state.content.coreNodeName r.state.content.payloadCode

/-- 開いた行には印があり、二つの map は同じ鍵を持つ。 -/
structure Held (m : ThresholdMonitor) : Prop where
  table : TableOk m
  held : ∀ r ∈ m.rows, r.isOpen = true →
    m.openOrigins r.bindingKey = some (refOf r)
  synced : ∀ key, (m.belowThresholdSince key).isSome = (m.openOrigins key).isSome

variable {m : ThresholdMonitor} {r : DemandOrigin} {id key key' : String}

theorem Held.eq_of_bindingKey (h : Held m) {r' : DemandOrigin} (hr : r ∈ m.rows) (hr' : r' ∈ m.rows)
    (hopen : r.isOpen = true) (hopen' : r'.isOpen = true) (hkey : r.bindingKey = r'.bindingKey) :
    r = r' := by
  have heq := h.held r hr hopen
  rw [hkey, h.held r' hr' hopen'] at heq
  exact h.table.origins.eq_of_originID hr hr'
    (congrArg OpenEpisodeRef.originID (some.inj heq)).symm

theorem isSome_update_congr {α β : Type*} {f : String → Option α} {g : String → Option β}
    (h : ∀ key, (f key).isSome = (g key).isSome) (key : String) {x : Option α} {y : Option β}
    (hxy : x.isSome = y.isSome) (key' : String) :
    (update f key x key').isSome = (update g key y key').isSome := by
  by_cases hkey : key' = key
  · subst hkey
    rw [update_self, update_self]
    exact hxy
  · rw [update_of_ne hkey, update_of_ne hkey]
    exact h key'

/-! ## 開く -/

theorem openThresholdEpisode_cases (m : ThresholdMonitor) (b : ThresholdEntry) (total : Int)
    (inp : CheckInput) : m.openThresholdEpisode b total inp = m
      ∨ ∃ rows, m.belowThresholdSince b.key = none
        ∧ openCoreEpisode m.rows b.stationID inp.originID
            (thresholdEpisodeKey b.coreNodeName b.payloadCode) (thresholdContent b total inp)
            inp.usedEdgeReports = some rows
        ∧ m.openThresholdEpisode b total inp = { m with
            rows := rows
            belowThresholdSince := update m.belowThresholdSince b.key (some inp.now)
            openOrigins :=
              update m.openOrigins b.key (some ⟨inp.originID, b.payloadCode⟩) } := by
  unfold openThresholdEpisode
  split
  · exact .inl rfl
  rename_i hbelow
  cases inp.writeOk with
  | false => exact .inl rfl
  | true =>
    split
    · exact .inl rfl
    · next rows hrows =>
      exact .inr ⟨rows, not_isSome_iff_eq_none.mp hbelow, hrows, rfl⟩

theorem TableOk.openThresholdEpisode (h : TableOk m) (b : ThresholdEntry)
    (total : Int) (inp : CheckInput) : TableOk (m.openThresholdEpisode b total inp) := by
  rcases openThresholdEpisode_cases m b total inp with heq | ⟨rows, -, hrows, heq⟩
  · rw [heq]
    exact h
  · rw [heq]
    obtain ⟨horigins, rfl⟩ := h.origins.openCore hrows
    refine ⟨horigins, fun r hr => ?_⟩
    rcases mem_append_last.mp hr with hr | rfl
    · exact h.keyed r hr
    · rfl

theorem Held.openThresholdEpisode (h : Held m) (b : ThresholdEntry)
    (total : Int) (inp : CheckInput) : Held (m.openThresholdEpisode b total inp) := by
  have htable := h.table.openThresholdEpisode b total inp
  rcases openThresholdEpisode_cases m b total inp with heq | ⟨rows, hbelow, hrows, heq⟩
  · rw [heq]
    exact h
  · rw [heq] at htable ⊢
    obtain ⟨-, rfl⟩ := h.table.origins.openCore hrows
    refine ⟨htable, fun r hr hopen => ?_, fun key => ?_⟩
    · rcases mem_append_last.mp hr with hr | rfl
      · -- 前からの開いた行は別の鍵
        have hne : r.bindingKey ≠ b.key := by
          intro hkey
          have hsome := h.synced b.key
          rw [hbelow, ← hkey, h.held r hr hopen] at hsome
          cases hsome
        exact (update_of_ne hne ..).trans (h.held r hr hopen)
      · exact update_self ..
    · exact isSome_update_congr h.synced b.key rfl key

/-! ## 閉じる -/

theorem TableOk.closeByID {m' : ThresholdMonitor} (h : TableOk m) {closed : EpisodeClose}
    (hrows : m'.rows = closeDemandOriginByID m.rows id closed) : TableOk m' := by
  refine ⟨hrows ▸ h.origins.closeByID id closed, fun r hr => ?_⟩
  rw [hrows] at hr
  obtain ⟨r₀, hr₀, rfl⟩ := mem_updateWhere.mp hr
  split
  · exact h.keyed r₀ hr₀
  · exact h.keyed r₀ hr₀

theorem rows_dropHold (m : ThresholdMonitor) (key id : String) :
    (m.dropHold key id).rows = m.rows := by
  unfold dropHold
  split <;> rfl

theorem TableOk.closeRef (h : TableOk m) (key : String)
    (ref : OpenEpisodeRef) (closed : EpisodeClose) (writeOk : Bool) :
    TableOk (m.closeThresholdEpisodeRef key ref closed writeOk) := by
  have hdrop : TableOk (m.dropHold key ref.originID) := by
    refine ⟨?_, ?_⟩
    · rw [rows_dropHold]
      exact h.origins
    · rw [rows_dropHold]
      exact h.keyed
  unfold closeThresholdEpisodeRef
  split
  · exact hdrop.closeByID rfl
  · exact hdrop

theorem openOrigins_dropHold_of_ne {ref : OpenEpisodeRef} (hheld : m.openOrigins key' = some ref)
    (hne : ref.originID ≠ id) : (m.dropHold key id).openOrigins key' = some ref := by
  unfold dropHold
  split
  · next hhold =>
    have hkey : key' ≠ key := by
      rintro rfl
      rw [hheld] at hhold
      exact hne (some.inj hhold)
    exact (update_of_ne hkey ..).trans hheld
  · exact hheld

theorem Held.closeRef (h : Held m) (key : String) (ref : OpenEpisodeRef)
    (closed : EpisodeClose) : Held (m.closeThresholdEpisodeRef key ref closed true) := by
  refine ⟨h.table.closeRef key ref closed true, fun r hr hopen => ?_, fun key' => ?_⟩
  · have hr : r ∈ closeDemandOriginByID (m.dropHold key ref.originID).rows ref.originID closed := hr
    obtain ⟨hr, hne⟩ := mem_closeDemandOriginByID hr hopen
    rw [rows_dropHold] at hr
    exact openOrigins_dropHold_of_ne (h.held r hr hopen) hne
  · show ((m.dropHold key ref.originID).belowThresholdSince key').isSome
      = ((m.dropHold key ref.originID).openOrigins key').isSome
    unfold dropHold
    split
    · exact isSome_update_congr h.synced key rfl key'
    · exact h.synced key'

theorem openOrigins_closeRef_none (h : m.openOrigins key' = none) (key : String)
    (ref : OpenEpisodeRef) (closed : EpisodeClose) (writeOk : Bool) :
    (m.closeThresholdEpisodeRef key ref closed writeOk).openOrigins key' = none := by
  have hdrop : (m.dropHold key ref.originID).openOrigins key' = none := by
    unfold dropHold
    split
    · by_cases hkey : key' = key
      · subst hkey
        exact update_self ..
      · exact (update_of_ne hkey ..).trans h
    · exact h
  unfold closeThresholdEpisodeRef
  split <;> exact hdrop

theorem openOrigins_closeThresholdEpisode (m : ThresholdMonitor) (key : String)
    (closed : EpisodeClose) (writeOk : Bool) :
    (m.closeThresholdEpisode key closed writeOk).openOrigins key = none := by
  unfold closeThresholdEpisode
  split
  · next hnone => exact hnone
  rename_i ref href
  have hdrop : (m.dropHold key ref.originID).openOrigins key = none := by
    unfold dropHold
    rw [href, map_some, if_pos rfl]
    exact update_self ..
  unfold closeThresholdEpisodeRef
  split <;> exact hdrop

/-! ## 開く文と閉じる文の列 -/

/--
評価、設定の変化、sweep は、episode を開く文と閉じる文の列。`opens` を満たす binding で開き、
書き込みが `writes` を満たして閉じる文が `P` を保てば、どの列も `P` を保つ。
-/
structure KeptBy (P : ThresholdMonitor → Prop) (opens : ThresholdEntry → Prop)
    (writes : Bool → Prop) : Prop where
  closeRef : ∀ m key ref closed writeOk, writes writeOk → P m →
    P (closeThresholdEpisodeRef m key ref closed writeOk)
  openEpisode : ∀ m b total inp, opens b → P m →
    P (openThresholdEpisode m b total inp)

namespace KeptBy

variable {P : ThresholdMonitor → Prop} {opens : ThresholdEntry → Prop} {writes : Bool → Prop}
  {m : ThresholdMonitor}

section

variable (k : KeptBy P opens writes) (h : P m)
include k h

theorem closeThresholdEpisode (key : String) (closed : EpisodeClose) {writeOk : Bool}
    (hw : writes writeOk) : P (m.closeThresholdEpisode key closed writeOk) := by
  unfold ThresholdMonitor.closeThresholdEpisode
  split
  · exact h
  · exact k.closeRef _ _ _ _ _ hw h

variable {total : Int} {failed : List String}

theorem checkBinding {b : ThresholdEntry} {inp : CheckInput}
    (hw : 0 < b.threshold → b.threshold ≤ total → writes inp.writeOk)
    (ho : total < b.threshold → opens b) : P (m.checkBinding b total inp) := by
  unfold ThresholdMonitor.checkBinding
  split
  · exact h
  rename_i hpos
  split
  · next hge => exact k.closeThresholdEpisode h _ _ (hw (Int.not_le.mp hpos) hge)
  · next hlt => exact k.openEpisode _ _ _ _ (ho (Int.not_le.mp hlt)) h

theorem checkBindings {bindings : List (ThresholdEntry × CheckInput)}
    (hw : ∀ p ∈ bindings, 0 < p.1.threshold → p.1.threshold ≤ total → writes p.2.writeOk)
    (ho : ∀ p ∈ bindings, total < p.1.threshold → opens p.1) : P (m.checkBindings bindings total) :=
  List.foldlRecOn bindings _ h fun _ hm p hp => k.checkBinding hm (hw p hp) (ho p hp)

theorem notIn (candidates : List (String × OpenEpisodeRef)) (live : List String)
    (closedBy : ClosedBy) (now : Nat) (hw : ∀ key, writes (!failed.contains key)) :
    P (m.closeThresholdEpisodesNotIn candidates live closedBy now failed) := by
  refine List.foldlRecOn _ _ h fun m' hm p _ => ?_
  exact k.closeRef m' p.1 p.2 _ _ (hw p.1) hm

theorem changed (keys : List String) (now : Nat) (hw : ∀ key, writes (!failed.contains key)) :
    P (m.closeThresholdEpisodesForChangedBindings keys now failed) :=
  List.foldlRecOn keys _ h fun _ hm key _ => k.closeThresholdEpisode hm _ _ (hw key)

end

end KeptBy

theorem TableOk.keptBy : KeptBy TableOk (fun _ => True) (fun _ => True) where
  closeRef _ key ref closed writeOk _ h := h.closeRef key ref closed writeOk
  openEpisode _ b total inp _ h := h.openThresholdEpisode b total inp

theorem Held.keptBy : KeptBy Held (fun _ => True) (fun writeOk => writeOk = true) where
  closeRef _ key ref closed writeOk hw h := by
    rw [hw]
    exact h.closeRef key ref closed
  openEpisode _ b total inp _ h := h.openThresholdEpisode b total inp

theorem released_keptBy (key : String) :
    KeptBy (fun m => m.openOrigins key = none) (fun b => b.key ≠ key) (fun _ => True) where
  closeRef m key' ref closed writeOk _ h := openOrigins_closeRef_none h key' ref closed writeOk
  openEpisode m b total inp hne h := by
    rcases openThresholdEpisode_cases m b total inp with heq | ⟨rows, -, -, heq⟩
    · rw [heq]
      exact h
    · rw [heq]
      exact (update_of_ne (Ne.symm hne) ..).trans h

/-! ## 一歩 -/

theorem rows_childless (m : ThresholdMonitor) (children : String → Nat) (recent : String → Bool)
    (cutoff now : Nat) (failed : List String) (P : List DemandOrigin → Prop) (h : P m.rows)
    (hclose : ∀ rows id closed, P rows → P (closeDemandOriginByID rows id closed)) :
    P (m.reconcileChildlessEpisodes children recent cutoff now failed).rows := by
  refine List.foldlRecOn _ _ h fun rows hrows r _ => ?_
  split
  · exact hrows
  · exact hclose rows _ _ hrows

theorem TableOk.step (m : ThresholdMonitor) (a : MonitorAction) (h : TableOk m) :
    TableOk (monitorStep m a) := by
  cases a with
  | check bindings total =>
    exact TableOk.keptBy.checkBindings h (fun _ _ _ _ => trivial) (fun _ _ _ => trivial)
  | sync registry => exact ⟨h.origins, h.keyed⟩
  | engage payload keys now failed =>
    exact TableOk.keptBy.notIn h _ _ _ _ fun _ => trivial
  | changed keys now failed => exact TableOk.keptBy.changed h _ _ fun _ => trivial
  | sweep now failed => exact TableOk.keptBy.notIn h _ _ _ _ fun _ => trivial
  | childless children recent cutoff now failed =>
    have hrows := rows_childless m children recent cutoff now failed
      (fun rows => TableOk { m with rows }) h fun rows id closed hrows => hrows.closeByID rfl
    exact ⟨hrows.origins, hrows.keyed⟩
  | restart readOk => exact ⟨h.origins, h.keyed⟩

/--
動作の条件。閉じる書き込みは失敗せず、起動し直したときの表の読みも失敗しない。
開く書き込みはいくつ失敗してもよい。
-/
def ClosesWrite : ThresholdMonitor → MonitorAction → Prop
  | _, .check bindings total => ∀ p ∈ bindings, 0 < p.1.threshold → p.1.threshold ≤ total →
    p.2.writeOk = true
  | _, .sync _ => True
  | _, .engage _ _ _ failed => failed = []
  | _, .changed _ _ failed => failed = []
  | _, .sweep _ failed => failed = []
  | _, .childless _ _ _ _ _ => True
  | _, .restart readOk => readOk = true

instance (m : ThresholdMonitor) : ∀ a, Decidable (ClosesWrite m a)
  | .check _ _ => inferInstanceAs (Decidable (∀ _ ∈ _, _ → _ → _))
  | .sync _ => .isTrue trivial
  | .engage _ _ _ failed => inferInstanceAs (Decidable (failed = []))
  | .changed _ _ failed => inferInstanceAs (Decidable (failed = []))
  | .sweep _ failed => inferInstanceAs (Decidable (failed = []))
  | .childless _ _ _ _ _ => .isTrue trivial
  | .restart readOk => inferInstanceAs (Decidable (readOk = true))

variable {m : ThresholdMonitor}

theorem openRow_some (h : m.openRow key = some r) :
    r ∈ m.rows ∧ r.isOpen = true ∧ r.bindingKey = key := by
  obtain ⟨hr, hopen⟩ := mem_filter.mp (mem_reverse.mp (mem_of_find?_eq_some h))
  have hkey := List.find?_some h
  exact ⟨hr, hopen, beq_iff_eq.mp hkey⟩

theorem openRow_of_open (hr : r ∈ m.rows) (hopen : r.isOpen = true) :
    ∃ r', m.openRow r.bindingKey = some r' := by
  unfold openRow
  rw [← isSome_iff_exists, List.find?_isSome]
  exact ⟨r, mem_reverse.mpr (mem_filter.mpr ⟨hr, hopen⟩), beq_iff_eq.mpr rfl⟩

theorem Held.restart (h : Held m) : Held (m.restart true) := by
  refine ⟨⟨h.table.origins, h.table.keyed⟩, fun r hr hopen => ?_, fun key => ?_⟩
  · have hr : r ∈ m.rows := hr
    obtain ⟨r', hr'⟩ := openRow_of_open hr hopen
    obtain ⟨hmem, hopen', hkey⟩ := openRow_some hr'
    show (m.openRow r.bindingKey).map refOf = _
    rw [hr', h.eq_of_bindingKey hmem hr hopen' hopen hkey]
    rfl
  · show ((m.openRow key).map _).isSome = ((m.openRow key).map _).isSome
    rw [isSome_map, isSome_map]

theorem Held.step (m : ThresholdMonitor) (a : MonitorAction) (h : Held m) (hok : ClosesWrite m a) :
    Held (monitorStep m a) := by
  have hwrite : ∀ {failed : List String}, failed = [] → ∀ key, (!failed.contains key) = true := by
    rintro _ rfl key
    rfl
  cases a with
  | check bindings total => exact Held.keptBy.checkBindings h hok (fun _ _ _ => trivial)
  | sync registry => exact ⟨⟨h.table.origins, h.table.keyed⟩, h.held, h.synced⟩
  | engage payload keys now failed => exact Held.keptBy.notIn h _ _ _ _ (hwrite hok)
  | changed keys now failed => exact Held.keptBy.changed h _ _ (hwrite hok)
  | sweep now failed => exact Held.keptBy.notIn h _ _ _ _ (hwrite hok)
  | childless children recent cutoff now failed =>
    have hrows := rows_childless m children recent cutoff now failed
      (fun rows => ∀ r ∈ rows, r.isOpen = true →
        m.openOrigins r.bindingKey = some (refOf r)) h.held
      fun rows id closed hrows r hr hopen =>
        hrows r (mem_closeDemandOriginByID hr hopen).1 hopen
    exact ⟨TableOk.step m (.childless children recent cutoff now failed) h.table, hrows, h.synced⟩
  | restart readOk =>
    cases hok
    exact h.restart

/-! ## 戻った後 -/

variable (b : ThresholdEntry)

def ForBinding (r : DemandOrigin) : Prop :=
  r.stationID = b.stationID ∧ r.state.content.coreNodeName = b.coreNodeName
    ∧ r.state.content.payloadCode = b.payloadCode

/-- 動作が binding を評価するなら、total は threshold 以上。 -/
def Recovered : MonitorAction → Prop
  | .check bindings total => ∀ p ∈ bindings, p.1.key = b.key → p.1.threshold ≤ total
  | _ => True

def Evaluates (a : MonitorAction) : Prop :=
  ∃ bindings total inp, a = .check bindings total ∧ (b, inp) ∈ bindings

theorem released_step (m : ThresholdMonitor) (a : MonitorAction) (h : Held m)
    (hcalm : Recovered b a) (hnone : m.openOrigins b.key = none)
    (hok : ClosesWrite m a) : (monitorStep m a).openOrigins b.key = none := by
  have k := released_keptBy b.key
  cases a with
  | check bindings total =>
    refine k.checkBindings hnone (fun _ _ _ _ => trivial) fun p hp hlt hkey => ?_
    exact absurd (hcalm p hp hkey) (Int.not_le.mpr hlt)
  | sync registry => exact hnone
  | engage payload keys now failed => exact k.notIn hnone _ _ _ _ fun _ => trivial
  | changed keys now failed => exact k.changed hnone _ _ fun _ => trivial
  | sweep now failed => exact k.notIn hnone _ _ _ _ fun _ => trivial
  | childless children recent cutoff now failed => exact hnone
  | restart readOk =>
    cases hok
    cases hrow : m.openRow b.key with
    | none =>
      show (m.openRow b.key).map refOf = none
      rw [hrow]
      rfl
    | some r =>
      obtain ⟨hr, hopen, hkey⟩ := openRow_some hrow
      have hheld := h.held r hr hopen
      rw [hkey, hnone] at hheld
      cases hheld

theorem evaluates_step (hpos : 0 < b.threshold) (m : ThresholdMonitor)
    (a : MonitorAction) (hcalm : Recovered b a) (hfire : Evaluates b a) :
    (monitorStep m a).openOrigins b.key = none := by
  obtain ⟨bindings, total, inp, rfl, hb⟩ := hfire
  obtain ⟨before, after, rfl⟩ := append_of_mem hb
  show (List.foldl _ m (before ++ (b, inp) :: after)).openOrigins b.key = none
  rw [foldl_append, foldl_cons]
  refine (released_keptBy b.key).checkBindings ?_ (fun _ _ _ _ => trivial) fun p hp hlt hkey => ?_
  · dsimp only
    rw [checkBinding, if_neg (Int.not_le.mpr hpos), if_pos (hcalm _ hb rfl)]
    exact openOrigins_closeThresholdEpisode _ _ _ _
  · have hp : p ∈ before ++ (b, inp) :: after :=
      mem_append_right _ (mem_cons_of_mem _ hp)
    exact absurd (hcalm p hp hkey) (Int.not_le.mpr hlt)

theorem Held.start (registry : List ThresholdEntry) : Held (start registry) where
  table := ⟨⟨nodup_nil, forall_mem_nil _⟩,
    forall_mem_nil _⟩
  held := forall_mem_nil _
  synced _ := rfl

/-- **threshold の episode は、戻れば閉じる。** -/
theorem threshold_episodes_close (registry : List ThresholdEntry) (pre suf : List MonitorAction)
    (b : ThresholdEntry) (hpos : 0 < b.threshold) :
    (∀ m ∈ visited monitorStep (start registry) (pre ++ suf),
      ∀ r ∈ m.rows, ∀ r' ∈ m.rows, r.isOpen = true → r'.isOpen = true →
        ForBinding b r → ForBinding b r' → r = r')
      ∧ (AllSteps monitorStep ClosesWrite (start registry) (pre ++ suf) →
        (∀ a ∈ suf, Recovered b a) → (∃ a ∈ suf, Evaluates b a) →
        ∀ r ∈ (runSteps monitorStep (start registry) (pre ++ suf)).rows,
          ForBinding b r → r.isOpen = false) := by
  refine ⟨?_, ?_⟩
  · intro m hm r hr r' hr' hopen hopen' hb hb'
    have h := visited_of_inv TableOk.step (Held.start registry).table m hm
    refine h.origins.eq_of_originID hr hr' (h.origins.openOne r hr r' hr' hopen hopen' ?_)
    rw [h.keyed r hr, h.keyed r' hr', hb.2.1, hb.2.2, hb'.2.1, hb'.2.2]
  · intro hok hcalm hfires r hr hb
    obtain ⟨h, hnone⟩ := AllSteps.settles Held.step
      (fun m a h hok hcalm hnone => released_step b m a h hcalm hnone hok)
      (fun m a _ _ hcalm hfire => evaluates_step b hpos m a hcalm hfire)
      (Held.start registry) hok hcalm hfires
    cases hopen : r.isOpen with
    | false => rfl
    | true =>
      have hheld := h.held r hr hopen
      rw [DemandOrigin.bindingKey, hb.1, hb.2.1, hb.2.2] at hheld
      cases hnone.symm.trans hheld

/-! ## loader の binding -/

def loaderBinding : ThresholdEntry := ⟨"ST", "L1", "P1", 100⟩

def evaluated (total : Int) (writeOk : Bool) (now : Nat) : MonitorAction :=
  .check [(loaderBinding, ⟨"O1", .capacity 20, false, writeOk, now⟩)] total

theorem threshold_episodes_close_recovers :
    (AllSteps monitorStep ClosesWrite (start [loaderBinding])
        ([evaluated 50 true 1, .sweep 2 []] ++ [evaluated 200 true 3, .sweep 4 []]))
      ∧ (∃ r ∈ (runSteps monitorStep (start [loaderBinding])
          [evaluated 50 true 1, .sweep 2 []]).rows, r.isOpen = true)
      ∧ ∀ r ∈ (runSteps monitorStep (start [loaderBinding])
          ([evaluated 50 true 1, .sweep 2 []] ++ [evaluated 200 true 3, .sweep 4 []])).rows,
        ForBinding loaderBinding r → r.isOpen = false := by
  refine ⟨by decide, by decide, ?_⟩
  refine (threshold_episodes_close [loaderBinding] _ _ loaderBinding (by decide)).2
    (by decide) ?_ ?_
  · intro a ha
    rcases mem_cons.mp ha with rfl | ha
    · intro p hp _
      rw [mem_singleton.mp hp]
      decide
    · rw [mem_singleton.mp ha]
      trivial
  · exact ⟨_, mem_cons_self, _, _, _, rfl, mem_singleton_self _⟩

def closeFailsOnce : List MonitorAction := [evaluated 50 true 1, evaluated 200 false 2]

def quietRound : List MonitorAction :=
  [evaluated 200 true 3, .sweep 4 [], .childless (fun _ => 1) (fun _ => true) 4 4 []]

theorem quietRounds_leave_open (n : Nat) : (runSteps monitorStep (start [loaderBinding])
        (closeFailsOnce ++ (List.replicate n quietRound).flatten)).rows.map
      (fun r => (r.originID, r.isOpen)) = [("O1", true)] := by
  have hround : runSteps monitorStep
      (runSteps monitorStep (start [loaderBinding]) closeFailsOnce) quietRound
      = runSteps monitorStep (start [loaderBinding]) closeFailsOnce := by
    rfl
  have hrun : runSteps monitorStep (start [loaderBinding])
      (closeFailsOnce ++ (List.replicate n quietRound).flatten)
      = runSteps monitorStep (start [loaderBinding]) closeFailsOnce := by
    induction n with
    | zero => rfl
    | succ n ih =>
      exact ih
  rw [hrun]
  decide

/-- 三回り評価され sweep されても、閉じ損ねた行は開いている。 -/
theorem failed_close_strands :
    (runSteps monitorStep (start [loaderBinding])
        (closeFailsOnce ++ (List.replicate 3 quietRound).flatten)).rows.map
      (fun r => (r.originID, r.isOpen)) = [("O1", true)] :=
  quietRounds_leave_open 3

end Shingo.Core
