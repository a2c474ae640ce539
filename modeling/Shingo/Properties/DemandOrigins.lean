import Mathlib.Data.List.Induction
import Shingo.Core.DemandOrigins
import Shingo.Infra.Run

/-!
# core の `demand_origins` の一行

電文と core 自身の書き込みが、表のどの行をどう変えるか。
-/

namespace Shingo.Core

open Infra Protocol List Bool

/-! ## 表の不変条件 -/

/-- 行の `origin_id` は重ならず、開いた行は場所ごとに一つの episode のもの。 -/
structure OriginsInv (rows : List DemandOrigin) : Prop where
  ids : (rows.map DemandOrigin.originID).Nodup
  openOne : ∀ a ∈ rows, ∀ b ∈ rows, a.isOpen = true → b.isOpen = true →
    a.state.episodeKey = b.state.episodeKey → a.originID = b.originID

variable {rows : List DemandOrigin} {a b : DemandOrigin} {key id : String}
  {rows' : List DemandOrigin}

theorem OriginsInv.eq_of_originID (h : OriginsInv rows) (ha : a ∈ rows) (hb : b ∈ rows)
    (hid : a.originID = b.originID) : a = b :=
  inj_on_of_nodup_map h.ids ha hb hid

theorem OriginsInv.openUnique (h : OriginsInv rows) : OpenUnique rows := by
  have hne : rows.Pairwise fun a b => a.originID ≠ b.originID := pairwise_map.mp h.ids
  refine List.Pairwise.imp_of_mem ?_ hne
  intro a b ha hb hid hao hbo hkey
  exact hid (h.openOne a ha b hb hao hbo hkey)

theorem mem_supersedeOpenEpisode {t : Nat} {r' : DemandOrigin}
    (h : r' ∈ supersedeOpenEpisode rows key id t) :
    ∃ r ∈ rows, (r.state.episodeKey = key ∧ r.originID ≠ id ∧ r.isOpen = true
        ∧ r' = superseded t r)
      ∨ (r' = r ∧ ¬ (r.state.episodeKey = key ∧ r.originID ≠ id ∧ r.isOpen = true)) := by
  obtain ⟨r, hr, rfl⟩ := mem_updateWhere.mp h
  refine ⟨r, hr, ?_⟩
  split
  · next hsel =>
    rw [and_eq_true, and_eq_true, beq_iff_eq, bne_iff_ne] at hsel
    exact Or.inl ⟨hsel.1, hsel.2.1, hsel.2.2, rfl⟩
  · next hsel =>
    rw [and_eq_true, and_eq_true, beq_iff_eq, bne_iff_ne] at hsel
    exact Or.inr ⟨rfl, hsel⟩

theorem originID_supersedeOpenEpisode (rows : List DemandOrigin) (key id : String) (t : Nat) :
    (supersedeOpenEpisode rows key id t).map DemandOrigin.originID
      = rows.map DemandOrigin.originID := by
  have hsame : ∀ r : DemandOrigin, (superseded t r).originID = r.originID := fun _ => rfl
  exact map_updateWhere (fun r _ => hsame r) rows

theorem OriginsInv.of_open (h : OriginsInv rows)
    (hids : rows'.map DemandOrigin.originID = rows.map DemandOrigin.originID)
    (hopen : ∀ r ∈ rows', r.isOpen = true → r ∈ rows) : OriginsInv rows' :=
  ⟨hids ▸ h.ids, fun a ha b hb hao hbo =>
    h.openOne a (hopen a ha hao) b (hopen b hb hbo) hao hbo⟩

theorem OriginsInv.supersede (h : OriginsInv rows) (key id : String) (t : Nat) :
    OriginsInv (supersedeOpenEpisode rows key id t)
      ∧ ∀ r ∈ supersedeOpenEpisode rows key id t, r.isOpen = true → r.state.episodeKey = key →
        r.originID = id := by
  have hkept : ∀ r' ∈ supersedeOpenEpisode rows key id t, r'.isOpen = true →
      r' ∈ rows ∧ ¬ (r'.state.episodeKey = key ∧ r'.originID ≠ id) := by
    intro r' hr' hopen
    obtain ⟨r, hr, ⟨-, -, -, rfl⟩ | ⟨rfl, hnot⟩⟩ := mem_supersedeOpenEpisode hr'
    · cases hopen
    · exact ⟨hr, fun hk => hnot ⟨hk.1, hk.2, hopen⟩⟩
  refine ⟨h.of_open (originID_supersedeOpenEpisode rows key id t)
    fun r hr ho => (hkept r hr ho).1, fun r hr hopen hkey => ?_⟩
  by_contra hid
  exact (hkept r hr hopen).2 ⟨hkey, hid⟩

inductive Upserted (rows : List DemandOrigin) (st : DemandOriginState) (r' : DemandOrigin) :
    Prop where
  | written (hstate : r'.state = st)
      (hnewer : ∀ r ∈ rows, r.originID = st.originID → r.state.revision < st.revision)
  | kept (hmem : r' ∈ rows) (hold : r'.originID = st.originID → st.revision ≤ r'.state.revision)

/-- `rows'` の行はどれも `P` で、元の行と電文の episode は残っている。 -/
structure Received (rows : List DemandOrigin) (st : DemandOriginState) (P : DemandOrigin → Prop)
    (rows' : List DemandOrigin) : Prop where
  inv : OriginsInv rows'
  cases : ∀ r' ∈ rows', P r'
  ids : ∀ id, id = st.originID ∨ (∃ r ∈ rows, r.originID = id) → ∃ r' ∈ rows', r'.originID = id

variable {st : DemandOriginState}

section

variable (h : OriginsInv rows) (hroom : st.closed = none → ∀ r ∈ rows, r.isOpen = true →
    r.state.episodeKey = st.episodeKey → r.originID = st.originID)
include h hroom

theorem OriginsInv.openOne_upserted (ha : Upserted rows st a) (hb : Upserted rows st b)
    (hao : a.isOpen = true) (hbo : b.isOpen = true)
    (hkey : a.state.episodeKey = b.state.episodeKey) : a.originID = b.originID := by
  have hid : ∀ {r : DemandOrigin}, r.state = st → r.originID = st.originID := fun hr =>
    congrArg DemandOriginState.originID hr
  have hopen : ∀ {r : DemandOrigin}, r.state = st → r.isOpen = true → st.closed = none := by
    intro r hr ho
    rw [← hr]
    exact Option.isNone_iff_eq_none.mp ho
  cases ha with
  | written hsa _ =>
    cases hb with
    | written hsb _ => exact (hid hsa).trans (hid hsb).symm
    | kept hmb _ =>
      rw [hsa] at hkey
      exact (hid hsa).trans (hroom (hopen hsa hao) b hmb hbo hkey.symm).symm
  | kept hma _ =>
    cases hb with
    | written hsb _ =>
      rw [hsb] at hkey
      exact (hroom (hopen hsb hbo) a hma hao hkey).trans (hid hsb).symm
    | kept hmb _ => exact h.openOne a hma b hmb hao hbo hkey

theorem OriginsInv.upsert (station : String) :
    ∃ rows', upsertDemandOrigin rows station st = some rows' ∧
      Received rows st (Upserted rows st) rows' := by
  have hdone : ∀ rows' : List DemandOrigin, (rows'.map DemandOrigin.originID).Nodup →
      (∀ r' ∈ rows', Upserted rows st r') →
      (∀ id, id = st.originID ∨ (∃ r ∈ rows, r.originID = id) → ∃ r' ∈ rows', r'.originID = id) →
      ∃ rows'', (if OpenUnique rows' then some rows' else none) = some rows'' ∧
        Received rows st (Upserted rows st) rows'' := by
    intro rows' hids hups hex
    have hinv : OriginsInv rows' := ⟨hids, fun a ha b hb hao hbo hkey =>
      h.openOne_upserted hroom (hups a ha) (hups b hb) hao hbo hkey⟩
    exact ⟨rows', if_pos hinv.openUnique, hinv, hups, hex⟩
  unfold upsertDemandOrigin
  by_cases hany : rows.any (fun r => r.originID == st.originID) = true
  · -- 行がある。書くのは revision の小さい行だけ
    rw [if_pos hany]
    obtain ⟨r₀, hr₀, hid₀⟩ := any_eq_true.mp hany
    rw [beq_iff_eq] at hid₀
    have hids : (updateWhere (fun r => r.originID == st.originID
          && decide (r.state.revision < st.revision))
        (fun r => { r with state := st, stationID := station }) rows).map DemandOrigin.originID =
          rows.map DemandOrigin.originID := by
      refine map_updateWhere (fun r hsel => ?_) rows
      rw [and_eq_true, beq_iff_eq] at hsel
      exact hsel.1.symm
    refine hdone _ (hids ▸ h.ids) ?_ fun id hid => ?_
    · intro r' hr'
      obtain ⟨r, hr, rfl⟩ := mem_updateWhere.mp hr'
      split
      · next hsel =>
        rw [and_eq_true, beq_iff_eq, decide_eq_true_eq] at hsel
        refine .written rfl fun x hx hxid => ?_
        rw [h.eq_of_originID hx hr (hxid.trans hsel.1.symm)]
        exact hsel.2
      · next hsel =>
        rw [and_eq_true, beq_iff_eq, decide_eq_true_eq] at hsel
        exact .kept hr fun hid => Nat.not_lt.mp fun hlt => hsel ⟨hid, hlt⟩
    · rw [← mem_map, hids, mem_map]
      rcases hid with rfl | hid
      · exact ⟨r₀, hr₀, hid₀⟩
      · exact hid
  · rw [if_neg hany]
    have hnew : ∀ r ∈ rows, r.originID ≠ st.originID := by
      intro r hr hid
      exact hany (any_eq_true.mpr ⟨r, hr, beq_iff_eq.mpr hid⟩)
    refine hdone _ ?_ ?_ ?_
    · exact nodup_map_concat h.ids hnew
    · intro r' hr'
      rcases mem_append.mp hr' with hr' | hr'
      · exact .kept hr' fun hid => absurd hid (hnew r' hr')
      · rw [mem_singleton.mp hr']
        exact .written rfl fun r hr hid => absurd hid (hnew r hr)
    · rintro id (rfl | ⟨r, hr, rfl⟩)
      · exact ⟨_, mem_append_right _ (mem_singleton_self _), rfl⟩
      · exact ⟨r, mem_append_left _ hr, rfl⟩

end

inductive Handled (rows : List DemandOrigin) (st : DemandOriginState) (r' : DemandOrigin) :
    Prop where
  | written (hstate : r'.state = st)
      (hnewer : ∀ r ∈ rows, r.originID = st.originID → r.state.revision < st.revision)
  | kept (hmem : r' ∈ rows) (hold : r'.originID = st.originID → st.revision ≤ r'.state.revision)
  | yielded (r : DemandOrigin) (t : Nat) (hmem : r ∈ rows) (hst : st.closed = none)
      (hkey : r.state.episodeKey = st.episodeKey) (hid : r.originID ≠ st.originID)
      (hopen : r.isOpen = true) (heq : r' = superseded t r)

/-- **電文を受けた後の行は、書いた行、元の行、譲った行のどれか。** -/
theorem handleDemandOrigin_cases (h : OriginsInv rows) (station : String) (hid : st.originID ≠ "")
    (hkey : st.episodeKey ≠ "") :
    Received rows st (Handled rows st) (handleDemandOrigin rows station st) := by
  have hvalid : ¬ (st.originID = "" ∨ st.episodeKey = "") := not_or.mpr ⟨hid, hkey⟩
  by_cases hst : st.closed = none
  · obtain ⟨hinv, hroom⟩ := h.supersede st.episodeKey st.originID st.content.openedAt
    obtain ⟨rows', heq, hinv', hups, hex⟩ := hinv.upsert (fun _ => hroom) station
    have hres : handleDemandOrigin rows station st = rows' := by
      unfold handleDemandOrigin
      rw [if_neg hvalid, if_pos hst]
      dsimp only
      rw [heq]
      rfl
    have hids : ∀ id, (∃ r ∈ rows, r.originID = id) →
        ∃ r ∈ supersedeOpenEpisode rows st.episodeKey st.originID st.content.openedAt,
          r.originID = id := by
      rintro id ⟨r, hr, rfl⟩
      rw [← mem_map, originID_supersedeOpenEpisode]
      exact mem_map_of_mem hr
    rw [hres]
    refine ⟨hinv', fun r' hr' => ?_, fun id hid => hex id (hid.imp_right (hids id))⟩
    cases hups r' hr' with
    | written hstate hnewer =>
      refine .written hstate fun r hr hrid => ?_
      -- 譲らせた表の同じ episode の行は、元の行と同じ revision を持つ
      have hmem : r ∈ supersedeOpenEpisode rows st.episodeKey st.originID st.content.openedAt := by
        refine mem_updateWhere.mpr ⟨r, hr, ?_⟩
        rw [if_neg]
        rw [and_eq_true, and_eq_true, bne_iff_ne]
        exact fun hsel => hsel.2.1 hrid
      exact hnewer r hmem hrid
    | kept hmem hold =>
      obtain ⟨r, hr, ⟨hk, hne, hopen, rfl⟩ | ⟨rfl, -⟩⟩ := mem_supersedeOpenEpisode hmem
      · exact .yielded r _ hr hst hk hne hopen rfl
      · exact .kept hr hold
  · obtain ⟨rows', heq, hinv', hups, hex⟩ := h.upsert (fun hc => absurd hc hst) station
    have hres : handleDemandOrigin rows station st = rows' := by
      unfold handleDemandOrigin
      rw [if_neg hvalid, if_neg hst]
      dsimp only
      rw [heq]
      rfl
    rw [hres]
    refine ⟨hinv', fun r' hr' => ?_, hex⟩
    cases hups r' hr' with
    | written hstate hnewer => exact .written hstate hnewer
    | kept hmem hold => exact .kept hmem hold

/-! ## core の文 -/

theorem OriginsInv.openCore (h : OriginsInv rows) {station originID : String}
    {content : EpisodeContent} {used : Bool}
    (hopen : openCoreEpisode rows station originID key content used = some rows') :
    OriginsInv rows' ∧ rows' = rows ++
      [{ state := { originID, revision := 1, episodeKey := key, content, closed := none }
         stationID := station, signalCount := 0, usedEdgeReports := used }] := by
  unfold openCoreEpisode at hopen
  dsimp only at hopen
  split at hopen
  · cases hopen
  rename_i hnew
  split at hopen
  · next hunique =>
    cases hopen
    have hfresh : ∀ r ∈ rows, r.originID ≠ originID := by
      intro r hr hid
      exact hnew (any_eq_true.mpr ⟨r, hr, beq_iff_eq.mpr hid⟩)
    obtain ⟨-, -, hpair⟩ := pairwise_append.mp hunique
    refine ⟨⟨?_, ?_⟩, rfl⟩
    · exact nodup_map_concat h.ids hfresh
    · intro a ha b hb hao hbo hkey
      rcases mem_append.mp ha with ha | ha <;> rcases mem_append.mp hb with hb | hb
      · exact h.openOne a ha b hb hao hbo hkey
      · exact absurd hkey (hpair a ha b hb hao hbo)
      · exact absurd hkey.symm (hpair b hb a ha hbo hao)
      · rw [mem_singleton.mp ha, mem_singleton.mp hb]
  · cases hopen

theorem mem_closeDemandOriginByID {closed : EpisodeClose} {r : DemandOrigin}
    (hr : r ∈ closeDemandOriginByID rows id closed) (hopen : r.isOpen = true) :
    r ∈ rows ∧ r.originID ≠ id := by
  obtain ⟨r₀, hr₀, rfl⟩ := mem_updateWhere.mp hr
  split at hopen
  · cases hopen
  rename_i hsel
  rw [if_neg hsel]
  refine ⟨hr₀, fun hid => hsel ?_⟩
  rw [and_eq_true, beq_iff_eq]
  exact ⟨hid, hopen⟩

theorem OriginsInv.closeByID (h : OriginsInv rows) (id : String)
    (closed : EpisodeClose) : OriginsInv (closeDemandOriginByID rows id closed) := by
  have hsame : ∀ r : DemandOrigin, (r.close closed).originID = r.originID := fun _ => rfl
  exact h.of_open (map_updateWhere (fun r _ => hsame r) rows)
    fun r hr ho => (mem_closeDemandOriginByID hr ho).1

/-! ## 電文の列 -/

/-- 行が、受けた電文のものである。場所を譲った行は、閉じた所だけが違う。 -/
def DemandOrigin.From (r : DemandOrigin) (m : DemandOriginState) : Prop :=
  r.state = m ∨ ∃ t, r.state = { m with closed := some ⟨t, .superseded, none⟩ }

/-- 表の行は、受けた電文のうち一番新しいもの。 -/
structure OriginsNewest (received : List (String × DemandOriginState)) (rows : List DemandOrigin) :
    Prop where
  inv : OriginsInv rows
  sent : ∀ r ∈ rows, ∃ x ∈ received, r.From x.2
  newest : ∀ x ∈ received, x.2.originID ≠ "" → x.2.episodeKey ≠ "" →
    ∃ r ∈ rows, r.originID = x.2.originID ∧ x.2.revision ≤ r.state.revision

theorem OriginsNewest.handle {received : List (String × DemandOriginState)}
    (h : OriginsNewest received rows) (x : String × DemandOriginState) :
    OriginsNewest (received ++ [x]) (handleDemandOrigin rows x.1 x.2) := by
  have hold : ∀ r ∈ rows, ∃ y ∈ received ++ [x], r.From y.2 := by
    intro r hr
    obtain ⟨y, hy, h⟩ := h.sent r hr
    exact ⟨y, mem_append_left _ hy, h⟩
  by_cases hvalid : x.2.originID = "" ∨ x.2.episodeKey = ""
  · rw [handleDemandOrigin, if_pos hvalid]
    refine ⟨h.inv, hold, fun y hy hid hkey => ?_⟩
    rcases mem_append_last.mp hy with hy | rfl
    · exact h.newest y hy hid hkey
    · exact absurd hvalid (not_or.mpr ⟨hid, hkey⟩)
  obtain ⟨hid, hkey⟩ := not_or.mp hvalid
  obtain ⟨hinv, hcases, hids⟩ := handleDemandOrigin_cases h.inv x.1 hid hkey
  refine ⟨hinv, fun r' hr' => ?_, fun y hy hyid hykey => ?_⟩
  · cases hcases r' hr' with
    | written hstate _ => exact ⟨x, mem_append_last.mpr (.inr rfl), .inl hstate⟩
    | kept hmem _ => exact hold r' hmem
    | yielded r t hmem _ _ _ _ heq =>
      obtain ⟨y, hy, hr⟩ := hold r hmem
      refine ⟨y, hy, .inr ⟨t, ?_⟩⟩
      rw [heq, superseded]
      rcases hr with hr | ⟨_, hr⟩ <;> rw [hr]
  rcases mem_append_last.mp hy with hy | rfl
  · -- 前に受けた電文の行は残り、revision は下がらない
    obtain ⟨r, hr, hrid, hle⟩ := h.newest y hy hyid hykey
    obtain ⟨r', hr', hrid'⟩ := hids y.2.originID (.inr ⟨r, hr, hrid⟩)
    refine ⟨r', hr', hrid', ?_⟩
    cases hcases r' hr' with
    | written hstate hnewer =>
      rw [DemandOrigin.originID, hstate] at hrid'
      rw [hstate]
      exact hle.trans (hnewer r hr (hrid.trans hrid'.symm)).le
    | kept hmem _ => rwa [h.inv.eq_of_originID hmem hr (hrid'.trans hrid.symm)]
    | yielded r₀ t hmem _ _ _ _ heq =>
      subst heq
      cases h.inv.eq_of_originID hmem hr (Eq.trans hrid' hrid.symm)
      exact hle
  · obtain ⟨r', hr', hrid'⟩ := hids y.2.originID (.inl rfl)
    refine ⟨r', hr', hrid', ?_⟩
    cases hcases r' hr' with
    | written hstate _ => rw [hstate]
    | kept _ hkept => exact hkept hrid'
    | yielded r₀ t _ _ _ hne _ heq =>
      subst heq
      exact absurd hrid' hne

/-- **どの電文がどの順に何度届いても、core の行は episode ごとに一つで、届いた電文のどれよりも
古くない。** -/
theorem demand_origins_newest (received : List (String × DemandOriginState)) :
    OriginsNewest received (received.foldl (fun rows x => handleDemandOrigin rows x.1 x.2) []) := by
  induction received using List.reverseRecOn with
  | nil => exact ⟨⟨nodup_nil, forall_mem_nil _⟩, forall_mem_nil _, forall_mem_nil _⟩
  | append_singleton received x ih =>
    rw [foldl_concat]
    exact ih.handle x

end Shingo.Core
