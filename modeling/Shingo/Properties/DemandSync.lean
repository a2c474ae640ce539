import Shingo.Protocol.DemandSync
import Shingo.Properties.DemandEpisode
import Shingo.Properties.DemandOrigins

/-!
# demand episode は core で揃う

core は revision の大きい電文だけを書くので、一つの episode の電文はどの順に届いてもよい。
開いた電文は、書く前に同じ場所の別の episode の行を閉じる。こちらに revision の guard は無く、
遅れて届いた古い episode の開いた電文が、今の episode の行を閉じてしまう。
-/

namespace Shingo.Protocol

open Infra Edge Core List

/-! ## edge の送る電文 -/

def Ended (sent : List DemandOriginState) (originID : String) : Prop :=
  ∃ m ∈ sent, m.originID = originID ∧ m.closed ≠ none
    ∧ ∀ m' ∈ sent, m'.originID = originID → m'.revision ≤ m.revision

theorem Ended.append {sent : List DemandOriginState} {id : String} (h : Ended sent id)
    {x : DemandOriginState} (hx : x.originID ≠ id) : Ended (sent ++ [x]) id := by
  obtain ⟨m, hm, hid, hclosed, htop⟩ := h
  refine ⟨m, mem_append_left _ hm, hid, hclosed, fun m' hm' hid' => ?_⟩
  rcases mem_append_last.mp hm' with hm' | rfl
  · exact htop m' hm' hid'
  · exact absurd hid' hx

/-- 送った電文は場所のもので、episode ごとに revision が増え、終わった episode は閉じてある。 -/
structure SentInv (key : String) (e : EpisodeEdge) : Prop where
  keyed : ∀ m ∈ e.sent, m.episodeKey = key ∧ m.originID ≠ ""
  revisions : e.sent.Pairwise fun m m' => m.originID = m'.originID → m.revision < m'.revision
  row : ∀ r, e.row = some r → (r.episodeKey = key ∧ r.originID ≠ "")
    ∧ ∀ m ∈ e.sent, m.originID = r.originID → m.revision ≤ r.revision
  ended : ∀ m ∈ e.sent, (∀ r, e.row = some r → r.originID ≠ m.originID) → Ended e.sent m.originID

variable {key : String} {m : DemandOriginState} {e : EpisodeEdge}

namespace SentInv

theorem eq_of_revision (h : SentInv key e) {m' : DemandOriginState} (hm : m ∈ e.sent)
    (hm' : m' ∈ e.sent) (hid : m.originID = m'.originID) (hrev : m.revision = m'.revision) :
    m = m' := by
  have hpair := pairwise_iff_getElem.mp h.revisions
  obtain ⟨i, hi, rfl⟩ := mem_iff_getElem.mp hm
  obtain ⟨j, hj, rfl⟩ := mem_iff_getElem.mp hm'
  rcases Nat.lt_trichotomy i j with hlt | rfl | hgt
  · have := hpair i j hi hj hlt hid
    omega
  · rfl
  · have := hpair j i hj hi hgt hid.symm
    omega

theorem emit (h : SentInv key e) {r : OpenOrigin} (hr : r.episodeKey = key ∧ r.originID ≠ "")
    (hrow : ∀ r₀, e.row = some r₀ → r₀.originID = r.originID)
    (hnew : ∀ m ∈ e.sent, m.originID = r.originID → m.revision < r.revision)
    (closed : Option EpisodeClose) (ok : Bool) :
    SentInv key (EpisodeEdge.emit { e with row := some r } (r.state closed) ok) := by
  have hended : ∀ m ∈ e.sent, r.originID ≠ m.originID → Ended e.sent m.originID := by
    intro m hm hne
    refine h.ended m hm fun r₀ hr₀ => ?_
    rw [hrow r₀ hr₀]
    exact hne
  unfold EpisodeEdge.emit
  split
  · refine ⟨?_, ?_, ?_, ?_⟩
    · intro m hm
      rcases mem_append_last.mp hm with hm | rfl
      · exact h.keyed m hm
      · exact hr
    · refine pairwise_append.mpr ⟨h.revisions, pairwise_singleton _ _, ?_⟩
      intro m hm x hx hid
      rw [mem_singleton.mp hx] at hid ⊢
      exact hnew m hm hid
    · rintro r' ⟨⟩
      refine ⟨hr, fun m hm hid => ?_⟩
      rcases mem_append_last.mp hm with hm | rfl
      · exact Nat.le_of_lt (hnew m hm hid)
      · exact Nat.le_refl _
    · intro m hm hne
      have hne := hne r rfl
      rcases mem_append_last.mp hm with hm | rfl
      · exact (hended m hm hne).append hne
      · exact absurd rfl hne
  · refine ⟨h.keyed, h.revisions, ?_, ?_⟩
    · rintro r' ⟨⟩
      exact ⟨hr, fun m hm hid => Nat.le_of_lt (hnew m hm hid)⟩
    · intro m hm hne
      exact hended m hm (hne r rfl)

theorem request (h : SentInv key e) {originID : String} {content : EpisodeContent} (ok : Bool)
    (hfresh : e.row = none → originID ≠ "" ∧ ∀ m ∈ e.sent, m.originID ≠ originID) :
    SentInv key (e.request key originID content ok) := by
  unfold EpisodeEdge.request
  split
  · next r hr =>
    obtain ⟨hkey, hle⟩ := h.row r hr
    refine h.emit (r := r.join) hkey ?_ ?_ none ok
    · intro r₀ hr₀
      rw [hr] at hr₀
      cases hr₀
      rfl
    · intro m hm hid
      exact Nat.lt_succ_of_le (hle m hm hid)
  · next hr =>
    obtain ⟨hne, hnew⟩ := hfresh hr
    refine h.emit (r := OpenOrigin.mint key originID content) ⟨rfl, hne⟩ ?_ ?_ none ok
    · intro r₀ hr₀
      rw [hr] at hr₀
      cases hr₀
    · intro m hm hid
      exact absurd hid (hnew m hm)

theorem close (h : SentInv key e) (closed : EpisodeClose) (enqueueOk deleteOk : Bool) :
    SentInv key (e.close closed enqueueOk deleteOk) := by
  unfold EpisodeEdge.close
  split
  · exact h
  rename_i r hr
  obtain ⟨hkey, hle⟩ := h.row r hr
  have hrow : ∀ r₀, e.row = some r₀ → r₀.originID = r.bump.originID := by
    intro r₀ hr₀
    rw [hr] at hr₀
    cases hr₀
    rfl
  have hnew : ∀ m ∈ e.sent, m.originID = r.bump.originID → m.revision < r.bump.revision :=
    fun m hm hid => Nat.lt_succ_of_le (hle m hm hid)
  have hsent := h.emit (r := r.bump) hkey hrow hnew (some closed) enqueueOk
  split
  · next hok =>
    rw [Bool.and_eq_true] at hok
    rw [hok.1] at hsent ⊢
    refine ⟨hsent.keyed, hsent.revisions, ?_, ?_⟩
    · rintro r' ⟨⟩
    · intro m hm _
      by_cases hid : m.originID = r.bump.originID
      · rw [hid]
        exact ⟨r.bump.state (some closed), mem_append_right _ (mem_singleton_self _),
          rfl, Option.some_ne_none _, (hsent.row r.bump rfl).2⟩
      · refine hsent.ended m hm ?_
        rintro r' ⟨⟩
        exact Ne.symm hid
  · exact hsent

end SentInv

/-! ## 届いたものと届いていないもの -/

variable {r : DemandOrigin} {w : DemandSync}

namespace DemandSync

def Got (w : DemandSync) (m : DemandOriginState) : Prop :=
  ∃ i ∈ w.delivered, w.edge.sent[i]? = some m

def InFlight (w : DemandSync) (m : DemandOriginState) : Prop :=
  ∃ i, i ∉ w.delivered ∧ w.edge.sent[i]? = some m

/-- 行は届いた一番新しい電文か、それが場所を譲ったもの。譲った行には、より新しい電文が来る。 -/
structure RowOk (w : DemandSync) (r : DemandOrigin) (m : DemandOriginState) : Prop where
  got : w.Got m
  id : m.originID = r.originID
  newest : ∀ m', w.Got m' → m'.originID = r.originID → m'.revision ≤ m.revision
  content : r.state = m
    ∨ (∃ t, r.state = { m with closed := some ⟨t, .superseded, none⟩ })
      ∧ ∃ m', w.InFlight m' ∧ m'.originID = r.originID ∧ m.revision < m'.revision

theorem RowOk.revision (h : w.RowOk r m) : r.state.revision = m.revision := by
  rcases h.content with hc | ⟨⟨t, hc⟩, -⟩
  · rw [hc]
  · rw [hc]

theorem RowOk.state_of_open (h : w.RowOk r m) (hopen : r.isOpen = true) : r.state = m := by
  rcases h.content with hc | ⟨⟨t, hc⟩, -⟩
  · exact hc
  · rw [DemandOrigin.isOpen, hc] at hopen
    cases hopen

theorem RowOk.grow {w' : DemandSync} (h : w.RowOk r m) (hgot : ∀ m, w'.Got m ↔ w.Got m)
    (hflight : ∀ m, w.InFlight m → w'.InFlight m) : w'.RowOk r m where
  got := (hgot m).mpr h.got
  id := h.id
  newest m' hm' := h.newest m' ((hgot m').mp hm')
  content := by
    rcases h.content with hc | ⟨ht, m', hm', hrest⟩
    · exact .inl hc
    · exact .inr ⟨ht, m', hflight m' hm', hrest⟩

end DemandSync

structure SyncInv (key : String) (w : DemandSync) : Prop where
  sent : SentInv key w.edge
  origins : OriginsInv w.core
  bound : ∀ i ∈ w.delivered, i < w.edge.sent.length
  rows : ∀ r ∈ w.core, ∃ m, w.RowOk r m
  stored : ∀ m, w.Got m → ∃ r ∈ w.core, r.originID = m.originID

/--
動作の条件。

* 開くときの id は、使ったことの無いもの
* 開いた電文が届くとき、edge で開いている別の episode の行が core で開いているなら、
  その行より新しい電文が、まだ届かずに残っている
-/
def KeepsCurrent (w : DemandSync) : DemandAction → Prop
  | .request originID _ _ => w.edge.row = none →
      originID ≠ "" ∧ ∀ m ∈ w.edge.sent, m.originID ≠ originID
  | .close _ _ _ => True
  | .deliver i => ∀ st ∈ w.edge.sent[i]?, st.closed = none → ∀ cur ∈ w.edge.row,
      cur.originID ≠ st.originID → ∀ r ∈ w.core, r.isOpen = true → r.originID = cur.originID →
        ∃ j < w.edge.sent.length, j ∉ w.delivered
          ∧ ∃ m ∈ w.edge.sent[j]?, m.originID = r.originID ∧ r.state.revision < m.revision

instance (w : DemandSync) : ∀ a, Decidable (KeepsCurrent w a)
  | .request _ _ _ => inferInstanceAs (Decidable (_ → _))
  | .close _ _ _ => .isTrue trivial
  | .deliver _ => inferInstanceAs (Decidable (∀ _ ∈ _, _))

namespace SyncInv

theorem edgeStep (h : SyncInv key w) (hsent : SentInv key e)
    (hgrow : ∃ more, e.sent = w.edge.sent ++ more) : SyncInv key { w with edge := e } := by
  obtain ⟨more, hmore⟩ := hgrow
  have hold : ∀ (i : Nat) m, w.edge.sent[i]? = some m → e.sent[i]? = some m := by
    intro i m hi
    rw [hmore, List.getElem?_append_left (List.getElem?_eq_some_iff.mp hi).1]
    exact hi
  have hgot : ∀ m, DemandSync.Got { w with edge := e } m ↔ w.Got m := by
    intro m
    constructor
    · rintro ⟨i, hi, hm⟩
      refine ⟨i, hi, ?_⟩
      rwa [hmore, List.getElem?_append_left (h.bound i hi)] at hm
    · rintro ⟨i, hi, hm⟩
      exact ⟨i, hi, hold i m hm⟩
  have hflight : ∀ m, w.InFlight m → DemandSync.InFlight { w with edge := e } m := by
    rintro m ⟨i, hi, hm⟩
    exact ⟨i, hi, hold i m hm⟩
  refine ⟨hsent, h.origins, ?_, ?_, ?_⟩
  · intro i hi
    have hlt := h.bound i hi
    rw [hmore, length_append]
    omega
  · intro r hr
    obtain ⟨m, hm⟩ := h.rows r hr
    exact ⟨m, hm.grow hgot hflight⟩
  · intro m hm
    exact h.stored m ((hgot m).mp hm)

theorem closing_inFlight (h : SyncInv key w) (hm : w.RowOk r m) (hopen : r.isOpen = true)
    (hended : Ended w.edge.sent r.originID) :
    ∃ m', w.InFlight m' ∧ m'.originID = r.originID ∧ m.revision < m'.revision := by
  obtain ⟨c, hc, hid, hclosed, htop⟩ := hended
  obtain ⟨j, hj⟩ := mem_iff_getElem?.mp hc
  obtain ⟨i, -, hi⟩ := hm.got
  have hle := htop m (mem_of_getElem? hi) hm.id
  have hne : m.revision ≠ c.revision := by
    intro heq
    -- revision の等しい電文は一つしか無いので、行は閉じていることになる
    have hmc : m = c :=
      h.sent.eq_of_revision (mem_of_getElem? hi) hc (hm.id.trans hid.symm) heq
    have hstate := hm.state_of_open hopen
    rw [hmc] at hstate
    rw [DemandOrigin.isOpen, hstate] at hopen
    exact hclosed (Option.isNone_iff_eq_none.mp hopen)
  refine ⟨c, ⟨j, fun hjd => ?_, hj⟩, hid, by omega⟩
  have := hm.newest c ⟨j, hjd, hj⟩ hid
  omega

theorem deliver (h : SyncInv key w) (hkey : key ≠ "") (station : String) {i : Nat}
    {st : DemandOriginState} (hi : w.edge.sent[i]? = some st) (hok : KeepsCurrent w (.deliver i)) :
    SyncInv key { w with
      core := handleDemandOrigin w.core station st
      delivered := w.delivered ++ [i] } := by
  have hst := h.sent.keyed st (mem_of_getElem? hi)
  obtain ⟨horigins, hcases, hkept⟩ :=
    handleDemandOrigin_cases h.origins station hst.2 (hst.1 ▸ hkey)
  have hgot : ∀ m, DemandSync.Got { w with
      core := handleDemandOrigin w.core station st, delivered := w.delivered ++ [i] } m →
      w.Got m ∨ m = st := by
    rintro m ⟨j, hj, hm⟩
    rcases mem_append_last.mp hj with hj | rfl
    · exact .inl ⟨j, hj, hm⟩
    · exact .inr (Option.some.inj (hm.symm.trans hi))
  have hmono : ∀ m, w.Got m → DemandSync.Got { w with
      core := handleDemandOrigin w.core station st, delivered := w.delivered ++ [i] } m := by
    rintro m ⟨j, hj, hm⟩
    exact ⟨j, mem_append_left _ hj, hm⟩
  -- 届いた一通のほかは、届いていないまま
  have hflight : ∀ m, w.InFlight m → m ≠ st → DemandSync.InFlight { w with
      core := handleDemandOrigin w.core station st, delivered := w.delivered ++ [i] } m := by
    rintro m ⟨j, hj, hm⟩ hne
    refine ⟨j, fun hjd => ?_, hm⟩
    rcases mem_append_last.mp hjd with hjd | rfl
    · exact hj hjd
    · exact hne (Option.some.inj (hm.symm.trans hi))
  refine ⟨h.sent, horigins, ?_, ?_, ?_⟩
  · intro j hj
    rcases mem_append_last.mp hj with hj | rfl
    · exact h.bound j hj
    · exact (List.getElem?_eq_some_iff.mp hi).1
  · intro r' hr'
    cases hcases r' hr' with
    | written hstate hnewer =>
      have hid : r'.originID = st.originID := congrArg DemandOriginState.originID hstate
      refine ⟨st, ⟨⟨i, mem_append_right _ (mem_singleton_self i), hi⟩, hid.symm, ?_,
        .inl hstate⟩⟩
      intro m hm hmid
      rcases hgot m hm with hm | rfl
      · obtain ⟨r, hr, hrid⟩ := h.stored m hm
        obtain ⟨m₀, hm₀⟩ := h.rows r hr
        have hle := hm₀.newest m hm hrid.symm
        have hlt := hnewer r hr (hrid.trans (hmid.trans hid))
        rw [hm₀.revision] at hlt
        omega
      · exact Nat.le_refl _
    | kept hmem hold =>
      obtain ⟨m, hm⟩ := h.rows r' hmem
      rw [hm.revision] at hold
      refine ⟨m, ⟨hmono m hm.got, hm.id, ?_, ?_⟩⟩
      · intro m' hm' hid'
        rcases hgot m' hm' with hm' | rfl
        · exact hm.newest m' hm' hid'
        · exact hold hid'.symm
      · rcases hm.content with hc | ⟨ht, m', hm', hid', hlt⟩
        · exact .inl hc
        · refine .inr ⟨ht, m', hflight m' hm' ?_, hid', hlt⟩
          rintro rfl
          have := hold hid'.symm
          omega
    | yielded r t hmem hclosed hrkey hrid hopen heq =>
      obtain ⟨m, hm⟩ := h.rows r hmem
      have hnewer : ∃ m', w.InFlight m' ∧ m'.originID = r.originID ∧ m.revision < m'.revision := by
        by_cases hcur : ∃ cur, w.edge.row = some cur ∧ cur.originID = r.originID
        · obtain ⟨cur, hcur, hcid⟩ := hcur
          obtain ⟨j, -, hj, m', hm', hid', hlt⟩ := hok st hi hclosed cur hcur
            (fun hc => hrid (hcid.symm.trans hc)) r hmem hopen hcid.symm
          rw [hm.revision] at hlt
          exact ⟨m', ⟨j, hj, hm'⟩, hid', hlt⟩
        · refine h.closing_inFlight hm hopen ?_
          obtain ⟨j, -, hj⟩ := hm.got
          have hended := h.sent.ended m (mem_of_getElem? hj)
          rw [hm.id] at hended
          exact hended fun cur hc hcid => hcur ⟨cur, hc, hcid⟩
      obtain ⟨m', hm', hid', hlt⟩ := hnewer
      subst heq
      refine ⟨m, ⟨hmono m hm.got, hm.id, ?_, ?_⟩⟩
      · intro x hx hxid
        rcases hgot x hx with hx | rfl
        · exact hm.newest x hx hxid
        · exact absurd hxid.symm hrid
      · refine .inr ⟨⟨t, ?_⟩, m', hflight m' hm' ?_, hid', hlt⟩
        · rw [superseded, hm.state_of_open hopen]
        · rintro rfl
          exact hrid hid'.symm
  · intro m hm
    rcases hgot m hm with hm | rfl
    · exact hkept m.originID (.inr (h.stored m hm))
    · exact hkept m.originID (.inl rfl)

theorem step (hkey : key ≠ "") (station : String) (w : DemandSync) (a : DemandAction)
    (h : SyncInv key w) (hok : KeepsCurrent w a) : SyncInv key (demandStep station key w a) := by
  cases a with
  | request originID content enqueueOk =>
    refine h.edgeStep (h.sent.request enqueueOk hok) ?_
    unfold EpisodeEdge.request
    split <;> exact EpisodeEdge.sent_emit _ _ _
  | close closed enqueueOk deleteOk =>
    refine h.edgeStep (h.sent.close closed enqueueOk deleteOk) ?_
    unfold EpisodeEdge.close
    split
    · exact ⟨[], (append_nil _).symm⟩
    · dsimp only
      split <;> exact EpisodeEdge.sent_emit _ _ _
  | deliver i =>
    simp only [demandStep]
    split
    · exact h
    · next st hi => exact h.deliver hkey station hi hok

theorem start (key : String) : SyncInv key DemandSync.start where
  sent := {
    keyed := forall_mem_nil _
    revisions := List.Pairwise.nil
    row := fun r hr => nomatch hr
    ended := forall_mem_nil _ }
  origins := ⟨nodup_nil, forall_mem_nil _⟩
  bound := forall_mem_nil _
  rows := forall_mem_nil _
  stored m hm := by
    obtain ⟨i, hi, -⟩ := hm
    exact absurd hi not_mem_nil

end SyncInv

/-! ## 届き終えた後 -/

structure Converged (w : DemandSync) : Prop where
  stored : ∀ m, Latest w.edge.sent m → ∃ r ∈ w.core, r.state = m
  latest : ∀ r ∈ w.core, Latest w.edge.sent r.state
  openOne : ∀ a ∈ w.core, ∀ b ∈ w.core, a.isOpen = true → b.isOpen = true →
    a.state.episodeKey = b.state.episodeKey → a = b
  isOpen : ∀ r ∈ w.core, ∀ m, Latest w.edge.sent m → m.originID = r.originID →
    (r.isOpen = true ↔ m.closed = none)

theorem SyncInv.converged (h : SyncInv key w) (hall : ∀ i < w.edge.sent.length, i ∈ w.delivered) :
    Converged w := by
  have hrow : ∀ r ∈ w.core, Latest w.edge.sent r.state := by
    intro r hr
    obtain ⟨m, hm⟩ := h.rows r hr
    have hstate : r.state = m := by
      rcases hm.content with hc | ⟨-, m', ⟨i, hi, him⟩, -, -⟩
      · exact hc
      · exact absurd (hall i (List.getElem?_eq_some_iff.mp him).1) hi
    obtain ⟨i, -, hi⟩ := hm.got
    rw [hstate]
    refine ⟨mem_of_getElem? hi, fun m' hm' hid => ?_⟩
    obtain ⟨j, hj⟩ := mem_iff_getElem?.mp hm'
    exact hm.newest m' ⟨j, hall j (List.getElem?_eq_some_iff.mp hj).1, hj⟩ (hid.trans hm.id)
  have hsame : ∀ r ∈ w.core, ∀ m, Latest w.edge.sent m → m.originID = r.originID →
      r.state = m := by
    intro r hr m hm hid
    obtain ⟨hmem, htop⟩ := hrow r hr
    have hge := htop m hm.1 hid
    have hle := hm.2 r.state hmem hid.symm
    exact h.sent.eq_of_revision hmem hm.1 hid.symm (Nat.le_antisymm hle hge)
  refine ⟨?_, hrow, ?_, ?_⟩
  · intro m hm
    obtain ⟨i, hi⟩ := mem_iff_getElem?.mp hm.1
    obtain ⟨r, hr, hid⟩ := h.stored m ⟨i, hall i (List.getElem?_eq_some_iff.mp hi).1, hi⟩
    exact ⟨r, hr, hsame r hr m hm hid.symm⟩
  · intro a ha b hb hao hbo hk
    exact h.origins.eq_of_originID ha hb (h.origins.openOne a ha b hb hao hbo hk)
  · intro r hr m hm hid
    rw [← hsame r hr m hm hid]
    exact Option.isNone_iff_eq_none

/-- **届き終えた demand episode の状態は core で揃う。** -/
theorem demand_episodes_converge (station key : String) (acts : List DemandAction)
    (hkey : key ≠ "")
    (hok : AllSteps (demandStep station key) KeepsCurrent DemandSync.start acts) :
    ∀ w ∈ visited (demandStep station key) DemandSync.start acts,
      (∀ i < w.edge.sent.length, i ∈ w.delivered) → Converged w := by
  intro w hw hall
  exact (AllSteps.visited_of_inv (SyncInv.step hkey station) (SyncInv.start key) hok w hw).converged
    hall

/-! ## press の cell -/

def endsAt (closedAt : Nat) : DemandAction :=
  .close (recoveredAt closedAt) true true

def twoEpisodes : List DemandAction :=
  [.request "A" (pressCell 1) true, .request "x" (pressCell 2) true, endsAt 3,
   .request "B" (pressCell 4) true]

def shuffledInside : List DemandAction :=
  twoEpisodes ++ [.deliver 1, .deliver 0, .deliver 2, .deliver 1, .deliver 3, .deliver 2]

theorem demand_episodes_converge_shuffledInside :
    ("cell|PRESS|P1|consume" ≠ ""
      ∧ AllSteps (demandStep "ST" "cell|PRESS|P1|consume") KeepsCurrent DemandSync.start
        shuffledInside)
      ∧ Converged (runSteps (demandStep "ST" "cell|PRESS|P1|consume") DemandSync.start
        shuffledInside) :=
  ⟨⟨by decide, by decide⟩,
    demand_episodes_converge "ST" "cell|PRESS|P1|consume" shuffledInside (by decide) (by decide) _
      (mem_visited_runSteps _ _) (by decide)⟩

/-- 開いた A の電文が B の後に届く。全部届いても、B は場所を譲ったまま。 -/
theorem late_open_supersedes :
    (runSteps (demandStep "ST" "cell|PRESS|P1|consume") DemandSync.start
        (twoEpisodes ++ [.deliver 1, .deliver 2, .deliver 3, .deliver 0])).core.map
          (fun r => (r.originID, r.state.revision, r.state.closed))
      = [("A", 3, some ⟨3, .recovered, some .notification⟩),
         ("B", 1, some ⟨1, .superseded, none⟩)]
      ∧ (runSteps (demandStep "ST" "cell|PRESS|P1|consume") DemandSync.start
        (twoEpisodes ++ [.deliver 1, .deliver 2, .deliver 3, .deliver 0])).edge.sent.map
          (fun m => (m.originID, m.revision, m.closed))
      = [("A", 1, none), ("A", 2, none), ("A", 3, some ⟨3, .recovered, some .notification⟩),
         ("B", 1, none)] := by
  decide

end Shingo.Protocol
