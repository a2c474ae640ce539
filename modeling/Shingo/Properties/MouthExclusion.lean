import Shingo.Core.Mouth
import Shingo.Infra.Run

/-!
# lane の口の排他

mouth row の表を、取得・解放・引き渡しの呼び出しで動かしたときに何が守られるか。
-/

namespace Shingo.Core

open Infra List MouthTable MouthRow

/-! ## lane の row -/

variable {r : MouthRow} {t t' : MouthTable} {laneID l owner : Nat}

@[simp] theorem mem_onLane : r ∈ t.onLane laneID ↔ r ∈ t ∧ r.laneID = laneID := by
  simp [onLane]

@[simp] theorem mem_activeMouthRows : r ∈ activeMouthRows t laneID ↔ r ∈ t ∧ r.laneID = laneID := by
  simp [activeMouthRows]

@[simp] theorem mem_sortedUniqueLanes {ids : List Nat} : l ∈ sortedUniqueLanes ids ↔ l ∈ ids := by
  unfold sortedUniqueLanes
  rw [(pairwise_insertionSort (· ≤ ·) ids).destutter_eq_dedup, mem_dedup,
    mem_insertionSort]

variable {t : MouthTable} {p : MouthRow → Bool}

theorem onLane_filter : onLane (t.filter p) l = (t.onLane l).filter p := by
  simp only [onLane, filter_filter, Bool.and_comm]

theorem onLane_append :
    onLane (t ++ [r]) l = if r.laneID = l then t.onLane l ++ [r] else t.onLane l := by
  simp only [onLane, filter_append]
  split <;> simp_all

variable {f : MouthRow → MouthRow} {s d : MouthRow}

theorem onLane_update (hf : ∀ r, (f r).laneID = r.laneID) : onLane (t.update owner laneID f) l
      = (t.onLane l).map fun r => if r.orderID = owner ∧ r.laneID = laneID then f r else r := by
  simp only [onLane, update, filter_map]
  congr 1
  refine filter_congr fun r _ => ?_
  simp only [Function.comp_apply]
  split
  · rw [hf]
  · rfl

/-! ## `admitMouth` が許すもの -/

inductive AdmitMouthSpec (l : List MouthRow) (owner : Nat) (mode : Mode) (beneficiary : DigAsker) :
    MouthVerdict → Prop
  | fresh
      (noOwn : ∀ r ∈ l, r.orderID ≠ owner)
      (foreign : ∀ r ∈ l, beneficiary.owns r.orderID = true
        ∨ mode ≠ .dig ∧ r.mode = mode) :
      AdmitMouthSpec l owner mode beneficiary .admitFresh
  | idempotent
      (own : ∃ r ∈ l, r.orderID = owner ∧ r.mode = mode) :
      AdmitMouthSpec l owner mode beneficiary .admitIdempotent
  | upgrade
      (isDig : mode = .dig)
      (own : ∃ r ∈ l, r.orderID = owner)
      (foreign : ∀ r ∈ l, r.orderID ≠ owner → beneficiary.owns r.orderID = true) :
      AdmitMouthSpec l owner mode beneficiary .admitUpgrade
  | conflict : AdmitMouthSpec l owner mode beneficiary .admitConflict

variable {beneficiary : DigAsker} {mode : Mode} {owner : Nat}

theorem admitScan_spec {l : List MouthRow} {holds holds' : Bool} {other other' : Option Mode}
    (hs : admitScan owner mode beneficiary holds other l = .own holds' other') :
    (∀ r ∈ l, r.orderID ≠ owner →
      beneficiary.owns r.orderID = true ∨ mode ≠ .dig ∧ r.mode = mode) ∧
    (holds' = true ∨ other'.isSome = true
      ↔ (holds = true ∨ other.isSome = true) ∨ ∃ r ∈ l, r.orderID = owner) ∧
    (holds' = true → holds = true ∨ ∃ r ∈ l, r.orderID = owner ∧ r.mode = mode) := by
  induction l generalizing holds other with
  | nil =>
    cases hs
    simp
  | cons h rest ih =>
    rw [admitScan] at hs
    simp only [forall_mem_cons, exists_mem_cons_iff]
    split at hs
    · rename_i ho
      split at hs
      · rename_i hm
        obtain ⟨hf, hown, -⟩ := ih hs
        exact ⟨⟨absurd ho, hf⟩, by rw [hown]; simp [ho], fun _ => .inr (.inl ⟨ho, hm⟩)⟩
      · obtain ⟨hf, hown, hsame⟩ := ih hs
        exact ⟨⟨absurd ho, hf⟩, by rw [hown]; simp [ho], fun hb => (hsame hb).imp_right .inr⟩
    · rename_i ho
      split at hs
      · rename_i hnamed
        obtain ⟨hf, hown, hsame⟩ := ih hs
        exact ⟨⟨fun _ => .inl hnamed, hf⟩, by rw [hown]; simp [ho],
          fun hb => (hsame hb).imp_right .inr⟩
      · split at hs
        · cases hs
        rename_i hc
        push Not at hc
        obtain ⟨hf, hown, hsame⟩ := ih hs
        exact ⟨⟨fun _ => .inr ⟨hc.1, hc.2.2⟩, hf⟩, by rw [hown]; simp [ho],
          fun hb => (hsame hb).imp_right .inr⟩

/-- **`admitMouth` の仕様。** -/
theorem admitMouth_spec {v : MouthVerdict}
    (h : admitMouth t laneID owner mode beneficiary = .ok v) :
    AdmitMouthSpec (t.onLane laneID) owner mode beneficiary v := by
  unfold admitMouth at h
  cases hs : admitScan owner mode beneficiary false none (activeMouthRows t laneID) with
  | foreignConflict =>
    rw [hs] at h
    cases h
    exact .conflict
  | own holds other =>
    obtain ⟨hf, ho, hsame⟩ := admitScan_spec hs
    simp only [mem_activeMouthRows, ← mem_onLane, Bool.false_eq_true, Option.isSome_none, or_self,
      false_or] at hf ho hsame
    rw [hs] at h
    cases other with
    | some held =>
      simp only at h
      split at h
      · rename_i hup
        cases h
        obtain ⟨r, hr, hro⟩ := ho.mp (.inr rfl)
        refine .upgrade hup.1 ⟨r, hr, hro⟩ fun r hr hne => ?_
        exact (hf r hr hne).resolve_right fun hm => hm.1 hup.1
      · cases h
    | none =>
      cases holds with cases h
      | true => exact .idempotent (hsame rfl)
      | false =>
        have hno : ∀ r ∈ t.onLane laneID, r.orderID ≠ owner := by
          intro r hr hro
          have := ho.mpr ⟨r, hr, hro⟩
          simp at this
        exact .fresh hno fun r hr => hf r hr (hno r hr)

/-! ## 一つの lane の row の形 -/

/--
dig が立っている lane の形。dig の row は一つで、並んで立てるのは
dig の取得が名指した order の row 一つだけ。
-/
structure DigShape (l : List MouthRow) (d : MouthRow) : Prop where
  mem : d ∈ l
  isDig : d.mode = .dig
  atMostTwo : l.length ≤ 2
  others : ∀ r ∈ l, r.orderID ≠ d.orderID → r.mode ≠ .dig ∧ d.takenFor.owns r.orderID = true

structure LaneShape (l : List MouthRow) : Prop where
  onePerOwner : (l.map orderID).Nodup
  shared : (∃ m, m ≠ Mode.dig ∧ ∀ r ∈ l, r.mode = m) ∨ ∃ d, DigShape l d

theorem LaneShape.nil : LaneShape [] where
  onePerOwner := nodup_nil
  shared := .inl ⟨.inbound, by decide, by simp⟩

variable {l : List MouthRow}

theorem eq_of_orderID_eq (h : (l.map orderID).Nodup) (hr : r ∈ l) (hs : s ∈ l)
    (he : r.orderID = s.orderID) : r = s :=
  inj_on_of_nodup_map h hr hs he

theorem LaneShape.of_length_le_one (hlen : l.length ≤ 1)
    (hmode : ∀ r ∈ l, r.mode ≠ .dig) : LaneShape l := by
  match l, hlen, hmode with
  | [], _, _ => exact LaneShape.nil
  | [r], _, hmode =>
    refine ⟨by simp, .inl ⟨r.mode, hmode r (by simp), ?_⟩⟩
    intro s hs
    rw [mem_singleton.mp hs]

theorem DigShape.rest (hd : DigShape l d) (hn : (l.map orderID).Nodup) (hp : p d = false) :
    (l.filter p).length ≤ 1 ∧ ∀ r ∈ l.filter p, r.mode ≠ .dig := by
  constructor
  · have hlt : (l.filter p).length < l.length := by
      rw [length_filter_lt_length_iff_exists]
      exact ⟨d, hd.mem, by simp [hp]⟩
    have := hd.atMostTwo
    omega
  · intro r hr
    obtain ⟨hrl, hrp⟩ := mem_filter.mp hr
    refine (hd.others r hrl fun he => ?_).1
    rw [eq_of_orderID_eq hn hrl hd.mem he, hp] at hrp
    cases hrp

/-- **row を消しても形は保たれる。** -/
theorem LaneShape.filter (h : LaneShape l) (p : MouthRow → Bool) : LaneShape (l.filter p) := by
  have hn : ((l.filter p).map orderID).Nodup :=
    h.onePerOwner.sublist (filter_sublist.map _)
  rcases h.shared with ⟨m, hm, hall⟩ | ⟨d, hd⟩
  · exact ⟨hn, .inl ⟨m, hm, fun r hr => hall r (mem_of_mem_filter hr)⟩⟩
  · by_cases hp : p d = true
    · refine ⟨hn, .inr ⟨d, mem_filter.mpr ⟨hd.mem, hp⟩, hd.isDig, ?_, ?_⟩⟩
      · exact (length_filter_le p l).trans hd.atMostTwo
      · intro r hr
        exact hd.others r (mem_of_mem_filter hr)
    · obtain ⟨hlen, hmode⟩ := hd.rest h.onePerOwner (by simpa using hp)
      exact LaneShape.of_length_le_one hlen hmode

theorem LaneShape.map (h : LaneShape l) (ho : ∀ r, (f r).orderID = r.orderID)
    (hm : ∀ r, (f r).mode = r.mode) (ht : ∀ r, (f r).takenFor = r.takenFor) :
    LaneShape (l.map f) := by
  have hmap : (l.map f).map orderID = l.map orderID := by
    rw [map_map]
    exact map_congr_left fun r _ => ho r
  refine ⟨by rw [hmap]; exact h.onePerOwner, ?_⟩
  rcases h.shared with ⟨m, hne, hall⟩ | ⟨d, hd⟩
  · refine .inl ⟨m, hne, fun r hr => ?_⟩
    obtain ⟨s, hs, rfl⟩ := mem_map.mp hr
    rw [hm, hall s hs]
  · refine .inr ⟨f d, mem_map_of_mem hd.mem, by rw [hm, hd.isDig],
      by rw [length_map]; exact hd.atMostTwo, fun r hr hne => ?_⟩
    obtain ⟨s, hs, rfl⟩ := mem_map.mp hr
    rw [ho, ho] at hne
    rw [ho, hm, ht]
    exact hd.others s hs hne

/-! ## 取得 -/

/--
取得の条件。beneficiary が名指す他の order の row が lane にあるなら、
取得は dig で、その row は dig ではなく、名指された row を持つ order は一人。
-/
def ExemptOk (l : List MouthRow) (owner : Nat) (mode : Mode) (beneficiary : DigAsker) : Prop :=
  ∀ r ∈ l, r.orderID ≠ owner → beneficiary.owns r.orderID = true →
    mode = .dig ∧ r.mode ≠ .dig ∧
      ∀ s ∈ l, s.orderID ≠ owner → beneficiary.owns s.orderID = true → s.orderID = r.orderID

instance (l : List MouthRow) (owner : Nat) (mode : Mode) (beneficiary : DigAsker) :
    Decidable (ExemptOk l owner mode beneficiary) := by
  unfold ExemptOk; infer_instance

theorem length_le_one_of_nodup_map (hn : (l.map orderID).Nodup)
    (heq : ∀ r ∈ l, ∀ s ∈ l, r.orderID = s.orderID) : l.length ≤ 1 := by
  rcases l with _ | ⟨r, _ | ⟨s, rest⟩⟩
  · simp
  · simp
  · have := heq r (by simp) s (by simp)
    simp [this] at hn

theorem foreign_length_le_one (hn : (l.map orderID).Nodup) (hok : ExemptOk l owner mode beneficiary)
    (hf : ∀ r ∈ l, r.orderID ≠ owner → beneficiary.owns r.orderID = true) :
    (l.filter (·.orderID != owner)).length ≤ 1 := by
  have hn' : ((l.filter (·.orderID != owner)).map orderID).Nodup :=
    hn.sublist (filter_sublist.map _)
  have hmem : ∀ r ∈ l.filter (·.orderID != owner), r ∈ l ∧ r.orderID ≠ owner := by
    simp
  refine length_le_one_of_nodup_map hn' fun r hr s hs => ?_
  obtain ⟨hr, hro⟩ := hmem r hr
  obtain ⟨hs, hso⟩ := hmem s hs
  exact ((hok r hr hro (hf r hr hro)).2.2 s hs hso (hf s hs hso)).symm

variable {reservedBy : String}

theorem laneShape_fresh (h : LaneShape l)
    (hok : ExemptOk l owner mode beneficiary) (hno : ∀ r ∈ l, r.orderID ≠ owner)
    (hf : ∀ r ∈ l, beneficiary.owns r.orderID = true ∨ mode ≠ .dig ∧ r.mode = mode) :
    LaneShape (l ++ [⟨owner, laneID, mode, reservedBy, beneficiary⟩]) := by
  have hn : ((l ++ [(⟨owner, laneID, mode, reservedBy, beneficiary⟩ : MouthRow)]).map
      orderID).Nodup := by
    rw [map_append, nodup_append]
    refine ⟨h.onePerOwner, by simp, ?_⟩
    rintro o ho o' ho' rfl
    obtain ⟨r, hr, rfl⟩ := mem_map.mp ho
    exact hno r hr (by simpa using ho')
  refine ⟨hn, ?_⟩
  by_cases hdig : mode = .dig
  · -- dig: 並ぶ row はすべて名指されたもので、高々一つ
    have hnamed : ∀ r ∈ l, beneficiary.owns r.orderID = true := fun r hr =>
      (hf r hr).resolve_right fun hm => hm.1 hdig
    have hlen : l.length ≤ 1 := by
      have hle := foreign_length_le_one h.onePerOwner hok fun r hr _ => hnamed r hr
      rwa [filter_eq_self.mpr fun r hr => by simp [hno r hr]] at hle
    refine .inr ⟨⟨owner, laneID, mode, reservedBy, beneficiary⟩, by simp, hdig, ?_, ?_⟩
    · simp only [length_append, length_singleton]
      omega
    · intro r hr hne
      rcases mem_append_last.mp hr with hr | rfl
      · exact ⟨(hok r hr (hno r hr) (hnamed r hr)).2.1, hnamed r hr⟩
      · exact absurd rfl hne
  · -- dig でなければ誰も名指しで免れていない
    refine .inl ⟨mode, hdig, fun r hr => ?_⟩
    rcases mem_append_last.mp hr with hr | rfl
    · rcases hf r hr with hown | ⟨_, hm⟩
      · exact absurd (hok r hr (hno r hr) hown).1 hdig
      · exact hm
    · rfl

theorem laneShape_upgrade (h : LaneShape l) (hlane : ∀ r ∈ l, r.laneID = laneID)
    (hok : ExemptOk l owner .dig beneficiary) (hown : ∃ r ∈ l, r.orderID = owner)
    (hf : ∀ r ∈ l, r.orderID ≠ owner → beneficiary.owns r.orderID = true) :
    LaneShape (l.map fun r => if r.orderID = owner ∧ r.laneID = laneID then
      { r with mode := .dig, reservedBy, takenFor := beneficiary } else r) := by
  have hlen : l.length ≤ 2 := by
    have hforeign := foreign_length_le_one h.onePerOwner hok hf
    have hmine : (l.filter (·.orderID == owner)).length ≤ 1 := by
      have := nodup_iff_count_le_one.mp h.onePerOwner owner
      rwa [List.count, countP_map, countP_eq_length_filter] at this
    have hsplit := length_eq_length_filter_add (l := l) (fun r => r.orderID == owner)
    have hne : (l.filter fun r => !(r.orderID == owner)) = l.filter (·.orderID != owner) := rfl
    rw [hne] at hsplit
    omega
  refine ⟨?_, .inr ?_⟩
  · rw [map_map, map_congr_left (g := orderID)]
    · exact h.onePerOwner
    · intro r _
      simp only [Function.comp_apply]
      split <;> rfl
  obtain ⟨r, hr, hro⟩ := hown
  refine ⟨{ r with mode := .dig, reservedBy, takenFor := beneficiary }, ?_, rfl,
    by rw [length_map]; exact hlen, ?_⟩
  · refine mem_map.mpr ⟨r, hr, ?_⟩
    rw [if_pos ⟨hro, hlane r hr⟩]
  · intro s hs hne
    obtain ⟨s', hs', rfl⟩ := mem_map.mp hs
    by_cases hso : s'.orderID = owner
    · rw [if_pos ⟨hso, hlane s' hs'⟩] at hne
      exact absurd (hso.trans hro.symm) hne
    · rw [if_neg fun hc => hso hc.1]
      exact ⟨(hok s' hs' hso (hf s' hs' hso)).2.1, hf s' hs' hso⟩

variable {laneID : Nat}

theorem acquireLane_foreign (h : acquireLane owner mode beneficiary reservedBy t laneID = .ok t')
    (hr : r.orderID ≠ owner) : r ∈ t' ↔ r ∈ t := by
  have hupdate : ∀ {f : MouthRow → MouthRow}, (∀ r, (f r).orderID = r.orderID) →
      (r ∈ t.update owner laneID f ↔ r ∈ t) := by
    intro f hf
    simp only [update, mem_map]
    constructor
    · rintro ⟨s, hs, rfl⟩
      split at hr
      · rename_i hc
        exact absurd ((hf s).trans hc.1) hr
      · rename_i hc
        rwa [if_neg hc]
    · intro hmem
      exact ⟨r, hmem, if_neg fun hc => hr hc.1⟩
  unfold acquireLane at h
  split at h
  · cases h
  · split at h
    · cases h; exact hupdate fun _ => rfl
    · cases h; rfl
  · cases h
  · cases h; exact hupdate fun _ => rfl
  · cases h
    rw [mem_append, mem_singleton]
    constructor
    · rintro (hmem | rfl)
      · exact hmem
      · exact absurd rfl hr
    · exact .inl

theorem ExemptOk.congr (h : ∀ r : MouthRow, r.orderID ≠ owner → (r ∈ t' ↔ r ∈ t))
    (hok : ExemptOk (t.onLane laneID) owner mode beneficiary) :
    ExemptOk (t'.onLane laneID) owner mode beneficiary := by
  have hmem : ∀ r ∈ t'.onLane laneID, r.orderID ≠ owner → r ∈ t.onLane laneID := by
    intro r hr hne
    rw [mem_onLane] at hr ⊢
    exact ⟨(h r hne).mp hr.1, hr.2⟩
  intro r hr hne hown
  obtain ⟨hdig, hmode, hone⟩ := hok r (hmem r hr hne) hne hown
  exact ⟨hdig, hmode, fun s hs hso => hone s (hmem s hs hso) hso⟩

def TableShape (t : MouthTable) : Prop := ∀ l, LaneShape (t.onLane l)

theorem TableShape.filter (h : TableShape t) (p : MouthRow → Bool) : TableShape (t.filter p) := by
  intro l
  rw [onLane_filter]
  exact (h l).filter p

theorem acquireLane_tableShape (hs : TableShape t)
    (hok : ExemptOk (t.onLane laneID) owner mode beneficiary)
    (h : acquireLane owner mode beneficiary reservedBy t laneID = .ok t') : TableShape t' := by
  unfold acquireLane at h
  split at h
  · cases h
  · split at h
    · cases h
      intro l
      rw [onLane_update (f := fun r => { r with reservedBy }) fun _ => rfl]
      refine (hs l).map ?_ ?_ ?_ <;> (intro r; split <;> rfl)
    · cases h; exact hs
  · cases h
  · rename_i hv
    cases h
    intro l
    rw [onLane_update (f := fun r => { r with mode, reservedBy, takenFor := beneficiary })
      fun _ => rfl]
    by_cases hl : l = laneID
    · subst hl
      cases admitMouth_spec hv with
      | upgrade hdig hown hf =>
        subst hdig
        exact laneShape_upgrade (hs l) (fun r hr => (mem_onLane.mp hr).2) hok hown hf
    · -- 別の lane の row は書き換わらない
      have hsame : (t.onLane l).map (fun r => if r.orderID = owner ∧ r.laneID = laneID then
          { r with mode, reservedBy, takenFor := beneficiary } else r) = t.onLane l := by
        rw [map_congr_left (g := id), map_id]
        intro r hr
        have hrl := (mem_onLane.mp hr).2
        exact if_neg fun hc => hl (hrl.symm.trans hc.2)
      rw [hsame]
      exact hs l
  · rename_i hv
    cases h
    intro l
    rw [onLane_append]
    split
    · rename_i hl
      subst hl
      cases admitMouth_spec hv with
      | fresh hno hf => exact laneShape_fresh (hs laneID) hok hno hf
    · exact hs l

/-- **`AcquireLanesFor` は形を保つ。** lane を一つずつ取る間、条件は後の lane にも残る。 -/
theorem acquireLanesFor_tableShape {laneIDs : List Nat} (hs : TableShape t)
    (hok : ∀ l ∈ laneIDs, ExemptOk (t.onLane l) owner mode beneficiary)
    (h : acquireLanesFor t owner mode beneficiary reservedBy laneIDs = .ok t') : TableShape t' := by
  have hlanes : ∀ l ∈ sortedUniqueLanes laneIDs, ExemptOk (t.onLane l) owner mode beneficiary :=
    fun l hl => hok l (mem_sortedUniqueLanes.mp hl)
  -- 形と、残りの lane の条件とを一緒に持ち歩く
  have hrun : TableShape t' ∧
      ∀ l ∈ sortedUniqueLanes laneIDs, ExemptOk (t'.onLane l) owner mode beneficiary := by
    refine foldlM_ok_inv (P := fun t => TableShape t ∧
      ∀ l ∈ sortedUniqueLanes laneIDs, ExemptOk (t.onLane l) owner mode beneficiary) ?_ h
      ⟨hs, hlanes⟩
    rintro l hl t t' ⟨hs, hok⟩ ha
    exact ⟨acquireLane_tableShape hs (hok l hl) ha, fun l' hl' =>
      (hok l' hl').congr fun r hr => acquireLane_foreign ha hr⟩
  exact hrun.1

/-! ## 引き渡し -/

/-- 引き渡しの条件。消す dig の row があるなら、掘り手と受け取り手以外の row は outbound。 -/
def HandOffOk (t : MouthTable) (laneID digOwner picker : Nat) : Prop :=
  t.any (·.isDigHold laneID digOwner) = true →
    ∀ r ∈ t.onLane laneID, r.orderID ≠ digOwner → r.orderID ≠ picker → r.mode = .outbound

instance (t : MouthTable) (laneID digOwner picker : Nat) :
    Decidable (HandOffOk t laneID digOwner picker) := by
  unfold HandOffOk; infer_instance

theorem handOffLaneToPicker_tableShape {digOwner picker : Nat}
    (hs : TableShape t) (hok : HandOffOk t laneID digOwner picker) :
    TableShape (handOffLaneToPicker t laneID digOwner picker reservedBy).1 := by
  unfold handOffLaneToPicker
  split
  · exact hs
  rename_i hany
  have hany : t.any (·.isDigHold laneID digOwner) = true := by simpa using hany
  have hs' := hs.filter fun r => !r.isDigHold laneID digOwner
  dsimp only
  split
  · exact hs'
  rename_i hfind
  intro l
  rw [onLane_append]
  split
  · rename_i hl
    subst hl
    -- 残りの row は受け取り手のものではなく、すべて outbound
    have hrest :
        ∀ r ∈ onLane (t.filter fun r => !r.isDigHold laneID digOwner) laneID,
        r.orderID ≠ picker ∧ r.mode = .outbound := by
      intro r hr
      have hp : r.orderID ≠ picker := by
        have := List.find?_eq_none.mp hfind r (by simpa using hr)
        simpa using this
      refine ⟨hp, ?_⟩
      obtain ⟨hrt, hrl⟩ := mem_onLane.mp hr
      obtain ⟨hrt, hnd⟩ := mem_filter.mp hrt
      refine hok hany r (mem_onLane.mpr ⟨hrt, hrl⟩) (fun ho => ?_) hp
      obtain ⟨d, hd, hdig⟩ := any_eq_true.mp hany
      simp only [isDigHold, Bool.and_eq_true, beq_iff_eq] at hdig
      have := eq_of_orderID_eq (hs laneID).onePerOwner (mem_onLane.mpr ⟨hrt, hrl⟩)
        (mem_onLane.mpr ⟨hd, hdig.1.2⟩) (ho.trans hdig.1.1.symm)
      subst this
      simp [isDigHold, hdig] at hnd
    refine laneShape_fresh (hs' laneID) ?_ (fun r hr => (hrest r hr).1) fun r hr =>
      .inr ⟨by decide, (hrest r hr).2⟩
    intro r _ _ hown
    simp [DigAsker.owns, anyone] at hown
  · exact hs' l

/-! ## 呼び出しの列 -/

inductive MouthOp where
  | acquireLanesFor (owner : Nat) (mode : Mode) (beneficiary : DigAsker) (reservedBy : String)
      (laneIDs : List Nat)
  | releaseLaneHandoff (owner laneID : Nat)
  | releaseLanesByOwner (owner : Nat)
  | handOffLaneToPicker (laneID digOwner picker : Nat) (reservedBy : String)

def MouthOp.apply (t : MouthTable) : MouthOp → MouthTable
  | .acquireLanesFor owner mode beneficiary reservedBy laneIDs =>
    match Core.acquireLanesFor t owner mode beneficiary reservedBy laneIDs with
    | .ok t' => t'
    | .error _ => t
  | .releaseLaneHandoff owner laneID => Core.releaseLaneHandoff t owner laneID
  | .releaseLanesByOwner owner => (Core.releaseLanesByOwner t owner).1
  | .handOffLaneToPicker laneID digOwner picker reservedBy =>
    (Core.handOffLaneToPicker t laneID digOwner picker reservedBy).1

def MouthOp.Ok (t : MouthTable) : MouthOp → Prop
  | .acquireLanesFor owner mode beneficiary _ laneIDs =>
    ∀ l ∈ laneIDs, ExemptOk (t.onLane l) owner mode beneficiary
  | .handOffLaneToPicker laneID digOwner picker _ => HandOffOk t laneID digOwner picker
  | _ => True

instance (t : MouthTable) (op : MouthOp) : Decidable (op.Ok t) := by
  cases op <;> (unfold MouthOp.Ok; infer_instance)

theorem step_tableShape (t : MouthTable) (op : MouthOp) (hs : TableShape t) (hok : op.Ok t) :
    TableShape (op.apply t) := by
  cases op with
  | acquireLanesFor owner mode beneficiary reservedBy laneIDs =>
    rw [MouthOp.apply]
    cases ha : acquireLanesFor t owner mode beneficiary reservedBy laneIDs with
    | ok t' => exact acquireLanesFor_tableShape hs hok ha
    | error e => exact hs
  | releaseLaneHandoff owner laneID | releaseLanesByOwner owner => exact hs.filter _
  | handOffLaneToPicker laneID digOwner picker reservedBy =>
    exact handOffLaneToPicker_tableShape hs hok

/-! ## 排他 -/

/--
lane の口の排他。

一人の order の row は高々一つ、dig の row も高々一つ。二人の order が lane を持つなら、
row はどれも dig でなく mode が揃っているか、一方が dig でその取得が他方を名指している。
-/
structure LaneExclusion (t : MouthTable) (laneID : Nat) : Prop where
  onePerOwner : ∀ o, t.countP (fun r => r.laneID == laneID && r.orderID == o) ≤ 1
  oneDig : t.countP (fun r => r.laneID == laneID && r.mode == .dig) ≤ 1
  shared : ∀ r ∈ t.onLane laneID, ∀ s ∈ t.onLane laneID, r.orderID ≠ s.orderID →
    (∀ x ∈ t.onLane laneID, x.mode ≠ .dig ∧ x.mode = r.mode)
      ∨ (r.mode = .dig ∧ r.takenFor.owns s.orderID = true)
      ∨ (s.mode = .dig ∧ s.takenFor.owns r.orderID = true)

theorem countP_onLane :
    t.countP (fun r => r.laneID == laneID && p r) = (t.onLane laneID).countP p := by
  simp only [onLane, countP_filter, Bool.and_comm]

theorem DigShape.named (hd : DigShape l d) (hr : r ∈ l) (hs : s ∈ l) (hne : r.orderID ≠ s.orderID) :
    r = d ∨ s = d := by
  by_contra hc
  push Not at hc
  have hnd : [d, r, s].Nodup := by
    simp only [nodup_cons, mem_cons, not_mem_nil, or_false, not_or,
      not_false_eq_true, nodup_nil, and_true]
    exact ⟨⟨Ne.symm hc.1, Ne.symm hc.2⟩, fun he => hne (by rw [he])⟩
  have hsub : [d, r, s] ⊆ l := by
    intro x hx
    simp only [mem_cons, not_mem_nil, or_false] at hx
    rcases hx with rfl | rfl | rfl
    · exact hd.mem
    · exact hr
    · exact hs
  have := (subperm_of_subset hnd hsub).length_le
  have := hd.atMostTwo
  simp only [length_cons, length_nil] at *
  omega

theorem LaneShape.exclusion (h : LaneShape (t.onLane laneID)) : LaneExclusion t laneID where
  onePerOwner o := by
    rw [countP_onLane]
    have := nodup_iff_count_le_one.mp h.onePerOwner o
    rwa [List.count, countP_map] at this
  oneDig := by
    rw [countP_onLane, countP_eq_length_filter]
    rcases h.shared with ⟨m, hm, hall⟩ | ⟨d, hd⟩
    · rw [filter_eq_nil_iff.mpr fun r hr => by simp [hall r hr, hm]]
      simp
    · refine length_le_one_of_nodup_map (h.onePerOwner.sublist (filter_sublist.map _)) ?_
      have hdig : ∀ r ∈ (t.onLane laneID).filter (·.mode == .dig), r.orderID = d.orderID := by
        intro r hr
        obtain ⟨hr, hm⟩ := mem_filter.mp hr
        by_contra hne
        exact (hd.others r hr hne).1 (by simpa using hm)
      intro r hr s hs
      rw [hdig r hr, hdig s hs]
  shared := by
    intro r hr s hs hne
    rcases h.shared with ⟨m, hm, hall⟩ | ⟨d, hd⟩
    · exact .inl fun x hx => ⟨by rw [hall x hx]; exact hm, by rw [hall x hx, hall r hr]⟩
    · rcases hd.named hr hs hne with rfl | rfl
      · exact .inr (.inl ⟨hd.isDig, (hd.others s hs (Ne.symm hne)).2⟩)
      · exact .inr (.inr ⟨hd.isDig, (hd.others r hr hne).2⟩)

/-- **lane の口の排他。** -/
theorem mouth_exclusion_run {ops : List MouthOp}
    (h : AllSteps MouthOp.apply (fun t op => op.Ok t) [] ops) :
    ∀ t ∈ visited MouthOp.apply [] ops, ∀ laneID, LaneExclusion t laneID := by
  have hinit : TableShape [] := fun _ => LaneShape.nil
  intro t ht laneID
  exact (h.visited_of_inv step_tableShape hinit t ht laneID).exclusion

def serviceDigRun : List MouthOp :=
  [.acquireLanesFor 1 .outbound (askerFor 1 1) bySourceLock [7],
   .acquireLanesFor 2 .dig (askerFor 1 1) byExcavation [7],
   .handOffLaneToPicker 7 2 1 byDigHandoff,
   .releaseLaneHandoff 1 7]

theorem mouth_exclusion_serviceDig :
    AllSteps MouthOp.apply (fun t op => op.Ok t) [] serviceDigRun ∧
      ∀ t ∈ visited MouthOp.apply [] serviceDigRun, ∀ laneID, LaneExclusion t laneID :=
  ⟨by decide, mouth_exclusion_run (by decide)⟩

def twoDigsRun : List MouthOp :=
  [.acquireLanesFor 1 .dig (askerFor 1 1) bySourceLock [7],
   .acquireLanesFor 2 .dig (askerFor 1 1) byExcavation [7]]

/-- **条件が無ければ、一つの lane に dig の row が二つ立つ。** -/
theorem mouth_exclusion_two_digs :
    ¬ ∀ t ∈ visited MouthOp.apply [] twoDigsRun, ∀ laneID, LaneExclusion t laneID := by
  intro h
  have := (h (runSteps MouthOp.apply [] twoDigsRun) (mem_visited_runSteps _ _) 7).oneDig
  revert this
  decide

end Shingo.Core
