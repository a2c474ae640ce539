import Shingo.Properties.LaneHold

/-!
# 口の取得の、下見と後始末

`DigAdmissible` の下見は取得の答えを言い当てるか。断られた取得は、order の row を元のままに残すか。
-/

namespace Shingo.Core

open List

variable {t : MouthTable} {laneID owner : Nat} {beneficiary : DigAsker}

/-! ## 下見 -/

theorem admitScan_dig {l : List MouthRow}
    (hl : ∀ r ∈ l, r.orderID = owner ∨ beneficiary.owns r.orderID = true) (holds : Bool)
    (other : Option Mode) : ∃ holds' other',
      admitScan owner .dig beneficiary holds other l = .own holds' other' ∧
      (other'.isSome = true ↔ other.isSome = true ∨ ∃ r ∈ l, r.orderID = owner
        ∧ r.mode ≠ .dig) := by
  induction l generalizing holds other with
  | nil => exact ⟨holds, other, rfl, by simp⟩
  | cons r rest ih =>
    obtain ⟨hr, hrest⟩ := forall_mem_cons.mp hl
    rw [admitScan]
    by_cases ho : r.orderID = owner
    · by_cases hm : r.mode = .dig
      · obtain ⟨h', o', hs, hiff⟩ := ih hrest true other
        exact ⟨h', o', by simpa [ho, hm] using hs, by simp [hiff, hm]⟩
      · obtain ⟨h', o', hs, hiff⟩ := ih hrest holds (some r.mode)
        exact ⟨h', o', by simpa [ho, hm] using hs, by simp [hiff, hm, ho]⟩
    · obtain ⟨h', o', hs, hiff⟩ := ih hrest holds other
      exact ⟨h', o', by simpa [ho, hr.resolve_left ho] using hs, by simp [hiff, ho]⟩

theorem acquireLanesFor_dig_iff (t : MouthTable) (laneID owner : Nat) (beneficiary : DigAsker)
    (reservedBy : String) :
    (∃ t', acquireLanesFor t owner .dig beneficiary reservedBy [laneID] = .ok t') ↔
    ∀ r ∈ activeMouthRows t laneID,
      beneficiary.owns r.orderID = true ∨ r.orderID = owner ∧ r.mode = .dig := by
  have hfold : acquireLanesFor t owner .dig beneficiary reservedBy [laneID] =
      acquireLane owner .dig beneficiary reservedBy t laneID := by
    show (acquireLane owner .dig beneficiary reservedBy t laneID >>= pure) = _
    rw [bind_pure]
  rw [hfold, acquireLane, admitMouth]
  constructor
  · intro h r hr
    cases hs : admitScan owner .dig beneficiary false none (activeMouthRows t laneID) with
    | foreignConflict => simp [hs] at h
    | own holds other =>
      have hf := (admitScan_spec hs).1
      obtain ⟨holds', other', hs', hiff⟩ := admitScan_dig (l := activeMouthRows t laneID)
        (fun r hr => or_iff_not_imp_left.mpr fun hne =>
          (hf r hr hne).resolve_right fun hm => hm.1 rfl) false none
      obtain ⟨rfl, rfl⟩ := MouthScan.own.inj (hs.symm.trans hs')
      by_cases ho : r.orderID = owner
      · cases other with
        | none =>
          by_contra hc
          simp only [not_or, not_and] at hc
          simpa using hiff.mpr (.inr ⟨r, hr, ho, hc.2 ho⟩)
        | some held =>
          refine .inl ?_
          rw [ho]
          by_contra hno
          simp [hs, hno] at h
      · exact .inl ((hf r hr ho).resolve_right fun hm => hm.1 rfl)
  · intro h
    obtain ⟨holds', other', hs, hiff⟩ := admitScan_dig (l := activeMouthRows t laneID)
      (fun r hr => (h r hr).symm.imp_left And.left) false none
    rw [hs]
    cases other' with
    | none =>
      cases holds' with
      | true => dsimp only; split <;> exact ⟨_, rfl⟩
      | false => exact ⟨_, rfl⟩
    | some held =>
      obtain ⟨r, hr, ho, hm⟩ := (hiff.mp rfl).resolve_left (by simp)
      have howns := (h r hr).resolve_right fun hd => hm hd.2
      rw [ho] at howns
      simp [howns]

/-- **下見は、自分の dig の row が他人のために在るのでなければ、取得の答えを言い当てる。** -/
theorem dig_admissible_predicts (t : MouthTable) (laneID owner : Nat) (beneficiary : DigAsker)
    (reservedBy : String) (hown : ∀ r ∈ t, r.laneID = laneID → r.orderID = owner → r.mode = .dig →
      beneficiary.owns owner = true) :
    digAdmissible t laneID beneficiary = true ↔
      ∃ t', acquireLanesFor t owner .dig beneficiary reservedBy [laneID] = .ok t' := by
  rw [acquireLanesFor_dig_iff, digAdmissible, all_eq_true]
  refine forall₂_congr fun r hr => ⟨.inl, fun h => h.elim id fun ⟨ho, hm⟩ => ?_⟩
  obtain ⟨hr, hl⟩ := mem_activeMouthRows.mp hr
  rw [ho]
  exact hown r hr hl ho hm

def dwellerLane : MouthTable := [⟨8, 10, .outbound, bySourceLock, anyone⟩]

theorem dig_admissible_predicts_dweller :
    digAdmissible dwellerLane 10 (askerFor 8 0) = true ∧
      ∃ t', acquireLanesFor dwellerLane 5 .dig (askerFor 8 0) byExcavation [10] = .ok t' :=
  ⟨by decide, (dig_admissible_predicts dwellerLane 10 5 (askerFor 8 0) byExcavation
    (by decide)).mp (by decide)⟩

/-- 親 5 が掘り始めた後の下見は、親自身の row を数えて断る。取得は何もせずに通る。 -/
theorem dig_row_refuses_its_owner :
    let t := dwellerLane ++ [⟨5, 10, .dig, byExcavation, askerFor 8 0⟩]
    digAdmissible t 10 (askerFor 8 0) = false ∧
      acquireLanesFor t 5 .dig (askerFor 8 0) byExcavation [10] = .ok t := by
  decide

end Shingo.Core

namespace Shingo.Dispatch

open Core List

/-! ## 後始末 -/

theorem acquireModesAmid_quiet (orderID : Nat) (asker : DigAsker) (holds : List LaneHold)
    (modes : List Mode) (t : MouthTable) : acquireModesAmid {} orderID asker holds modes t =
      ((acquireModes orderID asker holds modes t).1,
        some (acquireModes orderID asker holds modes t).2) := by
  induction modes generalizing t with
  | nil => rfl
  | cons mode rest ih =>
    rw [acquireModesAmid, acquireModes]
    dsimp only
    split
    · exact ih t
    · rw [if_neg (by decide)]
      split <;> simp [ih]

/-- order の持つ row。 -/
def rowsOf (owner : Nat) (t : MouthTable) : MouthTable := t.filter (·.orderID == owner)

section

variable {t t' : MouthTable} {owner other l : Nat} {mode : Mode} {asker : DigAsker}

variable (f : LaneFaults) (holds : List LaneHold)

/-- 一つの mode の取得の答え。`none` は database の失敗。 -/
def LaneFaults.ask (owner : Nat) (asker : DigAsker) (mode : Mode) (t : MouthTable) :
    Option (Except MouthError MouthTable) :=
  let lanes := (holds.filter (·.mode == mode)).map LaneHold.laneID
  if lanes = [] then some (.ok t)
  else if f.acquire mode then none
  else some (acquireLanesFor t owner mode asker bySourceLock lanes)

/-- `t` から先の取得が断られたら、row は `t₀` のまま。 -/
def LaneFaults.Kept (owner : Nat) (asker : DigAsker) (t₀ : MouthTable) (modes : List Mode)
    (t : MouthTable) : Prop :=
  (acquireModesAmid f owner asker holds modes t).2 ≠ some .admitted →
    rowsOf owner (acquireModesAmid f owner asker holds modes t).1 = rowsOf owner t₀

end

end Shingo.Dispatch
