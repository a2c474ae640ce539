import Mathlib.Data.List.Perm.Basic
import Shingo.Dispatch.ResolveStore
import Shingo.Infra.Run

/-!
# 宣言された level は上限

`ResolveStore` は、group に居る空の carrier を数えて、宣言された level に届いていれば断る。
数えるのは今居るものだけで、置き場所をもらってまだ着いていない carrier は数えない。
居る carrier と向かっている carrier を合わせた数（`committed`）が、選ぶ時に level に
届いていなければ、居る carrier は level を超えない。
-/

namespace Shingo.Dispatch

open Infra Core List

/-! ## 数 -/

variable (cfg : GroupConfig)

def standing (typeID : Nat) (place : Nat → Option Nat) : Nat :=
  cfg.binIDs.countP fun b => cfg.binTypeOf b == typeID && (place b).any cfg.inGroup

def travelling (typeID : Nat) (fs : List InFlight) : Nat :=
  fs.countP fun f => cfg.binTypeOf f.binID == typeID

def committed (typeID : Nat) (w : StoreWorld) : Nat :=
  standing cfg typeID w.place + travelling cfg typeID w.inFlight

theorem countP_le_of_eq_except {p q : Nat → Bool} {b : Nat} (hpq : ∀ a, a ≠ b → q a = p a) :
    ∀ {l : List Nat}, l.Nodup → l.countP q ≤ l.countP p + if q b then 1 else 0 := by
  intro l
  induction l with
  | nil => intro _; exact Nat.zero_le _
  | cons a l ih =>
    intro hn
    obtain ⟨ha, hl⟩ := nodup_cons.mp hn
    rw [countP_cons, countP_cons]
    by_cases hab : a = b
    · -- 残りに `b` は無いので、残りの数は同じ
      subst hab
      have hrest : l.countP q = l.countP p :=
        countP_congr fun c hc => by rw [hpq c (ne_of_mem_of_not_mem hc ha)]
      omega
    · have := ih hl
      rw [hpq a hab]
      omega

theorem standing_move (typeID b : Nat) (n : Option Nat) (place : Nat → Option Nat) :
    standing cfg typeID (fun a => if a = b then n else place a)
      ≤ standing cfg typeID place + if cfg.binTypeOf b == typeID then 1 else 0 := by
  let stands (place : Nat → Option Nat) (b : Nat) : Bool :=
    cfg.binTypeOf b == typeID && (place b).any cfg.inGroup
  have hother : ∀ a, a ≠ b → stands (fun a => if a = b then n else place a) a = stands place a :=
    fun a hab => by simp only [stands, if_neg hab]
  refine (countP_le_of_eq_except hother cfg.binIDsNodup).trans (Nat.add_le_add_left ?_ _)
  cases htype : cfg.binTypeOf b == typeID with
  | false => simp [stands, htype]
  | true => split <;> decide

theorem travelling_eraseIdx (typeID : Nat) {i : Nat} {fs : List InFlight}
    {f : InFlight} (hf : fs[i]? = some f) :
    travelling cfg typeID fs = travelling cfg typeID (fs.eraseIdx i)
      + if cfg.binTypeOf f.binID == typeID then 1 else 0 := by
  obtain ⟨hi, rfl⟩ := List.getElem?_eq_some_iff.mp hf
  unfold travelling
  rw [← (getElem_cons_eraseIdx_perm hi).countP_eq, countP_cons]

theorem committed_step_arrive (typeID i : Nat) (w : StoreWorld) :
    committed cfg typeID (storeStep cfg w (.arrive i)) ≤ committed cfg typeID w := by
  unfold storeStep
  dsimp only
  cases hf : w.inFlight[i]? with
  | none => exact Nat.le_refl _
  | some f =>
    have hmove := standing_move cfg typeID f.binID (some f.slot.id) w.place
    have herase := travelling_eraseIdx cfg typeID hf
    unfold committed
    dsimp only
    omega

theorem committed_step_resolve (typeID binID : Nat) (c : StoreCall) (w : StoreWorld) :
    committed cfg typeID (storeStep cfg w (.resolve binID c)) = committed cfg typeID w
      + if (resolveFor cfg w binID c).isOk && cfg.binTypeOf binID == typeID then 1 else 0 := by
  unfold storeStep
  dsimp only
  cases resolveFor cfg w binID c with
  | error e => rfl
  | ok slot =>
    unfold committed travelling
    rw [countP_append, countP_singleton]
    exact (Nat.add_assoc _ _ _).symm

/-! ## 条件 -/

def counted (l : MaintainLevel) (w : StoreWorld) (c : StoreCall) : Nat :=
  countEmptyOfTypeInGroup cfg (c.seenAt cfg w.place) (cfg.typeCode l.binTypeID)

/-- slot が選ばれるのは、bin type を渡して数えた数が居る carrier と向かっている carrier を尽くして
いるか、それらが level に届いていない時だけ。 -/
def CountCoversTravelling (l : MaintainLevel) (w : StoreWorld) : StoreAction → Prop
  | .resolve binID c => cfg.binTypeOf binID = l.binTypeID → (resolveFor cfg w binID c).isOk = true →
      c.typed = true ∧ committed cfg l.binTypeID w ≤ counted cfg l w c
        ∨ committed cfg l.binTypeID w < l.want
  | .arrive _ => True

instance (cfg : GroupConfig) (l : MaintainLevel) (w : StoreWorld) :
    ∀ a, Decidable (CountCoversTravelling cfg l w a)
  | .resolve _ _ => inferInstanceAs (Decidable (_ → _ → _ ∨ _))
  | .arrive _ => inferInstanceAs (Decidable True)

/-! ## 実行 -/

theorem counted_lt_want {cfg : GroupConfig} {l : MaintainLevel} {w : StoreWorld} {binID : Nat}
    {c : StoreCall} (hl : l ∈ cfg.levels) (htyped : c.typed = true)
    (htype : cfg.binTypeOf binID = l.binTypeID)
    (hok : (resolveFor cfg w binID c).isOk = true) : counted cfg l w c < l.want := by
  cases hr : resolveFor cfg w binID c with
  | error e => rw [hr] at hok; cases hok
  | ok slot =>
    have hfull := resolveStore_ok hr
    rw [htyped, if_pos rfl, htype] at hfull
    exact count_lt_want hl hfull

theorem committed_le_step {cfg : GroupConfig} {l : MaintainLevel} {n : Nat} (hl : l ∈ cfg.levels)
    (w : StoreWorld) (a : StoreAction) (hw : committed cfg l.binTypeID w ≤ max l.want n)
    (ha : CountCoversTravelling cfg l w a) :
    committed cfg l.binTypeID (storeStep cfg w a) ≤ max l.want n := by
  cases a with
  | arrive i => exact (committed_step_arrive cfg l.binTypeID i w).trans hw
  | resolve binID c =>
    rw [committed_step_resolve]
    split
    · rename_i hplaced
      obtain ⟨hok, htype⟩ := Bool.and_eq_true_iff.mp hplaced
      have htype := beq_iff_eq.mp htype
      have hlt : committed cfg l.binTypeID w < l.want := by
        rcases ha htype hok with ⟨htyped, hcov⟩ | hlt
        · exact hcov.trans_lt (counted_lt_want hl htyped htype hok)
        · exact hlt
      exact (Nat.succ_le_of_lt hlt).trans (Nat.le_max_left _ _)
    · exact hw

/-- **居る carrier は、宣言された level と始めに居た数の大きい方を超えない。** -/
theorem level_is_cap (cfg : GroupConfig) (l : MaintainLevel) (hl : l ∈ cfg.levels)
    (place : Nat → Option Nat) (as : List StoreAction)
    (hok : AllSteps (storeStep cfg) (CountCoversTravelling cfg l) ⟨place, []⟩ as) :
    ∀ w ∈ visited (storeStep cfg) ⟨place, []⟩ as,
      standing cfg l.binTypeID w.place ≤ max l.want (standing cfg l.binTypeID place) := by
  intro w hw
  have h := hok.visited_of_inv (committed_le_step hl)
    (Nat.le_max_right l.want (standing cfg l.binTypeID place)) w hw
  exact (Nat.le_add_right _ _).trans h

/-! ## press の空 carrier の置き場 -/

def pressBank : GroupConfig where
  nodes :=
    [{ id := 1, name := "BANK", isSynthetic := true },
     { id := 2, name := "BANK-1", parentID := some 1 },
     { id := 3, name := "BANK-2", parentID := some 1 },
     { id := 4, name := "PRESS" }]
  nodeIDs := by decide
  group := { id := 1, name := "BANK", isSynthetic := true }
  levels := [⟨7, 1⟩]
  levelTypes := nodup_singleton 7
  binIDs := [1, 2]
  binIDsNodup := by decide
  binIDsPos := by decide
  binTypeOf := fun _ => 7
  typeCode := fun _ => "45x48"

def bankCall (orders : List Order) : StoreCall where
  tables := { store := { plant := Plant.vacant pressBank.nodes pressBank.nodeIDs, orders } }
  binRow := fun id => { id }
  payloadCode := ""
  asker := anyone

def bankOrder : Order := { id := 11, status := .inTransit, deliveryNode := "BANK-1" }

def bankOneByOne : List StoreAction :=
  [.resolve 1 (bankCall []), .arrive 0, .resolve 2 (bankCall [])]

theorem level_is_cap_bank :
    AllSteps (storeStep pressBank) (CountCoversTravelling pressBank ⟨7, 1⟩) ⟨fun _ => some 4, []⟩
        bankOneByOne
      ∧ standing pressBank 7
          (runSteps (storeStep pressBank) ⟨fun _ => some 4, []⟩ bankOneByOne).place = 1
      ∧ ∀ w ∈ visited (storeStep pressBank) ⟨fun _ => some 4, []⟩ bankOneByOne,
          standing pressBank 7 w.place ≤ max 1 (standing pressBank 7 fun _ => some 4) := by
  refine ⟨?ok, by decide, level_is_cap pressBank ⟨7, 1⟩ (by decide) _ _ ?ok⟩
  decide

def bankBothTravelling : List StoreAction :=
  [.resolve 1 (bankCall []), .resolve 2 (bankCall [bankOrder]), .arrive 0, .arrive 0]

/-- **level は 1 で始めは何も居ないが、二つとも slot をもらい、二つとも着く。** -/
theorem second_store_past_level :
    (⟨7, 1⟩ : MaintainLevel) ∈ pressBank.levels
      ∧ standing pressBank 7 (fun _ => some 4) = 0
      ∧ standing pressBank 7
          (runSteps (storeStep pressBank) ⟨fun _ => some 4, []⟩ bankBothTravelling).place = 2
      ∧ ¬ ∀ w ∈ visited (storeStep pressBank) ⟨fun _ => some 4, []⟩ bankBothTravelling,
          standing pressBank 7 w.place ≤ max 1 (standing pressBank 7 fun _ => some 4) := by
  refine ⟨by decide, by decide, by decide, ?_⟩
  intro h
  exact absurd (h _ (mem_visited_runSteps _ _)) (by decide)

/-! ## lane の中の slot -/

/-- 空いていて口から届き、置いても、取りに来る者のいる bin を埋めない slot。 -/
structure OpenSlot (v : StoreTables) (laneID excludeOrderID : Nat) (n : NodeRow) : Prop where
  mem : n ∈ v.plant.nodes
  inLane : n.parentID = some laneID
  concrete : n.isSynthetic = false
  empty : v.occupied n = false
  unheld : v.heldByOther excludeOrderID n = false
  reachable : ∀ m ∈ v.plant.nodes, v.occupied m = true → shallowerInSameLane m n = false
  buriesNone : ∀ held ∈ v.plant.nodes, shallowerInSameLane n held = true →
    ∀ b ∈ v.plant.bins, b.nodeID = some held.id → ∀ holder ∈ v.orders,
      holder.id ≠ excludeOrderID → holder.status.isTerminal = false →
        v.comesFor holder held b = false

theorem openSlot_iff {v : StoreTables} {laneID excludeOrderID : Nat} {n : NodeRow} :
    OpenSlot v laneID excludeOrderID n ↔
      n ∈ v.plant.nodes ∧ v.storeSlotOpen laneID excludeOrderID true n = true := by
  simp only [StoreTables.storeSlotOpen, Bool.and_eq_true, Bool.not_eq_true', beq_iff_eq,
    Bool.true_and, StoreTables.buried, StoreTables.wouldBury, any_eq_false]
  constructor
  · rintro ⟨hmem, hlane, hconc, hempty, hheld, hfront, hbury⟩
    refine ⟨hmem, ⟨⟨⟨⟨hlane, hconc⟩, hempty⟩, hheld⟩, ?_⟩, ?_⟩
    · simpa using hfront
    · simpa using hbury
  · rintro ⟨hmem, ⟨⟨⟨⟨hlane, hconc⟩, hempty⟩, hheld⟩, hfront⟩, hbury⟩
    exact ⟨hmem, hlane, hconc, hempty, hheld, by simpa using hfront, by simpa using hbury⟩

/-- **選ばれるのは置いてよい slot で、その中で一番奥のもの。** -/
theorem store_slot_deepest (v : StoreTables) (laneID excludeOrderID : Nat) (n : NodeRow)
    (h : findStoreSlotInLaneExcluding v laneID excludeOrderID = .ok n) :
    OpenSlot v laneID excludeOrderID n ∧
      ∀ m, OpenSlot v laneID excludeOrderID m → m.depth.getD 0 ≤ n.depth.getD 0 := by
  unfold findStoreSlotInLaneExcluding at h
  split at h
  · rename_i k hk
    cases h
    refine ⟨openSlot_iff.mpr (StoreTables.findStoreSlot_spec hk), fun m hm => ?_⟩
    let r := fun a b : NodeRow => b.depth.getD 0 ≤ a.depth.getD 0
    have hsorted := pairwise_insertionSort r
      (v.plant.nodes.filter (v.storeSlotOpen laneID excludeOrderID true))
    have hmem := (mem_insertionSort r).mpr (mem_filter.mpr (openSlot_iff.mp hm))
    obtain ⟨rest, heq⟩ := List.head?_eq_some_iff.mp hk
    rw [heq] at hsorted hmem
    rcases mem_cons.mp hmem with rfl | hmem
    · exact Int.le_refl _
    · exact (pairwise_cons.mp hsorted).1 m hmem
  · split at h <;> cases h

def burstLane : StoreTables where
  plant := Plant.vacant
    [{ id := 2, name := "L-1", parentID := some 1, depth := some 1 },
      { id := 3, name := "L-2", parentID := some 1, depth := some 2 }] (by decide)
  slotClaim n := if n == 3 then some 9 else none

theorem store_slot_deepest_burst :
    ∃ n, findStoreSlotInLaneExcluding burstLane 1 9 = .ok n ∧ OpenSlot burstLane 1 9 n ∧
      ∀ m, OpenSlot burstLane 1 9 m → m.depth.getD 0 ≤ n.depth.getD 0 :=
  ⟨_, rfl, store_slot_deepest burstLane 1 9 _ rfl⟩

/-- 手前の slot が選ばれ、order 9 の押さえた奥の slot は壁の向こうになる。 -/
theorem store_slot_walls_off_reserved :
    ∃ n deep, findStoreSlotInLaneExcluding burstLane 1 0 = .ok n ∧ deep ∈ burstLane.plant.nodes
      ∧ shallowerInSameLane n deep = true ∧ burstLane.occupied deep = false
      ∧ burstLane.heldByOther 0 deep = true :=
  ⟨_, { id := 3, name := "L-2", parentID := some 1, depth := some 2 }, rfl, by decide⟩

end Shingo.Dispatch
