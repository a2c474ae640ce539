import Shingo.Core.StrandedTransit
import Shingo.Properties.BinPlacement

/-!
# 推し量った居場所は正しいか

robot の知らせから推し量った bin の居場所が、実際に下ろされた所かどうか。

推量が bin を動かすのは、carrier か、deck が空と知らせた robot の立つ node へだけ
（`Reckons`）。知らせが下ろした所のものであれば、記録は正しい（`FloorInv`）。下ろした後で robot が
走り、それから知らせが届くと、次に立った所が居場所になる。
-/

namespace Shingo.Core

open Infra List Ledger Plant Function Option

/-! ## carrier の名前 -/

theorem trimSpace_carrierNodeName_ne (robotID : String) :
    trimSpace (Engine.carrierNodeName robotID) ≠ transitNodeName := by
  have hcs : (Engine.carrierNodeName robotID).toList =
      '_' :: 'R' :: ("OBOT:".toList ++ robotID.toList) := by
    rw [Engine.carrierNodeName, String.toList_append]
    rfl
  have hpre : (trimSpace (Engine.carrierNodeName robotID)).toList <+:
      '_' :: 'R' :: ("OBOT:".toList ++ robotID.toList) := by
    unfold trimSpace
    rw [String.toList_ofList, hcs, dropWhile_cons_of_neg (by decide), ← reverse_suffix,
      reverse_reverse]
    exact dropWhile_suffix _
  intro h
  rw [h] at hpre
  have htransit : transitNodeName.toList = '_' :: 'T' :: "RANSIT".toList := by decide
  rw [htransit, cons_prefix_cons, cons_prefix_cons] at hpre
  exact absurd hpre.2.1 (by decide)

/-! ## node の表 -/

variable {b : BinRow} {orderID binID : Nat} {rank : Nat → Nat} {st : RobotStatus} {a : SiteAction}
  {robotID : String} {f : Floor}

namespace Plant

variable {v v' v'' : Plant} {n : NodeRow} {id : Nat}

theorem getNodeByName_spec {name : String} (h : v.getNodeByName name = some n) :
    n ∈ v.nodes ∧ n.name = name :=
  ⟨mem_of_find?_eq_some h, by simpa using List.find?_some h⟩

theorem getNode_spec (h : v.getNode id = some n) : n ∈ v.nodes ∧ n.id = id :=
  ⟨mem_of_find?_eq_some h, by simpa using List.find?_some h⟩

theorem node_eq {m : NodeRow} (hn : n ∈ v.nodes) (hm : m ∈ v.nodes) (h : n.id = m.id) : n = m :=
  inj_on_of_nodup_map v.nodeIDs hn hm h

theorem getBin_id (h : v.getBin id = some b) : b.id = id := by
  simpa using List.find?_some h

def GainsCarriers (v v' : Plant) : Prop :=
  ∃ extra, v'.nodes = v.nodes ++ extra ∧
    ∀ n ∈ extra, n.isSynthetic = true ∧ n.name ≠ transitNodeName

namespace GainsCarriers

theorem of_nodes (h : v'.nodes = v.nodes) : v.GainsCarriers v' :=
  ⟨[], by rw [h, append_nil], forall_mem_nil _⟩

theorem refl (v : Plant) : v.GainsCarriers v := of_nodes rfl

section

variable (h : v.GainsCarriers v')
include h

theorem trans (h' : v'.GainsCarriers v'') : v.GainsCarriers v'' := by
  obtain ⟨xs, hxs, hx⟩ := h
  obtain ⟨ys, hys, hy⟩ := h'
  refine ⟨xs ++ ys, by rw [hys, hxs, append_assoc], fun n hn => ?_⟩
  rcases mem_append.mp hn with hn | hn
  · exact hx n hn
  · exact hy n hn

theorem subset (hn : n ∈ v.nodes) : n ∈ v'.nodes := by
  obtain ⟨extra, hextra, -⟩ := h
  rw [hextra]
  exact mem_append_left _ hn

theorem mem (hn : n ∈ v'.nodes) : n ∈ v.nodes ∨ n.isSynthetic = true := by
  obtain ⟨extra, hextra, hcarrier⟩ := h
  rw [hextra] at hn
  exact (mem_append.mp hn).imp_right fun hnew => (hcarrier n hnew).1

theorem filter_getNodeByName (name : String) :
    (v'.getNodeByName name).filter (fun n => !n.isSynthetic) =
      (v.getNodeByName name).filter fun n => !n.isSynthetic := by
  obtain ⟨extra, hextra, hcarrier⟩ := h
  unfold getNodeByName
  rw [hextra, List.find?_append]
  cases v.nodes.find? (·.name == name) with
  | some m => rfl
  | none =>
    cases hfind : extra.find? (·.name == name) with
    | none => rfl
    | some n => simp [(hcarrier n (mem_of_find?_eq_some hfind)).1]

/-- **増えた carrier は、robot の立つ node の引き方を変えない。** -/
theorem resolveRobotStation (st : RobotStatus) :
    v'.resolveRobotStation st = v.resolveRobotStation st := by
  unfold Plant.resolveRobotStation
  simp only [h.filter_getNodeByName]

theorem nodeNameOf (hb : v'.nodeNameOf b = some transitNodeName) :
    v.nodeNameOf b = some transitNodeName := by
  obtain ⟨extra, hextra, hcarrier⟩ := h
  unfold Plant.nodeNameOf at hb ⊢
  obtain ⟨n, hn, hname⟩ := map_eq_some_iff.mp hb
  obtain ⟨id, hid, hget⟩ := bind_eq_some_iff.mp hn
  unfold getNode at hget
  rw [hextra, List.find?_append] at hget
  rw [hid, bind_some, getNode]
  cases hfind : v.nodes.find? (·.id == id) with rw [hfind] at hget
  | some m =>
    rw [show m = n from some.inj hget]
    exact congrArg some hname
  | none =>
    exact absurd hname (hcarrier n (mem_of_find?_eq_some hget)).2

end

end GainsCarriers

end Plant

/-! ## 推量が書くもの -/

namespace Engine

variable {w w' w'' : Engine} {P : Nat → Nat → Prop}

def CarrierID (w : Engine) (nodeID : Nat) : Prop :=
  ∀ m ∈ w.ledger.plant.nodes, m.id = nodeID → ∃ robotID, m.name = carrierNodeName robotID

/--
推量の前後。`P b n` は、bin `b` を node `n` に移してよいこと。

claim と order の row には触れず、node は carrier が増えるだけ。
-/
structure Reckons (P : Nat → Nat → Prop) (w w' : Engine) : Prop where
  robots : w'.robots = w.robots
  columns : w'.columns = w.columns
  outbox : w'.outbox = w.outbox
  orders : w'.ledger.orders = w.ledger.orders
  nodes : w.ledger.plant.GainsCarriers w'.ledger.plant
  bins : ∀ b' ∈ w'.ledger.plant.bins, ∃ b ∈ w.ledger.plant.bins, b.id = b'.id ∧
    b'.claimedBy = b.claimedBy ∧
      (b'.nodeID = b.nodeID ∨ ∃ n, b'.nodeID = some n ∧ P b.id n)

namespace Reckons

theorem refl (P : Nat → Nat → Prop) (w : Engine) : Reckons P w w where
  robots := rfl
  columns := rfl
  outbox := rfl
  orders := rfl
  nodes := .refl w.ledger.plant
  bins := fun b hb => ⟨b, hb, rfl, rfl, .inl rfl⟩

theorem trans (h : Reckons P w w') (h' : Reckons P w' w'') : Reckons P w w'' where
  robots := h'.robots.trans h.robots
  columns := h'.columns.trans h.columns
  outbox := h'.outbox.trans h.outbox
  orders := h'.orders.trans h.orders
  nodes := h.nodes.trans h'.nodes
  bins := by
    intro b'' hb''
    obtain ⟨b', hb', hid', hc', hn'⟩ := h'.bins b'' hb''
    obtain ⟨b, hb, hid, hc, hn⟩ := h.bins b' hb'
    refine ⟨b, hb, hid.trans hid', hc'.trans hc, ?_⟩
    rcases hn' with hn' | ⟨n, hn', hp⟩
    · rw [hn']
      exact hn
    · exact .inr ⟨n, hn', by rw [hid]; exact hp⟩

end Reckons

theorem reckons_strandedAnomaly (w : Engine) (binID : Nat) (robotID : String)
    (robot : Option RobotStatus) (why : StrandedReason) :
    Reckons P w (w.strandedAnomaly binID robotID robot why) :=
  { Reckons.refl P w with }

theorem relocate_cases (binID toNodeID : Nat) (b : BinRow) :
    (relocate binID toNodeID b).claimedBy = b.claimedBy ∧
      ((relocate binID toNodeID b).nodeID = b.nodeID ∨
        b.id = binID ∧ (relocate binID toNodeID b).nodeID = some toNodeID) := by
  unfold relocate
  split
  · rename_i h
    exact ⟨rfl, .inr ⟨h, rfl⟩⟩
  · exact ⟨rfl, .inl rfl⟩

theorem moved_cases (clearStaging : Bool) (binID toNodeID : Nat) (b : BinRow) :
    (moved clearStaging binID toNodeID b).claimedBy =
        (relocate binID toNodeID b).claimedBy ∧
      (moved clearStaging binID toNodeID b).nodeID =
        (relocate binID toNodeID b).nodeID := by
  unfold moved
  split
  · exact ⟨rfl, rfl⟩
  · exact ⟨rfl, rfl⟩

theorem reckons_updateBins {f : BinRow → BinRow} (hf : ∀ b, (f b).id = b.id) {n : Nat}
    (hcases : ∀ b, (f b).claimedBy = b.claimedBy ∧
      ((f b).nodeID = b.nodeID ∨ b.id = binID ∧ (f b).nodeID = some n))
    (hP : P binID n) : Reckons P w { w with ledger := w.ledger.updateBins f hf } := by
  refine { Reckons.refl P w with bins := fun b' hb' => ?_ }
  obtain ⟨b, hb, rfl⟩ := mem_map.mp hb'
  obtain ⟨hclaim, hnode⟩ := hcases b
  refine ⟨b, hb, (hf b).symm, hclaim, ?_⟩
  rcases hnode with hnode | ⟨hid, hnode⟩
  · exact .inl hnode
  · exact .inr ⟨n, hnode, by rw [hid]; exact hP⟩

theorem carrierNode_spec (w : Engine) (robotID : String) :
    Reckons P w (w.carrierNode robotID).1 ∧ w.CarrierID (w.carrierNode robotID).2.id := by
  unfold carrierNode
  cases h : w.ledger.plant.getNodeByName (carrierNodeName robotID) with
  | some node =>
    refine ⟨Reckons.refl P w, fun m hm hid => ⟨robotID, ?_⟩⟩
    obtain ⟨hmem, hname⟩ := getNodeByName_spec h
    rw [node_eq hm hmem hid, hname]
  | none =>
    refine ⟨{ Reckons.refl P w with nodes := ?_ }, fun m hm hid => ?_⟩
    · refine ⟨_, rfl, fun n hn => ?_⟩
      rw [mem_singleton.mp hn]
      exact ⟨rfl, trimSpace_carrierNodeName_ne robotID⟩
    · -- 作った node の id は、それまでの id のどれよりも大きい
      have hle : m.id ≤ (w.ledger.plant.nodes.map NodeRow.id).max?.getD 0 :=
        le_max?_getD_of_mem (mem_map_of_mem hm)
      rw [hid] at hle
      exact absurd hle (Nat.not_succ_le_self _)

variable {l l' : Ledger}

theorem moveBin_some {isStorageSlot : Nat → Bool} {n : Nat}
    (h : l.moveBin isStorageSlot b n = some l') : l' = l.updateBins (moved (isStorageSlot n) b.id n)
      (moved_id (isStorageSlot n) b.id n) := by
  unfold moveBin at h
  split at h
  · cases h
  split at h
  · cases h
  split at h
  · cases h
  split at h
  · cases h
  · exact (some.inj h).symm

theorem recoverTransitAnomaly_ok {n : Nat} (h : l.recoverTransitAnomaly binID n = .ok l') :
    l' = l.updateBins (relocate binID n) (relocate_id binID n) := by
  unfold recoverTransitAnomaly at h
  split at h
  · cases h
  split at h
  · cases h
  split at h
  · cases h
  split at h
  · cases h
  · cases h
    rfl

theorem reckons_parkOnCarrier (hpark : ∀ n, w.CarrierID n → P binID n) (robot : RobotStatus) :
    Reckons P w (w.parkOnCarrier binID robotID robot) := by
  unfold parkOnCarrier
  split
  · exact reckons_strandedAnomaly w binID robotID (some robot) .namesNoRobot
  obtain ⟨hreck, hid⟩ := carrierNode_spec (P := P) w robotID
  revert hreck hid
  generalize w.carrierNode robotID = made
  obtain ⟨w₁, node⟩ := made
  intro hreck hid
  dsimp only
  split
  · exact hreck
  rename_i bin hbin
  have hbid : bin.id = binID := getBin_id hbin
  split
  · rename_i ledger hmove
    rw [moveBin_some hmove]
    refine hreck.trans (reckons_updateBins _ (fun b => ?_) (hpark node.id hid))
    obtain ⟨hc, hn⟩ := moved_cases (w₁.isStorageSlot node.id) bin.id node.id b
    rw [hc, hn, hbid]
    exact relocate_cases binID node.id b
  · exact hreck.trans (reckons_strandedAnomaly w₁ binID robotID (some robot) .stillOnDeck)

theorem reckons_placeAtStation {robot : RobotStatus}
    (hplace : ∀ node, w.ledger.plant.resolveRobotStation robot = some node → P binID node.id)
    (unknown : StrandedReason) (refused : String → RecoverError → StrandedReason) :
    Reckons P w (w.placeAtStation binID robotID robot unknown refused) := by
  unfold placeAtStation
  split
  · exact reckons_strandedAnomaly w binID robotID (some robot) unknown
  rename_i node hnode
  split
  · exact reckons_strandedAnomaly w binID robotID (some robot) _
  rename_i ledger hok
  rw [recoverTransitAnomaly_ok hok]
  exact reckons_updateBins _ (relocate_cases binID node.id) (hplace node hnode)

/-- **推量は、bin を carrier か、deck の空いた robot の立つ node にしか移さない。** -/
theorem reckons_placeStrandedBin {robot : Option RobotStatus}
    (hpark : ∀ n, w.CarrierID n → P binID n)
    (hplace : ∀ st node, robot = some st → robotCarryingBin st = some false →
      w.ledger.plant.resolveRobotStation st = some node → P binID node.id) :
    Reckons P w (w.placeStrandedBin binID robotID robot) := by
  unfold placeStrandedBin
  split
  · exact reckons_strandedAnomaly w binID robotID none .noTelemetry
  rename_i st
  split
  · exact reckons_strandedAnomaly w binID robotID (some st) .jackNotAtRest
  · exact reckons_parkOnCarrier hpark st
  · rename_i hempty
    exact reckons_placeAtStation (fun node hnode => hplace st node rfl hempty hnode) _ _

theorem reckons_inferStrandedTransitBin
    (hpark : ∀ b ∈ w.ledger.plant.bins, w.isStranded b = true → ∀ n, w.CarrierID n → P b.id n)
    (hplace : ∀ order ∈ w.getOrder orderID, ∀ b ∈ w.ledger.plant.bins, order.binID = some b.id →
      w.isStranded b = true → ∀ st node, w.robots order.robotID = some st →
      robotCarryingBin st = some false → w.ledger.plant.resolveRobotStation st = some node →
      P b.id node.id) : Reckons P w (w.inferStrandedTransitBin orderID) := by
  unfold inferStrandedTransitBin
  split
  · exact .refl P w
  rename_i order horder
  split
  · exact .refl P w
  rename_i bin hbin
  obtain ⟨id, hid, hget⟩ := bind_eq_some_iff.mp hbin
  have hmem : bin ∈ w.ledger.plant.bins := mem_of_find?_eq_some hget
  have hname : order.binID = some bin.id := by rw [hid, getBin_id hget]
  split
  · rename_i hstranded
    exact reckons_placeStrandedBin (hpark bin hmem hstranded)
      (hplace order horder bin hmem hname hstranded)
  · exact .refl P w

/-! ## 見回りの書くもの -/

theorem Reckons.foldl {α : Type*} {g : Engine → α → Engine} {xs : List α}
    (hstep : ∀ v x, x ∈ xs → Reckons P w v → Reckons P v (g v x)) : Reckons P w (xs.foldl g w) := by
  refine xs.foldlRecOn g (.refl P w) ?_
  intro v hv x hx
  exact hv.trans (hstep v x hx hv)

theorem reckons_sweepCarriedBins
    (hplace : ∀ c ∈ w.listBinsOnCarrierNodes, ∀ st node, w.robots c.2 = some st →
      robotCarryingBin st = some false → w.ledger.plant.resolveRobotStation st = some node →
      P c.1 node.id) : Reckons P w w.sweepCarriedBins := by
  refine Reckons.foldl fun v c hc hv => ?_
  unfold sweepCarriedBin
  split
  · exact .refl P v
  rename_i st hst
  split
  · rename_i hempty
    refine reckons_placeAtStation (fun node hnode => ?_) _ _
    rw [hv.robots] at hst
    rw [hv.nodes.resolveRobotStation] at hnode
    exact hplace c hc st node hst hempty hnode
  · exact .refl P v

theorem Reckons.lastClaimingRobot (h : Reckons P w w') (binID : Nat) :
    w'.lastClaimingRobot binID = w.lastClaimingRobot binID := by
  unfold Engine.lastClaimingRobot
  rw [h.orders, h.columns]

theorem reckons_sweepStrandedBins (hcarried : Reckons P w w.sweepCarriedBins)
    (hpark : ∀ id n, w.CarrierID n → P id n) (hplace : ∀ id ∈ w.sweepCarriedBins.listStranded rank,
      ∀ robotID st node, w.lastClaimingRobot id = some robotID → w.robots robotID = some st →
      robotCarryingBin st = some false → w.ledger.plant.resolveRobotStation st = some node →
      P id node.id) : Reckons P w (w.sweepStrandedBins rank) := by
  refine hcarried.trans (Reckons.foldl fun v id hid hv => ?_)
  have hfrom : Reckons P w v := hcarried.trans hv
  unfold sweepStrandedBin
  split
  · exact reckons_strandedAnomaly v id "" none .noClaimingOrder
  rename_i robotID hrobot
  rw [hfrom.lastClaimingRobot] at hrobot
  refine reckons_placeStrandedBin ?_ fun st node hst hempty hnode => ?_
  · exact fun n hn => hpark id n fun m hm hmid => hn m (hfrom.nodes.subset hm) hmid
  · rw [hfrom.robots] at hst
    rw [hfrom.nodes.resolveRobotStation] at hnode
    exact hplace id hid robotID st node hrobot hst hempty hnode

end Engine

/-! ## 床の不変条件 -/

structure FloorInv (f : Floor) : Prop where
  lifted : ∀ r b, (f.robots r).deck = some b → f.carrier b = some r
  aloft : ∀ r b, (f.robots r).deck = some b → f.place b = none
  put : ∀ r b, b ∈ (f.robots r).puts → f.carrier b = some r →
    (f.robots r).deck = some b ∨ f.setDown b = some (r, (f.robots r).spot)
  stands : ∀ b r p, f.setDown b = some (r, p) → f.place b = some p ∧ f.carrier b = some r

namespace FloorInv

theorem drive_deck (f : Floor) (robotID spot r : String) :
    ((f.drive robotID spot).robots r).deck = (f.robots r).deck := by
  unfold Floor.drive
  by_cases hr : r = robotID
  · simp [hr]
  · simp [hr]

theorem drive (h : FloorInv f) (robotID spot : String) : FloorInv (f.drive robotID spot) where
  lifted r b hdeck := h.lifted r b (drive_deck f robotID spot r ▸ hdeck)
  aloft r b hdeck := h.aloft r b (drive_deck f robotID spot r ▸ hdeck)
  put := by
    intro r b hput hcarrier
    by_cases hr : r = robotID
    · subst hr
      simp [Floor.drive] at hput
    · simp only [Floor.drive, update_of_ne hr] at hput hcarrier ⊢
      exact h.put r b hput hcarrier
  stands := h.stands

theorem load (h : FloorInv f) (robotID : String) (binID : Nat) :
    FloorInv (f.load robotID binID) := by
  unfold Floor.load
  dsimp only
  split
  case isFalse => exact h
  case isTrue hcan =>
    obtain ⟨hempty, hplace⟩ := hcan
    -- 同じ所に在る bin は、どの deck にも載っていない
    have hdown : ∀ r b, (f.robots r).deck = some b → b ≠ binID := by
      rintro r b hdeck rfl
      rw [h.aloft r b hdeck] at hplace
      cases hplace
    -- 載っているのは、今載せた bin か、前から載っていた別の bin
    have hdecks : ∀ r b, (update f.robots robotID
        { f.robots robotID with deck := some binID } r).deck = some b →
          r = robotID ∧ b = binID ∨ b ≠ binID ∧ (f.robots r).deck = some b := by
      intro r b hdeck
      by_cases hr : r = robotID
      · subst hr
        exact .inl ⟨rfl, by simpa using hdeck.symm⟩
      · rw [update_of_ne hr] at hdeck
        exact .inr ⟨hdown r b hdeck, hdeck⟩
    refine ⟨?_, ?_, ?_, ?_⟩
    · intro r b hdeck
      rcases hdecks r b hdeck with ⟨rfl, rfl⟩ | ⟨hb, hold⟩
      · exact update_self ..
      · simp only [update_of_ne hb]
        exact h.lifted r b hold
    · intro r b hdeck
      rcases hdecks r b hdeck with ⟨rfl, rfl⟩ | ⟨hb, hold⟩
      · exact update_self ..
      · simp only [update_of_ne hb]
        exact h.aloft r b hold
    · intro r b hput hcarrier
      by_cases hb : b = binID
      · subst hb
        obtain rfl : robotID = r := by simpa using hcarrier
        exact .inl (by simp)
      · simp only [update_of_ne hb] at hcarrier ⊢
        by_cases hr : r = robotID
        · subst hr
          simp only [update_self] at hput ⊢
          rcases h.put r b hput hcarrier with hdeck | hset
          · rw [hempty] at hdeck
            cases hdeck
          · exact .inr hset
        · simp only [update_of_ne hr] at hput ⊢
          exact h.put r b hput hcarrier
    · intro b r p hset
      by_cases hb : b = binID
      · subst hb
        simp at hset
      · simp only [update_of_ne hb] at hset ⊢
        exact h.stands b r p hset

theorem unload (h : FloorInv f) (robotID : String) : FloorInv (f.unload robotID) := by
  unfold Floor.unload
  dsimp only
  split
  · exact h
  rename_i binID hdeck₀
  -- 下ろす bin を載せているのは、この robot だけ
  have hown : ∀ r, f.carrier binID = some r → r = robotID := by
    intro r hr
    rw [h.lifted robotID binID hdeck₀] at hr
    exact (some.inj hr).symm
  -- 載ったままなのは、別の robot の別の bin
  have hdecks : ∀ r b, (update f.robots robotID { f.robots robotID with
      deck := none, puts := binID :: (f.robots robotID).puts } r).deck = some b →
        b ≠ binID ∧ (f.robots r).deck = some b := by
    intro r b hdeck
    by_cases hr : r = robotID
    · subst hr
      simp at hdeck
    · rw [update_of_ne hr] at hdeck
      exact ⟨fun hb => hr (hown r (hb ▸ h.lifted r b hdeck)), hdeck⟩
  refine ⟨fun r b hdeck => h.lifted r b (hdecks r b hdeck).2, ?_, ?_, ?_⟩
  · intro r b hdeck
    obtain ⟨hb, hold⟩ := hdecks r b hdeck
    simp only [update_of_ne hb]
    exact h.aloft r b hold
  · intro r b hput hcarrier
    by_cases hb : b = binID
    · subst hb
      obtain rfl := hown r hcarrier
      exact .inr (by simp)
    · simp only [update_of_ne hb]
      by_cases hr : r = robotID
      · subst hr
        simp only [update_self] at hput ⊢
        have hput' : b ∈ (f.robots r).puts := (mem_cons.mp hput).resolve_left hb
        rcases h.put r b hput' hcarrier with hdeck | hset
        · rw [hdeck₀] at hdeck
          exact absurd (some.inj hdeck).symm hb
        · exact .inr hset
      · simp only [update_of_ne hr] at hput ⊢
        exact h.put r b hput hcarrier
  · intro b r p hset
    by_cases hb : b = binID
    · subst hb
      simp only [update_self, some.injEq, Prod.mk.injEq] at hset ⊢
      obtain ⟨rfl, rfl⟩ := hset
      exact ⟨rfl, h.lifted robotID b hdeck₀⟩
    · simp only [update_of_ne hb] at hset ⊢
      exact h.stands b r p hset

/-- **まだ走っていない robot の、空の deck の知らせは、下ろした場所を言い当てる。** -/
theorem setDown_of_puts (h : FloorInv f) (hput : binID ∈ (f.robots robotID).puts)
    (hcarrier : f.carrier binID = some robotID) (htrue : f.Truthful robotID st)
    (hempty : robotCarryingBin st = some false) :
    f.setDown binID = some (robotID, (f.robots robotID).spot) := by
  rcases h.put robotID binID hput hcarrier with hdeck | hset
  · have hfull := htrue.1 false hempty
    rw [hdeck] at hfull
    cases hfull
  · exact hset

end FloorInv

/-! ## 帳簿の transaction と node -/

namespace Ledger

variable {w w' : Ledger}

theorem claimAndConfirm_nodes {uop : Option Int}
    (h : w.claimAndConfirm binID orderID uop = .ok w') : w'.plant.nodes = w.plant.nodes := by
  unfold claimAndConfirm at h
  split at h
  · cases h
    rfl
  · cases h

theorem createCompoundChild_nodes {child : OrderRow}
    (h : w.createCompoundChild child = .ok w') : w'.plant.nodes = w.plant.nodes := by
  unfold createCompoundChild at h
  cases hc : w.createOrder child with
  | error e => rw [hc] at h; cases h
  | ok w₁ =>
    have hplant := (createOrder_ok hc).1
    rw [hc] at h
    cases hbin : child.binID with rw [hbin] at h
    | none =>
      cases h
      rw [hplant]
    | some binID =>
      obtain ⟨-, -, -, -, hnodes⟩ := claimForChild_ok h
      rw [hnodes, hplant]

theorem placeBin_nodes {p : BinPlacement} {ids : List Nat} (h : w.placeBin p = .ok (w', ids)) :
    w'.plant.nodes = w.plant.nodes := by
  obtain ⟨w₁, ids₁, hevict, rfl⟩ := placeBin_ok h
  rw [putDown_nodes]
  rcases evictStaleGhostBins_ok hevict with rfl | ⟨_, _, -, -, rfl⟩
  · rfl
  · rfl

theorem ledgerStep_nodes (w : Ledger) (a : LedgerAction) :
    (ledgerStep w a).plant.nodes = w.plant.nodes := by
  have hresult : ∀ r : Except LedgerError Ledger,
      (∀ v, r = .ok v → v.plant.nodes = w.plant.nodes) →
        (r.toOption.getD w).plant.nodes = w.plant.nodes :=
    fun _ h => toOption_getD_of (P := fun v : Ledger => v.plant.nodes = w.plant.nodes) rfl h
  cases a with
  | reserveForDispatch binID orderID => exact hresult _ fun _ h => (reserveForDispatch_ok h).2.1.1
  | claimAndConfirm binID orderID uop => exact hresult _ fun _ h => claimAndConfirm_nodes h
  | createCompoundChildren children =>
    refine hresult _ fun v h => ?_
    refine foldlM_ok_inv (P := fun v => v.plant.nodes = w.plant.nodes) ?_ h rfl
    exact fun child _ u u' hu hstep => (createCompoundChild_nodes hstep).trans hu
  | releaseClaimForBin binID orderID | releaseClaimByOrder orderID
  | terminalizeOrder orderID status => rfl
  | placeBin p =>
    cases h : w.placeBin p with
    | error e => simp [ledgerStep, h, Except.toOption]
    | ok r =>
      rw [ledgerStep_placeBin h]
      exact placeBin_nodes h

end Ledger

/-! ## 実行 -/

def SiteAction.asks (w : Engine) : SiteAction → List (Nat × String)
  | .ended orderID status =>
    let w := w.endOrder orderID status
    ((w.getOrder orderID).bind fun order =>
      ((order.binID.bind w.ledger.plant.getBin).filter w.isStranded).map fun b =>
        (b.id, order.robotID)).toList
  | .sweepCarried => w.listBinsOnCarrierNodes
  | .sweepStranded rank =>
    w.listBinsOnCarrierNodes ++ (w.sweepCarriedBins.listStranded rank).filterMap fun id =>
      (w.lastClaimingRobot id).map fun robotID => (id, robotID)
  | _ => []

/--
問われた robot の知らせが、置いてよいもの。

deck が空と知らせた robot が最後にその bin を持ち上げた robot で、下ろしてからまだ走っておらず、
知らせは今のありさまで、立っている所は physical な node。
-/
def Site.Prompt (s : Site) (ask : Nat × String) : Prop :=
  ∀ st ∈ s.engine.robots ask.2, robotCarryingBin st = some false →
    s.floor.carrier ask.1 = some ask.2 ∧ ask.1 ∈ (s.floor.robots ask.2).puts ∧
    s.floor.Truthful ask.2 st ∧ s.floor.reading ask.2 ≠ "" ∧
    trimSpace (s.floor.reading ask.2) = s.floor.reading ask.2 ∧
    ∃ n ∈ s.engine.ledger.plant.getNodeByName (s.floor.reading ask.2), n.isSynthetic = false
  deriving Decidable

def SiteAction.sampled : SiteAction → Option (String × RobotStatus)
  | .sample robotID st => some (robotID, st)
  | _ => none

def TelemetryOk (s : Site) (a : SiteAction) : Prop :=
  ∀ x ∈ a.sampled, s.floor.Truthful x.1 x.2
  deriving Decidable

/-- 動作の条件。知らせは正しく、推量の問う robot は下ろした所に居る。 -/
def SiteStepOk (s : Site) (a : SiteAction) : Prop :=
  TelemetryOk s a ∧ ∀ ask ∈ a.asks s.engine, s.Prompt ask
  deriving Decidable

def SiteAction.isRecovery : SiteAction → Bool
  | .ended _ _ | .sweepCarried | .sweepStranded _ => true
  | _ => false

/-- 推量が bin を physical な node に置いたと記録するなら、bin は運んだ robot がそこに下ろし、
その後で動かされていない。 -/
def RecordsTruly (s : Site) (a : SiteAction) : Prop :=
  a.isRecovery = true →
    ∀ b ∈ s.engine.ledger.plant.bins, ∀ b' ∈ (siteStep s a).engine.ledger.plant.bins,
      b'.id = b.id → b'.nodeID ≠ b.nodeID →
      ∀ node ∈ b'.nodeID.bind (siteStep s a).engine.ledger.plant.getNode,
        node.isSynthetic = false →
        ∃ r ∈ s.floor.carrier b.id, s.floor.setDown b.id = some (r, node.name) ∧
          s.floor.place b.id = some node.name
  deriving Decidable

def isCarrierName (name : String) : Bool := "_ROBOT:".toList.isPrefixOf name.toList

theorem isCarrierName_carrierNodeName (robotID : String) :
    isCarrierName (Engine.carrierNodeName robotID) = true := by
  unfold isCarrierName Engine.carrierNodeName
  rw [String.toList_append, isPrefixOf_iff_prefix]
  exact prefix_append _ _

structure SiteInv (s : Site) : Prop where
  floor : FloorInv s.floor
  carriers : ∀ n ∈ s.engine.ledger.plant.nodes, isCarrierName n.name = true →
    n.isSynthetic = true

namespace Site

variable {s : Site}

/-- 推量が bin を移してよい node。carrier か、実際に下ろされた node。 -/
def Landing (s : Site) (binID nodeID : Nat) : Prop :=
  s.engine.CarrierID nodeID ∨
    ∃ node ∈ s.engine.ledger.plant.nodes, node.id = nodeID ∧
      ∃ r ∈ s.floor.carrier binID, s.floor.setDown binID = some (r, node.name) ∧
        s.floor.place binID = some node.name

theorem Prompt.landing {ask : Nat × String} {node : NodeRow} (h : s.Prompt ask)
    (hfloor : FloorInv s.floor) (hst : s.engine.robots ask.2 = some st)
    (hempty : robotCarryingBin st = some false)
    (hnode : s.engine.ledger.plant.resolveRobotStation st = some node) :
    s.Landing ask.1 node.id := by
  obtain ⟨hcarrier, hput, htrue, hne, htrim, n, hn, hphys⟩ := h st hst hempty
  have hset := hfloor.setDown_of_puts hput hcarrier htrue hempty
  have hspot : s.floor.reading ask.2 = (s.floor.robots ask.2).spot := by
    unfold Floor.reading at hne ⊢
    split
    · rfl
    rename_i hno
    rw [if_neg hno] at hne
    exact absurd rfl hne
  have hres : s.engine.ledger.plant.resolveRobotStation st = some n := by
    unfold resolveRobotStation
    have hget : s.engine.ledger.plant.getNodeByName (s.floor.reading ask.2) = some n := hn
    simp [htrue.2.1, htrim, hne, hget, hphys]
  obtain rfl : n = node := some.inj (hres.symm.trans hnode)
  obtain ⟨hmem, hname⟩ := getNodeByName_spec hn
  rw [← hspot, ← hname] at hset
  exact .inr ⟨n, hmem, rfl, ask.2, hcarrier, hset, (hfloor.stands _ _ _ hset).1⟩

theorem recordsTruly_of_bins (hi : SiteInv s)
    (hnodes : s.engine.ledger.plant.GainsCarriers (siteStep s a).engine.ledger.plant)
    (hbins : ∀ b' ∈ (siteStep s a).engine.ledger.plant.bins,
      ∃ b ∈ s.engine.ledger.plant.bins, b.id = b'.id ∧
        (b'.nodeID = b.nodeID ∨ ∃ n, b'.nodeID = some n ∧ s.Landing b.id n)) :
    RecordsTruly s a := by
  intro _ b hb b' hb' hid hne node hnode hphys
  obtain ⟨b₁, hb₁, hid₁, hcases⟩ := hbins b' hb'
  obtain rfl : b₁ = b := bin_eq hb₁ hb (hid₁.trans hid)
  obtain ⟨n, hn, hland⟩ := hcases.resolve_left hne
  rw [hn] at hnode
  obtain ⟨hmem, hnid⟩ := getNode_spec (bind_some .. ▸ hnode)
  rcases hland with hcarrier | ⟨m, hm, hmid, htrue⟩
  · -- carrier の名前の node は synthetic
    rcases hnodes.mem hmem with hold | hsyn
    · obtain ⟨robotID, hname⟩ := hcarrier node hold hnid
      have hcarrierName : isCarrierName node.name = true := by
        rw [hname]
        exact isCarrierName_carrierNodeName robotID
      rw [hi.carriers node hold hcarrierName] at hphys
      cases hphys
    · rw [hsyn] at hphys
      cases hphys
  · rw [node_eq hmem (hnodes.subset hm) (hnid.trans hmid.symm)]
    exact htrue

theorem recordsTruly_of_reckons (hi : SiteInv s)
    (h : Engine.Reckons s.Landing s.engine (siteStep s a).engine) : RecordsTruly s a := by
  refine recordsTruly_of_bins hi h.nodes fun b' hb' => ?_
  obtain ⟨b, hb, hid, -, hn⟩ := h.bins b' hb'
  exact ⟨b, hb, hid, hn⟩

theorem reckons_sweepCarried (hi : SiteInv s) (hok : SiteStepOk s .sweepCarried) :
    Engine.Reckons s.Landing s.engine s.engine.sweepCarriedBins := by
  refine Engine.reckons_sweepCarriedBins fun c hc st node hst hempty hnode => ?_
  exact (hok.2 c hc).landing hi.floor hst hempty hnode

theorem reckons_sweepStranded (hi : SiteInv s) (hok : SiteStepOk s (.sweepStranded rank)) :
    Engine.Reckons s.Landing s.engine (s.engine.sweepStrandedBins rank) := by
  have hcarried := s.reckons_sweepCarried hi
    ⟨fun _ hx => (by cases hx), fun c hc => hok.2 c (mem_append_left _ hc)⟩
  refine Engine.reckons_sweepStrandedBins hcarried (fun _ _ hn => .inl hn) ?_
  intro id hid robotID st node hrobot hst hempty hnode
  have hask : (id, robotID) ∈ SiteAction.asks s.engine (.sweepStranded rank) := by
    refine mem_append_right _ (mem_filterMap.mpr ⟨id, hid, ?_⟩)
    rw [hrobot]
    rfl
  exact (hok.2 (id, robotID) hask).landing hi.floor hst hempty hnode

variable {status : Shingo.Dispatch.OrderStatus}

theorem mem_endOrder {w : Engine} {b' : BinRow}
    (h : b' ∈ (w.endOrder orderID status).ledger.plant.bins) :
    ∃ b ∈ w.ledger.plant.bins, b'.id = b.id ∧ b'.nodeID = b.nodeID := by
  obtain ⟨b, hb, rfl⟩ := mem_map.mp h
  exact ⟨b, hb, unclaimAll_id orderID b, unclaimAll_nodeID orderID b⟩

theorem reckons_ended (hi : SiteInv s) (hok : SiteStepOk s (.ended orderID status)) :
    Engine.Reckons s.Landing (s.engine.endOrder orderID status)
      ((s.engine.endOrder orderID status).inferStrandedTransitBin orderID) := by
  refine Engine.reckons_inferStrandedTransitBin (fun _ _ _ _ hn => .inl hn) ?_
  intro order horder b hb hbin hstranded st node hst hempty hnode
  have hask : (b.id, order.robotID) ∈ SiteAction.asks s.engine (.ended orderID status) := by
    have hget : (s.engine.endOrder orderID status).getOrder orderID = some order := horder
    have hgetBin := getBin_of_mem hb
    simp [SiteAction.asks, hget, hbin, hgetBin, hstranded]
  exact (hok.2 _ hask).landing hi.floor hst hempty hnode

theorem recordsTruly_ended (hi : SiteInv s) (hok : SiteStepOk s (.ended orderID status)) :
    RecordsTruly s (.ended orderID status) := by
  by_cases hlive : s.engine.ledger.isLive orderID = true
  · have hreck := s.reckons_ended hi hok
    have hstep : (siteStep s (.ended orderID status)).engine =
        (s.engine.endOrder orderID status).inferStrandedTransitBin orderID := by
      simp [siteStep, hlive]
    refine recordsTruly_of_bins hi (by rw [hstep]; exact hreck.nodes) ?_
    rw [hstep]
    intro b' hb'
    obtain ⟨b₁, hb₁, hid, -, hn⟩ := hreck.bins b' hb'
    obtain ⟨b, hb, hid₁, hn₁⟩ := mem_endOrder hb₁
    refine ⟨b, hb, hid₁.symm.trans hid, ?_⟩
    rw [← hn₁, ← hid₁]
    exact hn
  · refine recordsTruly_of_reckons hi ?_
    rw [show siteStep s (.ended orderID status) = s by simp [siteStep, hlive]]
    exact .refl _ _

end Site

theorem recordsTruly_step {s : Site} (hi : SiteInv s) (hok : SiteStepOk s a) :
    RecordsTruly s a := by
  cases a with
  | ended orderID status => exact s.recordsTruly_ended hi hok
  | sweepCarried => exact Site.recordsTruly_of_reckons hi (s.reckons_sweepCarried hi hok)
  | sweepStranded rank => exact Site.recordsTruly_of_reckons hi (s.reckons_sweepStranded hi hok)
  | drive _ _ | load _ _ | unload _ | sample _ _ | ledger _ | create _ | assign _ _
  | pickedUp _ => exact fun h => by cases h

theorem siteStep_inv {s : Site} (hi : SiteInv s) (hok : SiteStepOk s a) :
    SiteInv (siteStep s a) := by
  -- node が carrier だけ増えるなら、carrier の名前の node はやはり synthetic
  have hgains : ∀ {v : Plant}, s.engine.ledger.plant.GainsCarriers v → ∀ n ∈ v.nodes,
      isCarrierName n.name = true → n.isSynthetic = true := by
    intro v h n hn hname
    rcases h.mem hn with hold | hsyn
    · exact hi.carriers n hold hname
    · exact hsyn
  cases a with
  | drive robotID spot => exact ⟨hi.floor.drive robotID spot, hi.carriers⟩
  | load robotID binID => exact ⟨hi.floor.load robotID binID, hi.carriers⟩
  | unload robotID => exact ⟨hi.floor.unload robotID, hi.carriers⟩
  | sample robotID st | assign orderID robotID => exact ⟨hi.floor, hi.carriers⟩
  | ledger a =>
    exact ⟨hi.floor, hgains (.of_nodes (s.engine.ledger.ledgerStep_nodes a))⟩
  | create o =>
    refine ⟨hi.floor, hgains (.of_nodes ?_)⟩
    show ((s.engine.ledger.createOrder o).toOption.getD s.engine.ledger).plant.nodes = _
    cases h : s.engine.ledger.createOrder o with
    | error e => rfl
    | ok v => exact congrArg nodes (createOrder_ok h).1
  | pickedUp binID =>
    refine ⟨hi.floor, hgains (.of_nodes ?_)⟩
    show (s.engine.ledger.moveToTransit binID).plant.nodes = _
    unfold moveToTransit
    split
    · rfl
    · rfl
  | ended orderID status =>
    rw [siteStep]
    split
    · exact ⟨hi.floor, hgains (s.reckons_ended hi hok).nodes⟩
    · exact hi
  | sweepCarried => exact ⟨hi.floor, hgains (s.reckons_sweepCarried hi hok).nodes⟩
  | sweepStranded rank => exact ⟨hi.floor, hgains (s.reckons_sweepStranded hi hok).nodes⟩

def Floor.AtRest (f : Floor) : Prop :=
  (∀ r, (f.robots r).deck = none ∧ (f.robots r).puts = []) ∧ ∀ b, f.setDown b = none

theorem FloorInv.of_atRest (h : f.AtRest) : FloorInv f where
  lifted r b hdeck := by simp [(h.1 r).1] at hdeck
  aloft r b hdeck := by simp [(h.1 r).1] at hdeck
  put r b hput := by simp [(h.1 r).2] at hput
  stands b r p hset := by simp [h.2 b] at hset

/-- **問われた robot が下ろした所に居る間の推量だけの実行では、推量の記録した居場所は、
運んだ robot が bin を下ろした所で、bin はその後も動かされていない。** -/
theorem inferred_placement_true (s : Site) (hrest : s.floor.AtRest)
    (hcarriers : ∀ n ∈ s.engine.ledger.plant.nodes, isCarrierName n.name = true →
      n.isSynthetic = true)
    (as : List SiteAction) (hok : AllSteps siteStep SiteStepOk s as) :
    AllSteps siteStep RecordsTruly s as := by
  have hinv : SiteInv s := ⟨.of_atRest hrest, hcarriers⟩
  have hstep : ∀ t a, SiteInv t → SiteStepOk t a → SiteInv (siteStep t a) :=
    fun _ _ hi h => siteStep_inv hi h
  exact AllSteps.of_inv hstep (fun _ _ hi h => recordsTruly_step hi h) hinv hok

def dockNodes : List NodeRow :=
  [{ id := 1, name := "LANE1" }, { id := 2, name := "LINE1" }, { id := 3, name := "LINE2" },
    { id := 4, name := "_TRANSIT", isSynthetic := true }]

def dockBin : BinRow := { id := 7, nodeID := some 1, claimedBy := some 1 }

def dockOrder : OrderRow := { id := 1, status := .inTransit, binID := some 7 }

def dock : Site where
  floor :=
    { isStation := fun spot => decide (spot ∈ ["LANE1", "LINE1", "LINE2"])
      place := fun binID => if binID = 7 then some "LANE1" else none
      robots := fun robotID => if robotID = "AMR1" then { spot := "LANE1" } else {} }
  engine :=
    { ledger :=
        { plant :=
            { nodes := dockNodes
              bins := [dockBin]
              reservations := []
              nodeIDs := by decide
              binIDs := by decide
              binIDsPos := by decide
              binReserved := nodup_nil }
          orders := [dockOrder]
          orderIDs := by decide
          orderIDsPos := by decide
          parents := by decide
          reservedBy := forall_mem_nil _ }
      columns := fun id => { id, status := .inTransit, edgeUUID := "u1", robotID := "AMR1" } }

theorem dock_atRest : dock.floor.AtRest := by
  refine ⟨fun r => ?_, fun _ => rfl⟩
  unfold dock
  dsimp only
  split
  · exact ⟨rfl, rfl⟩
  · exact ⟨rfl, rfl⟩

def promptRun : List SiteAction :=
  [.load "AMR1" 7, .pickedUp 7, .sample "AMR1" { currentStation := "LANE1", jackState := 1 },
    .ended 1 .cancelled, .drive "AMR1" "LINE1", .unload "AMR1",
    .sample "AMR1" { currentStation := "LINE1", lastStation := "LANE1", jackState := 3 },
    .sweepCarried, .sweepStranded fun _ => 0]

theorem inferred_placement_true_promptRun :
    AllSteps siteStep SiteStepOk dock promptRun ∧
      (runSteps siteStep dock promptRun).engine.ledger.recordedAt 7 = some 2 ∧
      AllSteps siteStep RecordsTruly dock promptRun :=
  have hok : AllSteps siteStep SiteStepOk dock promptRun := by decide +kernel
  ⟨hok, by decide +kernel,
    inferred_placement_true dock dock_atRest (by decide) promptRun hok⟩

def lateRun : List SiteAction :=
  [.load "AMR1" 7, .pickedUp 7, .sample "AMR1" { currentStation := "LANE1", jackState := 1 },
    .ended 1 .cancelled, .drive "AMR1" "LINE1", .unload "AMR1", .drive "AMR1" "LINE2",
    .sample "AMR1" { currentStation := "LINE2", lastStation := "LINE1", jackState := 3 },
    .sweepCarried]

/-- 知らせはどれも正しいが、LINE1 に在る bin 7 が LINE2 に在ると記録される。 -/
theorem inferred_placement_wrong :
    AllSteps siteStep TelemetryOk dock lateRun ∧
      (runSteps siteStep dock lateRun).floor.place 7 = some "LINE1" ∧
      (runSteps siteStep dock lateRun).engine.ledger.recordedAt 7 = some 3 ∧
      ¬ AllSteps siteStep RecordsTruly dock lateRun := by
  decide +kernel

end Shingo.Core
