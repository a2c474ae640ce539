import Shingo.Infra.FirstMatch
import Shingo.Properties.LaneEntry
import Shingo.Properties.LaneHold

/-!
# 置き終えるまで lane を塞ぐか

fleet に渡した order が lane の中へ置きに行くとき、`stillWorkingLaneMouth` はその order を
置き終えるまで残すか。残っていれば、別の origin の order がそれより手前の slot へ
先に入ることはない。

残すかどうかは「vendor_order_id が在り、inbound の row が無い」かどうかで決まる。
row は発注の前に取り、置いたときに消すはずだが、取らずに出る道がある。

不変条件 `LaneInv` は、lane にまだ置いていない order が inbound の row を持つこと。
-/

namespace Shingo.Dispatch

open Core Infra List LaneWorld

/-! ## 動作の条件 -/

def Errand.owes (e : Errand) (site : LaneSite) : Bool := e.undelivered.any site.inside

def LaneWorld.owes (w : LaneWorld) (site : LaneSite) (orderID : Nat) : Bool :=
  (w.phase orderID).errand?.any (·.owes site)

variable (site : LaneSite) {w : LaneWorld} {p : DispatchPhase} {e : Errand}

/--
lane に置くつもりの order の、口の取り方の条件。

lane に group が在り、complex なら印が無く、lane から取り出さず、
lane に置くのは一度きりで、それが delivery_node。
-/
def entersCleanly (path : DispatchPath) (o : Order) : Bool :=
  !(path.errand o).owes site ||
    (!site.row.parentID.isNone && (path == .plain || !site.laneIsGated site.row.id) &&
      !(path.errand o).pickups.any site.inside && o.deliveryNode != "" &&
      (path.errand o).dropoffs.filter site.inside == [o.deliveryNode])

/--
一つの動作の条件。

leg が lane に置かないこと、lane にまだ置いていない order の row に、
置くこと以外の知らせ・掘る取得・解放が来ないこと。
-/
def LaneStepOk (w : LaneWorld) : LaneAction → Bool
  | .acquire orderID path _ => (w.view.getOrder orderID).all (entersCleanly site path)
  | .dispatchLeg orderID _ => (w.view.getOrder orderID).all fun o => !site.inside o.deliveryNode
  | .pickedUp orderID location | .placed orderID location =>
    w.view.laneOwnerFor orderID == orderID || !site.inside location ||
      !w.owes site (w.view.laneOwnerFor orderID)
  | .rebind orderID _ old _ =>
    !w.owes site orderID || (w.view.getOrder orderID).any (·.deliveryNode == old)
  | .digLane laneID orderID | .unlock laneID orderID =>
    laneID != site.row.id || !w.owes site orderID
  | _ => true

/-! ## 不変条件 -/

structure ErrandOk (site : LaneSite) (view : PlantView) (orderID : Nat) (e : Errand) : Prop where
  row : ∃ o ∈ view.orders, o.id = orderID ∧ o.status.isTerminal = false ∧
    e.dropoffs.filter site.inside = [o.deliveryNode]
  pickups : ∀ p ∈ e.pickups, site.inside p = false
  undelivered : e.undelivered.Sublist e.dropoffs
  holds : HoldsInbound view.mouth orderID site.row.id

def OrderInv (view : PlantView) (p : DispatchPhase) (orderID : Nat) : Prop :=
  ∀ e, p.errand? = some e → e.owes site = true → ErrandOk site view orderID e

def LaneInv (w : LaneWorld) : Prop :=
  ∀ orderID, OrderInv site w.view (w.phase orderID) orderID

section Frame

variable {site : LaneSite} {view view' : PlantView} {x orderID : Nat}

theorem OrderInv.idle : OrderInv site view .idle orderID := by
  intro e he
  cases he

theorem OrderInv.frame (hi : OrderInv site view p orderID)
    (hrow : ∀ o ∈ view.orders, o.id = orderID → ∃ o' ∈ view'.orders, o'.id = orderID ∧
      o'.status.isTerminal = o.status.isTerminal ∧ o'.deliveryNode = o.deliveryNode)
    (hholds : ∀ e, p.errand? = some e → e.owes site = true →
      HoldsInbound view.mouth orderID site.row.id → HoldsInbound view'.mouth orderID site.row.id) :
    OrderInv site view' p orderID := by
  intro e he ho
  obtain ⟨⟨o, hmem, hid, ht, hd⟩, hp, hu, hh⟩ := hi e he ho
  obtain ⟨o', hmem', hid', ht', hd'⟩ := hrow o hmem hid
  exact ⟨⟨o', hmem', hid', by rw [ht', ht], by rw [hd', hd]⟩, hp, hu, hholds e he ho hh⟩

theorem OrderInv.setMouth {t : MouthTable} (hi : OrderInv site w.view p orderID)
    (hholds : ∀ e, p.errand? = some e → e.owes site = true →
      HoldsInbound w.view.mouth orderID site.row.id → HoldsInbound t orderID site.row.id) :
    OrderInv site (w.setMouth t).view p orderID :=
  hi.frame (fun o hmem hid => ⟨o, hmem, hid, rfl, rfl⟩) hholds

theorem OrderInv.edit {f : Order → Order} {hf : ∀ o, (f o).id = o.id}
    (hi : OrderInv site w.view p orderID)
    (hkeep : orderID = x → ∀ o, (f o).status.isTerminal = o.status.isTerminal ∧
      (f o).deliveryNode = o.deliveryNode) : OrderInv site (w.edit x f hf).view p orderID := by
  refine hi.frame (fun o hmem hid => ?_) fun _ _ _ hh => hh
  refine ⟨_, mem_map_of_mem hmem, ?_⟩
  split
  · rename_i he
    exact ⟨(hf o).trans hid, hkeep (hid.symm.trans he) o⟩
  · exact ⟨hid, rfl, rfl⟩

theorem LaneInv.setPhase (hother : ∀ y, y ≠ x → OrderInv site w.view (w.phase y) y)
    (hself : OrderInv site w.view p x) : LaneInv site (w.setPhase x p) := by
  intro y
  show OrderInv site w.view (Function.update w.phase x p y) y
  by_cases hy : y = x
  · subst hy
    rw [Function.update_self]
    exact hself
  · rw [Function.update_of_ne hy]
    exact hother y hy

theorem LaneWorld.owes_eq (he : (w.phase orderID).errand? = some e) :
    w.owes site orderID = e.owes site := by
  unfold owes
  rw [he]
  rfl

theorem getOrder_some {o : Order} (h : view.getOrder orderID = some o) :
    o ∈ view.orders ∧ o.id = orderID :=
  ⟨mem_of_find?_eq_some h, by simpa using List.find?_some h⟩

theorem getOrder_of_mem {o : Order} (h : o ∈ view.orders) (hid : o.id = orderID) :
    view.getOrder orderID = some o := by
  subst hid
  exact find?_of_nodup_map view.orderIDs h

end Frame

/-! ## 口を取る -/

section Clean

variable {site : LaneSite} {path : DispatchPath} {o : Order}

structure CleanEntry (site : LaneSite) (path : DispatchPath) (o : Order) : Prop where
  group : site.row.parentID.isNone = false
  gate : path = .plain ∨ site.laneIsGated site.row.id = false
  pickups : ∀ p ∈ (path.errand o).pickups, site.inside p = false
  named : o.deliveryNode ≠ ""
  once : (path.errand o).dropoffs.filter site.inside = [o.deliveryNode]

theorem cleanEntry_of_owes (hc : entersCleanly site path o = true)
    (ho : (path.errand o).owes site = true) : CleanEntry site path o := by
  simp only [entersCleanly, ho, Bool.not_true, Bool.false_or, Bool.and_eq_true, Bool.or_eq_true,
    Bool.not_eq_true', beq_iff_eq, bne_iff_ne, any_eq_false, Bool.not_eq_true] at hc
  obtain ⟨⟨⟨⟨hgroup, hgate⟩, hpick⟩, hnamed⟩, honce⟩ := hc
  exact ⟨hgroup, hgate, hpick, hnamed, honce⟩

theorem CleanEntry.inside (hc : CleanEntry site path o) : site.inside o.deliveryNode = true := by
  have hmem : o.deliveryNode ∈ (path.errand o).dropoffs.filter site.inside := by
    rw [hc.once]
    exact mem_singleton_self _
  exact (mem_filter.mp hmem).2

theorem CleanEntry.holds (hc : CleanEntry site path o) :
    ⟨site.row.id, .inbound⟩ ∈ site.holdsFor path o ∧
      OnlyInbound (site.holdsFor path o) site.row.id := by
  cases path with
  | plain => exact plain_holds hc.group hc.inside (hc.pickups _ mem_cons_self)
  | complex =>
    have hgate := hc.gate.resolve_left (by decide)
    refine complex_holds hc.group hgate (fun s hs hact => hc.pickups _ ?_) ?_
    · exact mem_map_of_mem (mem_filter.mpr ⟨hs, by simpa using hact⟩)
    · have hmem : o.deliveryNode ∈ (DispatchPath.complex.errand o).dropoffs := by
        refine mem_of_mem_filter (p := site.inside) ?_
        rw [hc.once]
        exact mem_singleton_self _
      obtain ⟨s, hs, hnode⟩ := mem_map.mp hmem
      obtain ⟨hs, hact⟩ := mem_filter.mp hs
      refine ⟨s, hs, by simpa using hact, ?_, ?_⟩
      · rw [hnode]
        exact hc.named
      · rw [hnode]
        exact hc.inside

end Clean

section Steps

variable {site : LaneSite} {x : Nat}

theorem LaneInv.acquire (hi : LaneInv site w) {path : DispatchPath} {digFirst : Bool} {o : Order}
    (hrow : o ∈ w.view.orders) (ht : o.status.isTerminal = false)
    (hc : entersCleanly site path o = true) :
    LaneInv site (w.acquire site.toLaneMap o path digFirst) := by
  have hmodes : Mode.inbound ∈ (if digFirst then [Mode.dig, .inbound] else [.inbound, .dig]) := by
    cases digFirst <;> decide
  unfold LaneWorld.acquire acquireOrderLanes
  generalize (if digFirst then [Mode.dig, .inbound] else [.inbound, .dig]) = modes at hmodes ⊢
  refine LaneInv.setPhase (fun y hy => ?_) ?_
  · exact (hi y).setMouth fun _ _ _ hh => hh.acquireModes (Ne.symm hy)
  · split
    · rename_i hadm
      intro e he ho
      cases he
      have hclean := cleanEntry_of_owes hc ho
      obtain ⟨hmem, honly⟩ := hclean.holds
      refine ⟨⟨o, hrow, rfl, ht, hclean.once⟩, hclean.pickups, ?_, ?_⟩
      · cases path <;> exact List.Sublist.refl _
      · exact holdsInbound_acquireModes hmem honly (Or.inl hmodes) hadm
    · exact OrderInv.idle

variable {y : Nat}

theorem LaneInv.goto (hi : LaneInv site w) (hself : OrderInv site w.view p x) :
    LaneInv site (w.setPhase x p) :=
  LaneInv.setPhase (fun y _ => hi y) hself

theorem LaneInv.dropRows (hother : ∀ y, y ≠ x → OrderInv site w.view (w.phase y) y) :
    LaneInv site ((w.dropRows x).setPhase x .idle) := by
  refine LaneInv.setPhase (fun y hy => ?_) OrderInv.idle
  refine (hother y hy).setMouth fun _ _ _ hh => hh.filter fun r _ ho _ _ => ?_
  simpa [ho] using hy

variable {old new : String}

theorem LaneInv.send (hi : LaneInv site w) {vendorOrderID : String}
    (hself : OrderInv site w.view (.inFlight e) x) : LaneInv site (w.send x vendorOrderID e) := by
  refine LaneInv.setPhase (fun y _ => ?_) ?_
  · exact (hi y).edit fun _ _ => ⟨rfl, rfl⟩
  · exact hself.edit fun _ _ => ⟨rfl, rfl⟩

variable {location : String}

theorem OrderInv.release (hi : OrderInv site w.view p y)
    (hne : ∀ e, p.errand? = some e → e.owes site = true →
      w.view.laneOwnerFor x = y → site.inside location = false) :
    OrderInv site (w.release site.toLaneMap x location).view p y :=
  hi.setMouth fun e he ho hh => hh.release (hne e he ho)

theorem outside_of_stepOk (hok : (w.view.laneOwnerFor x == x || !site.inside location ||
      !w.owes site (w.view.laneOwnerFor x)) = true) (hyx : y ≠ x)
    (he : (w.phase y).errand? = some e) (ho : e.owes site = true)
    (hown : w.view.laneOwnerFor x = y) : site.inside location = false := by
  simp only [hown, Bool.or_eq_true, beq_iff_eq, Bool.not_eq_true', hyx, false_or] at hok
  rcases hok with hout | howes
  · exact hout
  · rw [owes_eq he, ho] at howes
    cases howes

theorem ErrandOk.erase_owes (hok : ErrandOk site w.view x e)
    (hmem : location ∈ e.dropoffs) (hin : site.inside location = true) :
    ({ e with undelivered := e.undelivered.erase location } : Errand).owes site = false := by
  obtain ⟨o, -, -, -, honce⟩ := hok.row
  have hd : ∀ z ∈ e.dropoffs, site.inside z = true → z = o.deliveryNode := by
    intro z hz hzin
    have hzf := mem_filter.mpr ⟨hz, hzin⟩
    rw [honce] at hzf
    exact mem_singleton.mp hzf
  have hcount : e.undelivered.count location ≤ 1 := by
    refine (hok.undelivered.count_le location).trans ?_
    rw [← count_filter hin, honce]
    exact count_le_length
  refine any_eq_false.mpr fun z hz hzin => ?_
  have hzd := hd z (hok.undelivered.subset (mem_of_mem_erase hz)) hzin
  rw [← hd location hmem hin] at hzd
  rw [hzd] at hz
  have hpos := count_pos_iff.mpr hz
  rw [count_erase_self] at hpos
  omega

theorem LaneInv.placed (hi : LaneInv site w) (hok : LaneStepOk site w (.placed x location) = true) :
    LaneInv site (laneStep site.toLaneMap w (.placed x location)) := by
  unfold laneStep
  dsimp only
  split
  · rename_i e hphase
    split
    · rename_i hmem
      refine LaneInv.setPhase (fun y hy => ?_) ?_
      · exact (hi y).release fun e' he' ho' => outside_of_stepOk hok hy he' ho'
      · intro e' he' ho'
        cases he'
        have hsub : (e.undelivered.erase location).Sublist e.undelivered := erase_sublist
        have howes : e.owes site = true := by
          obtain ⟨z, hz, hzin⟩ := any_eq_true.mp ho'
          exact any_eq_true.mpr ⟨z, hsub.subset hz, hzin⟩
        have hself := hi x e (by rw [hphase]; rfl) howes
        have hout : site.inside location = false := by
          by_contra hin
          rw [hself.erase_owes hmem (by simpa using hin)] at ho'
          cases ho'
        exact ⟨hself.row, hself.pickups, hsub.trans hself.undelivered,
          hself.holds.release fun _ => hout⟩
    · exact hi
  · exact hi

theorem LaneInv.pickedUp (hi : LaneInv site w)
    (hok : LaneStepOk site w (.pickedUp x location) = true) :
    LaneInv site (laneStep site.toLaneMap w (.pickedUp x location)) := by
  unfold laneStep
  dsimp only
  split
  · rename_i e hphase
    split
    · rename_i hmem
      intro y
      refine (hi y).release fun e' he' ho' hown => ?_
      by_cases hy : y = x
      · subst hy
        obtain rfl : e = e' := by
          rw [hphase] at he'
          exact Option.some.inj he'
        exact (hi y e he' ho').pickups location hmem
      · exact outside_of_stepOk hok hy he' ho' hown
    · exact hi
  · exact hi

theorem inside_swap (hlane : site.laneOf old = site.laneOf new) (z : String) :
    site.inside (if z = old then new else z) = site.inside z := by
  split
  · rename_i he
    subst he
    unfold LaneSite.inside
    rw [hlane]
  · rfl

theorem Errand.rebind_owes
    (hlane : site.laneOf old = site.laneOf new) : (e.rebind old new).owes site = e.owes site := by
  unfold Errand.owes Errand.rebind
  rw [any_map]
  congr 1
  funext z
  exact inside_swap hlane z

theorem LaneInv.rebind (hi : LaneInv site w) {entryIndex : Nat}
    (hok : LaneStepOk site w (.rebind x entryIndex old new) = true) :
    LaneInv site (laneStep site.toLaneMap w (.rebind x entryIndex old new)) := by
  unfold laneStep
  dsimp only
  split
  · rename_i e hphase
    split
    · rename_i hc
      have he : (w.phase x).errand? = some e := by rw [hphase]; rfl
      refine LaneInv.setPhase (fun y hy => (hi y).edit fun h => absurd h hy) ?_
      intro e' he' ho'
      cases he'
      rw [Errand.rebind_owes hc.2.1] at ho'
      have hself := hi x e he ho'
      obtain ⟨o, hmem, hid, ht, honce⟩ := hself.row
      -- 条件により、書き換えるのは delivery_node の dropoff
      have hold : o.deliveryNode = old := by
        simp only [LaneStepOk, owes_eq he, ho', getOrder_of_mem hmem hid] at hok
        simpa using hok
      refine ⟨⟨_, mem_map_of_mem hmem, ?_⟩, hself.pickups, hself.undelivered.map _,
        hself.holds⟩
      rw [if_pos hid]
      refine ⟨hid, ht, ?_⟩
      have hcomp : site.inside ∘ (fun z => if z = old then new else z) = site.inside :=
        funext fun z => inside_swap hc.2.1 z
      show (e.dropoffs.map _).filter site.inside = [new]
      rw [filter_map, hcomp, honce, hold]
      simp
    · exact hi
  · exact hi

theorem LaneInv.step (hi : LaneInv site w) {a : LaneAction} (hok : LaneStepOk site w a = true) :
    LaneInv site (laneStep site.toLaneMap w a) := by
  cases a with dsimp only [laneStep]
  | submit o =>
    split
    · split
      · exact fun y => (hi y).frame
          (fun o' hmem hid => ⟨o', mem_append_left _ hmem, hid, rfl, rfl⟩) fun _ _ _ hh => hh
      · exact hi
    · exact hi
  | replan x steps source dest =>
    split
    · rename_i hphase
      intro y
      by_cases hy : y = x
      · -- 発注していない order には、何も言っていない
        show OrderInv site _ (w.phase y) y
        rw [hy, hphase]
        exact OrderInv.idle
      · exact (hi y).edit fun h => absurd h hy
    · exact hi
  | acquire x path digFirst =>
    split
    · exact hi
    · exact hi
    rename_i o hget _
    split
    · exact hi
    rename_i ht
    have hc : entersCleanly site path o = true := by
      simpa [LaneStepOk, hget] using hok
    exact hi.acquire (getOrder_some hget).1 (by simpa using ht) hc
  | park x =>
    split
    · exact hi.goto OrderInv.idle
    · exact hi
  | fleetFailed x =>
    split
    · exact LaneInv.dropRows fun y _ => hi y
    · exact hi
  | commit x vendorOrderID =>
    split
    · rename_i e hphase
      split
      · exact hi
      · refine hi.send fun e' he' => ?_
        exact hi x e' (by rw [hphase]; exact he')
    · exact hi
  | dispatchLeg x vendorOrderID =>
    split
    · rename_i o _ hget
      split
      · exact hi
      refine hi.send fun e he ho => ?_
      -- lane に置かない leg は、何も約束しない
      cases he
      have hout : site.inside o.deliveryNode = false := by
        simpa [LaneStepOk, hget] using hok
      simp [Errand.owes, DispatchPath.errand, hout] at ho
    · exact hi
  | pickedUp x location => exact hi.pickedUp hok
  | placed x location => exact hi.placed hok
  | rebind x entryIndex old new => exact hi.rebind hok
  | setStatus x s =>
    split
    · exact LaneInv.dropRows fun y hy => (hi y).edit fun h => absurd h hy
    rename_i hs
    intro y e he ho
    obtain ⟨⟨o, hmem, hid, ht, honce⟩, hp, hu, hh⟩ := hi y e he ho
    refine ⟨⟨_, mem_map_of_mem hmem, ?_⟩, hp, hu, hh⟩
    split
    · exact ⟨hid, by simpa using hs, honce⟩
    · exact ⟨hid, ht, honce⟩
  | reap =>
    intro y
    refine (hi y).setMouth fun e he ho hh => hh.filter fun r _ hr _ _ => ?_
    obtain ⟨o, hmem, hid, ht, -⟩ := (hi y e he ho).row
    refine any_eq_true.mpr ⟨o, hmem, ?_⟩
    simp [hid, hr, ht]
  | digLane laneID x =>
    split
    · rename_i t ha
      intro y
      refine (hi y).setMouth fun e he ho hh => hh.acquireLanesFor (fun hyx hl => ?_) ha
      obtain rfl := mem_singleton.mp hl
      subst hyx
      simp [LaneStepOk, owes_eq he, ho] at hok
    · exact hi
  | unlock laneID x =>
    intro y
    refine (hi y).setMouth fun e he ho hh => hh.filter fun r _ hr hl _ => ?_
    by_cases hyx : y = x
    · subst hyx
      have hne : site.row.id ≠ laneID := by
        rintro rfl
        simp [LaneStepOk, owes_eq he, ho] at hok
      simp [hl, hne]
    · simp [hr, hyx]
  | handOff laneID digOwner picker =>
    exact fun y => (hi y).setMouth fun _ _ _ hh => hh.handOff

theorem LaneInv.start (styleClaims : List StyleClaim) :
    LaneInv site (start styleClaims) := fun _ => OrderInv.idle

end Steps

/-! ## 置き終えるまで塞ぐ -/

/--
fleet に渡した order は、lane への dropoff を置き終えるまで、`stillWorkingLaneMouth` に残る。
そして、それより手前の slot へ向かう別の origin の order は入れない。
-/
def BlocksUntilPlaced (site : LaneSite) (w : LaneWorld) : Prop :=
  ∀ o ∈ w.view.orders, ∀ e, w.phase o.id = .inFlight e → ∀ d ∈ e.undelivered,
    site.inside d = true →
    o ∈ w.view.stillWorkingLaneMouth site.lane.id (w.view.activeLaneStores site.lane.slotNames) ∧
    ∀ entrant : Order, entrant.id ≠ o.id →
      sameOrigin (w.view.laneEntryOriginFor entrant) (w.view.laneEntryOriginFor o) = false →
      ∀ s ∈ site.lane.slots, d = s.name ∨ d = site.lane.dotName s →
      ∀ dest ∈ site.lane.slots, dest.slotDepth < s.slotDepth →
        w.view.laneEntryCause site.lane entrant dest ≠ .admitted

theorem two_slots {l : Lane} {s t : Slot} (hs : s ∈ l.slots) (ht : t ∈ l.slots)
    (hlt : t.slotDepth < s.slotDepth) : ¬ l.slots.length < 2 := by
  intro hlen
  match hsl : l.slots, hlen with
  | [], _ =>
    rw [hsl] at hs
    cases hs
  | [u], _ =>
    rw [hsl, mem_singleton] at hs ht
    subst hs ht
    exact absurd hlt (lt_irrefl _)

theorem LaneInv.blocks {site : LaneSite} (hi : LaneInv site w) : BlocksUntilPlaced site w := by
  intro o hmem e hphase d hd hin
  have howes : e.owes site = true := any_eq_true.mpr ⟨d, hd, hin⟩
  have hok := hi o.id e (by rw [hphase]; rfl) howes
  obtain ⟨o', hmem', hid, ht, honce⟩ := hok.row
  obtain rfl := eq_of_id_eq hmem' hmem hid
  -- 条件により、置くのは delivery_node
  have hdel : d = o'.deliveryNode := by
    have hdf := mem_filter.mpr ⟨hok.undelivered.subset hd, hin⟩
    rw [honce] at hdf
    exact mem_singleton.mp hdf
  have hslot : o'.deliveryNode ∈ site.lane.slotNames := by
    obtain ⟨s, hs, hname⟩ := site.inside_names hin
    rw [← hdel]
    exact mem_flatMap.mpr ⟨s, hs, by simpa using hname⟩
  have hpending : o' ∈ w.view.pendingStores site.lane := by
    obtain ⟨r, hr, hro, hrl, hrm⟩ := hok.holds
    refine mem_filter.mpr ⟨?_, ?_⟩
    · refine (mem_insertionSort _).mpr (mem_filter.mpr ⟨hmem, ?_⟩)
      simp [hslot, ht]
    · have hany : ((activeMouthRows w.view.mouth site.lane.id).any fun h =>
          h.mode == .inbound && h.orderID == o'.id) = true := by
        refine any_eq_true.mpr ⟨r, mem_activeMouthRows.mpr ⟨hr, hrl⟩, ?_⟩
        simp [hrm, hro]
      simp [hany]
  refine ⟨hpending, fun entrant hne hcross s hs hname dest hdest hlt hadm => ?_⟩
  rw [laneEntryCause_admitted_iff (two_slots hs hdest hlt)] at hadm
  rcases hadm o' hpending with hsame | horigin | ⟨hdepth, -⟩
  · exact hne hsame.symm
  · rw [hcross] at horigin
    cases horigin
  · rw [Lane.storeDepth, ← hdel, depthByName_of_names hs hname,
      depthByName_of_names hdest (Or.inl rfl)] at hdepth
    omega

/-- **口の取り方が条件を満たす実行では、どの状態でも、order は置き終えるまで lane を塞ぐ。** -/
theorem lane_blocker_until_placed (site : LaneSite) (styleClaims : List StyleClaim)
    (as : List LaneAction)
    (hok : AllSteps (laneStep site.toLaneMap) (fun w a => LaneStepOk site w a = true)
      (start styleClaims) as) :
    ∀ w ∈ visited (laneStep site.toLaneMap) (start styleClaims) as,
      BlocksUntilPlaced site w := by
  intro w hw
  have hi : LaneInv site w :=
    AllSteps.visited_of_inv (fun _ _ hi hok => hi.step hok) (LaneInv.start styleClaims) hok w hw
  exact hi.blocks

/-! ### 印のある lane -/

def gatedSite : LaneSite where
  plant := .vacant
    [{ id := 1, name := "GRP" },
     { id := 2, name := "LANE_A", parentID := some 1, isLane := true },
     { id := 3, name := "SMN_001", parentID := some 2, depth := some 1 },
     { id := 4, name := "SMN_002", parentID := some 2, depth := some 2 },
     { id := 5, name := "LINE_1" }, { id := 6, name := "LINE_2" }]
    (by decide)
  laneWaitPoint := fun laneID => if laneID = 2 then "LM_A" else ""
  row := { id := 2, name := "LANE_A", parentID := some 1, isLane := true }
  mem := by decide
  namesNodup := by decide
  dotless := by decide

def deepStore : Order :=
  { id := 1, status := .sourcing, processNode := "LINE_1", sourceNode := "LINE_1"
    deliveryNode := "SMN_002"
    steps := [{ action := .pickup, node := "LINE_1" }, { action := .dropoff, node := "SMN_002" }] }

def shallowStore : Order :=
  { id := 2, status := .sourcing, processNode := "LINE_2", sourceNode := "LINE_2"
    deliveryNode := "SMN_001" }

def twoLines : List StyleClaim := [⟨"LINE_1", "p1", "s1"⟩, ⟨"LINE_2", "p2", "s2"⟩]

def deepStoreRun (path : DispatchPath) : List LaneAction :=
  [.submit deepStore, .acquire 1 path false, .commit 1 "sg-1"]

/-- plain で出た order は、印のある lane でも置き終えるまで塞ぐ。 -/
theorem plain_store_blocks :
    (runSteps (laneStep gatedSite.toLaneMap) (start twoLines)
      (deepStoreRun .plain)).phase 1 = .inFlight ⟨["LINE_1"], ["SMN_002"], ["SMN_002"]⟩ ∧
    ∀ w ∈ visited (laneStep gatedSite.toLaneMap) (start twoLines) (deepStoreRun .plain),
      BlocksUntilPlaced gatedSite w :=
  ⟨by decide, lane_blocker_until_placed gatedSite twoLines (deepStoreRun .plain) (by decide)⟩

/-- **complex で出た order は、印のある lane を塞がない。** -/
theorem gated_complex_not_blocking :
    let w := runSteps (laneStep gatedSite.toLaneMap) (start twoLines)
      (deepStoreRun .complex)
    w.phase 1 = .inFlight ⟨["LINE_1"], ["SMN_002"], ["SMN_002"]⟩ ∧
      w.view.orders = [{ deepStore with vendorOrderID := "sg-1" }] ∧
      w.view.stillWorkingLaneMouth 2 (w.view.activeLaneStores gatedSite.lane.slotNames) = [] ∧
      w.view.laneEntryCause gatedSite.lane shallowStore ⟨3, "SMN_001", some 1⟩ = .admitted ∧
      ¬ BlocksUntilPlaced gatedSite w := by
  intro w
  have hphase : w.phase 1 = .inFlight ⟨["LINE_1"], ["SMN_002"], ["SMN_002"]⟩ := by decide
  refine ⟨hphase, by decide, by decide, by decide, fun hblocks => ?_⟩
  have hmem : { deepStore with vendorOrderID := "sg-1" } ∈ w.view.orders := by
    exact mem_singleton_self _
  have hkept := (hblocks _ hmem _ hphase "SMN_002" mem_cons_self (by decide)).1
  cases hkept

end Shingo.Dispatch
