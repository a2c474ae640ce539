import Shingo.Properties.BlockCompleted

/-!
# 行き先の表は robot を辿るか

`resolvePerBinDestinations` は、node の名前で引く表の上で行程を辿る。bin を一つずつ運ぶ robot を
同じ行程で動かし、終わりに bin の在る node と突き合わせる。

表が一つの node について覚えるのは、いちばん後に残された bin だけで、誰かが取れば忘れる。
robot の運ぶ bin がいつもそれなら、表は robot を辿る（`PutsLastLeft`）。どの bin も取った node に
戻って終わることが無ければ、逆も言える（`EndsElsewhere`）。
-/

namespace Shingo.Core

open Dispatch List Function
open Infra

namespace HaulPlan

variable (plan : HaulPlan)

/-- 取る前の bin は、割り当てられた node に在る。 -/
def parked : Carriage Nat String where
  resting := plan.claimed.map fun c => { item := c.binID, place := c.nodeName }

/-- robot の一歩。動けない一歩では動かない。 -/
def carry (c : Carriage Nat String) (p : ResolvedStep × Nat) : Carriage Nat String :=
  (c.step (plan.moveAt p.2 p.1)).getD c

def Carries (c : Carriage Nat String) (p : ResolvedStep × Nat) : Prop :=
  (c.step (plan.moveAt p.2 p.1)).isSome = true
  deriving Decidable

end HaulPlan

/-- robot と、node に残された bin の控え。 -/
structure Watch where
  robot : Carriage Nat String
  /-- いま手に在る bin を取った node に、いちばん後に残されていた bin。 -/
  held : Option Nat := none
  /-- node にいちばん後に残され、その後そこに pickup の無い bin。 -/
  last : String → Option Nat
  /-- bin と、その bin を取ったことのある node。 -/
  left : List (Nat × String) := []

/-- 置く bin は、それを取った node に、いちばん後に残されていた bin。 -/
def Watch.PutsLastLeft (w : Watch) (p : ResolvedStep × Nat) : Prop :=
  p.1.action = .dropoff → w.held = w.robot.hand
  deriving Decidable

namespace HaulPlan

variable (plan : HaulPlan)

def watched : Watch where
  robot := plan.parked
  last := claimedMap plan.claimed

def watch (w : Watch) (p : ResolvedStep × Nat) : Watch :=
  let robot := plan.carry w.robot p
  match p.1.action with
  | .pickup =>
    { robot, held := w.last p.1.node, last := Function.update w.last p.1.node none
      left := robot.hand.toList.map (·, p.1.node) ++ w.left }
  | .dropoff =>
    { robot, last := Function.update w.last p.1.node w.robot.hand, left := w.left }
  | .wait => { w with robot }

/-- 行程の終わり。 -/
def arrived : Watch := runSteps plan.watch plan.watched plan.order.steps.zipIdx

/-- 終わりに手は空で、どの bin も、取ったことのある node には無い。 -/
def EndsElsewhere : Prop :=
  plan.arrived.robot.hand = none ∧
    ∀ r ∈ plan.arrived.robot.resting, (r.item, r.place) ∉ plan.arrived.left

/-- 手に残った bin を除き、どの bin の行き先も、終わりに在る node。 -/
def Matches : Prop :=
  ∀ cb ∈ plan.claimed, plan.arrived.robot.hand = some cb.binID ∨
    ∃ r ∈ plan.arrived.robot.resting, r.item = cb.binID ∧
      resolvePerBinDestinations plan.order.steps (claimedMap plan.claimed) cb.binID = some r.place

/-- pickup に、互いに違う bin が割り当てられている。bin の id は正。 -/
@[mk_iff]
structure Assigned : Prop where
  bins : (plan.claimed.map ClaimedBin.binID).Nodup
  pos : ∀ c ∈ plan.claimed, 0 < c.binID
  steps : (plan.claimed.map ClaimedBin.stepIndex).Nodup
  pickups : ∀ c ∈ plan.claimed, ∃ s ∈ plan.order.steps[c.stepIndex]?,
    s.action = .pickup ∧ s.node = c.nodeName

instance : Decidable plan.Assigned := decidable_of_iff' _ (assigned_iff plan)

end HaulPlan

theorem watch_robot (plan : HaulPlan) (w : Watch) (p : ResolvedStep × Nat) :
    (plan.watch w p).robot = plan.carry w.robot p := by
  unfold HaulPlan.watch
  cases p.1.action <;> rfl

/-- `k` 番目の一歩の前で、ループの変数が robot について言うこと。 -/
structure Tracks (plan : HaulPlan) (k : Nat) (w : Watch) (d : DestinationLoop) : Prop where
  items : w.robot.items.Perm (plan.claimed.map ClaimedBin.binID)
  carrying : d.carrying = w.held.getD 0
  empty : w.robot.hand = none → w.held = none
  atNode : d.binAtNode = w.last
  rests : ∀ node b, w.last node = some b → ∃ r ∈ w.robot.resting, r.item = b ∧ r.place = node
  dest : ∀ r ∈ w.robot.resting, d.dest r.item = if r.moved then some r.place else none
  left : ∀ b ∈ w.robot.hand, ∀ node, d.dest b = some node → (b, node) ∈ w.left
  ahead : ∀ r ∈ w.robot.resting, r.moved = false →
    ∃ cb ∈ plan.claimed, cb.binID = r.item ∧ k ≤ cb.stepIndex

/-- ループは `b` を見失い、`b` の行き先は、`b` を取ったことのある node のまま。 -/
structure Strays (plan : HaulPlan) (w : Watch) (d : DestinationLoop) (b : Nat) : Prop where
  claimed : b ∈ plan.claimed.map ClaimedBin.binID
  carrying : d.carrying ≠ b
  atNode : ∀ node, d.binAtNode node ≠ some b
  left : ∀ node, d.dest b = some node → (b, node) ∈ w.left

section

variable {plan : HaulPlan} {k b : Nat} {w : Watch} {d : DestinationLoop} {st : ResolvedStep}
  {node : String}

/-! ## robot の一歩 -/

theorem watch_take (hact : st.action = .pickup) (hcarry : plan.Carries w.robot (st, k)) :
    w.robot.hand = none ∧ ∃ r ∈ w.robot.resting, r.place = st.node ∧
      (∀ cb, plan.claimed.find? (·.stepIndex == k) = some cb → r.item = cb.binID) ∧
      plan.watch w (st, k) = ⟨w.robot.lift r.item, w.last st.node,
        Function.update w.last st.node none, (r.item, st.node) :: w.left⟩ := by
  obtain ⟨c, hc⟩ := Option.isSome_iff_exists.mp hcarry
  have hmove : plan.moveAt k st =
      .take ((plan.claimed.find? (·.stepIndex == k)).map ClaimedBin.binID) st.node := by
    simp only [HaulPlan.moveAt, hact]
  obtain ⟨hempty, r, hr, hplace, hnamed, rfl⟩ := Carriage.step_take (hmove ▸ hc)
  refine ⟨hempty, r, hr, hplace, fun cb hcb => hnamed _ (by rw [hcb]; rfl), ?_⟩
  simp only [HaulPlan.watch, HaulPlan.carry, hact, hc, Option.getD_some]
  rfl

theorem watch_put (hact : st.action = .dropoff) (hcarry : plan.Carries w.robot (st, k)) :
    ∃ b, w.robot.hand = some b ∧ plan.watch w (st, k) =
      ⟨⟨none, ⟨b, st.node, true⟩ :: w.robot.resting⟩, none,
        Function.update w.last st.node (some b), w.left⟩ := by
  obtain ⟨c, hc⟩ := Option.isSome_iff_exists.mp hcarry
  have hmove : plan.moveAt k st = .put st.node := by simp only [HaulPlan.moveAt, hact]
  obtain ⟨b, hhand, rfl⟩ := Carriage.step_put (hmove ▸ hc)
  refine ⟨b, hhand, ?_⟩
  simp only [HaulPlan.watch, HaulPlan.carry, hact, hc, Option.getD_some, hhand]

theorem watch_stay (hact : st.action = .wait) : plan.watch w (st, k) = w := by
  simp only [HaulPlan.watch, HaulPlan.carry, HaulPlan.moveAt, hact, Carriage.step,
    Option.getD_some]

theorem update_some {f : String → Option Nat} {v : Option Nat} {node' : String}
    (h : update f node v node' = some b) :
    node' = node ∧ v = some b ∨ node' ≠ node ∧ f node' = some b := by
  by_cases hn : node' = node
  · subst hn
    exact .inl ⟨rfl, by rwa [update_self] at h⟩
  · exact .inr ⟨hn, by rwa [update_of_ne hn] at h⟩

theorem step_stay (hact : st.action = .wait) : d.step st = d := by
  simp only [DestinationLoop.step, hact]

theorem perm_put {c : Carriage Nat String} {all : List Nat} (h : c.items.Perm all)
    (hhand : c.hand = some b) :
    (Carriage.mk none (⟨b, node, true⟩ :: c.resting)).items.Perm all := by
  rwa [Carriage.items, hhand] at h

theorem mem_of_claimedMap {claimed : List ClaimedBin} (h : claimedMap claimed node = some b) :
    ∃ cb ∈ claimed, cb.nodeName = node ∧ cb.binID = b := by
  unfold claimedMap at h
  induction claimed using List.reverseRecOn with
  | nil => cases h
  | append_singleton rest cb ih =>
    rw [foldl_concat] at h
    obtain ⟨rfl, hb⟩ | ⟨-, hb⟩ := update_some h
    · exact ⟨cb, mem_concat_self, rfl, Option.some_inj.mp hb⟩
    · obtain ⟨cb', hcb', hspec⟩ := ih hb
      exact ⟨cb', mem_append_left _ hcb', hspec⟩

/-! ## 見失った後 -/

theorem HaulPlan.Assigned.ne_zero (ha : plan.Assigned)
    (hb : b ∈ plan.claimed.map ClaimedBin.binID) : b ≠ 0 := by
  obtain ⟨cb, hcb, rfl⟩ := mem_map.mp hb
  exact Nat.pos_iff_ne_zero.mp (ha.pos cb hcb)

theorem step_lost (hpos : b ≠ 0) (hcarry : d.carrying ≠ b)
    (hat : ∀ node, d.binAtNode node ≠ some b) (st : ResolvedStep) :
    (d.step st).carrying ≠ b ∧ (∀ node, (d.step st).binAtNode node ≠ some b) ∧
      (d.step st).dest b = d.dest b := by
  cases hact : st.action with
  | wait =>
    rw [step_stay hact]
    exact ⟨hcarry, hat, rfl⟩
  | pickup =>
    cases hx : d.binAtNode st.node with
    | none =>
      have hskip : d.step st = d := by simp only [DestinationLoop.step, hact, hx]
      rw [hskip]
      exact ⟨hcarry, hat, rfl⟩
    | some x =>
      rw [DestinationLoop.step_pickup hact hx]
      refine ⟨fun he => hat st.node (he ▸ hx), fun node hb => ?_, rfl⟩
      obtain ⟨-, ⟨⟩⟩ | ⟨-, hb⟩ := update_some hb
      exact hat node hb
  | dropoff =>
    by_cases hzero : d.carrying = 0
    · have hskip : d.step st = d := by simp [DestinationLoop.step, hact, hzero]
      rw [hskip]
      exact ⟨hcarry, hat, rfl⟩
    · rw [DestinationLoop.step_dropoff hact rfl hzero]
      refine ⟨hpos.symm, fun node hb => ?_, update_of_ne hcarry.symm _ d.dest⟩
      obtain ⟨-, hb⟩ | ⟨-, hb⟩ := update_some hb
      · exact hcarry (Option.some_inj.mp hb)
      · exact hat node hb

theorem Strays.run (ha : plan.Assigned) (h : Strays plan w d b) (steps : List ResolvedStep)
    (k : Nat) : Strays plan (runSteps plan.watch w (steps.zipIdx k))
      (steps.foldl DestinationLoop.step d) b := by
  induction steps generalizing k w d with
  | nil => exact h
  | cons st rest ih =>
    obtain ⟨hcarry, hat, hdest⟩ := step_lost (ha.ne_zero h.claimed) h.carrying h.atNode st
    have hleft : w.left ⊆ (plan.watch w (st, k)).left := by
      unfold HaulPlan.watch
      cases st.action with
      | pickup => exact subset_append_right _ _
      | dropoff => exact List.Subset.refl _
      | wait => exact List.Subset.refl _
    exact ih ⟨h.claimed, hcarry, hat, fun node hn => hleft (h.left node (hdest ▸ hn))⟩ (k + 1)

/-! ## 辿る間 -/

namespace Tracks

theorem start (plan : HaulPlan) :
    Tracks plan 0 plan.watched { binAtNode := claimedMap plan.claimed } where
  items := by simp [HaulPlan.watched, HaulPlan.parked, Carriage.items, comp_def]
  carrying := rfl
  empty := fun _ => rfl
  atNode := rfl
  rests := by
    intro node b h
    obtain ⟨cb, hcb, hname, hid⟩ := mem_of_claimedMap h
    exact ⟨_, mem_map_of_mem hcb, hid, hname⟩
  dest := by
    intro r hr
    obtain ⟨cb, -, rfl⟩ := mem_map.mp hr
    rfl
  left := nofun
  ahead := by
    intro r hr _
    obtain ⟨cb, hcb, rfl⟩ := mem_map.mp hr
    exact ⟨cb, hcb, rfl, Nat.zero_le _⟩

variable (h : Tracks plan k w d) (hk : ∀ cb ∈ plan.claimed, cb.stepIndex = k → st.action = .pickup)
include h

include hk in
theorem ahead_succ (hact : st.action ≠ .pickup) {r : Resting Nat String}
    (hr : r ∈ w.robot.resting) (hmoved : r.moved = false) :
    ∃ cb ∈ plan.claimed, cb.binID = r.item ∧ k + 1 ≤ cb.stepIndex := by
  obtain ⟨cb, hcb, hid, hle⟩ := h.ahead r hr hmoved
  refine ⟨cb, hcb, hid, ?_⟩
  have hne : cb.stepIndex ≠ k := fun he => hact (hk cb hcb he)
  omega

theorem claimed_of_hand (hhand : w.robot.hand = some b) :
    b ∈ plan.claimed.map ClaimedBin.binID :=
  (Carriage.mem_items h.items).mpr (.inl hhand)

theorem take (ha : plan.Assigned) (hact : st.action = .pickup)
    (hcarry : plan.Carries w.robot (st, k)) :
    Tracks plan (k + 1) (plan.watch w (st, k)) (d.step st) := by
  obtain ⟨hempty, r, hr, hplace, hnamed, hnext⟩ := watch_take hact hcarry
  have hstep : d.step st = { d with
      carrying := (w.last st.node).getD 0, binAtNode := Function.update w.last st.node none } := by
    cases hlast : w.last st.node with
    | some b => rw [DestinationLoop.step_pickup hact (h.atNode ▸ hlast), h.atNode]; rfl
    | none =>
      have hzero : d.carrying = 0 := by rw [h.carrying, h.empty hempty]; rfl
      have hskip : d.step st = d := by simp only [DestinationLoop.step, hact, h.atNode, hlast]
      have hsame : update w.last st.node none = d.binAtNode := by
        rw [← hlast, update_eq_self, h.atNode]
      rw [hskip, hsame, Option.getD_none, ← hzero]
  rw [hnext, hstep]
  refine ⟨Carriage.items_lift h.items ha.bins hempty hr, rfl, by rintro ⟨⟩, rfl, ?_, ?_, ?_, ?_⟩
  · intro node b hlast
    obtain ⟨-, ⟨⟩⟩ | ⟨hn, hlast⟩ := update_some hlast
    obtain ⟨r', hr', rfl, rfl⟩ := h.rests node b hlast
    refine ⟨r', Carriage.mem_lift.mpr ⟨hr', fun he => hn ?_⟩, rfl, rfl⟩
    rw [inj_on_of_nodup_map (Carriage.nodup_resting h.items ha.bins) hr' hr he, hplace]
  · exact fun r' hr' => h.dest r' (Carriage.mem_lift.mp hr').1
  · -- いま取った bin の行き先は、取った node か、まだ無い
    rintro _ ⟨⟩ node hdest
    rw [h.dest r hr] at hdest
    split at hdest
    · rw [← Option.some_inj.mp hdest, hplace]
      exact mem_cons_self
    · cases hdest
  · intro r' hr' hmoved
    obtain ⟨hmem, hne⟩ := Carriage.mem_lift.mp hr'
    obtain ⟨cb, hcb, hid, hle⟩ := h.ahead r' hmem hmoved
    refine ⟨cb, hcb, hid, ?_⟩
    -- この一歩に割り当てられた bin は、いま取られた bin
    have hk : cb.stepIndex ≠ k := by
      intro hk
      have hfind : plan.claimed.find? (·.stepIndex == k) = some cb := by
        rw [← hk]
        exact find?_of_nodup_map ha.steps hcb
      exact hne (hid.symm.trans (hnamed cb hfind).symm)
    omega

include hk in
theorem put (ha : plan.Assigned) (hact : st.action = .dropoff)
    (hcarry : plan.Carries w.robot (st, k)) (hput : w.held = w.robot.hand) :
    Tracks plan (k + 1) (plan.watch w (st, k)) (d.step st) := by
  obtain ⟨b, hhand, hnext⟩ := watch_put hact hcarry
  have hcarrying : d.carrying = b := by rw [h.carrying, hput, hhand]; rfl
  rw [DestinationLoop.step_dropoff hact hcarrying (ha.ne_zero (h.claimed_of_hand hhand)),
    hnext, h.atNode]
  refine ⟨perm_put h.items hhand, rfl, fun _ => rfl, rfl, ?_, ?_, nofun, ?_⟩
  · intro node x hlast
    obtain ⟨rfl, hx⟩ | ⟨-, hlast⟩ := update_some hlast
    · exact ⟨_, mem_cons_self, Option.some_inj.mp hx, rfl⟩
    · obtain ⟨r, hr, hitem⟩ := h.rests node x hlast
      exact ⟨r, mem_cons_of_mem _ hr, hitem⟩
  · intro r hr
    rcases mem_cons.mp hr with rfl | hr
    · exact update_self b (some st.node) d.dest
    · exact (update_of_ne (Carriage.hand_notMem h.items ha.bins hhand hr) _ d.dest).trans
        (h.dest r hr)
  · intro r hr hmoved
    rcases mem_cons.mp hr with rfl | hr
    · cases hmoved
    · exact h.ahead_succ hk (by simp [hact]) hr hmoved

include hk in
theorem stay (hact : st.action = .wait) :
    Tracks plan (k + 1) (plan.watch w (st, k)) (d.step st) := by
  rw [watch_stay hact, step_stay hact]
  exact { h with ahead := fun r hr => h.ahead_succ hk (by simp [hact]) hr }

/-- **手に在る bin と違う bin を運んでいるつもりで置けば、手に在った bin を見失う。** -/
theorem strays (ha : plan.Assigned) (hact : st.action = .dropoff)
    (hcarry : plan.Carries w.robot (st, k)) (hput : w.held ≠ w.robot.hand) :
    ∃ b, Strays plan (plan.watch w (st, k)) (d.step st) b := by
  obtain ⟨b, hhand, hnext⟩ := watch_put hact hcarry
  have hclaimed := h.claimed_of_hand hhand
  have hpos := ha.ne_zero hclaimed
  have hne : d.carrying ≠ b := by
    rw [h.carrying]
    intro he
    cases hheld : w.held with
    | none => exact hpos (by rw [← he, hheld]; rfl)
    | some x => exact hput (by rw [hheld, hhand, ← he, hheld]; rfl)
  have hlost : ∀ node, d.binAtNode node ≠ some b := by
    intro node hat
    obtain ⟨r, hr, hitem, -⟩ := h.rests node b (h.atNode ▸ hat)
    exact Carriage.hand_notMem h.items ha.bins hhand hr hitem
  obtain ⟨hcarrying, hat, hdest⟩ := step_lost hpos hne hlost st
  refine ⟨b, hclaimed, hcarrying, hat, ?_⟩
  rw [hdest, hnext]
  exact h.left b hhand

omit h in
/-- **行程の終わりまで辿るか、どれかの bin を見失う。** -/
theorem run (ha : plan.Assigned) {steps : List ResolvedStep} (h : Tracks plan k w d)
    (hk : ∀ cb ∈ plan.claimed, ∀ st, (st, cb.stepIndex) ∈ steps.zipIdx k → st.action = .pickup)
    (hrun : AllSteps plan.carry plan.Carries w.robot (steps.zipIdx k)) :
    AllSteps plan.watch Watch.PutsLastLeft w (steps.zipIdx k) ∧
        Tracks plan (k + steps.length) (runSteps plan.watch w (steps.zipIdx k))
          (steps.foldl DestinationLoop.step d) ∨
      ¬ AllSteps plan.watch Watch.PutsLastLeft w (steps.zipIdx k) ∧
        ∃ b, Strays plan (runSteps plan.watch w (steps.zipIdx k))
          (steps.foldl DestinationLoop.step d) b := by
  induction steps generalizing k w d with
  | nil => exact .inl ⟨trivial, h⟩
  | cons st rest ih =>
    obtain ⟨hcarry, hrest⟩ := hrun
    have hst : ∀ cb ∈ plan.claimed, cb.stepIndex = k → st.action = .pickup := fun cb hcb he =>
      hk cb hcb st (he ▸ mem_cons_self)
    by_cases hput : w.PutsLastLeft (st, k)
    · have hnext : Tracks plan (k + 1) (plan.watch w (st, k)) (d.step st) := by
        cases hact : st.action with
        | pickup => exact h.take ha hact hcarry
        | dropoff => exact h.put hst ha hact hcarry (hput hact)
        | wait => exact h.stay hst hact
      rw [length_cons, Nat.add_comm rest.length, ← Nat.add_assoc]
      refine (ih hnext (fun cb hcb st' hst' => hk cb hcb st' (mem_cons_of_mem _ hst'))
        (watch_robot plan w (st, k) ▸ hrest)).imp ?_ ?_
      · exact fun ⟨hall, hend⟩ => ⟨⟨hput, hall⟩, hend⟩
      · exact fun ⟨hnot, hend⟩ => ⟨fun hall => hnot hall.2, hend⟩
    · obtain ⟨hact, hne⟩ := Classical.not_imp.mp hput
      obtain ⟨b, hstray⟩ := h.strays ha hact hcarry hne
      exact .inr ⟨fun hall => hput hall.1, b, hstray.run ha rest (k + 1)⟩

end Tracks

end

/--
**置く bin がいつも、取った node にいちばん後に残されていた bin なら、行き先は robot に合う。**
どの bin も取った node に戻って終わらなければ、合うのはそのときに限る。
-/
theorem destinations_match_robot (plan : HaulPlan) (ha : plan.Assigned)
    (hrun : AllSteps plan.carry plan.Carries plan.parked plan.order.steps.zipIdx) :
    (AllSteps plan.watch Watch.PutsLastLeft plan.watched plan.order.steps.zipIdx → plan.Matches) ∧
    (plan.EndsElsewhere → plan.Matches →
      AllSteps plan.watch Watch.PutsLastLeft plan.watched plan.order.steps.zipIdx) := by
  have hk : ∀ cb ∈ plan.claimed, ∀ st, (st, cb.stepIndex) ∈ plan.order.steps.zipIdx 0 →
      st.action = .pickup := by
    intro cb hcb st hst
    obtain ⟨s, hs, hact, -⟩ := ha.pickups cb hcb
    rw [mem_zipIdx_iff_getElem?] at hst
    cases hst.symm.trans hs
    exact hact
  obtain ⟨hall, hend⟩ | ⟨hnot, b, hstray⟩ := (Tracks.start plan).run ha hk hrun
  · refine ⟨fun _ cb hcb => ?_, fun _ _ => hall⟩
    refine ((Carriage.mem_items hend.items).mp (mem_map_of_mem hcb)).imp id ?_
    rintro ⟨r, hr, hitem⟩
    refine ⟨r, hr, hitem, ?_⟩
    -- 動いていない bin の一歩は、行程の終わりより先に在ることになる
    have hmoved : r.moved = true := by
      by_contra hmoved
      obtain ⟨cb', hcb', -, hle⟩ := hend.ahead r hr (by simpa using hmoved)
      obtain ⟨s, hs, -⟩ := ha.pickups cb' hcb'
      have hlt := (List.getElem?_eq_some_iff.mp hs).1
      omega
    rw [← hitem]
    exact (hend.dest r hr).trans (if_pos hmoved)
  · refine ⟨fun hall => absurd hall hnot, fun ⟨hempty, helse⟩ hmatch => ?_⟩
    obtain ⟨cb, hcb, rfl⟩ := mem_map.mp hstray.claimed
    rcases hmatch cb hcb with hhand | ⟨r, hr, hitem, hdest⟩
    · rw [hempty] at hhand
      cases hhand
    · have hleft := hstray.left r.place hdest
      rw [← hitem] at hleft
      exact absurd hleft (helse r hr)

/-- LINE の古い bin を STAGE に退けて取り直す行程では、二つの bin の行き先が合う。 -/
theorem destinations_match_robot_clearFirst :
    clearFirst.Assigned ∧
    AllSteps clearFirst.carry clearFirst.Carries clearFirst.parked
      clearFirst.order.steps.zipIdx ∧ clearFirst.Matches := by
  refine ⟨?assigned, ?run, (destinations_match_robot clearFirst ?assigned ?run).1 ?_⟩
  · decide +kernel
  · decide +kernel
  · decide +kernel

def twoFromSupply : HaulPlan :=
  haulOf [{ action := .pickup, node := "SUPPLY" }, { action := .dropoff, node := "LINE" },
      { action := .pickup, node := "SUPPLY" }, { action := .dropoff, node := "RETURN" }]
    [⟨7, 0, "SUPPLY"⟩, ⟨8, 2, "SUPPLY"⟩]

def ontoOld : HaulPlan :=
  haulOf [{ action := .pickup, node := "SUPPLY" }, { action := .dropoff, node := "LINE" },
      { action := .pickup, node := "LINE" }, { action := .dropoff, node := "RETURN" }]
    [⟨7, 0, "SUPPLY"⟩, ⟨8, 2, "LINE"⟩]

def HaulPlan.Misplaces (plan : HaulPlan) (binID : Nat) (node : String) (dest : Option String) :
    Prop :=
  plan.Assigned ∧ AllSteps plan.carry plan.Carries plan.parked plan.order.steps.zipIdx ∧
    ⟨binID, node, true⟩ ∈ plan.arrived.robot.resting ∧
    resolvePerBinDestinations plan.order.steps (claimedMap plan.claimed) binID = dest ∧
    dest ≠ some node

/--
* 一つの node から二つ取ると、先に取る bin の行き先は無く、後の bin の行き先が先の bin のものになる
* bin の在る node に置くと、置いた bin が次に取られたことになり、もとの bin の行き先は無い
-/
theorem destinations_part_from_robot :
    twoFromSupply.Misplaces 7 "LINE" none ∧ twoFromSupply.Misplaces 8 "RETURN" (some "LINE") ∧
    ontoOld.Misplaces 7 "LINE" (some "RETURN") ∧ ontoOld.Misplaces 8 "RETURN" none := by
  unfold HaulPlan.Misplaces
  decide +kernel

end Shingo.Core
