import Mathlib.Algebra.Ring.Int.Defs
import Shingo.Core.Manifest
import Shingo.Properties.Applier

/-!
# 決め直した数に、前の電文は足されないか

一つの bin の数を決め直す操作と、電文の到着を、どの順にも混ぜる。電文は、作られたときの
bin の世代を持ち、遅れても重なっても届く。

世代を進める決め直しの後では、前の電文は世代で断られる。`syncUOPAndClaimTx` だけは
世代を進めないので、作られてまだ足されていない電文が、新しい数に足される。
-/

namespace Shingo.Core

open Infra Protocol List

def CoreInventory.epoch (c : CoreInventory) (binID : Int) : Option Int :=
  (c.bins binID).map Bin.deltaEpoch

structure ProducedDelta where
  station : String
  delta : BinUOPDelta
  life : Nat

structure AcceptedDelta where
  produced : ProducedDelta
  life : Nat

/-- core の表と、数の履歴。`base` は最後に書かれた絶対値。 -/
structure FenceWorld where
  core : CoreInventory
  life : Nat
  base : Int
  produced : List ProducedDelta
  accepted : List AcceptedDelta

namespace FenceWorld

def start (core : CoreInventory) (base : Int) : FenceWorld := ⟨core, 0, base, [], []⟩

def wrote (w : FenceWorld) (value : Int) : Except ManifestError CoreInventory → FenceWorld
  | .error _ => w
  | .ok core => { w with core, life := w.life + 1, base := value }

def counted (w : FenceWorld) : Int :=
  ((w.accepted.filter (·.produced.life == w.life)).map (·.produced.delta.delta)).sum

/-- 足された電文はどれも、そのときの数と同じ life のもので、数はその和。 -/
def Fenced (binID : Int) (w : FenceWorld) : Prop :=
  (∀ e ∈ w.accepted, e.produced.life = e.life) ∧ w.core.uop binID = some (w.base + w.counted)
  deriving Decidable

end FenceWorld

inductive FenceAction where
  | clearForReuse
  | setForProduction (payloadCode : String) (uop : Int)
  | claim (remainingUOP : Option Int) (guard : Bool)
  | release (orderID : Int) (remainingUOP : Option Int) (sourceNodeFallback guard : Bool)
  | produce (station : String) (d : BinUOPDelta)
  | deliver (i : Nat)

/-- 届いた電文。manifest が消えると世代が進み、0 が書かれたことになる。 -/
def FenceWorld.deliver (binID : Int) (w : FenceWorld) (p : ProducedDelta) : FenceWorld :=
  match applyBinUOPDelta w.core p.station p.delta with
  | (core, some _) => { w with core }
  | (core, none) =>
    let accepted := w.accepted ++ [⟨p, w.life⟩]
    if core.epoch binID = w.core.epoch binID then { w with core, accepted }
    else { w with core, accepted, life := w.life + 1, base := 0 }

/-- 一歩。残りの数の無い claim と release は、数を書かない。 -/
def fenceStep (binID : Int) (svc : ManifestClearer) (w : FenceWorld) : FenceAction → FenceWorld
  | .clearForReuse => w.wrote 0 (clearForReuse w.core svc binID)
  | .setForProduction payloadCode uop =>
    w.wrote uop (setForProduction w.core svc binID payloadCode uop)
  | .claim none _ => w
  | .claim (some n) guard =>
    w.wrote (max n 0) (claimUnderReservationTx w.core svc binID (some n) guard)
  | .release _ none _ _ => w
  | .release orderID (some n) fallback guard =>
    w.wrote n (syncOrClearForReleased w.core svc binID orderID (some n) fallback guard)
  | .produce station d =>
    match w.core.epoch binID with
    | none => w
    | some epoch =>
      { w with produced := w.produced ++ [⟨station, { d with binID, epoch }, w.life⟩] }
  | .deliver i =>
    match w.produced[i]? with
    | none => w
    | some p => w.deliver binID p

/-- 今の世代の電文は、もう届いても足されない。 -/
def Settled (binID : Int) (w : FenceWorld) : Prop :=
  ∀ p ∈ w.produced, w.core.epoch binID = some p.delta.epoch →
    w.core.dedup.Covers (binDedupKey p.station p.delta) p.delta.sequenceID
  deriving Decidable

/-- 動作の条件。残りの数を書く claim は、今の世代の電文が全部片付いてから来る。 -/
def FenceStepOk (binID : Int) (w : FenceWorld) : FenceAction → Prop
  | .claim (some n) guard => 0 < n → guard = true → Settled binID w
  | _ => True

instance (binID : Int) (w : FenceWorld) : ∀ a, Decidable (FenceStepOk binID w a)
  | .claim (some _) _ => inferInstanceAs (Decidable (_ → _))
  | .claim none _ | .clearForReuse | .setForProduction _ _ | .release _ _ _ _ | .produce _ _
  | .deliver _ => .isTrue trivial

/-! ## 書き込みと世代 -/

section Epoch

variable {c : CoreInventory} {b : Int} {bin : Bin}

theorem epoch_of_bins (h : c.bins b = some bin) : c.epoch b = some bin.deltaEpoch := by
  rw [CoreInventory.epoch, h, Option.map_some]

theorem bins_of_epoch {e : Int} (h : c.epoch b = some e) :
    ∃ bin, c.bins b = some bin ∧ bin.deltaEpoch = e :=
  Option.map_eq_some_iff.mp h

theorem bumpEpoch_spec (svc : ManifestClearer) (h : c.bins b = some bin) :
    (bumpEpoch c svc b).bins b = some { bin with deltaEpoch := bin.deltaEpoch + 1 } ∧
      (bumpEpoch c svc b).dedup = c.dedup := by
  have hself := updateBin_bins_self c (fun x => { x with deltaEpoch := x.deltaEpoch + 1 }) h
  unfold bumpEpoch
  dsimp only
  rw [hself]
  dsimp only
  split
  · exact ⟨hself, rfl⟩
  · exact ⟨hself, rfl⟩

theorem clearForReuseTx_epoch (svc : ManifestClearer) (h : c.bins b = some bin) :
    (clearForReuseTx c b svc).epoch b = some (bin.deltaEpoch + 1) := by
  rw [epoch_of_bins (clearForReuseTx_spec svc h).1]

variable {d : BinUOPDelta}

theorem bindProduceTick_epoch (station : String) (h : c.bins d.binID = some bin) :
    (bindProduceTick c station d bin).1.epoch d.binID = some bin.deltaEpoch := by
  have hkeep : ∀ f : Bin → Bin, (∀ x, (f x).deltaEpoch = x.deltaEpoch) →
      (c.updateBin d.binID f).epoch d.binID = some bin.deltaEpoch :=
    fun f hf => (updateBin_bins_map c d.binID hf d.binID).trans (epoch_of_bins h)
  unfold bindProduceTick
  split
  · split
    · exact hkeep _ fun _ => rfl
    · exact hkeep _ fun _ => rfl
  · exact epoch_of_bins h

variable {c' : CoreInventory} {station : String} {err : Option ApplyError}

theorem BinRefused.epoch (h : BinRefused c c') (j : Int) : c'.epoch j = c.epoch j :=
  h.bins (fun _ => rfl) j

theorem clearIfCaptured_epoch (bin : Bin) {x : Bin} (h : c.bins d.binID = some x) :
    (clearIfCaptured c d bin).epoch d.binID =
      some (if clears c d bin = true then x.deltaEpoch + 1 else x.deltaEpoch) := by
  unfold clearIfCaptured clears
  cases hm : c.binManifest with
  | none => simpa using epoch_of_bins h
  | some svc =>
    dsimp only
    split
    · rename_i hc
      rw [clearForReuseTx_epoch svc h]
      simp [hc.1, hc.2]
    · rename_i hc
      rw [epoch_of_bins h]
      simp only [Option.isSome_some, Bool.true_and, Bool.and_eq_true, beq_iff_eq,
        decide_eq_true_eq, hc, if_false]

theorem applyClaimed_epoch {dedup : Watermark DedupKey} (h : c.bins d.binID = some bin)
    (ha : applyClaimed c dedup station d = (c', err)) :
    c'.epoch d.binID = some (if err = none ∧ clears c d bin = true
      then bin.deltaEpoch + 1 else bin.deltaEpoch) := by
  have hc₁ : ({ c with dedup := dedup } : CoreInventory).bins d.binID = some bin := h
  obtain ⟨bin', hb, hbins, huop, -, hm, -⟩ := bindProduceTick_spec station hc₁
  have hepoch := bindProduceTick_epoch station hc₁
  unfold applyClaimed at ha
  rw [h] at ha
  dsimp only at ha
  rw [hb] at ha
  split at ha
  · cases ha
    simp [(BinRefused.recordRejectedDelta ..).epoch, epoch_of_bins h]
  · cases ha
    obtain ⟨hself, -, hm₂, -⟩ := addUOP_spec station hbins
    have hcl := clears_congr (c := c) (d := d) (hm₂.trans hm) huop
    have hbin' : bin'.deltaEpoch = bin.deltaEpoch := by
      rw [epoch_of_bins hbins] at hepoch
      exact Option.some.inj hepoch
    rw [clearIfCaptured_epoch bin' hself, hcl]
    simp [hbin']

/-- **足した電文の世代は終わっていない。** 断ったときは、世代も変わらない。 -/
theorem applyBinUOPDelta_epoch (h : c.bins d.binID = some bin)
    (ha : applyBinUOPDelta c station d = (c', err)) : (err = none → staleEpoch c d = false) ∧
      c'.epoch d.binID = some (if err = none ∧ clears c d bin = true
        then bin.deltaEpoch + 1 else bin.deltaEpoch) := by
  unfold applyBinUOPDelta at ha
  split at ha
  · cases ha
    simp [epoch_of_bins h]
  split at ha
  · cases ha
    simp [epoch_of_bins h]
  split at ha
  · rw [h] at ha
    cases ha
    simp [(BinRefused.dropStaleEpoch ..).epoch, epoch_of_bins h]
  · rename_i hstale
    refine ⟨fun _ => by simpa using hstale, ?_⟩
    split at ha
    · cases ha
      simp [epoch_of_bins h]
    · exact applyClaimed_epoch h ha

end Epoch

/-! ## 不変条件 -/

/-- 電文はどれも、今の世代までのもので、前の life の電文はもう足されない。 -/
structure FenceInv (binID : Int) (w : FenceWorld) (e : Int) : Prop where
  count : w.core.uop binID = some (w.base + w.counted)
  epochAt : w.core.epoch binID = some e
  pos : 0 < e
  target : ∀ p ∈ w.produced, p.delta.binID = binID
  range : ∀ p ∈ w.produced, 0 < p.delta.epoch ∧ p.delta.epoch ≤ e
  lives : ∀ p ∈ w.produced, p.life ≤ w.life
  retired : ∀ p ∈ w.produced, p.life < w.life → p.delta.epoch < e ∨
    w.core.dedup.Covers (binDedupKey p.station p.delta) p.delta.sequenceID
  accepted : ∀ e ∈ w.accepted, e.produced.life = e.life ∧ e.life ≤ w.life

namespace FenceInv

variable {binID e : Int} {w : FenceWorld} {svc : ManifestClearer}

theorem fenced (h : FenceInv binID w e) : w.Fenced binID :=
  ⟨fun x hx => (h.accepted x hx).1, h.count⟩

theorem counted_next (h : ∀ e ∈ w.accepted, e.produced.life = e.life ∧ e.life ≤ w.life)
    (core : CoreInventory) (base : Int) :
    ({ w with core, life := w.life + 1, base } : FenceWorld).counted = 0 := by
  have hnone : w.accepted.filter (·.produced.life == w.life + 1) = [] := by
    refine filter_eq_nil_iff.mpr fun e he => ?_
    obtain ⟨h₁, h₂⟩ := h e he
    simp only [beq_iff_eq]
    omega
  show ((w.accepted.filter (·.produced.life == w.life + 1)).map _).sum = 0
  rw [hnone]
  rfl

variable {core : CoreInventory}

section

variable (h : FenceInv binID w e)
include h

variable {base : Int} {p : ProducedDelta}

theorem reset {e' : Int} (hu : core.uop binID = some base) (he : core.epoch binID = some e')
    (hd : ∀ k s, w.core.dedup.Covers k s → core.dedup.Covers k s) (hle : e ≤ e')
    (hfence : e < e' ∨ Settled binID w) :
    FenceInv binID { w with core, life := w.life + 1, base } e' where
  count := by
    rw [counted_next h.accepted, Int.add_zero]
    exact hu
  epochAt := he
  pos := by have := h.pos; omega
  target := h.target
  range := fun p hp => ⟨(h.range p hp).1, Int.le_trans (h.range p hp).2 hle⟩
  lives := fun p hp => Nat.le_succ_of_le (h.lives p hp)
  retired := by
    intro p hp _
    obtain ⟨-, hr⟩ := h.range p hp
    rcases hfence with hlt | hset
    · exact .inl (by omega)
    · by_cases heq : p.delta.epoch = e
      · exact .inr (hd _ _ (hset p hp (by rw [h.epochAt, heq])))
      · exact .inl (by omega)
  accepted := fun x hx => ⟨(h.accepted x hx).1, Nat.le_succ_of_le (h.accepted x hx).2⟩

theorem bumped {f : Bin → Bin}
    (hf : ∀ x, (f x).uopRemaining = base ∧ (f x).deltaEpoch = x.deltaEpoch) :
    FenceInv binID { w with
      core := bumpEpoch (w.core.updateBin binID f) svc binID
      life := w.life + 1, base } (e + 1) := by
  obtain ⟨bin, hbin, hepoch⟩ := bins_of_epoch h.epochAt
  obtain ⟨hbins, hdedup⟩ := bumpEpoch_spec svc (updateBin_bins_self w.core f hbin)
  refine h.reset ?_ ?_ (fun k s hc => hdedup ▸ hc) (by omega) (.inl (by omega))
  · rw [CoreInventory.uop, hbins, Option.map_some, (hf bin).1]
  · rw [epoch_of_bins hbins, (hf bin).2, hepoch]

theorem clearForReuse : ∃ e', FenceInv binID (w.wrote 0 (clearForReuse w.core svc binID)) e' := by
  unfold Core.clearForReuse
  split
  · exact ⟨e, h⟩
  · exact ⟨e + 1, h.bumped fun _ => ⟨rfl, rfl⟩⟩

theorem setForProduction (payloadCode : String) (uop : Int) :
    ∃ e', FenceInv binID (w.wrote uop (setForProduction w.core svc binID payloadCode uop)) e' := by
  unfold Core.setForProduction
  split
  · exact ⟨e, h⟩
  · exact ⟨e + 1, h.bumped fun _ => ⟨rfl, rfl⟩⟩

theorem claim {n : Int} {guard : Bool}
    (hok : 0 < n → guard = true → Settled binID w) : ∃ e', FenceInv binID
      (w.wrote (max n 0) (claimUnderReservationTx w.core svc binID (some n) guard)) e' := by
  unfold claimUnderReservationTx
  dsimp only
  by_cases hn : n ≤ 0
  · rw [if_pos hn, Int.max_eq_right hn]
    unfold clearAndClaimTx
    split
    · exact ⟨e, h⟩
    split
    · exact ⟨e + 1, h.bumped fun _ => ⟨rfl, rfl⟩⟩
    · exact ⟨e, h⟩
  · rw [if_neg hn, Int.max_eq_left (by omega)]
    unfold syncUOPAndClaimTx
    split
    · exact ⟨e, h⟩
    split
    · rename_i hguard
      obtain ⟨bin, hbin, hepoch⟩ := bins_of_epoch h.epochAt
      have hbins := updateBin_bins_self w.core (fun b => { b with uopRemaining := n }) hbin
      refine ⟨e, h.reset ?_ ?_ (fun _ _ hc => hc) (Int.le_refl e)
        (.inr (hok (by omega) hguard))⟩
      · rw [CoreInventory.uop, hbins, Option.map_some]
      · rw [epoch_of_bins hbins, ← hepoch]
    · exact ⟨e, h⟩

theorem release (orderID n : Int) (fallback guard : Bool) : ∃ e', FenceInv binID (w.wrote n
      (syncOrClearForReleased w.core svc binID orderID (some n) fallback guard)) e' := by
  unfold syncOrClearForReleased
  dsimp only
  split
  · exact ⟨e, h⟩
  split
  · exact ⟨e, h⟩
  split
  · exact ⟨e, h⟩
  split
  · rename_i hzero
    exact ⟨e + 1, hzero ▸ h.bumped fun _ => ⟨rfl, rfl⟩⟩
  · exact ⟨e + 1, h.bumped fun _ => ⟨rfl, rfl⟩⟩

theorem produce (station : String) (d : BinUOPDelta) : FenceInv binID { w with
      produced := w.produced ++ [⟨station, { d with binID, epoch := e }, w.life⟩] } e := by
  refine ⟨h.count, h.epochAt, h.pos, ?_, ?_, ?_, ?_, h.accepted⟩
  · intro p hp
    rcases mem_append_last.mp hp with hp | rfl
    · exact h.target p hp
    · rfl
  · intro p hp
    rcases mem_append_last.mp hp with hp | rfl
    · exact h.range p hp
    · exact ⟨h.pos, Int.le_refl e⟩
  · intro p hp
    rcases mem_append_last.mp hp with hp | rfl
    · exact h.lives p hp
    · exact Nat.le_refl _
  · intro p hp hlt
    rcases mem_append_last.mp hp with hp | rfl
    · exact h.retired p hp hlt
    · exact absurd hlt (Nat.lt_irrefl _)

theorem frame (hu : core.uop binID = w.core.uop binID) (he : core.epoch binID = w.core.epoch binID)
    (hd : core.dedup = w.core.dedup) : FenceInv binID { w with core } e :=
  { h with
    count := hu.trans h.count
    epochAt := he.trans h.epochAt
    retired := by
      intro p hp hlt
      rw [show ({ w with core } : FenceWorld).core.dedup = w.core.dedup from hd]
      exact h.retired p hp hlt }

theorem accept (hlife : p.life = w.life)
    (hu : core.uop binID = (w.core.uop binID).map (· + p.delta.delta))
    (he : core.epoch binID = w.core.epoch binID)
    (hd : ∀ k s, w.core.dedup.Covers k s → core.dedup.Covers k s) :
    FenceInv binID { w with core, accepted := w.accepted ++ [⟨p, w.life⟩] } e where
  __ := h
  count := by
    rw [hu, h.count, Option.map_some]
    simp [FenceWorld.counted, filter_append, hlife, Int.add_assoc]
  epochAt := he.trans h.epochAt
  retired := fun q hq hlt => (h.retired q hq hlt).imp_right (hd _ _)
  accepted := by
    intro x hx
    rcases mem_append_last.mp hx with hx | rfl
    · exact h.accepted x hx
    · exact ⟨hlife, Nat.le_refl _⟩

theorem logged (hlt : p.life < w.life) :
    FenceInv binID { w with accepted := w.accepted ++ [⟨p, p.life⟩] } e :=
  { h with
    count := by
      have hne : (p.life == w.life) = false := by simp only [beq_eq_false_iff_ne]; omega
      refine h.count.trans ?_
      simp [FenceWorld.counted, filter_append, hne]
    accepted := by
      intro x hx
      rcases mem_append_last.mp hx with hx | rfl
      · exact h.accepted x hx
      · exact ⟨rfl, Nat.le_of_lt hlt⟩ }

theorem deliver (hp : p ∈ w.produced) : ∃ e', FenceInv binID (w.deliver binID p) e' := by
  obtain ⟨bin, hbin, hepoch⟩ := bins_of_epoch h.epochAt
  have htarget := h.target p hp
  have hbin' : w.core.bins p.delta.binID = some bin := by rw [htarget]; exact hbin
  unfold FenceWorld.deliver
  rcases applyBinUOPDelta_cases w.core p.station p.delta with
    ⟨core, err, ha, hr⟩ | ⟨core, bin₁, ha, hb₁, happ⟩
  · -- 断られた
    rw [ha]
    obtain ⟨-, he⟩ := applyBinUOPDelta_epoch hbin' ha
    refine ⟨e, h.frame (hr.uop binID) ?_ hr.dedup⟩
    rw [htarget] at he
    rw [he, h.epochAt, ← hepoch]
    simp
  · rw [ha]
    obtain rfl : bin = bin₁ := Option.some.inj (hbin'.symm.trans hb₁)
    obtain ⟨hlive, he⟩ := applyBinUOPDelta_epoch hbin' ha
    have hlive := hlive rfl
    have hmono : ∀ k s, w.core.dedup.Covers k s → core.dedup.Covers k s := by
      intro k s hc
      rw [happ.dedup]
      exact Watermark.covers_claim_iff.mpr (.inl hc)
    -- 世代が終わっていれば断られ、番号が覆われていれば飛ばされていた
    have hlife : p.life = w.life := by
      refine Nat.le_antisymm (h.lives p hp) (Nat.le_of_not_lt fun hlt => ?_)
      rcases h.retired p hp hlt with hold | hcov
      · simp only [staleEpoch, hbin', Bool.and_eq_false_iff, decide_eq_false_iff_not] at hlive
        have := (h.range p hp).1
        omega
      · exact happ.fresh hcov
    have huop := happ.uop
    rw [htarget] at he huop
    dsimp only
    cases hcl : clears w.core p.delta bin with
    | true =>
      simp only [hcl, and_self, if_true] at he huop
      rw [if_neg (by rw [he, h.epochAt, hepoch]; intro hc; have := Option.some.inj hc; omega)]
      have hreset := h.reset huop he hmono (by omega) (.inl (by omega))
      have hlog := hreset.logged (p := p) (by rw [hlife]; exact Nat.lt_succ_self _)
      rw [hlife] at hlog
      exact ⟨_, hlog⟩
    | false =>
      simp only [hcl, Bool.false_eq_true, and_false, if_false] at he huop
      rw [if_pos (by rw [he, h.epochAt, hepoch])]
      refine ⟨e, h.accept hlife ?_ (by rw [he, h.epochAt, hepoch]) hmono⟩
      rw [huop, CoreInventory.uop, hbin, Option.map_some, Option.map_some]

theorem step {a : FenceAction} (hok : FenceStepOk binID w a) :
    ∃ e', FenceInv binID (fenceStep binID svc w a) e' := by
  cases a with
  | clearForReuse => exact h.clearForReuse
  | setForProduction payloadCode uop => exact h.setForProduction payloadCode uop
  | claim remainingUOP guard =>
    cases remainingUOP with
    | none => exact ⟨e, h⟩
    | some n => exact h.claim hok
  | release orderID remainingUOP fallback guard =>
    cases remainingUOP with
    | none => exact ⟨e, h⟩
    | some n => exact h.release orderID n fallback guard
  | produce station d =>
    unfold fenceStep
    rw [h.epochAt]
    exact ⟨e, h.produce station d⟩
  | deliver i =>
    unfold fenceStep
    dsimp only
    split
    · exact ⟨e, h⟩
    · rename_i p hp
      exact h.deliver (mem_of_getElem? hp)

end

end FenceInv

/-- **残りの数を書く claim が、今の世代の電文が片付いてから来る実行では、決め直す前に作られた
電文は足されず、数は「最後に書いた値 ＋ その後に作られて足された電文」。** -/
theorem count_reset_fences (binID : Int) (svc : ManifestClearer) (core : CoreInventory) (bin : Bin)
    (hbin : core.bins binID = some bin) (hepoch : 0 < bin.deltaEpoch) (as : List FenceAction)
    (hok : AllSteps (fenceStep binID svc) (FenceStepOk binID)
      (FenceWorld.start core bin.uopRemaining) as) :
    ∀ w ∈ visited (fenceStep binID svc) (FenceWorld.start core bin.uopRemaining) as,
      w.Fenced binID := by
  have hstart : FenceInv binID (FenceWorld.start core bin.uopRemaining) bin.deltaEpoch :=
    { count := by
        show core.uop binID = some (bin.uopRemaining + 0)
        rw [CoreInventory.uop, hbin, Option.map_some, Int.add_zero]
      epochAt := epoch_of_bins hbin
      pos := hepoch
      target := forall_mem_nil _
      range := forall_mem_nil _
      lives := forall_mem_nil _
      retired := forall_mem_nil _
      accepted := forall_mem_nil _ }
  have hstep : ∀ w a, (∃ e, FenceInv binID w e) → FenceStepOk binID w a →
      ∃ e, FenceInv binID (fenceStep binID svc w a) e := by
    rintro w a ⟨e, h⟩ ha
    exact h.step ha
  intro w hw
  obtain ⟨e, h⟩ := AllSteps.visited_of_inv hstep ⟨_, hstart⟩ hok w hw
  exact h.fenced

def coreAtFifty : CoreInventory where
  bins b := if b = 7 then some ⟨"P", 50, 1, false, "PRESS"⟩ else none
  buckets _ := none
  nodes n := n == "PRESS"
  dedup _ := none
  ledger := []
  exceptions := []
  announced := []
  announceWired := true
  repaired _ := 0
  binManifest := some ⟨true⟩
  droppedStaleEpoch := 0
  droppedPayloadMismatch := 0

def consumeFive (seq : Nat) : FenceAction :=
  .produce "ST1" ⟨"ST1", 7, "P", -5, some .consumeTick, seq, 0, 0, 0⟩

/-- 5 個の消費が届いてから 40 個と書き、さらに 5 個を消費し、新しく積んでから遅れて届く。 -/
theorem count_reset_fences_settled :
    AllSteps (fenceStep 7 ⟨true⟩) (FenceStepOk 7) (FenceWorld.start coreAtFifty 50)
      [consumeFive 1, .deliver 0, .claim (some 40) true, consumeFive 2,
        .setForProduction "P" 90, .deliver 1] ∧
    (runSteps (fenceStep 7 ⟨true⟩) (FenceWorld.start coreAtFifty 50)
      [consumeFive 1, .deliver 0, .claim (some 40) true, consumeFive 2,
        .setForProduction "P" 90, .deliver 1]).Fenced 7 := by
  refine ⟨?ok, count_reset_fences 7 ⟨true⟩ coreAtFifty ⟨"P", 50, 1, false, "PRESS"⟩ rfl
    (by decide) _ ?ok _ (mem_visited_runSteps _ _)⟩
  decide

/-- **5 個の消費が届く前に 40 個と書くと、遅れて届いた 5 個が、書いた数から引かれる。** -/
theorem late_delta_after_claim :
    (runSteps (fenceStep 7 ⟨true⟩) (FenceWorld.start coreAtFifty 50)
      [consumeFive 1, .claim (some 40) true, .deliver 0]).core.uop 7 = some 35 ∧
    ¬ (runSteps (fenceStep 7 ⟨true⟩) (FenceWorld.start coreAtFifty 50)
      [consumeFive 1, .claim (some 40) true, .deliver 0]).Fenced 7 := by
  decide

end Shingo.Core
