import Shingo.Dispatch.LaneSplice
import Shingo.Infra.ListSplit
import Shingo.Infra.Run

/-!
# 印のある lane には、いつも wait を挟んで入るか

挟んだ行程で、robot が外から印のある lane に入る一歩は、その lane の wait のすぐ後にあるか。
robot の居場所は、node を持つ最後の一歩（wait も含む）で決まる（`whereabouts`）。

`spliceLaneWait` は居場所を pickup と dropoff だけで追う（`insideAfter`）。成り立つのは、入口の
どれもその追い方で入口と見えるか、行程が元から wait を持つとき、そのときに限る（`EntriesSeen`）。
-/

namespace Shingo.Dispatch

open Core Infra List LaneMap OrderBinRow Option

variable {s : ResolvedStep} {t : LaneGateTarget} {steps out : List ResolvedStep}
  {first : Option LaneGateTarget} {k : Nat} {rows : List OrderBinRow} {r : OrderBinRow}

namespace LaneMap

variable (m : LaneMap)

/-! ## robot の居場所 -/

def gatedLane (s : ResolvedStep) : Option Nat := (m.gateOf s).map (·.lane.id)

def moveTo (here : Option Nat) (s : ResolvedStep) : Option Nat :=
  if s.node = "" then here else m.gatedLane s

/-- 行程を終えた robot の居る、印のある lane。 -/
def whereabouts (steps : List ResolvedStep) : Option Nat := steps.foldl m.moveTo none

/-- pickup と dropoff だけで追った居場所。`spliceLaneWait` の `inside`。 -/
def insideAfter (steps : List ResolvedStep) : Option Nat :=
  m.whereabouts (steps.filter fun s => !s.isWait)

end LaneMap

/-- その lane の wait。 -/
def ResolvedStep.Gates (w : ResolvedStep) (lane : Nat) : Prop :=
  w.isLaneWait = true ∧ w.waitLane = lane

/-- 入口までの行程が、その lane の wait ちょうど一つで終わる。 -/
def GatedBy (lane : Nat) (before : List ResolvedStep) : Prop :=
  ∃ earlier w, before = earlier ++ [w] ∧ w.Gates lane ∧ ∀ w' ∈ earlier.getLast?, ¬ w'.Gates lane

namespace LaneMap

variable (m : LaneMap)

/-- `s` は、`before` の後で外から `lane` に入る一歩。 -/
structure Enters (steps before : List ResolvedStep) (s : ResolvedStep) (lane : Nat) : Prop where
  step : ∃ after, steps = before ++ s :: after
  gated : m.gatedLane s = some lane
  outside : m.whereabouts before ≠ some lane

/-- どの入口のすぐ前にも、その lane の wait がちょうど一つある。 -/
def EntriesGated (steps : List ResolvedStep) : Prop :=
  ∀ before s lane, m.Enters steps before s lane → GatedBy lane before

/--
どの入口も、pickup か dropoff で、pickup と dropoff だけで追っても入口に見える。
さもなければ、行程が元から wait を持つ。
-/
def EntriesSeen (steps : List ResolvedStep) : Prop :=
  ∀ before s lane, m.Enters steps before s lane →
    s.isWait = false ∧ m.insideAfter before ≠ some lane ∨ GatedBy lane before

/-! ## 挟む場所 -/

/-- `s` の前に挟む門。 -/
def ahead (inside : Option Nat) (s : ResolvedStep) : Option LaneGateTarget :=
  if s.isWait then none else (m.gateOf s).filter fun t => t.lane.id != inside.getD 0

/-- 行程の一歩ずつに、その前に挟む門を添える。 -/
def annotate (inside : Option Nat) :
    List ResolvedStep → List (Option LaneGateTarget × ResolvedStep)
  | [] => []
  | s :: rest =>
    (m.ahead inside s, s) :: annotate (if s.isWait then inside else m.moveTo inside s) rest

def emit (e : Option LaneGateTarget × ResolvedStep) : List ResolvedStep :=
  e.1.toList.map LaneGateTarget.wait ++ [e.2]

@[simp] theorem emit_none (s : ResolvedStep) : emit (none, s) = [s] := rfl

@[simp] theorem emit_some (t : LaneGateTarget) (s : ResolvedStep) :
    emit (some t, s) = [t.wait, s] := rfl

theorem map_snd_annotate (inside : Option Nat) (steps : List ResolvedStep) :
    (m.annotate inside steps).map Prod.snd = steps := by
  induction steps generalizing inside with
  | nil => rfl
  | cons s rest ih => rw [annotate, map_cons, ih]

theorem annotate_append (inside : Option Nat) (a b : List ResolvedStep) :
    m.annotate inside (a ++ b) = m.annotate inside a
      ++ m.annotate ((a.filter fun s => !s.isWait).foldl m.moveTo inside) b := by
  induction a generalizing inside with
  | nil => rfl
  | cons s rest ih =>
    rw [cons_append, annotate, annotate, ih]
    cases hw : s.isWait <;> simp [hw]

/-- 門を一歩ずつ挟んだ行程。 -/
def spliced (steps : List ResolvedStep) : List ResolvedStep :=
  (m.annotate none steps).flatMap emit

theorem spliced_append (before after : List ResolvedStep) (s : ResolvedStep) :
    ∃ post, m.spliced (before ++ s :: after)
      = m.spliced before ++ emit (m.ahead (m.insideAfter before) s, s) ++ post := by
  rw [spliced, annotate_append, annotate, flatMap_append, flatMap_cons, ← append_assoc]
  exact ⟨_, rfl⟩

theorem emit_split {plan : List (Option LaneGateTarget × ResolvedStep)} {pre post}
    (h : plan.flatMap emit = pre ++ s :: post) : ∃ p e q, plan = p ++ e :: q ∧
      ((∃ t, e.1 = some t ∧ s = t.wait) ∨
        pre = p.flatMap emit ++ e.1.toList.map LaneGateTarget.wait ∧ s = e.2) := by
  obtain ⟨p, ⟨gate, x⟩, q, a, b, rfl, rfl, he⟩ := flatMap_split h
  refine ⟨p, (gate, x), q, rfl, ?_⟩
  cases gate with
  | none =>
    cases a with
    | nil => exact .inr ⟨rfl, (List.cons.inj he).1.symm⟩
    | cons y a => simp at he
  | some t =>
    cases a with
    | nil => exact .inl ⟨t, rfl, (List.cons.inj he).1.symm⟩
    | cons y a =>
      obtain ⟨rfl, htail⟩ := List.cons.inj he
      cases a with
      | nil => exact .inr ⟨rfl, (List.cons.inj htail).1.symm⟩
      | cons y a => simp at htail

/-- 挟んだ行程の一歩は、挟んだ wait か、元の行程の一歩。 -/
theorem spliced_split {pre post : List ResolvedStep} (h : m.spliced steps = pre ++ s :: post) :
    ∃ before x, (∃ after, steps = before ++ x :: after) ∧
      ((∃ t, m.ahead (m.insideAfter before) x = some t ∧ s = t.wait) ∨
        pre = m.spliced before
            ++ (m.ahead (m.insideAfter before) x).toList.map LaneGateTarget.wait ∧ s = x) := by
  obtain ⟨p, ⟨gate, x⟩, q, hplan, hcase⟩ := emit_split h
  have hsteps : steps = p.map Prod.snd ++ x :: q.map Prod.snd := by
    rw [← m.map_snd_annotate none steps, hplan, map_append, map_cons]
  have hann := hplan
  rw [hsteps, annotate_append, annotate] at hann
  have hlen : (m.annotate none (p.map Prod.snd)).length = p.length := by
    rw [← length_map Prod.snd, m.map_snd_annotate, length_map]
  obtain ⟨hp, htail⟩ := append_inj hann hlen
  obtain rfl : m.ahead (m.insideAfter (p.map Prod.snd)) x = gate :=
    congrArg Prod.fst (List.cons.inj htail).1
  exact ⟨_, x, ⟨_, hsteps⟩, hcase.imp id (And.imp_left fun h => h.trans (by rw [spliced, hp]))⟩

variable {m}

theorem gateOf_spec (h : m.gateOf s = some t) :
    s.node ≠ "" ∧ m.laneIsGated t.lane.id = true ∧ t.gatePoint = m.laneWaitPoint t.lane.id ∧
      t.lane ∈ m.plant.nodes := by
  unfold gateOf at h
  split at h
  · cases h
  next hne =>
  obtain ⟨lane, hlane, ht⟩ := bind_eq_some_iff.mp h
  obtain ⟨n, -, hn⟩ := bind_eq_some_iff.mp hlane
  unfold gateTargetForLane at ht
  split at ht
  · cases ht
  split at ht
  · next hg =>
    cases ht
    exact ⟨hne, hg, rfl, (Plant.laneForNode_spec hn).2⟩
  · cases ht

variable (m) in
theorem spliceStep_spec (st : SpliceWalk) (inside : Option Nat) (s : ResolvedStep) (i : Nat)
    (hin : st.inside = inside.getD 0) :
    (m.spliceStep st (s, i)).gates = st.gates ++ (m.ahead inside s).toList.map (⟨i, ·⟩) ∧
    (m.spliceStep st (s, i)).inside
      = (if s.isWait then inside else m.moveTo inside s).getD 0 := by
  unfold spliceStep ahead moveTo gatedLane
  split
  · simp [hin]
  split
  · next hb =>
    have hnone : m.gateOf s = none := if_pos hb
    simp_all
  · cases hg : m.gateOf s with
    | none => simp
    | some t =>
      by_cases ht : t.lane.id = st.inside
      · simp [ht, ← hin]
      · simp [Option.filter, ht, ← hin]

theorem insertWaits_nil (l : List (ResolvedStep × Nat)) : insertWaits [] l = l.map Prod.fst := by
  induction l with
  | nil => rfl
  | cons e rest ih => rw [insertWaits, ih, map_cons]

theorem insertWaits_skip {gates : List Gate} {e : ResolvedStep × Nat}
    {rest : List (ResolvedStep × Nat)} (h : ∀ g ∈ gates, e.2 < g.idx) :
    insertWaits gates (e :: rest) = e.1 :: insertWaits gates rest := by
  cases gates with
  | nil => rfl
  | cons g gates =>
    have hne : g.idx ≠ e.2 := Nat.ne_of_gt (h g mem_cons_self)
    rw [insertWaits, if_neg hne]

/-- **二回りで挟んだものは、一歩ずつ挟んだもの。** -/
theorem insertWaits_eq (steps : List ResolvedStep) (k : Nat) (st : SpliceWalk)
    (inside : Option Nat) (hin : st.inside = inside.getD 0) :
    ∃ new, ((steps.zipIdx k).foldl m.spliceStep st).gates = st.gates ++ new ∧
      (∀ g ∈ new, k ≤ g.idx) ∧
      new.map Gate.target = (m.annotate inside steps).filterMap Prod.fst ∧
      insertWaits new (steps.zipIdx k) = (m.annotate inside steps).flatMap emit := by
  induction steps generalizing k st inside with
  | nil => exact ⟨[], by simp, by simp, rfl, rfl⟩
  | cons s rest ih =>
    obtain ⟨hgates, hinside⟩ := m.spliceStep_spec st inside s k hin
    obtain ⟨new, hnew, hidx, htargets, hins⟩ := ih (k + 1) (m.spliceStep st (s, k)) _ hinside
    have hlt : ∀ g ∈ new, k < g.idx := hidx
    refine ⟨(m.ahead inside s).toList.map (⟨k, ·⟩) ++ new, ?_, ?_, ?_, ?_⟩
    · rw [zipIdx_cons, foldl_cons, hnew, hgates, append_assoc]
    · intro g hg
      rcases mem_append.mp hg with h | h
      · obtain ⟨t, -, rfl⟩ := mem_map.mp h
        exact le_refl k
      · exact (hlt g h).le
    · rw [annotate]
      cases m.ahead inside s <;> simp [htargets]
    · rw [annotate, zipIdx_cons, flatMap_cons, ← hins]
      cases m.ahead inside s with
      | none => exact insertWaits_skip hlt
      | some t => simp [insertWaits, emit]

end LaneMap

/-! ## 入口 -/

/-- node の id は BIGSERIAL で 1 から始まり、門の地点はどの lane の slot でもない。 -/
structure GateMap extends LaneMap where
  nodeIDsPos : ∀ n ∈ plant.nodes, n.id ≠ 0
  marksOutside : ∀ laneID, toLaneMap.laneIsGated laneID →
    toLaneMap.laneOf (laneWaitPoint laneID) = none

namespace GateMap

variable {m : GateMap}

theorem gatedLane_wait (h : m.gateOf s = some t) : m.gatedLane t.wait = none := by
  obtain ⟨-, hg, hp, -⟩ := gateOf_spec h
  simp [gatedLane, gateOf, LaneGateTarget.wait, hp, m.marksOutside _ hg]

theorem gateOf_of_ahead {inside : Option Nat} (h : m.ahead inside s = some t) :
    s.isWait = false ∧ m.gateOf s = some t ∧ inside ≠ some t.lane.id := by
  unfold ahead at h
  split at h
  · cases h
  next hw =>
  obtain ⟨hg, hne⟩ := filter_eq_some_iff.mp h
  refine ⟨by simpa using hw, hg, ?_⟩
  rintro rfl
  simp at hne

theorem ahead_none_iff {inside : Option Nat} {lane : Nat} (hlane : m.gatedLane s = some lane) :
    m.ahead inside s = none ↔ ¬ (s.isWait = false ∧ inside ≠ some lane) := by
  obtain ⟨t, ht, rfl⟩ := map_eq_some_iff.mp hlane
  have hpos := m.nodeIDsPos _ (gateOf_spec ht).2.2.2
  unfold ahead
  cases hw : s.isWait with
  | true => simp
  | false =>
    cases inside with
    | none => simp [ht, Option.filter, hpos]
    | some l => simpa [ht, Option.filter] using eq_comm

/-- 挟んだ wait は、居場所を狂わせない。 -/
theorem whereabouts_spliced (steps : List ResolvedStep) :
    m.whereabouts (m.spliced steps) = m.whereabouts steps := by
  suffices ∀ inside here, ((m.annotate inside steps).flatMap emit).foldl m.moveTo here
      = steps.foldl m.moveTo here from this none none
  induction steps with
  | nil => exact fun _ _ => rfl
  | cons s rest ih =>
    intro inside here
    rw [annotate, flatMap_cons, foldl_append, ih, foldl_cons]
    cases hahead : m.ahead inside s with
    | none => rfl
    | some t =>
      have hne := (gateOf_spec (gateOf_of_ahead hahead).2.1).1
      simp [moveTo, hne]

theorem spliced_concat (steps : List ResolvedStep) (s : ResolvedStep) :
    m.spliced (steps ++ [s])
      = m.spliced steps ++ emit (m.ahead (m.insideAfter steps) s, s) := by
  rw [spliced, annotate_append, flatMap_append, annotate, annotate, flatMap_singleton]
  rfl

theorem getLast?_spliced (steps : List ResolvedStep) :
    (m.spliced steps).getLast? = steps.getLast? := by
  cases eq_nil_or_concat' steps with
  | inl h => rw [h]; rfl
  | inr h =>
    obtain ⟨earlier, s, rfl⟩ := h
    rw [spliced_concat, emit, ← append_assoc, getLast?_concat, getLast?_concat]

/-- すぐ前の wait は、挟む前と後とで同じ。 -/
theorem gatedBy_spliced {lane : Nat} {before : List ResolvedStep} :
    GatedBy lane (m.spliced before) ↔ GatedBy lane before := by
  cases eq_nil_or_concat' before with
  | inl h => rw [h]; rfl
  | inr h =>
    obtain ⟨earlier, w, rfl⟩ := h
    have hlast : ∀ l : List ResolvedStep, GatedBy lane (l ++ [w]) ↔
        w.Gates lane ∧ ∀ w' ∈ l.getLast?, ¬ w'.Gates lane := by
      intro l
      constructor
      · rintro ⟨earlier', w', heq, hw⟩
        obtain ⟨rfl, hsingle⟩ := append_inj' heq rfl
        obtain rfl := singleton_inj.mp hsingle
        exact hw
      · exact fun hw => ⟨l, w, rfl, hw⟩
    rw [spliced_concat, emit, ← append_assoc, hlast, hlast]
    by_cases hw : w.isWait = true
    · -- 元から wait なら、その前には何も挟まない
      have hnone : m.ahead (m.insideAfter earlier) w = none := if_pos hw
      rw [hnone, Option.toList_none, map_nil, append_nil, getLast?_spliced]
    · have hnot : ¬ w.Gates lane := fun h => hw (by simp_all [ResolvedStep.Gates,
        ResolvedStep.isLaneWait])
      simp [hnot]

theorem laneOf_of_mustBeIn {name : String} {laneID : Nat} {u : SpliceError}
    {e : String → SpliceError} (h : m.mustBeIn name laneID u e = .ok ()) :
    m.laneOf name ≠ none := by
  unfold mustBeIn at h
  unfold laneOf
  cases hn : m.plant.getNodeByDotName name with
  | none => simp [hn] at h
  | some n =>
    cases hl : m.plant.laneForNode n with
    | none => simp [hn, hl] at h
    | some lane => simp [hl]

theorem ok_of_seq {ε : Type*} {x y : Except ε Unit} (h : (do x; y) = .ok ()) :
    x = .ok () ∧ y = .ok () := by
  cases x with
  | error e => cases h
  | ok u => exact ⟨rfl, h⟩

theorem next_in_lane (pre : List ResolvedStep) {w next : ResolvedStep} {post : List ResolvedStep}
    {prev : Option ResolvedStep} {i : Nat} (hw : w.isLaneWait = true)
    (h : m.assertEachWaitGatesItsEntry prev i (pre ++ w :: next :: post) = .ok ()) :
    m.laneOf next.node ≠ none := by
  induction pre generalizing prev i with
  | nil =>
    rw [nil_append, assertEachWaitGatesItsEntry, if_pos hw] at h
    exact laneOf_of_mustBeIn (ok_of_seq h).1
  | cons x pre ih =>
    rw [cons_append, assertEachWaitGatesItsEntry] at h
    split at h
    · exact ih (ok_of_seq h).2
    · exact ih h

theorem splice_ok (h : m.spliceLaneWait steps = .ok (out, first)) :
    out = m.spliced steps ∧
    ((m.annotate none steps).filterMap Prod.fst ≠ [] →
      m.assertEachWaitGatesItsEntry none 0 out = .ok ()) := by
  obtain ⟨new, hgates, -, htargets, hins⟩ :=
    @insertWaits_eq m.toLaneMap steps 0 {} none rfl
  rw [nil_append] at hgates
  unfold spliceLaneWait at h
  simp only [hgates] at h
  rw [spliced, ← hins, ← htargets]
  cases new with
  | nil =>
    cases h
    rw [insertWaits_nil, zipIdx_map_fst]
    exact ⟨rfl, fun hne => absurd rfl hne⟩
  | cons g gates =>
    have hlast : (g :: gates).getLast? = some ((g :: gates).getLast (cons_ne_nil g gates)) :=
      List.getLast?_eq_some_getLast _
    simp only [List.head?_cons, hlast] at h
    split at h
    · cases h
    cases hcheck : m.assertEachWaitGatesItsEntry none 0
        (insertWaits (g :: gates) steps.zipIdx) with
    | error e => simp [hcheck, bind, Except.bind] at h
    | ok u =>
      cases howner : assertEveryWaitDeclaresAnOwner
          (insertWaits (g :: gates) steps.zipIdx) with
      | error e => simp [hcheck, howner, bind, Except.bind] at h
      | ok u =>
        rw [hcheck, howner] at h
        cases h
        exact ⟨rfl, fun _ => hcheck⟩

theorem mem_gates {before after : List ResolvedStep}
    (h : m.ahead (m.insideAfter before) s = some t) :
    t ∈ (m.annotate none (before ++ s :: after)).filterMap Prod.fst := by
  rw [annotate_append, annotate, filterMap_append]
  exact mem_append_right _ (by rw [filterMap_cons, ← whereabouts, ← insideAfter, h]; simp)

/-- 挟んだ wait の前に、もう一つ wait があれば、検査を通らない。 -/
theorem gatedBy_inserted {before after : List ResolvedStep}
    (h : m.spliceLaneWait (before ++ s :: after) = .ok (out, first))
    (hahead : m.ahead (m.insideAfter before) s = some t) :
    GatedBy t.lane.id (m.spliced before ++ [t.wait]) := by
  obtain ⟨hout, hcheck⟩ := splice_ok h
  obtain ⟨post, hpost⟩ := m.spliced_append before after s
  obtain ⟨-, hg, hp, -⟩ := gateOf_spec (gateOf_of_ahead hahead).2.1
  refine ⟨_, t.wait, rfl, ⟨rfl, rfl⟩, ?_⟩
  rintro w' hw' ⟨hwait, -⟩
  obtain ⟨earlier, hearlier⟩ := List.getLast?_eq_some_iff.mp hw'
  have hok := hcheck (ne_nil_of_mem (mem_gates hahead))
  rw [hout, hpost, hahead, emit_some, hearlier, append_assoc, append_assoc] at hok
  exact next_in_lane earlier hwait hok ((congrArg m.laneOf hp).trans (m.marksOutside _ hg))

/-- wait の無い行程は、lane の wait を消せば元に戻る。 -/
theorem filter_spliceLaneWait (h : m.spliceLaneWait steps = .ok (out, first))
    (hsteps : ∀ s ∈ steps, s.isLaneWait = false) : out.filter (fun s => !s.isLaneWait) = steps := by
  have hemit : ∀ plan : List (Option LaneGateTarget × ResolvedStep),
      (plan.flatMap emit).filter (fun s => !s.isLaneWait)
        = (plan.map Prod.snd).filter fun s => !s.isLaneWait := by
    intro plan
    induction plan with
    | nil => rfl
    | cons e rest ih =>
      obtain ⟨gate, s⟩ := e
      cases gate with
      | none => simp [filter_cons, ih]
      | some t =>
        have hwait : t.wait.isLaneWait = true := rfl
        simp [filter_cons, hwait, ih]
  rw [(splice_ok h).1, spliced, hemit, m.map_snd_annotate, filter_eq_self]
  intro s hs
  simp [hsteps s hs]

end GateMap

/--
**挟んだ wait を消せば元の行程に戻る。どの入口にも wait が一つあるのは、どの入口も見えるとき、
そのときに限る。**
-/
theorem splice_gates_entries (m : GateMap) (steps out : List ResolvedStep)
    (first : Option LaneGateTarget) (h : m.spliceLaneWait steps = .ok (out, first)) :
    (∃ plan : List (Option LaneGateTarget × ResolvedStep),
      plan.map Prod.snd = steps ∧ plan.flatMap emit = out) ∧
    (m.EntriesGated out ↔ m.EntriesSeen steps) := by
  obtain ⟨hout, -⟩ := GateMap.splice_ok h
  refine ⟨⟨m.annotate none steps, m.map_snd_annotate none steps, hout.symm⟩, ?_, ?_⟩
  · rintro hgated before s lane ⟨⟨after, rfl⟩, hlane, houtside⟩
    by_cases hahead : m.ahead (m.insideAfter before) s = none
    · -- 挟まなければ、挟んだ後も同じ入口
      obtain ⟨post, hpost⟩ := m.spliced_append before after s
      rw [hahead, emit_none, append_assoc] at hpost
      exact .inr (GateMap.gatedBy_spliced.mp (hgated _ s lane
        ⟨⟨post, hout.trans hpost⟩, hlane, by rwa [GateMap.whereabouts_spliced]⟩))
    · exact .inl (not_not.mp (mt (GateMap.ahead_none_iff hlane).mpr hahead))
  · rintro hseen pre s lane ⟨⟨post, hsplit⟩, hlane, houtside⟩
    obtain ⟨before, x, ⟨after, rfl⟩, ⟨t, hahead, rfl⟩ | ⟨rfl, rfl⟩⟩ :=
      m.spliced_split (hout.symm.trans hsplit)
    · -- 挟んだ wait は、どの印のある lane にも入らない
      rw [GateMap.gatedLane_wait (GateMap.gateOf_of_ahead hahead).2.1] at hlane
      cases hlane
    · cases hahead : m.ahead (m.insideAfter before) s with
      | none =>
        rw [hahead] at houtside
        rw [Option.toList_none, map_nil, append_nil] at houtside ⊢
        rw [GateMap.whereabouts_spliced] at houtside
        have hunseen := (GateMap.ahead_none_iff hlane).mp hahead
        have hentry : m.Enters (before ++ s :: after) before s lane :=
          ⟨⟨after, rfl⟩, hlane, houtside⟩
        exact GateMap.gatedBy_spliced.mpr ((hseen before s lane hentry).resolve_left hunseen)
      | some t =>
        obtain rfl : t.lane.id = lane := by
          rw [gatedLane, (GateMap.gateOf_of_ahead hahead).2.1] at hlane
          exact some.inj hlane
        exact GateMap.gatedBy_inserted h hahead

def oneGate : GateMap where
  plant := .vacant
    [{ id := 1, name := "GRP" },
     { id := 2, name := "LANE_A", parentID := some 1, isLane := true },
     { id := 3, name := "A1", parentID := some 2, depth := some 1 },
     { id := 4, name := "A2", parentID := some 2, depth := some 2 },
     { id := 5, name := "LINE" }]
    (by decide)
  laneWaitPoint := fun laneID => if laneID = 2 then "LM_A" else ""
  nodeIDsPos := by decide
  marksOutside := by
    intro laneID h
    by_cases h2 : laneID = 2
    · subst h2
      decide +kernel
    · simp [laneIsGated, h2] at h

def gateA : LaneGateTarget :=
  ⟨{ id := 2, name := "LANE_A", parentID := some 1, isLane := true }, "LM_A"⟩

def comeBack : List ResolvedStep :=
  [{ action := .pickup, node := "A1" }, { action := .dropoff, node := "LINE" },
   { action := .pickup, node := "A2" }]

def comeBackGated : List ResolvedStep :=
  [gateA.wait, { action := .pickup, node := "A1" }, { action := .dropoff, node := "LINE" },
   gateA.wait]

theorem splice_gates_entries_pickup :
    oneGate.spliceLaneWait [{ action := .pickup, node := "A1" }]
        = .ok ([gateA.wait, { action := .pickup, node := "A1" }], some gateA) ∧
    oneGate.EntriesGated [gateA.wait, { action := .pickup, node := "A1" }] := by
  refine ⟨?splice, (splice_gates_entries oneGate _ _ _ ?splice).2.mpr ?_⟩
  · decide +kernel
  rintro before s lane ⟨⟨after, hsteps⟩, -, -⟩
  cases before with
  | nil =>
    obtain ⟨rfl, -⟩ := List.cons.inj hsteps
    exact .inl ⟨rfl, nofun⟩
  | cons x before => simp at hsteps

/--
LINE で待ってから lane に戻る行程では、戻る一歩 A2 の前に wait が挟まれない。robot は LINE に居て、
すぐ前の一歩は station の wait。
-/
theorem wait_elsewhere_ungated :
    (let steps : List ResolvedStep := [{ action := .pickup, node := "A1" },
        { action := .wait, node := "LINE", waitKind := .station }]
      let back : ResolvedStep := { action := .dropoff, node := "A2" }
      oneGate.spliceLaneWait (steps ++ [back]) = .ok (gateA.wait :: steps ++ [back], some gateA) ∧
        oneGate.gatedLane back = some 2 ∧ oneGate.whereabouts (gateA.wait :: steps) = none) := by
  decide +kernel

/-! ## 控えの指す一歩 -/

/-- 挟んだ行程の `j` 番目が、元の `i` 番目。 -/
structure IsImage (steps spliced : List ResolvedStep) (i j : Nat) : Prop where
  step : spliced[j]? = steps[i]?
  before : (spliced.take j).filter (fun s => !s.isLaneWait) = steps.take i

theorem lookup_shiftFrom_of_lt {l : List ResolvedStep} {pre post : Nat} (h : k < pre) :
    (shiftFrom pre post l).lookup k = none := by
  induction l generalizing pre post with
  | nil => rfl
  | cons s rest ih =>
    have hne : (k == pre) = false := by simp; omega
    unfold shiftFrom
    split
    · exact ih h
    split
    · rw [lookup_cons, hne]
      exact ih (by omega)
    · exact ih (by omega)

theorem shiftFrom_image (l : List ResolvedStep) (pre post k : Nat)
    (hk : k < (l.filter fun s => !s.isLaneWait).length) :
    ∃ j, ((shiftFrom pre post l).lookup (pre + k)).getD (pre + k) = post + j
      ∧ IsImage (l.filter fun s => !s.isLaneWait) l k j := by
  induction l generalizing pre post k with
  | nil => simp at hk
  | cons s rest ih =>
    by_cases hs : s.isLaneWait = true
    · simp only [filter_cons, hs] at hk ⊢
      obtain ⟨j, hj, himg⟩ := ih pre (post + 1) k hk
      refine ⟨j + 1, ?_, himg.step, ?_⟩
      · simp only [shiftFrom, hs, if_true, hj]
        omega
      · simpa [hs] using himg.before
    · simp only [filter_cons, hs, Bool.not_false, if_true] at hk ⊢
      cases k with
      | zero =>
        refine ⟨0, ?_, rfl, rfl⟩
        by_cases hp : post = pre
        · simp [shiftFrom, hs, hp, lookup_shiftFrom_of_lt]
        · simp [shiftFrom, hs, hp]
      | succ k =>
        obtain ⟨j, hj, himg⟩ := ih (pre + 1) (post + 1) k (by simpa using hk)
        have hne : (pre + (k + 1) == pre) = false := by simp
        refine ⟨j + 1, ?_, himg.step, ?_⟩
        · have hsum : pre + (k + 1) = pre + 1 + k := by omega
          unfold shiftFrom
          rw [if_neg hs]
          split
          · rw [lookup_cons, hne, hsum, hj]
            omega
          · rw [hsum, hj]
            omega
        · simpa [hs] using himg.before

theorem mem_insertOrderBin {c : OrderBinRow} (h : r ∈ insertOrderBin rows c) :
    r = c ∨ r ∈ rows ∧ r.binID ≠ c.binID := by
  unfold insertOrderBin at h
  split at h
  · obtain ⟨q, hq, rfl⟩ := mem_map.mp h
    by_cases hid : q.binID = c.binID
    · simp [hid]
    · simp [hid, hq]
  · next hnone =>
    rcases mem_append.mp h with h | h
    · exact .inr ⟨h, fun hid => hnone (any_eq_true.mpr ⟨r, h, by simp [hid]⟩)⟩
    · exact .inl (mem_singleton.mp h)

theorem mem_foldl_insertOrderBin {claimed : List OrderBinRow}
    (h : r ∈ claimed.foldl insertOrderBin rows) :
    r ∈ claimed ∨ r ∈ rows ∧ r.binID ∉ claimed.map binID := by
  induction claimed generalizing rows with
  | nil => simpa using h
  | cons c rest ih =>
    rcases ih h with hmem | ⟨hmem, hnot⟩
    · exact .inl (mem_cons_of_mem _ hmem)
    · rcases mem_insertOrderBin hmem with rfl | ⟨hmem, hne⟩
      · exact .inl mem_cons_self
      · exact .inr ⟨hmem, by simp_all⟩

theorem lookup_filter_key {q : Nat → Bool} (hk : q k = true) (moves : List (Nat × Nat)) :
    (moves.filter fun e => q e.1).lookup k = moves.lookup k := by
  induction moves with
  | nil => rfl
  | cons e rest ih =>
    obtain ⟨key, val⟩ := e
    by_cases he : k = key
    · subst he
      simp [hk]
    · have hne : (k == key) = false := beq_false_of_ne he
      cases hq : q key <;> simp [hq, lookup_cons, hne, ih]

theorem reindex_ok {spliced : List ResolvedStep} {fault : Option ReindexFault}
    (h : (reindexOrderBinsForSplice rows spliced fault).2 = true) :
    (reindexOrderBinsForSplice rows spliced fault).1
      = rows.map (·.shift (spliceStepShift spliced)) := by
  -- 動く番号を、行の持つ番号に絞っても同じ
  have hsame : ∀ r ∈ rows, r.shift ((spliceStepShift spliced).filter fun e =>
      rows.any (·.stepIndex == e.1)) = r.shift (spliceStepShift spliced) := by
    intro r hr
    have hkey : rows.any (·.stepIndex == r.stepIndex) = true :=
      any_eq_true.mpr ⟨r, hr, beq_self_eq_true _⟩
    have hlookup := lookup_filter_key (q := fun k => rows.any (·.stepIndex == k)) hkey
      (spliceStepShift spliced)
    rw [shift, hlookup, shift]
  have hnil : rows = rows.map (·.shift []) := (map_id' rows).symm
  unfold reindexOrderBinsForSplice at h ⊢
  dsimp only at h ⊢
  split_ifs at h ⊢ with hmoves hlist happ hshift
  · rw [hmoves]
    exact hnil
  · rw [happ] at hsame
    rw [← map_congr_left hsame]
    exact hnil
  · exact map_congr_left hsame

theorem binID_reindex (rows : List OrderBinRow) (spliced : List ResolvedStep)
    (fault : Option ReindexFault) : (reindexOrderBinsForSplice rows spliced fault).1.map binID
      = rows.map binID := by
  unfold reindexOrderBinsForSplice shiftOrderBinSteps
  dsimp only
  split_ifs
  all_goals simp [Function.comp_def, shift]

/-- どの試みも同じ bin の行を全部書き、行は元の行程の一歩を指す。 -/
structure SpliceAttempt.Rewrites (bins : List Nat) (a : SpliceAttempt) : Prop where
  inserted : ∀ r ∈ a.claimed, a.insertOk r.binID = true
  claims : ∀ b, b ∈ a.claimed.map binID ↔ b ∈ bins
  spliced : a.spliced.filter (fun s => !s.isLaneWait) = a.steps
  inPlan : ∀ r ∈ a.claimed, r.stepIndex < a.steps.length

section Replay

variable {bins : List Nat} {a : SpliceAttempt} {st : List OrderBinRow × Bool}

theorem SpliceAttempt.Rewrites.mem_claimed (h : a.Rewrites bins) (hst : ∀ r ∈ st.1, r.binID ∈ bins)
    (hr : r ∈ (a.claimed.filter fun r => a.insertOk r.binID).foldl insertOrderBin st.1) :
    r ∈ a.claimed := by
  rw [filter_eq_self.mpr h.inserted] at hr
  rcases mem_foldl_insertOrderBin hr with hmem | ⟨hmem, hnot⟩
  · exact hmem
  · exact absurd ((h.claims r.binID).mpr (hst r hmem)) hnot

theorem SpliceAttempt.Rewrites.replay (h : a.Rewrites bins) (hst : ∀ r ∈ st.1, r.binID ∈ bins) :
    ∀ r ∈ (a.replay st).1, r.binID ∈ bins := by
  intro r hr
  have hid : r.binID ∈ (a.replay st).1.map binID := mem_map_of_mem hr
  rw [SpliceAttempt.replay, binID_reindex] at hid
  obtain ⟨q, hq, hqr⟩ := mem_map.mp hid
  rw [← hqr, ← h.claims]
  exact mem_map_of_mem (h.mem_claimed hst hq)

theorem rewritten_bins (attempts : List SpliceAttempt) (h : ∀ a ∈ attempts, a.Rewrites bins)
    (hst : ∀ r ∈ st.1, r.binID ∈ bins) :
    ∀ r ∈ (runSteps SpliceAttempt.replay st attempts).1, r.binID ∈ bins := by
  induction attempts generalizing st with
  | nil => exact hst
  | cons a rest ih =>
    exact ih (fun b hb => h b (mem_cons_of_mem _ hb)) ((h a mem_cons_self).replay hst)

/--
**書き直しがうまく行けば、何度やり直しても、控えは bin を取る一歩を指す。** 同じ一歩を指す行は、
元から同じ一歩の行。
-/
theorem junction_names_claimed_step (bins : List Nat) (attempts : List SpliceAttempt)
    (last : SpliceAttempt) (hprev : ∀ a ∈ attempts, a.Rewrites bins) (hlast : last.Rewrites bins)
    (hok : (runSteps SpliceAttempt.replay ([], false) (attempts ++ [last])).2 = true) :
    ∃ kept : List OrderBinRow, kept ⊆ last.claimed
      ∧ (runSteps SpliceAttempt.replay ([], false) (attempts ++ [last])).1
        = kept.map (·.shift (spliceStepShift last.spliced))
      ∧ (∀ r ∈ kept, IsImage last.steps last.spliced r.stepIndex
          (r.shift (spliceStepShift last.spliced)).stepIndex)
      ∧ ∀ r ∈ kept, ∀ r' ∈ kept, (r.shift (spliceStepShift last.spliced)).stepIndex
          = (r'.shift (spliceStepShift last.spliced)).stepIndex → r.stepIndex = r'.stepIndex := by
  have hbins := @rewritten_bins _ ([], false) attempts hprev (forall_mem_nil _)
  rw [runSteps, foldl_append] at hok ⊢
  change (last.replay (runSteps SpliceAttempt.replay ([], false) attempts)).2 = true at hok
  have himg : ∀ r ∈ last.claimed, IsImage last.steps last.spliced r.stepIndex
      (r.shift (spliceStepShift last.spliced)).stepIndex := by
    intro r hr
    obtain ⟨j, hj, h⟩ := shiftFrom_image last.spliced 0 0 r.stepIndex
      (hlast.spliced ▸ hlast.inPlan r hr)
    rw [Nat.zero_add, Nat.zero_add] at hj
    rw [hlast.spliced] at h
    rw [shift, spliceStepShift, hj]
    exact h
  refine ⟨_, fun r hr => hlast.mem_claimed hbins hr, reindex_ok hok, ?_, ?_⟩
  · exact fun r hr => himg r (hlast.mem_claimed hbins hr)
  · intro r hr r' hr' heq
    have hr := hlast.mem_claimed hbins hr
    have hr' := hlast.mem_claimed hbins hr'
    have hlen := congrArg List.length
      ((himg r hr).before.symm.trans (heq ▸ (himg r' hr').before))
    have hlt' := hlast.inPlan r' hr'
    rw [length_take, length_take] at hlen
    omega

end Replay

def comeBackAttempt : SpliceAttempt where
  steps := comeBack
  spliced := comeBackGated ++ [{ action := .pickup, node := "A2" }]
  claimed := [⟨1, 0, .pickup, "A1", "LINE"⟩, ⟨2, 2, .pickup, "A2", ""⟩]

theorem junction_names_claimed_step_comeBack :
    ∃ kept : List OrderBinRow, kept ⊆ comeBackAttempt.claimed
      ∧ [⟨1, 1, .pickup, "A1", "LINE"⟩, ⟨2, 4, .pickup, "A2", ""⟩]
        = kept.map (·.shift (spliceStepShift comeBackAttempt.spliced)) := by
  have hspliced : comeBackAttempt.spliced.filter (fun s => !s.isLaneWait) = comeBack := by decide
  have hplan : ∀ r ∈ comeBackAttempt.claimed, r.stepIndex < comeBack.length := by decide
  have hfault : ∀ fault, ({ comeBackAttempt with fault } : SpliceAttempt).Rewrites [1, 2] :=
    fun _ => ⟨fun _ _ => rfl, by simp [comeBackAttempt], hspliced, hplan⟩
  have hprev : ∀ a ∈ [{ comeBackAttempt with fault := some .reread }], a.Rewrites [1, 2] := by
    intro a ha
    rw [mem_singleton.mp ha]
    exact hfault _
  obtain ⟨kept, hsub, hrows, -⟩ := junction_names_claimed_step [1, 2]
    [{ comeBackAttempt with fault := some .reread }] comeBackAttempt hprev (hfault none) (by decide)
  exact ⟨kept, hsub, hrows⟩

/--
**読み直しが失敗してやり直し、bin 1 の行を書き直せないと、その行は二度動く。** 残りの一歩は
dropoff。
-/
theorem junction_row_shifted_twice :
    oneGate.spliceLaneWait comeBack = .ok (comeBackAttempt.spliced, some gateA)
      ∧ runSteps SpliceAttempt.replay ([], false)
          [{ comeBackAttempt with fault := some .reread },
           { comeBackAttempt with insertOk := (· != 1) }]
        = ([⟨1, 2, .pickup, "A1", "LINE"⟩, ⟨2, 4, .pickup, "A2", ""⟩], true)
      ∧ comeBackAttempt.spliced[2]? = some { action := .dropoff, node := "LINE" } := by
  decide +kernel

end Shingo.Dispatch
