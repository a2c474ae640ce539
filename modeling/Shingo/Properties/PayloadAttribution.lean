import Shingo.Properties.DeltaSequence

/-!
# bin の電文の payload と世代は、足した記録のものか

entry は payload と世代を一つずつしか持たない。電文ごとに、その数に足された記録（`sent`）を控え、
電文の payload と世代を比べる。
-/

namespace Shingo.Edge

open Infra Protocol List Function

/-! ## 記録の控え -/

def landing (a : Accumulator) : AccAction → Option (Nat × BinCall × Entry BinInfo)
  | .advanceBin i =>
    match a.bins.calls[i]? with
    | some (.loaded c p) =>
      match a.bins.entries.get? p with
      | some (_, e) => if e.evicted then none else some (p, c, e)
      | none => none
    | _ => none
  | _ => none

def snapping (a : Accumulator) : AccAction → Option Nat
  | .visit p => match a.pc with
    | .flushBins none => some p
    | _ => none
  | _ => none

def sweeping (a : Accumulator) : AccAction → Option Nat
  | .callback _ _ _ => match a.pc with
    | .flushBins (some (s, .enqueued _)) => some s.ptr
    | _ => none
  | _ => none

def Envelope.bin? : Envelope → Option BinUOPDelta
  | .bin d => some d
  | .bucket _ _ => none

/-- `pending` は entry ごとの、まだ引かれていない記録。`snapped` は写した分の記録。 -/
structure TracedAcc where
  acc : Accumulator
  pending : Nat → List BinCall
  snapped : List BinCall
  sent : List (BinUOPDelta × List BinCall)

namespace TracedAcc

def start (stationID : String) (seqs : DeltaScope → Nat) : TracedAcc :=
  ⟨newAccumulator stationID seqs, fun _ => [], [], []⟩

def step (w : TracedAcc) (act : AccAction) : TracedAcc where
  acc := accStep w.acc act
  pending :=
    match landing w.acc act, sweeping w.acc act with
    | some (p, c, _), _ => update w.pending p (w.pending p ++ [c])
    | none, some p => update w.pending p ((w.pending p).drop w.snapped.length)
    | none, none => w.pending
  snapped := ((snapping w.acc act).map w.pending).getD w.snapped
  sent := w.sent ++ ((enqueues w.acc act).bind Envelope.bin?).toList.map (·, w.snapped)

/-- 引かれていない記録のある entry には、同じ payload の、`delta` が 0 なら古くない世代の記録が入る。 -/
def SamePayload (w : TracedAcc) (act : AccAction) : Prop :=
  ∀ x ∈ landing w.acc act, ∀ c ∈ w.pending x.1,
    c.payloadCode = x.2.1.payloadCode ∧ (x.2.2.delta = 0 → c.epoch ≤ x.2.1.epoch)
  deriving Decidable

end TracedAcc

/-! ## 一つの動作 -/

def FlushPC.binSnap (pc : FlushPC) : Option (Snap BinInfo) := pc.binCb.map Prod.fst

def Entry.view (e : Entry BinInfo) : Int × String × Int :=
  (e.delta, e.info.payloadCode, e.info.epoch)

def contents (a : Accumulator) : List (Int × String × Int) :=
  a.bins.entries.cells.map fun c => c.2.view

structure Quiet (a a' : Accumulator) : Prop where
  grows : ∃ new, contents a' = contents a ++ new ∧ ∀ x ∈ new, x.1 = 0
  snap : a'.pc.binSnap = none ∨ a'.pc.binSnap = a.pc.binSnap

/-- 一つの動作が bin の entry にすることは、足す、写す、引く、のほかに無い。 -/
inductive BinEffect (a a' : Accumulator) : Option (Nat × BinCall × Entry BinInfo) → Option Nat →
    Option Nat → Prop where
  | landed (p : Nat) (c : BinCall) (k : String) (e : Entry BinInfo)
      (he : a.bins.entries.get? p = some (k, e))
      (hmod : a'.bins.entries = a.bins.entries.modify p (binOps.add c)) (hpc : a'.pc = a.pc) :
      BinEffect a a' (some (p, c, e)) none none
  | snapped (p : Nat) (hsame : a'.bins = a.bins)
      (hpc : a'.pc = .flushBins (takeSnap a.bins.entries p)) : BinEffect a a' none (some p) none
  | swept (s : Snap BinInfo) (now : Nat) (hs : a.pc.binSnap = some s)
      (hmod : a'.bins.entries = a.bins.entries.modify s.ptr (binOps.commit s.entry now))
      (hpc : a'.pc.binSnap = none) : BinEffect a a' none none (some s.ptr)
  | quiet (h : Quiet a a') : BinEffect a a' none none none

variable {s : Snap BinInfo} {calls snapped : List BinCall} {c : BinCall} {act : AccAction}
  {e : Entry BinInfo} {f : Entry BinInfo → Entry BinInfo} {k : String} {p : Nat}
  {a a' : Accumulator}

section

theorem contents_modify (he : a.bins.entries.get? p = some (k, e))
    (hmod : a'.bins.entries = a.bins.entries.modify p f) :
    contents a' = (contents a).set p (f e).view := by
  unfold PtrMap.get? at he
  simp [contents, hmod, PtrMap.modify, modify_eq_set_getElem?, he, map_set]

theorem getElem?_contents (he : a.bins.entries.get? p = some (k, e)) :
    (contents a)[p]? = some e.view := by
  unfold PtrMap.get? at he
  rw [contents, List.getElem?_map, he]
  rfl

theorem Quiet.of_contents (hsame : contents a' = contents a)
    (hsnap : a'.pc.binSnap = none ∨ a'.pc.binSnap = a.pc.binSnap) : Quiet a a' :=
  ⟨⟨[], by simp [hsame]⟩, hsnap⟩

theorem Quiet.loadOrStore (c : BinCall) (hpc : a'.pc.binSnap = a.pc.binSnap)
    (hentries : a'.bins.entries
      = (a.bins.entries.loadOrStore (binOps.key c) (binOps.freshEntry c)).1) : Quiet a a' := by
  unfold PtrMap.loadOrStore at hentries
  split at hentries
  · exact .of_contents (by rw [contents, hentries]; rfl) (.inr hpc)
  refine ⟨⟨[(binOps.freshEntry c).view], ?_, by simp [Entry.view, ScopeOps.freshEntry]⟩,
    .inr hpc⟩
  simp [contents, hentries]

theorem contents_compareAndDelete (h : a'.bins.entries = a.bins.entries.compareAndDelete k p) :
    contents a' = contents a := by
  unfold PtrMap.compareAndDelete at h
  split at h <;> simp [contents, h]

theorem contents_evictMark (cutoff p : Nat)
    (hbins : a'.bins = (evictMark a.bins cutoff p).1) : contents a' = contents a := by
  unfold evictMark at hbins
  split at hbins
  · rw [contents, hbins]; rfl
  rename_i k e he
  split at hbins
  · have hmod : a'.bins.entries
        = a.bins.entries.modify p fun e => { e with evicted := true } := by rw [hbins]
    obtain ⟨hlt, hview⟩ := List.getElem?_eq_some_iff.mp (getElem?_contents he)
    rw [contents_modify he hmod]
    exact (congrArg ((contents a).set p) hview.symm).trans (set_getElem_self hlt)
  · rw [contents, hbins]; rfl

theorem binEffect_advance (i : Nat) :
    BinEffect a (accStep a (.advanceBin i)) (landing a (.advanceBin i)) none none := by
  have hsame : Quiet a { a with bins := a.bins } := .of_contents rfl (.inr rfl)
  simp only [accStep, Side.advance, landing]
  cases hi : a.bins.calls[i]? with
  | none => exact .quiet hsame
  | some pc =>
    cases pc with
    | top c => exact .quiet (.loadOrStore c rfl rfl)
    | loaded c p =>
      cases hget : a.bins.entries.get? p with
      | none => simpa [hget] using .quiet hsame
      | some x =>
        by_cases hev : x.2.evicted = true
        · simpa [hget, hev] using .quiet (.of_contents rfl (.inr rfl))
        · simpa [hget, hev] using .landed p c x.1 x.2 hget rfl rfl
    | sawEvicted c p =>
      exact .quiet (.of_contents (contents_compareAndDelete rfl) (.inr rfl))
    | returned => exact .quiet hsame

variable (ok : Bool) (now : Nat) (lookup : Option String)

theorem flushBinsStep_quiet {pc : SendPC} (hs : a.pc.binSnap = some s)
    (hpc : ∀ seq, pc ≠ .enqueued seq) : Quiet a (flushBinsStep a s ok now pc) := by
  have h : (flushBinsStep a s ok now pc).bins = a.bins ∧
      ((flushBinsStep a s ok now pc).pc.binSnap = none ∨
        (flushBinsStep a s ok now pc).pc.binSnap = some s) := by
    cases pc with
    | enqueued seq => exact absurd rfl (hpc seq)
    | snapped | named | unnamed | allocated | encoded =>
      unfold flushBinsStep
      dsimp only
      split <;> simp [FlushPC.binSnap, FlushPC.binCb]
  exact .of_contents (by rw [contents, h.1, ← contents]) (by rw [hs]; exact h.2)

theorem flushBucketsStep_quiet {s : Snap BucketInfo} (pc : SendPC) :
    Quiet a (flushBucketsStep a s ok now lookup pc) := by
  have h : (flushBucketsStep a s ok now lookup pc).bins = a.bins ∧
      (flushBucketsStep a s ok now lookup pc).pc.binSnap = none := by
    cases pc <;> unfold flushBucketsStep <;> dsimp only <;> (try split) <;> exact ⟨rfl, rfl⟩
  exact .of_contents (by rw [contents, h.1, ← contents]) (.inl h.2)

theorem binEffect_callback :
    BinEffect a (accStep a (.callback ok now lookup)) none none
      (sweeping a (.callback ok now lookup)) := by
  simp only [accStep, sweeping]
  rcases hpc : a.pc with _ | (_ | ⟨s, pc⟩) | (_ | x) | ⟨_, _ | _⟩ | ⟨_, _ | _⟩
  case flushBins.some =>
    cases pc with
    | enqueued seq => exact .swept s now (by rw [hpc]; rfl) rfl rfl
    | snapped | named | unnamed | allocated | encoded =>
      exact .quiet (flushBinsStep_quiet ok now (by rw [hpc]; rfl) (by simp))
  case flushBuckets.some => exact .quiet (flushBucketsStep_quiet ok now lookup x.2)
  case evictBins.some => exact .quiet (.of_contents (contents_compareAndDelete rfl) (.inl rfl))
  all_goals first
    | exact .quiet (.of_contents rfl (.inl rfl))
    | exact .quiet (.of_contents rfl (.inr rfl))

theorem binEffect (act : AccAction) :
    BinEffect a (accStep a act) (landing a act) (snapping a act) (sweeping a act) := by
  cases act with
  | advanceBin i => exact binEffect_advance i
  | callback ok now lookup => exact binEffect_callback ok now lookup
  | recordBin c | recordBucket c | advanceBucket i =>
    refine .quiet (.of_contents ?_ (.inr rfl))
    simp only [accStep, Side.record, contents]
    try split <;> rfl
  | flush | rangeDone cutoff =>
    refine .quiet (.of_contents ?_ ?_) <;> unfold accStep <;> dsimp only <;> split
    all_goals first | rfl | exact .inl rfl | exact .inr rfl
  | visit p =>
    simp only [accStep, snapping]
    rcases hpc : a.pc with _ | (_ | _) | (_ | _) | ⟨_, _ | _⟩ | ⟨_, _ | _⟩
    all_goals first
      | exact .snapped p rfl rfl
      | exact .quiet (.of_contents (contents_evictMark _ p rfl) (.inl rfl))
      | exact .quiet (.of_contents rfl (.inl rfl))
      | exact .quiet (.of_contents rfl (.inr rfl))

end

/-! ## 電文と記録 -/

/-- 数は記録の和で、payload はどの記録のものでもあり、世代はどの記録より古くない。 -/
def Attributed (calls : List BinCall) (x : Int × String × Int) : Prop :=
  x.1 = (calls.map BinCall.delta).sum ∧ ∀ c ∈ calls, x.2.1 = c.payloadCode ∧ c.epoch ≤ x.2.2

structure Windows (a : Accumulator) (pending : Nat → List BinCall) (snapped : List BinCall) :
    Prop where
  cells : ∀ p x, (contents a)[p]? = some x → Attributed (pending p) x
  absent : ∀ p, (contents a).length ≤ p → pending p = []
  snap : ∀ s, a.pc.binSnap = some s → snapped <+: pending s.ptr ∧ Attributed snapped s.entry.view

theorem Attributed.add (h : Attributed calls e.view)
    (hc : ∀ c' ∈ calls, c'.payloadCode = c.payloadCode ∧ (e.delta = 0 → c'.epoch ≤ c.epoch)) :
    Attributed (calls ++ [c]) (binOps.add c e).view := by
  obtain ⟨hsum, hcalls⟩ := h
  dsimp only [Entry.view] at hsum hcalls
  refine ⟨by simp [Entry.view, ScopeOps.add, binOps, hsum], ?_⟩
  by_cases hzero : e.delta = 0
  · -- 窓の始まり。entry は記録の payload と世代を写す
    intro c' hc'
    simp only [Entry.view, ScopeOps.add, binOps, hzero, beq_self_eq_true, if_true]
    rcases mem_append_last.mp hc' with hold | rfl
    · exact ⟨(hc c' hold).1.symm, (hc c' hold).2 hzero⟩
    · exact ⟨rfl, Int.le_refl _⟩
  · -- 窓の途中。足した記録があるので、payload は entry と同じ
    have hpay : e.info.payloadCode = c.payloadCode := by
      cases calls with
      | nil => exact absurd hsum hzero
      | cons c₀ rest =>
        exact (hcalls c₀ mem_cons_self).1.trans (hc c₀ mem_cons_self).1
    have hinfo : (binOps.add c e).info.payloadCode = e.info.payloadCode ∧
        e.info.epoch ≤ (binOps.add c e).info.epoch ∧ c.epoch ≤ (binOps.add c e).info.epoch := by
      simp only [ScopeOps.add, binOps, beq_eq_false_iff_ne.mpr hzero, Bool.false_eq_true, if_false]
      split
      · next hlt => exact ⟨rfl, Int.le_of_lt hlt, Int.le_refl _⟩
      · next hle => exact ⟨rfl, Int.le_refl _, Int.not_lt.mp hle⟩
    intro c' hc'
    rw [Entry.view, hinfo.1]
    rcases mem_append_last.mp hc' with hold | rfl
    · exact ⟨(hcalls c' hold).1, Int.le_trans (hcalls c' hold).2 hinfo.2.1⟩
    · exact ⟨hpay, hinfo.2.2⟩

theorem Attributed.sweep {rest : List BinCall} {snap : Entry BinInfo} (now : Nat)
    (h : Attributed (snapped ++ rest) e.view)
    (hdelta : snap.delta = (snapped.map BinCall.delta).sum) :
    Attributed rest (binOps.commit snap now e).view := by
  have hview : (binOps.commit snap now e).view
      = (e.delta - snap.delta, e.info.payloadCode, e.info.epoch) := by
    simp only [Entry.view, ScopeOps.commit, ScopeOps.subtract, binOps]
    split <;> rfl
  obtain ⟨hsum, hcalls⟩ := h
  rw [hview]
  refine ⟨?_, fun c hc => hcalls c (mem_append_right _ hc)⟩
  simp only [Entry.view, map_append, sum_append] at hsum
  omega

section

variable {pending : Nat → List BinCall} (h : Windows a pending snapped)
include h

theorem Windows.set (he : a.bins.entries.get? p = some (k, e))
    (hmod : a'.bins.entries = a.bins.entries.modify p f) (hcalls : Attributed calls (f e).view)
    (hsnap : ∀ s, a'.pc.binSnap = some s →
      snapped <+: update pending p calls s.ptr ∧ Attributed snapped s.entry.view) :
    Windows a' (update pending p calls) snapped := by
  have hlt : p < (contents a).length := (List.getElem?_eq_some_iff.mp (getElem?_contents he)).1
  refine ⟨fun q x hq => ?_, fun q hq => ?_, hsnap⟩
  · rw [contents_modify he hmod, List.getElem?_set] at hq
    by_cases hqp : p = q
    · subst hqp
      simp only [if_true, hlt, Option.some.injEq] at hq
      rw [update_self, ← hq]
      exact hcalls
    · rw [if_neg hqp] at hq
      rw [update_of_ne (Ne.symm hqp)]
      exact h.cells q x hq
  · rw [contents_modify he hmod, length_set] at hq
    rw [update_of_ne (by omega)]
    exact h.absent q hq

theorem Windows.landed (he : a.bins.entries.get? p = some (k, e))
    (hmod : a'.bins.entries = a.bins.entries.modify p (binOps.add c)) (hpc : a'.pc = a.pc)
    (hc : ∀ c' ∈ pending p, c'.payloadCode = c.payloadCode ∧ (e.delta = 0 → c'.epoch ≤ c.epoch)) :
    Windows a' (update pending p (pending p ++ [c])) snapped := by
  refine h.set he hmod ((h.cells p _ (getElem?_contents he)).add hc) fun s hs => ?_
  rw [hpc] at hs
  obtain ⟨hpre, hattr⟩ := h.snap s hs
  refine ⟨?_, hattr⟩
  by_cases hp : s.ptr = p
  · rw [hp, update_self]
    exact (hp ▸ hpre).trans (prefix_append _ _)
  · rw [update_of_ne hp]
    exact hpre

theorem Windows.taken (hbins : a'.bins = a.bins)
    (hpc : a'.pc = .flushBins (takeSnap a.bins.entries p)) : Windows a' pending (pending p) := by
  have hsame : contents a' = contents a := by rw [contents, hbins, ← contents]
  refine ⟨by rw [hsame]; exact h.cells, by rw [hsame]; exact h.absent, fun s hs => ?_⟩
  rw [hpc] at hs
  simp only [FlushPC.binSnap, FlushPC.binCb, takeSnap] at hs
  split at hs
  · cases hs
  rename_i k e hget
  split at hs
  · cases hs
  · cases hs
    exact ⟨prefix_refl _, h.cells p _ (getElem?_contents hget)⟩

theorem Windows.swept (hacc : AccInv a) {now : Nat} (hs : a.pc.binSnap = some s)
    (hmod : a'.bins.entries = a.bins.entries.modify s.ptr (binOps.commit s.entry now))
    (hpc : a'.pc.binSnap = none) :
    Windows a' (update pending s.ptr ((pending s.ptr).drop snapped.length)) snapped := by
  obtain ⟨⟨rest, hrest⟩, hdelta, -⟩ := h.snap s hs
  obtain ⟨x, hcb, hx⟩ := Option.map_eq_some_iff.mp hs
  obtain ⟨_, hbins, -⟩ := hacc
  obtain ⟨e, he, -⟩ := hbins.shape.snapLive hcb
  rw [hx] at he
  have hcell := h.cells s.ptr _ (getElem?_contents he)
  rw [← hrest] at hcell
  rw [← hrest, drop_left]
  refine h.set he hmod (hcell.sweep now hdelta) fun s' hs' => ?_
  rw [hpc] at hs'
  cases hs'

theorem Windows.quiet (hq : Quiet a a') : Windows a' pending snapped := by
  obtain ⟨⟨new, hnew, hzero⟩, hsnap⟩ := hq
  refine ⟨fun p x hx => ?_, fun p hp => h.absent p ?_, fun s hs => h.snap s ?_⟩
  · rw [hnew, List.getElem?_append] at hx
    split at hx
    · exact h.cells p x hx
    rename_i hlen
    rw [h.absent p (Nat.not_lt.mp hlen)]
    exact ⟨hzero x (mem_of_getElem? hx), by simp⟩
  · rw [hnew, length_append] at hp
    omega
  · rcases hsnap with hnone | hsame
    · rw [hnone] at hs
      cases hs
    · rw [← hsame, hs]

end

structure TracedInv (w : TracedAcc) : Prop where
  acc : AccInv w.acc
  windows : Windows w.acc w.pending w.snapped
  sent : ∀ x ∈ w.sent, Attributed x.2 (x.1.delta, x.1.payloadCode, x.1.epoch)
  outbox : w.acc.outbox.filterMap Envelope.bin? = w.sent.map Prod.fst

theorem TracedInv.start (stationID : String) (seqs : DeltaScope → Nat) :
    TracedInv (.start stationID seqs) where
  acc := AccInv.init stationID seqs
  windows :=
    { cells := fun _ _ h => by cases h
      absent := fun _ _ => rfl
      snap := fun _ h => by cases h }
  sent _ hx := by cases hx
  outbox := rfl

theorem enqueues_bin {d : BinUOPDelta} (h : (enqueues a act).bind Envelope.bin? = some d) :
    ∃ s seq, a.pc.binSnap = some s ∧ d = binEnvelope a.stationID s.entry seq := by
  cases act with
  | callback ok now lookup =>
    cases ok with
    | false => cases h
    | true =>
      simp only [enqueues] at h
      split at h
      · next s seq hpc =>
        cases h
        exact ⟨s, seq, by rw [hpc]; rfl, rfl⟩
      · cases h
      · cases h
  | _ => cases h

theorem TracedInv.step {w : TracedAcc} (h : TracedInv w) (hsame : w.SamePayload act) :
    TracedInv (w.step act) := by
  refine ⟨h.acc.step act, ?_, ?_, ?_⟩
  · have heffect := @binEffect w.acc act
    unfold TracedAcc.SamePayload at hsame
    simp only [TracedAcc.step]
    generalize landing w.acc act = l at *
    generalize snapping w.acc act = n at *
    generalize sweeping w.acc act = q at *
    cases heffect with
    | landed p c k e he hmod hpc => exact h.windows.landed he hmod hpc (hsame _ rfl)
    | snapped p hbins hpc => exact h.windows.taken hbins hpc
    | swept s now hs hmod hpc => exact h.windows.swept h.acc hs hmod hpc
    | quiet hq => exact h.windows.quiet hq
  · intro x hx
    rcases mem_append.mp hx with hold | hnew
    · exact h.sent x hold
    · obtain ⟨d, hd, rfl⟩ := mem_map.mp hnew
      obtain ⟨s, seq, hs, rfl⟩ := enqueues_bin (Option.mem_toList.mp hd)
      exact (h.windows.snap s hs).2
  · simp only [TracedAcc.step, accStep_outbox h.acc, filterMap_append, h.outbox,
      map_append]
    cases enqueues w.acc act with
    | none => rfl
    | some env => cases env <;> rfl

/-- **bin の電文の payload は足した記録のどれとも等しく、世代は足した記録のどれより古くない。** -/
theorem payload_attributed (stationID : String) (seqs : DeltaScope → Nat) (acts : List AccAction)
    (hsame : AllSteps TracedAcc.step TracedAcc.SamePayload (.start stationID seqs) acts) :
    ∀ w ∈ visited TracedAcc.step (.start stationID seqs) acts,
      w.acc.outbox.filterMap Envelope.bin? = w.sent.map Prod.fst ∧
      ∀ x ∈ w.sent, x.1.delta = (x.2.map BinCall.delta).sum ∧
        ∀ c ∈ x.2, x.1.payloadCode = c.payloadCode ∧ c.epoch ≤ x.1.epoch := by
  intro w hw
  have hstep : ∀ w act, TracedInv w → w.SamePayload act → TracedInv (w.step act) :=
    fun _ _ h hok => h.step hok
  have hinv := AllSteps.visited_of_inv hstep (TracedInv.start stationID seqs) hsame w hw
  exact ⟨hinv.outbox, hinv.sent⟩

def recordTwo (first second : String) : List AccAction :=
  [.recordBin ⟨1, first, 1, .produceTick, 1, 10⟩, .advanceBin 0, .advanceBin 0,
   .recordBin ⟨1, second, 1, .produceTick, 1, 11⟩, .advanceBin 1, .advanceBin 1,
   .flush, .visit 0, .callback true 12 none, .callback true 12 none, .callback true 12 none]

theorem payload_attributed_twice :
    (runSteps TracedAcc.step (.start "ST1" fun _ => 0) (recordTwo "A" "A")).sent.length = 1 ∧
      ∀ x ∈ (runSteps TracedAcc.step (.start "ST1" fun _ => 0) (recordTwo "A" "A")).sent,
        x.1.delta = (x.2.map BinCall.delta).sum ∧
          ∀ c ∈ x.2, x.1.payloadCode = c.payloadCode ∧ c.epoch ≤ x.1.epoch := by
  refine ⟨by decide +kernel, ?_⟩
  exact (payload_attributed "ST1" (fun _ => 0) (recordTwo "A" "A") (by decide +kernel) _
    (mem_visited_runSteps _ _)).2

/-- 二つ目の記録の payload が B でも、電文は A の 2 個になる。 -/
theorem payload_mixed :
    (runSteps TracedAcc.step (.start "ST1" fun _ => 0) (recordTwo "A" "B")).sent.map
        (fun x => (x.1.payloadCode, x.1.delta, x.2.map BinCall.payloadCode))
      = [("A", 2, ["A", "B"])] := by
  decide +kernel

end Shingo.Edge
