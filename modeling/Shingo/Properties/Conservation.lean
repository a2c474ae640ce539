import Mathlib.Data.List.Induction
import Shingo.Edge.Accumulator
import Shingo.Infra.Run
import Shingo.Infra.Table

/-!
# 溜め込みは記録を失わず、二度送らない

記録・`flush`・`evictIdle` のどの区切りがどの順に進んでも、鍵ごとに

    送った分 ＋ 捨てた分 ＋ 生きている entry にある分 ＋ 足し終えていない呼び出しの分
      ＝ 呼ばれた記録の分 ＋ 送って引き終えていない分

が成り立つ。
-/

namespace Shingo.Edge

open Infra Protocol List PtrMap

variable {C M : Type}

/-! ## 鍵ごとの和 -/

def sumFor (k : String) (l : List (String × Int)) : Int :=
  ((l.filter (·.1 == k)).map Prod.snd).sum

@[simp] theorem sumFor_append (k j : String) (d : Int) (l : List (String × Int)) :
    sumFor k (l ++ [(j, d)]) = sumFor k l + if k = j then d else 0 := by
  unfold sumFor
  by_cases h : k = j
  · subst h
    simp [filter_append]
  · have hjk : (j == k) = false := beq_false_of_ne (Ne.symm h)
    simp [filter_append, hjk, h]

variable (outbox : List Envelope)

def binSent : List (String × Int) :=
  outbox.filterMap fun
    | .bin d => some (toString d.binID, d.delta)
    | .bucket _ _ => none

def bucketSent : List (String × Int) :=
  outbox.filterMap fun
    | .bin _ => none
    | .bucket k d => some (k, d.delta)

/-- outbox に入れて、まだ entry から引いていない分。 -/
def inFlight (k : String) : Option (Snap M × SendPC) → Int
  | some (s, .enqueued _) => if k = s.key then s.entry.delta else 0
  | _ => 0

def Side.live (s : Side C M) (k : String) : Int := s.entries.held Entry.delta k

/-- 一度の呼び出しの、鍵 `k` の分。 -/
def ScopeOps.amountFor (ops : ScopeOps C M) (k : String) (c : C) : Int :=
  if k = ops.key c then ops.amount c else 0

def RecordPC.pending (ops : ScopeOps C M) (k : String) : RecordPC C → Int
  | .top c | .loaded c _ | .sawEvicted c _ => ops.amountFor k c
  | .returned => 0

/-- まだ足し終えていない呼び出しの分。 -/
def Side.pending (ops : ScopeOps C M) (k : String) (s : Side C M) : Int :=
  (s.calls.map (RecordPC.pending ops k)).sum

/-- 呼ばれた `recordBin` の分。`ignored` の呼び出しは何もしない。 -/
def AccAction.binAmount (k : String) : AccAction → Int
  | .recordBin c => if binOps.ignored c then 0 else binOps.amountFor k c
  | _ => 0

def AccAction.bucketAmount (k : String) : AccAction → Int
  | .recordBucket c => if bucketOps.ignored c then 0 else bucketOps.amountFor k c
  | _ => 0

def binIssued (k : String) (acts : List AccAction) : Int :=
  (acts.map (AccAction.binAmount k)).sum

def bucketIssued (k : String) (acts : List AccAction) : Int :=
  (acts.map (AccAction.bucketAmount k)).sum

/-! ## entry の欄の約束 -/

/-- entry の欄から鍵が読み取れ、記録や引き算は鍵を変えない。 -/
structure ScopeOps.Keyed (ops : ScopeOps C M) (keyOf : M → String) : Prop where
  fresh : ∀ c, keyOf (ops.fresh c) = ops.key c
  touch : ∀ c b m, keyOf (ops.touch c b m) = keyOf m
  clearWindow : ∀ m, keyOf (ops.clearWindow m) = keyOf m
  startWindow : ∀ t m, keyOf (ops.startWindow t m) = keyOf m

theorem binOps_keyed : binOps.Keyed (fun m => toString m.binID) where
  fresh _ := rfl
  touch c b m := by
    simp only [binOps]
    split
    · rfl
    · split <;> rfl
  clearWindow _ := rfl
  startWindow _ _ := rfl

theorem bucketOps_keyed :
    bucketOps.Keyed (fun m => bucketScopeKey m.nodeID m.pairKey m.styleID m.partNumber) where
  fresh _ := rfl
  touch c b m := by
    simp only [bucketOps]
    split <;> split <;> rfl
  clearWindow _ := rfl
  startWindow _ _ := rfl

variable {ops : ScopeOps C M} {keyOf : M → String}

structure Keeps (keyOf : M → String) (f : Entry M → Entry M) : Prop where
  evicted : ∀ e, (f e).evicted = e.evicted
  key : ∀ e, keyOf (f e).info = keyOf e.info

theorem keeps_add (h : ops.Keyed keyOf) (c : C) : Keeps keyOf (ops.add c) where
  evicted _ := rfl
  key e := h.touch c _ e.info

theorem keeps_subtract (h : ops.Keyed keyOf) (snap : Entry M) :
    Keeps keyOf (ops.subtract snap) where
  evicted _ := rfl
  key e := by
    simp only [ScopeOps.subtract]
    split
    · exact h.clearWindow _
    · exact h.startWindow _ _

theorem keeps_commit (h : ops.Keyed keyOf) (snap : Entry M) (now : Nat) :
    Keeps keyOf (ops.commit snap now) where
  evicted _ := rfl
  key e := (keeps_subtract h snap).key e

/-! ## entry を持つ者たちのつじつま -/

/--
一つの側のつじつま。`cb` は flush の callback が持っている写し、`marked` は
evictIdle が印を付けて、まだ map から外していない entry。
-/
structure SideShape (ops : ScopeOps C M) (keyOf : M → String) (s : Side C M)
    (cb : Option (Snap M × SendPC)) (marked : Option (String × Nat)) : Prop where
  sound : s.entries.Sound (fun e => e.evicted = true)
  evictedZero : ∀ {p k e}, s.entries.get? p = some (k, e) → e.evicted = true → e.delta = 0
  keyed : ∀ {p k e}, s.entries.get? p = some (k, e) → keyOf e.info = k
  loaded : ∀ {c p}, RecordPC.loaded c p ∈ s.calls → ∃ e, s.entries.get? p = some (ops.key c, e)
  sawEvicted : ∀ {c p}, RecordPC.sawEvicted c p ∈ s.calls →
    ∃ e, s.entries.get? p = some (ops.key c, e) ∧ e.evicted = true
  snapKeyed : ∀ {sn pc}, cb = some (sn, pc) → keyOf sn.entry.info = sn.key
  snapLive : ∀ {sn pc}, cb = some (sn, pc) →
    ∃ e, s.entries.get? sn.ptr = some (sn.key, e) ∧ e.evicted = false
  marked : ∀ {k p}, marked = some (k, p) →
    ∃ e, s.entries.get? p = some (k, e) ∧ e.evicted = true

theorem SideShape.init : SideShape ops keyOf (Side.init : Side C M) none none where
  sound := PtrMap.Sound.empty
  evictedZero h := by simp [Side.init, empty, get?] at h
  keyed h := by simp [Side.init, empty, get?] at h
  loaded h := by simp [Side.init] at h
  sawEvicted h := by simp [Side.init] at h
  snapKeyed h := by cases h
  snapLive h := by cases h
  marked h := by cases h

variable {s : Side C M} {mk : Option (String × Nat)} {cb : Option (Snap M × SendPC)}

variable {a : Accumulator} {done : List AccAction} {act : AccAction} {e : Entry M} {p : Nat}
  {k : String}

theorem SideShape.mapped (h : SideShape ops keyOf s cb mk)
    (he : s.entries.get? p = some (k, e)) (hlive : e.evicted = false) : s.entries.slot k = some p :=
  h.sound.mapped he (by rw [hlive]; decide)

theorem SideShape.setCb {cb' : Option (Snap M × SendPC)} (h : SideShape ops keyOf s cb mk)
    (hk : ∀ {sn pc}, cb' = some (sn, pc) → keyOf sn.entry.info = sn.key)
    (hl : ∀ {sn pc}, cb' = some (sn, pc) →
      ∃ e, s.entries.get? sn.ptr = some (sn.key, e) ∧ e.evicted = false) :
    SideShape ops keyOf s cb' mk :=
  { h with snapKeyed := hk, snapLive := hl }

theorem SideShape.clearCb (h : SideShape ops keyOf s cb mk) : SideShape ops keyOf s none mk :=
  h.setCb (fun hc => by cases hc) (fun hc => by cases hc)

variable {pc : SendPC} {sn : Snap M}

theorem SideShape.movePC (h : SideShape ops keyOf s (some (sn, pc)) mk) (pc' : SendPC) :
    SideShape ops keyOf s (some (sn, pc')) mk :=
  h.setCb (fun hc => by cases hc; exact h.snapKeyed rfl)
    (fun hc => by cases hc; exact h.snapLive rfl)

variable {f : Entry M → Entry M}

section

variable (h : SideShape ops keyOf s cb mk)
include h

/-- **entry の表の書き換えは、entry を消さず、印を変えなければよい。** -/
theorem SideShape.of_entries {entries : PtrMap String (Entry M)}
    (hsound : entries.Sound fun e => e.evicted = true)
    (hzero : ∀ {p k e}, entries.get? p = some (k, e) → e.evicted = true → e.delta = 0)
    (hkeyed : ∀ {p k e}, entries.get? p = some (k, e) → keyOf e.info = k)
    (hkeep : ∀ {p k e}, s.entries.get? p = some (k, e) →
      ∃ e', entries.get? p = some (k, e') ∧ e'.evicted = e.evicted) :
    SideShape ops keyOf { s with entries } cb mk where
  sound := hsound
  evictedZero := hzero
  keyed := hkeyed
  loaded hc := by
    obtain ⟨e, he⟩ := h.loaded hc
    exact (hkeep he).imp fun _ h => h.1
  sawEvicted hc := by
    obtain ⟨e, he, hev⟩ := h.sawEvicted hc
    exact (hkeep he).imp fun _ h => ⟨h.1, h.2.trans hev⟩
  snapKeyed := h.snapKeyed
  snapLive hc := by
    obtain ⟨e, he, hev⟩ := h.snapLive hc
    exact (hkeep he).imp fun _ h => ⟨h.1, h.2.trans hev⟩
  marked hc := by
    obtain ⟨e, he, hev⟩ := h.marked hc
    exact (hkeep he).imp fun _ h => ⟨h.1, h.2.trans hev⟩

/-- **印も鍵も変えない書き換えで、印の無い entry を動かす。** -/
theorem SideShape.modify
    (he : s.entries.get? p = some (k, e)) (hlive : e.evicted = false) (hf : Keeps keyOf f) :
    SideShape ops keyOf { s with entries := s.entries.modify p f } cb mk := by
  refine h.of_entries (h.sound.modify fun _ hd => by rw [hf.evicted]; exact hd) ?_ ?_ ?_
  · intro q j e' hq hev
    rcases get?_modify_cases hq with ⟨rfl, e₀, h₀, rfl⟩ | ⟨-, h₀⟩
    · rw [hf.evicted] at hev
      cases he.symm.trans h₀
      rw [hlive] at hev
      cases hev
    · exact h.evictedZero h₀ hev
  · intro q j e' hq
    rcases get?_modify_cases hq with ⟨rfl, e₀, h₀, rfl⟩ | ⟨-, h₀⟩
    · rw [hf.key]
      exact h.keyed h₀
    · exact h.keyed h₀
  · intro q j e' hq
    rw [get?_modify, hq]
    split
    · exact ⟨f e', rfl, hf.evicted e'⟩
    · exact ⟨e', rfl, rfl⟩

theorem SideShape.compareAndDelete (he : s.entries.get? p = some (k, e)) (hev : e.evicted = true) :
    SideShape ops keyOf { s with entries := s.entries.compareAndDelete k p } cb mk := by
  refine h.of_entries (h.sound.compareAndDelete he hev) ?_ ?_ ?_
  · intro q j e' hq
    exact h.evictedZero (get?_compareAndDelete.symm.trans hq)
  · intro q j e' hq
    exact h.keyed (get?_compareAndDelete.symm.trans hq)
  · intro q j e' hq
    exact ⟨e', get?_compareAndDelete.trans hq, rfl⟩

theorem SideShape.loadOrStore (hops : ops.Keyed keyOf) (c : C) : SideShape ops keyOf
      { s with entries := (s.entries.loadOrStore (ops.key c) (ops.freshEntry c)).1 } cb mk := by
  obtain ⟨hsound, -, hkeep, hnew⟩ :=
    loadOrStore_spec h.sound (k := ops.key c) (x := ops.freshEntry c)
  refine h.of_entries hsound ?_ ?_ fun hq => ⟨_, hkeep hq, rfl⟩
  · intro q k e hq hev
    rcases hnew hq with hq | hq
    · exact h.evictedZero hq hev
    · cases hq; rfl
  · intro q k e hq
    rcases hnew hq with hq | hq
    · exact h.keyed hq
    · cases hq; exact hops.fresh c

theorem SideShape.setCalls {calls : List (RecordPC C)} {pc : RecordPC C}
    (hcalls : ∀ {x}, x ∈ calls → x ∈ s.calls ∨ x = pc)
    (hl : ∀ {c p}, pc = .loaded c p → ∃ e, s.entries.get? p = some (ops.key c, e))
    (hs : ∀ {c p}, pc = .sawEvicted c p →
      ∃ e, s.entries.get? p = some (ops.key c, e) ∧ e.evicted = true) :
    SideShape ops keyOf { s with calls := calls } cb mk :=
  { h with
    loaded hc := (hcalls hc).elim h.loaded fun he => hl he.symm
    sawEvicted hc := (hcalls hc).elim h.sawEvicted fun he => hs he.symm }

end

/-! ## 側のつじつまと等式 -/

structure SideInv (ops : ScopeOps C M) (keyOf : M → String) (s : Side C M)
    (cb : Option (Snap M × SendPC)) (mk : Option (String × Nat))
    (sent lost issued : String → Int) : Prop where
  shape : SideShape ops keyOf s cb mk
  balanced : ∀ k, sent k + lost k + s.live k + s.pending ops k = issued k + inFlight k cb

variable {s : Side C M} {cb : Option (Snap M × SendPC)} {mk : Option (String × Nat)}
  {sent lost issued : String → Int}

theorem SideInv.init :
    SideInv ops keyOf (Side.init : Side C M) none none (fun _ => 0) (fun _ => 0)
      (fun _ => 0) where
  shape := SideShape.init
  balanced k := by simp [Side.init, Side.live, Side.pending, held, empty, inFlight]

theorem SideInv.record (h : SideInv ops keyOf s cb mk sent lost issued) (c : C) :
    SideInv ops keyOf (s.record ops c) cb mk sent lost
      fun k => issued k + if ops.ignored c then 0 else ops.amountFor k c := by
  unfold Side.record
  split
  · simpa only [Int.add_zero] using h
  · refine ⟨h.shape.setCalls mem_append_last.mp nofun nofun, fun k => ?_⟩
    have hbal := h.balanced k
    simp only [Side.live, Side.pending, map_append, sum_append, map_cons, map_nil, sum_cons,
      sum_nil, RecordPC.pending] at hbal ⊢
    omega

/-- 呼び出しが一歩進む。entry と呼び出しにある分の和が変わらなければ、等式は動かない。 -/
theorem SideInv.moveCall (h : SideInv ops keyOf s cb mk sent lost issued) {pc pc' : RecordPC C}
    {i : Nat} (hi : s.calls[i]? = some pc) {entries : PtrMap String (Entry M)}
    (hshape : SideShape ops keyOf { entries, calls := s.calls.set i pc' } cb mk)
    (hsum : ∀ k, entries.held Entry.delta k + pc'.pending ops k
      = s.entries.held Entry.delta k + pc.pending ops k) :
    SideInv ops keyOf { entries, calls := s.calls.set i pc' } cb mk sent lost issued := by
  refine ⟨hshape, fun k => ?_⟩
  have hset := sum_map_set (RecordPC.pending ops k) hi pc'
  have hbal := h.balanced k
  have hsum := hsum k
  simp only [Side.live, Side.pending] at hbal ⊢
  omega

theorem SideInv.advance (hops : ops.Keyed keyOf) (h : SideInv ops keyOf s cb mk sent lost issued)
    (i : Nat) : SideInv ops keyOf (s.advance ops i) cb mk sent lost issued := by
  unfold Side.advance
  cases hi : s.calls[i]? with
  | none => exact h
  | some pc =>
    have hmem : pc ∈ s.calls := mem_of_getElem? hi
    cases pc with
    | returned => exact h
    | top c =>
      obtain ⟨-, hp, -, -⟩ :=
        loadOrStore_spec h.shape.sound (k := ops.key c) (x := ops.freshEntry c)
      refine h.moveCall hi ((h.shape.loadOrStore hops c).setCalls mem_or_eq_of_mem_set
        (fun hc => ?_) (fun hc => ?_)) fun k => ?_
      · cases hc
        exact hp
      · cases hc
      · -- 新しい entry の中身は 0 なので、入れても和は動かない
        exact congrArg (· + ops.amountFor k c) (held_loadOrStore (v := Entry.delta) h.shape.sound
          (k := ops.key c) (x := ops.freshEntry c) rfl k)
    | loaded c p =>
      obtain ⟨e, he⟩ := h.shape.loaded hmem
      simp only [he]
      by_cases hev : e.evicted = true
      · rw [if_pos hev]
        refine h.moveCall hi (h.shape.setCalls mem_or_eq_of_mem_set (fun hc => ?_)
          (fun hc => ?_)) fun _ => rfl
        · cases hc
        · cases hc
          exact ⟨e, he, hev⟩
      · rw [if_neg hev]
        have hlive : e.evicted = false := by simpa using hev
        refine h.moveCall hi ((h.shape.modify he hlive (keeps_add hops c)).setCalls
          mem_or_eq_of_mem_set (fun hc => ?_) (fun hc => ?_)) fun k => ?_
        · cases hc
        · cases hc
        · rw [held_modify (v := Entry.delta) (f := ops.add c) h.shape.sound he
            (h.shape.mapped he hlive) k]
          simp only [ScopeOps.add, RecordPC.pending, ScopeOps.amountFor]
          split <;> omega
    | sawEvicted c p =>
      obtain ⟨e, he, hev⟩ := h.shape.sawEvicted hmem
      refine h.moveCall hi ((h.shape.compareAndDelete he hev).setCalls mem_or_eq_of_mem_set
        (fun hc => ?_) (fun hc => ?_)) fun k => ?_
      · cases hc
      · cases hc
      · rw [held_compareAndDelete he (h.shape.evictedZero he hev) k]
        rfl

/-! ## flush の callback -/

theorem inFlight_of_ne (h : ∀ seq, pc ≠ .enqueued seq) : inFlight k (some (sn, pc)) = 0 := by
  cases pc <;> first | rfl | exact absurd rfl (h _)

theorem SideInv.takeSnap (h : SideInv ops keyOf s none mk sent lost issued) (p : Nat) :
    SideInv ops keyOf s (takeSnap s.entries p) mk sent lost issued := by
  unfold Edge.takeSnap
  cases hp : s.entries.get? p with
  | none => exact h
  | some c =>
    obtain ⟨k, e⟩ := c
    dsimp only
    split
    · exact h
    rename_i hd
    have hlive : e.evicted = false := by
      by_contra hev
      exact hd (h.shape.evictedZero hp (by simpa using hev))
    refine ⟨h.shape.setCb ?_ ?_, h.balanced⟩
    · intro sn pc hc
      cases hc
      exact h.shape.keyed hp
    · intro sn pc hc
      cases hc
      exact ⟨e, hp, hlive⟩

theorem live_sub (h : SideShape ops keyOf s (some (sn, pc)) mk)
    (hf : ∀ e, (f e).delta = e.delta - sn.entry.delta) (k : String) :
    ({ s with entries := s.entries.modify sn.ptr f } : Side C M).live k
      = s.live k - if k = sn.key then sn.entry.delta else 0 := by
  obtain ⟨e, he, hlive⟩ := h.snapLive rfl
  have := held_modify (v := Entry.delta) (f := f) h.sound he (h.mapped he hlive) k
  simp only [Side.live]
  rw [this, hf]
  split <;> omega

theorem SideShape.subtracted (h : SideShape ops keyOf s (some (sn, pc)) mk) (hk : Keeps keyOf f) :
    SideShape ops keyOf { s with entries := s.entries.modify sn.ptr f } none mk := by
  obtain ⟨e, he, hlive⟩ := h.snapLive rfl
  exact (h.modify he hlive hk).clearCb

theorem SideInv.sweep {seq : Nat}
    (h : SideInv ops keyOf s (some (sn, .enqueued seq)) mk sent lost issued)
    (hk : Keeps keyOf f) (hf : ∀ e, (f e).delta = e.delta - sn.entry.delta) :
    SideInv ops keyOf { s with entries := s.entries.modify sn.ptr f } none mk sent lost issued where
  shape := h.shape.subtracted hk
  balanced k := by
    have := h.balanced k
    simp only [inFlight, Side.pending] at this ⊢
    rw [live_sub h.shape hf]
    omega

section

variable (h : SideInv ops keyOf s (some (sn, pc)) mk sent lost issued)
  (hpc : ∀ seq, pc ≠ .enqueued seq)
include h hpc

theorem SideInv.moveCb {sn' : Snap M} {pc' : SendPC} (hpc' : ∀ seq, pc' ≠ .enqueued seq)
    (hkey : sn'.key = sn.key) (hptr : sn'.ptr = sn.ptr)
    (hinfo : keyOf sn'.entry.info = keyOf sn.entry.info) :
    SideInv ops keyOf s (some (sn', pc')) mk sent lost issued where
  shape := h.shape.setCb (fun hc => by cases hc; rw [hinfo, hkey]; exact h.shape.snapKeyed rfl)
    (fun hc => by cases hc; rw [hkey, hptr]; exact h.shape.snapLive rfl)
  balanced k := by
    have := h.balanced k
    rw [inFlight_of_ne hpc] at this
    rw [inFlight_of_ne hpc']
    exact this

theorem SideInv.failCb : SideInv ops keyOf s none mk sent lost issued where
  shape := h.shape.clearCb
  balanced k := by
    have := h.balanced k
    rwa [inFlight_of_ne hpc] at this

theorem SideInv.enqueue {seq : Nat}
    {sent' : String → Int} (hs : ∀ k, sent' k = sent k + if k = sn.key then sn.entry.delta else 0) :
    SideInv ops keyOf s (some (sn, .enqueued seq)) mk sent' lost issued where
  shape := h.shape.movePC _
  balanced k := by
    have := h.balanced k
    rw [inFlight_of_ne hpc] at this
    rw [hs]
    simp only [inFlight]
    omega

theorem SideInv.drop (hk : Keeps keyOf f) (hf : ∀ e, (f e).delta = e.delta - sn.entry.delta)
    {lost' : String → Int} (hl : ∀ k, lost' k = lost k + if k = sn.key then sn.entry.delta else 0) :
    SideInv ops keyOf { s with entries := s.entries.modify sn.ptr f } none mk sent lost'
      issued where
  shape := h.shape.subtracted hk
  balanced k := by
    have := h.balanced k
    rw [inFlight_of_ne hpc] at this
    rw [live_sub h.shape hf, hl]
    simp only [inFlight, Side.pending] at this ⊢
    omega

end

/-! ## evictIdle -/

/-- **印を付ける。** callback が写しを持っていないときだけ走る。 -/
theorem SideInv.evictMark (h : SideInv ops keyOf s none none sent lost issued) (cutoff p : Nat) :
    SideInv ops keyOf (evictMark s cutoff p).1 none (evictMark s cutoff p).2 sent lost issued := by
  unfold Edge.evictMark
  cases hp : s.entries.get? p with
  | none => exact h
  | some c =>
    obtain ⟨k, e⟩ := c
    dsimp only
    split
    · rename_i hidle
      have hd : e.delta = 0 := by
        simp only [Entry.idle, Bool.and_eq_true, beq_iff_eq] at hidle
        exact hidle.1.1
      have hkeep : ∀ {q j e'}, s.entries.get? q = some (j, e') →
          ∃ e'', (s.entries.modify p fun e => { e with evicted := true }).get? q = some (j, e'')
            ∧ (e'.evicted = true → e''.evicted = true) := by
        intro q j e' hq
        rw [get?_modify, hq]
        split
        · exact ⟨_, rfl, fun _ => rfl⟩
        · exact ⟨e', rfl, id⟩
      have hsound : (s.entries.modify p fun e => { e with evicted := true }).Sound
          fun e => e.evicted = true := h.shape.sound.modify fun _ _ => rfl
      refine ⟨{ sound := hsound, evictedZero := ?_, keyed := ?_, loaded := ?_, sawEvicted := ?_,
                snapKeyed := (fun hc => by cases hc), snapLive := (fun hc => by cases hc),
                marked := ?_ }, ?_⟩
      · intro q j e' hq hev
        rcases get?_modify_cases hq with ⟨rfl, e₀, h₀, rfl⟩ | ⟨-, h₀⟩
        · cases hp.symm.trans h₀
          exact hd
        · exact h.shape.evictedZero h₀ hev
      · intro q j e' hq
        rcases get?_modify_cases hq with ⟨rfl, e₀, h₀, rfl⟩ | ⟨-, h₀⟩
        · have := h.shape.keyed h₀
          exact this
        · exact h.shape.keyed h₀
      · intro c' q hc
        obtain ⟨e', he'⟩ := h.shape.loaded hc
        exact (hkeep he').imp fun _ h => h.1
      · intro c' q hc
        obtain ⟨e', he', hev⟩ := h.shape.sawEvicted hc
        obtain ⟨e'', he'', hev'⟩ := hkeep he'
        exact ⟨e'', he'', hev' hev⟩
      · intro j q hc
        cases hc
        exact ⟨_, get?_modify_self hp, rfl⟩
      · intro j
        have := held_modify_same (v := Entry.delta) (m := s.entries) (p := p)
          (f := fun e => { e with evicted := true }) (fun _ => rfl) j
        show _ + _ + held _ _ j + _ = _
        rw [this]
        exact h.balanced j
    · exact h

theorem SideInv.evictDelete {kp : String × Nat}
    (h : SideInv ops keyOf s none (some kp) sent lost issued) :
    SideInv ops keyOf (evictDelete s kp) none none sent lost issued := by
  obtain ⟨k, p⟩ := kp
  obtain ⟨e, he, hev⟩ := h.shape.marked rfl
  have hshape := h.shape.compareAndDelete he hev
  unfold Edge.evictDelete
  refine ⟨{ hshape with marked := fun hc => by cases hc }, fun j => ?_⟩
  show _ + _ + held _ _ j + _ = _
  rw [held_compareAndDelete he (h.shape.evictedZero he hev) j]
  exact h.balanced j

/-! ## accumulator 全体 -/

def FlushPC.binCb : FlushPC → Option (Snap BinInfo × SendPC)
  | .flushBins cb => cb
  | _ => none

def FlushPC.bucketCb : FlushPC → Option (Snap BucketInfo × SendPC)
  | .flushBuckets cb => cb
  | _ => none

def FlushPC.binMarked : FlushPC → Option (String × Nat)
  | .evictBins _ marked => marked
  | _ => none

def FlushPC.bucketMarked : FlushPC → Option (String × Nat)
  | .evictBuckets _ marked => marked
  | _ => none

/-- `done` は、ここまでの動作。 -/
structure AccBalance (done : List AccAction) (a : Accumulator) : Prop where
  bins : SideInv binOps (fun m => toString m.binID) a.bins a.pc.binCb a.pc.binMarked
    (fun k => sumFor k (binSent a.outbox)) (fun _ => 0) (binIssued · done)
  buckets : SideInv bucketOps (fun m => bucketScopeKey m.nodeID m.pairKey m.styleID m.partNumber)
    a.buckets a.pc.bucketCb a.pc.bucketMarked (fun k => sumFor k (bucketSent a.outbox))
    (fun k => sumFor k a.dropped) (bucketIssued · done)

theorem AccBalance.init (stationID : String) (seqs : DeltaScope → Nat) :
    AccBalance [] (newAccumulator stationID seqs) where
  bins := SideInv.init
  buckets := SideInv.init

theorem binSent_append_bin (d : BinUOPDelta) :
    binSent (outbox ++ [.bin d]) = binSent outbox ++ [(toString d.binID, d.delta)] := by
  simp [binSent]

theorem binSent_append_bucket (k : String) (d : LinesideBucketDelta) :
    binSent (outbox ++ [.bucket k d]) = binSent outbox := by
  simp [binSent]

theorem bucketSent_append_bin (d : BinUOPDelta) :
    bucketSent (outbox ++ [.bin d]) = bucketSent outbox := by
  simp [bucketSent]

theorem bucketSent_append_bucket (k : String) (d : LinesideBucketDelta) :
    bucketSent (outbox ++ [.bucket k d]) = bucketSent outbox ++ [(k, d.delta)] := by
  simp [bucketSent]

theorem AccBalance.flushBinsStep (h : AccBalance done a) {sn : Snap BinInfo}
    (hpc : a.pc = .flushBins (some (sn, pc))) (ok : Bool) (now : Nat) :
    AccBalance done (flushBinsStep a sn ok now pc) := by
  have hb := h.bins
  have hk := h.buckets
  rw [hpc] at hb hk
  unfold Edge.flushBinsStep
  cases pc with dsimp only
  | snapped | named | unnamed | allocated =>
    split
    · exact ⟨hb.moveCb (by simp) (by simp) rfl rfl rfl, hk⟩
    · exact ⟨hb.failCb (by simp), hk⟩
  | encoded seq =>
    split
    · refine ⟨hb.enqueue (by simp) fun k => ?_, ?_⟩
      · have hkey : toString sn.entry.info.binID = sn.key := hb.shape.snapKeyed rfl
        rw [binSent_append_bin, sumFor_append]
        simp only [binEnvelope, hkey]
      · simp only [bucketSent_append_bin]
        exact hk
    · exact ⟨hb.failCb (by simp), hk⟩
  | enqueued seq =>
    exact ⟨hb.sweep (keeps_commit binOps_keyed _ _) fun _ => rfl, hk⟩

theorem AccBalance.flushBucketsStep (h : AccBalance done a) {sn : Snap BucketInfo}
    (hpc : a.pc = .flushBuckets (some (sn, pc))) (ok : Bool) (now : Nat)
    (lookup : Option String) : AccBalance done (flushBucketsStep a sn ok now lookup pc) := by
  have hb := h.bins
  have hk := h.buckets
  rw [hpc] at hb hk
  unfold Edge.flushBucketsStep
  cases pc with
  | snapped =>
    have hres : ∀ e : Entry BucketInfo, bucketScopeKey (resolveName e lookup).info.nodeID
        (resolveName e lookup).info.pairKey (resolveName e lookup).info.styleID
        (resolveName e lookup).info.partNumber
        = bucketScopeKey e.info.nodeID e.info.pairKey e.info.styleID e.info.partNumber := by
      intro e
      unfold resolveName
      split <;> rfl
    dsimp only
    split
    · exact ⟨hb, hk.moveCb (by simp) (by simp) rfl rfl (hres _)⟩
    · exact ⟨hb, hk.moveCb (by simp) (by simp) rfl rfl (hres _)⟩
  | unnamed =>
    refine ⟨hb, hk.drop (by simp) (keeps_subtract bucketOps_keyed _) (fun _ => rfl) fun k => ?_⟩
    exact sumFor_append k sn.key sn.entry.delta a.dropped
  | named | allocated =>
    dsimp only
    split
    · exact ⟨hb, hk.moveCb (by simp) (by simp) rfl rfl rfl⟩
    · exact ⟨hb, hk.failCb (by simp)⟩
  | encoded seq =>
    dsimp only
    split
    · refine ⟨?_, hk.enqueue (by simp) fun k => ?_⟩
      · simp only [binSent_append_bucket]
        exact hb
      · rw [bucketSent_append_bucket, sumFor_append]
        rfl
    · exact ⟨hb, hk.failCb (by simp)⟩
  | enqueued seq =>
    exact ⟨hb, hk.sweep (keeps_commit bucketOps_keyed _ _) fun _ => rfl⟩

theorem SideInv.issue (h : SideInv ops keyOf s cb mk sent lost issued) {issued' : String → Int}
    (hk : ∀ k, issued' k = issued k) : SideInv ops keyOf s cb mk sent lost issued' := by
  rwa [funext hk]

theorem binIssued_append : binIssued k (done ++ [act]) = binIssued k done + act.binAmount k := by
  simp [binIssued]

theorem bucketIssued_append :
    bucketIssued k (done ++ [act]) = bucketIssued k done + act.bucketAmount k := by
  simp [bucketIssued]

/-- 記録を呼ばない動作は、呼ばれた分を増やさない。 -/
theorem AccBalance.quiet (h : AccBalance done a) (hbin : ∀ k, act.binAmount k = 0)
    (hbucket : ∀ k, act.bucketAmount k = 0) : AccBalance (done ++ [act]) a where
  bins := h.bins.issue fun k => by rw [binIssued_append, hbin, Int.add_zero]
  buckets := h.buckets.issue fun k => by rw [bucketIssued_append, hbucket, Int.add_zero]

theorem AccBalance.step (h : AccBalance done a) (act : AccAction) :
    AccBalance (done ++ [act]) (accStep a act) := by
  cases act with
  | recordBin c =>
    exact ⟨(h.bins.record c).issue fun k => binIssued_append,
      h.buckets.issue fun k => bucketIssued_append.trans (Int.add_zero _)⟩
  | recordBucket c =>
    exact ⟨h.bins.issue fun k => binIssued_append.trans (Int.add_zero _),
      (h.buckets.record c).issue fun k => bucketIssued_append⟩
  | advanceBin i =>
    have h : AccBalance (done ++ [.advanceBin i]) a := h.quiet (fun _ => rfl) fun _ => rfl
    exact ⟨h.bins.advance binOps_keyed i, h.buckets⟩
  | advanceBucket i =>
    have h : AccBalance (done ++ [.advanceBucket i]) a := h.quiet (fun _ => rfl) fun _ => rfl
    exact ⟨h.bins, h.buckets.advance bucketOps_keyed i⟩
  | flush =>
    have h : AccBalance (done ++ [.flush]) a := h.quiet (fun _ => rfl) fun _ => rfl
    have hb := h.bins
    have hk := h.buckets
    unfold accStep
    dsimp only
    split
    · rename_i hpc
      rw [hpc] at hb hk
      exact ⟨hb, hk⟩
    · exact h
  | visit p =>
    have h : AccBalance (done ++ [.visit p]) a := h.quiet (fun _ => rfl) fun _ => rfl
    have hb := h.bins
    have hk := h.buckets
    unfold accStep
    dsimp only
    split
    · rename_i hpc
      rw [hpc] at hb hk
      exact ⟨hb.takeSnap p, hk⟩
    · rename_i hpc
      rw [hpc] at hb hk
      exact ⟨hb, hk.takeSnap p⟩
    · rename_i cutoff hpc
      rw [hpc] at hb hk
      exact ⟨hb.evictMark cutoff p, hk⟩
    · rename_i cutoff hpc
      rw [hpc] at hb hk
      exact ⟨hb, hk.evictMark cutoff p⟩
    · exact h
  | callback ok now lookup =>
    have h : AccBalance (done ++ [.callback ok now lookup]) a := h.quiet (fun _ => rfl) fun _ => rfl
    have hb := h.bins
    have hk := h.buckets
    unfold accStep
    dsimp only
    split
    · exact h.flushBinsStep ‹_› ok now
    · exact h.flushBucketsStep ‹_› ok now lookup
    · rename_i hpc
      rw [hpc] at hb hk
      exact ⟨hb.evictDelete, hk⟩
    · rename_i hpc
      rw [hpc] at hb hk
      exact ⟨hb, hk.evictDelete⟩
    · exact h
  | rangeDone cutoff =>
    have h : AccBalance (done ++ [.rangeDone cutoff]) a := h.quiet (fun _ => rfl) fun _ => rfl
    have hb := h.bins
    have hk := h.buckets
    unfold accStep
    dsimp only
    split <;> first
      | exact h
      | (rename_i hpc; rw [hpc] at hb hk; exact ⟨hb, hk⟩)

/-- どこかの動作の列で着いた accumulator。 -/
def AccInv (a : Accumulator) : Prop := ∃ done, AccBalance done a

theorem AccInv.init (stationID : String) (seqs : DeltaScope → Nat) :
    AccInv (newAccumulator stationID seqs) :=
  ⟨[], .init stationID seqs⟩

theorem AccInv.step (h : AccInv a) (act : AccAction) : AccInv (accStep a act) :=
  h.elim fun _ h => ⟨_, h.step act⟩

/--
**記録は失われず、二度送られない。**

呼ばれた分は、足し終えていない呼び出しに残るか、送られるか、捨てられるか、entry にある。
-/
theorem accumulator_conserves (stationID : String) (seqs : DeltaScope → Nat)
    (acts : List AccAction) (k : String) :
    let a := runSteps accStep (newAccumulator stationID seqs) acts
    sumFor k (binSent a.outbox) + a.bins.live k + a.bins.pending binOps k
        = binIssued k acts + inFlight k a.pc.binCb
      ∧ sumFor k (bucketSent a.outbox) + sumFor k a.dropped + a.buckets.live k
          + a.buckets.pending bucketOps k
        = bucketIssued k acts + inFlight k a.pc.bucketCb := by
  have hinv : AccBalance acts (runSteps accStep (newAccumulator stationID seqs) acts) := by
    induction acts using List.reverseRecOn with
    | nil => exact .init stationID seqs
    | append_singleton acts act ih =>
      rw [runSteps, foldl_append]
      exact ih.step act
  have hbins := hinv.bins.balanced k
  exact ⟨by omega, hinv.buckets.balanced k⟩

def enqueuedNotSwept : List AccAction :=
  [.recordBin ⟨1, "P", 5, .produceTick, 1, 10⟩, .advanceBin 0, .advanceBin 0,
   .flush, .visit 0, .callback true 11 none, .callback true 11 none, .callback true 11 none]

/-- **outbox に入れてから引くまでの間は、同じ 5 が outbox にも entry にもある。** -/
theorem accumulator_exceeds_in_flight :
    let a := runSteps accStep (newAccumulator "ST1" fun _ => 0) enqueuedNotSwept
    sumFor "1" (binSent a.outbox) + a.bins.live "1" = 10 ∧ binIssued "1" enqueuedNotSwept = 5 ∧
      a.bins.pending binOps "1" = 0 := by
  decide

end Shingo.Edge
