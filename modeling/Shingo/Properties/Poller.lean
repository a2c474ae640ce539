import Shingo.Core.Poller
import Shingo.Infra.Run

/-!
# poller は何も落とさない

一つの order について、見始めてから今までの記録を `history` とする。終わりの知らせの前の記録で
FINISHED と見えた block には、完了の知らせがちょうど一つある。
これは、id が引けない二つの場合を除けば、どの時点でも成り立つ（`poller_drops_nothing`）。

証明は order ごとに行う。一つの動作が触れる order は一つで、ほかの order では map も `history` も
変わらない（`Untouched`）。触れた order では、覚えた block の状態が、知らせた数に等しい
（`OrderOk.counted`）。block 一つの差分については `foldl_diffBlock_spec` が言う。
-/

namespace Shingo.Core

open Infra List Poller AList

/-! ## 記録 -/

namespace PollerEvent

def rdsOrderID : PollerEvent → String
  | .statusChanged _ rdsID _ _ _ _ _ => rdsID
  | .blockCompleted _ rdsID _ _ _ _ _ => rdsID
  | .graceExpired _ rdsID => rdsID

def isTerminal : PollerEvent → Bool
  | .statusChanged _ _ _ newStatus _ _ _ => newStatus.isTerminal
  | _ => false

def endsTracking : PollerEvent → Bool
  | .graceExpired _ _ => true
  | ev => ev.isTerminal

end PollerEvent

namespace PollerEntry

def rdsID : PollerEntry → String
  | .tracked rdsID => rdsID
  | .untracked rdsID => rdsID
  | .fetched rdsID _ => rdsID
  | .emitted ev => ev.rdsOrderID

def ends : PollerEntry → Bool
  | .untracked _ => true
  | .emitted ev => ev.endsTracking
  | _ => false

def showsFinished (blockID : String) : PollerEntry → Bool
  | .fetched _ detail => detail.blocks.any fun b => b.blockID == blockID && b.state == .finished
  | _ => false

def completes (blockID : String) : PollerEntry → Bool
  | .emitted (.blockCompleted _ _ b _ _ _ _) => b == blockID
  | _ => false

end PollerEntry

/-- 一番後に見始めてからの、その order の記録。新しいものが前にある。 -/
def history (rdsID : String) (log : List PollerEntry) : List PollerEntry :=
  (log.filter (·.rdsID == rdsID)).takeWhile (· != .tracked rdsID)

def StillTracked (rdsID : String) (log : List PollerEntry) : Prop :=
  .tracked rdsID ∈ log ∧ ∀ x ∈ history rdsID log, x.ends = false
  deriving Decidable

/-- FINISHED と見えた block に、完了の知らせがちょうど一つある。 -/
def BlocksTold (rdsID : String) (log : List PollerEntry) : Prop :=
  ∀ blockID, (history rdsID log).any (·.showsFinished blockID) = true →
    (history rdsID log).countP (·.completes blockID) = 1

/-- どの終わりの知らせも、その前に block の知らせが済んでいる。`older` が、その前の記録。 -/
def Told (log : List PollerEntry) : Prop :=
  ∀ ev older, .emitted ev :: older <:+ log → ev.isTerminal = true → BlocksTold ev.rdsOrderID older

structure NothingDropped (w : Poller) : Prop where
  kept : ∀ rdsID, StillTracked rdsID w.log → rdsID ∈ w.active
  told : Told w.log

/-! ### 記録が伸びる -/

variable {rdsID : String} {log more : List PollerEntry}

theorem history_append_other (h : ∀ x ∈ more, x.rdsID ≠ rdsID) :
    history rdsID (more ++ log) = history rdsID log := by
  have hnil : more.filter (·.rdsID == rdsID) = [] := by simpa using h
  simp [history, hnil]

theorem history_append_own (h : ∀ x ∈ more, x.rdsID = rdsID ∧ x ≠ .tracked rdsID) :
    history rdsID (more ++ log) = more ++ history rdsID log := by
  have hall : more.filter (·.rdsID == rdsID) = more := by
    simpa using fun x hx => (h x hx).1
  unfold history
  rw [filter_append, hall, takeWhile_append_of_pos]
  simpa using fun x hx => (h x hx).2

variable {x : PollerEntry}

theorem history_cons_own (hid : x.rdsID = rdsID) (hne : x ≠ .tracked rdsID) :
    history rdsID (x :: log) = x :: history rdsID log :=
  history_append_own (forall_mem_singleton.mpr ⟨hid, hne⟩)

theorem history_tracked : history rdsID (.tracked rdsID :: log) = [] := by
  simp [history, PollerEntry.rdsID]

theorem not_stillTracked_of_ends (hid : x.rdsID = rdsID)
    (hends : x.ends = true) : ¬ StillTracked rdsID (x :: log) := by
  rintro ⟨-, hall⟩
  have hne : x ≠ .tracked rdsID := by
    rintro rfl
    cases hends
  rw [history_cons_own hid hne] at hall
  simp [hall x mem_cons_self] at hends

/-! ## block の差分 -/

def finishedBit (states : GoMap RdsState) (blockID : String) : Nat :=
  if states.lookup blockID = some .finished then 1 else 0

def StaysFinished (blocks : List RdsBlock) : Prop :=
  blocks.Pairwise fun x y => x.blockID = y.blockID → x.state = .finished → y.state = .finished
  deriving Decidable

section

variable {acc : GoMap RdsState × List RdsBlock} {b : RdsBlock} (hid : b.blockID ≠ "")
  (hstays : acc.1.lookup b.blockID = some .finished → b.state = .finished) (blockID : String)
include hid hstays

theorem diffBlock_bit :
    (diffBlock acc b).2.countP (·.blockID == blockID) + finishedBit acc.1 blockID
      = acc.2.countP (·.blockID == blockID) + finishedBit (diffBlock acc b).1 blockID := by
  unfold diffBlock
  rw [if_neg hid]
  by_cases hsame : b.state = (acc.1.lookup b.blockID).getD .zero
  · simp [hsame]
  · rw [if_neg hsame]
    have hold : acc.1.lookup b.blockID ≠ some .finished := by
      intro h
      exact hsame (by rw [hstays h, h]; rfl)
    have hzero : (acc.1.lookup b.blockID).getD .zero ≠ .finished := by
      cases h : acc.1.lookup b.blockID with
      | none => simp [RdsState.zero]
      | some s => rw [h] at hold; simpa using hold
    by_cases hb : b.blockID = blockID
    · subst hb
      by_cases hfin : b.state = .finished <;>
        simp [finishedBit, hfin, hold, hzero, countP_append]
    · have hlookup : ∀ s, (acc.1.insert b.blockID s).lookup blockID = acc.1.lookup blockID :=
        fun s => lookup_insert_ne (Ne.symm hb)
      by_cases hfin : b.state = .finished <;>
        simp [finishedBit, hfin, hb, hzero, hlookup, countP_append]

theorem diffBlock_finished : (diffBlock acc b).1.lookup blockID = some .finished ↔
      acc.1.lookup blockID = some .finished ∨ (b.blockID = blockID ∧ b.state = .finished) := by
  unfold diffBlock
  rw [if_neg hid]
  by_cases hsame : b.state = (acc.1.lookup b.blockID).getD .zero
  · rw [if_pos hsame]
    constructor
    · exact .inl
    · rintro (h | ⟨rfl, hfin⟩)
      · exact h
      · cases h : acc.1.lookup b.blockID with
        | none => simp [h, hfin, RdsState.zero] at hsame
        | some s => rw [h, hfin] at hsame; rw [hsame]; rfl
  · rw [if_neg hsame]
    by_cases hb : b.blockID = blockID
    · subst hb
      simp only [lookup_insert, Option.some.injEq, true_and]
      constructor
      · exact .inr
      · rintro (h | h)
        · exact hstays h
        · exact h
    · rw [lookup_insert_ne (Ne.symm hb)]
      simp [hb]

end

/-- **差分の全体。集めた block は、新しく FINISHED になった block ごとに一つ。** -/
theorem foldl_diffBlock_spec {blocks : List RdsBlock} (hids : ∀ b ∈ blocks, b.blockID ≠ "")
    (hpair : StaysFinished blocks) : ∀ acc : GoMap RdsState × List RdsBlock,
      (∀ b ∈ blocks, acc.1.lookup b.blockID = some .finished → b.state = .finished) →
      ∀ blockID,
        ((blocks.foldl diffBlock acc).2.countP (·.blockID == blockID) + finishedBit acc.1 blockID
          = acc.2.countP (·.blockID == blockID)
            + finishedBit (blocks.foldl diffBlock acc).1 blockID)
        ∧ ((blocks.foldl diffBlock acc).1.lookup blockID = some .finished ↔
            acc.1.lookup blockID = some .finished ∨
              ∃ b ∈ blocks, b.blockID = blockID ∧ b.state = .finished) := by
  induction blocks with
  | nil => simp
  | cons b rest ih =>
    intro acc hstays blockID
    obtain ⟨hb, hids⟩ := forall_mem_cons.mp hids
    obtain ⟨hhead, hpair⟩ := pairwise_cons.mp hpair
    obtain ⟨hstay, hrest⟩ := forall_mem_cons.mp hstays
    have hfinished := diffBlock_finished hb hstay
    have hnext : ∀ x ∈ rest, (diffBlock acc b).1.lookup x.blockID = some .finished →
        x.state = .finished := by
      intro x hx h
      rcases (hfinished x.blockID).mp h with h | ⟨hsame, hfin⟩
      · exact hrest x hx h
      · exact hhead x hx hsame hfin
    obtain ⟨hcount, hlook⟩ := ih hids hpair _ hnext blockID
    have hbit := diffBlock_bit hb hstay blockID
    rw [foldl_cons]
    refine ⟨by omega, ?_⟩
    rw [hlook, hfinished]
    simp only [mem_cons, exists_eq_or_imp, or_assoc]

/-! ## order ごとの不変条件 -/

structure OrderOk (rdsID : String) (w : Poller) : Prop where
  kept : StillTracked rdsID w.log → rdsID ∈ w.active
  clean : rdsID ∉ w.active → rdsID ∉ w.blockStates
  counted : rdsID ∈ w.active → ∀ blockID,
    (history rdsID w.log).countP (·.completes blockID) = finishedBit (w.blocksOf rdsID) blockID
  seen : rdsID ∈ w.active → ∀ blockID, (history rdsID w.log).any (·.showsFinished blockID) = true ↔
    (w.blocksOf rdsID).lookup blockID = some .finished

variable {w : Poller}

theorem OrderOk.blocksTold (h : OrderOk rdsID w) (hactive : rdsID ∈ w.active) :
    BlocksTold rdsID w.log := by
  intro blockID hseen
  rw [h.counted hactive, finishedBit, if_pos ((h.seen hactive blockID).mp hseen)]

structure Untouched (rdsID : String) (w w' : Poller) : Prop where
  active : w'.active.lookup rdsID = w.active.lookup rdsID
  blocks : w'.blockStates.lookup rdsID = w.blockStates.lookup rdsID
  log : ∃ more, w'.log = more ++ w.log ∧ ∀ x ∈ more, x.rdsID ≠ rdsID

theorem mem_congr {ν : Type} {m m' : GoMap ν} (h : m'.lookup rdsID = m.lookup rdsID) :
    rdsID ∈ m' ↔ rdsID ∈ m := by
  rw [← lookup_isSome, ← lookup_isSome, h]

variable {w : Poller} {resolve : String → Option Nat} {w' : Poller} {id : String}
  {detail : RdsOrderDetail} {orderID : Option Nat} {now : Nat} {oldState : RdsState}

theorem OrderOk.of_untouched (h : OrderOk rdsID w) (hu : Untouched rdsID w w') :
    OrderOk rdsID w' := by
  obtain ⟨more, hlog, hother⟩ := hu.log
  have hhist : history rdsID w'.log = history rdsID w.log := by
    rw [hlog]
    exact history_append_other hother
  have hblocks : w'.blocksOf rdsID = w.blocksOf rdsID := by
    unfold blocksOf
    rw [hu.blocks]
  have hmem := mem_congr hu.active
  constructor
  · rintro ⟨htracked, hall⟩
    refine hmem.mpr (h.kept ⟨?_, hhist ▸ hall⟩)
    rw [hlog] at htracked
    rcases mem_append.mp htracked with hm | hm
    · exact absurd rfl (hother _ hm)
    · exact hm
  · rw [hmem, mem_congr hu.blocks]
    exact h.clean
  · rw [hmem, hhist, hblocks]
    exact h.counted
  · rw [hmem, hhist, hblocks]
    exact h.seen

theorem Untouched.trans {w'' : Poller} (h : Untouched rdsID w w') (h' : Untouched rdsID w' w'') :
    Untouched rdsID w w'' := by
  obtain ⟨more, hlog, hother⟩ := h.log
  obtain ⟨more', hlog', hother'⟩ := h'.log
  refine ⟨h'.active.trans h.active, h'.blocks.trans h.blocks, more' ++ more, ?_, ?_⟩
  · rw [hlog', hlog, append_assoc]
  · intro x hx
    rcases mem_append.mp hx with hx | hx
    · exact hother' x hx
    · exact hother x hx

/-! ### 外す・見始める -/

theorem untouched_drop (w : Poller) (hne : rdsID ≠ id) : Untouched rdsID w (w.drop id) :=
  ⟨lookup_erase_ne hne, lookup_erase_ne hne, [], rfl, by simp⟩

theorem untouched_record (w : Poller) (hne : x.rdsID ≠ rdsID) : Untouched rdsID w (w.record x) :=
  ⟨rfl, rfl, [x], rfl, by simpa using hne⟩

theorem orderOk_of_dropped (hid : x.rdsID = rdsID)
    (hends : x.ends = true) : OrderOk rdsID ((w.drop rdsID).record x) := by
  have hout : rdsID ∉ ((w.drop rdsID).record x).active := by
    simp [Poller.record, Poller.drop, mem_erase]
  constructor
  · intro h
    exact absurd h (not_stillTracked_of_ends hid hends)
  · intro _
    simp [Poller.record, Poller.drop, mem_erase]
  · exact fun h => absurd h hout
  · exact fun h => absurd h hout

theorem orderOk_record_of_notMem (h : OrderOk rdsID w) (hout : rdsID ∉ w.active)
    (hid : x.rdsID = rdsID) (hne : x ≠ .tracked rdsID) : OrderOk rdsID (w.record x) := by
  constructor
  · rintro ⟨htracked, hall⟩
    have hold : PollerEntry.tracked rdsID ∈ w.log :=
      (mem_cons.mp htracked).resolve_left (Ne.symm hne)
    have hhist : history rdsID (w.record x).log = x :: history rdsID w.log :=
      history_cons_own hid hne
    rw [hhist] at hall
    exact h.kept ⟨hold, fun y hy => hall y (mem_cons_of_mem x hy)⟩
  · exact h.clean
  · exact fun hin => absurd hin hout
  · exact fun hin => absurd hin hout

theorem orderOk_track (h : ∀ id, OrderOk id w) (id : String) :
    ∀ rdsID, OrderOk rdsID (w.track id) := by
  intro rdsID
  unfold track
  split
  · exact h rdsID
  rename_i hout
  by_cases hid : rdsID = id
  · subst hid
    have hblocks : w.blocksOf rdsID = ∅ := by
      unfold blocksOf
      rw [lookup_eq_none.mpr ((h rdsID).clean hout)]
      rfl
    constructor
    · intro _
      exact (mem_insert _).mpr (.inl rfl)
    · intro hnot
      exact absurd ((mem_insert _).mpr (.inl rfl)) hnot
    · intro _ blockID
      show (history rdsID (.tracked rdsID :: w.log)).countP _ = finishedBit (w.blocksOf rdsID) _
      simp [history_tracked, hblocks, finishedBit]
    · intro _ blockID
      show (history rdsID (.tracked rdsID :: w.log)).any _ = true ↔
        (w.blocksOf rdsID).lookup blockID = _
      simp [history_tracked, hblocks]
  · refine (h rdsID).of_untouched ⟨lookup_insert_ne hid, rfl, [.tracked id], rfl, ?_⟩
    simpa [PollerEntry.rdsID] using Ne.symm hid

theorem orderOk_dropped (h : ∀ id, OrderOk id w) (hends : x.ends = true) :
    ∀ rdsID, OrderOk rdsID ((w.drop x.rdsID).record x) := by
  intro rdsID
  by_cases hid : rdsID = x.rdsID
  · subst hid
    exact orderOk_of_dropped rfl hends
  · exact (h rdsID).of_untouched
      ((untouched_drop w hid).trans (untouched_record _ (Ne.symm hid)))

theorem orderOk_untrack (h : ∀ id, OrderOk id w) (id : String) :
    ∀ rdsID, OrderOk rdsID (w.untrack id) :=
  orderOk_dropped (x := .untracked id) h rfl

/-! ### 期限 -/

theorem orderOk_expire (h : ∀ id, OrderOk id w) (hresolve : resolve id ≠ none) :
    ∀ rdsID, OrderOk rdsID (expire resolve w id) := by
  intro rdsID
  unfold expire
  split
  · next hnone => exact absurd hnone hresolve
  · next orderID _ =>
    exact orderOk_dropped (x := .emitted (.graceExpired orderID id)) h rfl rdsID

theorem orderOk_foldl_expire {ids : List String} (hresolve : ∀ id ∈ ids, resolve id ≠ none)
    {w : Poller} (h : ∀ id, OrderOk id w) :
    ∀ rdsID, OrderOk rdsID (ids.foldl (expire resolve) w) := by
  refine ids.foldlRecOn (motive := fun w : Poller => ∀ id, OrderOk id w) _ h ?_
  intro w h id hid
  exact orderOk_expire h (hresolve id hid)

/-! ### 見に行く -/

def completions (orderID : Nat) (rdsID : String) (blocks : List RdsBlock) : List PollerEntry :=
  blocks.map fun b => .emitted (.blockCompleted orderID rdsID b.blockID b.location b.binTask
    b.startTime b.terminateTime)

theorem emitBlocks_eq (w : Poller) (orderID : Nat) (rdsID : String) (blocks : List RdsBlock) :
    w.emitBlocks orderID rdsID blocks =
      { w with log := (completions orderID rdsID blocks).reverse ++ w.log } := by
  induction blocks generalizing w with
  | nil => rfl
  | cons b blocks ih =>
    show (w.emit _).emitBlocks orderID rdsID blocks = _
    rw [ih]
    simp [completions, emit, record]

theorem countP_completions (orderID : Nat) (blocks : List RdsBlock) (blockID : String) :
    (completions orderID rdsID blocks).countP (·.completes blockID)
      = blocks.countP (·.blockID == blockID) := by
  unfold completions
  rw [countP_map]
  rfl

theorem any_completions (orderID : Nat) (blocks : List RdsBlock) (blockID : String) :
    (completions orderID rdsID blocks).any (·.showsFinished blockID) = false := by
  simp [completions, PollerEntry.showsFinished]

theorem diffBlockStates_spec (w : Poller) (rdsID : String) (detail : RdsOrderDetail)
    (resolve : Option Nat) : let diff := detail.blocks.foldl diffBlock (w.blocksOf rdsID, [])
    let w' := (w.diffBlockStates rdsID detail resolve).1
    w'.active = w.active ∧ w'.blocksOf rdsID = diff.1 ∧
      (∀ id, id ≠ rdsID → w'.blockStates.lookup id = w.blockStates.lookup id) ∧
      w'.log =
        ((resolve.map fun oid => completions oid rdsID diff.2).getD []).reverse ++ w.log := by
  unfold diffBlockStates
  split
  · next hempty =>
    rw [isEmpty_iff.mp hempty]
    cases resolve <;> simp [completions]
  · dsimp only
    generalize detail.blocks.foldl diffBlock (w.blocksOf rdsID, []) = diff
    have hother : ∀ id, id ≠ rdsID →
        (w.blockStates.insert rdsID diff.1).lookup id = w.blockStates.lookup id :=
      fun id hid => lookup_insert_ne hid
    have hown : ((w.blockStates.insert rdsID diff.1).lookup rdsID).getD ∅ = diff.1 := by simp
    split
    · next hnone =>
      rw [isEmpty_iff.mp hnone]
      cases resolve <;> exact ⟨rfl, hown, hother, by simp [completions]⟩
    · cases resolve with
      | none => exact ⟨rfl, hown, hother, rfl⟩
      | some oid =>
        dsimp only
        rw [emitBlocks_eq]
        exact ⟨rfl, hown, hother, rfl⟩

/-- 見に行った答えが、条件を満たす。初めの二つは、FINISHED の block が FINISHED のままであること。 -/
@[mk_iff]
structure FetchOk (w : Poller) (rdsID : String) (detail : RdsOrderDetail)
    (resolve : Option Nat) : Prop where
  stays : StaysFinished detail.blocks
  staysSeen : ∀ b ∈ detail.blocks,
    (history rdsID w.log).any (·.showsFinished b.blockID) = true → b.state = .finished
  named : ∀ b ∈ detail.blocks, b.blockID ≠ ""
  resolved : resolve = none → ∀ b ∈ detail.blocks, b.state = .finished →
    (history rdsID w.log).any (·.showsFinished b.blockID) = true

instance (w : Poller) (rdsID : String) (detail : RdsOrderDetail) (resolve : Option Nat) :
    Decidable (FetchOk w rdsID detail resolve) :=
  decidable_of_iff' _ (fetchOk_iff w rdsID detail resolve)

section Visit

variable {w : Poller} {resolve : Option Nat}

section

variable (h : OrderOk rdsID w) (hactive : rdsID ∈ w.active) (hok : FetchOk w rdsID detail resolve)
include h hactive hok

theorem stays_of_blocksOf : ∀ b ∈ detail.blocks,
      (w.blocksOf rdsID).lookup b.blockID = some .finished → b.state = .finished :=
  fun b hb hfin => hok.staysSeen b hb ((h.seen hactive b.blockID).mpr hfin)

theorem count_told (blockID : String) : ((resolve.map fun oid => completions oid rdsID
        (detail.blocks.foldl diffBlock (w.blocksOf rdsID, [])).2).getD []).countP
          (·.completes blockID) + finishedBit (w.blocksOf rdsID) blockID
      = finishedBit (detail.blocks.foldl diffBlock (w.blocksOf rdsID, [])).1 blockID := by
  obtain ⟨hcount, hlook⟩ := foldl_diffBlock_spec hok.named hok.stays
    (w.blocksOf rdsID, []) (stays_of_blocksOf h hactive hok) blockID
  rw [countP_nil, Nat.zero_add] at hcount
  cases resolve with
  | some oid =>
    rw [← hcount]
    simp [countP_completions]
  | none =>
    -- id が引けないときは、FINISHED の block はどれも前から FINISHED
    have hsame : (detail.blocks.foldl diffBlock (w.blocksOf rdsID, [])).1.lookup blockID
        = some .finished ↔ (w.blocksOf rdsID).lookup blockID = some .finished := by
      rw [hlook]
      constructor
      · rintro (hfin | ⟨b, hb, rfl, hfin⟩)
        · exact hfin
        · exact (h.seen hactive b.blockID).mp (hok.resolved rfl b hb hfin)
      · exact .inl
    simp [finishedBit, hsame]

/-- **見に行った order では、差分の後も記録と map が揃っている。** -/
theorem orderOk_diffBlockStates :
    OrderOk rdsID ((w.record (.fetched rdsID detail)).diffBlockStates rdsID detail resolve).1 := by
  obtain ⟨hact, hblocks, -, hlog⟩ :=
    diffBlockStates_spec (w.record (.fetched rdsID detail)) rdsID detail resolve
  have hold : (w.record (.fetched rdsID detail)).blocksOf rdsID = w.blocksOf rdsID := rfl
  rw [hold] at hblocks hlog
  generalize ((w.record (.fetched rdsID detail)).diffBlockStates rdsID detail resolve).1 = w'
    at hact hblocks hlog ⊢
  have hlook := fun blockID => (foldl_diffBlock_spec hok.named hok.stays
    (w.blocksOf rdsID, []) (stays_of_blocksOf h hactive hok) blockID).2
  have hcount := count_told h hactive hok
  generalize (detail.blocks.foldl diffBlock (w.blocksOf rdsID, [])) = diff at *
  have hin : rdsID ∈ w'.active := by
    rw [hact]
    exact hactive
  have hfetched : history rdsID (w.record (.fetched rdsID detail)).log
      = .fetched rdsID detail :: history rdsID w.log := history_cons_own rfl (by simp)
  have hhist : history rdsID w'.log
      = ((resolve.map fun oid => completions oid rdsID diff.2).getD []).reverse
        ++ .fetched rdsID detail :: history rdsID w.log := by
    rw [hlog, history_append_own]
    · rw [hfetched]
    · cases resolve <;> simp [completions, PollerEntry.rdsID, PollerEvent.rdsOrderID]
  constructor
  · exact fun _ => hin
  · exact fun hout => absurd hin hout
  · intro _ blockID
    rw [hhist, hblocks, ← hcount, ← h.counted hactive]
    simp [countP_append, PollerEntry.completes]
  · intro _ blockID
    rw [hhist, hblocks, hlook, ← h.seen hactive]
    have hnone : ((resolve.map fun oid => completions oid rdsID diff.2).getD []).any
        (·.showsFinished blockID) = false := by
      cases resolve <;> simp [any_completions]
    simp only [any_append, any_reverse, hnone, any_cons, Bool.false_or,
      Bool.or_eq_true]
    rw [or_comm]
    simp [PollerEntry.showsFinished]

end

theorem untouched_diffBlockStates (hne : id ≠ rdsID) : Untouched id w
      ((w.record (.fetched rdsID detail)).diffBlockStates rdsID detail resolve).1 := by
  obtain ⟨hact, -, hblocks, hlog⟩ :=
    diffBlockStates_spec (w.record (.fetched rdsID detail)) rdsID detail resolve
  refine (untouched_record w (x := .fetched rdsID detail) (Ne.symm hne)).trans
    ⟨by rw [hact], hblocks id hne, _, hlog, ?_⟩
  intro x hx
  cases resolve with
  | none => cases hx
  | some oid =>
    obtain ⟨b, -, rfl⟩ := mem_map.mp (mem_reverse.mp hx)
    exact Ne.symm hne

end Visit

/-! ### 状態の変化 -/

section Settle

variable {w : Poller} {x : PollerEntry}

theorem orderOk_of_inert (h : OrderOk rdsID w) (hactive : rdsID ∈ w.active)
    (hactive' : rdsID ∈ w'.active) (hblocks : w'.blockStates = w.blockStates)
    (hlog : w'.log = x :: w.log) (hid : x.rdsID = rdsID) (hne : x ≠ .tracked rdsID)
    (hshows : ∀ b, x.showsFinished b = false) (hcompletes : ∀ b, x.completes b = false) :
    OrderOk rdsID w' := by
  have hhist : history rdsID w'.log = x :: history rdsID w.log := by
    rw [hlog]
    exact history_cons_own hid hne
  have hold : w'.blocksOf rdsID = w.blocksOf rdsID := by
    unfold blocksOf
    rw [hblocks]
  constructor
  · exact fun _ => hactive'
  · exact fun hout => absurd hactive' hout
  · intro _ blockID
    rw [hhist, hold, ← h.counted hactive]
    simp [hcompletes]
  · intro _ blockID
    rw [hhist, hold, ← h.seen hactive]
    simp [hshows]

theorem commit_log (w : Poller) (rdsID : String) (s : RdsState) (now : Nat) :
    (w.commit rdsID s now).log = w.log := by
  unfold commit
  repeat' split
  all_goals rfl

variable {s : RdsState}

theorem commit_of_live (w : Poller) (rdsID : String) (hs : s.isTerminal = false) (now : Nat) :
    rdsID ∈ (w.commit rdsID s now).active ∧
      (w.commit rdsID s now).blockStates = w.blockStates := by
  unfold commit
  split
  · exact ⟨(mem_insert _).mpr (.inl rfl), rfl⟩
  · rw [hs]
    exact ⟨(mem_insert _).mpr (.inl rfl), rfl⟩

theorem commit_of_terminal (hs : s.isTerminal = true) (now : Nat) :
    w.commit rdsID s now = w.drop rdsID := by
  have hfailed : s ≠ .failed := by
    rintro rfl
    cases hs
  unfold commit
  rw [if_neg hfailed, if_pos hs]

theorem untouched_commit (hne : id ≠ rdsID) (s : RdsState) (now : Nat) :
    Untouched id w (w.commit rdsID s now) := by
  unfold commit
  split
  · exact ⟨lookup_insert_ne hne, rfl, [], rfl, by simp⟩
  split
  · exact untouched_drop w hne
  · exact ⟨lookup_insert_ne hne, rfl, [], rfl, by simp⟩

theorem orderOk_settleState (h : OrderOk rdsID w) (hactive : rdsID ∈ w.active) :
    OrderOk rdsID (w.settleState rdsID detail oldState orderID now) := by
  unfold settleState
  split
  · exact h
  split
  · exact h
  · cases hs : detail.state.isTerminal with
    | true =>
      rw [commit_of_terminal hs]
      exact orderOk_of_dropped rfl hs
    | false =>
      obtain ⟨hin, hblocks⟩ := commit_of_live w rdsID hs now
      refine orderOk_of_inert h hactive hin hblocks
        (congrArg _ (commit_log w rdsID detail.state now)) rfl ?_ ?_ ?_
      · simp
      · exact fun _ => rfl
      · exact fun _ => rfl

theorem untouched_settleState (hne : id ≠ rdsID) :
    Untouched id w (w.settleState rdsID detail oldState orderID now) := by
  have hrefl : Untouched id w w := ⟨rfl, rfl, [], rfl, by simp⟩
  unfold settleState
  split
  · exact hrefl
  split
  · exact hrefl
  · exact (untouched_commit hne _ _).trans (untouched_record _ (Ne.symm hne))

end Settle

/-! ## 終わりの知らせ -/

theorem Told.cons (h : Told log)
    (hx : ∀ ev, x = .emitted ev → ev.isTerminal = true → BlocksTold ev.rdsOrderID log) :
    Told (x :: log) := by
  intro ev older hsuffix hterm
  rcases suffix_cons_iff.mp hsuffix with heq | hsuffix
  · obtain ⟨rfl, rfl⟩ := List.cons.inj heq
    exact hx ev rfl hterm
  · exact h ev older hsuffix hterm

theorem Told.append (h : Told log)
    (hmore : ∀ x ∈ more, ∀ ev, x = .emitted ev → ev.isTerminal = false) : Told (more ++ log) := by
  induction more with
  | nil => exact h
  | cons x more ih =>
    obtain ⟨hx, hmore⟩ := forall_mem_cons.mp hmore
    exact (ih hmore).cons fun ev hev hterm => absurd hterm (by simp [hx ev hev])

theorem told_track (h : Told w.log) (id : String) : Told (w.track id).log := by
  unfold track
  split
  · exact h
  · exact h.cons (by simp)

theorem told_foldl_expire (ids : List String) {w : Poller} (h : Told w.log) :
    Told (ids.foldl (expire resolve) w).log := by
  refine ids.foldlRecOn (motive := fun w : Poller => Told w.log) _ h ?_
  intro w h id _
  unfold expire
  split
  · exact h
  refine h.cons ?_
  rintro ev hev hterm
  cases hev
  cases hterm

theorem told_settleState (h : Told w.log) (hok : OrderOk rdsID w) (hactive : rdsID ∈ w.active) :
    Told (w.settleState rdsID detail oldState orderID now).log := by
  unfold settleState
  split
  · exact h
  split
  · exact h
  have hlog := commit_log w rdsID detail.state now
  show Told (_ :: (w.commit rdsID detail.state now).log)
  rw [hlog]
  refine h.cons ?_
  rintro ev hev -
  cases hev
  exact hok.blocksTold hactive

/-! ## 一歩 -/

/-- 記録と map が揃っていて、終わりの知らせの前に block の知らせが済んでいる。 -/
structure PollInv (w : Poller) : Prop where
  orders : ∀ rdsID, OrderOk rdsID w
  told : Told w.log

/-- 期限の切れた order の id は引け、新しく FINISHED になった block の order の id も引ける。 -/
def PollOk (w : Poller) : PollerAction → Prop
  | .poll now _ resolve =>
    ∀ rdsID ∈ w.faultedDeadline.keys, w.expired now rdsID = true → resolve rdsID ≠ none
  | .visit (some detail) resolve _ =>
    ∀ rdsID ∈ w.queue.head?, rdsID ∈ w.active → FetchOk w rdsID detail resolve
  | _ => True

instance (w : Poller) : ∀ a, Decidable (PollOk w a)
  | .poll _ _ _ => inferInstanceAs (Decidable (∀ _ ∈ _, _ → _))
  | .visit (some _) _ _ => inferInstanceAs (Decidable (∀ _ ∈ _, _ → _))
  | .visit none _ _ | .track _ | .untrack _ | .setGraceDuration _ => .isTrue trivial

theorem PollInv.visit {resolve : Option Nat} (h : PollInv w)
    (hok : rdsID ∈ w.active → FetchOk w rdsID detail resolve) :
    PollInv (w.visit rdsID (some detail) resolve now) := by
  have htold : Told (w.record (.fetched rdsID detail)).log := h.told.cons (by simp)
  unfold Poller.visit
  dsimp only
  split
  · next hnone =>
    have hout : rdsID ∉ w.active := lookup_eq_none.mp hnone
    refine ⟨fun id => ?_, htold⟩
    by_cases hid : id = rdsID
    · subst hid
      exact orderOk_record_of_notMem (h.orders id) hout rfl (by simp)
    · exact (h.orders id).of_untouched (untouched_record w (Ne.symm hid))
  · next oldState hsome =>
    have hactive : rdsID ∈ w.active := by
      rw [← lookup_isSome]
      exact Option.isSome_of_eq_some hsome
    have hdiff := orderOk_diffBlockStates (h.orders rdsID) hactive (hok hactive)
    obtain ⟨hact, -, -, hlog⟩ :=
      diffBlockStates_spec (w.record (.fetched rdsID detail)) rdsID detail resolve
    have hactive' : rdsID ∈
        ((w.record (.fetched rdsID detail)).diffBlockStates rdsID detail resolve).1.active := by
      rw [hact]
      exact hactive
    refine ⟨fun id => ?_, told_settleState ?_ hdiff hactive'⟩
    · by_cases hid : id = rdsID
      · subst hid
        exact orderOk_settleState hdiff hactive'
      · exact (h.orders id).of_untouched
          ((untouched_diffBlockStates hid).trans (untouched_settleState hid))
    · rw [hlog]
      refine htold.append ?_
      intro x hx ev hev
      cases resolve with
      | none => cases hx
      | some oid =>
        obtain ⟨b, -, rfl⟩ := mem_map.mp (mem_reverse.mp hx)
        cases hev
        rfl

theorem PollInv.step {a : PollerAction} (h : PollInv w) (hok : PollOk w a) :
    PollInv (pollerStep w a) := by
  cases a with
  | track rdsID => exact ⟨orderOk_track h.orders rdsID, told_track h.told rdsID⟩
  | untrack rdsID => exact ⟨orderOk_untrack h.orders rdsID, h.told.cons (by simp)⟩
  | setGraceDuration d =>
    exact ⟨fun rdsID => (h.orders rdsID).of_untouched ⟨rfl, rfl, [], rfl, by simp⟩, h.told⟩
  | poll now order resolve =>
    unfold pollerStep
    dsimp only
    split
    · have hresolve : ∀ rdsID ∈ (order.visit w.faultedDeadline.keys).filter (w.expired now),
          resolve rdsID ≠ none := by
        intro rdsID hid
        obtain ⟨hid, hexp⟩ := mem_filter.mp hid
        exact hok rdsID (order.mem_visit.mp hid) hexp
      have horders := orderOk_foldl_expire hresolve h.orders
      exact ⟨fun rdsID => (horders rdsID).of_untouched ⟨rfl, rfl, [], rfl, by simp⟩,
        told_foldl_expire _ h.told⟩
    · exact h
  | visit fetch resolve now =>
    unfold pollerStep
    dsimp only
    split
    · exact h
    rename_i rdsID rest hqueue
    have hrest : PollInv { w with queue := rest } :=
      ⟨fun id => (h.orders id).of_untouched ⟨rfl, rfl, [], rfl, by simp⟩, h.told⟩
    cases fetch with
    | none => exact hrest
    | some detail =>
      refine hrest.visit fun hactive => ?_
      have hfetch : FetchOk w rdsID detail resolve :=
        hok rdsID (by simp [hqueue]) hactive
      exact ⟨hfetch.stays, hfetch.staysSeen, hfetch.named, hfetch.resolved⟩

/-- **poller は何も落とさない。** -/
theorem poller_drops_nothing (graceDuration : Nat) (acts : List PollerAction)
    (hok : AllSteps pollerStep PollOk { graceDuration } acts) :
    ∀ w ∈ visited pollerStep { graceDuration } acts, NothingDropped w := by
  intro w hw
  have hstart : PollInv { graceDuration } := by
    refine ⟨fun rdsID => ⟨?_, ?_, ?_, ?_⟩, ?_⟩
    · rintro ⟨htracked, -⟩
      cases htracked
    · exact fun _ => notMem_empty rdsID
    · exact fun h => absurd h (notMem_empty rdsID)
    · exact fun h => absurd h (notMem_empty rdsID)
    · intro ev older hsuffix
      exact absurd (suffix_nil.mp hsuffix) (by simp)
  have hinv := AllSteps.visited_of_inv (fun _ _ => PollInv.step) hstart hok w hw
  exact ⟨fun rdsID => (hinv.orders rdsID).kept, hinv.told⟩

/-! ## 一つの order の三度の poll -/

def pollOnce (now : Nat) (detail : RdsOrderDetail) (resolve : Option Nat) : List PollerAction :=
  [.poll now .asStored fun _ => resolve, .visit (some detail) resolve now]

def snapshot (state : RdsState) (blockID : String) (blockState : RdsState) : RdsOrderDetail :=
  { state, vehicle := "AMR-01", blocks := [{ blockID, state := blockState }] }

def resolvedLater : List PollerAction :=
  .track "rds-1" :: pollOnce 1 (snapshot .running "b1" .running) none
    ++ pollOnce 2 (snapshot .running "b1" .finished) (some 7)
    ++ pollOnce 3 (snapshot .finished "b1" .finished) (some 7)

theorem poller_drops_nothing_resolvedLater :
    AllSteps pollerStep PollOk { graceDuration := 10 } resolvedLater ∧
      ∀ w ∈ visited pollerStep { graceDuration := 10 } resolvedLater, NothingDropped w := by
  refine ⟨?ok, poller_drops_nothing 10 resolvedLater ?ok⟩
  decide +kernel

def blockUnresolved : List PollerAction :=
  .track "rds-1" :: pollOnce 1 (snapshot .running "b1" .finished) none
    ++ pollOnce 2 (snapshot .finished "b1" .finished) (some 7)

def blockUnnamed : List PollerAction :=
  .track "rds-1" :: pollOnce 1 (snapshot .finished "" .finished) (some 7)

def expiryUnresolved : List PollerAction :=
  .track "rds-1" :: pollOnce 1 (snapshot .failed "b1" .running) (some 7)
    ++ [.poll 20 .asStored fun _ => none]

def pollerAfter (acts : List PollerAction) : Poller :=
  runSteps pollerStep { graceDuration := 10 } acts

def FinishedUntold (blockID : String) (w : Poller) : Prop :=
  (∃ x ∈ w.log.head?, x.ends = true ∧ x.rdsID = "rds-1") ∧
    (history "rds-1" w.log).any (·.showsFinished blockID) = true ∧
    (history "rds-1" w.log).countP (·.completes blockID) = 0
  deriving Decidable

/-- 終わりの状態を知らせたのに、block の知らせが無い。期限の切れた order が、知らせずに消える。 -/
theorem poller_drops_events :
    FinishedUntold "b1" (pollerAfter blockUnresolved)
      ∧ FinishedUntold "" (pollerAfter blockUnnamed)
      ∧ StillTracked "rds-1" (pollerAfter expiryUnresolved).log
      ∧ "rds-1" ∉ (pollerAfter expiryUnresolved).active := by
  decide +kernel

end Shingo.Core
