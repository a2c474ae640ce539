import Mathlib.Data.List.Nodup
import Mathlib.Data.List.TakeWhile
import Shingo.Protocol.Drainer

/-!
# 試行の回数は時間で減る

知らせがいくつ来ても、出せなかった回数は、最初に出せなかった後の ticker の一巡の数より
一つ多いだけ。

出せなかった一巡は必ず `muted` を立て、それを下ろせるのは ticker の一巡だけなので、二回目からの
失敗のそれぞれに、別の ticker の一巡が一つ要る。
-/

namespace Shingo.Protocol

open Infra List

def failures (id : Nat) (log : List DrainEvent) : Nat := log.count (.failed id)

def ticksSince (id : Nat) (log : List DrainEvent) : Nat :=
  (log.dropWhile (· ≠ .failed id)).count .tick

variable {id : Nat} {events : List DrainEvent}

section

variable {log : List DrainEvent}

theorem ticksSince_append (h : failures id log ≠ 0) :
    ticksSince id (log ++ events) = ticksSince id log + events.count .tick := by
  have hmem : DrainEvent.failed id ∈ log := count_pos_iff.mp (Nat.pos_of_ne_zero h)
  have hne : (log.dropWhile (· ≠ .failed id)).isEmpty = false := by
    rw [isEmpty_eq_false_iff, ne_eq, dropWhile_eq_nil_iff]
    intro hall
    simpa using hall _ hmem
  unfold ticksSince
  rw [dropWhile_append, hne, if_neg (by simp), count_append]

theorem failures_append : failures id (log ++ events) = failures id log + failures id events :=
  count_append

end

/-! ## 一巡 -/

theorem publishAll_log (outcome : Nat → PublishOutcome) (ids : List Nat) (d : Drainer)
    (failed : Bool) : (Drainer.publishAll outcome ids (d, failed)).1.log =
        d.log ++ (ids.filter fun i => !(outcome i).ok).map .failed ∧
      (Drainer.publishAll outcome ids (d, failed)).2 =
        (failed || !(ids.filter fun i => !(outcome i).ok).isEmpty) := by
  induction ids generalizing d failed with
  | nil => simp [Drainer.publishAll]
  | cons id rest ih =>
    obtain ⟨hlog, hfailed⟩ := ih (d.publishOne id (outcome id)).1
      (if (outcome id).ok then failed else true)
    refine ⟨hlog.trans ?_, hfailed.trans ?_⟩
    · cases hok : (outcome id).ok <;> simp [Drainer.publishOne, hok]
    · cases hok : (outcome id).ok <;> simp [hok]

/-- **一巡で出せなかった行は互いに違い、一つでもあれば `muted` になる。** -/
theorem drain_log (d : Drainer) (pass : DrainPass) :
    ∃ ids : List Nat, ids.Nodup ∧ (d.drainAndMute pass).log = d.log ++ ids.map .failed ∧
      (d.drainAndMute pass).muted = !ids.isEmpty := by
  unfold Drainer.drainAndMute Drainer.drain
  split
  · exact ⟨[], nodup_nil, (append_nil _).symm, rfl⟩
  split
  · exact ⟨[], nodup_nil, (append_nil _).symm, rfl⟩
  obtain ⟨hlog, hfailed⟩ := publishAll_log pass.outcome d.listPendingOutbox d false
  refine ⟨_, ?_, hlog, hfailed⟩
  exact ((nodup_range.filter _).sublist (take_sublist _ _)).filter _

/-! ## 輪 -/

/-- 失敗は ticker の一巡より一つ多いだけで、`muted` でなければ多くもない。 -/
structure Spent (id : Nat) (d : Drainer) : Prop where
  bound : failures id d.log ≤ 1 + ticksSince id d.log
  quiet : d.muted = false → failures id d.log ≤ ticksSince id d.log

theorem Spent.drain {d d' : Drainer} (h : Spent id d) (hlog : d'.log = d.log ++ events)
    (hnone : failures id events = 0) (hpaid : d.muted = false ∨ events.count .tick = 1)
    (pass : DrainPass) : Spent id (d'.drainAndMute pass) := by
  obtain ⟨ids, hnodup, hend, hmuted⟩ := drain_log d' pass
  have hinj : Function.Injective DrainEvent.failed := fun _ _ he => DrainEvent.failed.inj he
  have hone : failures id (ids.map .failed) ≤ 1 :=
    nodup_iff_count_le_one.mp (hnodup.map hinj) _
  have htick : (ids.map DrainEvent.failed).count .tick = 0 := by simp [count_eq_zero]
  have hfail : failures id (d'.drainAndMute pass).log =
      failures id d.log + failures id (ids.map .failed) := by
    rw [hend, hlog, failures_append, failures_append, hnone, Nat.add_zero]
  have hids : (d'.drainAndMute pass).muted = false → failures id (ids.map .failed) = 0 := by
    rw [hmuted]
    intro hempty
    have hnil : ids = [] := by simpa using hempty
    rw [hnil]
    rfl
  by_cases hfirst : failures id d.log = 0
  · constructor
    · omega
    · intro hq
      have := hids hq
      omega
  · have hticks : ticksSince id (d'.drainAndMute pass).log =
        ticksSince id d.log + events.count .tick := by
      rw [hend, hlog, append_assoc, ticksSince_append hfirst, count_append, htick,
        Nat.add_zero]
    have hbound := h.bound
    constructor
    · rcases hpaid with hq | ht
      · have := h.quiet hq
        omega
      · omega
    · intro hq
      have hzero := hids hq
      rcases hpaid with hq | ht
      · have := h.quiet hq
        omega
      · omega

theorem Spent.step {d : Drainer} (h : Spent id d) (a : DrainAction) :
    Spent id (drainerStep d a) := by
  cases a with simp only [drainerStep]
  | enqueue | requeue i | notify | stop => exact ⟨h.bound, h.quiet⟩
  | wake settled pass =>
    split
    · exact h
    split
    · exact ⟨h.bound, h.quiet⟩
    rename_i hmuted
    split
    · have hlog : { d with wake := false }.log = d.log ++ [] := (append_nil _).symm
      exact h.drain hlog rfl (Or.inl (by simpa using hmuted)) pass
    · exact ⟨h.bound, h.quiet⟩
  | tick pass =>
    split
    · exact h
    · exact h.drain rfl rfl (Or.inr rfl) pass

/-- **失敗の回数は、最初の失敗の後の ticker の一巡の数より、多くて一つ多い。** -/
theorem retries_spent_on_ticks (size limit : Nat) (rows : Nat → OutboxRow)
    (acts : List DrainAction) (id : Nat) :
    ∀ d ∈ visited drainerStep { size, rows, limit } acts,
      failures id d.log ≤ 1 + ticksSince id d.log := by
  have hstart : Spent id { size, rows, limit } := ⟨Nat.zero_le _, fun _ => Nat.zero_le _⟩
  intro d hd
  exact (visited_of_inv (fun _ a h => h.step a) hstart d hd).bound

def wakesWhileDown : List DrainAction :=
  let down : DrainPass := { outcome := fun _ => .failed false }
  [.enqueue, .notify, .wake true down, .notify, .wake true down,
    .tick { down with connected := false }, .notify, .wake true down]

theorem retries_spent_on_ticks_wakesWhileDown :
    failures 0 (runSteps drainerStep { size := 0, rows := fun _ => .fresh, limit := 50 }
      wakesWhileDown).log = 2 ∧
    2 ≤ 1 + ticksSince 0 (runSteps drainerStep { size := 0, rows := fun _ => .fresh, limit := 50 }
      wakesWhileDown).log := by
  have hcount : failures 0 (runSteps drainerStep
      { size := 0, rows := fun _ => .fresh, limit := 50 } wakesWhileDown).log = 2 := by
    decide +kernel
  refine ⟨hcount, ?_⟩
  rw [← hcount]
  exact retries_spent_on_ticks 0 50 _ wakesWhileDown 0 _ (mem_visited_runSteps _ _)

end Shingo.Protocol
