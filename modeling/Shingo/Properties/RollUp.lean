import Mathlib.Order.Nat
import Shingo.Core.RobotConfidence

/-!
# 標本の数え落とし

`RollUp` が読んだ標本は、どれかの数に入って保存される。ただし自己位置を失った標本は lane の行
でしか数えないので、lane の key を作れる所にいたものに限る。どの数も一歩で減らないから、走査の
途中で増えた数は最後まで残る。
-/

namespace Shingo.Core.RobotConfidence

/-- 保存される数。lane の数は書かれた行から読み、行が無ければ 0。 -/
def Counts.stored (r : Counts) : Counts
  | .laneMismatch key => ((r.laneDaily key).map (·.mapMismatchSamples)).getD 0
  | .segFailed key => ((r.laneDaily key).map (·.relocFailedSamples)).getD 0
  | .laneAll key => ((r.laneDaily key).map (·.samples)).getD 0
  | t => r t

theorem stored_eq (r : Counts) : r.stored = r := by
  funext t
  unfold Counts.stored Counts.laneDaily
  split <;> first | rfl | split <;> simp_all

variable {sc : Scene} {r : Counts} {s : RawSample} {t : Tally}

theorem le_bump : r ≤ r.bump t :=
  le_update_self_iff.mpr (Nat.le_succ _)

theorem lt_bump : r t < r.bump t t := by
  rw [Counts.bump, Function.update_self]
  exact Nat.lt_succ_self _

theorem le_gates : r ≤ sc.gates r s := by
  unfold Scene.gates
  repeat' split
  all_goals first | exact le_rfl | exact le_bump | exact le_bump.trans le_bump

/-- 辺の上の標本で増える数。 -/
theorem bump_le_gates (hseg : (sc.nearest s.x s.y).isSome)
    (h : sc.foreign s = false → s.relocStatus = 0 → (sc.laneKey s).isSome) :
    ∃ t ≠ .samplesRead, r.bump t ≤ sc.gates r s := by
  obtain ⟨seg, hseg⟩ := Option.isSome_iff_exists.mp hseg
  unfold Scene.gates
  rw [hseg]
  split
  · refine ⟨.mapMismatch, nofun, ?_⟩
    split
    · exact le_rfl
    · exact le_bump
  next hown =>
  split
  · next hfailed =>
    obtain ⟨key, hkey⟩ := Option.isSome_iff_exists.mp (h (Bool.eq_false_iff.mpr hown) hfailed)
    rw [hkey]
    exact ⟨.segFailed key, nofun, le_rfl⟩
  split
  · exact ⟨.unattributedSamples, nofun, le_rfl⟩
  dsimp only
  split
  · exact ⟨.unkeyableSamples, nofun, le_rfl⟩
  split
  · exact ⟨.unversionedSamples, nofun, le_rfl⟩
  · exact ⟨.laneAll _, nofun, le_rfl⟩

theorem le_scan : r ≤ sc.scan r s := by
  refine le_trans ?_ le_gates
  split
  · exact le_bump.trans le_bump
  · exact le_bump

theorem le_foldl (post : List RawSample) : r ≤ post.foldl sc.scan r := by
  induction post generalizing r with
  | nil => exact le_rfl
  | cons s post ih => exact le_scan.trans ih

/-- **一歩**：条件を満たす標本を読むと、どれかの数が増える。 -/
theorem scan_counts (h : sc.foreign s = false → s.relocStatus = 0 →
      (sc.nearest s.x s.y).isSome → (sc.laneKey s).isSome) :
    ∃ t ≠ .samplesRead, r t < sc.scan r s t := by
  unfold Scene.scan
  cases hseg : (sc.nearest s.x s.y).isNone with
  | true =>
    -- 辺の外の標本は、自己位置の状態によらず orphan に入る
    exact ⟨.orphans, nofun, (le_bump _).trans_lt (lt_bump.trans_le (le_gates _))⟩
  | false =>
    have hsome : (sc.nearest s.x s.y).isSome := by simpa using hseg
    obtain ⟨t, ht, hle⟩ := bump_le_gates (r := r.bump .samplesRead) hsome
      fun hown hfailed => h hown hfailed hsome
    exact ⟨t, ht, (le_bump t).trans_lt (lt_bump.trans_le (hle t))⟩

/-- 自己位置を失い、lane の key も作れない標本では、読んだ数だけが増える。 -/
theorem scan_uncounted (hown : sc.foreign s = false) (hfailed : s.relocStatus = 0)
    (hseg : (sc.nearest s.x s.y).isSome) (hkey : sc.laneKey s = none) :
    sc.scan r s = r.bump .samplesRead := by
  obtain ⟨seg, hseg⟩ := Option.isSome_iff_exists.mp hseg
  simp [Scene.scan, Scene.gates, hseg, hown, hfailed, hkey]

/-- **読んだ標本が数に入るのは、自己位置を失った標本が lane の key を作れる所にいるとき。**
増えた数は、後の標本を読んでも残る。 -/
theorem rollUp_counts (sc : Scene) (pre post : List RawSample) (s : RawSample) :
    (∃ t ≠ .samplesRead, (sc.rollUp pre).stored t < (sc.rollUp (pre ++ [s])).stored t ∧
      (sc.rollUp (pre ++ [s])).stored t ≤ (sc.rollUp (pre ++ s :: post)).stored t) ↔
    (sc.foreign s = false → s.relocStatus = 0 →
      (sc.nearest s.x s.y).isSome → (sc.laneKey s).isSome) := by
  have hstep : sc.rollUp (pre ++ [s]) = sc.scan (sc.rollUp pre) s := List.foldl_concat ..
  have hrest : sc.rollUp (pre ++ s :: post) = post.foldl sc.scan (sc.scan (sc.rollUp pre) s) :=
    List.foldl_append
  rw [stored_eq, stored_eq, stored_eq, hstep, hrest]
  constructor
  · rintro ⟨t, ht, hlt, -⟩ hown hfailed hseg
    by_contra hkey
    rw [scan_uncounted hown hfailed hseg (Option.not_isSome_iff_eq_none.mp hkey), Counts.bump,
      Function.update_of_ne ht] at hlt
    exact absurd hlt (Nat.lt_irrefl _)
  · intro h
    obtain ⟨t, ht, hlt⟩ := scan_counts (r := sc.rollUp pre) h
    exact ⟨t, ht, hlt, le_foldl post t⟩

/-- 名のない辺しかない場面。 -/
def unnamedScene : Scene := ⟨"", fun _ _ => some ⟨"A", "", ""⟩, fun _ _ _ => some 1⟩

/-- 名のない辺の上で自己位置を失った標本は、どの数にも入らない。 -/
theorem rollUp_failed_uncounted :
    ¬ ∃ t ≠ .samplesRead, (unnamedScene.rollUp []).stored t <
      (unnamedScene.rollUp [{ relocStatus := 0 }]).stored t := by
  rintro ⟨t, ht, hlt⟩
  rw [stored_eq, stored_eq] at hlt
  cases t <;> first | exact ht rfl | exact absurd hlt (Nat.lt_irrefl _)

end Shingo.Core.RobotConfidence
