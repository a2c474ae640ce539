import Mathlib
import Shingo.Dispatch.BinSource

/-!
# loader に渡す bin は並びによらない

`less` は辞書式の順 `rank` で、`source` は使える候補の最小のもの（`argmin`）。
-/

namespace Shingo.Dispatch

open List

variable {w : Want}

/-- 順位。fill では空の bin が最後で、古さを見ない。 -/
def rank (w : Want) (c : Cand) : Nat ×ₗ Int ×ₗ Nat :=
  if w.intent = .fill ∧ isEmpty c then toLex (1, toLex (0, c.binID))
  else toLex (0, toLex (effectiveTime c, c.binID))

theorem less_iff {a b : Cand} : less w a b = true ↔ rank w a < rank w b := by
  unfold less rank
  by_cases hi : w.intent = .fill <;> cases ha : isEmpty a <;> cases hb : isEmpty b <;>
    simp [hi, Prod.Lex.toLex_lt_toLex]
  all_goals split <;> simp_all

theorem binID_of_rank {a b : Cand} (h : rank w a = rank w b) : a.binID = b.binID := by
  unfold rank at h
  split at h <;> split at h <;> simp_all

def usable (w : Want) (cands : List Cand) : List Cand :=
  cands.filter fun c => rejectReason c w = ""

theorem source_eq_argmin (cands : List Cand) :
    source w cands = argmin (rank w) (usable w cands) := by
  unfold source usable argmin
  rw [foldl_filter]
  congr
  funext best c
  cases best <;> simp [argAux, less_iff]

theorem mem_source {cands : List Cand} (hids : (cands.map (·.binID)).Nodup) {m : Cand} :
    m ∈ source w cands ↔
      m ∈ usable w cands ∧ ∀ c ∈ usable w cands, rank w m ≤ rank w c := by
  rw [source_eq_argmin, mem_argmin_iff]
  refine and_congr_right fun hm => and_iff_left_of_imp fun hmin c hc hle => ?_
  have hid := binID_of_rank (le_antisymm (hmin c hc) hle)
  rw [inj_on_of_nodup_map hids (mem_of_mem_filter hm) (mem_of_mem_filter hc) hid]

/-- **渡すのは、使える候補のうち順位が一番前のもので、候補の並びによらない。** -/
theorem source_order_independent (w : Want) (cands : List Cand)
    (hids : (cands.map (·.binID)).Nodup) :
    ((source w cands).isSome = true ↔ ∃ c ∈ cands, rejectReason c w = "")
      ∧ (∀ best ∈ source w cands, best ∈ cands ∧ rejectReason best w = ""
          ∧ ∀ c ∈ cands, rejectReason c w = "" → c ≠ best → less w best c = true)
      ∧ ∀ cands', cands'.Perm cands → source w cands' = source w cands := by
  refine ⟨?_, fun best hbest => ?_, fun cands' hperm => ?_⟩
  · simp [source_eq_argmin, Option.isSome_iff_ne_none, argmin_eq_none, usable]
  · obtain ⟨hmem, hmin⟩ := (mem_source hids).mp hbest
    obtain ⟨hb, hok⟩ := mem_filter.mp hmem
    refine ⟨hb, by simpa using hok, fun c hc hcok hne => less_iff.mpr ?_⟩
    refine lt_of_le_of_ne (hmin c (mem_filter.mpr ⟨hc, by simpa using hcok⟩)) fun heq => ?_
    exact hne (inj_on_of_nodup_map hids hc hb (binID_of_rank heq).symm)
  · refine Option.ext fun m => ?_
    have hmem : ∀ {c}, c ∈ usable w cands' ↔ c ∈ usable w cands := (hperm.filter _).mem_iff
    rw [← Option.mem_def, ← Option.mem_def, mem_source hids,
      mem_source ((hperm.map _).nodup_iff.mpr hids)]
    simp only [hmem]

theorem source_order_independent_fill :
    source ⟨"X", .fill⟩ [{ binID := 1 }, { binID := 2, payload := "X", uop := 3, cap := 9 }] =
      source ⟨"X", .fill⟩ [{ binID := 2, payload := "X", uop := 3, cap := 9 }, { binID := 1 }] :=
  (source_order_independent ⟨"X", .fill⟩ _ (by decide)).2.2 _ (.swap _ _ _)

end Shingo.Dispatch
