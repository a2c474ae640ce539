import Shingo.Core.CountTx
import Shingo.Infra.Run

/-!
# 数の台帳は鎖になるか

前の数は lock の前に読まれる。読んでから書くまでの間に、ほかの transaction が commit しなければ、
row の前の数は、いつも一つ前の row の後の数である。
-/

namespace Shingo.Core

open Infra

def Chained (a : Int) : List CountRow → Int → Prop
  | [], b => a = b
  | r :: rows, b => r.before = a ∧ Chained r.after rows b

variable {a b start : Int} {rows : List CountRow}

theorem Chained.append {c : Int} {rows' : List CountRow} (h : Chained a rows b)
    (h' : Chained b rows' c) : Chained a (rows ++ rows') c := by
  induction rows generalizing a with
  | nil =>
    obtain rfl : a = b := h
    exact h'
  | cons r rows ih => exact ⟨h.1, ih h.2⟩

theorem Chained.isChain (h : Chained a rows b) : rows.IsChain fun r s => s.before = r.after := by
  induction rows generalizing a with
  | nil => exact .nil
  | cons r rows ih =>
    cases rows with
    | nil => exact .singleton r
    | cons s rows => exact .cons_cons h.2.1 (ih h.2)

theorem CountOp.chained_write (op : CountOp) (uop : Int) :
    Chained uop (op.write uop uop).1 (op.write uop uop).2 := by
  cases op with
  | set n => exact ⟨rfl, rfl⟩
  | add delta captures =>
    simp only [write]
    split
    · exact ⟨rfl, rfl, rfl⟩
    · exact ⟨rfl, rfl⟩

def CountTx.Holds (uop : Int) (lock : Option Nat) (i : Nat) : CountTx → Prop
  | .idle => True
  | .seen _ before => before = uop
  | .wrote rows after => lock = some i ∧ Chained uop rows after

def LedgerTxInv (start : Int) (w : LedgerTxWorld) : Prop :=
  Chained start w.ledger w.uop ∧ ∀ i, (w.txs i).Holds w.uop w.lock i

theorem LedgerTxInv.goto {w : LedgerTxWorld} {i : Nat} {tx : CountTx}
    (hchain : Chained start w.ledger w.uop) (htx : tx.Holds w.uop w.lock i)
    (hothers : ∀ j ≠ i, (w.txs j).Holds w.uop w.lock j) : LedgerTxInv start (w.goto i tx) := by
  refine ⟨hchain, fun j => ?_⟩
  by_cases hj : j = i
  · subst hj
    simpa [LedgerTxWorld.goto] using htx
  · simpa [LedgerTxWorld.goto, hj] using hothers j hj

/-- commit は、読んでまだ書いていない transaction の無い時にだけある。 -/
def CommitsUnread (w : LedgerTxWorld) : LedgerTxAction → Prop
  | .commit _ => ∀ i op uop, w.txs i ≠ .seen op uop
  | _ => True

theorem LedgerTxInv.step (w : LedgerTxWorld) (a : LedgerTxAction) (h : LedgerTxInv start w)
    (hok : CommitsUnread w a) : LedgerTxInv start (countTxStep w a) := by
  have ⟨hchain, htxs⟩ := h
  cases a with simp only [countTxStep]
  | read i op =>
    split
    · exact .goto hchain rfl fun j _ => htxs j
    · exact h
  | update i =>
    split
    · next op seen heq hlock =>
      have hseen := htxs i
      rw [heq] at hseen
      obtain rfl : seen = w.uop := hseen
      refine .goto hchain ⟨rfl, op.chained_write w.uop⟩ fun j _ => ?_
      have hj := htxs j
      cases htx : w.txs j with rw [htx, hlock] at hj
      | idle | seen _ _ => exact hj
      | wrote _ _ => cases hj.1
    · exact h
  | commit i =>
    split
    · next rows uop heq =>
      have hrows := htxs i
      rw [heq] at hrows
      refine .goto (hchain.append hrows.2) trivial fun j hne => ?_
      have hj := htxs j
      cases htx : w.txs j with rw [htx] at hj
      | idle => trivial
      | seen op n => exact absurd htx (hok j op n)
      | wrote _ _ => exact absurd (Option.some.inj (hj.1.symm.trans hrows.1)) hne
    · exact h
  | rollback i =>
    refine .goto hchain trivial fun j hne => ?_
    have hj := htxs j
    cases htx : w.txs j with rw [htx] at hj
    | idle | seen _ _ => exact hj
    | wrote _ _ => exact ⟨(if_neg (by simp [hj.1, hne])).trans hj.1, hj.2⟩

/-- **読んでから書くまでの間に commit が無ければ、台帳は鎖になる。** -/
theorem ledger_chained (start : Int) (as : List LedgerTxAction)
    (hok : AllSteps countTxStep CommitsUnread { uop := start } as) :
    (runSteps countTxStep { uop := start } as).ledger.IsChain fun r s => s.before = r.after := by
  have hstart : LedgerTxInv start { uop := start } := ⟨rfl, fun _ => trivial⟩
  have hinv := AllSteps.visited_of_inv LedgerTxInv.step hstart hok _ (mem_visited_runSteps _ _)
  exact hinv.1.isChain

def inTurn : List LedgerTxAction :=
  [.read 0 (.applyBinUOPDelta (-3) false), .update 0, .commit 0,
   .read 1 .clearForReuse, .update 1, .commit 1]

theorem ledger_chained_inTurn :
    (runSteps countTxStep { uop := 10 } inTurn).ledger = [⟨10, 7⟩, ⟨7, 0⟩] ∧
      (runSteps countTxStep { uop := 10 } inTurn).ledger.IsChain fun r s => s.before = r.after := by
  refine ⟨rfl, ledger_chained 10 inTurn ⟨trivial, trivial, ?_, trivial, trivial, ?_, trivial⟩⟩ <;>
    intro i _ _ <;> simp [countTxStep, LedgerTxWorld.goto, Function.update_apply] <;> grind

/-- 片付けが前の数を読んでから書くまでに、delta が commit する。 -/
theorem ledger_broken_by_delta :
    (runSteps countTxStep { uop := 10 }
      [.read 1 .clearForReuse, .read 0 (.applyBinUOPDelta (-3) false), .update 0, .commit 0,
       .update 1, .commit 1]).ledger = [⟨10, 7⟩, ⟨10, 0⟩] :=
  rfl

end Shingo.Core
