import Mathlib.Data.List.Basic
import Mathlib.Logic.Function.Basic

/-!
# bin の数を書く transaction

`shingo-core` の `service/bin_manifest.go` と `uop/applier.go`（`ApplyBinUOPDelta`）のうち、
一つの bin の `uop_remaining` と `bin_uop_ledger` の row。

どれも素の `SELECT` で前の数を読み、`UPDATE` で書き、row を足して commit する。分離は
read committed で、読みは commit された数を見る。`UPDATE` は bin の row の lock を取り、後の文は
その下にあるので一歩にする。
-/

namespace Shingo.Core

/-- `add` の `captures` は、reason が capture_reduction で、空になった bin を片付けること。 -/
inductive CountOp where
  | set (uop : Int)
  | add (delta : Int) (captures : Bool)

def CountOp.clearForReuse : CountOp := .set 0

def CountOp.setForProduction (uop : Int) : CountOp := .set uop

def CountOp.syncOrClearForReleased (remainingUOP : Nat) : CountOp := .set remainingUOP

def CountOp.applyBinUOPDelta (delta : Int) (captures : Bool) : CountOp := .add delta captures

structure CountRow where
  before : Int
  after : Int
  deriving DecidableEq

/-- 読んだ数 `seen` と `UPDATE` の時の数 `uop` から、足す row と書く数。 -/
def CountOp.write (seen uop : Int) : CountOp → List CountRow × Int
  | .set n => ([⟨seen, n⟩], n)
  | .add delta captures =>
    -- 片付けは、自分の書いた数を読み直す
    if captures && decide (seen + delta ≤ 0) then
      ([⟨seen, seen + delta⟩, ⟨uop + delta, 0⟩], 0)
    else ([⟨seen, seen + delta⟩], uop + delta)

inductive CountTx where
  | idle
  | seen (op : CountOp) (uop : Int)
  | wrote (rows : List CountRow) (uop : Int)

/-- `uop` と `ledger` は commit されたもの。`lock` は bin の row を書いて、まだ終わらないもの。 -/
structure LedgerTxWorld where
  uop : Int
  ledger : List CountRow := []
  lock : Option Nat := none
  txs : Nat → CountTx := fun _ => .idle

inductive LedgerTxAction where
  | read (i : Nat) (op : CountOp)
  | update (i : Nat)
  | commit (i : Nat)
  | rollback (i : Nat)

def LedgerTxWorld.goto (w : LedgerTxWorld) (i : Nat) (tx : CountTx) : LedgerTxWorld :=
  { w with txs := Function.update w.txs i tx }

def countTxStep (w : LedgerTxWorld) : LedgerTxAction → LedgerTxWorld
  | .read i op =>
    match w.txs i with
    | .idle => w.goto i (.seen op w.uop)
    | _ => w
  | .update i =>
    match w.txs i, w.lock with
    | .seen op seen, none =>
      { w with lock := some i }.goto i (.wrote (op.write seen w.uop).1 (op.write seen w.uop).2)
    | _, _ => w
  | .commit i =>
    match w.txs i with
    | .wrote rows uop => { w with uop, ledger := w.ledger ++ rows, lock := none }.goto i .idle
    | _ => w
  | .rollback i =>
    { w with lock := if w.lock = some i then none else w.lock }.goto i .idle

end Shingo.Core
