import Shingo.Dispatch.SwapHold

/-!
# order の取り消し

`shingo-core/dispatch` の `HandleOrderCancel`・`CancelOrderWithCascade`・`cancelCompoundChildren`。

row を読み、終わらせ、子の一覧を読み、子を一つずつ終わらせて、返事をする。失敗は log に残すだけで、
返事は変わらない。その間に、ほかの動作が order や子の status を進め、row を増やす。

fleet を止めるのは status を変えないので、status を書くのと一歩にする。lane は読まない。
-/

namespace Shingo.Dispatch

structure CancelRequest where
  fromCore : Bool := false
  station : String
  orderUUID : String

def checkOwnership (req : CancelRequest) (order : ComplexOrder) : Bool :=
  req.fromCore || (order.parentOrderID.isNone && decide (req.station = order.stationID))

def SwapTable.listChildOrders (t : SwapTable) (parentOrderID : Nat) : List ComplexOrder :=
  t.orders.filter fun o => decide (o.parentOrderID = some parentOrderID)

/-- 終わりの status を書けなくても（`ok` が偽）、fleet は止めてある。 -/
def tryCancelOrder (ok : Bool) (t : SwapTable) (ord : ComplexOrder) : SwapTable :=
  let cancelled := cancelOrder t ord
  if ok then cancelled else { t with vendorCancels := cancelled.vendorCancels }

inductive CancelReply where
  | error (code detail : String)
  | cancelled (orderID : Nat)
  deriving DecidableEq

inductive CancelPC where
  | load
  | cancel (order : ComplexOrder)
  | list (orderID : Nat)
  | children (orderID : Nat) (rest : List ComplexOrder)
  | returned (reply : Option CancelReply)
  deriving DecidableEq

/-- `existing` は、取り消しを書いた時にあった子。 -/
structure CancelWorld where
  table : SwapTable
  pc : CancelPC := .load
  existing : List Nat := []

namespace CancelWorld

variable (req : CancelRequest) (w : CancelWorld)

def getOwnedOrder (ok : Bool) : Option ComplexOrder :=
  (if ok then w.table.getOrderByUUID req.orderUUID else none).filter (checkOwnership req)

def handleOrderCancel (ok : Bool) : CancelWorld :=
  match w.pc with
  | .load =>
    match w.getOwnedOrder req ok with
    | none =>
      { w with pc := .returned (some (.error "not_found" "order not found or access denied")) }
    | some order =>
      { w with pc := if order.status = .cancelled then .returned none else .cancel order }
  | .cancel order =>
    { w with
      table := tryCancelOrder ok w.table order
      pc := .list order.id
      existing := (w.table.listChildOrders order.id).map (·.id) }
  | .list orderID =>
    { w with pc := .children orderID (if ok then w.table.listChildOrders orderID else []) }
  | .children orderID (child :: rest) =>
    { w with
      -- 終わっている子は `CancelOrder` が飛ばす
      table := tryCancelOrder ok w.table child
      pc := .children orderID rest }
  | .children orderID [] => { w with pc := .returned (some (.cancelled orderID)) }
  | .returned _ => w

end CancelWorld

inductive CancelAction where
  | handle (ok : Bool)
  | move (orderID : Nat) (dst : OrderStatus)
  | insert (order : ComplexOrder)

def cancelStep (req : CancelRequest) (w : CancelWorld) : CancelAction → CancelWorld
  | .handle ok => w.handleOrderCancel req ok
  | .move orderID dst =>
    { w with
      table := w.table.update (fun o => decide (o.id = orderID) && isValidTransition o.status dst)
        fun o => { o with status := dst } }
  | .insert order =>
    if h : ∀ o ∈ w.table.orders, o.id < order.id then
      { w with
        table := { w.table with
          orders := order :: w.table.orders
          newestFirst := List.pairwise_cons.mpr ⟨h, w.table.newestFirst⟩ } }
    else w

end Shingo.Dispatch
