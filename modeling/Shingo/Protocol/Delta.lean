import Mathlib.Data.List.Basic

/-!
# 数の増減の電文

`protocol/payloads.go` の `BinUOPDelta` と `LinesideBucketDelta`。edge が窓ごとに
足し合わせて送り、core が `bins.uop_remaining` と lineside bucket に足す。
時刻は数で、0 は Go の zero time。
-/

namespace Shingo.Protocol

inductive BinUOPDeltaReason where
  | consumeTick
  | produceTick
  | abFallthrough
  | captureReduction
  | operatorCorrection
  deriving DecidableEq

inductive LinesideBucketDeltaReason where
  | captureFill
  | consumeDrain
  | operatorCorrection

structure BinUOPDelta where
  station : String
  binID : Int
  payloadCode : String
  delta : Int
  reason : Option BinUOPDeltaReason
  sequenceID : Nat
  epoch : Int
  windowStart : Nat
  windowEnd : Nat

structure LinesideBucketDelta where
  coreNodeName : String
  pairKey : String
  styleID : Int
  partNumber : String
  payloadCode : String
  delta : Int
  reason : Option LinesideBucketDeltaReason
  sequenceID : Nat
  windowStart : Nat
  windowEnd : Nat

inductive DeltaScopeKind where
  | bin
  | bucket
  deriving DecidableEq

/-- 通し番号の範囲。edge の `inventory_delta_seq` の主キー。 -/
structure DeltaScope where
  kind : DeltaScopeKind
  key : String
  epoch : Int
  deriving DecidableEq

/-- 行が無ければ 1 から始まり、あれば一つ進む。 -/
def allocateInventoryDeltaSeq (seqs : DeltaScope → Nat) (scope : DeltaScope) :
    (DeltaScope → Nat) × Nat :=
  (fun sc => if sc = scope then seqs scope + 1 else seqs sc, seqs scope + 1)

end Shingo.Protocol
