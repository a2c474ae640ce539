import Mathlib.Data.List.Basic

/-!
# demand episode の電文

`protocol/types.go` の `ClaimRole`、`protocol/episode_key.go` の鍵、
`protocol/payloads.go` の `DemandOriginState`。edge は episode の行を丸ごと、
revision を付けて送る。時刻は数。
-/

namespace Shingo.Protocol

inductive ClaimRole where
  | consume
  | produce
  deriving DecidableEq

def ClaimRole.word : ClaimRole → String
  | .consume => "consume"
  | .produce => "produce"

inductive EpisodeKind where
  | threshold
  | cell
  | changeover
  | maintain
  deriving DecidableEq

inductive CloseReason where
  | recovered
  | changeoverComplete
  | cancelled
  | thresholdChanged
  | thresholdRemoved
  | claimRemoved
  | unattributed
  | superseded
  deriving DecidableEq

inductive ClosedBy where
  | notification
  | sweep
  deriving DecidableEq

def cellEpisodeKey (processID payloadCode : String) (role : ClaimRole) : String :=
  "cell|" ++ processID ++ "|" ++ payloadCode ++ "|" ++ role.word

def thresholdEpisodeKey (coreNodeName payloadCode : String) : String :=
  "thr|" ++ coreNodeName ++ "|" ++ payloadCode

structure EpisodeContent where
  kind : EpisodeKind
  direction : Option ClaimRole
  trigger : String
  triggerRef : String
  processID : String
  coreNodeName : String
  payloadCode : String
  openedAt : Nat
  openedTotal : Int
  threshold : Int
  expectedOrders : Option Int
  expectedUnknownReason : String
  rerequestCount : Int
  discretionary : Bool
  deriving DecidableEq

structure EpisodeClose where
  closedAt : Nat
  reason : CloseReason
  closedBy : Option ClosedBy
  deriving DecidableEq

structure DemandOriginState where
  originID : String
  revision : Nat
  episodeKey : String
  content : EpisodeContent
  closed : Option EpisodeClose
  deriving DecidableEq

/-- その episode の、一番新しい電文。 -/
def Latest (sent : List DemandOriginState) (m : DemandOriginState) : Prop :=
  m ∈ sent ∧ ∀ m' ∈ sent, m'.originID = m.originID → m'.revision ≤ m.revision

end Shingo.Protocol
