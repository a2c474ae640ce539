import Shingo.Infra.Table
import Shingo.Protocol.Episode

/-!
# core の `demand_origins`

`shingo-core/store/demand_origins.go` の表と文、`messaging/demand_origin_handler.go` の
`HandleDemandOrigin`。core 自身が開く episode の文も置く。行の主キーは `origin_id` で、
開いた行は `episode_key` ごとに一つと partial unique index が決める。
-/

namespace Shingo.Core

open Infra Protocol

/-- `demand_origins` の行。`signalCount` と `usedEdgeReports` は core だけが書く。 -/
structure DemandOrigin where
  state : DemandOriginState
  stationID : String
  signalCount : Int
  usedEdgeReports : Bool

namespace DemandOrigin

def originID (r : DemandOrigin) : String := r.state.originID

def isOpen (r : DemandOrigin) : Bool := r.state.closed.isNone

end DemandOrigin

variable (rows : List DemandOrigin)

def OpenUnique : Prop :=
  rows.Pairwise fun a b =>
    a.isOpen = true → b.isOpen = true → a.state.episodeKey ≠ b.state.episodeKey
  deriving Decidable

def upsertDemandOrigin (station : String) (st : DemandOriginState) : Option (List DemandOrigin) :=
  let rows' :=
    if rows.any fun r => r.originID == st.originID then
      updateWhere (fun r => r.originID == st.originID && decide (r.state.revision < st.revision))
        (fun r => { r with state := st, stationID := station }) rows
    else rows ++ [{ state := st, stationID := station, signalCount := 0, usedEdgeReports := false }]
  if OpenUnique rows' then some rows' else none

def superseded (closedAt : Nat) (r : DemandOrigin) : DemandOrigin :=
  { r with state := { r.state with closed := some ⟨closedAt, .superseded, none⟩ } }

def supersedeOpenEpisode (episodeKey newOriginID : String) (closedAt : Nat) : List DemandOrigin :=
  updateWhere
    (fun r => r.state.episodeKey == episodeKey && (r.originID != newOriginID && r.isOpen))
    (superseded closedAt) rows

def handleDemandOrigin (station : String) (st : DemandOriginState) : List DemandOrigin :=
  if st.originID = "" ∨ st.episodeKey = "" then rows
  else
    let rows :=
      if st.closed = none then
        supersedeOpenEpisode rows st.episodeKey st.originID st.content.openedAt
      else rows
    (upsertDemandOrigin rows station st).getD rows

/-! ## core の開く episode -/

/-- `OpenCoreEpisode` の `INSERT`。主キーと、開いた行の unique index に触れれば失敗する。 -/
def openCoreEpisode (station originID episodeKey : String)
    (content : EpisodeContent) (usedEdgeReports : Bool) : Option (List DemandOrigin) :=
  let row : DemandOrigin :=
    { state := { originID, revision := 1, episodeKey, content, closed := none }
      stationID := station
      signalCount := 0
      usedEdgeReports := usedEdgeReports }
  if rows.any fun r => r.originID == originID then none
  else if OpenUnique (rows ++ [row]) then some (rows ++ [row])
  else none

def DemandOrigin.close (closed : EpisodeClose) (r : DemandOrigin) : DemandOrigin :=
  { r with state := { r.state with closed := some closed } }

def closeDemandOriginByID (originID : String) (closed : EpisodeClose) : List DemandOrigin :=
  updateWhere (fun r => r.originID == originID && r.isOpen) (DemandOrigin.close closed) rows

end Shingo.Core
