import Shingo.Infra.Run
import Shingo.Core.DemandOrigins
import Shingo.Edge.DemandEpisode

/-!
# demand episode の edge から core まで

一つの場所の edge が送った電文を、どの順でも何度でも core に届ける。
-/

namespace Shingo.Protocol

open Edge Core

structure DemandSync where
  edge : EpisodeEdge
  core : List DemandOrigin
  delivered : List Nat

inductive DemandAction where
  | request (originID : String) (content : EpisodeContent) (enqueueOk : Bool)
  | close (closed : EpisodeClose) (enqueueOk deleteOk : Bool)
  | deliver (i : Nat)

def demandStep (station key : String) (w : DemandSync) : DemandAction → DemandSync
  | .request originID content enqueueOk =>
    { w with edge := w.edge.request key originID content enqueueOk }
  | .close closed enqueueOk deleteOk => { w with edge := w.edge.close closed enqueueOk deleteOk }
  | .deliver i =>
    match w.edge.sent[i]? with
    | none => w
    | some st =>
      { w with
        core := handleDemandOrigin w.core station st
        delivered := w.delivered ++ [i] }

def DemandSync.start : DemandSync := ⟨⟨none, []⟩, [], []⟩

end Shingo.Protocol
