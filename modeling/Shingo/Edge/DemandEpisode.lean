import Shingo.Protocol.Episode

/-!
# edge の demand episode

`shingo-edge/store/demand_origins.go` の `demand_origins_open` と、
`engine/demand_episode.go` の `openCellEpisode`、`joinOpenCellEpisode`、`closeEpisode`、
`emitOriginState`。表の主キーは `episode_key` なので、一つの場所の行は高々一つ。

電文は durable outbox に入る。入らなかったことは動作の側に書く。
-/

namespace Shingo.Edge

open Protocol

structure OpenOrigin where
  episodeKey : String
  originID : String
  revision : Nat
  content : EpisodeContent
  deriving DecidableEq

namespace OpenOrigin

def mint (episodeKey originID : String) (content : EpisodeContent) : OpenOrigin :=
  { episodeKey, originID, revision := 1, content }

def join (r : OpenOrigin) : OpenOrigin :=
  { r with
    revision := r.revision + 1
    content := { r.content with rerequestCount := r.content.rerequestCount + 1 } }

def bump (r : OpenOrigin) : OpenOrigin := { r with revision := r.revision + 1 }

def state (r : OpenOrigin) (closed : Option EpisodeClose) : DemandOriginState where
  originID := r.originID
  revision := r.revision
  episodeKey := r.episodeKey
  content := r.content
  closed := closed

end OpenOrigin

structure EpisodeEdge where
  row : Option OpenOrigin
  sent : List DemandOriginState

namespace EpisodeEdge

def emit (e : EpisodeEdge) (st : DemandOriginState) (enqueueOk : Bool) : EpisodeEdge :=
  if enqueueOk then { e with sent := e.sent ++ [st] } else e

theorem sent_emit (e : EpisodeEdge) (st : DemandOriginState) (enqueueOk : Bool) :
    ∃ more, (e.emit st enqueueOk).sent = e.sent ++ more := by
  cases enqueueOk with
  | false => exact ⟨[], (List.append_nil _).symm⟩
  | true => exact ⟨[st], rfl⟩

def request (key : String) (e : EpisodeEdge) (originID : String) (content : EpisodeContent)
    (enqueueOk : Bool) : EpisodeEdge :=
  match e.row with
  | some r => EpisodeEdge.emit { e with row := some r.join } (r.join.state none) enqueueOk
  | none =>
    let r := OpenOrigin.mint key originID content
    EpisodeEdge.emit { e with row := some r } (r.state none) enqueueOk

def close (e : EpisodeEdge) (closed : EpisodeClose) (enqueueOk deleteOk : Bool) : EpisodeEdge :=
  match e.row with
  | none => e
  | some r =>
    let e' := EpisodeEdge.emit { e with row := some r.bump } (r.bump.state (some closed)) enqueueOk
    if enqueueOk && deleteOk then { e' with row := none } else e'

end EpisodeEdge

/-! ## 一文ずつ進む呼び出し -/

/--
呼び出しの、次に実行する文。`mint` は `openCellEpisode` の持つ新しい id と中身で、
`joinOpenCellEpisode` だけなら無い。
-/
inductive EpisodeCall where
  | find (mint : Option (String × EpisodeContent))
  /-- `JoinDemandOrigin` の `UPDATE` と、その後の `SELECT`。`seen` は初めに見た id。 -/
  | join (seen : String)
  | reread (seen : String)
  | emitJoined (r : OpenOrigin)
  | insert (originID : String) (content : EpisodeContent)
  | emitOpened (r : OpenOrigin)
  | bump (closed : EpisodeClose)
  | read (closed : EpisodeClose)
  | emitClosed (r : OpenOrigin) (closed : EpisodeClose)
  | delete
  /-- 加わって返った。`before` は自分の電文の前に outbox にあった電文の数の控え。 -/
  | joined (originID : String) (before : Nat)
  | opened (originID : String)
  /-- 加わろうとして失敗した。id は error と一緒に返り、呼び手はどれも捨てる。 -/
  | failed (seen : String)
  | finished
  deriving DecidableEq

namespace EpisodeCall

def exec (key : String) (e : EpisodeEdge) (ok : Bool) : EpisodeCall → EpisodeEdge × EpisodeCall
  | .find mint =>
    match ok, e.row, mint with
    | false, _, _ => (e, .finished)
    | true, some r, _ => (e, .join r.originID)
    | true, none, none => (e, .finished)
    | true, none, some (originID, content) => (e, .insert originID content)
  | .join seen =>
    match ok, e.row with
    | true, some r => ({ e with row := some r.join }, .reread seen)
    | _, _ => (e, .failed seen)
  | .reread seen =>
    match ok, e.row with
    | true, some r => (e, .emitJoined r)
    | _, _ => (e, .failed seen)
  | .emitJoined r => (e.emit (r.state none) ok, .joined r.originID e.sent.length)
  | .insert originID content =>
    match ok, e.row with
    | true, none =>
      ({ e with row := some (OpenOrigin.mint key originID content) },
        .emitOpened (OpenOrigin.mint key originID content))
    | _, _ => (e, .finished)
  | .emitOpened r => (e.emit (r.state none) ok, .opened r.originID)
  | .bump closed =>
    if ok then ({ e with row := e.row.map OpenOrigin.bump }, .read closed) else (e, .finished)
  | .read closed =>
    match ok, e.row with
    | true, some r => (e, .emitClosed r closed)
    | _, _ => (e, .finished)
  | .emitClosed r closed =>
    if ok then (e.emit (r.state (some closed)) true, .delete) else (e, .finished)
  | .delete => (if ok then { e with row := none } else e, .finished)
  | .joined originID before => (e, .joined originID before)
  | .opened originID => (e, .opened originID)
  | .failed seen => (e, .failed seen)
  | .finished => (e, .finished)

def returned : EpisodeCall → Bool
  | .joined _ _ | .opened _ | .failed _ | .finished => true
  | _ => false

def closing : EpisodeCall → Bool
  | .read _ | .emitClosed _ _ | .delete => true
  | _ => false

def pending : EpisodeCall → Option OpenOrigin
  | .emitJoined r | .emitOpened r => some r
  | _ => none

end EpisodeCall

structure EpisodeCalls where
  edge : EpisodeEdge
  calls : List EpisodeCall

inductive EpisodeAction where
  | request (mint : Option (String × EpisodeContent))
  | close (closed : EpisodeClose)
  | statement (i : Nat) (ok : Bool)

def episodeStep (key : String) (w : EpisodeCalls) : EpisodeAction → EpisodeCalls
  | .request mint => { w with calls := w.calls ++ [.find mint] }
  | .close closed => { w with calls := w.calls ++ [.bump closed] }
  | .statement i ok =>
    match w.calls[i]? with
    | none => w
    | some c =>
      { edge := (c.exec key w.edge ok).1, calls := w.calls.set i (c.exec key w.edge ok).2 }

def EpisodeCalls.start : EpisodeCalls := ⟨⟨none, []⟩, []⟩

end Shingo.Edge
