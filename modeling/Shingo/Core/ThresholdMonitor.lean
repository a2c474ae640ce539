import Shingo.Core.DemandOrigins

/-!
# threshold の episode

`shingo-core/engine/threshold_episodes.go` と、`engine/threshold_monitor.go` の `checkBindings`、
`engagePayloads`、`OnThresholdChanges`、`engine/demand_reconciler.go` の sweep。

level は毎回読み直し、端は memory の `openOrigins` と `belowThresholdSince` に残す。
書き込みは端でだけ起きる。書き込みの失敗は動作の側に書く。
-/

namespace Shingo.Core

open Infra Protocol

structure ThresholdEntry where
  stationID : String
  coreNodeName : String
  payloadCode : String
  threshold : Int

def bindingKey (station coreNodeName payload : String) : String :=
  station ++ "|" ++ coreNodeName ++ "|" ++ payload

def ThresholdEntry.key (b : ThresholdEntry) : String :=
  bindingKey b.stationID b.coreNodeName b.payloadCode

def DemandOrigin.bindingKey (r : DemandOrigin) : String :=
  Core.bindingKey r.stationID r.state.content.coreNodeName r.state.content.payloadCode

structure OpenEpisodeRef where
  originID : String
  payloadCode : String

structure ThresholdMonitor where
  rows : List DemandOrigin
  registry : List ThresholdEntry
  openOrigins : String → Option OpenEpisodeRef
  belowThresholdSince : String → Option Nat

inductive PayloadLookup where
  | failed
  | missing
  | capacity (uop : Int)

def expectedOrdersForThreshold (b : ThresholdEntry) (total : Int) :
    PayloadLookup → Option Int × String
  | .failed => (none, "capacity lookup failed")
  | .missing => (none, "payload not in catalog")
  | .capacity uop =>
    if uop ≤ 0 then (none, "payload has no uop_capacity")
    else
      let gap := b.threshold - max total 0
      if gap ≤ 0 then (some 1, "") else (some ((gap + uop - 1) / uop), "")

structure CheckInput where
  originID : String
  lookup : PayloadLookup
  usedEdgeReports : Bool
  writeOk : Bool
  now : Nat

def thresholdContent (b : ThresholdEntry) (total : Int) (inp : CheckInput) : EpisodeContent where
  kind := .threshold
  direction := none
  trigger := ""
  triggerRef := "binding:" ++ b.key
  processID := ""
  coreNodeName := b.coreNodeName
  payloadCode := b.payloadCode
  openedAt := inp.now
  openedTotal := total
  threshold := b.threshold
  expectedOrders := (expectedOrdersForThreshold b total inp.lookup).1
  expectedUnknownReason := (expectedOrdersForThreshold b total inp.lookup).2
  rerequestCount := 0
  discretionary := false

namespace ThresholdMonitor

variable (m : ThresholdMonitor)

def openThresholdEpisode (b : ThresholdEntry) (total : Int) (inp : CheckInput) : ThresholdMonitor :=
  if (m.belowThresholdSince b.key).isSome then m
  else
    match (if inp.writeOk then
      openCoreEpisode m.rows b.stationID inp.originID
        (thresholdEpisodeKey b.coreNodeName b.payloadCode) (thresholdContent b total inp)
        inp.usedEdgeReports
      else none) with
    | none => m
    | some rows =>
      { m with
        rows := rows
        belowThresholdSince := Function.update m.belowThresholdSince b.key (some inp.now)
        openOrigins :=
          Function.update m.openOrigins b.key (some ⟨inp.originID, b.payloadCode⟩) }

def dropHold (key originID : String) : ThresholdMonitor :=
  if (m.openOrigins key).map OpenEpisodeRef.originID = some originID then
    { m with
      openOrigins := Function.update m.openOrigins key none
      belowThresholdSince := Function.update m.belowThresholdSince key none }
  else m

def closeThresholdEpisodeRef (key : String) (ref : OpenEpisodeRef)
    (closed : EpisodeClose) (writeOk : Bool) : ThresholdMonitor :=
  let m := m.dropHold key ref.originID
  if writeOk then { m with rows := closeDemandOriginByID m.rows ref.originID closed } else m

def closeThresholdEpisode (key : String) (closed : EpisodeClose)
    (writeOk : Bool) : ThresholdMonitor :=
  match m.openOrigins key with
  | none => m
  | some ref => m.closeThresholdEpisodeRef key ref closed writeOk

def checkBinding (b : ThresholdEntry) (total : Int) (inp : CheckInput) : ThresholdMonitor :=
  if b.threshold ≤ 0 then m
  else if b.threshold ≤ total then
    m.closeThresholdEpisode b.key ⟨inp.now, .recovered, some .notification⟩ inp.writeOk
  else m.openThresholdEpisode b total inp

def checkBindings (bindings : List (ThresholdEntry × CheckInput))
    (total : Int) : ThresholdMonitor :=
  bindings.foldl (fun m p => m.checkBinding p.1 total p.2) m

def closeThresholdEpisodesNotIn
    (candidates : List (String × OpenEpisodeRef)) (live : List String) (closedBy : ClosedBy)
    (now : Nat) (failed : List String) : ThresholdMonitor :=
  (candidates.filter fun p => !live.contains p.1).foldl
    (fun m p => m.closeThresholdEpisodeRef p.1 p.2 ⟨now, .thresholdRemoved, some closedBy⟩
      (!failed.contains p.1)) m

/-- 候補は、印を持っている鍵のうち payload の合うもの。 -/
def closeThresholdEpisodesForPayloadNotIn (payload : String)
    (keys : List String) (live : List String) (now : Nat) (failed : List String) :
    ThresholdMonitor :=
  let candidates := keys.filterMap fun key =>
    ((m.openOrigins key).filter fun ref => ref.payloadCode == payload).map fun ref => (key, ref)
  m.closeThresholdEpisodesNotIn candidates live .notification now failed

def openRow (key : String) : Option DemandOrigin :=
  (m.rows.filter DemandOrigin.isOpen).reverse.find? fun r => r.bindingKey == key

def refOf (r : DemandOrigin) : OpenEpisodeRef := ⟨r.originID, r.state.content.payloadCode⟩

def reconcileThresholdBindings (now : Nat) (failed : List String) : ThresholdMonitor :=
  let live := (m.registry.filter fun b => decide (0 < b.threshold)).map ThresholdEntry.key
  let keys := ((m.rows.filter DemandOrigin.isOpen).map DemandOrigin.bindingKey).eraseDups
  let candidates := keys.filterMap fun key => (m.openRow key).map fun r => (key, refOf r)
  m.closeThresholdEpisodesNotIn candidates live .sweep now failed

def closeThresholdEpisodesForChangedBindings (changed : List String)
    (now : Nat) (failed : List String) : ThresholdMonitor :=
  changed.foldl
    (fun m key => m.closeThresholdEpisode key ⟨now, .thresholdChanged, some .notification⟩
      (!failed.contains key)) m

/-- 注文の無い古い episode を、edge の声が聞こえている間だけ閉じる。 -/
def reconcileChildlessEpisodes (children : String → Nat)
    (recent : String → Bool) (cutoff now : Nat) (failed : List String) : ThresholdMonitor :=
  let aged := m.rows.filter fun r =>
    r.isOpen && (recent r.stationID && (children r.originID == 0
      && decide (r.state.content.openedAt < cutoff)))
  { m with
    rows := aged.foldl
      (fun rows r =>
        if failed.contains r.originID then rows
        else closeDemandOriginByID rows r.originID ⟨now, .unattributed, some .sweep⟩) m.rows }

/-- 起動し直して、`rehydrateThresholdEpisodes` で印を作り直す。読めなければ空のまま。 -/
def restart (readOk : Bool) : ThresholdMonitor :=
  { m with
    openOrigins := fun key => if readOk then (m.openRow key).map refOf else none
    belowThresholdSince := fun key =>
      if readOk then (m.openRow key).map fun r => r.state.content.openedAt else none }

end ThresholdMonitor

/-! ## 動作 -/

/-- monitor に起きること。`failed` は閉じる書き込みの失敗した鍵か id。 -/
inductive MonitorAction where
  | check (bindings : List (ThresholdEntry × CheckInput)) (total : Int)
  | sync (registry : List ThresholdEntry)
  | engage (payload : String) (keys : List String) (now : Nat) (failed : List String)
  | changed (keys : List String) (now : Nat) (failed : List String)
  | sweep (now : Nat) (failed : List String)
  | childless (children : String → Nat) (recent : String → Bool) (cutoff now : Nat)
      (failed : List String)
  | restart (readOk : Bool)

def monitorStep (m : ThresholdMonitor) : MonitorAction → ThresholdMonitor
  | .check bindings total => m.checkBindings bindings total
  | .sync registry => { m with registry }
  | .engage payload keys now failed =>
    let live := (m.registry.filter fun b => b.payloadCode == payload).map ThresholdEntry.key
    m.closeThresholdEpisodesForPayloadNotIn payload keys live now failed
  | .changed keys now failed => m.closeThresholdEpisodesForChangedBindings keys now failed
  | .sweep now failed => m.reconcileThresholdBindings now failed
  | .childless children recent cutoff now failed =>
    m.reconcileChildlessEpisodes children recent cutoff now failed
  | .restart readOk => m.restart readOk

def ThresholdMonitor.start (registry : List ThresholdEntry) : ThresholdMonitor :=
  ⟨[], registry, fun _ => none, fun _ => none⟩

end Shingo.Core
