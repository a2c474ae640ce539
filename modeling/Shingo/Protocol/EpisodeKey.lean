import Shingo.Infra.Scan
import Shingo.Protocol.Episode

/-!
# episode の鍵の読み戻し（`ParseEpisodeKey`）

`protocol/episode_key.go` の、残り二つの鍵の作り方と `ParseEpisodeKey`。鍵は成分を `|` で
つないだもので、先頭の語が種類を言う。changeover の番号だけは `fmt.Sscanf` で読む。
-/

namespace Shingo.Protocol

open Infra

def changeoverEpisodeKey (station : String) (processChangeoverID : Int) : String :=
  "co|" ++ station ++ "|" ++ toString processChangeoverID

def maintainEpisodeKey (groupNodeName binTypeCode : String) : String :=
  "mnt|" ++ groupNodeName ++ "|" ++ binTypeCode

/-- 種類に無い欄は Go の zero value で、`role` の `none` は空文字列。 -/
structure ParsedEpisodeKey where
  kind : EpisodeKind
  station : String := ""
  payload : String := ""
  role : Option ClaimRole := none
  coreNode : String := ""
  processID : String := ""
  changeoverID : Int := 0
  binType : String := ""
  deriving DecidableEq

inductive EpisodeKeyError where
  | empty
  | wantParts (kind : EpisodeKind) (key : String) (want got : Nat)
  | emptyCoreNode (key : String)
  | emptyProcess (key : String)
  | unknownRole (key role : String)
  | emptyGroup (key : String)
  | emptyCarrierType (key : String)
  | changeoverID (key text : String) (err : ScanError)
  | unknownPrefix (key word : String)
  deriving DecidableEq

def claimRoleOf (word : String) : Option ClaimRole :=
  if word = "consume" then some .consume
  else if word = "produce" then some .produce
  else none

variable (key : String)

def splitBar : List String := (key.toList.splitOn '|').map String.ofList

def parseThreshold (parts : List String) : Except EpisodeKeyError ParsedEpisodeKey :=
  match parts with
  | [_, node, payload] =>
    if node = "" then .error (.emptyCoreNode key)
    else .ok { kind := .threshold, coreNode := node, payload }
  | _ => .error (.wantParts .threshold key 3 parts.length)

def parseCell (parts : List String) : Except EpisodeKeyError ParsedEpisodeKey :=
  match parts with
  | [_, pid, payload, word] =>
    if pid = "" then .error (.emptyProcess key)
    else match claimRoleOf word with
      | none => .error (.unknownRole key word)
      | some role => .ok { kind := .cell, processID := pid, payload, role := some role }
  | _ => .error (.wantParts .cell key 4 parts.length)

def parseMaintain (parts : List String) : Except EpisodeKeyError ParsedEpisodeKey :=
  match parts with
  | [_, group, binType] =>
    if group = "" then .error (.emptyGroup key)
    else if binType = "" then .error (.emptyCarrierType key)
    else .ok { kind := .maintain, coreNode := group, binType }
  | _ => .error (.wantParts .maintain key 3 parts.length)

/-- `co` の枝。番号の読み取りは `Sscanf` に任せる。station は空でもよい。 -/
def parseChangeover (parts : List String) : Except EpisodeKeyError ParsedEpisodeKey :=
  match parts with
  | [_, station, text] =>
    match scanInt text.toList with
    | .error err => .error (.changeoverID key text err)
    | .ok cid => .ok { kind := .changeover, station, changeoverID := cid }
  | _ => .error (.wantParts .changeover key 3 parts.length)

def parseEpisodeKey : Except EpisodeKeyError ParsedEpisodeKey :=
  match splitBar key with
  | [] => .error .empty
  | word :: rest =>
    if word = "thr" then parseThreshold key (word :: rest)
    else if word = "cell" then parseCell key (word :: rest)
    else if word = "mnt" then parseMaintain key (word :: rest)
    else if word = "co" then parseChangeover key (word :: rest)
    else .error (.unknownPrefix key word)

end Shingo.Protocol
