import Shingo.Protocol.EpisodeKey

/-!
# episode の鍵は成分を言い当てるか

四つの鍵は、どれも成分を `|` でつないだものである（`joinBar`）。成分に `|` が無ければ、
割れば元の成分に戻る。逆に、割ってつなげば元の鍵に戻るので、成分をそのまま返す三つの種類では、
読めた鍵は作った鍵。changeover の番号だけは、読めた数を書き直しても元の字面になるとは
かぎらない。
-/

namespace Shingo.Protocol

open Infra

/-! ## つなぐことと割ること -/

def joinBar (parts : List String) : String :=
  String.ofList (['|'].intercalate (parts.map String.toList))

theorem splitBar_joinBar {parts : List String} (hne : parts ≠ [])
    (hfree : ∀ s ∈ parts, '|' ∉ s.toList) : splitBar (joinBar parts) = parts := by
  unfold splitBar joinBar
  have hls : ∀ l ∈ parts.map String.toList, '|' ∉ l := by
    intro l hl
    obtain ⟨s, hs, rfl⟩ := List.mem_map.mp hl
    exact hfree s hs
  rw [String.toList_ofList, List.splitOn_intercalate '|' hls (by simpa using hne), List.map_map]
  simp [Function.comp_def]

theorem joinBar_splitBar (key : String) : joinBar (splitBar key) = key := by
  unfold splitBar joinBar
  simp [Function.comp_def, List.intercalate_splitOn]

theorem joinBar_three (a b c : String) : joinBar [a, b, c] = a ++ "|" ++ b ++ "|" ++ c := by
  apply String.toList_inj.mp
  simp [joinBar, List.intercalate]

theorem joinBar_four (a b c d : String) :
    joinBar [a, b, c, d] = a ++ "|" ++ b ++ "|" ++ c ++ "|" ++ d := by
  apply String.toList_inj.mp
  simp [joinBar, List.intercalate]

theorem thresholdEpisodeKey_eq (node payload : String) :
    thresholdEpisodeKey node payload = joinBar ["thr", node, payload] := by
  rw [joinBar_three]; rfl

theorem cellEpisodeKey_eq (pid payload : String) (role : ClaimRole) :
    cellEpisodeKey pid payload role = joinBar ["cell", pid, payload, role.word] := by
  rw [joinBar_four]; rfl

theorem changeoverEpisodeKey_eq (station : String) (id : Int) :
    changeoverEpisodeKey station id = joinBar ["co", station, toString id] := by
  rw [joinBar_three]; rfl

theorem maintainEpisodeKey_eq (group binType : String) :
    maintainEpisodeKey group binType = joinBar ["mnt", group, binType] := by
  rw [joinBar_three]; rfl

/-! ## 作った鍵 -/

inductive Built : ParsedEpisodeKey → String → Prop
  | threshold (node payload : String) :
    Built { kind := .threshold, coreNode := node, payload } (thresholdEpisodeKey node payload)
  | cell (pid payload : String) (role : ClaimRole) :
    Built { kind := .cell, processID := pid, payload, role := some role }
      (cellEpisodeKey pid payload role)
  | changeover (station : String) (id : Int) :
    Built { kind := .changeover, station, changeoverID := id } (changeoverEpisodeKey station id)
  | maintain (group binType : String) :
    Built { kind := .maintain, coreNode := group, binType } (maintainEpisodeKey group binType)

def PlainPart (s : String) : Prop := s ≠ "" ∧ '|' ∉ s.toList
  deriving Decidable

/-- 種類ごとに要る成分がどれも空でなく `|` を含まず、changeover の番号は正の int64。 -/
def ParsedEpisodeKey.Plain (p : ParsedEpisodeKey) : Prop :=
  match p.kind with
  | .threshold => PlainPart p.coreNode ∧ PlainPart p.payload
  | .cell => PlainPart p.processID ∧ PlainPart p.payload
  | .changeover => PlainPart p.station ∧ 0 < p.changeoverID ∧ InInt64 p.changeoverID
  | .maintain => PlainPart p.coreNode ∧ PlainPart p.binType

theorem bar_notMem_word (role : ClaimRole) : '|' ∉ role.word.toList := by
  cases role <;> decide

theorem claimRoleOf_word (role : ClaimRole) : claimRoleOf role.word = some role := by
  cases role <;> rfl

theorem word_of_claimRoleOf {word : String} {role : ClaimRole} (h : claimRoleOf word = some role) :
    role.word = word := by
  unfold claimRoleOf at h
  split at h
  · next hw => cases h; exact hw.symm
  split at h
  · next hw => cases h; exact hw.symm
  · cases h

variable {p : ParsedEpisodeKey}

/-- **作った鍵は、成分に読み戻る。** -/
theorem parse_built {key : String} (h : Built p key) (hp : p.Plain) :
    parseEpisodeKey key = .ok p := by
  cases h with
  | threshold node payload =>
    obtain ⟨⟨hne, hnode⟩, ⟨-, hpay⟩⟩ := hp
    have hsplit : splitBar (thresholdEpisodeKey node payload) = ["thr", node, payload] := by
      rw [thresholdEpisodeKey_eq]
      exact splitBar_joinBar (by simp) (by simp [hnode, hpay])
    simp [parseEpisodeKey, hsplit, parseThreshold, hne]
  | cell pid payload role =>
    obtain ⟨⟨hne, hpid⟩, ⟨-, hpay⟩⟩ := hp
    have hsplit : splitBar (cellEpisodeKey pid payload role)
        = ["cell", pid, payload, role.word] := by
      rw [cellEpisodeKey_eq]
      exact splitBar_joinBar (by simp) (by simp [hpid, hpay, bar_notMem_word])
    simp [parseEpisodeKey, hsplit, parseCell, hne, claimRoleOf_word]
  | changeover station id =>
    obtain ⟨⟨-, hst⟩, -, hrange⟩ := hp
    have hsplit : splitBar (changeoverEpisodeKey station id) = ["co", station, toString id] := by
      rw [changeoverEpisodeKey_eq]
      refine splitBar_joinBar (by simp) ?_
      have hid : '|' ∉ (toString id).toList := notMem_toString (by decide) id
      generalize toString id = text at hid
      simp [hst, hid]
    have hscan : scanInt (toString id).toList = .ok id := by
      rw [scanInt_toString, if_pos hrange]
    generalize toString id = text at hsplit hscan
    simp [parseEpisodeKey, hsplit, parseChangeover, hscan]
  | maintain group binType =>
    obtain ⟨⟨hne, hgroup⟩, ⟨hne', htype⟩⟩ := hp
    have hsplit : splitBar (maintainEpisodeKey group binType) = ["mnt", group, binType] := by
      rw [maintainEpisodeKey_eq]
      exact splitBar_joinBar (by simp) (by simp [hgroup, htype])
    simp [parseEpisodeKey, hsplit, parseMaintain, hne, hne']

/-! ## 読めた鍵 -/

variable {key : String} {rest : List String}

theorem built_of_parseThreshold (h : parseThreshold key ("thr" :: rest) = .ok p) :
    Built p (joinBar ("thr" :: rest)) := by
  unfold parseThreshold at h
  split at h
  · next node payload heq =>
    cases heq
    split at h
    · cases h
    · cases h
      rw [← thresholdEpisodeKey_eq]
      exact .threshold node payload
  · cases h

theorem built_of_parseCell (h : parseCell key ("cell" :: rest) = .ok p) :
    Built p (joinBar ("cell" :: rest)) := by
  unfold parseCell at h
  split at h
  · next pid payload word heq =>
    cases heq
    split at h
    · cases h
    split at h
    · cases h
    rename_i role hrole
    cases h
    rw [← word_of_claimRoleOf hrole, ← cellEpisodeKey_eq]
    exact .cell pid payload role
  · cases h

theorem built_of_parseMaintain (h : parseMaintain key ("mnt" :: rest) = .ok p) :
    Built p (joinBar ("mnt" :: rest)) := by
  unfold parseMaintain at h
  split at h
  · next group binType heq =>
    cases heq
    split at h
    · cases h
    split at h
    · cases h
    · cases h
      rw [← maintainEpisodeKey_eq]
      exact .maintain group binType
  · cases h

/-- changeover の鍵の番号は、整数の十進の表記。ほかの種類の鍵には何も求めない。 -/
def CanonicalID (key : String) : Prop :=
  ∀ station text, splitBar key = ["co", station, text] → ∃ n : Int, text = toString n

theorem toString_of_scanInt {text : String} {cid : Int} (hc : ∃ n : Int, text = toString n)
    (h : scanInt text.toList = .ok cid) : toString cid = text := by
  obtain ⟨n, rfl⟩ := hc
  rw [scanInt_toString] at h
  split at h
  · cases h
    rfl
  · cases h

theorem built_of_parseChangeover (hc : ∀ station text, rest = [station, text] →
      ∃ n : Int, text = toString n) (h : parseChangeover key ("co" :: rest) = .ok p) :
    Built p (joinBar ("co" :: rest)) := by
  unfold parseChangeover at h
  split at h
  · next station text heq =>
    cases heq
    split at h
    · cases h
    rename_i cid hscan
    cases h
    rw [← toString_of_scanInt (hc station text rfl) hscan, ← changeoverEpisodeKey_eq]
    exact .changeover station cid
  · cases h

/-- **読めた鍵は、番号が正規な表記なら、読めた成分から作った鍵。** -/
theorem built_of_parse (hc : CanonicalID key) (h : parseEpisodeKey key = .ok p) : Built p key := by
  unfold parseEpisodeKey at h
  split at h
  · cases h
  rename_i word rest hsplit
  rw [← joinBar_splitBar key, hsplit]
  split at h
  · next hword => exact hword ▸ built_of_parseThreshold (hword ▸ h)
  split at h
  · next hword => exact hword ▸ built_of_parseCell (hword ▸ h)
  split at h
  · next hword => exact hword ▸ built_of_parseMaintain (hword ▸ h)
  split at h
  · next hword =>
    subst hword
    exact built_of_parseChangeover (fun station text hrest => hc station text (hrest ▸ hsplit)) h
  · cases h

theorem Built.eq_of_changeover (h : Built p key) (hkind : p.kind = .changeover) :
    key = changeoverEpisodeKey p.station p.changeoverID := by
  cases h with
  | changeover station id => rfl
  | threshold | cell | maintain => cases hkind

theorem canonical_of_built (h : parseEpisodeKey key = .ok p) (hbuilt : Built p key) :
    CanonicalID key := by
  intro station text hsplit
  have hp : p.kind = .changeover ∧ p.station = station := by
    simp [parseEpisodeKey, hsplit, parseChangeover] at h
    split at h
    · cases h
    · cases h
      exact ⟨rfl, rfl⟩
  -- 読めた番号を書き直した鍵が元の鍵なら、番号の字面も同じ
  have hkey := hbuilt.eq_of_changeover hp.1
  rw [changeoverEpisodeKey_eq, hp.2, joinBar_three, ← joinBar_splitBar key, hsplit,
    joinBar_three] at hkey
  exact ⟨p.changeoverID, String.toList_inj.mp (by simpa using congrArg String.toList hkey)⟩

/--
**鍵は種類と成分を言い当て、読めた鍵が読めた成分から作った鍵なのは、番号が整数の十進の表記の
とき、かつそのときに限る。**
-/
theorem episode_keys_faithful (p p' : ParsedEpisodeKey) (key key' : String) :
    (Built p key → p.Plain → parseEpisodeKey key = .ok p)
    ∧ (Built p key → Built p' key' → p.Plain → p'.Plain → p ≠ p' → key ≠ key')
    ∧ (parseEpisodeKey key = .ok p → (Built p key ↔ CanonicalID key)) := by
  refine ⟨?_, ?_, ?_⟩
  · intro h hp
    exact parse_built h hp
  · rintro h h' hp hp' hne rfl
    have heq := (parse_built h hp).symm.trans (parse_built h' hp')
    exact hne (Except.ok.inj heq)
  · intro h
    exact ⟨canonical_of_built h, fun hc => built_of_parse hc h⟩

/--
`Sscanf` は、余計な 0、`+`、前の空白、後ろの文字を受け付ける。どの鍵も changeover 7 と読まれるが、
changeover 7 の鍵は `co|EDGE1|7` で、どれとも違う。
-/
theorem lenient_changeover_keys :
    parseEpisodeKey "co|EDGE1|7"
        = .ok { kind := .changeover, station := "EDGE1", changeoverID := 7 }
    ∧ ∀ key ∈ ["co|EDGE1|007", "co|EDGE1|+7", "co|EDGE1| 7", "co|EDGE1|7abc"],
      parseEpisodeKey key = .ok { kind := .changeover, station := "EDGE1", changeoverID := 7 }
      ∧ ¬ Built { kind := .changeover, station := "EDGE1", changeoverID := 7 } key := by
  refine ⟨by decide +kernel, fun key hkey => ⟨?_, fun h => ?_⟩⟩
  · revert key
    decide +kernel
  · have hne : ∀ key ∈ ["co|EDGE1|007", "co|EDGE1|+7", "co|EDGE1| 7", "co|EDGE1|7abc"],
        key ≠ changeoverEpisodeKey "EDGE1" 7 := by decide
    exact hne key hkey (h.eq_of_changeover rfl)

end Shingo.Protocol
