import Shingo.Properties.OrderStability

/-!
# Edge の写しは Core に追いつく

Core の order が表の上をどう動いても、Edge が受け取った envelope が途中どれだけ抜けていても、
操作者が触らなければ、Edge の status は最後に聞いた status（`told`）になる。それが Core の status に
等しければ、Edge は追いついている。ただし次を除く。

* ack の言う acknowledged は、Core の status ではない。
* delivered の envelope だけは抜けた知らせを飛び越さない（`transition`）。dispatched、inTransit、
  staged、faulted のどれかを聞いた後でなければ、Edge は delivered にならない。
* autoConfirm の order は、delivered を聞くとその場で confirmed になる。

証明の筋: 終わりの status を言う envelope は、道のりの最後の status を言う（`sent_of_terminal`）。
それまでの envelope は、終わっていない写しを終わらせない。
-/

namespace Shingo.Edge

open Dispatch List MirrorRow
open Core
open Infra (runSteps)

/-! ## 重ならない呼び出し -/

/-- **`receive` は、一つだけで終わりまで動いた呼び出しの書く row。** -/
theorem receive_eq_callAlone (row : MirrorRow) (m : CoreMessage) :
    (runSteps mirrorStep { row } (callAlone (.message m) 0)).row = row.receive m := by
  -- status も envelope も有限なので、どの組でも歩いて確かめられる
  obtain ⟨status, autoConfirm⟩ := row
  cases m with
  | update coreStatus => cases coreStatus <;> cases status <;> cases autoConfirm <;> decide +kernel
  | error code =>
    cases code with
    | other code => cases status <;> cbv
    | manifestSyncFailed | invalidState => cases status <;> cases autoConfirm <;> decide +kernel
  | ack | waybill | delivered | skipped | cancelled | staged =>
    cases status <;> cases autoConfirm <;> decide +kernel

theorem applyCoreStatus_eq (row : MirrorRow) (status : OrderStatus) :
    row.applyCoreStatus status =
      if status ∈ [.dispatched, .inTransit, .faulted, .queued, .sourcing, .confirmed]
          ∧ row.status.isTerminal = false then row.forceTransition status
      else row := by
  cases status <;>
    simp [applyCoreStatus, applyCoreStatus.adopt] <;>
    cases row.status.isTerminal <;> rfl

/-! ## 聞いた status -/

/-- envelope が Edge に言う status。一般の update のうち、専用の envelope のある status は言わない。 -/
def statedBy : CoreMessage → Option OrderStatus
  | .ack => some .acknowledged
  | .waybill => some .inTransit
  | .update status =>
    if status ∈ [.dispatched, .inTransit, .faulted, .queued, .sourcing, .confirmed] then some status
    else none
  | .delivered => some .delivered
  | .error (.other _) => some .failed
  | .error _ => none
  | .skipped => some .skipped
  | .cancelled => some .cancelled
  | .staged => some .staged

/-- 終わりの status を聞いた後は、ほかを聞かない。 -/
def tell (status : OrderStatus) (m : CoreMessage) : OrderStatus :=
  if status.isTerminal then status else (statedBy m).getD status

def told (received : List CoreMessage) : OrderStatus := received.foldl tell .submitted

/-! ## 道のりの間に送るもの -/

def Underway (status : OrderStatus) : Prop := status.isTerminal = false ∧ status ≠ .delivered
  deriving Decidable

def underwayMessage : CoreMessage → Bool
  | .ack | .waybill | .staged => true
  | .update status => status ≠ .confirmed
  | _ => false

inductive Closes : CoreMessage → OrderStatus → Prop
  | failed (code : String) : Closes (.error (.other code)) .failed
  | skipped : Closes .skipped .skipped
  | cancelled : Closes .cancelled .cancelled
  | confirmed : Closes (.update .confirmed) .confirmed

variable {x : CoreMessage} {status final : OrderStatus}

section Path

variable {src start : OrderStatus} {m : CoreMove} {path : List CoreMove}

theorem eq_nil_of_terminal (hsrc : src.isTerminal = true) (h : FollowsTable src path) :
    path = [] := by
  cases path with
  | nil => rfl
  | cons m rest =>
    have hlive := isTerminal_of_validTransition h.1
    rw [hsrc] at hlive
    cases hlive

theorem isTerminal_of_delivered (h : isValidTransition .delivered m.dst = true) :
    m.dst.isTerminal = true := by
  cases hdst : m.dst <;> rw [hdst] at h <;> first | rfl | cases h

theorem statusAfter_of_terminal (hsrc : src.isTerminal = true) (h : FollowsTable src path) :
    statusAfter src path = src := by
  rw [eq_nil_of_terminal hsrc h]
  rfl

theorem delivered_path (h : FollowsTable .delivered path) :
    path = [] ∨ ∃ m, path = [m] ∧ m.dst.isTerminal = true := by
  cases path with
  | nil => exact .inl rfl
  | cons m rest =>
    have hterminal := isTerminal_of_delivered h.1
    exact .inr ⟨m, by rw [eq_nil_of_terminal hterminal h.2.2], hterminal⟩

theorem Closes.isTerminal (h : Closes x final) : final.isTerminal = true := by
  cases h <;> rfl

theorem sends_cases (hx : x ∈ m.sends src) :
    underwayMessage x = true ∨ (x = .delivered ∧ m.dst = .delivered) ∨ Closes x m.dst := by
  simp only [CoreMove.sends, mem_append, mem_ite_nil_right, mem_singleton] at hx
  rcases hx with (⟨-, rfl⟩ | hx) | ⟨-, rfl⟩
  · exact .inl rfl
  · unfold CoreMove.announces at hx
    split at hx <;> rename_i hdst <;>
    all_goals grind [underwayMessage, Closes]
  · exact .inl rfl

theorem sent_cases (h : FollowsTable start path) (hx : x ∈ sent start path) :
    underwayMessage x = true ∨ (x = .delivered ∧ ¬Underway (statusAfter start path)) ∨
      Closes x (statusAfter start path) := by
  induction path generalizing start with
  | nil => cases hx
  | cons m rest ih =>
    obtain ⟨-, -, hrest⟩ := h
    rcases mem_append.mp hx with hx | hx
    · show _ ∨ (_ ∧ ¬Underway (statusAfter m.dst rest)) ∨ Closes x (statusAfter m.dst rest)
      rcases sends_cases hx with hx | ⟨hx, hdst⟩ | hx
      · exact .inl hx
      · refine .inr (.inl ⟨hx, ?_⟩)
        rw [hdst] at hrest ⊢
        rcases delivered_path hrest with rfl | ⟨m', rfl, hterminal⟩
        · exact fun h => h.2 rfl
        · intro h
          rw [show statusAfter .delivered [m'] = m'.dst from rfl] at h
          rw [h.1] at hterminal
          cases hterminal
      · rw [statusAfter_of_terminal hx.isTerminal hrest]
        exact .inr (.inr hx)
    · exact ih hrest hx

theorem sent_of_delivered (hstart : start ≠ .delivered) (h : FollowsTable start path)
    (hfinal : statusAfter start path = .delivered) :
    ∃ early, sent start path = early ++ [.delivered, .update .delivered] ∧
      ∀ x ∈ early, underwayMessage x = true := by
  induction path generalizing start with
  | nil => exact absurd hfinal hstart
  | cons m rest ih =>
    obtain ⟨-, hreply, hrest⟩ := h
    have hfinal : statusAfter m.dst rest = .delivered := hfinal
    by_cases hdst : m.dst = .delivered
    · have hnil : rest = [] := by
        rw [hdst] at hrest hfinal
        rcases delivered_path hrest with hnil | ⟨m', rfl, hterminal⟩
        · exact hnil
        · rw [show m'.dst = .delivered from hfinal] at hterminal
          cases hterminal
      have hreplied : m.replied = false := by
        cases hreplied : m.replied with
        | false => rfl
        | true =>
          have hmem := hreply hreplied
          rw [hdst] at hmem
          simp at hmem
      refine ⟨if m.byFleet && m.robotAssigned then [.waybill] else [], ?_, ?_⟩
      · simp [hnil, sent, CoreMove.sends, CoreMove.announces, hdst, hreplied]
      · intro x hx
        rw [mem_ite_nil_right, mem_singleton] at hx
        rw [hx.2]
        rfl
    · obtain ⟨early, hsent, hearly⟩ := ih hdst hrest hfinal
      refine ⟨m.sends start ++ early, ?_, ?_⟩
      · rw [sent, hsent, append_assoc]
      · intro x hx
        rcases mem_append.mp hx with hx | hx
        · rcases sends_cases hx with hx | ⟨-, hx⟩ | hx
          · exact hx
          · exact absurd hx hdst
          · -- 終わっていれば、そこで道のりも終わっている
            have hterminal := hx.isTerminal
            rw [statusAfter_of_terminal hterminal hrest] at hfinal
            exact absurd hfinal hdst
        · exact hearly x hx

end Path

/-! ## envelope 一つを受ける -/

section Receive

variable {row : MirrorRow}

-- status も envelope も有限なので、次の補題はどの組でも確かめられる

theorem receive_live (h : row.status.isTerminal = false) (hx : underwayMessage x = true) :
    (row.receive x).status.isTerminal = false := by
  obtain ⟨status, auto⟩ := row
  cases x with
  | ack | waybill | staged =>
    revert h
    cases status <;> cases auto <;> decide +kernel
  | update coreStatus =>
    revert h hx
    cases coreStatus <;> cases status <;> cases auto <;> decide +kernel
  | delivered | error code | skipped | cancelled => cases hx

theorem receive_closes (h : row.status.isTerminal = false) (hx : Closes x final) :
    (row.receive x).status = final := by
  obtain ⟨status, auto⟩ := row
  revert h
  cases hx with
  | failed code =>
    show _ → (tryTransition _ .failed).status = .failed
    cases status <;> cases auto <;> decide +kernel
  | skipped | cancelled | confirmed => cases status <;> cases auto <;> decide +kernel

theorem receive_of_terminal (h : row.status.isTerminal = true)
    (hx : underwayMessage x = true ∨ x = .delivered ∨ Closes x row.status) :
    row.receive x = row := by
  obtain ⟨status, auto⟩ := row
  revert h
  cases x with
  | ack | waybill | staged | delivered | cancelled =>
    cases status <;> cases auto <;> decide +kernel
  | update coreStatus => cases coreStatus <;> cases status <;> cases auto <;> decide +kernel
  | skipped | error code =>
    rcases hx with hx | hx | hx
    · cases hx
    · cases hx
    · intro _
      cases hx
      cases auto <;> rfl

theorem receive_autoConfirm (row : MirrorRow) (x : CoreMessage) :
    (row.receive x).autoConfirm = row.autoConfirm := by
  obtain ⟨status, auto⟩ := row
  cases x with
  | ack | waybill | delivered | skipped | cancelled | staged =>
    cases status <;> cases auto <;> decide +kernel
  | update coreStatus => cases coreStatus <;> cases status <;> cases auto <;> decide +kernel
  | error code =>
    cases code with
    | manifestSyncFailed | invalidState => cases status <;> cases auto <;> decide +kernel
    | other code =>
      show (tryTransition _ .failed).autoConfirm = _
      cases status <;> cases auto <;> decide +kernel

theorem handleDelivered_cases (hlive : row.status.isTerminal = false) :
    row.handleDelivered = row ∨ row.handleDelivered.status = .delivered ∨
      (row.autoConfirm = true ∧ row.handleDelivered.status = .confirmed) := by
  obtain ⟨status, auto⟩ := row
  revert hlive
  cases status <;> cases auto <;> decide +kernel

theorem mirrorTransition_of_underway (h : Underway row.status)
    (hstatus : status ∈ [OrderStatus.inTransit, .staged]) :
    (row.mirrorTransition status).status = status := by
  obtain ⟨rowStatus, auto⟩ := row
  revert h
  simp only [mem_cons, not_mem_nil, or_false] at hstatus
  rcases hstatus with rfl | rfl <;> cases rowStatus <;> cases auto <;> decide +kernel

theorem underway_of_adopted
    (h : status ∈ [.dispatched, .inTransit, .faulted, .queued, .sourcing, .confirmed])
    (hx : underwayMessage (.update status) = true) : Underway status := by
  simp only [mem_cons, not_mem_nil, or_false] at h
  rcases h with rfl | rfl | rfl | rfl | rfl | rfl
  all_goals first | exact ⟨rfl, nofun⟩ | cases hx

theorem foldl_receive_autoConfirm (received : List CoreMessage) (row : MirrorRow) :
    (received.foldl receive row).autoConfirm = row.autoConfirm := by
  induction received generalizing row with
  | nil => rfl
  | cons x rest ih => rw [foldl_cons, ih, receive_autoConfirm]

theorem tell_live (h : status.isTerminal = false) : tell status x = (statedBy x).getD status := by
  simp [tell, h]

theorem tell_of_terminal (h : status.isTerminal = true) : tell status x = status := by
  simp [tell, h]

theorem tell_closes (h : status.isTerminal = false) (hx : Closes x final) :
    tell status x = final := by
  rw [tell_live h]
  cases hx <;> rfl

theorem underway_of_statedBy (hx : underwayMessage x = true) (h : statedBy x = some status) :
    Underway status := by
  cases x with
  | ack | waybill | staged => cases h; exact ⟨rfl, nofun⟩
  | update coreStatus =>
    dsimp only [statedBy] at h
    split at h
    · next hmem =>
      cases h
      exact underway_of_adopted hmem hx
    · cases h
  | delivered | error code | skipped | cancelled => cases hx

theorem tell_cases (h : status.isTerminal = false) (hx : underwayMessage x = true) :
    tell status x = status ∨ Underway (tell status x) := by
  rw [tell_live h]
  cases hstated : statedBy x with
  | none => exact .inl rfl
  | some s => exact .inr (underway_of_statedBy hx hstated)

end Receive

/-! ## 道のりの途中 -/

/-- 途中の写し。聞いた status になっている。ack の後だけは、途中のどこか。 -/
structure Follows (status : OrderStatus) (row : MirrorRow) : Prop where
  heard : Underway status
  live : Underway row.status
  same : status ≠ .acknowledged → row.status = status

variable {row : MirrorRow}

theorem Follows.receive (h : Follows status row) (hx : underwayMessage x = true) :
    Follows (tell status x) (row.receive x) := by
  have htold : Underway (tell status x) := by
    rcases tell_cases h.heard.1 hx with hsame | hunderway
    · rw [hsame]
      exact h.heard
    · exact hunderway
  cases x with
  | ack =>
    refine ⟨htold, ?_, fun hnot => absurd (tell_live h.heard.1) hnot⟩
    show Underway (row.mirrorTransition .acknowledged).status
    obtain ⟨rowStatus, auto⟩ := row
    have hlive := h.live
    revert hlive
    cases rowStatus <;> cases auto <;> decide +kernel
  | waybill =>
    have hrow : (row.receive .waybill).status = .inTransit :=
      mirrorTransition_of_underway h.live (by simp)
    exact ⟨htold, by rw [hrow]; exact ⟨rfl, nofun⟩, fun _ => by rw [hrow, tell_live h.heard.1]; rfl⟩
  | staged =>
    have hrow : (row.receive .staged).status = .staged :=
      mirrorTransition_of_underway h.live (by simp)
    exact ⟨htold, by rw [hrow]; exact ⟨rfl, nofun⟩, fun _ => by rw [hrow, tell_live h.heard.1]; rfl⟩
  | update coreStatus =>
    rw [tell_live h.heard.1, MirrorRow.receive, applyCoreStatus_eq]
    dsimp only [statedBy]
    by_cases hmem : coreStatus ∈
        [OrderStatus.dispatched, .inTransit, .faulted, .queued, .sourcing, .confirmed]
    · have hunderway := underway_of_adopted hmem hx
      rw [if_pos hmem, if_pos ⟨hmem, h.live.1⟩]
      exact ⟨hunderway, hunderway, fun _ => rfl⟩
    · rw [if_neg hmem, if_neg fun hadopt => hmem hadopt.1]
      exact h
  | delivered | error code | skipped | cancelled => cases hx

variable {received : List CoreMessage}

theorem Follows.run (hrow : row.status = .submitted)
    (h : ∀ x ∈ received, underwayMessage x = true) :
    Follows (told received) (received.foldl MirrorRow.receive row) := by
  refine foldl_rel (r := Follows) ⟨⟨rfl, nofun⟩, ?_, fun _ => hrow⟩ ?_
  · rw [hrow]
    exact ⟨rfl, nofun⟩
  · exact fun x hx _ _ hfollows => hfollows.receive (h x hx)

/-! ## 終わる道のり -/

/--
`final` で終わる道のりの写し。

終わったと聞いていれば `final` になっている。まだ聞いていなければ終わっていないか、
届いてすぐ自分で確かめている。
-/
structure Settling (final : OrderStatus) (auto : Bool) (status : OrderStatus) (row : MirrorRow) :
    Prop where
  auto : row.autoConfirm = auto
  closed : status.isTerminal = true → status = final ∧ row.status = final
  live : status.isTerminal = false →
    row.status.isTerminal = false ∨ (final = .confirmed ∧ row.status = .confirmed)

theorem Settling.receive {auto : Bool} (h : Settling final auto status row)
    (hx : underwayMessage x = true ∨ (x = .delivered ∧ (auto = true → final = .confirmed)) ∨
      Closes x final) : Settling final auto (tell status x) (row.receive x) := by
  have hauto : (row.receive x).autoConfirm = auto := by rw [receive_autoConfirm, h.auto]
  -- もう `final` の row は、どの envelope でも動かない
  have hkeep : final.isTerminal = true → row.status = final → row.receive x = row := by
    intro hterminal hfinal
    refine receive_of_terminal (by rw [hfinal]; exact hterminal) ?_
    rw [hfinal]
    exact hx.imp_right (Or.imp_left And.left)
  cases hstatus : status.isTerminal with
  | true =>
    obtain ⟨hsame, hfinal⟩ := h.closed hstatus
    rw [tell_of_terminal hstatus, hkeep (hsame ▸ hstatus) hfinal]
    exact h
  | false =>
    rcases hx with hx | ⟨rfl, hconfirm⟩ | hx
    · have hlive : (tell status x).isTerminal = false := by
        rcases tell_cases hstatus hx with hsame | hunderway
        · rw [hsame]
          exact hstatus
        · exact hunderway.1
      refine ⟨hauto, fun hterminal => ?_, fun _ => ?_⟩
      · rw [hlive] at hterminal
        cases hterminal
      · rcases h.live hstatus with hrow | ⟨hfinal, hrow⟩
        · exact .inl (receive_live hrow hx)
        · exact .inr ⟨hfinal, by rw [hkeep (by rw [hfinal]; rfl) (by rw [hrow, hfinal]), hrow]⟩
    · rw [tell_live hstatus]
      refine ⟨hauto, nofun, fun _ => ?_⟩
      rcases h.live hstatus with hrow | ⟨hfinal, hrow⟩
      · rcases handleDelivered_cases hrow with hsame | hdelivered | ⟨hauto', hconfirmed⟩
        · exact .inl (by rw [MirrorRow.receive, hsame]; exact hrow)
        · exact .inl (by rw [MirrorRow.receive, hdelivered]; rfl)
        · exact .inr ⟨hconfirm (h.auto ▸ hauto'), hconfirmed⟩
      · exact .inr ⟨hfinal, by rw [hkeep (by rw [hfinal]; rfl) (by rw [hrow, hfinal]), hrow]⟩
    · -- 終わりを聞いた
      have hterminal := hx.isTerminal
      rw [tell_closes hstatus hx]
      refine ⟨hauto, fun _ => ⟨rfl, ?_⟩, fun hlive => ?_⟩
      · rcases h.live hstatus with hlive | ⟨hfinal, hrow⟩
        · exact receive_closes hlive hx
        · rw [hkeep hterminal (hrow.trans hfinal.symm), hrow, hfinal]
      · rw [hterminal] at hlive
        cases hlive

/-! ## 追いつく -/

/--
追いつくための条件。

`heard` — 最後に聞いた status が、Core の status。
`stated` — それは ack の言う acknowledged ではない。
`stepped` — delivered で止まるなら、その前に聞いた status から delivered に一歩で行ける。
`confirmed` — autoConfirm の order に届いた知らせが来たなら、Core も confirmed まで進んでいる。
-/
structure HeardOut (final : OrderStatus) (received : List CoreMessage) (row : MirrorRow) :
    Prop where
  heard : told received = final
  stated : final ≠ .acknowledged
  stepped : final = .delivered → isValidTransition
    (told (received.takeWhile fun x => x ≠ .delivered)) .delivered = true
  confirmed : row.autoConfirm = true → .delivered ∈ received → final = .confirmed

theorem HeardOut.delivered {early : List CoreMessage}
    (hearly : ∀ x ∈ early, underwayMessage x = true)
    (hreceived : received.Sublist (early ++ [.delivered, .update .delivered]))
    (hrow : row.status = .submitted) (h : HeardOut .delivered received row) :
    (received.foldl receive row).status = .delivered := by
  obtain ⟨before, after, rfl, hbefore, hafter⟩ := sublist_append_iff.mp hreceived
  have hbefore : ∀ x ∈ before, underwayMessage x = true := fun x hx =>
    hearly x (hbefore.subset hx)
  rcases sublist_cons_iff.mp hafter with hafter | ⟨rest, rfl, hrest⟩
  · -- delivered を受け取っていなければ、聞いた status は途中のもの
    have hall : ∀ x ∈ before ++ after, underwayMessage x = true := by
      intro x hx
      rcases mem_append.mp hx with hx | hx
      · exact hbefore x hx
      · rw [mem_singleton.mp (hafter.subset hx)]
        rfl
    exact absurd h.heard (Follows.run hrow hall).heard.2
  · have hfollows := Follows.run hrow hbefore
    have htake : (before ++ CoreMessage.delivered :: rest).takeWhile (fun x => x ≠ .delivered) =
        before := by
      rw [takeWhile_append_of_pos]
      · simp
      · intro x hx
        have := hbefore x hx
        cases x <;> first | rfl | cases this
    have hvalid := h.stepped rfl
    rw [htake] at hvalid
    have hstatus := hfollows.same fun hack => by
      rw [hack] at hvalid
      cases hvalid
    have hauto : (before.foldl receive row).autoConfirm = false := by
      rw [foldl_receive_autoConfirm, Bool.eq_false_iff]
      intro hauto
      cases h.confirmed hauto (by simp)
    have hdelivered : (before.foldl receive row).receive .delivered =
        (before.foldl MirrorRow.receive row).forceTransition .delivered := by
      rw [← hstatus] at hvalid
      simp [receive, handleDelivered, transition, hvalid,
        forceTransition, hauto]
    rw [foldl_append, foldl_cons, hdelivered]
    rcases sublist_singleton.mp hrest with rfl | rfl <;> rfl

/-- **写しは Core に追いつく。** -/
theorem mirror_catches_up (start : OrderStatus) (hstart : Underway start) (path : List CoreMove)
    (hpath : FollowsTable start path) (received : List CoreMessage)
    (hreceived : received.Sublist (sent start path)) (row : MirrorRow)
    (hrow : row.status = .submitted) (h : HeardOut (statusAfter start path) received row) :
    (received.foldl receive row).status = statusAfter start path := by
  have hsent : ∀ x ∈ received, _ := fun x hx => sent_cases hpath (hreceived.subset hx)
  cases hterminal : (statusAfter start path).isTerminal with
  | true =>
    have hsettling : Settling (statusAfter start path) row.autoConfirm (told received)
        (received.foldl receive row) := by
      refine foldl_rel ⟨rfl, nofun, fun _ => .inl (by rw [hrow]; rfl)⟩ ?_
      intro x hx status row' hsettling
      refine hsettling.receive ((hsent x hx).imp_right (Or.imp_left ?_))
      rintro ⟨rfl, -⟩
      exact ⟨rfl, fun hauto => h.confirmed hauto hx⟩
    exact (hsettling.closed (by rw [h.heard]; exact hterminal)).2
  | false =>
    by_cases hdelivered : statusAfter start path = .delivered
    · obtain ⟨early, hsent, hearly⟩ := sent_of_delivered hstart.2 hpath hdelivered
      rw [hsent] at hreceived
      rw [hdelivered] at h ⊢
      exact h.delivered hearly hreceived hrow
    · -- 途中で止まった道のり
      have hfollows := Follows.run hrow fun x hx => by
        rcases hsent x hx with hx | ⟨-, hx⟩ | hx
        · exact hx
        · exact absurd ⟨hterminal, hdelivered⟩ hx
        · rw [hx.isTerminal] at hterminal
          cases hterminal
      rw [hfollows.same, h.heard]
      rw [h.heard]
      exact h.stated

def complexPath : List CoreMove :=
  [{ dst := .queued, acked := true }, { dst := .dispatched, acked := true, waybilled := true },
    { dst := .inTransit, byFleet := true, robotAssigned := true },
    { dst := .delivered, byFleet := true }]

theorem mirror_catches_up_complexPath :
    (([.waybill, .update .inTransit, .delivered] : List CoreMessage).foldl receive
      { status := .submitted }).status = statusAfter .pending complexPath :=
  mirror_catches_up .pending ⟨rfl, nofun⟩ complexPath (by decide) _ (by decide) _ rfl
    ⟨rfl, nofun, fun _ => rfl, nofun⟩

/-- **追いつかない場合。** -/
theorem mirror_left_behind :
    (let received : List CoreMessage := [.ack, .delivered, .update .delivered];
      FollowsTable .pending complexPath ∧ received.Sublist (sent .pending complexPath) ∧
        received.getLast? = (sent .pending complexPath).getLast? ∧
        (received.foldl receive { status := .submitted }).status = .acknowledged ∧
        statusAfter .pending complexPath = .delivered) ∧
    (let path := complexPath.take 2;
      FollowsTable .pending path ∧
        ((sent .pending path).foldl receive { status := .submitted }).status
          = .inTransit ∧
        statusAfter .pending path = .dispatched) := by
  decide +kernel

end Shingo.Edge
