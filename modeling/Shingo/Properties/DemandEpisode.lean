import Shingo.Infra.Run
import Shingo.Edge.DemandEpisode

/-!
# demand episode の呼び出しの入れ子

`openCellEpisode`、`joinOpenCellEpisode`、`closeEpisode` を一文ずつ、どの順にも混ぜて進める。
-/

namespace Shingo.Edge

open Infra Protocol List EpisodeCalls

/-! ## 何も挟まらない呼び出し -/

theorem episodeStep_last (key : String) (e : EpisodeEdge) (cs : List EpisodeCall) (c : EpisodeCall)
    (ok : Bool) : episodeStep key ⟨e, cs ++ [c]⟩ (.statement cs.length ok)
      = ⟨(c.exec key e ok).1, cs ++ [(c.exec key e ok).2]⟩ := by
  simp [episodeStep]

def statements (i : Nat) (oks : List Bool) : List EpisodeAction := oks.map (.statement i)

section

variable (key : String) (w : EpisodeCalls)
include key w

theorem join_alone (mint : Option (String × EpisodeContent))
    (r : OpenOrigin) (hrow : w.edge.row = some r) (originID : String) (content : EpisodeContent)
    (enqueueOk : Bool) : (runSteps (episodeStep key) w
        (.request mint :: statements w.calls.length [true, true, true, enqueueOk])).edge
      = w.edge.request key originID content enqueueOk := by
  obtain ⟨⟨row, sent⟩, calls⟩ := w
  cases hrow
  simp only [runSteps, statements, map_cons, map_nil, foldl_cons, foldl_nil]
  rw [show episodeStep key ⟨⟨some r, sent⟩, calls⟩ (.request mint)
    = ⟨⟨some r, sent⟩, calls ++ [.find mint]⟩ from rfl]
  simp only [episodeStep_last, EpisodeCall.exec]
  rfl

theorem mint_alone (originID : String) (content : EpisodeContent)
    (hrow : w.edge.row = none) (enqueueOk : Bool) : (runSteps (episodeStep key) w
        (.request (some (originID, content))
          :: statements w.calls.length [true, true, enqueueOk])).edge
      = w.edge.request key originID content enqueueOk := by
  obtain ⟨⟨row, sent⟩, calls⟩ := w
  cases hrow
  simp only [runSteps, statements, map_cons, map_nil, foldl_cons, foldl_nil]
  rw [show episodeStep key ⟨⟨none, sent⟩, calls⟩ (.request (some (originID, content)))
    = ⟨⟨none, sent⟩, calls ++ [.find (some (originID, content))]⟩ from rfl]
  simp only [episodeStep_last, EpisodeCall.exec]
  rfl

theorem close_alone (closed : EpisodeClose)
    (enqueueOk deleteOk : Bool) : (runSteps (episodeStep key) w
        (.close closed :: statements w.calls.length [true, true, enqueueOk, deleteOk])).edge
      = w.edge.close closed enqueueOk deleteOk := by
  obtain ⟨⟨row, sent⟩, calls⟩ := w
  simp only [runSteps, statements, map_cons, map_nil, foldl_cons, foldl_nil]
  rw [show episodeStep key ⟨⟨row, sent⟩, calls⟩ (.close closed)
    = ⟨⟨row, sent⟩, calls ++ [.bump closed]⟩ from rfl]
  simp only [episodeStep_last]
  cases row with
  | none => rfl
  | some r =>
    cases enqueueOk with
    | false => rfl
    | true => cases deleteOk <;> rfl

/-! ## 電文と行 -/

end

variable (w : EpisodeCalls)

def Announced (originID : String) (rev : Nat) : Prop :=
  (∃ m ∈ w.edge.sent, m.closed = none ∧ m.originID = originID ∧ m.revision = rev)
    ∨ ∃ c ∈ w.calls, ∃ r, c.pending = some r ∧ r.originID = originID ∧ r.revision = rev

def ClosedSent (originID : String) : Prop :=
  ∃ m ∈ w.edge.sent, m.originID = originID ∧ m.closed ≠ none

def EpisodeCallOk : EpisodeCall → Prop
  | .read _ => ∀ r, w.edge.row = some r → ∀ rev, Announced w r.originID rev → rev < r.revision
  | .emitClosed r _ => w.edge.row = some r ∧ ∀ rev, Announced w r.originID rev → rev < r.revision
  | .delete => ∀ r, w.edge.row = some r → ClosedSent w r.originID
  | .emitJoined r => ¬ ClosedSent w r.originID
  | .joined originID before => before ≤ w.edge.sent.length
      ∧ ∀ m ∈ w.edge.sent.take before, m.originID = originID → m.closed = none
  | _ => True

structure EpisodeInv (w : EpisodeCalls) : Prop where
  oneClosing : ∀ (i j : Nat) c d, w.calls[i]? = some c → w.calls[j]? = some d →
    c.closing = true → d.closing = true → i = j
  bound : ∀ r, w.edge.row = some r → ∀ rev, Announced w r.originID rev → rev ≤ r.revision
  gone : ∀ originID rev, Announced w originID rev →
    (∀ r, w.edge.row = some r → r.originID ≠ originID) → ClosedSent w originID
  below : ∀ m ∈ w.edge.sent, m.closed ≠ none → ∀ rev, Announced w m.originID rev → rev < m.revision
  deleting : ∀ r, w.edge.row = some r → ClosedSent w r.originID →
    ∃ i : Nat, w.calls[i]? = some .delete
  callsOk : ∀ (i : Nat) c, w.calls[i]? = some c → EpisodeCallOk w c

/--
文を挟む条件。

* close の `UPDATE` から返るまで、ほかの呼び出しの `UPDATE`、`INSERT`、加わった後の `SELECT` は
  実行しない
* 加わった `SELECT` から電文までの間に、その episode の閉じた電文を送らない
* 新しい id は使ったことの無いもので、`DELETE` は失敗しない
-/
def StatementOk (ok : Bool) : EpisodeCall → Prop
  | .join _ | .reread _ | .bump _ => ∀ c ∈ w.calls, c.closing = false
  | .insert originID _ => (∀ c ∈ w.calls, c.closing = false)
    ∧ (∀ m ∈ w.edge.sent, m.originID ≠ originID)
    ∧ ∀ c ∈ w.calls, ∀ r ∈ c.pending, r.originID ≠ originID
  | .emitClosed r _ => ∀ c ∈ w.calls, ∀ r' ∈ c.pending, c = .emitJoined r' →
    r'.originID ≠ r.originID
  | .delete => ok = true
  | _ => True

instance (w : EpisodeCalls) (ok : Bool) : ∀ c, Decidable (StatementOk w ok c)
  | .join _ | .reread _ | .bump _ => inferInstanceAs (Decidable (∀ c ∈ w.calls, c.closing = false))
  | .insert _ _ => inferInstanceAs (Decidable (_ ∧ _ ∧ _))
  | .emitClosed _ _ => inferInstanceAs (Decidable (∀ _ ∈ _, ∀ _ ∈ _, _ → _))
  | .delete => inferInstanceAs (Decidable (ok = true))
  | .find _ | .emitJoined _ | .emitOpened _ | .read _ => .isTrue trivial
  | .joined _ _ | .opened _ | .failed _ | .finished => .isTrue trivial

def KeepsApart : EpisodeAction → Prop
  | .request _ => True
  | .close _ => True
  | .statement i ok => ∀ c ∈ w.calls[i]?, StatementOk w ok c

instance (w : EpisodeCalls) : ∀ a, Decidable (KeepsApart w a)
  | .request _ => .isTrue trivial
  | .close _ => .isTrue trivial
  | .statement _ _ => inferInstanceAs (Decidable (∀ _ ∈ _, _))

/-! ## 一文の前後 -/

variable {m : DemandOriginState} {e : EpisodeEdge} {i : Nat}

section

variable {w : EpisodeCalls} {c c' : EpisodeCall} {originID : String} {rev : Nat}

theorem announced_set (hsent : ∀ m ∈ e.sent, m.closed = none → Announced w m.originID m.revision)
    (h : Announced ⟨e, w.calls.set i c'⟩ originID rev) :
    Announced w originID rev ∨ ∃ r, c'.pending = some r ∧ r.originID = originID
      ∧ r.revision = rev := by
  rcases h with ⟨m, hm, hopen, rfl, rfl⟩ | ⟨d, hd, r, hr, hid, hrev⟩
  · exact .inl (hsent m hm hopen)
  · rcases mem_or_eq_of_mem_set hd with hd | rfl
    · exact .inl (.inr ⟨d, hd, r, hr, hid, hrev⟩)
    · exact .inr ⟨r, hr, hid, hrev⟩

theorem announced_idle (hsent : ∀ m ∈ e.sent, m.closed = none → Announced w m.originID m.revision)
    (hp : c'.pending = none) (h : Announced ⟨e, w.calls.set i c'⟩ originID rev) :
    Announced w originID rev := by
  rcases announced_set hsent h with h | ⟨r, hr, -⟩
  · exact h
  · rw [hp] at hr
    cases hr

theorem announced_of_sent (hm : m ∈ w.edge.sent) (hopen : m.closed = none) :
    Announced w m.originID m.revision :=
  .inl ⟨m, hm, hopen, rfl, rfl⟩

theorem EpisodeCallOk.mono {w' : EpisodeCalls} (h : EpisodeCallOk w c)
    (more : List DemandOriginState) (hclosing : c.closing = true → w'.edge.row = w.edge.row
      ∧ ∀ originID rev, Announced w' originID rev → Announced w originID rev)
    (hsent : w'.edge.sent = w.edge.sent ++ more)
    (hmore : ∀ r, c = .emitJoined r → ∀ m ∈ more, m.originID = r.originID → m.closed = none) :
    EpisodeCallOk w' c := by
  cases c with
  | read closed =>
    obtain ⟨hrow, hann⟩ := hclosing rfl
    intro r hr rev hrev
    exact h r (hrow ▸ hr) rev (hann _ _ hrev)
  | emitClosed r closed =>
    obtain ⟨hrow, hann⟩ := hclosing rfl
    exact ⟨hrow.trans h.1, fun rev hrev => h.2 rev (hann _ _ hrev)⟩
  | delete =>
    obtain ⟨hrow, -⟩ := hclosing rfl
    intro r hr
    obtain ⟨m, hm, hmid⟩ := h r (hrow ▸ hr)
    exact ⟨m, hsent ▸ mem_append_left _ hm, hmid⟩
  | emitJoined r =>
    rintro ⟨m, hm, hid, hclosed⟩
    rw [hsent] at hm
    rcases mem_append.mp hm with hm | hm
    · exact h ⟨m, hm, hid, hclosed⟩
    · exact hclosed (hmore r rfl m hm hid)
  | joined originID before =>
    obtain ⟨hlen, hopen⟩ := h
    refine ⟨?_, ?_⟩
    · rw [hsent, length_append]
      omega
    · rw [hsent, take_append_of_le_length hlen]
      exact hopen
  | _ => trivial

end

namespace EpisodeInv

variable {w : EpisodeCalls} {c c' : EpisodeCall}

theorem oneClosing_set (h : EpisodeInv w) (hi : w.calls[i]? = some c)
    (hcl : c'.closing = true → c.closing = true ∨ ∀ d ∈ w.calls, d.closing = false) :
    ∀ (j k : Nat) a b, (w.calls.set i c')[j]? = some a → (w.calls.set i c')[k]? = some b →
      a.closing = true → b.closing = true → j = k := by
  have hother : ∀ (j : Nat) a, j ≠ i → w.calls[j]? = some a → a.closing = true →
      c'.closing = false := by
    intro j a hj ha hac
    cases hc' : c'.closing with
    | false => rfl
    | true =>
      rcases hcl hc' with hc | hno
      · exact absurd (h.oneClosing j i a c ha hi hac hc) hj
      · rw [hno a (mem_of_getElem? ha)] at hac
        cases hac
  intro j k a b hj hk ha hb
  rcases getElem?_set_cases hj with ⟨rfl, rfl⟩ | ⟨hne, hj'⟩
  · rcases getElem?_set_cases hk with ⟨rfl, rfl⟩ | ⟨hne, hk'⟩
    · rfl
    · rw [hother k b hne hk' hb] at ha
      cases ha
  · rcases getElem?_set_cases hk with ⟨rfl, rfl⟩ | ⟨-, hk'⟩
    · rw [hother j a hne hj' ha] at hb
      cases hb
    · exact h.oneClosing j k a b hj' hk' ha hb

section

variable (h : EpisodeInv w)
include h

theorem keepRow (hi : w.calls[i]? = some c) (hnd : c ≠ .delete) (hrow : e.row = w.edge.row)
    (more : List DemandOriginState) (hsent : e.sent = w.edge.sent ++ more)
    (hmore : ∀ m ∈ more, m.closed = none ∧ Announced w m.originID m.revision)
    (hp : c'.pending = none) (hcl : c'.closing = true → c.closing = true)
    (hok : EpisodeCallOk ⟨e, w.calls.set i c'⟩ c') : EpisodeInv ⟨e, w.calls.set i c'⟩ := by
  have hann : ∀ originID rev, Announced ⟨e, w.calls.set i c'⟩ originID rev →
      Announced w originID rev := by
    intro originID rev
    refine announced_idle (fun m hm hopen => ?_) hp
    rw [hsent] at hm
    rcases mem_append.mp hm with hm | hm
    · exact announced_of_sent hm hopen
    · exact (hmore m hm).2
  have hclosed : ∀ m ∈ e.sent, m.closed ≠ none → m ∈ w.edge.sent := by
    intro m hm hne
    rw [hsent] at hm
    rcases mem_append.mp hm with hm | hm
    · exact hm
    · exact absurd (hmore m hm).1 hne
  refine ⟨h.oneClosing_set hi fun hc' => .inl (hcl hc'), ?_, ?_, ?_, ?_, ?_⟩
  · intro r hr rev hrev
    exact h.bound r (hrow ▸ hr) rev (hann _ _ hrev)
  · intro originID rev hrev hne
    obtain ⟨m, hm, hid⟩ := h.gone originID rev (hann _ _ hrev) fun r hr => hne r (hrow.trans hr)
    refine ⟨m, ?_, hid⟩
    rw [hsent]
    exact mem_append_left _ hm
  · intro m hm hne rev hrev
    exact h.below m (hclosed m hm hne) hne rev (hann _ _ hrev)
  · rintro r hr ⟨m, hm, hid, hne⟩
    obtain ⟨j, hj⟩ := h.deleting r (hrow ▸ hr) ⟨m, hclosed m hm hne, hid, hne⟩
    have hij : i ≠ j := by
      rintro rfl
      exact hnd (Option.some.inj (hi.symm.trans hj))
    exact ⟨j, (List.getElem?_set_ne hij).trans hj⟩
  · intro j d hj
    rcases getElem?_set_cases hj with ⟨rfl, rfl⟩ | ⟨-, hj⟩
    · exact hok
    · exact (h.callsOk j d hj).mono _ (fun _ => ⟨hrow, hann⟩) hsent
        fun r hr m hm hid => (hmore m hm).1

theorem alone (hi : w.calls[i]? = some c)
    (hno : ∀ d ∈ w.calls, d.closing = false) (hsent : e.sent = w.edge.sent)
    (hkept : ∀ r, w.edge.row = some r → ∃ r', e.row = some r' ∧ r'.originID = r.originID)
    (hrow : ∀ r', e.row = some r' → ¬ ClosedSent w r'.originID
      ∧ ∀ rev, Announced w r'.originID rev → rev ≤ r'.revision)
    (hpend : ∀ r, c'.pending = some r → e.row = some r)
    (hok : EpisodeCallOk ⟨e, w.calls.set i c'⟩ c') : EpisodeInv ⟨e, w.calls.set i c'⟩ := by
  have hann : ∀ {originID rev}, Announced ⟨e, w.calls.set i c'⟩ originID rev →
      Announced w originID rev ∨ ∃ r, c'.pending = some r ∧ r.originID = originID
        ∧ r.revision = rev :=
    announced_set fun m hm hopen => announced_of_sent (hsent ▸ hm) hopen
  have hclosed : ∀ originID, ClosedSent ⟨e, w.calls.set i c'⟩ originID ↔ ClosedSent w originID := by
    intro originID
    show (∃ m ∈ e.sent, _) ↔ _
    rw [hsent]
    rfl
  refine ⟨h.oneClosing_set hi fun _ => .inr hno, ?_, ?_, ?_, ?_, ?_⟩
  · intro r hr rev hrev
    rcases hann hrev with hrev | ⟨r', hr', -, rfl⟩
    · exact (hrow r hr).2 rev hrev
    · have heq : r' = r := Option.some.inj ((hpend r' hr').symm.trans hr)
      exact Nat.le_of_eq (congrArg OpenOrigin.revision heq)
  · intro originID rev hrev hne
    rcases hann hrev with hrev | ⟨r', hr', hid, -⟩
    · refine (hclosed originID).mpr (h.gone originID rev hrev fun r hr hid => ?_)
      obtain ⟨r', hr', hid'⟩ := hkept r hr
      exact hne r' hr' (hid'.trans hid)
    · exact absurd hid (hne r' (hpend r' hr'))
  · intro m hm hne rev hrev
    rcases hann hrev with hrev | ⟨r', hr', hid, -⟩
    · exact h.below m (hsent ▸ hm) hne rev hrev
    · exact absurd ⟨m, hsent ▸ hm, hid.symm, hne⟩ (hrow r' (hpend r' hr')).1
  · intro r hr hc
    exact absurd ((hclosed _).mp hc) (hrow r hr).1
  · intro j d hj
    rcases getElem?_set_cases hj with ⟨rfl, rfl⟩ | ⟨-, hj⟩
    · exact hok
    · refine (h.callsOk j d hj).mono [] ?_ ?_ ?_
      · intro hd
        rw [hno d (mem_of_getElem? hj)] at hd
        cases hd
      · rw [append_nil]
        exact hsent
      · exact fun _ _ => forall_mem_nil _

variable {r : OpenOrigin}

theorem not_closedSent (hno : ∀ d ∈ w.calls, d.closing = false) (hr : w.edge.row = some r) :
    ¬ ClosedSent w r.originID := by
  intro hc
  obtain ⟨j, hj⟩ := h.deleting r hr hc
  exact Bool.noConfusion (hno _ (mem_of_getElem? hj))

theorem emitClosed {closed : EpisodeClose} (hi : w.calls[i]? = some (.emitClosed r closed))
    (hapart : ∀ c ∈ w.calls, ∀ r' ∈ c.pending, c = .emitJoined r' → r'.originID ≠ r.originID) :
    EpisodeInv ⟨w.edge.emit (r.state (some closed)) true, w.calls.set i .delete⟩ := by
  obtain ⟨hrow, hlt⟩ := h.callsOk i _ hi
  have hsent : (w.edge.emit (r.state (some closed)) true).sent
      = w.edge.sent ++ [r.state (some closed)] := rfl
  have hold : ∀ {m}, m ∈ (w.edge.emit (r.state (some closed)) true).sent →
      m ∈ w.edge.sent ∨ m = r.state (some closed) := by
    intro m hm
    exact (mem_append.mp hm).imp_right mem_singleton.mp
  have hann : ∀ originID rev,
      Announced ⟨w.edge.emit (r.state (some closed)) true, w.calls.set i .delete⟩ originID rev →
      Announced w originID rev := by
    intro originID rev
    refine announced_idle (fun m hm hopen => ?_) rfl
    rcases hold hm with hm | rfl
    · exact announced_of_sent hm hopen
    · cases hopen
  refine ⟨h.oneClosing_set hi fun _ => .inl rfl, ?_, ?_, ?_, ?_, ?_⟩
  · intro r' hr' rev hrev
    exact h.bound r' hr' rev (hann _ _ hrev)
  · intro originID rev hrev hne
    obtain ⟨m, hm, hid⟩ := h.gone originID rev (hann _ _ hrev) hne
    exact ⟨m, mem_append_left _ hm, hid⟩
  · intro m hm hne rev hrev
    rcases hold hm with hm | rfl
    · exact h.below m hm hne rev (hann _ _ hrev)
    · exact hlt rev (hann _ _ hrev)
  · intro _ _ _
    obtain ⟨hlt, -⟩ := List.getElem?_eq_some_iff.mp hi
    exact ⟨i, List.getElem?_set_self hlt⟩
  · intro j d hj
    rcases getElem?_set_cases hj with ⟨rfl, rfl⟩ | ⟨-, hj⟩
    · intro r' hr'
      have heq : r = r' := Option.some.inj (hrow.symm.trans hr')
      refine ⟨r.state (some closed), mem_append_right _ (mem_singleton_self _), ?_, ?_⟩
      · exact congrArg OpenOrigin.originID heq
      · exact Option.some_ne_none closed
    · refine (h.callsOk j d hj).mono _ (fun _ => ⟨rfl, hann⟩) hsent ?_
      rintro r' rfl m hm hid
      rw [mem_singleton.mp hm] at hid
      exact absurd hid.symm (hapart _ (mem_of_getElem? hj) r' rfl rfl)

theorem delete (hi : w.calls[i]? = some .delete) :
    EpisodeInv ⟨{ w.edge with row := none }, w.calls.set i .finished⟩ := by
  refine ⟨h.oneClosing_set hi Bool.noConfusion, ?_, ?_, ?_, ?_, ?_⟩
  · intro r hr
    cases hr
  · intro originID rev hrev _
    by_cases hr : ∃ r, w.edge.row = some r ∧ r.originID = originID
    · obtain ⟨r, hr, rfl⟩ := hr
      exact h.callsOk i _ hi r hr
    · exact h.gone originID rev (announced_idle (fun _ => announced_of_sent) rfl hrev)
        fun r hrow hid => hr ⟨r, hrow, hid⟩
  · intro m hm hne rev hrev
    exact h.below m hm hne rev (announced_idle (fun _ => announced_of_sent) rfl hrev)
  · intro r hr
    cases hr
  · intro j d hj
    rcases getElem?_set_cases hj with ⟨rfl, rfl⟩ | ⟨hne, hj⟩
    · trivial
    · refine (h.callsOk j d hj).mono [] ?_ (append_nil _).symm ?_
      · intro hd
        exact absurd (h.oneClosing j i d .delete hj hi hd rfl) hne
      · exact fun _ _ => forall_mem_nil _

theorem idle (hi : w.calls[i]? = some c) (hnd : c ≠ .delete)
    (hp : c'.pending = none) (hcl : c'.closing = true → c.closing = true)
    (hok : EpisodeCallOk ⟨w.edge, w.calls.set i c'⟩ c') : EpisodeInv ⟨w.edge, w.calls.set i c'⟩ :=
  h.keepRow hi hnd rfl [] (append_nil _).symm (forall_mem_nil _) hp hcl hok

theorem emitOpen (hi : w.calls[i]? = some c) (hr : c.pending = some r) (ok : Bool)
    (hp : c'.pending = none) (hcl : c'.closing = false)
    (hok : EpisodeCallOk ⟨w.edge.emit (r.state none) ok, w.calls.set i c'⟩ c') :
    EpisodeInv ⟨w.edge.emit (r.state none) ok, w.calls.set i c'⟩ := by
  have hnd : c ≠ .delete := by
    rintro rfl
    cases hr
  have hcl' : c'.closing = true → c.closing = true := fun hc => Bool.noConfusion (hcl.symm.trans hc)
  have hmem := mem_of_getElem? hi
  cases ok with
  | false => exact h.idle hi hnd hp hcl' hok
  | true =>
    refine h.keepRow hi hnd rfl [r.state none] rfl ?_ hp hcl' hok
    intro m hm
    rw [mem_singleton.mp hm]
    exact ⟨rfl, .inr ⟨c, hmem, r, hr, rfl, rfl⟩⟩

end

theorem statement (key : String) (h : EpisodeInv w) (hi : w.calls[i]? = some c) (ok : Bool)
    (hst : StatementOk w ok c) :
    EpisodeInv ⟨(c.exec key w.edge ok).1, w.calls.set i (c.exec key w.edge ok).2⟩ := by
  cases c with
  | find mint =>
    simp only [EpisodeCall.exec]
    split <;> exact h.idle hi nofun rfl nofun trivial
  | join seen =>
    simp only [EpisodeCall.exec]
    split
    · next r hr =>
      refine h.alone hi hst rfl ?_ ?_ (fun r hr => by cases hr) trivial
      · rintro r₀ hr₀
        rw [hr] at hr₀
        cases hr₀
        exact ⟨r.join, rfl, rfl⟩
      · rintro _ ⟨⟩
        exact ⟨h.not_closedSent (r := r) hst hr,
          fun rev hrev => Nat.le_succ_of_le (h.bound r hr rev hrev)⟩
    · exact h.idle hi nofun rfl nofun trivial
  | reread seen =>
    simp only [EpisodeCall.exec]
    split
    · next r hr =>
      have hopen := h.not_closedSent hst hr
      refine h.alone hi hst rfl (fun r₀ hr₀ => ⟨r₀, hr₀, rfl⟩) ?_ ?_ hopen
      · intro r' hr'
        exact ⟨h.not_closedSent hst hr', h.bound r' hr'⟩
      · rintro _ ⟨⟩
        exact hr
    · exact h.idle hi nofun rfl nofun trivial
  | emitJoined r =>
    obtain ⟨more, hmore⟩ := w.edge.sent_emit (r.state none) ok
    refine h.emitOpen hi rfl ok rfl rfl ⟨?_, ?_⟩
    · rw [hmore, length_append]
      exact Nat.le_add_right _ _
    · rw [hmore, take_append_of_le_length (Nat.le_refl _), take_length]
      intro m hm hid
      by_contra hclosed
      exact h.callsOk i _ hi ⟨m, hm, hid, hclosed⟩
  | insert originID content =>
    obtain ⟨hno, hsent, hpend⟩ := hst
    simp only [EpisodeCall.exec]
    split
    · next hr =>
      refine h.alone hi hno rfl ?_ ?_ ?_ trivial
      · intro r hr'
        rw [hr] at hr'
        cases hr'
      · rintro _ ⟨⟩
        refine ⟨?_, ?_⟩
        · rintro ⟨m, hm, hid, -⟩
          exact hsent m hm hid
        · rintro rev (⟨m, hm, -, hid, -⟩ | ⟨d, hd, r, hr', hid, -⟩)
          · exact absurd hid (hsent m hm)
          · exact absurd hid (hpend d hd r hr')
      · rintro _ ⟨⟩
        rfl
    · exact h.idle hi nofun rfl nofun trivial
  | emitOpened r => exact h.emitOpen hi rfl ok rfl rfl trivial
  | bump closed =>
    cases ok with
    | false => exact h.idle hi nofun rfl nofun trivial
    | true =>
      have hbump : ∀ r', w.edge.row.map OpenOrigin.bump = some r' →
          ∃ r, w.edge.row = some r ∧ r.bump = r' := fun r' hr' => Option.map_eq_some_iff.mp hr'
      refine h.alone hi hst rfl ?_ ?_ (fun r hr => by cases hr) ?_
      · intro r hr
        exact ⟨r.bump, congrArg (Option.map OpenOrigin.bump) hr, rfl⟩
      · intro r' hr'
        obtain ⟨r, hr, rfl⟩ := hbump r' hr'
        exact ⟨h.not_closedSent (r := r) hst hr,
          fun rev hrev => Nat.le_succ_of_le (h.bound r hr rev hrev)⟩
      · intro r' hr' rev hrev
        obtain ⟨r, hr, rfl⟩ := hbump r' hr'
        exact Nat.lt_succ_of_le
          (h.bound r hr rev (announced_idle (fun _ => announced_of_sent) rfl hrev))
  | read closed =>
    simp only [EpisodeCall.exec]
    split
    · next r hr =>
      refine h.idle hi nofun rfl (fun _ => rfl) ⟨hr, fun rev hrev => ?_⟩
      exact h.callsOk i _ hi r hr rev (announced_idle (fun _ => announced_of_sent) rfl hrev)
    · exact h.idle hi nofun rfl nofun trivial
  | emitClosed r closed =>
    cases ok with
    | false => exact h.idle hi nofun rfl nofun trivial
    | true => exact h.emitClosed hi hst
  | delete =>
    cases hst
    exact h.delete hi
  | joined originID before => exact h.idle hi nofun rfl nofun (h.callsOk i _ hi)
  | opened originID | failed seen | finished => exact h.idle hi nofun rfl nofun trivial

theorem push (h : EpisodeInv w) (hcl : c.closing = false) (hp : c.pending = none)
    (hok : EpisodeCallOk ⟨w.edge, w.calls ++ [c]⟩ c) : EpisodeInv ⟨w.edge, w.calls ++ [c]⟩ := by
  have hann : ∀ originID rev, Announced ⟨w.edge, w.calls ++ [c]⟩ originID rev →
      Announced w originID rev := by
    rintro originID rev (hm | ⟨d, hd, r, hr, hrest⟩)
    · exact .inl hm
    · rcases mem_append_last.mp hd with hd | rfl
      · exact .inr ⟨d, hd, r, hr, hrest⟩
      · rw [hp] at hr
        cases hr
  have hold : ∀ {j : Nat} {d}, (w.calls ++ [c])[j]? = some d → d.closing = true →
      w.calls[j]? = some d := by
    intro j d hj hd
    rcases getElem?_append_cases hj with hj | ⟨-, rfl⟩
    · exact hj
    · exact Bool.noConfusion (hcl.symm.trans hd)
  refine ⟨?_, ?_, ?_, ?_, ?_, ?_⟩
  · intro j k a b hj hk ha hb
    exact h.oneClosing j k a b (hold hj ha) (hold hk hb) ha hb
  · intro r hr rev hrev
    exact h.bound r hr rev (hann _ _ hrev)
  · intro originID rev hrev hne
    exact h.gone originID rev (hann _ _ hrev) hne
  · intro m hm hne rev hrev
    exact h.below m hm hne rev (hann _ _ hrev)
  · intro r hr hc
    obtain ⟨j, hj⟩ := h.deleting r hr hc
    exact ⟨j, (List.getElem?_append_left (List.getElem?_eq_some_iff.mp hj).1).trans hj⟩
  · intro j d hj
    rcases getElem?_append_cases hj with hj | ⟨-, rfl⟩
    · exact (h.callsOk j d hj).mono [] (fun _ => ⟨rfl, hann⟩) (append_nil _).symm
        fun _ _ => forall_mem_nil _
    · exact hok

theorem step (key : String) (w : EpisodeCalls) (a : EpisodeAction) (h : EpisodeInv w)
    (hok : KeepsApart w a) : EpisodeInv (episodeStep key w a) := by
  cases a with
  | request mint | close closed => exact h.push rfl rfl trivial
  | statement i ok =>
    simp only [episodeStep]
    split
    · exact h
    · next c hi => exact h.statement key hi ok (hok c hi)

theorem start : EpisodeInv start where
  oneClosing i j c d hi := nomatch hi
  bound r hr := nomatch hr
  gone originID rev hrev := by
    rcases hrev with ⟨m, hm, -⟩ | ⟨c, hc, -⟩
    · exact absurd hm not_mem_nil
    · exact absurd hc not_mem_nil
  below := forall_mem_nil _
  deleting r hr := nomatch hr
  callsOk i c hi := nomatch hi

theorem agrees (h : EpisodeInv w) (hreturned : ∀ c ∈ w.calls, c.returned = true)
    (hm : Latest w.edge.sent m) :
    m.closed = none ↔ ∃ r, w.edge.row = some r ∧ r.originID = m.originID := by
  constructor
  · intro hopen
    by_contra hrow
    have hann := announced_of_sent hm.1 hopen
    obtain ⟨m', hm', hid, hclosed⟩ := h.gone _ _ hann fun r hr hid => hrow ⟨r, hr, hid⟩
    have hlt := h.below m' hm' hclosed m.revision (hid ▸ hann)
    have hle := hm.2 m' hm' hid
    omega
  · rintro ⟨r, hr, hid⟩
    by_contra hclosed
    obtain ⟨j, hj⟩ := h.deleting r hr ⟨m, hm.1, hid.symm, hclosed⟩
    exact Bool.noConfusion (hreturned _ (mem_of_getElem? hj))

end EpisodeInv

/-- **close と join は行き違わない。** -/
theorem close_and_join_apart (key : String) (acts : List EpisodeAction)
    (hok : AllSteps (episodeStep key) KeepsApart start acts) :
    ∀ w ∈ visited (episodeStep key) start acts,
      ((∀ c ∈ w.calls, c.returned = true) → ∀ m, Latest w.edge.sent m →
        (m.closed = none ↔ ∃ r, w.edge.row = some r ∧ r.originID = m.originID))
      ∧ ∀ originID before, .joined originID before ∈ w.calls →
        ∀ m ∈ w.edge.sent.take before, m.originID = originID → m.closed = none := by
  intro w hw
  have h := AllSteps.visited_of_inv (EpisodeInv.step key) EpisodeInv.start hok w hw
  refine ⟨fun hreturned m hm => h.agrees hreturned hm, ?_⟩
  intro originID before hc
  obtain ⟨i, hi⟩ := mem_iff_getElem?.mp hc
  exact (h.callsOk i _ hi).2

/-! ## press の cell -/

def pressCell (openedAt : Nat) : EpisodeContent where
  kind := .cell
  direction := some .consume
  trigger := "autoreorder"
  triggerRef := "n1"
  processID := "PRESS"
  coreNodeName := "N1"
  payloadCode := "P1"
  openedAt := openedAt
  openedTotal := 5
  threshold := 10
  expectedOrders := none
  expectedUnknownReason := ""
  rerequestCount := 0
  discretionary := false

def recoveredAt (closedAt : Nat) : EpisodeClose := ⟨closedAt, .recovered, some .notification⟩

def joinThenClose : List EpisodeAction :=
  .request (some ("A", pressCell 1)) :: statements 0 [true, true, true]
    ++ .request none :: statements 1 [true, true, true]
    ++ .close (recoveredAt 2) :: statements 2 [true, true]
    ++ statements 1 [true] ++ statements 2 [true, true]

theorem close_and_join_apart_joinThenClose :
    AllSteps (episodeStep "cell|PRESS|P1|consume") KeepsApart start joinThenClose
      ∧ (∀ m, Latest (runSteps (episodeStep "cell|PRESS|P1|consume") start
          joinThenClose).edge.sent m →
        (m.closed = none ↔ ∃ r, (runSteps (episodeStep "cell|PRESS|P1|consume") start
          joinThenClose).edge.row = some r ∧ r.originID = m.originID))
      ∧ .joined "A" 1 ∈ (runSteps (episodeStep "cell|PRESS|P1|consume") start
          joinThenClose).calls :=
  ⟨by decide,
    (close_and_join_apart "cell|PRESS|P1|consume" joinThenClose (by decide) _
      (mem_visited_runSteps _ _)).1 (by decide),
    by decide⟩

def joinInsideClose : List EpisodeAction :=
  .request (some ("A", pressCell 1)) :: statements 0 [true, true, true]
    ++ .close (recoveredAt 2) :: statements 1 [true, true, true]
    ++ .request none :: statements 2 [true, true, true, true]
    ++ statements 1 [true]

/-- 一番新しい電文は開いているのに行は無く、join は閉じた電文の後に A を返している。 -/
theorem join_inside_close :
    (runSteps (episodeStep "cell|PRESS|P1|consume")
      start joinInsideClose).edge.sent.map
        (fun m => (m.originID, m.revision, m.closed))
      = [("A", 1, none), ("A", 2, some (recoveredAt 2)), ("A", 3, none)]
      ∧ (runSteps (episodeStep "cell|PRESS|P1|consume") start joinInsideClose).edge.row
        = none
      ∧ (runSteps (episodeStep "cell|PRESS|P1|consume") start joinInsideClose).calls
        = [.opened "A", .finished, .joined "A" 2] := by
  decide

end Shingo.Edge
