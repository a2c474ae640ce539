import Mathlib.Data.List.Find
import Shingo.Dispatch.Compound

/-!
# 閉じた章は数えられないか、親は証拠があってから離れるか

`advanceCompoundChapterEnd` の二つの性質。どちらも、破れるのはいつかまで言う。
-/

namespace Shingo.Dispatch

open List

/-! ## 章の境 -/

variable {c : Leg}

section Boundary

variable {children : List Leg}

theorem foldl_boundary (children : List Leg) (start : Option Int) (c : Int) :
    (children.foldl (fun boundary c =>
      if endsItsChapter c then
        match boundary with
        | none => some c.id
        | some b => some (if b < c.id then c.id else b)
      else boundary) start).any (fun b => decide (c ≤ b)) = true ↔
    start.any (fun b => decide (c ≤ b)) = true ∨
      ∃ e ∈ children, endsItsChapter e = true ∧ c ≤ e.id := by
  induction children generalizing start with
  | nil => simp
  | cons x xs ih =>
    rw [foldl_cons, ih]
    by_cases hx : endsItsChapter x = true
    · cases start with
      | none => simp [hx]
      | some b =>
        have hmax : c ≤ (if b < x.id then x.id else b) ↔ c ≤ b ∨ c ≤ x.id := by
          split <;> omega
        simp [hx, hmax, or_assoc]
    · simp [hx]

theorem isClosed_iff : isClosed (chapterBoundary children) c = true ↔
    c.status.isTerminal = true ∧ ∃ e ∈ children, endsItsChapter e = true ∧ c.id ≤ e.id := by
  have h := foldl_boundary children none c.id
  constructor
  · intro hc
    obtain ⟨b, hb, hc⟩ := (Option.any_eq_true _ _).mp hc
    simp only [Bool.and_eq_true, decide_eq_true_eq] at hc
    refine ⟨hc.1, ?_⟩
    have hany : (chapterBoundary children).any (fun b => decide (c.id ≤ b)) = true :=
      (Option.any_eq_true _ _).mpr ⟨b, hb, by simpa using hc.2⟩
    simpa using h.mp hany
  · rintro ⟨ht, he⟩
    obtain ⟨b, hb, hle⟩ := (Option.any_eq_true _ _).mp (h.mpr (.inr he))
    exact (Option.any_eq_true _ _).mpr ⟨b, hb, by simp only [ht, hle, Bool.and_self]⟩

abbrev openLegs (children : List Leg) : List Leg := (compoundGenerations children).1

theorem mem_openLegs : c ∈ openLegs children ↔
    c ∈ children ∧ ¬ (c.status.isTerminal = true ∧
      ∃ e ∈ children, endsItsChapter e = true ∧ c.id ≤ e.id) := by
  unfold openLegs compoundGenerations
  rw [mem_filter, ← isClosed_iff]
  simp

theorem superseded_iff : (compoundGenerations children).2 = true ↔
    ∃ e ∈ children, endsItsChapter e = true := by
  have h := fun c => foldl_boundary children none c
  constructor
  · intro hs
    obtain ⟨b, hb⟩ := Option.isSome_iff_exists.mp hs
    have hany : (chapterBoundary children).any (fun x => decide (b ≤ x)) = true :=
      (Option.any_eq_true _ _).mpr ⟨b, hb, by simp⟩
    obtain ⟨e, he, hends, -⟩ : ∃ e ∈ children, endsItsChapter e = true ∧ b ≤ e.id := by
      simpa using (h b).mp hany
    exact ⟨e, he, hends⟩
  · rintro ⟨e, he, hends⟩
    obtain ⟨b, hb, -⟩ := (Option.any_eq_true _ _).mp
      ((h e.id).mpr (.inr ⟨e, he, hends, Int.le_refl _⟩))
    exact Option.isSome_iff_exists.mpr ⟨b, hb⟩

theorem status_of_endsItsChapter (h : endsItsChapter c = true) :
    c.status = .failed ∨ c.status = .cancelled := by
  unfold endsItsChapter at h
  split at h
  · exact .inl ‹_›
  · simp only [Bool.and_eq_true, beq_iff_eq] at h
    exact .inr h.1

theorem isTerminal_of_endsItsChapter (h : endsItsChapter c = true) :
    c.status.isTerminal = true := by
  rcases status_of_endsItsChapter h with hs | hs <;> rw [hs] <;> rfl

theorem isConfigFailure_of_open (hc : c ∈ openLegs children) (hf : c.status = .failed) :
    isConfigFailure c.errorDetail = true := by
  obtain ⟨hmem, hopen⟩ := mem_openLegs.mp hc
  by_contra hne
  have hends : endsItsChapter c = true := by
    unfold endsItsChapter
    rw [if_pos hf]
    simpa using hne
  exact hopen ⟨isTerminal_of_endsItsChapter hends, c, hmem, hends, Int.le_refl _⟩

end Boundary

/-! ## 始末を決めるもの -/

def Disposition.outcome : Disposition → Disposition
  | .requeued _ => .requeued ""
  | d => d

def Disposition.finishes : Disposition → Bool
  | .completed | .resumed | .appended => true
  | _ => false

def Disposition.queues : Disposition → Bool
  | .requeued _ | .resumed => true
  | _ => false

def outcomeOf (stopped : Bool) (broken : Option String) (done : Bool)
    (parent : Option CompoundParent) : Disposition :=
  if parent.any fun p => !p.inPlay then .left
  else if stopped then
    match broken with
    | some detail => if parent.isSome then .failed detail else .unread
    | none =>
      if !done then .waiting
      else
        match parent with
        | none => .unread
        | some p => if p.dwells then .parked else .requeued ""
  else if !done then .waiting
  else (chapterFinished parent).disposition

theorem chapterFinished_outcome (parent : Option CompoundParent) :
    (chapterFinished parent).disposition.outcome = (chapterFinished parent).disposition := by
  unfold chapterFinished
  repeat' split
  all_goals rfl

/-- **始末は四つのことだけで決まる。** -/
theorem advance_outcome (children : List Leg) (parent : Option CompoundParent) :
    (advanceCompoundChapterEnd (some children) parent).disposition.outcome =
      outcomeOf (digWasDissolved children || hasFailedOrCancelled (openLegs children))
        ((configFailedLeg (openLegs children)).map Leg.errorDetail)
        (allTerminal (openLegs children)) parent := by
  unfold advanceCompoundChapterEnd outcomeOf
  dsimp only [Option.getD_some]
  split
  · rfl
  split
  · unfold chapterStopped
    cases configFailedLeg (openLegs children) with
    | some broken =>
      dsimp only [Option.map_some]
      split <;> rfl
    | none =>
      dsimp only [Option.map_none]
      split
      · rfl
      · cases parent with
        | none => rfl
        | some p =>
          dsimp only
          split <;> rfl
  · split
    · rfl
    · exact chapterFinished_outcome parent

/-! ## 親が離れる証拠 -/

/-- 今の章の leg。終わった leg は、章を閉じたどの leg よりも後に作られたときだけ。 -/
def InChapter (children : List Leg) (c : Leg) : Prop :=
  c.status.isTerminal = true → ∀ e ∈ children, endsItsChapter e = true → e.id < c.id
  deriving Decidable

/-- 今の章の leg がどれも終わり、失敗も取り消しも無い。 -/
def ChapterClean (children : List Leg) : Prop :=
  ∀ c ∈ children, InChapter children c →
    c.status.isTerminal = true ∧ c.status ≠ .failed ∧ c.status ≠ .cancelled
  deriving Decidable

variable {children : List Leg}

theorem mem_openLegs_iff_inChapter : c ∈ openLegs children ↔
    c ∈ children ∧ InChapter children c := by
  simp only [mem_openLegs, InChapter, not_and, not_exists, Int.not_le]

theorem chapterClean_iff : ChapterClean children ↔
    hasFailedOrCancelled (openLegs children) = false ∧
      allTerminal (openLegs children) = true := by
  unfold ChapterClean hasFailedOrCancelled allTerminal
  simp only [any_eq_false, all_eq_true, Bool.or_eq_true, beq_iff_eq, not_or]
  constructor
  · intro h
    have hopen := fun c hc => h c (mem_openLegs_iff_inChapter.mp hc).1
      (mem_openLegs_iff_inChapter.mp hc).2
    exact ⟨fun c hc => (hopen c hc).2, fun c hc => (hopen c hc).1⟩
  · rintro ⟨h₁, h₂⟩ c hc hin
    have hopen := mem_openLegs_iff_inChapter.mpr ⟨hc, hin⟩
    exact ⟨h₂ c hopen, h₁ c hopen⟩

theorem chapterStopped_not_finishes (children openLegs : List Leg)
    (parent : Option CompoundParent) :
    (chapterStopped children openLegs parent).disposition.finishes = false := by
  unfold chapterStopped
  repeat' split
  all_goals rfl

theorem chapterClean_of_finishes {parent : Option CompoundParent}
    (h : (advanceCompoundChapterEnd (some children) parent).disposition.finishes = true) :
    ChapterClean children := by
  unfold advanceCompoundChapterEnd at h
  dsimp only [Option.getD_some] at h
  split at h
  · cases h
  split at h
  · rw [chapterStopped_not_finishes] at h
    cases h
  rename_i hstop
  simp only [Bool.or_eq_true, not_or, Bool.not_eq_true] at hstop
  split at h
  · cases h
  · rename_i hterm
    exact chapterClean_iff.mpr ⟨hstop.2, by simpa using hterm⟩

theorem finishes_unread (parent : Option CompoundParent) :
    (advanceCompoundChapterEnd none parent).disposition.finishes = false ↔
      parent.all (fun p => !p.inPlay || p.openForChildren) = true := by
  cases parent with
  | none => decide
  | some p =>
    unfold advanceCompoundChapterEnd
    dsimp only [Option.getD_none, Option.any_some, Option.all_some]
    have hstop : (digWasDissolved [] || hasFailedOrCancelled (compoundGenerations []).1) = false :=
      rfl
    have hdone : allTerminal (compoundGenerations []).1 = true := rfl
    by_cases hin : p.inPlay = true
    · simp only [hin, hstop, hdone, Bool.not_true, Bool.false_eq_true, if_false, Bool.false_or]
      unfold chapterFinished
      by_cases hopen : p.openForChildren = true
      · simp [hopen, Disposition.finishes]
      · simp only [hopen, Bool.false_eq_true, if_false, iff_false, Bool.not_eq_false]
        split
        · rfl
        · split <;> rfl
    · simp [hin, Disposition.finishes]

/-- **親を終わらせるか再開するのが、章がきれいに終わったときに限られるのは、leg の一覧を
読めたか、親をどうもしないか、章が実際にきれいに終わっているとき、かつそのときに限る。** -/
theorem leaves_on_evidence_iff (children : List Leg) (listed : Bool)
    (parent : Option CompoundParent) :
    ((advanceCompoundChapterEnd (if listed then some children else none)
        parent).disposition.finishes = true → ChapterClean children) ↔
      listed = true ∨ parent.all (fun p => !p.inPlay || p.openForChildren) = true ∨
        ChapterClean children := by
  cases listed with
  | true =>
    simp only [if_true, true_or, iff_true]
    exact chapterClean_of_finishes
  | false =>
    simp only [Bool.false_eq_true, if_false, false_or, ← finishes_unread parent]
    cases (advanceCompoundChapterEnd none parent).disposition.finishes with
    | true | false => simp

def diggingParent : CompoundParent where
  order := { id := 9, status := .reshuffling }

/-- 一覧の読み取りが落ちると、まだ走っている leg を残して親が終わる。 -/
theorem unread_children_complete :
    (advanceCompoundChapterEnd (some [⟨2, .dispatched, ""⟩]) diggingParent).disposition =
        .waiting ∧
      (advanceCompoundChapterEnd none diggingParent).disposition = .completed ∧
      ¬ ChapterClean [⟨2, .dispatched, ""⟩] := by
  decide

/-! ## 前の章と後の章 -/

def olderLegs (children : List Leg) (k : Int) : List Leg :=
  children.filter fun c => decide (c.id ≤ k)

def newerLegs (children : List Leg) (k : Int) : List Leg :=
  children.filter fun c => decide (k < c.id)

def PutBack (children : List Leg) : Prop :=
  ∃ p, (advanceCompoundChapterEnd (some children) (some p)).disposition.queues = true

theorem configFailedLeg_of_putBack (h : PutBack children) :
    configFailedLeg (openLegs children) = none := by
  obtain ⟨p, hp⟩ := h
  cases hc : configFailedLeg (openLegs children) with
  | none => rfl
  | some broken =>
    have hmem := mem_of_find?_eq_some hc
    have hfail := List.find?_some hc
    simp only [Bool.and_eq_true] at hfail
    have hfc : hasFailedOrCancelled (openLegs children) = true :=
      any_eq_true.mpr ⟨broken, hmem, by simp only [hfail.1, Bool.true_or]⟩
    unfold advanceCompoundChapterEnd chapterStopped at hp
    simp only [Option.getD_some, hfc, hc, Bool.or_true, if_true, Option.isSome_some] at hp
    split at hp <;> cases hp

section Split

variable {children : List Leg} {k : Int}
  (hterm : ∀ c ∈ children, c.id ≤ k → c.status.isTerminal = true)
  (hends : ∀ e ∈ children, k < e.id → endsItsChapter e = false)
  (hconf : configFailedLeg (openLegs (olderLegs children k)) = none)

include hterm in
theorem openLegs_of_newer_ends (hends : ∃ e ∈ children, k < e.id ∧ endsItsChapter e = true) :
    openLegs children = openLegs (newerLegs children k) := by
  obtain ⟨e, he, hek, hends⟩ := hends
  show children.filter _ = (children.filter _).filter _
  rw [filter_filter]
  refine filter_congr fun c hc => ?_
  rw [Bool.eq_iff_iff]
  simp only [Bool.not_eq_true', Bool.and_eq_true, decide_eq_true_eq, ← Bool.not_eq_true,
    isClosed_iff]
  by_cases hck : k < c.id
  · have hsame : (∃ e ∈ children, endsItsChapter e = true ∧ c.id ≤ e.id) ↔
        ∃ e ∈ newerLegs children k, endsItsChapter e = true ∧ c.id ≤ e.id := by
      constructor
      · rintro ⟨x, hx, hxe, hle⟩
        exact ⟨x, mem_filter.mpr ⟨hx, by simp only [decide_eq_true_eq]; omega⟩, hxe, hle⟩
      · rintro ⟨x, hx, hxe, hle⟩
        exact ⟨x, (mem_filter.mp hx).1, hxe, hle⟩
    rw [hsame]
    simp [hck]
  · simp only [hck, and_false, iff_false, not_not]
    exact ⟨hterm c hc (by omega), e, he, hends, by omega⟩

include hends in
theorem mem_openLegs_of_not_ends : c ∈ openLegs children ↔
      (c ∈ children ∧ k < c.id) ∨ c ∈ openLegs (olderLegs children k) := by
  have hold : ∀ e ∈ children, endsItsChapter e = true → e.id ≤ k := by
    intro e he h
    by_contra hlt
    rw [hends e he (by omega)] at h
    cases h
  rw [mem_openLegs, mem_openLegs]
  unfold olderLegs
  simp only [mem_filter, decide_eq_true_eq]
  constructor
  · rintro ⟨hc, hopen⟩
    by_cases hck : k < c.id
    · exact .inl ⟨hc, hck⟩
    · refine .inr ⟨⟨hc, by omega⟩, ?_⟩
      rintro ⟨ht, e, he, hrest⟩
      exact hopen ⟨ht, e, he.1, hrest⟩
  · rintro (⟨hc, hck⟩ | ⟨⟨hc, hck⟩, hopen⟩)
    · refine ⟨hc, ?_⟩
      rintro ⟨-, e, he, hxe, hle⟩
      have := hold e he hxe
      omega
    · refine ⟨hc, ?_⟩
      rintro ⟨ht, e, he, hxe, hle⟩
      exact hopen ⟨ht, e, ⟨he, hold e he hxe⟩, hxe, hle⟩

theorem openLegs_of_not_ends (hends : ∀ e ∈ children, endsItsChapter e = false) :
    openLegs children = children := by
  refine filter_eq_self.mpr fun c _ => ?_
  rw [Bool.not_eq_true', ← Bool.not_eq_true, isClosed_iff]
  rintro ⟨-, e, he, h, -⟩
  rw [hends e he] at h
  cases h

def FreshClean (children : List Leg) (k : Int) : Prop :=
  ∀ c ∈ newerLegs children k,
    c.status.isTerminal = true ∧ c.status ≠ .failed ∧ c.status ≠ .cancelled
  deriving Decidable

def StrayCancel (children : List Leg) (k : Int) : Prop :=
  ∃ c ∈ (compoundGenerations (olderLegs children k)).1, c.status = .cancelled
  deriving Decidable

section

include hends

include hconf in
theorem hasFailedOrCancelled_of_not_ends :
    hasFailedOrCancelled (openLegs children) = true ↔
      hasFailedOrCancelled (newerLegs children k) = true ∨ StrayCancel children k := by
  unfold hasFailedOrCancelled StrayCancel newerLegs
  simp only [any_eq_true, Bool.or_eq_true, beq_iff_eq, mem_filter, decide_eq_true_eq,
    mem_openLegs_of_not_ends hends]
  constructor
  · rintro ⟨c, hc | hc, hs⟩
    · exact .inl ⟨c, hc, hs⟩
    · rcases hs with hs | hs
      · -- 開いた章の失敗は設定の誤りだが、それは無い
        have hcfg := isConfigFailure_of_open hc hs
        have := List.find?_eq_none.mp hconf c hc
        simp [hs, hcfg] at this
      · exact .inr ⟨c, hc, hs⟩
  · rintro (⟨c, hc, hs⟩ | ⟨c, hc, hs⟩)
    · exact ⟨c, .inl hc, hs⟩
    · exact ⟨c, .inr hc, .inr hs⟩

include hterm in
theorem allTerminal_of_not_ends :
    allTerminal (openLegs children) = allTerminal (newerLegs children k) := by
  rw [Bool.eq_iff_iff]
  unfold allTerminal newerLegs
  simp only [all_eq_true, mem_filter, decide_eq_true_eq, mem_openLegs_of_not_ends hends]
  constructor
  · intro h c hc
    exact h c (.inl hc)
  · rintro h c (hc | hc)
    · exact h c hc
    · have hmem := (mem_openLegs.mp hc).1
      unfold olderLegs at hmem
      simp only [mem_filter, decide_eq_true_eq] at hmem
      exact hterm c hmem.1 hmem.2

include hconf in
theorem configFailedLeg_of_not_ends :
    configFailedLeg (openLegs children) = configFailedLeg (newerLegs children k) := by
  show (children.filter _).find? _ = (children.filter _).find? _
  rw [List.find?_filter, List.find?_filter]
  refine List.find?_congr fun c hc => ?_
  by_cases hp : (c.status == .failed && isConfigFailure c.errorDetail) = true
  · -- 設定の誤りの leg は、前の章には開いて残っていない
    have hiff : c ∈ openLegs children ↔ k < c.id := by
      rw [mem_openLegs_of_not_ends hends]
      constructor
      · rintro (h | h)
        · exact h.2
        · exact absurd hp (List.find?_eq_none.mp hconf c h)
      · exact fun h => .inl ⟨hc, h⟩
    rw [Bool.eq_iff_iff]
    simp only [hp, and_true, decide_eq_true_eq, ← hiff]
    unfold openLegs compoundGenerations
    rw [mem_filter]
    exact (and_iff_right hc).symm
  · simp [hp]

end

theorem outcomeOf_stopped_iff (done : Bool) (parent : Option CompoundParent) :
    outcomeOf true none done parent = outcomeOf false none done parent ↔
      ¬ (parent.any (·.inPlay) = true ∧ done = true) := by
  unfold outcomeOf
  cases parent with
  | none => cases done <;> decide
  | some p =>
    dsimp only [Option.any_some]
    by_cases hin : p.inPlay = true
    · cases done with
      | false => simp [hin]
      | true =>
        simp only [hin, Bool.not_true, Bool.false_eq_true, if_false, if_true, and_self, not_true,
          iff_false]
        unfold chapterFinished
        repeat' split
        all_goals exact fun h => nomatch h
    · simp [hin]

include hterm in
theorem closed_chapters_of_ends (parent : Option CompoundParent)
    (hends : ∃ e ∈ children, k < e.id ∧ endsItsChapter e = true) :
    (advanceCompoundChapterEnd (some children) parent).disposition.outcome =
      (advanceCompoundChapterEnd (some (newerLegs children k)) parent).disposition.outcome := by
  have hopen := openLegs_of_newer_ends hterm hends
  obtain ⟨e, he, hek, hee⟩ := hends
  have hs : (compoundGenerations children).2 = true := superseded_iff.mpr ⟨e, he, hee⟩
  have hs' : (compoundGenerations (newerLegs children k)).2 = true :=
    superseded_iff.mpr ⟨e, mem_filter.mpr ⟨he, by simpa using hek⟩, hee⟩
  have hdis : digWasDissolved children = digWasDissolved (newerLegs children k) := by
    unfold digWasDissolved
    rw [hs, hs']
    exact congrArg (fun l => true && l.isEmpty) hopen
  rw [advance_outcome, advance_outcome, hopen, hdis]

theorem digWasDissolved_eq_false (h : c ∈ openLegs children) :
    digWasDissolved children = false := by
  unfold digWasDissolved
  simp [ne_nil_of_mem h]

include hterm hends hconf in
theorem outcomes_of_not_ends (parent : Option CompoundParent) (hnew : newerLegs children k ≠ []) :
    (advanceCompoundChapterEnd (some children) parent).disposition.outcome =
        outcomeOf (hasFailedOrCancelled (openLegs children))
          ((configFailedLeg (newerLegs children k)).map Leg.errorDetail)
          (allTerminal (newerLegs children k)) parent ∧
      (advanceCompoundChapterEnd (some (newerLegs children k)) parent).disposition.outcome =
        outcomeOf (hasFailedOrCancelled (newerLegs children k))
          ((configFailedLeg (newerLegs children k)).map Leg.errorDetail)
          (allTerminal (newerLegs children k)) parent := by
  obtain ⟨c, hc⟩ := exists_mem_of_ne_nil _ hnew
  have hopenN : openLegs (newerLegs children k) = newerLegs children k := by
    refine openLegs_of_not_ends fun e he => ?_
    obtain ⟨he, hek⟩ := mem_filter.mp he
    exact hends e he (by simpa using hek)
  have hopen : c ∈ openLegs children := by
    obtain ⟨hc, hck⟩ := mem_filter.mp hc
    exact (mem_openLegs_of_not_ends hends).mpr (.inl ⟨hc, by simpa using hck⟩)
  have hdisN : digWasDissolved (newerLegs children k) = false :=
    digWasDissolved_eq_false (hopenN.symm ▸ hc)
  constructor
  · rw [advance_outcome, digWasDissolved_eq_false hopen, configFailedLeg_of_not_ends hends hconf,
      allTerminal_of_not_ends hterm hends, Bool.false_or]
  · rw [advance_outcome, hdisN, hopenN, Bool.false_or]

theorem freshClean_of_not_bad (hbad : hasFailedOrCancelled (newerLegs children k) = false) :
    configFailedLeg (newerLegs children k) = none ∧
      (FreshClean children k ↔ allTerminal (newerLegs children k) = true) := by
  have hall := any_eq_false.mp hbad
  simp only [Bool.or_eq_true, beq_iff_eq, not_or] at hall
  constructor
  · refine List.find?_eq_none.mpr fun c hc hp => (hall c hc).1 ?_
    simp only [Bool.and_eq_true, beq_iff_eq] at hp
    exact hp.1
  · unfold FreshClean allTerminal
    rw [all_eq_true]
    exact forall₂_congr fun c hc => and_iff_left (hall c hc)

theorem not_freshClean_of_mem (hc : c ∈ newerLegs children k)
    (hs : c.status = .failed ∨ c.status = .cancelled) : ¬ FreshClean children k := by
  intro hclean
  obtain ⟨-, hf, hcan⟩ := hclean c hc
  exact hs.elim hf hcan

end Split

/-- **前の章の leg が後の章の始末を変えないのは、前の章に印の無い cancel が残り、後の章がきれいに
終わり、親がまだこの compound のものである、の三つが揃わないとき、かつそのときに限る。** -/
theorem closed_chapters_iff (children : List Leg) (k : Int) (parent : Option CompoundParent)
    (hterm : ∀ c ∈ children, c.id ≤ k → c.status.isTerminal = true)
    (hnew : newerLegs children k ≠ []) (hback : PutBack (olderLegs children k)) :
    (advanceCompoundChapterEnd (some children) parent).disposition.outcome =
        (advanceCompoundChapterEnd (some (newerLegs children k)) parent).disposition.outcome ↔
      ¬ (parent.any (·.inPlay) = true ∧ FreshClean children k ∧ StrayCancel children k) := by
  by_cases hends : ∃ e ∈ children, k < e.id ∧ endsItsChapter e = true
  · refine iff_of_true (closed_chapters_of_ends hterm parent hends) ?_
    rintro ⟨-, hclean, -⟩
    obtain ⟨e, he, hek, hee⟩ := hends
    exact not_freshClean_of_mem (mem_filter.mpr ⟨he, by simpa using hek⟩)
      (status_of_endsItsChapter hee) hclean
  · have hends' : ∀ e ∈ children, k < e.id → endsItsChapter e = false := by
      intro e he hek
      rw [← Bool.not_eq_true]
      exact fun h => hends ⟨e, he, hek, h⟩
    have hconf := configFailedLeg_of_putBack hback
    have hfc := hasFailedOrCancelled_of_not_ends hends' hconf
    obtain ⟨hwhole, hpart⟩ := outcomes_of_not_ends hterm hends' hconf parent hnew
    rw [hwhole, hpart]
    cases hbad : hasFailedOrCancelled (newerLegs children k) with
    | true =>
      -- 後の章に失敗か cancel があれば、どちらの一覧でも章は止まっている
      rw [hfc.mpr (.inl hbad)]
      refine iff_of_true rfl ?_
      rintro ⟨-, hclean, -⟩
      obtain ⟨c, hc, hs⟩ := any_eq_true.mp hbad
      simp only [Bool.or_eq_true, beq_iff_eq] at hs
      exact not_freshClean_of_mem hc hs hclean
    | false =>
      obtain ⟨hnone, hclean⟩ := freshClean_of_not_bad hbad
      rw [hnone, Option.map_none, hclean]
      by_cases hstray : StrayCancel children k
      · rw [hfc.mpr (.inr hstray), outcomeOf_stopped_iff]
        simp only [hstray, and_true]
      · have hw : hasFailedOrCancelled (openLegs children) = false := by
          rw [← Bool.not_eq_true, hfc, hbad]
          exact fun h => h.elim (fun h => nomatch h) hstray
        rw [hw]
        simp only [hstray, and_false, not_false_eq_true]

def threeChapters : List Leg :=
  [⟨1, .confirmed, ""⟩, ⟨2, .cancelled, reshuffleDissolveDetail⟩, ⟨3, .failed, "robot fault"⟩,
    ⟨4, .confirmed, ""⟩]

theorem closed_chapters_two_behind :
    (advanceCompoundChapterEnd (some threeChapters) diggingParent).disposition.outcome =
      (advanceCompoundChapterEnd (some (newerLegs threeChapters 3))
        diggingParent).disposition.outcome :=
  (closed_chapters_iff threeChapters 3 diggingParent (by decide) (by decide)
    ⟨diggingParent, by decide⟩).mpr (by decide)

/-- **印の無い cancel で queue に戻った後、きれいに終わった次の章が、もう一度 queue に戻される。** -/
theorem unmarked_cancel_poisons :
    (advanceCompoundChapterEnd (some [⟨1, .cancelled, "fleet order stopped"⟩])
        diggingParent).disposition = .requeued reshuffleDissolveDetail ∧
      (advanceCompoundChapterEnd (some [⟨2, .confirmed, ""⟩]) diggingParent).disposition =
        .completed ∧
      (advanceCompoundChapterEnd
        (some [⟨1, .cancelled, "fleet order stopped"⟩, ⟨2, .confirmed, ""⟩])
        diggingParent).disposition = .requeued reshuffleDissolveDetail := by
  decide

end Shingo.Dispatch
