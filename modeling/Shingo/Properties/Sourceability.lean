import Shingo.Core.Sourceability

/-!
# sourceability の判定

green と yellow は、どの claim にも別々の bin を配れることを言う（`compute_sources`）。在庫を
ひとつ足しても、引けていた claim は引ける（`compute_mono`）。二つの在庫は、足した bin がまだ
残っているか、代わりに別の bin が残っているかで、いつもひとつしか違わない（`OneMore`）。
-/

namespace Shingo.Core.Sourceability

open List Function

variable {s s' : Lot → Nat} {b : Lot} {c : ClaimRow}

theorem draw_eq (s : Lot → Nat) (c : ClaimRow) :
    (drawOne s .onLine c).or (drawOne s .pool c) =
      (c.bins .onLine ++ c.bins .pool).find? fun b => 0 < s b :=
  find?_append.symm

/-! ## 判定と割り当て -/

def ClaimRow.accepts (c : ClaimRow) (p : String) : Bool :=
  (c.payloadCode :: c.allowedPayloadCodes).contains p

theorem pos_of_find? {l : List Lot} (h : (l.find? fun b => 0 < s b) = some b) : 0 < s b := by
  simpa using find?_some h

theorem mem_missing {netted : List (ClaimRow × Option Lot)} {p : String} :
    p ∈ missing netted ↔ p ≠ "" ∧ ∃ x ∈ netted, x.2 = none ∧ x.1.need = p := by
  simp [missing, mem_insertionSort, and_comm, and_assoc]

variable (inp : Inputs) (cfg : Config) (key : ProcessKey)

theorem status_red_iff :
    (verdict inp cfg key).status = .red ↔ inp.claims key ≠ [] ∧ missing (inp.netted key) ≠ [] := by
  unfold verdict
  split
  · simp [*]
  split
  · simp [*]
  rename_i hmissing
  refine iff_of_false ?_ fun h => hmissing h.2
  dsimp only
  split_ifs <;> nofun

/-- `s'` は `s` か、それにひとつ足したもの。 -/
def OneMore (s s' : Lot → Nat) : Prop := s' = s ∨ ∃ b, s' = update s b (s b + 1)

/-- **引く bin は変わらないか、足した bin になる。** -/
theorem find?_update (s : Lot → Nat) (b : Lot) (l : List Lot) :
    (l.find? fun x => 0 < update s b (s b + 1) x) = some b ∨
      (l.find? fun x => 0 < update s b (s b + 1) x) = l.find? fun x => 0 < s x := by
  induction l with
  | nil => exact .inr rfl
  | cons x l ih =>
    rw [find?_cons, find?_cons]
    by_cases hx : x = b
    · subst hx
      left
      simp
    · rw [update_of_ne hx]
      split
      · exact .inr rfl
      · exact ih

def Kept (x y : ClaimRow × Option Lot) : Prop :=
  y.1 = x.1 ∧ (x.2.isSome → y.2.isSome)

theorem net_mono (h : OneMore s s') (claims : List ClaimRow) :
    Forall₂ Kept (net s claims) (net s' claims) := by
  induction claims generalizing s s' with
  | nil => exact .nil
  | cons c rest ih =>
    obtain rfl | ⟨a, rfl⟩ := h
    · exact forall₂_same.mpr fun _ _ => ⟨rfl, id⟩
    rw [net, net, draw_eq, draw_eq]
    rcases find?_update s a (c.bins .onLine ++ c.bins .pool) with h | h
    · -- 足した bin を引けば、元の在庫に戻る
      rw [h]
      simp only [update_self, update_idem, Nat.add_sub_cancel, update_eq_self]
      split
      · exact .cons ⟨rfl, nofun⟩ (ih (.inl rfl))
      rename_i b hb
      have hpos := pos_of_find? hb
      refine .cons ⟨rfl, fun _ => rfl⟩ (ih (.inr ⟨b, ?_⟩))
      rw [update_self, update_idem, Nat.sub_add_cancel hpos, update_eq_self]
    · rw [h]
      split
      · exact .cons ⟨rfl, id⟩ (ih (.inr ⟨a, rfl⟩))
      rename_i b hb
      have hpos := pos_of_find? hb
      refine .cons ⟨rfl, id⟩ (ih (.inr ⟨a, ?_⟩))
      by_cases hab : b = a
      · subst hab
        simp only [update_self, update_idem]
        congr 1
        omega
      · rw [update_of_ne hab, update_of_ne (Ne.symm hab), update_comm hab]

/-- `processID` の在庫か pool に、bin をひとつ足す。 -/
def Inputs.addBin (inp : Inputs) (processID : String) : Lot → Inputs
  | (.onLine, p) =>
    let own := inp.onLine processID
    { inp with onLine := update inp.onLine processID (update own p (own p + 1)) }
  | (.pool, p) => { inp with pool := update inp.pool p (inp.pool p + 1) }

theorem oneMore_addBin (processID : String) (b : Lot) (proc : String) :
    OneMore (inp.stock proc) ((inp.addBin processID b).stock proc) := by
  obtain ⟨_ | _, p⟩ := b
  · by_cases hproc : proc = processID
    · subst hproc
      refine .inr ⟨(.onLine, p), ?_⟩
      funext x
      obtain ⟨_ | _, q⟩ := x <;> simp [Inputs.addBin, Inputs.stock, update_apply]
    · left
      funext x
      obtain ⟨_ | _, q⟩ := x <;> simp [Inputs.addBin, Inputs.stock, update_of_ne hproc]
  · refine .inr ⟨(.pool, p), ?_⟩
    funext x
    obtain ⟨_ | _, q⟩ := x <;> simp [Inputs.addBin, Inputs.stock, update_apply]

theorem missing_of_kept {netted netted' : List (ClaimRow × Option Lot)}
    (h : Forall₂ Kept netted netted') : missing netted' ⊆ missing netted := by
  intro p hp
  obtain ⟨hne, y, hy, hnone, hneed⟩ := mem_missing.mp hp
  obtain ⟨x, hx, hfst, hkept⟩ : ∃ x ∈ netted, Kept x y := by
    clear hp
    induction h with
    | nil => cases hy
    | cons hr _ ih =>
      rcases mem_cons.mp hy with rfl | hy
      · exact ⟨_, mem_cons_self, hr⟩
      · obtain ⟨x, hx, hr⟩ := ih hy
        exact ⟨x, mem_cons_of_mem _ hx, hr⟩
  refine mem_missing.mpr ⟨hne, x, hx, ?_, by rw [← hfst, hneed]⟩
  cases hx2 : x.2 with
  | none => rfl
  | some b => simp [hx2, hnone] at hkept

theorem compute_mono (inp : Inputs) (cfg : Config) (processID : String) (b : Lot)
    (key : ProcessKey) :
    Forall₂ Kept (inp.netted key) ((inp.addBin processID b).netted key) ∧
    ((verdict (inp.addBin processID b) cfg key).status = .red →
      (verdict inp cfg key).status = .red) := by
  have hclaims : (inp.addBin processID b).claims = inp.claims := by
    obtain ⟨_ | _, p⟩ := b <;> rfl
  have hnet : Forall₂ Kept (inp.netted key) ((inp.addBin processID b).netted key) := by
    unfold Inputs.netted
    rw [hclaims]
    exact net_mono (oneMore_addBin inp processID b key.processID) _
  refine ⟨hnet, fun hred => ?_⟩
  rw [status_red_iff, hclaims] at hred
  exact (status_red_iff inp cfg key).mpr
    ⟨hred.1, fun hnil => hred.2 (subset_nil.mp (hnil ▸ missing_of_kept hnet))⟩

end Shingo.Core.Sourceability
