import Shingo.Core.RobotConfidence

/-!
# `TEXT[]` の往復

Postgres が印字した `TEXT[]` を `parsePGTextArray` で読むと、元の列に戻る。ループは引用の中と
外を `inQuotes` で持つので、要素ひとつを読み終えたときの状態を言えば、列の帰納法で足りる。
-/

namespace Shingo.Core

open List

/-! ## Postgres の印字 -/

def needsQuote (s : List Char) : Bool :=
  s.isEmpty || s.map Char.toLower == "null".toList ||
    s.any ['"', '\\', '\x7b', '\x7d', ',', ' ', '\t', '\n', '\r', '\x0b', '\x0c'].contains

def escapeChar (c : Char) : List Char := if c = '"' ∨ c = '\\' then ['\\', c] else [c]

def printElement (s : String) : List Char :=
  if needsQuote s.toList then '"' :: s.toList.flatMap escapeChar ++ ['"'] else s.toList

def printTextArray (l : List String) : String :=
  .ofList ('\x7b' :: [','].intercalate (l.map printElement) ++ ['\x7d'])

/-! ## 往復 -/

section

variable (out : List String) (cur rest : List Char)

theorem textArrayLoop_plain (inQuotes : Bool) {c : Char} (hquote : c ≠ '"')
    (hcomma : c = ',' → inQuotes = true) (hescape : c = '\\' → inQuotes = false) :
    textArrayLoop out cur inQuotes (c :: rest) = textArrayLoop out (cur ++ [c]) inQuotes rest := by
  rw [textArrayLoop]
  · rw [if_neg hquote, if_neg]
    rintro ⟨hc, hq⟩
    rw [hcomma hc] at hq
    cases hq
  · rintro c' rest' rfl hc rfl
    cases hescape hc

theorem textArrayLoop_escaped (s : List Char) :
    textArrayLoop out cur true (s.flatMap escapeChar ++ '"' :: rest) =
      textArrayLoop out (cur ++ s) false rest := by
  induction s generalizing cur with
  | nil => simp [textArrayLoop]
  | cons c s ih =>
    have hcons (tl : List Char) : textArrayLoop out cur true (escapeChar c ++ tl) =
        textArrayLoop out (cur ++ [c]) true tl := by
      unfold escapeChar
      split
      · rfl
      rename_i hc
      obtain ⟨hquote, hescape⟩ := not_or.mp hc
      exact textArrayLoop_plain _ _ _ true hquote (fun _ => rfl) (absurd · hescape)
    rw [flatMap_cons, append_assoc, hcons, ih, append_assoc]
    rfl

theorem textArrayLoop_unquoted {s : List Char} (h : ∀ c ∈ s, c ≠ '"' ∧ c ≠ ',') :
    textArrayLoop out cur false (s ++ rest) = textArrayLoop out (cur ++ s) false rest := by
  induction s generalizing cur with
  | nil => simp
  | cons c s ih =>
    obtain ⟨⟨hquote, hcomma⟩, hs⟩ := forall_mem_cons.mp h
    rw [cons_append, textArrayLoop_plain _ _ _ false hquote (absurd · hcomma) fun _ => rfl,
      ih _ hs, append_assoc]
    rfl

/-- **印字した要素は、書いた通りに積まれる。** -/
theorem textArrayLoop_printElement (s : String) :
    textArrayLoop out [] false (printElement s ++ rest) =
      textArrayLoop out s.toList false rest := by
  unfold printElement
  split
  · rw [cons_append, cons_append, append_assoc]
    exact textArrayLoop_escaped out [] rest s.toList
  rename_i hplain
  refine textArrayLoop_unquoted out [] rest fun c hc => ?_
  simp only [needsQuote, Bool.or_eq_true, any_eq_true, not_or, not_exists, not_and] at hplain
  have hsafe := hplain.2 c hc
  constructor
  · rintro rfl
    exact hsafe (by decide)
  · rintro rfl
    exact hsafe (by decide)

theorem textArrayLoop_intercalate (s : String) (l : List String) :
    textArrayLoop out [] false ([','].intercalate ((s :: l).map printElement)) = out ++ s :: l := by
  induction l generalizing out s with
  | nil =>
    have h := textArrayLoop_printElement out [] s
    rw [append_nil] at h
    simpa [intercalate, textArrayLoop] using h
  | cons t l ih =>
    have hsplit : [','].intercalate ((s :: t :: l).map printElement) =
        printElement s ++ ',' :: [','].intercalate ((t :: l).map printElement) := by
      simp [intercalate]
    rw [hsplit, textArrayLoop_printElement, textArrayLoop, if_neg (by decide),
      if_pos ⟨rfl, rfl⟩, ih]
    · simp
    · rintro _ _ ⟨⟩

end

/-- **`parsePGTextArray` は、Postgres の印字した `TEXT[]` を元に戻す。** -/
theorem parsePGTextArray_printTextArray (l : List String) :
    parsePGTextArray (printTextArray l) = some l := by
  unfold parsePGTextArray printTextArray
  rw [String.toList_ofList]
  cases l with
  | nil => rfl
  | cons s l =>
    have hloop := textArrayLoop_intercalate [] s l
    have hne : [','].intercalate ((s :: l).map printElement) ≠ [] := by
      intro hnil
      rw [hnil] at hloop
      obtain ⟨rfl, rfl⟩ : s = "" ∧ l = [] := by simpa [textArrayLoop, eq_comm] using hloop
      exact absurd hnil (by decide)
    generalize [','].intercalate ((s :: l).map printElement) = body at hne hloop ⊢
    have hlast : ('\x7b' :: body ++ ['\x7d']).getLast? = some '\x7d' := getLast?_concat
    have hbody : ('\x7b' :: body ++ ['\x7d']).tail.dropLast = body := dropLast_concat
    dsimp only
    rw [hlast, hbody, if_neg (by simp), if_neg hne, hloop, nil_append]

end Shingo.Core
