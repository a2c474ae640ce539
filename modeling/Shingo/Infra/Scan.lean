import Shingo.Infra.Decimal

/-!
# 整数の読み取り（`fmt.Sscanf` の `%d`）

Go の `Sscanf(s, "%d", &n)` は、前の空白を読み飛ばし、符号を一つまで取り、数字を続くかぎり読む。
その後ろに何が続いても構わない。表記は一通りではないが、`%d` で書いたものは同じ数に戻る。
-/

namespace Shingo.Infra

open List

/-! ## 読み取り -/

def fmtIsSpace (c : Char) : Bool :=
  let r := c.toNat
  (0x09 ≤ r && r ≤ 0x0d) || r == 0x20 || r == 0x85 || r == 0xa0 || r == 0x1680
    || (0x2000 ≤ r && r ≤ 0x200a) || r == 0x2028 || r == 0x2029 || r == 0x202f || r == 0x205f
    || r == 0x3000

inductive ScanError where
  | unexpectedNewline
  | unexpectedEOF
  | expectedInteger
  | outOfRange (tok : String)
  deriving DecidableEq

/-- 改行は空白ではなく、error になる。 -/
def skipSpace : List Char → Except ScanError (List Char)
  | [] => .ok []
  | c :: rest =>
    if c = '\n' then .error .unexpectedNewline
    else if fmtIsSpace c then skipSpace rest
    else .ok (c :: rest)

def acceptSign : List Char → List Char × List Char
  | [] => ([], [])
  | c :: rest => if c = '+' ∨ c = '-' then ([c], rest) else ([], c :: rest)

def InInt64 (n : Int) : Prop := -9223372036854775808 ≤ n ∧ n ≤ 9223372036854775807
  deriving Decidable

/-- `strconv.ParseInt(tok, 10, 64)`。`tok` は符号と数字だけからなる。 -/
def parseInt64 (sign digits : List Char) : Except ScanError Int :=
  let value := Nat.ofDigitChars 10 digits 0
  let n : Int := if sign = ['-'] then -value else value
  if InInt64 n then .ok n else .error (.outOfRange (String.ofList (sign ++ digits)))

def scanInt (input : List Char) : Except ScanError Int := do
  let token ← skipSpace input
  let (sign, rest) := acceptSign token
  if rest = [] then throw .unexpectedEOF
  let digits := rest.takeWhile Char.isDigit
  if digits = [] then throw .expectedInteger
  parseInt64 sign digits

/-! ## `%d` で書いたもの -/

variable {c : Char}

theorem isDigit_range (h : c.isDigit = true) : 48 ≤ c.toNat ∧ c.toNat ≤ 57 :=
  Char.isDigit_iff_toNat.mp h

variable {l : List Char}

theorem skipSpace_of_head (hn : c ≠ '\n') (hs : fmtIsSpace c = false) :
    skipSpace (c :: l) = .ok (c :: l) := by
  simp [skipSpace, hn, hs]

theorem fmtIsSpace_of_isDigit (h : c.isDigit = true) : fmtIsSpace c = false := by
  obtain ⟨hlo, hhi⟩ := isDigit_range h
  simp only [fmtIsSpace, Bool.or_eq_false_iff, Bool.and_eq_false_imp, decide_eq_true_eq,
    decide_eq_false_iff_not, beq_eq_false_iff_ne]
  omega

theorem scanInt_signed {sign ds : List Char} (hsign : sign = [] ∨ sign = ['-']) (hne : ds ≠ [])
    (hds : ∀ c ∈ ds, c.isDigit = true) : scanInt (sign ++ ds) = parseInt64 sign ds := by
  obtain ⟨d, rest, rfl⟩ := exists_cons_of_ne_nil hne
  have hd : d.isDigit = true := hds d mem_cons_self
  have hd' : d ≠ '+' ∧ d ≠ '-' ∧ d ≠ '\n' := by
    refine ⟨?_, ?_, ?_⟩
    all_goals
      rintro rfl
      exact absurd hd (by decide)
  have htake : (d :: rest).takeWhile Char.isDigit = d :: rest :=
    takeWhile_eq_self_iff.mpr hds
  rcases hsign with rfl | rfl
  · have hskip := skipSpace_of_head (l := rest) hd'.2.2 (fmtIsSpace_of_isDigit hd)
    simp only [scanInt, nil_append, hskip, acceptSign, hd', or_self, if_false,
      bind, Except.bind, htake, reduceCtorEq]
  · have hskip := skipSpace_of_head (c := '-') (l := d :: rest) (by decide) (by decide)
    simp only [scanInt, cons_append, nil_append, hskip, acceptSign, or_true, if_true,
      bind, Except.bind, htake, reduceCtorEq, if_false]

/-- **書いた数は、int64 に収まるかぎり読み戻せる。** -/
theorem scanInt_toString (n : Int) :
    scanInt (toString n).toList
      = if InInt64 n then .ok n else .error (.outOfRange (toString n)) := by
  cases n with
  | ofNat m =>
    have hdig : ∀ c ∈ (toString m).toList, c.isDigit = true := fun c hc =>
      isDigit_of_mem_toString hc
    have hne : (toString m).toList ≠ [] := by
      rw [toList_toString]
      exact Nat.toDigits_ne_nil
    have hscan := scanInt_signed (Or.inl rfl) hne hdig
    rw [nil_append] at hscan
    show scanInt (toString m).toList = _
    rw [hscan, parseInt64, toList_toString, Nat.ofDigitChars_ten_toDigits]
    rfl
  | negSucc m =>
    have hdig : ∀ c ∈ (toString (m + 1)).toList, c.isDigit = true := fun c hc =>
      isDigit_of_mem_toString hc
    have hne : (toString (m + 1)).toList ≠ [] := by
      rw [toList_toString]
      exact Nat.toDigits_ne_nil
    have hscan := scanInt_signed (Or.inr rfl) hne hdig
    rw [singleton_append, ← toList_toString_negSucc] at hscan
    rw [hscan, parseInt64, singleton_append, ← toList_toString_negSucc, String.ofList_toList,
      toList_toString, Nat.ofDigitChars_ten_toDigits]
    rfl

end Shingo.Infra
