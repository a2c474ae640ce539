import Mathlib.Data.List.Basic

/-!
# 文字列

`strings` package の、この model の関数が呼ぶもの。
-/

namespace Shingo.Core

def toLower (s : String) : List Char := s.toList.map Char.toLower

def containsText (t : List Char) (sub : String) : Bool :=
  (List.range (t.length + 1)).any fun i => sub.toList.isPrefixOf (t.drop i)

def trimSpace (s : String) : String :=
  let blank := fun c : Char => c.isWhitespace || c == '\x0b' || c == '\x0c' || c == '\u0085'
    || c == '\u00a0'
  String.ofList ((s.toList.dropWhile blank).reverse.dropWhile blank).reverse

end Shingo.Core
