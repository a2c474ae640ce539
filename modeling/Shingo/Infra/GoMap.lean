import Mathlib.Data.List.AList

/-!
# 文字列を鍵とする map

map は Mathlib の `AList` で置く。鍵は重ならず、`range` が回る順は決まっていないので、
順序は `MapOrder` として外から与える。
-/

namespace Shingo.Infra

abbrev GoMap (ν : Type) := AList fun _ : String => ν

/-- `range` の順序。鍵の並べ替え。 -/
structure MapOrder where
  visit : List String → List String
  perm : ∀ keys, (visit keys).Perm keys

namespace MapOrder

theorem mem_visit (order : MapOrder) {keys : List String} {k : String} :
    k ∈ order.visit keys ↔ k ∈ keys := (order.perm keys).mem_iff

def asStored : MapOrder := ⟨id, fun _ => .refl _⟩

end MapOrder

end Shingo.Infra
