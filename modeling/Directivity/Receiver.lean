import Directivity.Binary64.Order

set_option autoImplicit false
set_option relaxedAutoImplicit false

namespace Directivity

structure PointResult where
  row : UInt64
  cell : UInt64
  level : Binary64
  deriving DecidableEq

def PointResult.agrees (a b : PointResult) : Bool :=
  a.row == b.row && a.cell == b.cell && a.level.sameValue b.level

structure Vertices (α : Type) where
  first : α
  second : α
  third : α
  deriving DecidableEq

namespace Vertices

def toList {α : Type} (vertices : Vertices α) : List α :=
  [vertices.first, vertices.second, vertices.third]

def ofList? {α : Type} : List α → Option (Vertices α)
  | [first, second, third] => some ⟨first, second, third⟩
  | _ => none

def all₂ {α : Type} (related : α → α → Bool) (a b : Vertices α) : Bool :=
  related a.first b.first && related a.second b.second && related a.third b.third

end Vertices

structure TriangleResult where
  nodes : Vertices UInt64
  levels : Vertices Binary64
  triangle : UInt64
  deriving DecidableEq

def TriangleResult.agrees (a b : TriangleResult) : Bool :=
  a.nodes == b.nodes && a.levels.all₂ Binary64.sameValue b.levels && a.triangle == b.triangle

end Directivity
