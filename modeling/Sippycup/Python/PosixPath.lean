import Sippycup.Ip.Address

/-! Relative paths as `pathlib` takes them apart and writes them. -/
namespace Sippycup.Python
open Sippycup.Ip

/-- Parts of a relative path, as `pathlib` splits it. -/
def pathParts (codes : Codes) : List Codes := (codes.splitOn slash).filter fun part => part ≠ [] ∧ part ≠ [dot]

/-- `PurePosixPath(value).as_posix()`, of a relative path. -/
def asPosix (codes : Codes) : Codes :=
  if pathParts codes = [] then [dot] else [slash].intercalate (pathParts codes)

/-- A text whose parts are all proper is written as it is. -/
theorem asPosix_self {codes : Codes} (parts : ∀ part ∈ codes.splitOn slash, part ≠ [] ∧ part ≠ [dot]) :
    asPosix codes = codes := by
  have whole : pathParts codes = codes.splitOn slash :=
    List.filter_eq_self.mpr fun part member => decide_eq_true (parts part member)
  have some_ : codes.splitOn slash ≠ [] := List.splitOn_ne_nil _ _
  rw [asPosix, whole, if_neg some_, List.intercalate_splitOn]

end Sippycup.Python
