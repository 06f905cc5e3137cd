/-!
# Files as the library sees them

A store of texts under paths, in which reading and writing may be refused. A write
that is refused changes nothing, and one that is made replaces the whole text.
-/

namespace BenchHistory

/-- What reading a path gives. -/
inductive FileText where
  | absent
  | refused
  | text (s : String)
deriving DecidableEq, Repr

/-- Texts under paths. A refused write names the path that it failed at. -/
class Storage (σ : Type) where
  read : σ → String → FileText
  write : σ → String → String → Except String σ

end BenchHistory
