import HeaderBridge.Proofs.Disk.Enclosing
import HeaderBridge.Proofs.Output.Local
import Mathlib.Data.List.Infix

namespace HeaderBridge

namespace Disk

open HeaderBridge.Path (turn)

variable {d d' : Disk} {path : Text} {q : Place}

/-- The places that the letters of a path lead through, from where it starts to where it ends. -/
def way (d : Disk) (path : Text) : List Place :=
  (Path.parts path).inits.map fun cs => cs.foldl turn (if Path.isRooted path then [] else d.work)

end Disk

namespace Output

variable {d d' : Disk} {dir : Text} {declaration definition : Document} {draw : Draw}
  {result : Except Fault (Text × Text)}

section Whole

variable (hdraw : Fresh draw) (wf : d.WellFormed)
  (h : writeWith draw d dir declaration definition = (result, d'))

include hdraw wf h

end Whole

/-- Draws the number zero wherever it gives a new file. -/
def zeroFirst : Draw := fun d folder name =>
  if d.find? (folder ++ [stagingName name 0]) = none then 0 else freshNumber d folder name

theorem fresh_zeroFirst : Fresh zeroFirst := by
  intro d folder name
  unfold zeroFirst
  split
  · assumption
  · exact fresh_freshNumber d folder name

/-- A new file is not enough: the definition is staged where the declaration then goes, and what is
moved to its place in the end is the declaration. -/
theorem writeWith_swaps :
    Fresh zeroFirst ∧
      Collides zeroFirst (Disk.empty.makeFolders 2 ".").2 "." ⟨".B.0.tmp", "h\n"⟩ ⟨"B", "cpp\n"⟩ ∧
      (writeWith zeroFirst Disk.empty "." ⟨".B.0.tmp", "h\n"⟩ ⟨"B", "cpp\n"⟩).1.toOption =
        some ((".B.0.tmp" : Text), ("B" : Text)) ∧
      (writeWith zeroFirst Disk.empty "." ⟨".B.0.tmp", "h\n"⟩ ⟨"B", "cpp\n"⟩).2.read "B" =
        .ok "h\n" := by
  refine ⟨fresh_zeroFirst, ?_, ?_, ?_⟩
  all_goals decide +kernel

end Output
end HeaderBridge
