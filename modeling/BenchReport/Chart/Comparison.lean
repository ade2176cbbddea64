/-!
# Cases and comparisons

The cases whose tables are charted, and the pairs of them that are compared: a
tree reduction with a simple one, on the usual input and on a small one.
-/

namespace BenchReport

/-- A tree reduction and the simple reduction that it is compared with. -/
structure Comparison where
  /-- The case of the tree reduction. -/
  tree : String
  /-- The case of the simple reduction. -/
  simple : String
  /-- The name of the directory of the charts. -/
  directory : String
  /-- Whether the input is the small one. -/
  small : Bool
deriving DecidableEq, Repr

namespace Case

/-- The tree reduction. -/
def tree : String := "argobots_tree_summary"

/-- The tree reduction on the small input. -/
def treeSmall : String := "argobots_tree_summary_small"

/-- The simple reduction. -/
def simple : String := "argobots_simple_summary"

/-- The simple reduction on the small input. -/
def simpleSmall : String := "argobots_simple_summary_small"

/-- All cases in the order of their charts. -/
def all : List String := [tree, treeSmall, simple, simpleSmall]

end Case

namespace Comparison

/-- The comparison on the usual input. -/
def usual : Comparison where
  tree := Case.tree
  simple := Case.simple
  directory := "tree_vs_simple_speedup"
  small := false

/-- The comparison on the small input. -/
def onSmall : Comparison where
  tree := Case.treeSmall
  simple := Case.simpleSmall
  directory := "tree_vs_simple_speedup_small"
  small := true

/-- All comparisons in the order of their charts. -/
def all : List Comparison := [usual, onSmall]

/-- The name of the image for a number of streams. -/
def fileName (_ : Comparison) (xstreams : UInt32) : String :=
  "tree_vs_simple_xstreams_" ++ xstreams.toNat.repr ++ ".png"

/-- The title of the chart for a number of streams. -/
def title (c : Comparison) (xstreams : UInt32) : String :=
  "Speedup of Tree Case vs Simple Case (" ++
    (if c.small then "Small Case, " else "") ++
    "Xstreams=" ++ xstreams.toNat.repr ++ ")"

/-- The name of the comparison. -/
def name (c : Comparison) : String :=
  c.tree ++ " vs " ++ c.simple

end Comparison

end BenchReport
