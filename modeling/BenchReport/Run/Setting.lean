/-!
# Settings

What a benchmark was run with, as far as its log tells. Settings are ordered by
problem class, then by execution streams, then by threads, and what is unknown
comes before all that is known. Classes compare by code points.
-/

namespace BenchReport

/-- What a benchmark run was started with. -/
structure Setting where
  /-- The size class of the problem. -/
  problemClass : Option String := none
  /-- The number of execution streams. -/
  xstreams : Option UInt32 := none
  /-- The number of user-level threads. -/
  threads : Option UInt32 := none
deriving DecidableEq, Repr

namespace Setting

instance : Ord Setting where
  compare := compareLex (compareOn (·.problemClass))
    (compareLex (compareOn (·.xstreams)) (compareOn (·.threads)))

instance : Std.TransOrd Setting :=
  inferInstanceAs (Std.TransCmp (compareLex (compareOn _)
    (compareLex (compareOn _) (compareOn _))))

instance : Std.LawfulEqOrd Setting where
  eq_of_compare {a b} h := by
    obtain ⟨hclass, hcounts⟩ := compareLex_eq_eq.1 h
    obtain ⟨hxstreams, hthreads⟩ := compareLex_eq_eq.1 hcounts
    cases a
    cases b
    rw [Setting.mk.injEq]
    exact ⟨Std.LawfulEqOrd.eq_of_compare hclass,
      Std.LawfulEqOrd.eq_of_compare hxstreams,
      Std.LawfulEqOrd.eq_of_compare hthreads⟩

/-- The text of a count that may be unknown. -/
def countText : Option UInt32 → String
  | none => "None"
  | some n => n.toNat.repr

/-- The setting as a triple, the class between quotes and unchanged. -/
def text (s : Setting) : String :=
  let classText := match s.problemClass with
    | none => "None"
    | some name => "'" ++ name ++ "'"
  "(" ++ classText ++ ", " ++ countText s.xstreams ++ ", " ++
    countText s.threads ++ ")"

end Setting

end BenchReport
