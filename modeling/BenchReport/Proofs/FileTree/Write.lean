import BenchReport.Proofs.FileTree.Access

/-!
# A written file is read back, and no other file is changed

Writing looks for a place first and then puts the file there. Reading walks the
same path again, but in the changed tree, and it follows the last link of a path
by itself where writing takes the last step apart from the others.

The first difference is harmless because the place was free: nothing was found
there, or a file, and a walk that succeeds passes through neither. The second
one is bookkeeping about how many links are left, and `walk_append` does it: a
walk over a path is a walk over its beginning and then over the rest, with the
links that the beginning has left. Together they give `read_write`.

For the same reason a walk in the changed tree that does not arrive at the file
is a walk in the tree before (`walk_of_put`). What other paths lead to is then
as it was, and `Rewrites` says all this of the two trees.
-/

namespace BenchReport.FileTree

variable {tree : FileTree} {target : Place}

/-- Whether a file can be put at the place: nothing is found there but a file
that can be written. -/
def IsFree (tree : FileTree) (target : Place) : Prop :=
  ∀ node, tree.find? target = some node → ∃ bytes, node = .file bytes

/-! ## What is found after a change -/

theorem find?_put_self (htarget : target ≠ []) (node : Node) :
    (tree.put target node).find? target = some node := by
  obtain ⟨entry, above, rfl⟩ := List.exists_cons_of_ne_nil htarget
  simp [find?, put]

theorem find?_put_of_ne {place : Place} (h : place ≠ target) (node : Node) :
    (tree.put target node).find? place = tree.find? place := by
  cases place with
  | nil => rfl
  | cons entry above =>
      have hentries :
          ((target, node) :: tree.entries.filter (·.1 ≠ target)).find?
              (·.1 = entry :: above) =
            tree.entries.find? (·.1 = entry :: above) := by
        rw [List.find?_cons_of_neg (by simpa using h.symm), List.find?_filter]
        congr 1
        funext e
        by_cases he : e.1 = entry :: above
        · simp [he, h]
        · simp [he]
      exact congrArg (Option.map (·.2)) hentries

theorem IsFree.ne_nil (hfree : tree.IsFree target) : target ≠ [] := by
  rintro rfl
  obtain ⟨bytes, hbytes⟩ := hfree .directory rfl
  cases hbytes

theorem isDirectoryAt_put (hfree : tree.IsFree target) (bytes : List UInt8)
    (place : Place) :
    (tree.put target (.file bytes)).isDirectoryAt place =
      tree.isDirectoryAt place := by
  by_cases h : place = target
  · subst h
    rw [isDirectoryAt, isDirectoryAt, find?_put_self hfree.ne_nil,
      decide_eq_false (by simp)]
    refine (decide_eq_false fun hdirectory => ?_).symm
    obtain ⟨bytes, hbytes⟩ := hfree _ hdirectory
    cases hbytes
  · rw [isDirectoryAt, isDirectoryAt, find?_put_of_ne h]

/-! ## Walks after a change -/

theorem advance_put (hfree : tree.IsFree target) (bytes : List UInt8)
    {place : Place} {steps : List Step} {halt : Halt}
    (h : tree.advance place steps = .ok halt) :
    (tree.put target (.file bytes)).advance place steps = .ok halt := by
  induction steps generalizing place with
  | nil => exact h
  | cons step rest ih =>
      simp only [advance] at h ⊢
      rw [isDirectoryAt_put hfree]
      split at h
      · next hdirectory =>
        rw [if_pos hdirectory]
        cases step with
        | here => exact ih h
        | up => exact ih h
        | tooLong => cases h
        | name entry =>
            by_cases htarget : entry :: place = target
            · -- A walk that goes on from the target has found a file there.
              simp only at h ⊢
              rw [htarget] at h ⊢
              rw [find?_put_self hfree.ne_nil]
              split at h
              · cases h
              · next text hlink =>
                obtain ⟨_, hfile⟩ := hfree _ hlink
                cases hfile
              · exact ih h
            · simp only at h ⊢
              rw [find?_put_of_ne htarget]
              split at h
              · cases h
              · exact h
              · exact ih h
      · cases h

theorem walk_put (hfree : tree.IsFree target) (bytes : List UInt8) {links : Nat}
    {place : Place} {steps : List Step} {arrival : Arrival}
    (h : tree.walk links place steps = .ok arrival) :
    (tree.put target (.file bytes)).walk links place steps = .ok arrival := by
  induction h using walk_induct with
  | arrived links hadvance =>
      exact walk_arrived (advance_put hfree bytes hadvance) links
  | link links hadvance hwalk ih =>
      rw [walk_link (advance_put hfree bytes hadvance)]
      exact ih

/-- Steps that do not halt at the target have not met the file there. -/
theorem advance_of_put (hfree : tree.IsFree target) {bytes : List UInt8}
    {place : Place} {steps : List Step} {halt : Halt}
    (h : (tree.put target (.file bytes)).advance place steps = .ok halt) :
    tree.advance place steps = .ok halt ∨ halt = .arrived target := by
  induction steps generalizing place with
  | nil => exact .inl h
  | cons step rest ih =>
      simp only [advance] at h ⊢
      rw [isDirectoryAt_put hfree] at h
      split at h
      · next hdirectory =>
        rw [if_pos hdirectory]
        cases step with
        | here => exact ih h
        | up => exact ih h
        | tooLong => cases h
        | name entry =>
            simp only at h ⊢
            by_cases htarget : entry :: place = target
            · rw [htarget, find?_put_self hfree.ne_nil] at h
              cases rest with
              | nil =>
                  rw [advance] at h
                  exact .inr (Except.ok.inj h).symm
              | cons step rest =>
                  have hfile :
                      (tree.put target (.file bytes)).isDirectoryAt target =
                        false := by
                    rw [isDirectoryAt, find?_put_self hfree.ne_nil]
                    rfl
                  simp only [advance, hfile] at h
                  cases h
            · rw [find?_put_of_ne htarget] at h
              split at h
              · cases h
              · exact .inl h
              · exact ih h
      · cases h

theorem walk_of_put (hfree : tree.IsFree target) {bytes : List UInt8}
    {links : Nat} {place : Place} {steps : List Step} {arrival : Arrival}
    (h : (tree.put target (.file bytes)).walk links place steps = .ok arrival) :
    tree.walk links place steps = .ok arrival ∨ arrival.place = target := by
  induction h using walk_induct with
  | arrived links hadvance =>
      rcases advance_of_put hfree hadvance with hadvance | harrived
      · exact .inl (walk_arrived hadvance links)
      · exact .inr (Halt.arrived.inj harrived)
  | link links hadvance hwalk ih =>
      rcases advance_of_put hfree hadvance with hadvance | harrived
      · rw [walk_link hadvance]
        exact ih
      · cases harrived

/-! ## The place of a file -/

/-- A place is found in the directory that the route leads to, or by the route
of a link there. -/
theorem filePlace_cases {links : Nat} {place : Place} {route : Route}
    (h : tree.filePlace links place route = .ok target) :
    route.slashEnd = false ∧ ∃ initial arrival entry,
      route.steps = initial ++ [.name entry] ∧
      tree.walk links (route.origin place) initial = .ok arrival ∧
      tree.isDirectoryAt arrival.place = true ∧
      (target = entry :: arrival.place ∧ tree.IsFree target ∨
        ∃ left text, arrival.linksLeft = left + 1 ∧
          tree.find? (entry :: arrival.place) = some (.link text) ∧
          tree.filePlace left arrival.place (.ofText text) = .ok target) := by
  rw [filePlace.eq_def] at h
  split at h
  · cases h
  · next links arrival last hlast =>
    split at h
    · cases h
    · next hslash =>
      refine ⟨Bool.not_eq_true _ ▸ hslash, ?_⟩
      split at h
      · cases h
      · next entry =>
        obtain ⟨initial, hsteps, hwalk, hdirectory⟩ := walkToLast_eq_ok hlast
        refine ⟨initial, arrival, entry, hsteps, hwalk, hdirectory, ?_⟩
        split at h
        · cases h
        · cases h
        · next text hfind =>
          split at h
          · cases h
          · next links =>
            split at h
            · cases h
            · next hleft =>
              have hle := linksLeft_le hwalk
              rw [Nat.min_eq_right (by omega)] at h
              exact .inr ⟨arrival.linksLeft - 1, text, by omega, hfind, h⟩
        · next hdirectory hblocked hlink =>
          cases h
          refine .inl ⟨rfl, fun node hnode => ?_⟩
          cases node with
          | directory => exact absurd hnode hdirectory
          | blocked obstacle => exact absurd hnode (hblocked obstacle)
          | link text => exact absurd hnode (hlink text)
          | file bytes => exact ⟨bytes, rfl⟩
      · cases h

/-- A place where a file can be written is free, and once a file is there the
route leads to it. -/
theorem walk_filePlace {links : Nat} {place : Place} {route : Route}
    (h : tree.filePlace links place route = .ok target) :
    tree.IsFree target ∧ ∀ bytes, ∃ left,
      (tree.put target (.file bytes)).walk links (route.origin place)
        route.stepsInto = .ok ⟨target, left⟩ := by
  induction links using Nat.strongRecOn generalizing place route with
  | ind links ih =>
      obtain ⟨hslash, initial, arrival, entry, hsteps, hwalk,
        hdirectory, hcases⟩ :=
        filePlace_cases h
      have hinto : route.stepsInto = initial ++ [.name entry] := by
        rw [Route.stepsInto, hslash, if_neg Bool.false_ne_true, hsteps]
      have hle := linksLeft_le hwalk
      rw [hinto]
      rcases hcases with ⟨rfl, hfree⟩ | ⟨left, text, hleft, hfind, hplace⟩
      · refine ⟨hfree, fun bytes => ⟨arrival.linksLeft, ?_⟩⟩
        rw [walk_append (walk_put hfree bytes hwalk)]
        refine walk_arrived ?_ _
        rw [advance_name ((isDirectoryAt_put hfree bytes _).trans hdirectory),
          find?_put_self hfree.ne_nil]
      · obtain ⟨hfree, hroute⟩ := ih left (by omega) hplace
        refine ⟨hfree, fun bytes => ?_⟩
        obtain ⟨rest, hrest⟩ := hroute bytes
        have hne : entry :: arrival.place ≠ target := by
          rintro rfl
          obtain ⟨_, hfile⟩ := hfree _ hfind
          cases hfile
        have hadvance :
            (tree.put target (.file bytes)).advance arrival.place
                [.name entry] =
              .ok (.link arrival.place text []) := by
          rw [advance_name ((isDirectoryAt_put hfree bytes _).trans hdirectory),
            find?_put_of_ne hne, hfind]
        refine ⟨rest, ?_⟩
        rw [walk_append (walk_put hfree bytes hwalk), hleft, walk_link hadvance,
          List.append_nil]
        exact hrest

theorem resolve_put_of_filePlace {path : Path} {route : Route}
    (hroute : route? path = .ok route)
    (hplace : tree.filePlace linkLimit tree.start route = .ok target)
    (bytes : List UInt8) :
    (tree.put target (.file bytes)).resolve path = .ok target := by
  obtain ⟨-, hwalk⟩ := walk_filePlace hplace
  obtain ⟨left, hleft⟩ := hwalk bytes
  exact resolve_eq_ok_iff.2 ⟨route, hroute, _, hleft, rfl⟩

/-! ## Two trees with a write between them -/

/-- Whether a file can be written where a path leads to. -/
def IsWritable (tree : FileTree) (path : Path) : Prop :=
  ∃ route, route? path = .ok route ∧ ∃ place,
  tree.filePlace linkLimit tree.start route = .ok place

theorem write_eq_ok_iff {written : FileTree} {path : Path}
    {bytes : List UInt8} :
    tree.write path bytes = .ok written ↔ ∃ route, route? path = .ok route ∧
      ∃ place, tree.filePlace linkLimit tree.start route = .ok place ∧
        tree.put place (.file bytes) = written := by
  simp only [write, putFile, bind_eq_ok_iff, pure, Except.pure, Except.ok.injEq]

theorem isWritable_iff {path : Path} {bytes : List UInt8} :
    tree.IsWritable path ↔ ∃ written, tree.write path bytes = .ok written := by
  simp only [IsWritable, write_eq_ok_iff]
  constructor
  · rintro ⟨route, hroute, place, hplace⟩
    exact ⟨_, route, hroute, place, hplace, rfl⟩
  · rintro ⟨_, route, hroute, place, hplace, -⟩
    exact ⟨route, hroute, place, hplace⟩

/-- Whether the later tree differs from the earlier one in one place only, where
there was a file or nothing. The path leads there and to a file with these
bytes, and every path that leads elsewhere leads to what it led to. -/
structure Rewrites (before after : FileTree) (path : Path) (bytes : List UInt8)
    (place : Place) : Prop where
  resolve : after.resolve path = .ok place
  find : after.find? place = some (.file bytes)
  free : before.IsFree place
  others : ∀ other, other ≠ place → after.find? other = before.find? other
  paths : ∀ other node, after.resolve other ≠ .ok place →
    (after.node other = .ok node ↔ before.node other = .ok node)

theorem resolve_put (hfree : tree.IsFree target) (bytes : List UInt8)
    {path : Path} {place : Place} (h : tree.resolve path = .ok place) :
    (tree.put target (.file bytes)).resolve path = .ok place := by
  obtain ⟨route, hroute, arrival, hwalk, hplace⟩ := resolve_eq_ok_iff.1 h
  exact resolve_eq_ok_iff.2 ⟨route, hroute, arrival,
    walk_put hfree bytes hwalk, hplace⟩

theorem resolve_of_put (hfree : tree.IsFree target) {bytes : List UInt8}
    {path : Path} {place : Place} (hne : place ≠ target)
    (h : (tree.put target (.file bytes)).resolve path = .ok place) :
    tree.resolve path = .ok place := by
  obtain ⟨route, hroute, arrival, hwalk, rfl⟩ := resolve_eq_ok_iff.1 h
  exact resolve_eq_ok_iff.2
    ⟨route, hroute, arrival, (walk_of_put hfree hwalk).resolve_right hne, rfl⟩

theorem node_put_iff (hfree : tree.IsFree target) (bytes : List UInt8)
    {path : Path} {node : Node}
    (hpath : (tree.put target (.file bytes)).resolve path ≠ .ok target) :
    (tree.put target (.file bytes)).node path = .ok node ↔
      tree.node path = .ok node := by
  rw [node_eq_ok_iff, node_eq_ok_iff]
  refine exists_congr fun place => ?_
  constructor
  · rintro ⟨hresolve, hfind⟩
    have hne : place ≠ target := fun heq => hpath (heq ▸ hresolve)
    exact ⟨resolve_of_put hfree hne hresolve, find?_put_of_ne hne _ ▸ hfind⟩
  · rintro ⟨hresolve, hfind⟩
    have hput := resolve_put hfree bytes hresolve
    have hne : place ≠ target := fun heq => hpath (heq ▸ hput)
    exact ⟨hput, (find?_put_of_ne hne _).trans hfind⟩

theorem rewrites_of_write {written : FileTree} {path : Path}
    {bytes : List UInt8} (h : tree.write path bytes = .ok written) :
    ∃ place, tree.Rewrites written path bytes place := by
  obtain ⟨route, hroute, place, hplace, rfl⟩ := write_eq_ok_iff.1 h
  obtain ⟨hfree, -⟩ := walk_filePlace hplace
  exact ⟨place, resolve_put_of_filePlace hroute hplace bytes,
    find?_put_self hfree.ne_nil _, hfree,
    fun _ hother => find?_put_of_ne hother _,
    fun _ _ hother => node_put_iff hfree bytes hother⟩

theorem Rewrites.read {after : FileTree} {path : Path} {bytes : List UInt8}
    {place : Place} (h : tree.Rewrites after path bytes place) :
    after.read path = .ok bytes := by
  rw [FileTree.read, node_eq_ok_iff.2 ⟨place, h.resolve, h.find⟩]
  rfl

theorem read_write {written : FileTree} {path : Path} {bytes : List UInt8}
    (h : tree.write path bytes = .ok written) :
    written.read path = .ok bytes := by
  obtain ⟨place, hrewrites⟩ := rewrites_of_write h
  exact hrewrites.read

/-- Nothing is in the way of a first file. -/
theorem write_empty {path : Path} {entry : FileName}
    (hroute : route? path = .ok ⟨false, [.here, .name entry], false⟩)
    (bytes : List UInt8) :
    empty.write path bytes = .ok (empty.put [entry] (.file bytes)) := by
  have hplace :
      empty.filePlace linkLimit [] ⟨false, [.here, .name entry], false⟩ =
        .ok [entry] := by
    rw [filePlace.eq_def]
    rfl
  rw [write, putFile, hroute]
  show (empty.filePlace linkLimit [] _ >>= _) = _
  rw [hplace]
  rfl

end BenchReport.FileTree
