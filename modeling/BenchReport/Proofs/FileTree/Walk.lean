import BenchReport.FileTree.Access
import BenchReport.Proofs.Outcome

/-!
# Walks

A walk that succeeds either arrives without meeting a link or follows the first
one and goes on with one link less (`walk_cases`); inductions on walks are on
the number of links, with this case split (`walk_induct`). A walk over some
steps and then over others is two walks, the second one with the links that the
first one has left (`walk_append`), and where the whole succeeds, so does its
beginning (`walk_of_append`). How many links are left has no say in where a walk
arrives, as long as it arrives (`place_eq_of_walk`).

Nothing says that an entry is listed below a directory. But a walk that starts
in a directory below directories never leaves these: each directory that it
comes to is below directories only (`grounded_of_walk`).
-/

namespace BenchReport.FileTree

variable {tree : FileTree}

/-! ## Walks and links -/

theorem walk_arrived {place end_ : Place} {steps : List Step}
    (h : tree.advance place steps = .ok (.arrived end_)) (links : Nat) :
    tree.walk links place steps = .ok ⟨end_, links⟩ := by
  rw [walk.eq_def, h]

theorem walk_nil (links : Nat) (place : Place) :
    tree.walk links place [] = .ok ⟨place, links⟩ := by
  refine walk_arrived ?_ links
  rw [advance]

theorem walk_link {place directory : Place} {steps rest : List Step}
    {text : String}
    (h : tree.advance place steps = .ok (.link directory text rest))
    (links : Nat) :
    tree.walk (links + 1) place steps =
      tree.walk links ((Route.ofText text).origin directory)
        ((Route.ofText text).stepsInto ++ rest) := by
  rw [walk.eq_def, h]

/-- A walk that succeeds arrives at once, or follows a link and goes on. -/
theorem walk_cases {links : Nat} {place : Place} {steps : List Step}
    {arrival : Arrival} (h : tree.walk links place steps = .ok arrival) :
    (∃ end_, tree.advance place steps = .ok (.arrived end_) ∧
      arrival = ⟨end_, links⟩) ∨
      ∃ left directory text rest, links = left + 1 ∧
        tree.advance place steps = .ok (.link directory text rest) ∧
        tree.walk left ((Route.ofText text).origin directory)
          ((Route.ofText text).stepsInto ++ rest) = .ok arrival := by
  cases hadvance : tree.advance place steps with
  | error e => rw [walk.eq_def, hadvance] at h; cases h
  | ok halt =>
      cases halt with
      | arrived end_ =>
          rw [walk_arrived hadvance] at h
          exact .inl ⟨end_, rfl, (Except.ok.inj h).symm⟩
      | link directory text rest =>
          cases links with
          | zero => rw [walk.eq_def, hadvance] at h; cases h
          | succ left =>
              rw [walk_link hadvance] at h
              exact .inr ⟨left, directory, text, rest, rfl, rfl, h⟩

/-- The induction on walks that succeed, on how many links they may follow: a
walk arrives, or it is as long as the one that follows its first link. -/
theorem walk_induct
    {motive : ∀ (links : Nat) (place : Place) (steps : List Step)
      (arrival : Arrival),
      tree.walk links place steps = .ok arrival → Prop}
    (arrived : ∀ (links : Nat) {place end_ : Place} {steps : List Step}
      (hadvance : tree.advance place steps = .ok (.arrived end_)),
      motive links place steps ⟨end_, links⟩ (walk_arrived hadvance links))
    (link : ∀ (links : Nat) {place directory : Place} {steps rest : List Step}
      {text : String}
      {arrival : Arrival}
      (hadvance : tree.advance place steps = .ok (.link directory text rest))
      (hwalk : tree.walk links ((Route.ofText text).origin directory)
        ((Route.ofText text).stepsInto ++ rest) = .ok arrival),
      motive links _ _ arrival hwalk →
      motive (links + 1) place steps arrival
        ((walk_link hadvance links).trans hwalk))
    {links : Nat} {place : Place} {steps : List Step} {arrival : Arrival}
    (h : tree.walk links place steps = .ok arrival) :
    motive links place steps arrival h := by
  induction links generalizing place steps with
  | zero =>
      rcases walk_cases h with ⟨end_, hadvance, rfl⟩ | ⟨left, _, _, _, hleft, _⟩
      · exact arrived 0 hadvance
      · cases hleft
  | succ links ih =>
      rcases walk_cases h with
        ⟨end_, hadvance, rfl⟩ | ⟨left, _, _, _, hleft, hadvance, hwalk⟩
      · exact arrived _ hadvance
      · cases hleft
        exact link links hadvance hwalk (ih hwalk)

theorem linksLeft_le {links : Nat} {place : Place} {steps : List Step}
    {arrival : Arrival} (h : tree.walk links place steps = .ok arrival) :
    arrival.linksLeft ≤ links := by
  induction h using walk_induct with
  | arrived => exact Nat.le_refl _
  | link links hadvance hwalk ih => exact Nat.le_succ_of_le ih

/-- Links that may be followed in addition are left over. -/
theorem walk_add {links : Nat} {place : Place} {steps : List Step}
    {arrival : Arrival} (h : tree.walk links place steps = .ok arrival)
    (more : Nat) :
    tree.walk (links + more) place steps =
      .ok ⟨arrival.place, arrival.linksLeft + more⟩ := by
  induction h using walk_induct with
  | arrived links hadvance => exact walk_arrived hadvance _
  | link links hadvance hwalk ih =>
      rw [Nat.add_right_comm, walk_link hadvance]
      exact ih

/-! ## Walks in two parts -/

/-- Where steps lead that are followed by others. -/
def Halt.followedBy (tree : FileTree) (later : List Step) :
    Halt → Except FileError Halt
  | .arrived place => tree.advance place later
  | .link directory text rest => .ok (.link directory text (rest ++ later))

theorem advance_append {place : Place} {steps : List Step} {halt : Halt}
    (h : tree.advance place steps = .ok halt) (later : List Step) :
    tree.advance place (steps ++ later) = halt.followedBy tree later := by
  induction steps generalizing place with
  | nil =>
      rw [advance] at h
      cases h
      rfl
  | cons step rest ih =>
      simp only [List.cons_append, advance] at h ⊢
      split at h
      · next hdirectory =>
        rw [if_pos hdirectory]
        cases step with
        | here => exact ih h
        | up => exact ih h
        | tooLong => cases h
        | name entry =>
            simp only at h ⊢
            split at h
            · cases h
            · cases h
              rfl
            · exact ih h
      · cases h

theorem walk_congr {links : Nat} {place place' : Place}
    {steps steps' : List Step}
    (h : tree.advance place steps = tree.advance place' steps') :
    tree.walk links place steps = tree.walk links place' steps' := by
  rw [walk.eq_def, h, ← walk.eq_def]

theorem walk_append {links : Nat} {place : Place} {steps : List Step}
    {arrival : Arrival} (h : tree.walk links place steps = .ok arrival)
    (later : List Step) :
    tree.walk links place (steps ++ later) =
      tree.walk arrival.linksLeft arrival.place later := by
  induction h using walk_induct with
  | arrived links hadvance => exact walk_congr (advance_append hadvance later)
  | link links hadvance hwalk ih =>
      rw [walk_link (advance_append hadvance later), ← List.append_assoc]
      exact ih

theorem advance_append_error {place : Place} {steps : List Step} {e : FileError}
    (h : tree.advance place steps = .error e) (later : List Step) :
    tree.advance place (steps ++ later) = .error e := by
  induction steps generalizing place with
  | nil =>
      rw [advance] at h
      cases h
  | cons step rest ih =>
      simp only [List.cons_append, advance] at h ⊢
      split at h
      · next hdirectory =>
        rw [if_pos hdirectory]
        cases step with
        | here => exact ih h
        | up => exact ih h
        | tooLong => exact h
        | name entry =>
            simp only at h ⊢
            split at h
            · exact h
            · cases h
            · exact ih h
      · next hdirectory =>
        rw [if_neg hdirectory]
        exact h

theorem walk_of_append {links : Nat} {place : Place} {steps later : List Step}
    {arrival : Arrival}
    (h : tree.walk links place (steps ++ later) = .ok arrival) :
    ∃ mid, tree.walk links place steps = .ok mid ∧
      tree.walk mid.linksLeft mid.place later = .ok arrival := by
  have hmid : ∃ mid, tree.walk links place steps = .ok mid := by
    induction links using Nat.strongRecOn generalizing place steps with
    | ind links ih =>
        cases hadvance : tree.advance place steps with
        | error e =>
            rw [walk.eq_def, advance_append_error hadvance] at h
            cases h
        | ok halt =>
            cases halt with
            | arrived end_ => exact ⟨_, walk_arrived hadvance links⟩
            | link directory text rest =>
                have hlater := advance_append hadvance later
                cases links with
                | zero =>
                    rw [walk.eq_def, hlater] at h
                    cases h
                | succ left =>
                    rw [walk_link hlater, ← List.append_assoc] at h
                    rw [walk_link hadvance]
                    exact ih left (Nat.lt_succ_self left) h
  obtain ⟨mid, hmid⟩ := hmid
  exact ⟨mid, hmid, (walk_append hmid later).symm.trans h⟩

theorem place_eq_of_walk {links links' : Nat} {place : Place}
    {steps : List Step} {arrival arrival' : Arrival}
    (h : tree.walk links place steps = .ok arrival)
    (h' : tree.walk links' place steps = .ok arrival') :
    arrival.place = arrival'.place := by
  induction h using walk_induct generalizing links' with
  | arrived links hadvance =>
      rw [walk_arrived hadvance] at h'
      cases h'
      rfl
  | link links hadvance hwalk ih =>
      cases links' with
      | zero =>
          rw [walk.eq_def, hadvance] at h'
          cases h'
      | succ left =>
          rw [walk_link hadvance] at h'
          exact ih h'

/-! ## Walks below directories -/

/-- Whether a directory is found at the place and at all places above it. -/
def Grounded (tree : FileTree) (place : Place) : Prop :=
  ∀ above, above <:+ place → tree.isDirectoryAt above = true

theorem grounded_nil : tree.Grounded [] := by
  intro above habove
  rw [List.suffix_nil.1 habove]
  rfl

theorem Grounded.isDirectoryAt {place : Place} (h : tree.Grounded place) :
    tree.isDirectoryAt place = true :=
  h place List.suffix_rfl

theorem Grounded.tail {place : Place} (h : tree.Grounded place) :
    tree.Grounded place.tail :=
  fun above habove => h above (habove.trans (List.tail_suffix place))

theorem Grounded.cons {place : Place} (h : tree.Grounded place)
    {entry : FileName} (hentry : tree.isDirectoryAt (entry :: place) = true) :
    tree.Grounded (entry :: place) := by
  intro above habove
  rcases List.suffix_cons_iff.1 habove with rfl | habove
  · exact hentry
  · exact h above habove

theorem Grounded.origin {place : Place} (h : tree.Grounded place)
    (route : Route) :
    tree.Grounded (route.origin place) := by
  rw [Route.origin]
  split
  · exact grounded_nil
  · exact h

/-- Whether steps that halt so have stayed below directories. -/
def Halt.Grounded (tree : FileTree) : Halt → Prop
  | .arrived place => tree.isDirectoryAt place = true → tree.Grounded place
  | .link directory _ _ => tree.Grounded directory

theorem grounded_of_advance {place : Place} {steps : List Step} {halt : Halt}
    (hplace : tree.isDirectoryAt place = true → tree.Grounded place)
    (h : tree.advance place steps = .ok halt) : halt.Grounded tree := by
  induction steps generalizing place with
  | nil =>
      rw [advance] at h
      cases h
      exact hplace
  | cons step rest ih =>
      simp only [advance] at h
      split at h
      · next hdirectory =>
        have hgrounded := hplace hdirectory
        cases step with
        | here => exact ih hplace h
        | up => exact ih (fun _ => hgrounded.tail) h
        | tooLong => cases h
        | name entry =>
            simp only at h
            split at h
            · cases h
            · cases h
              exact hgrounded
            · exact ih hgrounded.cons h
      · cases h

theorem grounded_of_walk {links : Nat} {place : Place} {steps : List Step}
    {arrival : Arrival}
    (hplace : tree.isDirectoryAt place = true → tree.Grounded place)
    (h : tree.walk links place steps = .ok arrival) :
    tree.isDirectoryAt arrival.place = true → tree.Grounded arrival.place := by
  induction h using walk_induct with
  | arrived links hadvance => exact grounded_of_advance hplace hadvance
  | link links hadvance hwalk ih =>
      have hdirectory := grounded_of_advance hplace hadvance
      exact ih fun _ => hdirectory.origin _

/-! ## Single steps -/

theorem advance_name {place : Place}
    (hdirectory : tree.isDirectoryAt place = true) (entry : FileName) :
    tree.advance place [.name entry] =
      match tree.find? (entry :: place) with
      | none => .error .notFound
      | some (.link text) => .ok (.link place text [])
      | some _ => .ok (.arrived (entry :: place)) := by
  rw [advance, if_pos hdirectory]
  rfl

/-! ## The last step -/

theorem walkToLast_eq_ok_iff {links : Nat} {origin : Place} {steps : List Step}
    {arrival : Arrival} {last : Option Step} :
    tree.walkToLast links origin steps = .ok (arrival, last) ↔
      tree.walk links origin steps.dropLast = .ok arrival ∧
        steps.getLast? = last ∧
        (last ≠ none → tree.isDirectoryAt arrival.place = true) := by
  rw [walkToLast, bind_eq_ok_iff]
  constructor
  · rintro ⟨found, hwalk, h⟩
    cases hlast : steps.getLast? with
    | none =>
        rw [hlast] at h
        cases h
        exact ⟨hwalk, rfl, fun hnone => absurd rfl hnone⟩
    | some step =>
        rw [hlast] at h
        dsimp only at h
        split at h
        · next hdirectory =>
          cases h
          exact ⟨hwalk, rfl, fun _ => hdirectory⟩
        · cases h
  · rintro ⟨hwalk, rfl, hdirectory⟩
    refine ⟨arrival, hwalk, ?_⟩
    cases hlast : steps.getLast? with
    | none => rfl
    | some step =>
        dsimp only
        rw [if_pos (hdirectory (by rw [hlast]; exact nofun))]
        rfl

theorem walkToLast_eq_ok {links : Nat} {origin : Place} {steps : List Step}
    {arrival : Arrival} {last : Step}
    (h : tree.walkToLast links origin steps = .ok (arrival, some last)) :
    ∃ initial, steps = initial ++ [last] ∧
      tree.walk links origin initial = .ok arrival ∧
      tree.isDirectoryAt arrival.place = true := by
  obtain ⟨hwalk, hlast, hdirectory⟩ := walkToLast_eq_ok_iff.1 h
  obtain ⟨initial, rfl⟩ := List.getLast?_eq_some_iff.1 hlast
  rw [List.dropLast_concat] at hwalk
  exact ⟨initial, rfl, hwalk, hdirectory nofun⟩

end BenchReport.FileTree
