import BenchReport.CommandLine.Usage
import BenchReport.Proofs.Outcome

/-!
# A flag in front of a command line

Reading a command line carries a state from argument to argument. For a flag
that has nothing to do with the other settings, the state with the flag raised
goes through the same steps as the state without it: each step commutes with
raising (`Passes`), and steps in a row pass if each of them does. The one step
that does not commute is raising the flag itself, a second time. It is told by
what the flag leaves in the settings, which no later step takes back, so a
command line that ends without the flag has never raised it.
-/

namespace BenchReport.Usage

variable {σ : Type}

/-- The parameters of a program. -/
def parameters (u : Usage σ) : List (Parameter σ) :=
  u.options ++ u.positionals

/-- Whether a flag has nothing to do with what else a program takes. What tells
that it is raised is `isOn`. -/
structure IsApart (u : Usage σ) (flag : Flag σ) (isOn : σ → Bool) : Prop where
  isOn_set : ∀ settings, isOn (flag.set settings) = true
  name_flag : ∀ other ∈ u.flags, other = flag ∨ other.name ≠ flag.name
  set_flag : ∀ other ∈ u.flags, ∀ settings,
    other.set (flag.set settings) = flag.set (other.set settings)
  isOn_flag : ∀ other ∈ u.flags, ∀ settings, isOn settings = true →
    isOn (other.set settings) = true
  name_parameter : ∀ p ∈ u.parameters, p.name ≠ flag.name
  set_parameter : ∀ p ∈ u.parameters, ∀ value settings,
    p.set value (flag.set settings) = (p.set value settings).map flag.set
  isOn_parameter :
    ∀ p ∈ u.parameters, ∀ value settings changed, isOn settings = true →
    p.set value settings = .ok changed → isOn changed = true

namespace State

/-- The state with a flag raised before all that was given. -/
def raised (flag : Flag σ) (s : State σ) : State σ :=
  { s with settings := flag.set s.settings, given := s.given ++ [flag.name] }

/-- Whether the state deals with parameters of the program only. -/
structure IsOf (u : Usage σ) (s : State σ) : Prop where
  pending : ∀ p value, s.pending = some (p, value) → p ∈ u.parameters
  positionals : ∀ p ∈ s.positionals, p ∈ u.parameters

end State

variable {u : Usage σ} {flag : Flag σ} {isOn : σ → Bool}

/-! ## Steps that pass -/

/-- Whether a step keeps to the parameters of the program, never takes a flag
back, and does the same with the flag raised before as without it, unless it
raises it. -/
def Passes (u : Usage σ) (flag : Flag σ) (isOn : σ → Bool)
    (step : State σ → Except UsageError (State σ)) : Prop :=
  ∀ s t : State σ, s.IsOf u → step s = .ok t →
    t.IsOf u ∧ (isOn t.settings = false →
      isOn s.settings = false ∧ step (s.raised flag) = .ok (t.raised flag))

theorem Passes.bind {step later : State σ → Except UsageError (State σ)}
    (hstep : Passes u flag isOn step) (hlater : Passes u flag isOn later) :
    Passes u flag isOn fun s => step s >>= later := by
  intro s t hs h
  obtain ⟨mid, hmid, ht⟩ := bind_eq_ok_iff.1 h
  obtain ⟨hof, hraised⟩ := hstep s mid hs hmid
  obtain ⟨hof', hraised'⟩ := hlater mid t hof ht
  refine ⟨hof', fun hoff => ?_⟩
  obtain ⟨hoffMid, hmidRaised⟩ := hraised' hoff
  obtain ⟨hoffFirst, hfirstRaised⟩ := hraised hoffMid
  exact ⟨hoffFirst, bind_eq_ok_iff.2 ⟨_, hfirstRaised, hmidRaised⟩⟩

theorem passes_ok (f : State σ → State σ) (hof : ∀ {s}, s.IsOf u → (f s).IsOf u)
    (hsettings : ∀ s, (f s).settings = s.settings)
    (hraised : ∀ s, f (s.raised flag) = (f s).raised flag) :
    Passes u flag isOn fun s => .ok (f s) := by
  intro s t hs h
  cases h
  exact ⟨hof hs, fun hoff =>
    ⟨hsettings s ▸ hoff, congrArg Except.ok (hraised s)⟩⟩

theorem passes_error (e : UsageError) :
    Passes u flag isOn fun _ => .error e := by
  intro s t hs h
  cases h

/-- Raising a flag does not end the options. -/
theorem Passes.ite {ended rest : State σ → Except UsageError (State σ)}
    (hended : Passes u flag isOn ended) (hopen : Passes u flag isOn rest) :
    Passes u flag isOn fun s => if s.optionsEnded then ended s else rest s := by
  intro s t hs h
  dsimp only at h ⊢
  by_cases hoptions : s.optionsEnded = true
  · rw [if_pos hoptions] at h
    rw [if_pos (show (s.raised flag).optionsEnded = true from hoptions)]
    exact hended s t hs h
  · rw [if_neg hoptions] at h
    rw [if_neg (show ¬ (s.raised flag).optionsEnded = true from hoptions)]
    exact hopen s t hs h

theorem passes_pending {p : Parameter σ} (hp : p ∈ u.parameters)
    (value : Option String) :
    Passes u flag isOn fun s => .ok { s with pending := some (p, value) } :=
  passes_ok (fun s => { s with pending := some (p, value) })
    (fun hs => ⟨fun _ _ h => by cases h; exact hp, hs.positionals⟩)
      (fun _ => rfl) fun _ => rfl

/-! ## Parameters and flags -/

theorem contains_raised {name : String} (hname : name ≠ flag.name)
    (s : State σ) :
    (s.raised flag).given.contains name = s.given.contains name := by
  rw [State.raised, List.contains_append, List.contains_cons, List.contains_nil,
    Bool.or_false, beq_eq_false_iff_ne.2 hname, Bool.or_false]

theorem raise_eq (s : State σ) (other : Flag σ) :
    s.raise other = s.settle >>= fun s =>
      if s.given.contains other.name then .error .argumentConflict
      else .ok { s with
        settings := other.set s.settings, given := other.name :: s.given } :=
  rfl

section Apart

variable (hu : u.IsApart flag isOn)

include hu

theorem passes_give {p : Parameter σ} (hp : p ∈ u.parameters) (value : String) :
    Passes u flag isOn fun s => s.give p value := by
  intro s t hs h
  dsimp only at h ⊢
  rw [State.give] at h
  split at h
  · cases h
  · next hnew =>
    obtain ⟨changed, hchanged, rfl⟩ := map_eq_ok_iff.1 h
    refine ⟨⟨hs.pending, hs.positionals⟩, fun hoff => ⟨?_, ?_⟩⟩
    · refine Bool.eq_false_iff.2 fun hon => ?_
      rw [hu.isOn_parameter p hp value s.settings changed hon hchanged] at hoff
      cases hoff
    · have hraised := hu.set_parameter p hp value s.settings
      rw [hchanged] at hraised
      rw [State.give, contains_raised (hu.name_parameter p hp), if_neg hnew]
      show (p.set value (flag.set s.settings)).map _ = _
      rw [hraised]
      rfl

theorem passes_settle : Passes u flag isOn State.settle := by
  intro s t hs h
  cases hpending : s.pending with
  | none =>
      have hraised : (s.raised flag).pending = none := hpending
      rw [State.settle, hpending] at h
      cases h
      refine ⟨hs, fun hoff => ⟨hoff, ?_⟩⟩
      rw [State.settle, hraised]
  | some pending =>
      obtain ⟨p, value?⟩ := pending
      have hraised : (s.raised flag).pending = some (p, value?) := hpending
      cases value? with
      | none =>
          rw [State.settle, hpending] at h
          cases h
      | some value =>
          rw [State.settle, hpending] at h
          have hof : ({ s with pending := none } : State σ).IsOf u :=
            ⟨nofun, hs.positionals⟩
          obtain ⟨ht, hgiven⟩ :=
            passes_give hu (hs.pending p _ hpending) value _ t hof h
          refine ⟨ht, fun hoff => ?_⟩
          rw [State.settle, hraised]
          exact hgiven hoff

theorem passes_raise {other : Flag σ} (hother : other ∈ u.flags) :
    Passes u flag isOn fun s => s.raise other := by
  have htake : Passes u flag isOn fun s =>
      if s.given.contains other.name then .error .argumentConflict
      else .ok { s with
        settings := other.set s.settings, given := other.name :: s.given } := by
    intro s t hs h
    dsimp only at h ⊢
    split at h
    · cases h
    · next hnew =>
      cases h
      refine ⟨⟨hs.pending, hs.positionals⟩, fun hoff => ?_⟩
      rcases hu.name_flag other hother with rfl | hname
      · rw [show isOn (other.set s.settings) = true from hu.isOn_set s.settings]
          at hoff
        cases hoff
      · refine ⟨Bool.eq_false_iff.2 fun hon => ?_, ?_⟩
        · rw [show isOn (other.set s.settings) = true from
            hu.isOn_flag other hother s.settings hon] at hoff
          cases hoff
        · rw [contains_raised hname, if_neg hnew]
          simp only [State.raised, hu.set_flag other hother, List.cons_append]
  simp only [raise_eq]
  exact (passes_settle hu).bind htake

/-! ## Arguments -/

theorem passes_position (value : String) :
    Passes u flag isOn fun s => s.position value := by
  intro s t hs h
  dsimp only at h ⊢
  cases hpositionals : s.positionals with
  | nil =>
      rw [State.position, hpositionals] at h
      cases h
  | cons p rest =>
      have hraised : (s.raised flag).positionals = p :: rest := hpositionals
      obtain ⟨hp, hrest⟩ :=
        List.forall_mem_cons.1 (hpositionals ▸ hs.positionals)
      have hpending : Passes u flag isOn fun s =>
          .ok { s with pending := some (p, some value), positionals := rest } :=
        passes_ok
          (fun s =>
            { s with pending := some (p, some value), positionals := rest })
          (fun _ => ⟨fun _ _ h => by cases h; exact hp, hrest⟩) (fun _ => rfl)
          fun _ => rfl
      rw [State.position, hpositionals] at h
      rw [State.position, hraised]
      exact (passes_settle hu).bind hpending s t hs h

theorem passes_plain (value : String) :
    Passes u flag isOn fun s => s.plain value := by
  intro s t hs h
  dsimp only at h ⊢
  have hposition := passes_position hu value s t hs
  rw [State.plain] at h
  split at h
  · next p hpending =>
    have hraised : (s.raised flag).pending = some (p, none) := hpending
    obtain ⟨ht, hsame⟩ :=
      passes_pending (hs.pending p _ hpending) (some value) s t hs h
    refine ⟨ht, fun hoff => ?_⟩
    rw [State.plain, hraised]
    exact hsame hoff
  · next hpending =>
    obtain ⟨ht, hsame⟩ := hposition h
    refine ⟨ht, fun hoff => ?_⟩
    obtain ⟨hfirst, hraised⟩ := hsame hoff
    refine ⟨hfirst, ?_⟩
    rw [State.plain]
    split
    · next p hraisedPending => exact absurd hraisedPending (hpending p)
    · exact hraised

theorem passes_takeLong (text : List Char) :
    Passes u flag isOn fun s => u.takeLong s text := by
  simp only [takeLong]
  cases hoption : u.options.find? (·.name = (splitValue text).1) with
  | some option =>
      have hp : option ∈ u.parameters :=
        List.mem_append_left _ (List.mem_of_find?_eq_some hoption)
      cases (splitValue text).2 with
      | some value => exact (passes_settle hu).bind (passes_give hu hp value)
      | none => exact (passes_settle hu).bind (passes_pending hp none)
  | none =>
      cases hflag : u.flags.find? (·.name = (splitValue text).1) with
      | some other =>
          cases (splitValue text).2 with
          | some value => exact passes_error .tooManyValues
          | none => exact passes_raise hu (List.mem_of_find?_eq_some hflag)
      | none =>
          dsimp only
          split
          · split
            · exact passes_error .tooManyValues
            · exact (passes_settle hu).bind (passes_error .helpRequested)
          · exact passes_error .unknownArgument

theorem passes_takeLetters (letters : List Char) :
    Passes u flag isOn fun s => u.takeLetters s letters := by
  induction letters with
  | nil => exact passes_ok id (fun hs => hs) (fun _ => rfl) fun _ => rfl
  | cons c rest ih =>
      simp only [takeLetters]
      cases hflag : u.flags.find? (·.letter = c) with
      | some other =>
          exact (passes_raise hu (List.mem_of_find?_eq_some hflag)).bind ih
      | none =>
          dsimp only
          split
          · exact (passes_settle hu).bind (passes_error .helpRequested)
          · exact passes_error .unknownArgument

theorem passes_take (argument : String) :
    Passes u flag isOn fun s => u.take s argument := by
  simp only [take]
  refine (passes_position hu argument).ite ?_
  split
  · exact passes_ok (fun s => { s with optionsEnded := true })
      (fun hs => ⟨hs.pending, hs.positionals⟩) (fun _ => rfl) fun _ => rfl
  · exact passes_takeLong hu _
  · exact passes_takeLetters hu _
  · exact passes_plain hu argument

theorem passes_foldlM (arguments : List String) :
    Passes u flag isOn fun s => arguments.foldlM u.take s := by
  induction arguments with
  | nil => exact passes_ok id (fun hs => hs) (fun _ => rfl) fun _ => rfl
  | cons argument rest ih =>
      simp only [List.foldlM_cons]
      exact (passes_take hu argument).bind ih

/-! ## Command lines -/

/-- A command line that gives settings without a flag gives them with the flag
raised if the letter of the flag is put in front. -/
theorem read_cons_letter
    (hflag : u.flags.find? (·.letter = flag.letter) = some flag)
    (hletter : flag.letter ≠ '-') {settings result : σ}
    {arguments : List String} (h : u.read settings arguments = .ok result)
    (hoff : isOn result = false) :
    u.read settings (.ofList ['-', flag.letter] :: arguments) =
      .ok (flag.set result) := by
  rw [read] at h ⊢
  obtain ⟨s, hs, h⟩ := bind_eq_ok_iff.1 h
  obtain ⟨t, ht, h⟩ := bind_eq_ok_iff.1 h
  cases h
  have hfirst :
      u.take { settings, positionals := u.positionals }
        (.ofList ['-', flag.letter]) =
      .ok (State.raised flag { settings, positionals := u.positionals }) := by
    rw [take, if_neg Bool.false_ne_true, String.toList_ofList]
    split
    · next heq => exact absurd (List.cons.inj (List.cons.inj heq).2).1 hletter
    · next heq => exact absurd (List.cons.inj (List.cons.inj heq).2).1 hletter
    · next letter letters _ heq =>
      cases heq
      rw [takeLetters, hflag]
      rfl
    · next hnone => exact absurd rfl (hnone flag.letter [])
  have hof : ({ settings, positionals := u.positionals } : State σ).IsOf u :=
    ⟨nofun, fun p hp => List.mem_append_right _ hp⟩
  obtain ⟨-, hraised⟩ :=
    (passes_foldlM hu arguments).bind (passes_settle hu) _ t hof
      (bind_eq_ok_iff.2 ⟨s, hs, ht⟩)
  obtain ⟨s', hs', ht'⟩ := bind_eq_ok_iff.1 (hraised hoff).2
  rw [List.foldlM_cons, hfirst]
  exact bind_eq_ok_iff.2 ⟨s', hs', bind_eq_ok_iff.2 ⟨_, ht', rfl⟩⟩

end Apart

end BenchReport.Usage
