import Mathlib.Data.List.Basic
import Mathlib.Tactic.TypeStar

/-!
# Guarded runs of a transition system

A run may be restricted to steps that meet a condition on the state before the
step and the action taken.  An invariant that every such step preserves holds
in every state of every such run.  A deterministic run is a fold.
-/

namespace Rtk.Transition

variable {S A : Type*}

structure System (S A : Type*) where
  initial : S → Prop
  step : S → A → S → Prop

/-- A run from one state to another in which every step meets `allowed`. -/
inductive Path (system : System S A) (allowed : S → A → Prop) : S → S → Prop
  | refl (s : S) : Path system allowed s s
  | tail {s s' s'' : S} {action : A} (path : Path system allowed s s')
      (hallowed : allowed s' action) (hstep : system.step s' action s'') :
      Path system allowed s s''

def Reachable (system : System S A) (allowed : S → A → Prop) (s : S) : Prop :=
  ∃ start, system.initial start ∧ Path system allowed start s

variable {system : System S A} {allowed allowed' : S → A → Prop}

theorem Path.trans {s s' s'' : S} (hleft : Path system allowed s s')
    (hright : Path system allowed s' s'') : Path system allowed s s'' := by
  induction hright with
  | refl => exact hleft
  | tail _ hallowed hstep ih => exact .tail ih hallowed hstep

theorem Path.mono {s s' : S} (hpath : Path system allowed s s')
    (hallowed : ∀ {s action}, allowed s action → allowed' s action) :
    Path system allowed' s s' := by
  induction hpath with
  | refl => exact .refl _
  | tail _ hmeets hstep ih => exact .tail ih (hallowed hmeets) hstep

/-- A property that every allowed step preserves holds at the end of a run that
starts with it. -/
theorem Path.preserves {s s' : S} {property : S → Prop}
    (hpath : Path system allowed s s')
    (hpreserve : ∀ {s action s'}, property s → allowed s action →
      system.step s action s' → property s')
    (hstart : property s) : property s' := by
  induction hpath with
  | refl => exact hstart
  | tail _ hallowed hstep ih => exact hpreserve ih hallowed hstep

theorem Reachable.initial {s : S} (hinitial : system.initial s) :
    Reachable system allowed s :=
  ⟨s, hinitial, .refl s⟩

theorem Reachable.step {s s' : S} {action : A}
    (hreachable : Reachable system allowed s) (hallowed : allowed s action)
    (hstep : system.step s action s') : Reachable system allowed s' := by
  obtain ⟨start, hinitial, hpath⟩ := hreachable
  exact ⟨start, hinitial, .tail hpath hallowed hstep⟩

theorem Reachable.path {s s' : S} (hreachable : Reachable system allowed s)
    (hpath : Path system allowed s s') : Reachable system allowed s' := by
  obtain ⟨start, hinitial, hstart⟩ := hreachable
  exact ⟨start, hinitial, hstart.trans hpath⟩

/-- A run under a condition is a run. -/
theorem Reachable.weaken {s : S} (hreachable : Reachable system allowed s) :
    Reachable system (fun _ _ => True) s := by
  obtain ⟨start, hinitial, hpath⟩ := hreachable
  exact ⟨start, hinitial, hpath.mono fun _ => trivial⟩

/-- The invariant rule: what holds initially and is preserved by every allowed
step holds in every reachable state. -/
theorem Reachable.invariant {s : S} {property : S → Prop}
    (hreachable : Reachable system allowed s)
    (hinitial : ∀ s, system.initial s → property s)
    (hpreserve : ∀ {s action s'}, property s → allowed s action →
      system.step s action s' → property s') : property s := by
  obtain ⟨start, hstart, hpath⟩ := hreachable
  exact hpath.preserves hpreserve (hinitial start hstart)

/-- A stronger condition, which may use an invariant of the weaker run, gives
the same states. -/
theorem Reachable.mono {s : S} {property : S → Prop}
    (hreachable : Reachable system allowed s)
    (hinitial : ∀ s, system.initial s → property s)
    (hpreserve : ∀ {s action s'}, property s → allowed s action →
      system.step s action s' → property s')
    (hallowed : ∀ {s action}, property s → allowed s action → allowed' s action) :
    Reachable system allowed' s := by
  have hboth : Reachable system allowed' s ∧ property s := by
    apply hreachable.invariant
    · exact fun s hs => ⟨.initial hs, hinitial s hs⟩
    · rintro s action s' ⟨hreach, hproperty⟩ hmeets hstep
      exact ⟨hreach.step (hallowed hproperty hmeets) hstep,
        hpreserve hproperty hmeets hstep⟩
  exact hboth.1

/-- When a step from a good state is good exactly when it meets the condition, a run whose
steps all meet it stays good, and any further step is good exactly when it does.  The
invariant holds whether they meet it or not, and `input` restricts the actions. -/
theorem Reachable.kept_iff {s : S} {invariant property : S → Prop}
    {input condition : S → A → Prop}
    (hreachable : Reachable system (fun s action => input s action ∧ condition s action) s)
    (hinitial : ∀ s, system.initial s → invariant s ∧ property s)
    (hpreserve : ∀ {s action s'}, invariant s → input s action →
      system.step s action s' → invariant s')
    (hexact : ∀ {s action s'}, invariant s → property s → input s action →
      system.step s action s' → (property s' ↔ condition s action)) :
    property s ∧ ∀ {action s'}, input s action → system.step s action s' →
      (property s' ↔ condition s action) := by
  have hboth : invariant s ∧ property s := by
    apply hreachable.invariant hinitial
    rintro s action s' ⟨hinvariant, hproperty⟩ ⟨hinput, hmeets⟩ hstep
    exact ⟨hpreserve hinvariant hinput hstep,
      (hexact hinvariant hproperty hinput hstep).mpr hmeets⟩
  exact ⟨hboth.2, hexact hboth.1 hboth.2⟩

/-! ## Simulations -/

/-- Every step of the concrete system from a state that stands for an abstract one is a step
of the abstract system, whose action it performs. -/
structure Simulation {T B : Type*} (system : System S A) (allowed : S → A → Prop)
    (abstract : System T B) (relation : S → T → Prop) (performs : S → A → B → Prop) : Prop where
  initial : ∀ s, system.initial s → ∃ t, abstract.initial t ∧ relation s t
  step : ∀ {s t action s'}, relation s t → allowed s action → system.step s action s' →
    ∃ label t', performs s action label ∧ abstract.step t label t' ∧ relation s' t'

section Simulation

variable {T B : Type*} {abstract : System T B} {relation : S → T → Prop}
  {performs : S → A → B → Prop}

theorem Simulation.path (h : Simulation system allowed abstract relation performs) {s s' : S}
    {t : T} (hrelation : relation s t) (hpath : Path system allowed s s') :
    ∃ t', Path abstract (fun _ _ => True) t t' ∧ relation s' t' := by
  induction hpath with
  | refl => exact ⟨t, .refl t, hrelation⟩
  | tail _ hallowed hstep ih =>
      obtain ⟨middle, hpath, hmiddle⟩ := ih
      obtain ⟨label, t', _, hlabel, hrelation'⟩ := h.step hmiddle hallowed hstep
      exact ⟨t', .tail hpath trivial hlabel, hrelation'⟩

/-- What a run reaches stands for what an abstract run reaches. -/
theorem Simulation.reachable (h : Simulation system allowed abstract relation performs) {s : S}
    (hreachable : Reachable system allowed s) :
    ∃ t, Reachable abstract (fun _ _ => True) t ∧ relation s t := by
  obtain ⟨start, hinitial, hpath⟩ := hreachable
  obtain ⟨t, hstart, hrelation⟩ := h.initial start hinitial
  obtain ⟨t', hpath', hrelation'⟩ := h.path hrelation hpath
  exact ⟨t', ⟨t, hstart, hpath'⟩, hrelation'⟩

end Simulation

/-! ## History variables -/

section Record

variable {G : Type*}

/-- The system with a history variable: `start` is its first value, and `record` tells
what a step does to it. -/
def System.recording (system : System S A) (start : S → G)
    (record : S → A → S → G → G) : System (S × G) A where
  initial p := system.initial p.1 ∧ p.2 = start p.1
  step p action p' := system.step p.1 action p'.1 ∧ p'.2 = record p.1 action p'.1 p.2

variable {start : S → G} {record : S → A → S → G → G}

/-- A run of the system is one of the system with the history variable. -/
theorem Path.recording {s s' : S} (hpath : Path system allowed s s') (g : G) :
    ∃ g', Path (system.recording start record) (fun p => allowed p.1) (s, g) (s', g') := by
  induction hpath with
  | refl => exact ⟨g, .refl _⟩
  | @tail s' s'' action _ hallowed hstep ih =>
      obtain ⟨middle, hpath⟩ := ih
      have hrecorded : (system.recording start record).step (s', middle) action
          (s'', record s' action s'' middle) := ⟨hstep, rfl⟩
      exact ⟨_, .tail hpath hallowed hrecorded⟩

theorem Reachable.recording {s : S} (hreachable : Reachable system allowed s)
    (start : S → G) (record : S → A → S → G → G) :
    ∃ g, Reachable (system.recording start record) (fun p => allowed p.1) (s, g) := by
  obtain ⟨first, hinitial, hpath⟩ := hreachable
  obtain ⟨g, hrecorded⟩ := hpath.recording (start first)
  exact ⟨g, _, ⟨hinitial, rfl⟩, hrecorded⟩

/-- The invariant rule for a system with a history variable. -/
theorem Reachable.recorded_invariant {property : S → G → Prop} {s : S} {g : G}
    (hreachable : Reachable (system.recording start record) (fun p => allowed p.1) (s, g))
    (hinitial : ∀ s, system.initial s → property s (start s))
    (hpreserve : ∀ {s action s' g}, property s g → allowed s action →
      system.step s action s' → property s' (record s action s' g)) : property s g := by
  apply @Reachable.invariant _ _ _ _ _ (fun p => property p.1 p.2) hreachable
  · rintro p ⟨hfirst, heq⟩
    rw [heq]
    exact hinitial p.1 hfirst
  · rintro p action p' hproperty hallowed ⟨hstep, heq⟩
    rw [heq]
    exact hpreserve hproperty hallowed hstep

end Record

/-! ## Runs of a function -/

section Fold

/-- The property holds in every state of the run. -/
def Throughout (f : S → A → S) (property : S → Prop) : S → List A → Prop
  | s, [] => property s
  | s, action :: rest => property s ∧ Throughout f property (f s action) rest

/-- Every action meets the condition in the state in which it is taken. -/
def EachStep (f : S → A → S) (condition : S → A → Prop) : S → List A → Prop
  | _, [] => True
  | s, action :: rest => condition s action ∧ EachStep f condition (f s action) rest

instance decidableEachStep (f : S → A → S) (condition : S → A → Prop)
    [∀ s action, Decidable (condition s action)] :
    ∀ s actions, Decidable (EachStep f condition s actions)
  | _, [] => inferInstanceAs (Decidable True)
  | s, action :: rest =>
      have : Decidable (EachStep f condition (f s action) rest) :=
        decidableEachStep f condition (f s action) rest
      inferInstanceAs (Decidable (condition s action ∧ EachStep f condition (f s action) rest))

variable {f : S → A → S} {invariant property : S → Prop}
  {input condition : S → A → Prop}

theorem eachStep_true (s : S) (actions : List A) :
    EachStep f (fun _ _ => True) s actions := by
  induction actions generalizing s with
  | nil => trivial
  | cons action rest ih => exact ⟨trivial, ih _⟩

/-- A condition that does not look at the state is one on the actions alone. -/
theorem eachStep_iff_forall_mem {allowed : A → Prop} (s : S) (actions : List A) :
    EachStep f (fun _ => allowed) s actions ↔ ∀ action ∈ actions, allowed action := by
  induction actions generalizing s with
  | nil => simp [EachStep]
  | cons action rest ih => rw [EachStep, ih, List.forall_mem_cons]

/-- The property holds at the end. -/
theorem Throughout.last {s : S} {actions : List A} (h : Throughout f property s actions) :
    property (actions.foldl f s) := by
  induction actions generalizing s with
  | nil => exact h
  | cons action rest ih => exact ih h.2

/-- When a step from a good state is good exactly when it meets the condition, a run is
good throughout exactly when all its steps meet the condition.  The invariant holds as
long as the run is good, and `input` restricts the actions. -/
theorem throughout_iff (s : S) (actions : List A) (hinvariant : invariant s)
    (hproperty : property s)
    (hstep : ∀ {s action}, invariant s → property s → input s action →
      condition s action → invariant (f s action) ∧ property (f s action))
    (hexact : ∀ {s action}, invariant s → property s → input s action →
      property (f s action) → condition s action)
    (hinput : EachStep f input s actions) :
    Throughout f property s actions ↔ EachStep f condition s actions := by
  induction actions generalizing s with
  | nil => exact iff_of_true hproperty trivial
  | cons action rest ih =>
      obtain ⟨hfirst, hrest⟩ := hinput
      constructor
      · rintro ⟨_, hlater⟩
        have hnext : property (f s action) := by
          cases rest with
          | nil => exact hlater
          | cons => exact hlater.1
        have hmeets := hexact hinvariant hproperty hfirst hnext
        have hkept := (hstep hinvariant hproperty hfirst hmeets).1
        exact ⟨hmeets, (ih _ hkept hnext hrest).mp hlater⟩
      · rintro ⟨hmeets, hlater⟩
        obtain ⟨hkept, hnext⟩ := hstep hinvariant hproperty hfirst hmeets
        exact ⟨hproperty, (ih _ hkept hnext hrest).mpr hlater⟩

/-- The invariant rule for a run of a function: what every step of the run preserves
holds throughout. -/
theorem EachStep.throughout {s : S} {actions : List A} (hinput : EachStep f input s actions)
    (hpreserve : ∀ {s action}, invariant s → input s action → invariant (f s action))
    (hinvariant : invariant s) : Throughout f invariant s actions := by
  induction actions generalizing s with
  | nil => exact hinvariant
  | cons action rest ih => exact ⟨hinvariant, ih hinput.2 (hpreserve hinvariant hinput.1)⟩

theorem Throughout.mono {s : S} {actions : List A} (h : Throughout f invariant s actions)
    (hproperty : ∀ {s}, invariant s → property s) : Throughout f property s actions := by
  induction actions generalizing s with
  | nil => exact hproperty h
  | cons action rest ih => exact ⟨hproperty h.1, ih h.2⟩

/-- In a run in which the invariant holds, a condition may be replaced by one that it
implies there. -/
theorem Throughout.eachStep {s : S} {actions : List A} (h : Throughout f invariant s actions)
    (hcondition : ∀ {s action}, invariant s → input s action → condition s action)
    (hinput : EachStep f input s actions) : EachStep f condition s actions := by
  induction actions generalizing s with
  | nil => trivial
  | cons action rest ih => exact ⟨hcondition h.1 hinput.1, ih h.2 hinput.2⟩

/-- Conditions that are equivalent under the invariant are met in the same runs. -/
theorem Throughout.eachStep_congr {condition' : S → A → Prop} {s : S} {actions : List A}
    (h : Throughout f invariant s actions) (hinput : EachStep f input s actions)
    (hiff : ∀ {s action}, invariant s → input s action →
      (condition s action ↔ condition' s action)) :
    EachStep f condition s actions ↔ EachStep f condition' s actions := by
  induction actions generalizing s with
  | nil => exact Iff.rfl
  | cons action rest ih => exact and_congr (hiff h.1 hinput.1) (ih h.2 hinput.2)

/-- The simulation rule for functions: what every pair of steps preserves holds between the
ends of the two runs. -/
theorem EachStep.related {T : Type*} {g : T → A → T} {allowed : T → A → Prop}
    (relation : S → T → Prop) {s : S} {t : T} {actions : List A}
    (hallowed : EachStep g allowed t actions)
    (hpreserve : ∀ {s t action}, relation s t → allowed t action →
      relation (f s action) (g t action))
    (hstart : relation s t) : relation (actions.foldl f s) (actions.foldl g t) := by
  induction actions generalizing s t with
  | nil => exact hstart
  | cons action rest ih => exact ih hallowed.2 (hpreserve hstart hallowed.1)

end Fold

end Rtk.Transition
