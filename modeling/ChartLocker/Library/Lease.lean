import Mathlib.Logic.Function.Basic

/-!
# Registries of exclusive resources

A registry lists the resources which are held; every party owns at most one
of them.  The registry is sound if the list and the owners agree and no
resource has two owners.  A step acquires, releases or hands over one
resource, or clears everything.  A party which disappears without a release
leaves its resource behind, and the registry is not sound from then on.
-/

namespace Library

universe u v

structure Registry (Resource : Type u) (Owner : Type v) where
  held : Resource → Prop
  owned : Owner → Option Resource

namespace Registry

variable {Resource : Type u} {Owner : Type v} [DecidableEq Owner]
  {before after : Registry Resource Owner}

/-- A resource is held exactly if it has an owner, and it has one only. -/
structure Sound (registry : Registry Resource Owner) : Prop where
  held : ∀ resource, registry.held resource ↔
    ∃ owner, registry.owned owner = some resource
  unique : ∀ left right resource, registry.owned left = some resource →
    registry.owned right = some resource → left = right

/-- What a step does to a registry. -/
inductive Step (before after : Registry Resource Owner) : Prop where
  | keeps
      (held : ∀ resource, after.held resource ↔ before.held resource)
      (owned : after.owned = before.owned)
  | acquires (owner : Owner) (resource : Resource)
      (free : ¬ before.held resource)
      (idle : before.owned owner = none)
      (held : ∀ other, after.held other ↔
        before.held other ∨ other = resource)
      (owned : after.owned =
        Function.update before.owned owner (some resource))
  | releases (owner : Owner) (resource : Resource)
      (owns : before.owned owner = some resource)
      (held : ∀ other, after.held other ↔
        before.held other ∧ other ≠ resource)
      (owned : after.owned = Function.update before.owned owner none)
  | passes (giver taker : Owner) (resource : Resource)
      (owns : before.owned giver = some resource)
      (idle : before.owned taker = none)
      (held : ∀ other, after.held other ↔ before.held other)
      (owned : after.owned = Function.update
        (Function.update before.owned giver none) taker (some resource))
  | clears
      (held : ∀ resource, ¬ after.held resource)
      (owned : ∀ owner, after.owned owner = none)

/-- An owner disappears, and its resource stays held. -/
structure Leaves (before after : Registry Resource Owner) (owner : Owner)
    (resource : Resource) : Prop where
  owns : before.owned owner = some resource
  held : ∀ other, after.held other ↔ before.held other
  owned : after.owned = Function.update before.owned owner none

omit [DecidableEq Owner] in
theorem Sound.keeps (sound : before.Sound)
    (held : ∀ resource, after.held resource ↔ before.held resource)
    (owned : after.owned = before.owned) : after.Sound where
  held resource := by rw [held, sound.held, owned]
  unique := by
    rw [owned]
    exact sound.unique

theorem Sound.acquires (sound : before.Sound) {owner : Owner}
    {resource : Resource} (free : ¬ before.held resource)
    (idle : before.owned owner = none)
    (held : ∀ other, after.held other ↔
      before.held other ∨ other = resource)
    (owned : after.owned =
      Function.update before.owned owner (some resource)) :
    after.Sound := by
  have newcomer : ∀ party other, after.owned party = some other →
      (party = owner ∧ other = resource) ∨
        (party ≠ owner ∧ before.owned party = some other) := by
    intro party other has
    rw [owned] at has
    by_cases same : party = owner
    · subst same
      rw [Function.update_self] at has
      exact .inl ⟨rfl, (Option.some.inj has).symm⟩
    · rw [Function.update_of_ne same] at has
      exact .inr ⟨same, has⟩
  constructor
  · intro other
    rw [held, sound.held]
    constructor
    · rintro (⟨party, has⟩ | rfl)
      · refine ⟨party, ?_⟩
        rw [owned, Function.update_of_ne, has]
        rintro rfl
        cases idle.symm.trans has
      · exact ⟨owner, by rw [owned, Function.update_self]⟩
    · rintro ⟨party, has⟩
      rcases newcomer party other has with ⟨_, same⟩ | ⟨_, old⟩
      · exact .inr same
      · exact .inl ⟨party, old⟩
  · intro left right other first second
    have taken : ∀ party, before.owned party ≠ some resource :=
      fun party old => free ((sound.held _).mpr ⟨party, old⟩)
    rcases newcomer left other first with ⟨rfl, rfl⟩ | ⟨_, old⟩
    · rcases newcomer right other second with ⟨rfl, _⟩ | ⟨_, old⟩
      · rfl
      · exact absurd old (taken right)
    · rcases newcomer right other second with ⟨rfl, rfl⟩ | ⟨_, alsoOld⟩
      · exact absurd old (taken left)
      · exact sound.unique left right other old alsoOld

/-- The owners which are left when one of them has given up its resource. -/
theorem owned_of_update {owner party : Owner} {resource : Resource}
    (has : Function.update before.owned owner none party = some resource) :
    party ≠ owner ∧ before.owned party = some resource := by
  by_cases same : party = owner
  · subst same
    rw [Function.update_self] at has
    cases has
  · rw [Function.update_of_ne same] at has
    exact ⟨same, has⟩

theorem Sound.releases (sound : before.Sound) {owner : Owner}
    {resource : Resource} (owns : before.owned owner = some resource)
    (held : ∀ other, after.held other ↔
      before.held other ∧ other ≠ resource)
    (owned : after.owned = Function.update before.owned owner none) :
    after.Sound := by
  constructor
  · intro other
    rw [held, sound.held, owned]
    constructor
    · rintro ⟨⟨party, has⟩, apart⟩
      refine ⟨party, ?_⟩
      rw [Function.update_of_ne, has]
      rintro rfl
      exact apart (Option.some.inj (has.symm.trans owns))
    · rintro ⟨party, has⟩
      obtain ⟨apart, old⟩ := owned_of_update has
      refine ⟨⟨party, old⟩, ?_⟩
      rintro rfl
      exact apart (sound.unique _ _ _ old owns)
  · rw [owned]
    intro left right other first second
    exact sound.unique left right other (owned_of_update first).2
      (owned_of_update second).2

/-- A resource which is handed over is released and acquired again. -/
theorem Sound.passes (sound : before.Sound) {giver taker : Owner}
    {resource : Resource} (owns : before.owned giver = some resource)
    (idle : before.owned taker = none)
    (held : ∀ other, after.held other ↔ before.held other)
    (owned : after.owned = Function.update
      (Function.update before.owned giver none) taker (some resource)) :
    after.Sound := by
  let between : Registry Resource Owner :=
    ⟨fun other => before.held other ∧ other ≠ resource,
      Function.update before.owned giver none⟩
  have released : between.Sound :=
    sound.releases owns (fun _ => Iff.rfl) rfl
  have apart : taker ≠ giver := by
    rintro rfl
    cases idle.symm.trans owns
  have free : ¬ between.held resource := fun kept => kept.2 rfl
  refine released.acquires free ?_ ?_ owned
  · exact (Function.update_of_ne apart _ _).trans idle
  · intro other
    rw [held]
    by_cases same : other = resource
    · have taken : before.held resource := (sound.held _).mpr ⟨giver, owns⟩
      simp [same, taken]
    · simp [between, same]

theorem Sound.step (sound : before.Sound) (step : Step before after) :
    after.Sound := by
  cases step with
  | keeps held owned => exact sound.keeps held owned
  | acquires owner resource free idle held owned =>
      exact sound.acquires free idle held owned
  | releases owner resource owns held owned =>
      exact sound.releases owns held owned
  | passes giver taker resource owns idle held owned =>
      exact sound.passes owns idle held owned
  | clears held owned =>
      constructor
      · intro resource
        refine iff_of_false (held resource) ?_
        rintro ⟨owner, has⟩
        cases (owned owner).symm.trans has
      · intro left right resource first
        cases (owned left).symm.trans first

/-! ## Registries which are read off the owners -/

section OfOwned

variable {owned : Owner → Option Resource}

omit [DecidableEq Owner]

/-- A resource is held if some party owns it. -/
def ofOwned (owned : Owner → Option Resource) : Registry Resource Owner where
  held resource := ∃ owner, owned owner = some resource
  owned := owned

variable [DecidableEq Owner]

/-- A resource which is taken by a party without one is held besides. -/
theorem held_ofOwned_acquires {owner : Owner} (idle : owned owner = none)
    (resource other : Resource) :
    (ofOwned (Function.update owned owner (some resource))).held other ↔
      (ofOwned owned).held other ∨ other = resource := by
  constructor
  · rintro ⟨party, has⟩
    change Function.update owned owner (some resource) party = some other at has
    by_cases same : party = owner
    · rw [same, Function.update_self] at has
      exact .inr (Option.some.inj has).symm
    · rw [Function.update_of_ne same] at has
      exact .inl ⟨party, has⟩
  · rintro (⟨party, has⟩ | rfl)
    · refine ⟨party, (Function.update_of_ne ?_ _ _).trans has⟩
      rintro rfl
      cases idle.symm.trans has
    · exact ⟨owner, Function.update_self _ _ _⟩

/-- A resource which its one owner gives up is held no longer. -/
theorem held_ofOwned_releases {owner : Owner} {resource : Resource}
    (unique : ∀ party, owned party = some resource → party = owner)
    (owns : owned owner = some resource) (other : Resource) :
    (ofOwned (Function.update owned owner none)).held other ↔
      (ofOwned owned).held other ∧ other ≠ resource := by
  constructor
  · rintro ⟨party, has⟩
    have left : Function.update (ofOwned owned).owned owner none party =
        some other := has
    obtain ⟨apart, old⟩ := owned_of_update left
    refine ⟨⟨party, old⟩, ?_⟩
    rintro rfl
    exact apart (unique party old)
  · rintro ⟨⟨party, has⟩, different⟩
    refine ⟨party, (Function.update_of_ne ?_ _ _).trans has⟩
    rintro rfl
    exact different (Option.some.inj (has.symm.trans owns))

end OfOwned

end Registry

end Library
