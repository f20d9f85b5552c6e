import Fleet.Proofs.Serving

/-! What settings are refused for, and what the policies of the others promise. Settings are refused
for the first check that they fail, and a policy moves every target into its bounds and no target
that is there. -/
namespace Fleet

namespace Policy

variable {p : Policy} {a b : Nat}

/-- The policy moves targets into its bounds, keeps them in order, and leaves those alone that lie
there already. -/
def Confines (p : Policy) : Prop :=
  ∀ a b, a ≤ b → ∃ a' b', p.clamp a = .ok a' ∧ p.clamp b = .ok b' ∧
    p.minimum ≤ a' ∧ a' ≤ b' ∧ b' ≤ p.maximum ∧ p.clamp a' = .ok a' ∧
    (p.minimum ≤ a → a ≤ p.maximum → a' = a)

lemma clamp_of_between (hmin : p.minimum ≤ a) (hmax : a ≤ p.maximum) : p.clamp a = .ok a :=
  Word.clamp_eq_ok_iff.2 ⟨hmin.trans hmax, by rw [min_eq_left hmax, max_eq_right hmin]⟩

theorem confines (h : p.minimum ≤ p.maximum) : p.Confines := by
  intro a b hab
  have hle : max p.minimum (min a p.maximum) ≤ p.maximum := max_le h (min_le_right _ _)
  refine ⟨_, _, Word.clamp_eq_ok_iff.2 ⟨h, rfl⟩, Word.clamp_eq_ok_iff.2 ⟨h, rfl⟩,
    le_max_left _ _, max_le_max_left _ (min_le_min_right _ hab), max_le h (min_le_right _ _),
    clamp_of_between (le_max_left _ _) hle, fun hmin hmax => ?_⟩
  rw [min_eq_left hmax, max_eq_right hmin]

end Policy

namespace Settings

/-- A test of settings, and what is said of settings that do not pass it. -/
structure Check where
  passes : Settings → Bool
  error : Settings → SettingsError

namespace Check

/-- A text that is to be read as a duration. -/
def duration (text : Settings → String) : Check where
  passes s := (Duration.ofText? (text s)).isSome
  error s := .invalidDuration (text s)

def nonzeroInterval : Check where
  passes s := Duration.ofText? s.interval != some ⟨0⟩
  error _ := .zeroInterval

def positiveWait : Check where
  passes s := decide (1 ≤ s.waitCount)
  error _ := .waitCount

/-- Without a maximum there is nothing that the minimum could exceed. -/
def orderedBounds : Check where
  passes s := s.maximum.all fun maximum => decide (s.minimum ≤ maximum)
  error s := .bounds s.minimum s.upperBound

/-- All of them, in the order in which they are made. -/
def all : List Check :=
  [duration interval, nonzeroInterval, positiveWait, orderedBounds, duration targetDuration,
    duration reconcileTimeout]

/-- What the first of some checks that the settings fail says of them. -/
def objection (ks : List Check) (s : Settings) : Option SettingsError :=
  (ks.find? fun k => !k.passes s).map fun k => k.error s

end Check

/-- Settings with which everything is in order. -/
structure Valid (s : Settings) : Prop where
  interval : ∃ d, Duration.ofText? s.interval = some d ∧ d ≠ ⟨0⟩
  waitCount : 1 ≤ s.waitCount
  bounds : ∀ maximum ∈ s.maximum, s.minimum ≤ maximum
  targetDuration : ∃ d, Duration.ofText? s.targetDuration = some d
  reconcileTimeout : ∃ d, Duration.ofText? s.reconcileTimeout = some d

/-- The policy that says what the settings say, with no time where a duration cannot be read. -/
def policy (s : Settings) : Policy where
  interval := (Duration.ofText? s.interval).getD ⟨0⟩
  minimum := s.minimum
  maximum := s.upperBound
  waitCount := s.waitCount
  targetDuration := (Duration.ofText? s.targetDuration).getD ⟨0⟩
  reconcileTimeout := (Duration.ofText? s.reconcileTimeout).getD ⟨0⟩
  strategy := s.strategy
  workerKey := s.workerKey
  closeOptions := s.closeOptions

variable {s : Settings} {p : Policy} {α : Type}

namespace Check

variable {k : Check} {ks : List Check}

/-- What comes next, if the settings pass. -/
def guarding (k : Check) (s : Settings) (next : Except SettingsError α) : Except SettingsError α :=
  if k.passes s then next else .error (k.error s)

lemma guarding_of_passes {next : Except SettingsError α} (h : k.passes s = true) :
    k.guarding s next = next :=
  if_pos h

lemma guarding_of_fails {next : Except SettingsError α} (h : ¬k.passes s = true) :
    k.guarding s next = .error (k.error s) :=
  if_neg h

lemma guarding_congr {next next' : Except SettingsError α}
    (h : k.passes s = true → next = next') : k.guarding s next = k.guarding s next' := by
  by_cases hpass : k.passes s = true
  · rw [h hpass]
  · rw [guarding_of_fails hpass, guarding_of_fails hpass]

/-- Checks that are made one after another come down to the first one that fails. -/
lemma foldr_guarding (ks : List Check) (s : Settings) (next : Except SettingsError α) :
    ks.foldr (fun k => k.guarding s) next =
      match objection ks s with
      | some e => .error e
      | none => next := by
  induction ks with
  | nil => rfl
  | cons k rest ih =>
    rw [List.foldr_cons]
    by_cases h : k.passes s = true
    · rw [guarding_of_passes h, ih, objection, objection, List.find?_cons_of_neg (by simp [h])]
    · rw [guarding_of_fails h, objection, List.find?_cons_of_pos (by simp [h])]
      rfl

lemma objection_eq_none_iff : objection ks s = none ↔ ∀ k ∈ ks, k.passes s = true := by
  simp [objection]

end Check

/-- A duration that cannot be read ends the reading of the settings. -/
lemma bind_readDuration (text : Settings → String) (f : Duration → Except SettingsError α) :
    (readDuration (text s)).bind f =
      (Check.duration text).guarding s (f ((Duration.ofText? (text s)).getD ⟨0⟩)) := by
  cases h : Duration.ofText? (text s) with
  | none =>
    rw [Check.guarding_of_fails (by simp [Check.duration, h]), readDuration, h]
    rfl
  | some d =>
    rw [Check.guarding_of_passes (by simp [Check.duration, h]), readDuration, h]
    rfl

lemma ite_isZero {d : Duration} (h : Duration.ofText? s.interval = some d)
    (next : Except SettingsError α) :
    (if d.isZero then .error .zeroInterval else next) = Check.nonzeroInterval.guarding s next := by
  have hpass : Check.nonzeroInterval.passes s = !d.isZero := by
    cases d
    simp [Check.nonzeroInterval, h, Duration.isZero, bne]
  rw [Check.guarding, hpass]
  cases d.isZero <;> rfl

lemma ite_waitCount (next : Except SettingsError α) :
    (if s.waitCount = 0 then .error .waitCount else next) =
      Check.positiveWait.guarding s next := by
  by_cases h : s.waitCount = 0
  · rw [if_pos h, Check.guarding_of_fails (by simp [Check.positiveWait, h])]
    rfl
  · rw [if_neg h,
      Check.guarding_of_passes (by simp [Check.positiveWait, Nat.one_le_iff_ne_zero, h])]

/-- A minimum that is a word can only exceed a maximum that is given. -/
lemma orderedBounds_passes_iff (hs : s.minimum < Word.limit) :
    Check.orderedBounds.passes s = true ↔ s.minimum ≤ s.upperBound := by
  cases h : s.maximum with
  | none => simp [Check.orderedBounds, upperBound, h, Word.largest, Nat.le_sub_one_of_lt hs]
  | some maximum => simp [Check.orderedBounds, upperBound, h]

lemma ite_bounds (hs : s.minimum < Word.limit) (next : Except SettingsError α) :
    (if s.upperBound < s.minimum then .error (.bounds s.minimum s.upperBound) else next) =
      Check.orderedBounds.guarding s next := by
  have hpass := orderedBounds_passes_iff hs
  by_cases h : s.minimum ≤ s.upperBound
  · rw [if_neg (Nat.not_lt.2 h), Check.guarding_of_passes (hpass.2 h)]
  · rw [if_pos (Nat.not_le.1 h), Check.guarding_of_fails (mt hpass.1 h)]
    rfl

/-- Making a policy is making the checks in their order. -/
theorem toPolicy_eq_foldr (hs : s.minimum < Word.limit) :
    s.toPolicy = Check.all.foldr (fun k => k.guarding s) (.ok s.policy) := by
  change (readDuration s.interval).bind _ = _
  rw [bind_readDuration]
  refine Check.guarding_congr fun h => ?_
  obtain ⟨d, hd⟩ := Option.isSome_iff_exists.1 h
  simp only [hd, Option.getD_some]
  refine (ite_isZero hd _).trans (Check.guarding_congr fun _ => ?_)
  refine (ite_waitCount _).trans (Check.guarding_congr fun _ => ?_)
  refine (ite_bounds hs _).trans (Check.guarding_congr fun _ => ?_)
  refine (bind_readDuration targetDuration _).trans (Check.guarding_congr fun _ => ?_)
  refine (bind_readDuration reconcileTimeout _).trans (Check.guarding_congr fun _ => ?_)
  simp only [policy, hd]
  rfl

/-- The settings are refused for the first check that they fail, and else they make a policy. -/
theorem toPolicy_eq (hs : s.minimum < Word.limit) :
    s.toPolicy =
      match Check.objection Check.all s with
      | some e => .error e
      | none => .ok s.policy := by
  rw [toPolicy_eq_foldr hs, Check.foldr_guarding]

lemma valid_iff : s.Valid ↔ Check.objection Check.all s = none := by
  rw [Check.objection_eq_none_iff]
  simp only [Check.all, List.forall_mem_cons, Check.duration, Check.nonzeroInterval,
    Check.positiveWait, Check.orderedBounds, Option.isSome_iff_exists, bne_iff_ne,
    decide_eq_true_eq, Option.all_eq_true, List.not_mem_nil, false_imp_iff, implies_true, and_true]
  constructor
  · rintro ⟨⟨d, hd, hz⟩, hw, hb, ht, hr⟩
    exact ⟨⟨d, hd⟩, by rw [hd]; exact fun h => hz (Option.some.inj h), hw, hb, ht, hr⟩
  · rintro ⟨⟨d, hd⟩, hz, hw, hb, ht, hr⟩
    exact ⟨⟨d, hd, fun h => hz (hd.trans (congrArg some h))⟩, hw, hb, ht, hr⟩

/-- Settings whose minimum is a word make a policy iff they are `Valid`, and it says what they say;
others are refused with the `objection` of the first check that they fail. An interval of a tenth of
a nanosecond is read as zero, which fails the second check. Every policy `Confines` targets to its
bounds. -/
theorem toPolicy_exact (s : Settings) (hs : s.minimum < Word.limit) :
    (∀ p, s.toPolicy = .ok p ↔ s.Valid ∧ p = s.policy) ∧
    (∀ e, s.toPolicy = .error e ↔ Check.objection Check.all s = some e) ∧
    Duration.ofText? "0.0000000001s" = some ⟨0⟩ ∧
    ∀ p, s.toPolicy = .ok p → p.Confines := by
  have heq := toPolicy_eq hs
  refine ⟨fun p => ?_, fun e => ?_, by decide +kernel, fun p hp =>
    Policy.confines (minimum_le_maximum hp)⟩
  · rw [heq, valid_iff]
    cases Check.objection Check.all s <;> simp [eq_comm]
  · rw [heq]
    cases Check.objection Check.all s <;> simp

/-- The wait comes before the bounds and before the two last durations. -/
theorem refused_for_the_wait :
    let s : Settings :=
      { standard with waitCount := 0, minimum := 7, maximum := some 3, targetDuration := "soon" }
    s.minimum < Word.limit ∧ s.toPolicy = .error .waitCount :=
  ⟨by decide, ((toPolicy_exact _ (by decide)).2.1 _).2 (by decide +kernel)⟩

end Settings

end Fleet
