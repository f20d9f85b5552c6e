import Fleet.Proofs.Tick

/-! Scalers that serve valid settings. The bounds of their policies are in order, and a tick leaves
them in service. -/
namespace Fleet

variable {settings : Settings} {s : Scaler}

namespace Settings

/-- Settings that pass every check make a policy. -/
theorem toPolicy_eq_ok {interval targetDuration reconcileTimeout : Duration}
    (hi : readDuration settings.interval = .ok interval) (hz : interval.isZero = false)
    (hw : settings.waitCount ≠ 0) (hb : settings.minimum ≤ settings.upperBound)
    (ht : readDuration settings.targetDuration = .ok targetDuration)
    (hr : readDuration settings.reconcileTimeout = .ok reconcileTimeout) :
    settings.toPolicy = .ok
      { interval := interval
        minimum := settings.minimum
        maximum := settings.upperBound
        waitCount := settings.waitCount
        targetDuration := targetDuration
        reconcileTimeout := reconcileTimeout
        strategy := settings.strategy
        workerKey := settings.workerKey
        closeOptions := settings.closeOptions } := by
  unfold toPolicy
  rw [hi, ht, hr]
  simp only [bind, Except.bind, pure, Except.pure]
  rw [hz, if_neg Bool.false_ne_true, if_neg hw, if_neg (Nat.not_lt.2 hb)]

/-- A policy has what the settings say, and they have passed the checks. -/
theorem exists_of_toPolicy {p : Policy} (h : settings.toPolicy = .ok p) :
    ∃ interval targetDuration reconcileTimeout,
      settings.waitCount ≠ 0 ∧ settings.minimum ≤ settings.upperBound ∧
      p =
        { interval := interval
          minimum := settings.minimum
          maximum := settings.upperBound
          waitCount := settings.waitCount
          targetDuration := targetDuration
          reconcileTimeout := reconcileTimeout
          strategy := settings.strategy
          workerKey := settings.workerKey
          closeOptions := settings.closeOptions } := by
  unfold toPolicy at h
  simp only [bind, Except.bind, pure, Except.pure] at h
  -- one case for each check that may fail before the policy is made
  split at h
  · cases h
  · split at h
    · cases h
    · split at h
      · cases h
      · rename_i hwait
        split at h
        · cases h
        · rename_i hbounds
          split at h
          · cases h
          · split at h
            · cases h
            · cases h
              exact ⟨_, _, _, hwait, Nat.not_lt.1 hbounds, rfl⟩

/-- What the checks say of a policy that has passed them. -/
theorem checked_of_toPolicy {p : Policy} (h : settings.toPolicy = .ok p) :
    0 < p.waitCount ∧ p.minimum ≤ p.maximum := by
  obtain ⟨-, -, -, hwait, hbounds, rfl⟩ := exists_of_toPolicy h
  exact ⟨Nat.pos_of_ne_zero hwait, hbounds⟩

lemma strategy_of_toPolicy {p : Policy} (h : settings.toPolicy = .ok p) :
    p.strategy = settings.strategy := by
  obtain ⟨-, -, -, -, -, rfl⟩ := exists_of_toPolicy h
  rfl

lemma minimum_le_maximum {p : Policy} (h : settings.toPolicy = .ok p) :
    p.minimum ≤ p.maximum :=
  (checked_of_toPolicy h).2

/-- Lets workers go at once, down to one. -/
def downToOne : Settings := { standard with minimum := 1, waitCount := 1 }

lemma toPolicy_downToOne :
    downToOne.toPolicy = .ok { Policy.standard with minimum := 1, waitCount := 1 } :=
  toPolicy_eq_ok (by decide +kernel) rfl (by decide) (by decide) (by decide +kernel)
    (by decide +kernel)

end Settings

namespace Scaler

/-- The scaler works for the policy of valid settings. Its history may be anything, and so may its
counts, as long as nobody is counted up to the wait. -/
structure Serves (settings : Settings) (s : Scaler) : Prop where
  policy : settings.toPolicy = .ok s.policy
  estimator : s.estimator = .ofPolicy s.policy
  source : s.advisor.source = (Advisor.ofPolicy s.policy).source
  query : s.advisor.query = (Advisor.ofPolicy s.policy).query
  waitCount : s.debounce.waitCount = s.policy.waitCount
  counts : ∀ w n, s.debounce.counts.get? w = some n → n < s.policy.waitCount

lemma serves_ofPolicy {p : Policy} (h : settings.toPolicy = .ok p) :
    (ofPolicy p).Serves settings :=
  ⟨h, rfl, rfl, rfl, rfl, fun _ _ hn => nomatch hn⟩

/-- Lets workers go at once, down to one. -/
def downToOne : Scaler := .ofPolicy { Policy.standard with minimum := 1, waitCount := 1 }

lemma serves_downToOne : downToOne.Serves Settings.downToOne :=
  serves_ofPolicy Settings.toPolicy_downToOne

/-- A tick leaves a scaler in the service of its settings. -/
theorem Serves.tick {σ : Type} {h : Host σ} {x : σ} {s' : Scaler}
    {result : Except TickError Outcome} (hs : s.Serves settings)
    (hr : (s.tick.run h x).2 = .ok (s', result)) : s'.Serves settings := by
  obtain ⟨d, log, hd, rfl⟩ := tick_recounts hr
  rcases hd with rfl | ⟨ws, rfl⟩
  · exact ⟨hs.policy, hs.estimator, hs.source, hs.query, hs.waitCount, hs.counts⟩
  · refine ⟨hs.policy, hs.estimator, hs.source, hs.query, hs.waitCount, fun w n hn => ?_⟩
    exact hs.waitCount ▸ (Debounce.bounds_of_get?_observe hn).2

lemma Serves.count_succ_lt (hs : s.Serves settings) (hw : s.policy.waitCount < Word.shortLimit)
    (w : Id) : s.debounce.count w + 1 < Word.shortLimit := by
  unfold Debounce.count
  cases hn : s.debounce.counts.get? w with
  | none => decide
  | some n =>
    have hlt := hs.counts w n hn
    change n + 1 < Word.shortLimit
    omega

end Scaler

end Fleet
