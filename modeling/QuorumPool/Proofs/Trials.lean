import QuorumPool.Proofs.Startup

namespace QuorumPool

variable {C : Client}

/-- The addresses of a pool in their order, each with the dialer that it is verified by. -/
def PoolSettings.trials (s : PoolSettings) : List (Dialer × String) :=
  s.addresses.map fun address => (Dialer.ofSettings s, address)

/-- A pool as settings describe it, of which nobody has asked anything. -/
def RedisPool.fresh (t : PoolSettings) : RedisPool C :=
  { name := t.displayName
    dialer := Dialer.ofSettings t
    pool :=
      { config := t.poolConfig
        shards := t.addresses.map fun address => { address }
        numAvailable := t.addresses.length } }

namespace Scene

/-- Reports were made to the log, and nothing has happened on the network. -/
def Reports (s s' : Scene C) : Prop := s'.network = s.network

/-- The addresses were verified in their order, each with success, and nothing has happened besides
except that reports were made. -/
inductive Verified (s : Scene C) : List (Dialer × String) → Scene C → Prop
  | none : Verified s [] s
  | verify {trials s' s'' d address} : Verified s trials s' →
      d.verify s' address = (s'', .ok ()) → Verified s (trials ++ [(d, address)]) s''
  | reports {trials s' s''} : Verified s trials s' → s'.Reports s'' → Verified s trials s''

/-- The addresses were verified in their order up to the first that failed, with `e`. Nothing has
happened after that. -/
inductive Fails (s : Scene C) (trials : List (Dialer × String)) (s' : Scene C) (e : Failure) : Prop
  | at {before d address after k} : trials = before ++ (d, address) :: after →
      s.Verified before k → d.verify k address = (s', .error e) → Fails s trials s' e

/-- What may come of trying addresses. -/
inductive Tries (s : Scene C) (trials : List (Dialer × String)) :
    Scene C × Except Failure Unit → Prop
  | passed {s'} : s.Verified trials s' → Tries s trials (s', .ok ())
  | failed {s' e} : s.Fails trials s' e → Tries s trials (s', .error e)

variable {s s' k : Scene C} {trials more : List (Dialer × String)} {e : Failure}

theorem Verified.trans (hfirst : s.Verified trials s') (hthen : s'.Verified more k) :
    s.Verified (trials ++ more) k := by
  induction hthen with
  | none => rwa [List.append_nil]
  | verify _ hverify ih =>
    rw [← List.append_assoc]
    exact .verify ih hverify
  | reports _ hreports ih => exact .reports ih hreports

private theorem Fails.after (hfirst : s.Verified trials k) (hfails : k.Fails more s' e) :
    s.Fails (trials ++ more) s' e := by
  obtain ⟨rfl, hbefore, hverify⟩ := hfails
  exact .at (List.append_assoc ..).symm (hfirst.trans hbefore) hverify

theorem tries_verifyAll (s : Scene C) (d : Dialer) (addresses : List String) :
    s.Tries (addresses.map fun address => (d, address)) (d.verifyAll s addresses) := by
  induction addresses generalizing s with
  | nil => exact .passed .none
  | cons address rest ih =>
    unfold Dialer.verifyAll
    rcases hverify : d.verify s address with ⟨s', e | _⟩
    · exact .failed (.at (List.nil_append _).symm .none hverify)
    · have hfirst : s.Verified [(d, address)] s' := .verify .none hverify
      have hrest := ih s'
      dsimp only
      generalize d.verifyAll s' rest = r at hrest ⊢
      cases hrest with
      | passed hverified => exact .passed (hfirst.trans hverified)
      | failed hfails => exact .failed (hfails.after hfirst)

end Scene

namespace RedisPool

variable {t : PoolSettings}

/-- Building a pool that breaks no rule verifies its addresses, and then gives exactly the pool that
its settings describe. -/
theorem ofSettings_cases (s : Scene C) (hvalid : t.validate = .ok ()) :
    (∃ s', ofSettings s t = (s', .ok (fresh t)) ∧ s.Verified t.trials s') ∨
      ∃ s' e, ofSettings s t = (s', .error e) ∧ s.Fails t.trials s' e := by
  have htries := Scene.tries_verifyAll s (Dialer.ofSettings t) t.addresses
  unfold ofSettings
  simp only [hvalid]
  generalize (Dialer.ofSettings t).verifyAll s t.addresses = r at htries
  cases htries with
  | @passed s' hverified =>
    obtain ⟨log, hcreate⟩ := create_eq
      (s'.note (.addressesVerified t.displayName t.addresses.length)) t.displayName
      (Dialer.ofSettings t) (PoolSettings.addresses_ne_nil hvalid) t.validate_poolConfig
    have hreports : s'.Reports { s' with log } := rfl
    exact .inl ⟨_, hcreate, hverified.reports hreports⟩
  | @failed s' e hfails => exact .inr ⟨s', e, rfl, hfails⟩

end RedisPool

end QuorumPool
