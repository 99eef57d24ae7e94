import QuorumPool.Proofs.Activity
import QuorumPool.Proofs.Service
import QuorumPool.Proofs.ShardGet

namespace QuorumPool

/-- A get's visit to a shard. -/
structure Visit where
  shard : Nat
  exchanges : List Exchange
  /-- What the get at the shard led to; none when the shard was out of service. -/
  outcome : Option (Except PoolError ConnId)

/-- The connection that the visit gave. -/
def Visit.lent? (v : Visit) : Option ConnId :=
  match v.outcome with
  | some (.ok c) => some c
  | _ => none

namespace Pool

/-- The visits that a get which started at `start` makes from its attempt number `attempt` on, up to
the one that gives a connection if one does. A shard out of service is passed over. -/
inductive Tour (start : Nat) : Pool → (attempt : Nat) → List Visit → Pool → Prop
  | nil (p : Pool) (attempt : Nat) : Tour start p attempt [] p
  | passed {p attempt vs q}
      (hout : (p.shard (p.visited start attempt)).available = false)
      (hrest : Tour start p.rotate (attempt + 1) vs q) :
      Tour start p attempt (⟨p.visited start attempt, [], none⟩ :: vs) q
  | refused {p attempt xs r e vs q}
      (hin : (p.shard (p.visited start attempt)).available = true)
      (hends : (borrowing (p.visited start attempt)).Ends (p.borrow (p.visited start attempt)) xs r
        (.error e))
      (hrest : Tour start (r.passOver (p.visited start attempt) attempt e) (attempt + 1) vs q) :
      Tour start p attempt (⟨p.visited start attempt, xs, some (.error e)⟩ :: vs) q
  | served {p attempt xs q c}
      (hin : (p.shard (p.visited start attempt)).available = true)
      (hends : (borrowing (p.visited start attempt)).Ends (p.borrow (p.visited start attempt)) xs q
        (.ok c)) :
      Tour start p attempt [⟨p.visited start attempt, xs, some (.ok c)⟩] q

/-- How a get goes on from where it stands at the shard that it visits. -/
def goOn (i start attempt : Nat) :
    Pool × Progress Borrowing (Except PoolError ConnId) →
      Pool × Progress Getting (Except PoolError ConnId)
  | (p, .waits s) => (p, .waits ⟨start, attempt, s⟩)
  | (p, .done (.ok c)) => (p, .done (.ok c))
  | (p, .done (.error e)) =>
    visit (p.passOver i attempt e) start (attempt + 1) (p.maxRetry - (attempt + 1))

section Undisturbed

variable {p q : Pool} {i : Nat} {s : Shard} {now : Duration} {xs : List Exchange}
  {result : Except PoolError ConnId}

/-- What a get at shard `i` leaves alone. A failed one gives its slot back. -/
structure Undisturbed (p : Pool) (i : Nat) (q : Pool) (result : Except PoolError ConnId) :
    Prop where
  config : q.config = p.config
  length : q.shards.length = p.shards.length
  rotation : q.rotation = p.rotation
  shard : ∀ j, j ≠ i → q.shard j = p.shard j
  available : ∀ j, (q.shard j).available = (p.shard j).available
  active : ∀ e, result = .error e → ∀ j, (q.shard j).active = (p.shard j).active

private theorem Concludes.exists_set (hconcludes : p.Concludes i s now xs q result) :
    ∃ s', q.shards = p.shards.set i s' ∧ q.config = p.config ∧ q.rotation = p.rotation ∧
      s'.available = s.available ∧ ∀ e, result = .error e → s'.active = s.active := by
  cases hconcludes with
  | fresh | valid | dialed => exact ⟨_, rfl, rfl, rfl, rfl, fun e he => nomatch he⟩
  | exhausted | failed => exact ⟨_, rfl, rfl, rfl, rfl, fun e he => rfl⟩

theorem Accounts.undisturbed (hi : i < p.shards.length)
    (havailable : s.available = (p.shard i).available) (hactive : s.active = (p.shard i).active)
    (haccounts : p.Accounts i s now xs q result) : p.Undisturbed i q result := by
  obtain ⟨rejected, rest, later, ys, -, -, -, hconcludes⟩ := haccounts
  obtain ⟨s', hshards, hconfig, hrotation, havailable', hactive'⟩ := hconcludes.exists_set
  have hself : q.shard i = s' := by
    simp [Pool.shard, show q.shards = p.shards.set i s' from hshards, List.getD_eq_getElem?_getD,
      hi]
  have hother : ∀ j, j ≠ i → q.shard j = p.shard j := by
    intro j hj
    simp [Pool.shard, show q.shards = p.shards.set i s' from hshards, List.getD_eq_getElem?_getD,
      hj.symm]
  refine ⟨hconfig, by simpa using congrArg List.length hshards, hrotation, hother, fun j => ?_,
    fun e he j => ?_⟩
  · by_cases hj : j = i
    · rw [hj, hself, havailable', ← havailable]
    · rw [hother j hj]
  · by_cases hj : j = i
    · rw [hj, hself, hactive' e he, ← hactive]
    · rw [hother j hj]

theorem undisturbed_of_ends (hi : i < p.shards.length)
    (hends : (borrowing i).Ends (p.borrow i) xs q result) : p.Undisturbed i q result := by
  cases hclosed : (p.shard i).closed with
  | true =>
    rw [borrow, if_pos hclosed] at hends
    obtain ⟨-, rfl, -⟩ := Activity.ends_done_iff.mp hends
    exact ⟨rfl, rfl, rfl, fun _ _ => rfl, fun _ => rfl, fun _ _ _ => rfl⟩
  | false =>
    rw [borrow_of_open hi hclosed] at hends
    exact Accounts.undisturbed (s := (p.shard i).count Tally.countGet) hi rfl rfl
      (accounts_of_ends hi hends)

theorem Undisturbed.maxRetry (h : p.Undisturbed i q result) : q.maxRetry = p.maxRetry := by
  rw [Pool.maxRetry, h.config, h.length, Pool.maxRetry]

end Undisturbed

section Split

variable {p q : Pool} {i start attempt left : Nat} {xs : List Exchange}
  {w : Pool × Progress Borrowing (Except PoolError ConnId)} {result : Except PoolError ConnId}

theorem resumeGet_eq (p : Pool) (g : Getting) (reply : Reply) :
    p.resumeGet g reply = goOn (p.visited g.start g.attempt) g.start g.attempt
      (p.resumeBorrow (p.visited g.start g.attempt) g.borrowing reply) := by
  unfold resumeGet goOn
  rfl

theorem goOn_refused {e : PoolError} (hleft : attempt + (left + 1) = p.maxRetry) :
    goOn i start attempt (p, .done (.error e)) =
      (p.passOver i attempt e).visit start (attempt + 1) left := by
  have hmore : p.maxRetry - (attempt + 1) = left := by omega
  rw [goOn, hmore]

theorem maxRetry_borrow (hi : i < p.shards.length) : (p.borrow i).1.maxRetry = p.maxRetry := by
  have hmoves := (leads_borrow hi).moves
  rw [maxRetry, hmoves.config_eq, hmoves.length_shards, maxRetry]

theorem visited_borrow (hi : i < p.shards.length) :
    (p.borrow i).1.visited start attempt = p.visited start attempt := by
  rw [visited, (leads_borrow hi).moves.length_shards, visited]

theorem visit_of_available (hin : (p.shard (p.visited start attempt)).available = true)
    (hpos : 0 < p.shards.length) (hleft : attempt + (left + 1) = p.maxRetry) :
    p.visit start attempt (left + 1) =
      goOn (p.visited start attempt) start attempt (p.borrow (p.visited start attempt)) := by
  have hretry : _ = p.maxRetry := maxRetry_borrow (i := p.visited start attempt) (Nat.mod_lt _ hpos)
  rw [← hretry] at hleft
  simp only [visit, hin, if_true]
  split <;> rename_i heq <;> rw [heq] at hleft ⊢
  · rfl
  · rfl
  · exact (goOn_refused hleft).symm

/-- A get that is at a shard ends the get there first. -/
theorem exists_of_ends_goOn (hi : i < w.1.shards.length) (hvisited : i = w.1.visited start attempt)
    (hends : getting.Ends (goOn i start attempt w) xs q result) :
    ∃ ys zs r b, xs = ys ++ zs ∧ (borrowing i).Ends w ys r b ∧
      getting.Ends (goOn i start attempt (r, .done b)) zs q result := by
  induction xs generalizing w with
  | nil =>
    obtain ⟨p, s | b⟩ := w
    · cases hends
    · exact ⟨[], [], p, b, rfl, .done p b, hends⟩
  | cons x xs ih =>
    obtain ⟨p, s | b⟩ := w
    · obtain ⟨x, xs, heq, hcall, htime, hends⟩ := Activity.ends_waits_iff.mp hends
      cases heq
      have hlength := (leads_resumeBorrow (p := p.setTime x.time) hi s x.reply).moves.length_shards
      have hvisited' : (p.setTime x.time).visited start attempt = i := hvisited.symm
      simp only [getting, resumeGet_eq, hvisited'] at hends
      obtain ⟨ys, zs, r, b, rfl, hborrow, hrest⟩ := ih (hlength ▸ hi)
        (by rw [visited, hlength]; exact hvisited) hends
      refine ⟨x :: ys, zs, r, b, rfl, .waits ?_ htime hborrow, hrest⟩
      rw [hcall, hvisited]
      rfl
    · exact ⟨[], x :: xs, p, b, rfl, .done p b, hends⟩

private theorem halts_goOn (hi : i < w.1.shards.length) (hvisited : i = w.1.visited start attempt)
    (hw : (borrowing i).Halts w)
    (hnext : ∀ r b, r.shards.length = w.1.shards.length → r.config = w.1.config →
      getting.Halts (goOn i start attempt (r, .done b))) :
    getting.Halts (goOn i start attempt w) := by
  induction hw with
  | done p b => exact hnext p b rfl rfl
  | @waits p s _ ih =>
    refine .waits fun now hnow reply => ?_
    have hmoves := (leads_resumeBorrow (p := p.setTime now) hi s reply).moves
    have hlength := hmoves.length_shards
    have hvisited' : (p.setTime now).visited start attempt = i := hvisited.symm
    simp only [getting, resumeGet_eq, hvisited']
    refine ih now hnow reply (hlength ▸ hi) ?_ fun r b hr hconfig => ?_
    · rw [borrowing, visited, hlength]
      exact hvisited
    · exact hnext r b (hr.trans hlength) (hconfig.trans hmoves.config_eq)

theorem halts_borrow (hi : i < p.shards.length) : (borrowing i).Halts (p.borrow i) := by
  cases hclosed : (p.shard i).closed with
  | true =>
    rw [borrow, if_pos hclosed]
    exact .done _ _
  | false =>
    rw [borrow_of_open hi hclosed]
    exact halts_serve hi

/-- Each visit comes to its end, and their number is limited. -/
theorem halts_visit (hpos : 0 < p.shards.length) (hleft : attempt + left = p.maxRetry) :
    getting.Halts (p.visit start attempt left) := by
  induction left generalizing p attempt with
  | zero => exact .done _ _
  | succ left ih =>
    cases hin : (p.shard (p.visited start attempt)).available with
    | false =>
      simp only [visit, hin]
      have hrotate : p.rotate.maxRetry = p.maxRetry := rfl
      exact ih (p := p.rotate) hpos (by omega)
    | true =>
      have hi : p.visited start attempt < p.shards.length := Nat.mod_lt _ hpos
      have hmoves := (leads_borrow hi).moves
      rw [visit_of_available hin hpos hleft]
      refine halts_goOn (hmoves.length_shards ▸ hi) (visited_borrow hi).symm (halts_borrow hi)
        fun r b hlength hconfig => ?_
      cases b with
      | ok c => exact .done _ _
      | error e =>
        have hretry : r.maxRetry = p.maxRetry := by
          rw [maxRetry, hconfig, hlength, ← maxRetry, maxRetry_borrow hi]
        rw [goOn_refused (hleft.trans hretry.symm)]
        refine ih (p := r.passOver _ _ _) ?_ ?_
        · exact (hlength.trans hmoves.length_shards) ▸ hpos
        · have hpass : (r.passOver (p.visited start attempt) attempt e).maxRetry = r.maxRetry := rfl
          omega

end Split

/-- Whether the visits, of which at most `left` may be made out of `budget`, lead to the result: the
last one gave the connection, or none did and all were made. -/
def Settles (budget left : Nat) (vs : List Visit) (result : Except PoolError ConnId) : Prop :=
  (∃ us v c, vs = us ++ [v] ∧ v.lent? = some c ∧ (∀ u ∈ us, u.lent? = none) ∧ result = .ok c) ∨
    vs.length = left ∧ (∀ v ∈ vs, v.lent? = none) ∧ result = .error (.retriesExhausted budget)

theorem Settles.cons {budget left : Nat} {v : Visit} {vs : List Visit}
    {result : Except PoolError ConnId} (hv : v.lent? = none)
    (hsettles : Settles budget left vs result) : Settles budget (left + 1) (v :: vs) result := by
  obtain ⟨us, u, c, rfl, hu, hus, rfl⟩ | ⟨hlength, hvs, rfl⟩ := hsettles
  · exact .inl ⟨v :: us, u, c, rfl, hu, by simpa [hv] using hus, rfl⟩
  · exact .inr ⟨by rw [List.length_cons, hlength], by simpa [hv] using hvs, rfl⟩

section Tour

variable {p q : Pool} {start attempt left : Nat} {xs : List Exchange} {vs : List Visit}
  {result : Except PoolError ConnId}

/-- A get that visits shards makes a tour. -/
theorem exists_tour (hpos : 0 < p.shards.length) (hleft : attempt + left = p.maxRetry)
    (hends : getting.Ends (p.visit start attempt left) xs q result) :
    ∃ vs, Tour start p attempt vs q ∧ xs = vs.flatMap Visit.exchanges ∧ vs.length ≤ left ∧
      Settles p.maxRetry left vs result := by
  induction left generalizing p attempt xs with
  | zero =>
    obtain ⟨rfl, rfl, rfl⟩ := Activity.ends_done_iff.mp hends
    exact ⟨[], .nil _ _, rfl, Nat.le_refl 0, .inr ⟨rfl, by simp, rfl⟩⟩
  | succ left ih =>
    have hi : p.visited start attempt < p.shards.length := Nat.mod_lt _ hpos
    cases hin : (p.shard (p.visited start attempt)).available with
    | false =>
      have hrotate : p.rotate.maxRetry = p.maxRetry := rfl
      simp only [visit, hin] at hends
      obtain ⟨vs, htour, rfl, hlength, hsettles⟩ := ih (p := p.rotate) hpos (by omega) hends
      exact ⟨_, .passed hin htour, rfl, Nat.succ_le_succ hlength, hsettles.cons rfl⟩
    | true =>
      rw [visit_of_available hin hpos hleft] at hends
      obtain ⟨ys, zs, r, b, rfl, hborrow, hrest⟩ := exists_of_ends_goOn
        ((leads_borrow hi).moves.length_shards ▸ hi) (visited_borrow hi).symm hends
      have hundisturbed := undisturbed_of_ends hi hborrow
      cases b with
      | ok c =>
        obtain ⟨rfl, rfl, rfl⟩ := Activity.ends_done_iff.mp hrest
        refine ⟨_, .served hin hborrow, by simp, by simp, .inl ⟨[], _, c, rfl, rfl, by simp, rfl⟩⟩
      | error e =>
        have hretry : r.maxRetry = p.maxRetry := hundisturbed.maxRetry
        rw [goOn_refused (hleft.trans hretry.symm)] at hrest
        have hpass : (r.passOver (p.visited start attempt) attempt e).maxRetry = r.maxRetry := rfl
        obtain ⟨vs, htour, rfl, hlength, hsettles⟩ :=
          ih (p := r.passOver _ _ _) (hundisturbed.length ▸ hpos) (by omega) hrest
        rw [hpass, hretry] at hsettles
        exact ⟨_, .refused hin hborrow htour, rfl, Nat.succ_le_succ hlength, hsettles.cons rfl⟩

namespace Tour

theorem length_shards (hpos : 0 < p.shards.length) (htour : Tour start p attempt vs q) :
    q.shards.length = p.shards.length := by
  induction htour with
  | nil => rfl
  | passed _ _ ih => exact ih hpos
  | refused _ hends _ ih =>
    have hlength := (undisturbed_of_ends (Nat.mod_lt _ hpos) hends).length
    exact (ih (hlength ▸ hpos)).trans hlength
  | served _ hends => exact (undisturbed_of_ends (Nat.mod_lt _ hpos) hends).length

/-- The shards come up in rotation. -/
theorem shard_eq (hpos : 0 < p.shards.length) (htour : Tour start p attempt vs q) {k : Nat}
    {v : Visit} (hv : vs[k]? = some v) : v.shard = (start + (attempt + k)) % p.shards.length := by
  induction htour generalizing k with
  | nil => simp at hv
  | @passed _ attempt _ _ _ _ ih =>
    cases k with
    | zero => cases hv; rfl
    | succ k =>
      have hk : attempt + 1 + k = attempt + (k + 1) := by omega
      rw [ih hpos hv, hk]
      rfl
  | @refused _ attempt _ _ _ _ _ _ hends _ ih =>
    have hlength := (undisturbed_of_ends (Nat.mod_lt _ hpos) hends).length
    cases k with
    | zero => cases hv; rfl
    | succ k =>
      have hk : attempt + 1 + k = attempt + (k + 1) := by omega
      rw [ih (hlength ▸ hpos) hv, hk]
      exact congrArg _ hlength
  | served _ _ =>
    cases k with
    | zero => cases hv; rfl
    | succ k => simp at hv

/-- Passed over are the shards out of service, and no others. -/
theorem outcome_eq_none_iff (hpos : 0 < p.shards.length) (htour : Tour start p attempt vs q)
    {v : Visit} (hv : v ∈ vs) : v.outcome = none ↔ (p.shard v.shard).available = false := by
  induction htour with
  | nil => simp at hv
  | passed hout _ ih =>
    obtain rfl | hv := List.mem_cons.mp hv
    · simp [hout]
    · exact ih hpos hv
  | refused hin hends _ ih =>
    have hundisturbed := undisturbed_of_ends (Nat.mod_lt _ hpos) hends
    obtain rfl | hv := List.mem_cons.mp hv
    · simp [hin]
    · rw [← hundisturbed.available]
      exact ih (hundisturbed.length ▸ hpos) hv
  | served hin _ =>
    obtain rfl := List.mem_singleton.mp hv
    simp [hin]

theorem exchanges_of_passed (htour : Tour start p attempt vs q) {v : Visit} (hv : v ∈ vs)
    (hpassed : v.outcome = none) : v.exchanges = [] := by
  induction htour with
  | nil => simp at hv
  | passed _ _ ih =>
    obtain rfl | hv := List.mem_cons.mp hv
    · rfl
    · exact ih hv
  | refused _ _ _ ih =>
    obtain rfl | hv := List.mem_cons.mp hv
    · cases hpassed
    · exact ih hv
  | served _ _ =>
    obtain rfl := List.mem_singleton.mp hv
    cases hpassed

/-- A shard out of service is not touched. -/
theorem shard_of_unavailable (hpos : 0 < p.shards.length) (htour : Tour start p attempt vs q)
    {i : Nat} (hout : (p.shard i).available = false) : q.shard i = p.shard i := by
  induction htour with
  | nil => rfl
  | passed _ _ ih => exact ih hpos hout
  | refused hin hends _ ih =>
    have hundisturbed := undisturbed_of_ends (Nat.mod_lt _ hpos) hends
    have hi := hundisturbed.shard i fun heq => by
      subst heq
      exact nomatch hin.symm.trans hout
    exact (ih (hundisturbed.length ▸ hpos) (hi ▸ hout)).trans hi
  | served hin hends =>
    exact (undisturbed_of_ends (Nat.mod_lt _ hpos) hends).shard i fun heq => by
      subst heq
      exact nomatch hin.symm.trans hout

/-- Every visit without a connection turns the rotation. -/
theorem rotation_eq (hpos : 0 < p.shards.length) (htour : Tour start p attempt vs q) :
    q.rotation = p.rotation + vs.countP (·.lent?.isNone) := by
  induction htour with
  | nil => rfl
  | @passed p _ _ _ _ _ ih =>
    have hrotate : p.rotate.rotation = p.rotation + 1 := rfl
    rw [ih hpos, List.countP_cons_of_pos rfl, hrotate]
    omega
  | @refused p attempt _ r e _ _ _ hends _ ih =>
    have hundisturbed := undisturbed_of_ends (Nat.mod_lt _ hpos) hends
    have hpass : (r.passOver (p.visited start attempt) attempt e).rotation = r.rotation + 1 := rfl
    rw [ih (hundisturbed.length ▸ hpos), List.countP_cons_of_pos rfl, hpass, hundisturbed.rotation]
    omega
  | served _ hends =>
    rw [(undisturbed_of_ends (Nat.mod_lt _ hpos) hends).rotation]
    rfl

/-- As long as no visit gives a connection, no slot is taken for good. -/
theorem active_eq (hpos : 0 < p.shards.length) (htour : Tour start p attempt vs q)
    (hnone : ∀ v ∈ vs, v.lent? = none) (i : Nat) : (q.shard i).active = (p.shard i).active := by
  induction htour with
  | nil => rfl
  | passed _ _ ih => exact ih hpos (List.forall_mem_cons.mp hnone).2
  | refused _ hends _ ih =>
    have hundisturbed := undisturbed_of_ends (Nat.mod_lt _ hpos) hends
    exact (ih (hundisturbed.length ▸ hpos) (List.forall_mem_cons.mp hnone).2).trans
      (hundisturbed.active _ rfl i)
  | served _ _ => cases hnone _ List.mem_cons_self

end Tour

end Tour

/-- How the visits of a get explain its exchanges, the pool at its end and its result. -/
structure Explains (p : Pool) (vs : List Visit) (xs : List Exchange) (q : Pool)
    (result : Except PoolError ConnId) : Prop where
  tour : Tour p.rotation p.rotate 0 vs q
  exchanges : xs = vs.flatMap Visit.exchanges
  budget : vs.length ≤ max p.shards.length p.config.minRetryAttempts
  order : ∀ k v, vs[k]? = some v → v.shard = (p.rotation + k) % p.shards.length
  passed : ∀ v ∈ vs, v.outcome = none ↔ (p.shard v.shard).available = false
  silent : ∀ v ∈ vs, v.outcome = none → v.exchanges = []
  unchanged : ∀ i, (p.shard i).available = false → q.shard i = p.shard i
  rotation : q.rotation = p.rotation + 1 + vs.countP (·.lent?.isNone)
  /-- The get ends at the first visit that gives a connection. -/
  lends : ∀ c, result = .ok c →
    ∃ us v, vs = us ++ [v] ∧ v.lent? = some c ∧ ∀ u ∈ us, u.lent? = none
  refuses : ∀ e, result = .error e →
    e = .retriesExhausted (max p.shards.length p.config.minRetryAttempts) ∧
      (∀ v ∈ vs, v.lent? = none) ∧ (∀ i < p.shards.length, ∃ v ∈ vs, v.shard = i) ∧
      ∀ i, (q.shard i).active = (p.shard i).active

/-- A get on an open pool with nobody else around comes to an end on every factory. It visits the
shards in rotation within its budget, passes over those out of service and ends at the first that
gives a connection. It fails only after it has visited all of them in vain, and then each shard has
as many connections lent as before. -/
theorem get_spec {p : Pool} (hopen : p.closed = false) (hpos : 0 < p.shards.length) :
    (∀ f : Factory, ∃ xs q result, getting.Ends p.get xs q result ∧ f.Makes [] p.now xs) ∧
    ∀ xs q result, getting.Ends p.get xs q result → ∃ vs, p.Explains vs xs q result := by
  have hget : p.get = p.rotate.visit p.rotation 0 p.maxRetry := by
    rw [get, hopen]
    rfl
  rw [hget]
  refine ⟨fun f => ?_, fun xs q result hends => ?_⟩
  · have hhalts : getting.Halts (p.rotate.visit p.rotation 0 p.maxRetry) :=
      halts_visit hpos (Nat.zero_add p.maxRetry)
    obtain ⟨xs, q, result, hends, hmakes⟩ := hhalts.exists_ends f []
    rw [now_visit] at hmakes
    exact ⟨xs, q, result, hends, hmakes⟩
  · have hpos : 0 < p.rotate.shards.length := hpos
    obtain ⟨vs, htour, hxs, hbudget, hsettles⟩ := exists_tour hpos (Nat.zero_add p.maxRetry) hends
    refine ⟨vs, htour, hxs, hbudget, fun k v hv => ?_,
      fun v hv => htour.outcome_eq_none_iff hpos hv,
      fun v hv => htour.exchanges_of_passed hv, fun i hout => htour.shard_of_unavailable hpos hout,
      htour.rotation_eq hpos, ?_, ?_⟩
    · rw [htour.shard_eq hpos hv, Nat.zero_add]
      rfl
    · rintro c rfl
      obtain ⟨us, v, c, rfl, hv, hus, hc⟩ | ⟨-, -, hc⟩ := hsettles
      · cases hc
        exact ⟨us, v, rfl, hv, hus⟩
      · cases hc
    · rintro e rfl
      obtain ⟨us, v, c, -, -, -, hc⟩ | ⟨hlength, hnone, he⟩ := hsettles
      · cases hc
      cases he
      have hactive := htour.active_eq hpos hnone
      refine ⟨rfl, hnone, fun i hi => ?_, hactive⟩
      -- The budget is at least the number of shards, so the rotation comes round to each of them.
      obtain ⟨d, hd, hvisited⟩ := exists_add_mod_eq p.rotation hi
      have hd : d < vs.length := by
        have hbudget : p.maxRetry = max p.shards.length p.config.minRetryAttempts := rfl
        omega
      refine ⟨vs[d], List.getElem_mem hd, ?_⟩
      rw [htour.shard_eq hpos (List.getElem?_eq_getElem hd), Nat.zero_add]
      exact hvisited

/-- Three shards, of which the first is out of service. -/
def oneOut : Pool where
  config := {}
  shards := [{ address := "a:1", available := false }, { address := "b:1" }, { address := "c:1" }]
  numAvailable := 2

/-- A get that passes over a shard, fails to dial another and is lent a connection of a third, and
one that dials in vain until its budget is used up. -/
theorem get_spec_three :
    oneOut.closed = false ∧ 0 < oneOut.shards.length ∧
      (∃ xs q vs, xs.map Exchange.call = [.dial 1 "b:1", .dial 2 "c:1"] ∧
        getting.Ends oneOut.get xs q (.ok 0) ∧ oneOut.Explains vs xs q (.ok 0)) ∧
      ∃ xs q vs, xs.map Exchange.call = [.dial 1 "b:1", .dial 2 "c:1", .dial 1 "b:1"] ∧
        getting.Ends oneOut.get xs q (.error (.retriesExhausted 5)) ∧
        oneOut.Explains vs xs q (.error (.retriesExhausted 5)) := by
  have hlent : ∃ q, getting.Ends oneOut.get [⟨.dial 1 "b:1", ⟨1⟩, .error (.backend "refused")⟩,
      ⟨.dial 2 "c:1", ⟨2⟩, .ok ()⟩] q (.ok 0) :=
    ⟨_, .of_waits (s := ⟨0, 1, .dialing⟩) rfl rfl (by decide) <|
      .of_waits (s := ⟨0, 2, .dialing⟩) rfl rfl (by decide) <| .of_done rfl⟩
  have hvain : ∃ q, getting.Ends oneOut.get [⟨.dial 1 "b:1", ⟨1⟩, .error (.backend "refused")⟩,
      ⟨.dial 2 "c:1", ⟨2⟩, .error (.backend "refused")⟩,
      ⟨.dial 1 "b:1", ⟨3⟩, .error (.backend "refused")⟩] q (.error (.retriesExhausted 5)) :=
    ⟨_, .of_waits (s := ⟨0, 1, .dialing⟩) rfl rfl (by decide) <|
      .of_waits (s := ⟨0, 2, .dialing⟩) rfl rfl (by decide) <|
      .of_waits (s := ⟨0, 4, .dialing⟩) rfl rfl (by decide) <| .of_done rfl⟩
  obtain ⟨q, hlent⟩ := hlent
  obtain ⟨r, hvain⟩ := hvain
  obtain ⟨-, hexplains⟩ := get_spec (p := oneOut) rfl (by decide)
  obtain ⟨vs, hvs⟩ := hexplains _ _ _ hlent
  obtain ⟨us, hus⟩ := hexplains _ _ _ hvain
  exact ⟨rfl, by decide, ⟨_, q, vs, rfl, hlent, hvs⟩, _, r, us, rfl, hvain, hus⟩

end Pool

end QuorumPool
