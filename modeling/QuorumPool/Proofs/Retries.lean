import QuorumPool.Proofs.GetEffort

namespace QuorumPool

/-- A step of a get at the shard of one of its attempts, with the error by which the attempt failed in
it if it did. -/
structure Stay where
  start : Nat
  attempt : Nat
  error : Option PoolError
deriving DecidableEq, Repr

/-- The error of a get that has failed. -/
def Progress.error? {σ : Type} : Progress σ (Except PoolError ConnId) → Option PoolError
  | done (.error e) => some e
  | _ => none

namespace Pool

/-- The stays of a get on its visits from attempt number `attempt` on, up to one that does not fail. -/
def staysOnVisits (p : Pool) (start attempt : Nat) : (left : Nat) → List Stay
  | 0 => []
  | left + 1 =>
    let j := p.visited start attempt
    if (p.shard j).available then
      ⟨start, attempt, (p.borrow j).2.error?⟩ ::
        match p.borrow j with
        | (q, .done (.error e)) => (q.passOver j attempt e).staysOnVisits start (attempt + 1) left
        | _ => []
    else p.rotate.staysOnVisits start (attempt + 1) left

/-- The stays of a get in its first step. -/
def staysOnGet (p : Pool) : List Stay :=
  if p.closed then [] else p.rotate.staysOnVisits p.rotation 0 p.maxRetry

/-- The stays of a get when it goes on. -/
def staysOnResume (p : Pool) (g : Getting) (reply : Reply) : List Stay :=
  let j := p.visited g.start g.attempt
  ⟨g.start, g.attempt, (p.resumeBorrow j g.borrowing reply).2.error?⟩ ::
    match p.resumeBorrow j g.borrowing reply with
    | (q, .done (.error e)) =>
      (q.passOver j g.attempt e).staysOnVisits g.start (g.attempt + 1)
        (q.maxRetry - (g.attempt + 1))
    | _ => []

/-- The stays of the get that takes a step with the action, in order. -/
def stays (p : Pool) : Action → List Stay
  | .start .get => p.staysOnGet
  | .resume id reply =>
    match p.task? id with
    | some (.get g) => p.staysOnResume g reply
    | _ => []
  | _ => []

/-- Whether one of the later attempts that a get may make comes to a shard in service. -/
def MayRetry (p : Pool) (x : Stay) : Prop :=
  ∃ n, x.attempt < n ∧ n < p.maxRetry ∧ (p.shard (p.visited x.start n)).available = true

/-- In all runs a get that fails at a shard with a permanent error is answered in the same step, and
makes no further attempt. -/
def HeedsPermanent (p : Pool) : Prop :=
  ∀ as a pre x post e, p.Runs (as ++ [a]) → (p.after as).stays a = pre ++ x :: post →
    x.error = some e → e.isPermanent = true →
    post = [] ∧ ∃ f, (p.after as).answer? a = some (.refused f)

variable {p q : Pool} {x : Stay} {pre post : List Stay} {e : PoolError} {start attempt left : Nat}

theorem Twin.maxRetry (htwin : p.Twin q) : q.maxRetry = p.maxRetry := by
  rw [Pool.maxRetry, htwin.config, htwin.length, Pool.maxRetry]

/-- Nothing but the order of the shards and which are in service decides on further attempts. -/
theorem mayRetry_congr (hretry : q.maxRetry = p.maxRetry) (hpeer : p.Peer q) (x : Stay) :
    q.MayRetry x ↔ p.MayRetry x := by
  have hvisited (n : Nat) : q.visited x.start n = p.visited x.start n := by
    rw [visited, hpeer.length, visited]
  simp only [MayRetry, hretry, hvisited, hpeer.available]

private theorem staysOnVisits_eq_nil_iff : p.staysOnVisits start attempt left = [] ↔
    ∀ n, attempt ≤ n → n < attempt + left → (p.shard (p.visited start n)).available = false := by
  induction left generalizing p attempt with
  | zero => simp only [staysOnVisits, true_iff]; omega
  | succ left ih =>
    unfold staysOnVisits
    dsimp only
    split
    · rename_i havailable
      refine iff_of_false (List.cons_ne_nil _ _) fun hnone => ?_
      rw [hnone attempt (Nat.le_refl _) (by omega)] at havailable
      cases havailable
    · rename_i hout
      rw [ih]
      constructor
      · intro hlater n hn hlt
        obtain rfl | hn := Nat.eq_or_lt_of_le hn
        · simpa using hout
        · exact hlater n hn (by omega)
      · exact fun hall n hn hlt => hall n (by omega) (by omega)

private theorem visit_of_staysOnVisits (hstays : p.staysOnVisits start attempt left = []) :
    (p.visit start attempt left).2 = .done (.error (.retriesExhausted p.maxRetry)) := by
  induction left generalizing p attempt with
  | zero => rfl
  | succ left ih =>
    unfold staysOnVisits at hstays
    unfold visit
    dsimp only at hstays ⊢
    split at hstays
    · cases hstays
    · rename_i hout
      rw [if_neg hout]
      exact ih hstays

/-- After each of the stays that fails there is another one if the get may make more attempts. If not,
the get ends with this result, which says that its attempts are used up. -/
def Persists (p : Pool) (stays : List Stay) (result : Progress Getting (Except PoolError ConnId)) :
    Prop :=
  ∀ pre x post e, stays = pre ++ x :: post → x.error = some e →
    (post ≠ [] ↔ p.MayRetry x) ∧
      (post = [] → result = .done (.error (.retriesExhausted p.maxRetry)))

namespace Persists

variable {stays : List Stay} {result : Progress Getting (Except PoolError ConnId)}

theorem nil (p : Pool) (result) : p.Persists [] result := by
  intro pre x post e hstays
  cases pre <;> cases hstays

theorem singleton (hx : x.error = none) (p : Pool) (result) : p.Persists [x] result := by
  intro pre y post e hstays he
  have hmem : y ∈ [x] := by simp [hstays]
  rw [List.mem_singleton.mp hmem, hx] at he
  cases he

theorem cons (hmore : stays ≠ [] ↔ p.MayRetry x)
    (hlast : stays = [] → result = .done (.error (.retriesExhausted p.maxRetry)))
    (hstays : p.Persists stays result) : p.Persists (x :: stays) result := by
  intro pre y post e heq he
  cases pre with
  | nil =>
    obtain ⟨rfl, rfl⟩ := List.cons.inj heq
    exact ⟨hmore, hlast⟩
  | cons z pre => exact hstays pre y post e (List.cons.inj heq).2 he

theorem congr (hretry : q.maxRetry = p.maxRetry) (hpeer : p.Peer q)
    (hstays : q.Persists stays result) : p.Persists stays result := by
  intro pre x post e heq he
  rw [← mayRetry_congr hretry hpeer, ← hretry]
  exact hstays pre x post e heq he

end Persists

theorem mayRetry_iff : p.MayRetry ⟨start, attempt, some e⟩ ↔
    p.staysOnVisits start (attempt + 1) (p.maxRetry - (attempt + 1)) ≠ [] := by
  rw [ne_eq, staysOnVisits_eq_nil_iff, MayRetry]
  push Not
  constructor
  · rintro ⟨n, hn, hlt, havailable⟩
    exact ⟨n, hn, by omega, by simp [havailable]⟩
  · rintro ⟨n, hn, hlt, havailable⟩
    exact ⟨n, hn, by omega, by simpa using havailable⟩

/-- An attempt that fails is followed by the visits of the later ones, whatever the error is. -/
theorem Persists.failed (hretry : q.maxRetry = p.maxRetry) (hpeer : p.Peer q)
    (hrest : q.Persists (q.staysOnVisits start (attempt + 1) (q.maxRetry - (attempt + 1)))
      (q.visit start (attempt + 1) (q.maxRetry - (attempt + 1))).2) :
    p.Persists (⟨start, attempt, some e⟩ ::
        q.staysOnVisits start (attempt + 1) (q.maxRetry - (attempt + 1)))
      (q.visit start (attempt + 1) (q.maxRetry - (attempt + 1))).2 := by
  refine .cons ?_ (fun hnil => ?_) (hrest.congr hretry hpeer)
  · rw [← mayRetry_congr hretry hpeer, mayRetry_iff]
  · rw [visit_of_staysOnVisits hnil, hretry]

theorem persists_visit (hleft : left = p.maxRetry - attempt) :
    p.Persists (p.staysOnVisits start attempt left) (p.visit start attempt left).2 := by
  induction left generalizing p attempt with
  | zero => exact .nil p _
  | succ left ih =>
    unfold staysOnVisits visit
    dsimp only
    split
    swap
    · have hrest : left = p.rotate.maxRetry - (attempt + 1) := by
        rw [Twin.rotate.maxRetry]
        omega
      exact (ih hrest).congr Twin.rotate.maxRetry Twin.rotate.peer
    rcases hborrow : p.borrow (p.visited start attempt) with ⟨q, s | e | c⟩
    · exact .singleton rfl p _
    swap
    · exact .singleton rfl p _
    have htwin : p.Twin (q.passOver (p.visited start attempt) attempt e) :=
      (borrow_eq_error hborrow).trans (.passOver ..)
    obtain rfl : left =
        (q.passOver (p.visited start attempt) attempt e).maxRetry - (attempt + 1) := by
      rw [htwin.maxRetry]
      omega
    exact .failed htwin.maxRetry htwin.peer (ih rfl)

theorem persists_get (p : Pool) : p.Persists p.staysOnGet p.get.2 := by
  unfold staysOnGet get
  split
  · exact .nil p _
  · exact (persists_visit (p := p.rotate) rfl).congr Twin.rotate.maxRetry Twin.rotate.peer

theorem persists_resumeGet (p : Pool) (g : Getting) (reply : Reply) :
    p.Persists (p.staysOnResume g reply) (p.resumeGet g reply).2 := by
  have hdoes := Does.resumeBorrow p (p.visited g.start g.attempt) g.borrowing reply
  unfold staysOnResume resumeGet
  dsimp only
  rcases hresume : p.resumeBorrow (p.visited g.start g.attempt) g.borrowing reply with
    ⟨q, s | e | c⟩ <;> rw [hresume] at hdoes
  · exact .singleton rfl p _
  swap
  · exact .singleton rfl p _
  have hpeer : p.Peer (q.passOver (p.visited g.start g.attempt) g.attempt e) :=
    (resumeBorrow_eq_error hresume).trans (Twin.passOver ..).peer
  have hretry : (q.passOver (p.visited g.start g.attempt) g.attempt e).maxRetry = p.maxRetry :=
    hdoes.maxRetry
  exact .failed hretry hpeer (persists_visit rfl)

/-- Only a get makes attempts, in its first step or when it goes on. -/
theorem persists_of_stays {a : Action} (hstays : p.stays a = pre ++ x :: post) :
    ∃ result : Progress Getting (Except PoolError ConnId), p.Persists (p.stays a) result ∧
      ∀ f, result = .done (.error f) → p.answer? a = some (.refused f) := by
  cases a with
  | start request =>
    cases request with
    | get =>
      refine ⟨p.get.2, persists_get p, fun f hf => answer?_start_eq_some_iff.mpr ?_⟩
      change p.get.2.map _ _ = _
      rw [hf]
      rfl
    | _ => simp [stays] at hstays
  | resume id reply =>
    cases ht : p.task? id with
    | none => simp [stays, ht] at hstays
    | some t =>
      cases t with
      | get g =>
        have hresume : p.stays (.resume id reply) = p.staysOnResume g reply := by
          simp only [stays, ht]
        refine ⟨(p.resumeGet g reply).2, hresume ▸ persists_resumeGet p g reply, fun f hf => ?_⟩
        refine answer?_resume_eq_some_iff.mpr ⟨_, ht, ?_⟩
        change (p.resumeGet g reply).2.map _ _ = _
        rw [hf]
        rfl
      | _ => simp [stays, ht] at hstays
  | _ => simp [stays] at hstays

/-- Whatever the error of an attempt, the get makes another one if it may, and else is told that its
attempts are used up. -/
theorem stays_after_error {a : Action} (hstays : p.stays a = pre ++ x :: post)
    (he : x.error = some e) : (post ≠ [] ↔ p.MayRetry x) ∧
      (post = [] → p.answer? a = some (.refused (.retriesExhausted p.maxRetry))) := by
  obtain ⟨result, hpersists, hanswer⟩ := persists_of_stays hstays
  obtain ⟨hmore, hlast⟩ := hpersists pre x post e hstays he
  exact ⟨hmore, fun hpost => hanswer _ (hlast hpost)⟩

section Create

variable {config : Config} {addresses : List String} {now : Duration}

/-- The first get on a fresh pool dials in its first attempt. -/
theorem start_get_of_create (hcreate : create config addresses now = .ok p) :
    ∃ active, (p.start .get).1.Stands config addresses.length (fun _ => []) active
      [(p.nextTask, .get ⟨p.rotation, 0, .dialing⟩)] := by
  have hpos := (WellFormed.of_create hcreate).shards
  have hstands := stands_of_create hcreate
  have hrotate := Twin.rotate.stands hstands
  have hi : p.visited p.rotation 0 < addresses.length := hstands.length ▸ Nat.mod_lt _ hpos
  obtain ⟨havailable, hopen⟩ := hrotate.service _ hi
  obtain ⟨hidle, hactive⟩ := hrotate.holds _ hi
  have hroom : (p.rotate.shard (p.visited p.rotation 0)).hasRoom p.rotate.config.maxActive = true := by
    rw [Shard.hasRoom, hactive]
    simp only [Bool.or_eq_true, beq_iff_eq, decide_eq_true_eq]
    omega
  obtain ⟨left, hleft⟩ : ∃ left, p.maxRetry = left + 1 := by
    refine Nat.exists_eq_succ_of_ne_zero ?_
    rw [maxRetry, Config.retryBudget]
    omega
  have hget : p.get = ((((p.rotate.count (p.visited p.rotation 0) Tally.countGet).modifyShard
      (p.visited p.rotation 0) Shard.occupySlot).count (p.visited p.rotation 0) Tally.countDial),
      .waits ⟨p.rotation, 0, .dialing⟩) := by
    have hvisited : p.rotate.visited p.rotation 0 = p.visited p.rotation 0 := rfl
    rw [get, hstands.opened, if_neg Bool.false_ne_true, hleft, visit]
    simp only [hvisited, havailable, if_true, borrow_of_hasRoom hopen hidle hroom]
  have hentered := (hrotate.dial hi).enter (.get ⟨p.rotation, 0, .dialing⟩)
  simp only [start, begin, hget, Prod.map, Progress.map, id]
  exact ⟨_, hentered⟩

theorem heedsPermanent_of_single (hcreate : create config addresses now = .ok p)
    (hsingle : config.retryBudget addresses.length = 1) : p.HeedsPermanent := by
  intro as a pre x post e hruns hstays he _
  obtain ⟨hconfig, hlength⟩ := fixed_after (runs_append.mp hruns).1 (WellFormed.of_create hcreate)
  have hstands := stands_of_create hcreate
  have hretry : (p.after as).maxRetry = 1 := by
    rw [maxRetry, hconfig, hlength, hstands.config, hstands.length, hsingle]
  obtain ⟨hmore, hlast⟩ := stays_after_error hstays he
  have hpost : post = [] := by
    by_contra hne
    obtain ⟨n, hn, hlt, -⟩ := hmore.mp hne
    omega
  exact ⟨hpost, _, hlast hpost⟩

/-- A dial that fails is followed by another one, although its error is permanent. -/
theorem not_heedsPermanent (hcreate : create config addresses now = .ok p)
    (hmany : 1 < config.retryBudget addresses.length) : ¬p.HeedsPermanent := by
  intro hheeds
  obtain ⟨active, hstands⟩ := start_get_of_create hcreate
  have hwf := (WellFormed.of_create hcreate).act (.start .get)
  have htasks : (p.act (.start .get)).tasks =
      [] ++ (p.nextTask, .get ⟨p.rotation, 0, .dialing⟩) :: [] := hstands.tasks
  have htask := hwf.task?_eq htasks
  let a : Action := .resume p.nextTask (.error (.invalidConfig ""))
  have hruns : p.Runs ([.start .get] ++ [a]) :=
    ⟨trivial, admits_resume_get [] [] hwf htasks _, trivial⟩
  obtain ⟨post, hstays⟩ : ∃ post,
      (p.act (.start .get)).stays a = [] ++ ⟨p.rotation, 0, some (.invalidConfig "")⟩ :: post := by
    simp only [a, stays, htask]
    exact ⟨_, rfl⟩
  obtain ⟨hnone, -⟩ := hheeds [.start .get] a [] _ post _ hruns hstays rfl rfl
  refine (stays_after_error hstays rfl).1.mpr ⟨1, Nat.one_pos, ?_, ?_⟩ hnone
  · change 1 < (p.start .get).1.maxRetry
    rwa [maxRetry, hstands.config, hstands.length]
  · exact (hstands.service _ (hstands.length ▸ Nat.mod_lt _ hwf.shards)).1

/-- What a get does after an attempt that has failed does not depend on the error: it makes another
attempt if one of the later ones comes to a shard in service, and else is refused. In all runs permanent
errors are not retried if and only if a get may make one attempt only. -/
theorem permanent_not_retried_iff (hcreate : create config addresses now = .ok p) :
    (∀ q a pre x post e, stays q a = pre ++ x :: post → x.error = some e →
      (post ≠ [] ↔ q.MayRetry x) ∧
        (post = [] → q.answer? a = some (.refused (.retriesExhausted q.maxRetry)))) ∧
    (p.HeedsPermanent ↔ config.retryBudget addresses.length = 1) := by
  refine ⟨fun q a pre x post e => stays_after_error, fun hheeds => ?_,
    heedsPermanent_of_single hcreate⟩
  by_contra hne
  have hpos : 0 < addresses.length := (stands_of_create hcreate).length ▸
    (WellFormed.of_create hcreate).shards
  refine not_heedsPermanent hcreate ?_ hheeds
  rw [Config.retryBudget] at hne ⊢
  omega

/-- A dial of the only shard that fails with a permanent error, and the next dial after it. -/
theorem permanent_not_retried_iff_one :
    ∃ p, create {} ["a:1"] .zero = .ok p ∧ ¬p.HeedsPermanent ∧
      (p.act (.start .get)).stays (.resume 0 (.error (.invalidConfig "x"))) =
        [⟨0, 0, some (.invalidConfig "x")⟩, ⟨0, 1, none⟩] ∧
      (p.act (.start .get)).MayRetry ⟨0, 0, some (.invalidConfig "x")⟩ := by
  have hcreate : create {} ["a:1"] .zero = .ok _ := rfl
  obtain ⟨hstays, hheeds⟩ := permanent_not_retried_iff hcreate
  refine ⟨_, hcreate, fun hall => absurd (hheeds.mp hall) (by decide), rfl, ?_⟩
  exact (hstays _ (.resume 0 (.error (.invalidConfig "x"))) [] _ [⟨0, 1, none⟩] _ rfl rfl).1.mp
    (List.cons_ne_nil _ _)

end Create

end Pool

end QuorumPool
