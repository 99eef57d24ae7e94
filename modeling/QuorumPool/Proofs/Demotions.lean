import QuorumPool.Proofs.Service
import QuorumPool.Proofs.Verdicts

namespace QuorumPool.Pool

variable {p q : Pool} {i : Nat}

variable {config : Config} {n d : Nat}

/-- A pool of `n` shards of which the first `d` are out of service, and nothing else is going on. -/
structure Demoted (p : Pool) (config : Config) (n d : Nat) : Prop where
  config : p.config = config
  length : p.shards.length = n
  numAvailable : p.numAvailable + d = n
  flags : ∀ i < n, (p.shard i).available = decide (d ≤ i)
  idle : ∀ i < n, (p.shard i).idle = []
  tasks : p.tasks = []

private theorem drain_of_idle_nil (hidle : (p.shard i).idle = []) (drained : Nat) :
    p.drain i drained = (p.note (.drained (p.shard i).address drained), .done true) := by
  simp only [drain, hidle]

theorem drain_of_idle_cons {c : ConnId} {rest : List ConnId}
    (hidle : (p.shard i).idle = c :: rest) (drained : Nat) :
    p.drain i drained =
      ((p.dropIdle i).count i Tally.countClose, .waits (.draining i c drained)) := by
  simp only [drain, hidle]

/-- A shard without idle connections is out of service once it is demoted. -/
theorem exists_demote_eq (hi : i < p.shards.length) (hidle : (p.shard i).idle = [])
    (hflips : p.flips i false = true) :
    ∃ journal, p.demote i = ({ { p with numAvailable := p.numAvailable - 1 }.modifyShard i
      fun s => { s with available := false } with journal }, .done true) := by
  simp only [flips, Bool.false_eq_true, if_false, Bool.and_eq_true] at hflips
  simp only [demote, hflips.1, hflips.2, Bool.not_true, Bool.false_eq_true, if_false]
  rw [drain_of_idle_nil]
  · exact ⟨_, rfl⟩
  · have hshard := shard_modifyShard_self (p := { p with numAvailable := p.numAvailable - 1 })
      (f := fun s => { s with available := false }) hi
    change ((({ p with numAvailable := p.numAvailable - 1 } : Pool).modifyShard i
      fun s => { s with available := false }).shard i).idle = []
    rw [hshard]
    exact hidle

/-- A verdict on a shard is a task from its start on. -/
theorem start_mark (hi : i < p.shards.length) (healthy : Bool) :
    (p.start (.mark i healthy)).1 =
      { p with
        tasks := p.tasks ++ [(p.nextTask, .verdict (.deciding i healthy))]
        nextTask := p.nextTask + 1 } := by
  simp only [start, begin, mark, hi, if_true, Progress.map, askFor, Task.call?, Verdict.call?]

/-- A verdict may be decided as soon as it has begun. -/
theorem runs_mark (hwf : p.WellFormed) (hi : i < p.shards.length) (healthy : Bool) :
    p.Runs [.start (.mark i healthy), .resume p.nextTask (.ok ())] := by
  have hwf' := hwf.act (.start (.mark i healthy))
  have htasks := congrArg tasks (start_mark hi healthy)
  have ht : (p.act (.start (.mark i healthy))).task? p.nextTask =
      some (.verdict (.deciding i healthy)) := hwf'.task?_eq htasks
  refine ⟨trivial, .inr ?_, trivial⟩
  rw [taskReady, ht]

/-- The two steps of a verdict that changes the flag of a shard, and finds nothing idle if it demotes
it. -/
theorem exists_run_mark (hwf : p.WellFormed) (hi : i < p.shards.length) {healthy : Bool}
    (hidle : healthy = false → (p.shard i).idle = []) (hflips : p.flips i healthy = true) :
    p.Runs [.start (.mark i healthy), .resume p.nextTask (.ok ())] ∧ ∃ journal,
      p.after [.start (.mark i healthy), .resume p.nextTask (.ok ())] =
        { p.modifyShard i fun s => { s with available := healthy } with
          numAvailable := if healthy then p.numAvailable + 1 else p.numAvailable - 1,
          nextTask := p.nextTask + 1, journal } := by
  let q : Pool :=
    { p with
      tasks := p.tasks ++ [(p.nextTask, .verdict (.deciding i healthy))]
      nextTask := p.nextTask + 1 }
  have hstart : (p.start (.mark i healthy)).1 = q := start_mark hi healthy
  have hwfq : q.WellFormed := hstart ▸ hwf.act (.start (.mark i healthy))
  obtain ⟨journal, hverdict⟩ : ∃ journal, q.resumeVerdict (.deciding i healthy) (.ok ()) =
      ({ { q with numAvailable := if healthy then p.numAvailable + 1 else p.numAvailable - 1
         }.modifyShard i fun s => { s with available := healthy } with journal }, .done true) := by
    cases healthy with
    | false => exact exists_demote_eq (p := q) hi (hidle rfl) hflips
    | true =>
      have hout : (p.shard i).available = false := by simpa [flips] using hflips
      have havailable : (q.shard i).available = false := hout
      simp only [resumeVerdict, promote, havailable, Bool.false_eq_true, if_false]
      exact ⟨_, rfl⟩
  have hadvance : q.advance (.verdict (.deciding i healthy)) (.ok ()) =
      (q.resumeVerdict (.deciding i healthy) (.ok ())).map id (·.map .verdict .changed) := rfl
  rw [hverdict] at hadvance
  refine ⟨runs_mark hwf hi healthy, journal, ?_⟩
  change ((p.start (.mark i healthy)).1.resume p.nextTask (.ok ())).1 = _
  rw [hstart, resume_of_advance p.tasks [] hwfq rfl hadvance rfl, List.append_nil]
  rfl

namespace Demoted

/-- One more shard goes out of service. -/
theorem exists_run_succ (hp : p.Demoted config n d) (hwf : p.WellFormed) (hd : d < n)
    (hquorum : n * config.quorum.numerator < (n - d) * config.quorum.denominator) :
    ∃ as, p.Runs as ∧ (p.after as).Demoted config n (d + 1) := by
  have hlt : d < p.shards.length := by rwa [hp.length]
  have hflips : p.flips d false = true := by
    have hnum : p.numAvailable = n - d := by
      have hsum := hp.numAvailable
      omega
    have havailable : (p.shard d).available = true := (hp.flags d hd).trans (by simp)
    simp only [flips, havailable, Quorum.permitsDemotion]
    simpa [hp.length, hp.config, hnum] using hquorum
  obtain ⟨hruns, journal, hafter⟩ := exists_run_mark hwf hlt (fun _ => hp.idle d hd) hflips
  refine ⟨_, hruns, ?_⟩
  rw [hafter]
  have hshard := shard_modifyShard (p := p) (f := fun s => { s with available := false }) hlt
  have hidle : ∀ i, ((p.modifyShard d fun s => { s with available := false }).shard i).idle =
      (p.shard i).idle := idle_modifyShard fun _ => rfl
  refine ⟨hp.config, length_shards_modifyShard.trans hp.length, ?_, fun i hi => ?_,
    fun i hi => ?_, hp.tasks⟩
  · have hsum := hp.numAvailable
    change p.numAvailable - 1 + (d + 1) = n
    omega
  · change ((p.modifyShard d fun s => { s with available := false }).shard i).available = _
    rw [hshard]
    split
    · rename_i hdi
      simp [hdi]
    · rw [hp.flags i hi]
      congr 1
      exact propext (by omega)
  · exact (hidle i).trans (hp.idle i hi)

theorem exists_run (hp : p.Demoted config n 0) (hwf : p.WellFormed) (hd : d ≤ n)
    (hquorum : ∀ e < d, n * config.quorum.numerator < (n - e) * config.quorum.denominator) :
    ∃ as, p.Runs as ∧ (p.after as).Demoted config n d := by
  induction d with
  | zero => exact ⟨[], trivial, hp⟩
  | succ d ih =>
    obtain ⟨as, hruns, hdemoted⟩ := ih (by omega) fun e he => hquorum e (by omega)
    obtain ⟨bs, hmore, hdone⟩ :=
      hdemoted.exists_run_succ (hwf.after _) hd (hquorum d (Nat.lt_succ_self d))
    exact ⟨as ++ bs, runs_append.mpr ⟨hruns, hmore⟩, by rwa [after_append]⟩

end Demoted

theorem demoted_of_create {addresses : List String} {now : Duration}
    (hcreate : create config addresses now = .ok p) : p.Demoted config addresses.length 0 := by
  have hstands := stands_of_create hcreate
  refine ⟨hstands.config, hstands.length, ?_, fun i hi => ?_, fun i hi => (hstands.holds i hi).1,
    hstands.tasks⟩
  · obtain ⟨_, _, rfl⟩ := eq_of_create hcreate
    rfl
  · rw [(hstands.service i hi).1]
    rfl

/-- The runs of a pool come to every number of available shards from the quorum's share, rounded
down, to all of them, and to no other. -/
theorem exists_run_numAvailable_iff {addresses : List String} {now : Duration}
    (hcreate : create config addresses now = .ok p) (k : Nat) :
    (∃ as, p.Runs as ∧ (p.after as).numAvailable = k) ↔
      addresses.length * config.quorum.numerator / config.quorum.denominator ≤ k ∧
        k ≤ addresses.length := by
  have hwf := WellFormed.of_create hcreate
  have hdemoted := demoted_of_create hcreate
  have hden : 0 < config.quorum.denominator := (eq_of_create hcreate).1.denominator
  constructor
  · rintro ⟨as, hruns, rfl⟩
    obtain ⟨hflags, hfloor⟩ := accounted_after hcreate hruns
    obtain ⟨hconfig, hlen⟩ := fixed_after hruns hwf
    rw [hconfig, hlen, hdemoted.config, hdemoted.length] at hfloor
    constructor
    · exact Nat.lt_succ_iff.mp ((Nat.div_lt_iff_lt_mul hden).mpr hfloor)
    · rw [hflags, ← hdemoted.length, ← hlen]
      exact flagged_le_length _
  · rintro ⟨hfloor, hk⟩
    obtain ⟨as, hruns, hdone⟩ := hdemoted.exists_run (d := addresses.length - k) hwf (by omega)
      fun e he => (Nat.div_lt_iff_lt_mul hden).mp (by omega)
    refine ⟨as, hruns, ?_⟩
    have hsum := hdone.numAvailable
    omega

section Create

variable {addresses : List String} {now : Duration}

/-- After every run of a pool the counter says how many shards have their flag set. A caller's
verdict is answered by whether it changed the flag of its shard, and whenever a verdict is decided,
on behalf of a caller or of the health checker, the flags obey it. The numbers of available shards
that runs come to are those from the quorum's share, rounded down, to the number of all shards. -/
theorem availability_accounted (hcreate : create config addresses now = .ok p) :
    (∀ as, p.Runs as →
      (p.after as).numAvailable = (p.after as).shards.countP Shard.available ∧
      (∀ i healthy, (p.after as).Takes i healthy) ∧
      (∀ id i healthy reply, (p.after as).Deciding id i healthy →
        (p.after as).Obeys ((p.after as).act (.resume id reply)) i healthy) ∧
      ∀ due e i healthy, (p.after as).checker = .working due e →
        e.inspection = .judging (.deciding i healthy) →
        (p.after as).Obeys ((p.after as).act .turn) i healthy) ∧
    ∀ k, (∃ as, p.Runs as ∧ (p.after as).numAvailable = k) ↔
      addresses.length * config.quorum.numerator / config.quorum.denominator ≤ k ∧
        k ≤ addresses.length := by
  have hwf := WellFormed.of_create hcreate
  refine ⟨fun as hruns => ?_, exists_run_numAvailable_iff hcreate⟩
  have hwf' := hwf.after as
  refine ⟨(accounted_after hcreate hruns).flags, takes_mark hwf', fun id i healthy reply ht => ?_,
    fun due e i healthy hchecker he => ?_⟩
  · have hi : i < (p.after as).shards.length :=
      hwf'.verdicts id _ (hwf'.task?_eq_some_iff.mp ht)
    exact (decides_resumeVerdict hi healthy reply).obeys (shards_resume ht reply)
  · have hi : i < (p.after as).shards.length := by
      have hshard := hwf'.errand due e hchecker
      rwa [he] at hshard
    exact (decides_resumeVerdict hi healthy (.ok ())).obeys (shards_turn hchecker he)

/-- Of three shards one may be out of service, and not two. -/
theorem availability_accounted_three :
    ∃ p, create {} ["a:1", "b:1", "c:1"] .zero = .ok p ∧
      (∃ as, p.Runs as ∧ (p.after as).numAvailable = 2) ∧
      ¬∃ as, p.Runs as ∧ (p.after as).numAvailable = 1 := by
  have hcreate : create {} ["a:1", "b:1", "c:1"] .zero = .ok _ := rfl
  have hvalues := (availability_accounted hcreate).2
  exact ⟨_, hcreate, (hvalues 2).mpr (by decide),
    fun hone => absurd ((hvalues 1).mp hone) (by decide)⟩

/-- How many shards are out of service. -/
def withdrawn (p : Pool) : Nat := p.shards.countP fun s => !s.available

theorem numAvailable_add_withdrawn (hcreate : create config addresses now = .ok p)
    {as : List Action} (hruns : p.Runs as) :
    (p.after as).numAvailable + (p.after as).withdrawn = addresses.length := by
  obtain ⟨_, hlen⟩ := fixed_after hruns (.of_create hcreate)
  rw [(accounted_after hcreate hruns).flags, ← (demoted_of_create hcreate).length, ← hlen]
  simpa [flagged, withdrawn] using
    (List.length_eq_countP_add_countP Shard.available (l := (p.after as).shards)).symm

/-- What holds of the number of available shards in all runs holds of all the numbers that runs come
to. -/
theorem forall_numAvailable_iff (hcreate : create config addresses now = .ok p) (P : Nat → Prop) :
    (∀ as, p.Runs as → P (p.after as).numAvailable) ↔
      ∀ k, addresses.length * config.quorum.numerator / config.quorum.denominator ≤ k →
        k ≤ addresses.length → P k := by
  constructor
  · intro hall k hfloor hk
    obtain ⟨as, hruns, rfl⟩ := (exists_run_numAvailable_iff hcreate k).mpr ⟨hfloor, hk⟩
    exact hall as hruns
  · intro hall as hruns
    obtain ⟨hfloor, hk⟩ := (exists_run_numAvailable_iff hcreate _).mp ⟨as, hruns, rfl⟩
    exact hall _ hfloor hk

/-- The share of available shards stays at or above the quorum in every run if and only if the
quorum asks for a whole number of shards. In general one more available shard would lie above it.
With the quorum of two thirds, at most one third of the shards is ever out of service if and only if
their number is divisible by three, and all are out of service at once only in a pool of one
shard. -/
theorem quorum_kept_iff (hcreate : create config addresses now = .ok p) :
    (∀ as, p.Runs as → addresses.length * config.quorum.numerator <
      ((p.after as).numAvailable + 1) * config.quorum.denominator) ∧
    ((∀ as, p.Runs as → addresses.length * config.quorum.numerator ≤
      (p.after as).numAvailable * config.quorum.denominator) ↔
        config.quorum.denominator ∣ addresses.length * config.quorum.numerator) ∧
    (config.quorum = .twoThirds →
      ((∀ as, p.Runs as → 3 * (p.after as).withdrawn ≤ addresses.length) ↔ 3 ∣ addresses.length) ∧
      ((∃ as, p.Runs as ∧ ∀ s ∈ (p.after as).shards, s.available = false) ↔
        addresses.length = 1)) := by
  obtain ⟨hconfig, haddresses, _⟩ := eq_of_create hcreate
  have hden := hconfig.denominator
  have hshare : addresses.length * config.quorum.numerator / config.quorum.denominator ≤
      addresses.length := by
    apply Nat.div_le_of_le_mul
    rw [Nat.mul_comm config.quorum.denominator]
    exact Nat.mul_le_mul_left _ hconfig.quorum
  refine ⟨?_, ?_, fun htwo => ⟨?_, ?_⟩⟩
  · refine (forall_numAvailable_iff hcreate fun k => _ < (k + 1) * _).mpr fun k hfloor _ => ?_
    exact (Nat.div_lt_iff_lt_mul hden).mp (Nat.lt_succ_of_le hfloor)
  · rw [forall_numAvailable_iff hcreate fun k => _ ≤ k * _]
    constructor
    · intro hall
      have hleast := hall _ (Nat.le_refl _) hshare
      exact ⟨_, (Nat.le_antisymm hleast (Nat.div_mul_le_self _ _)).trans (Nat.mul_comm _ _)⟩
    · intro hdvd k hfloor _
      rw [← Nat.div_mul_cancel hdvd]
      exact Nat.mul_le_mul_right _ hfloor
  · have hthird : (∀ as, p.Runs as → 3 * (p.after as).withdrawn ≤ addresses.length) ↔
        ∀ as, p.Runs as → 2 * addresses.length ≤ 3 * (p.after as).numAvailable := by
      refine forall₂_congr fun as hruns => ?_
      have hsum := numAvailable_add_withdrawn hcreate hruns
      omega
    rw [hthird, forall_numAvailable_iff hcreate fun k => 2 * addresses.length ≤ 3 * k, htwo]
    simp only [Quorum.twoThirds]
    constructor
    · intro hall
      have hleast := hall (addresses.length * 2 / 3) (Nat.le_refl _) (by omega)
      omega
    · intro hdvd k hfloor hk
      omega
  · have hnone : (∃ as, p.Runs as ∧ ∀ s ∈ (p.after as).shards, s.available = false) ↔
        ∃ as, p.Runs as ∧ (p.after as).numAvailable = 0 := by
      refine exists_congr fun as => and_congr_right fun hruns => ?_
      rw [(accounted_after hcreate hruns).flags, flagged, List.countP_eq_zero]
      simp only [Bool.not_eq_true]
    have hpos : 0 < addresses.length := List.length_pos_iff.mpr haddresses
    rw [hnone, exists_run_numAvailable_iff hcreate, htwo]
    simp only [Quorum.twoThirds]
    omega

/-- The only shard of a pool may be taken out of service. -/
theorem quorum_kept_iff_one :
    ∃ p, create {} ["a:1"] .zero = .ok p ∧
      (∃ as, p.Runs as ∧ ∀ s ∈ (p.after as).shards, s.available = false) ∧
      ¬∀ as, p.Runs as → 3 * (p.after as).withdrawn ≤ 1 := by
  have hcreate : create {} ["a:1"] .zero = .ok _ := rfl
  obtain ⟨hthird, hnone⟩ := (quorum_kept_iff hcreate).2.2 rfl
  exact ⟨_, hcreate, hnone.mpr rfl, fun hall => absurd (hthird.mp hall) (by decide)⟩

end Create

end QuorumPool.Pool
