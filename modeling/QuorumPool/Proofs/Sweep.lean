import QuorumPool.Proofs.Effort
import QuorumPool.Proofs.ShardGet

namespace QuorumPool

/-- What passes between the pool and the factory in a check of the address, from the time `now` on
and with so many attempts to make. An attempt dials a connection, validates and closes it. The
check passes with the first connection that is valid, and fails when its attempts are used up. -/
inductive Checks (address : String) :
    (now : Duration) → (attempts : Nat) → List Exchange → (healthy : Bool) → (later : Duration) → Prop
  | exhausted (now : Duration) : Checks address now 0 [] false now
  | unreachable {now time attempts e xs healthy later} (htime : now ≤ time)
      (hrest : Checks address time attempts xs healthy later) :
      Checks address now (attempts + 1) (⟨.probe address, time, .error e⟩ :: xs) healthy later
  | invalid {now dialed validated closed attempts e reply xs healthy later}
      (hdialed : now ≤ dialed) (hvalidated : dialed ≤ validated) (hclosed : validated ≤ closed)
      (hrest : Checks address closed attempts xs healthy later) :
      Checks address now (attempts + 1)
        (⟨.probe address, dialed, .ok ()⟩ :: ⟨.validate .probe, validated, .error e⟩ ::
          ⟨.close .probe, closed, reply⟩ :: xs) healthy later
  | valid {now dialed validated closed attempts reply}
      (hdialed : now ≤ dialed) (hvalidated : dialed ≤ validated) (hclosed : validated ≤ closed) :
      Checks address now (attempts + 1)
        [⟨.probe address, dialed, .ok ()⟩, ⟨.validate .probe, validated, .ok ()⟩,
          ⟨.close .probe, closed, reply⟩] true closed

/-- Connections are closed one after the other, from the time `now` on. -/
inductive ClosesAll : (now : Duration) → List ConnId → List Exchange → (later : Duration) → Prop
  | nil (now : Duration) : ClosesAll now [] [] now
  | cons {now time c cs reply xs later} (htime : now ≤ time) (hrest : ClosesAll time cs xs later) :
      ClosesAll now (c :: cs) (⟨.close (.own c), time, reply⟩ :: xs) later

/-- The visit of a sweep at a shard. -/
structure Inspected where
  shard : Nat
  /-- What passes between the pool and the factory in the check of the shard. -/
  check : List Exchange
  /-- The verdict of the check. -/
  healthy : Bool
  /-- What passes between the pool and the factory while the verdict is applied. -/
  drain : List Exchange

def Inspected.exchanges (v : Inspected) : List Exchange := v.check ++ v.drain

/-- The shard when all its idle connections have been closed. -/
def Shard.drained (s : Shard) : Shard :=
  { s with idle := [], tally := { s.tally with closes := s.tally.closes + s.idle.length } }

private theorem Shard.drained_of_idle_eq_nil {s : Shard} (hidle : s.idle = []) : s.drained = s := by
  obtain ⟨_, idle, _⟩ := s
  subst hidle
  rfl

namespace Pool

/-- The health checker goes on with its errand, and nobody else does anything, until it waits for
the sweep that is due at the time `due`. -/
inductive Attends (due : Duration) : Pool → List Exchange → Pool → Prop
  | done {p} (hchecker : p.checker = .waiting due) : Attends due p [] p
  | decides {p e xs q} (hchecker : p.checker = .working due e) (hcall : e.inspection.call? = none)
      (hrest : Attends due p.turn xs q) : Attends due p xs q
  | asks {p e x xs q} (hchecker : p.checker = .working due e)
      (hcall : e.inspection.call? = some x.call) (htime : p.now ≤ x.time)
      (hrest : Attends due ((p.setTime x.time).resumeChecker x.reply) xs q) :
      Attends due p (x :: xs) q

/-- What the verdict on shard `i` makes of the pool, and what passes between it and the factory
meanwhile. -/
inductive Applies (p : Pool) (i : Nat) : (healthy : Bool) → List Exchange → Pool → Prop
  | kept {healthy} (havailable : (p.shard i).available = healthy) : Applies p i healthy [] p
  | promoted (havailable : (p.shard i).available = false) :
      Applies p i true []
        { p with
          numAvailable := p.numAvailable + 1
          shards := p.shards.set i { p.shard i with available := true } }
  | refused (havailable : (p.shard i).available = true)
      (hquorum : p.config.quorum.permitsDemotion p.numAvailable p.shards.length = false) :
      Applies p i false [] p
  | demoted {xs later} (havailable : (p.shard i).available = true)
      (hquorum : p.config.quorum.permitsDemotion p.numAvailable p.shards.length = true)
      (hcloses : ClosesAll p.now (p.shard i).idle xs later) :
      Applies p i false xs
        { p with
          numAvailable := p.numAvailable - 1
          shards := p.shards.set i { (p.shard i).drained with available := false }
          now := later }

/-- A sweep goes on from shard number `i`, by visits one after the other. The verdict of each is
applied before the next one starts. -/
inductive Proceeds : Pool → (i : Nat) → List Inspected → Pool → Prop
  | done {p i} (hnone : p.nextToSweep i = none) : Proceeds p i [] p
  | visits {p i v vs later r q} (hnext : p.nextToSweep i = some v.shard)
      (hcheck : Checks (p.shard v.shard).address p.now p.config.healthCheckAttempts v.check v.healthy
        later)
      (hverdict : (p.setTime later).Applies v.shard v.healthy v.drain r)
      (hrest : Proceeds r (v.shard + 1) vs q) : Proceeds p i (v :: vs) q

/-- The pool when its health checker stands as given, with something written down. -/
def attending (p : Pool) (due : Duration) (w : Progress Errand Unit) (journal : List Entry) : Pool :=
  { p with checker := .standing due w, journal }

/-- A sweep with a check at shard `i` that stands as given. -/
def checkingAt (i : Nat) : Progress Check Bool → Progress Errand Unit
  | .waits c => .waits (.sweep (.checking i c))
  | .done healthy => .waits (.sweep (.judging (.deciding i healthy)))

section Attends

variable {p q : Pool} {due : Duration} {e : Errand} {xs : List Exchange} {call : Call} {i : Nat}
  {journal : List Entry}

private theorem attends_done_iff (hchecker : p.checker = .waiting due) :
    Attends due p xs q ↔ xs = [] ∧ q = p := by
  constructor
  · intro hattends
    cases hattends with
    | done => exact ⟨rfl, rfl⟩
    | decides hworking => cases hchecker.symm.trans hworking
    | asks hworking => cases hchecker.symm.trans hworking
  · rintro ⟨rfl, rfl⟩
    exact .done hchecker

theorem attends_decides_iff (hchecker : p.checker = .working due e)
    (hcall : e.inspection.call? = none) : Attends due p xs q ↔
      Attends due ((p.resumeErrand e (.ok ())).1.setErrand due (p.resumeErrand e (.ok ())).2) xs q := by
  have hturn : p.turn =
      (p.resumeErrand e (.ok ())).1.setErrand due (p.resumeErrand e (.ok ())).2 := by
    simp only [turn, hchecker, hcall]
  constructor
  · intro hattends
    cases hattends with
    | done hwaiting => cases hchecker.symm.trans hwaiting
    | decides _ _ hrest => exact hturn ▸ hrest
    | asks hworking hcall' =>
      cases hchecker.symm.trans hworking
      cases hcall.symm.trans hcall'
  · intro hrest
    exact .decides hchecker hcall (hturn ▸ hrest)

theorem attends_asks_iff (hchecker : p.checker = .working due e)
    (hcall : e.inspection.call? = some call) : Attends due p xs q ↔
      ∃ time reply rest, xs = ⟨call, time, reply⟩ :: rest ∧ p.now ≤ time ∧
        Attends due (((p.setTime time).resumeErrand e reply).1.setErrand due
          ((p.setTime time).resumeErrand e reply).2) rest q := by
  have hresume (time : Duration) (reply : Reply) : (p.setTime time).resumeChecker reply =
      ((p.setTime time).resumeErrand e reply).1.setErrand due
        ((p.setTime time).resumeErrand e reply).2 := by
    have hsame : (p.setTime time).checker = .working due e := hchecker
    simp only [resumeChecker, hsame, hcall]
  constructor
  · intro hattends
    cases hattends with
    | done hwaiting => cases hchecker.symm.trans hwaiting
    | decides hworking hcall' =>
      cases hchecker.symm.trans hworking
      cases hcall.symm.trans hcall'
    | @asks _ _ x rest _ hworking hcall' htime hrest =>
      cases hchecker.symm.trans hworking
      obtain ⟨_, time, reply⟩ := x
      cases hcall.symm.trans hcall'
      exact ⟨time, reply, rest, rfl, htime, hresume time reply ▸ hrest⟩
  · rintro ⟨time, reply, rest, rfl, htime, hrest⟩
    exact .asks hchecker hcall htime (hresume time reply ▸ hrest)

theorem exists_setErrand_attending (p : Pool) (due : Duration) (w w' : Progress Errand Unit)
    (journal : List Entry) : ∃ journal',
    (p.attending due w journal).setErrand due w' = p.attending due w' journal' := by
  obtain ⟨journal', heq⟩ := exists_setErrand_eq (p.attending due w journal) due w'
  exact ⟨journal', heq⟩

end Attends

section Check

variable {p q : Pool} {due : Duration} {xs : List Exchange} {i : Nat} {journal : List Entry}

theorem resumeErrand_checking (p : Pool) (i : Nat) (c : Check) (reply : Reply) :
    p.resumeErrand (.sweep (.checking i c)) reply =
      ((p.resumeCheck c reply).1, checkingAt i (p.resumeCheck c reply).2) := by
  simp only [resumeErrand, Errand.inspection, resumeInspection]
  rcases p.resumeCheck c reply with ⟨r, c' | healthy⟩ <;> rfl

/-- A check that waits goes on with the reply to its call. -/
theorem exists_of_attends_checking {c : Check}
    (hattends : Attends due (p.attending due (.waits (.sweep (.checking i c))) journal) xs q) :
    ∃ time reply rest journal', xs = ⟨c.call, time, reply⟩ :: rest ∧ p.now ≤ time ∧
      Attends due ((p.setTime time).attending due (checkingAt i (p.resumeCheck c reply).2) journal')
        rest q := by
  obtain ⟨time, reply, rest, rfl, htime, hrest⟩ := (attends_asks_iff rfl rfl).mp hattends
  refine ⟨time, reply, rest, ?_⟩
  have hcheck : ∃ journal₁, ((p.attending due (.waits (.sweep (.checking i c))) journal).setTime
      time).resumeCheck c reply = ((p.setTime time).attending due
        (.waits (.sweep (.checking i c))) journal₁, (p.resumeCheck c reply).2) := by
    obtain ⟨address, attempt, checking⟩ := c
    cases checking with
    | dialing => cases reply <;> exact ⟨_, rfl⟩
    | validating => cases reply <;> exact ⟨_, rfl⟩
    | closing failure => cases failure <;> cases reply <;> exact ⟨_, rfl⟩
  obtain ⟨journal₁, hcheck⟩ := hcheck
  obtain ⟨journal', hset⟩ := exists_setErrand_attending (p.setTime time) due
    (.waits (.sweep (.checking i c))) (checkingAt i (p.resumeCheck c reply).2) journal₁
  rw [resumeErrand_checking, hcheck] at hrest
  exact ⟨journal', rfl, htime, hset ▸ hrest⟩

private theorem snd_resumeCheck_closing (p : Pool) (address : String) (attempt : Nat)
    (e : PoolError)
    (reply : Reply) : (p.resumeCheck ⟨address, attempt, .closing (some e)⟩ reply).2 =
      p.nextAttempt address attempt := by
  cases reply <;> rfl

/-- A check comes to its verdict, which is what remains. -/
theorem exists_checks {address : String} {attempt left : Nat}
    (hleft : attempt + left = p.config.healthCheckAttempts)
    (hattends : Attends due
      (p.attending due (checkingAt i (p.nextAttempt address attempt)) journal) xs q) :
    ∃ ys zs healthy later journal', xs = ys ++ zs ∧
      Checks address p.now left ys healthy later ∧
      Attends due ((p.setTime later).attending due
        (.waits (.sweep (.judging (.deciding i healthy)))) journal') zs q := by
  induction left generalizing p attempt journal xs with
  | zero =>
    have hnext : p.nextAttempt address attempt = .done false := if_neg (by omega)
    rw [hnext] at hattends
    exact ⟨[], xs, false, p.now, journal, rfl, .exhausted _, hattends⟩
  | succ left ih =>
    have hnext : p.nextAttempt address attempt = .waits ⟨address, attempt + 1, .dialing⟩ :=
      if_pos (by omega)
    rw [hnext] at hattends
    obtain ⟨dialed, reply, xs, journal₁, rfl, hdialed, hattends⟩ :=
      exists_of_attends_checking hattends
    cases reply with
    | error e =>
      have hleft' : attempt + 1 + left = (p.setTime dialed).config.healthCheckAttempts := by
        simp only [setTime]
        omega
      obtain ⟨ys, zs, healthy, later, journal', rfl, hchecks, hrest⟩ := ih hleft' hattends
      exact ⟨_, zs, healthy, later, journal', rfl, .unreachable hdialed hchecks, hrest⟩
    | ok =>
      obtain ⟨validated, reply, xs, journal₂, rfl, hvalidated, hattends⟩ :=
        exists_of_attends_checking hattends
      cases reply with
      | error e =>
        obtain ⟨closed, reply, xs, journal₃, rfl, hclosed, hattends⟩ :=
          exists_of_attends_checking hattends
        rw [snd_resumeCheck_closing] at hattends
        have hleft' : attempt + 1 + left = (p.setTime closed).config.healthCheckAttempts := by
          simp only [setTime]
          omega
        obtain ⟨ys, zs, healthy, later, journal', rfl, hchecks, hrest⟩ := ih hleft' hattends
        exact ⟨_, zs, healthy, later, journal', rfl,
          .invalid hdialed hvalidated hclosed hchecks, hrest⟩
      | ok =>
        obtain ⟨closed, reply, xs, journal₃, rfl, hclosed, hattends⟩ :=
          exists_of_attends_checking hattends
        exact ⟨_, xs, true, closed, journal₃, rfl, .valid hdialed hvalidated hclosed, hattends⟩

end Check

section Verdict

variable {p q : Pool} {due : Duration} {w : Progress Errand Unit} {xs : List Exchange} {i : Nat}
  {journal : List Entry} {healthy : Bool}

theorem modifyShard_eq_set (hi : i < p.shards.length) (f : Shard → Shard) :
    p.modifyShard i f = { p with shards := p.shards.set i (f (p.shard i)) } := by
  conv_lhs => rw [← recast_self hi]
  exact modifyShard_recast f

/-- The pool at the time `later` when all idle connections of shard `i` have been closed. -/
def drained (p : Pool) (i : Nat) (later : Duration) : Pool :=
  { p with shards := p.shards.set i (p.shard i).drained, now := later }

/-- A sweep with a verdict on shard `i` that stands as given. -/
def judgingAt (i : Nat) : Pool × Progress Verdict Bool → Pool × Progress Errand Unit
  | (p, .waits v) => (p, .waits (.sweep (.judging v)))
  | (p, .done _) => (p, p.sweepFrom (i + 1))

theorem resumeErrand_judging (p : Pool) (v : Verdict) (reply : Reply) :
    p.resumeErrand (.sweep (.judging v)) reply = judgingAt v.shard (p.resumeVerdict v reply) := by
  simp only [resumeErrand, Errand.inspection, resumeInspection]
  rcases p.resumeVerdict v reply with ⟨r, v' | flipped⟩ <;> rfl

private theorem drained_of_idle_eq_nil (hi : i < p.shards.length) (hidle : (p.shard i).idle = []) :
    p.drained i p.now = p := by
  rw [drained, Shard.drained_of_idle_eq_nil hidle, shard_eq_getElem hi, List.set_getElem_self]

/-- One connection after the other is taken from the queue and closed. -/
def dropClosed (p : Pool) (i : Nat) : Pool := (p.dropIdle i).count i Tally.countClose

theorem shard_dropClosed (hi : i < p.shards.length) : (p.dropClosed i).shard i =
    ({ p.shard i with idle := (p.shard i).idle.tail } : Shard).count Tally.countClose := by
  have hlen : i < (p.dropIdle i).shards.length := by rwa [length_shards_dropIdle]
  rw [dropClosed, Pool.count, shard_modifyShard_self hlen, dropIdle, shard_modifyShard_self hi]

private theorem drained_of_idle_eq_cons (hi : i < p.shards.length) {c : ConnId} {rest : List ConnId}
    (hidle : (p.shard i).idle = c :: rest) (time later : Duration) :
    ((p.dropClosed i).setTime time).drained i later = p.drained i later := by
  have hlen : i < (p.dropIdle i).shards.length := by rwa [length_shards_dropIdle]
  have hshard : ((p.dropClosed i).shard i).drained = (p.shard i).drained := by
    rw [shard_dropClosed hi]
    simp only [Shard.drained, Shard.count, Tally.countClose, hidle, List.tail_cons,
      List.length_cons, Nat.add_comm rest.length, Nat.add_assoc]
  change ({ p.dropClosed i with
    shards := (p.dropClosed i).shards.set i ((p.dropClosed i).shard i).drained
    now := later } : Pool) = _
  rw [hshard, dropClosed, Pool.count, modifyShard_eq_set hlen, dropIdle, modifyShard_eq_set hi]
  simp only [List.set_set, drained]

/-- The drain of a demoted shard closes what is in its queue, in order. -/
theorem exists_closesAll (journal : List Entry) (hi : i < p.shards.length) {n : Nat}
    (hattends : Attends due
      ((judgingAt i ((p.attending due w journal).drain i n)).1.setErrand due
        (judgingAt i ((p.attending due w journal).drain i n)).2) xs q) :
    ∃ ys zs later journal', xs = ys ++ zs ∧ ClosesAll p.now (p.shard i).idle ys later ∧
      Attends due ((p.drained i later).attending due ((p.drained i later).sweepFrom (i + 1)) journal')
        zs q := by
  generalize hidle : (p.shard i).idle = idle
  induction idle generalizing p w journal n xs with
  | nil =>
    have hsame : ((p.attending due w journal).shard i).idle = [] := hidle
    simp only [drain, hsame, judgingAt] at hattends
    obtain ⟨journal', hset⟩ := exists_setErrand_attending p due w (p.sweepFrom (i + 1))
      (.event (.drained ((p.attending due w journal).shard i).address n) :: journal)
    refine ⟨[], xs, p.now, journal', rfl, .nil _, ?_⟩
    rw [drained_of_idle_eq_nil hi hidle, ← hset]
    exact hattends
  | cons c rest ih =>
    have hsame : ((p.attending due w journal).shard i).idle = c :: rest := hidle
    simp only [drain, hsame, judgingAt] at hattends
    let r : Pool := p.dropClosed i
    obtain ⟨journal₁, hset⟩ := exists_setErrand_attending r due w
      (.waits (.sweep (.judging (.draining i c n)))) journal
    have hattends : Attends due (r.attending due _ journal₁) xs q := hset ▸ hattends
    obtain ⟨time, reply, xs, rfl, htime, hattends⟩ := (attends_asks_iff rfl rfl).mp hattends
    rw [resumeErrand_judging] at hattends
    have hnote : ∃ journal₂, ((r.attending due (.waits (.sweep (.judging (.draining i c n))))
        journal₁).setTime time).noteIdleClose i reply = (r.setTime time).attending due
          (.waits (.sweep (.judging (.draining i c n)))) journal₂ := by
      cases reply <;> exact ⟨_, rfl⟩
    obtain ⟨journal₂, hnote⟩ := hnote
    simp only [resumeVerdict, Verdict.shard, hnote] at hattends
    have hlen : i < (r.setTime time).shards.length := by
      simpa [r, setTime, dropClosed] using hi
    have hrest : (r.shard i).idle = rest := by
      rw [shard_dropClosed hi, Shard.idle_count, hidle, List.tail_cons]
    obtain ⟨ys, zs, later, journal', rfl, hcloses, hattends⟩ := ih _ hlen hattends hrest
    rw [drained_of_idle_eq_cons hi hidle] at hattends
    exact ⟨_, zs, later, journal', rfl, .cons htime hcloses, hattends⟩

private theorem resumeVerdict_of_eq (havailable : (p.shard i).available = healthy) (reply : Reply) :
    p.resumeVerdict (.deciding i healthy) reply = (p, .done false) := by
  cases healthy with
  | true => exact if_pos havailable
  | false => simp [resumeVerdict, demote, havailable]

/-- A change of the flag of shard `i`, which leaves so many shards in service. -/
def flag (p : Pool) (i numAvailable : Nat) (available : Bool) : Pool :=
  { p with numAvailable, shards := p.shards.set i { p.shard i with available } }

theorem resumeVerdict_promotes (hi : i < p.shards.length)
    (havailable : (p.shard i).available = false) (reply : Reply) : ∃ e,
    p.resumeVerdict (.deciding i true) reply =
      ((p.flag i (p.numAvailable + 1) true).note e, .done true) := by
  have hflag := modifyShard_eq_set (p := { p with numAvailable := p.numAvailable + 1 }) hi
    fun s => { s with available := true }
  simp only [resumeVerdict, promote, havailable, Bool.false_eq_true, if_false, hflag]
  exact ⟨_, rfl⟩

theorem resumeVerdict_refuses (havailable : (p.shard i).available = true)
    (hquorum : p.config.quorum.permitsDemotion p.numAvailable p.shards.length = false)
    (reply : Reply) : ∃ e, p.resumeVerdict (.deciding i false) reply = (p.note e, .done false) := by
  simp only [resumeVerdict, demote, havailable, hquorum, Bool.not_true, Bool.not_false,
    Bool.false_eq_true, if_false, if_true]
  exact ⟨_, rfl⟩

theorem resumeVerdict_demotes (hi : i < p.shards.length)
    (havailable : (p.shard i).available = true)
    (hquorum : p.config.quorum.permitsDemotion p.numAvailable p.shards.length = true)
    (reply : Reply) : ∃ e, p.resumeVerdict (.deciding i false) reply =
      ((p.flag i (p.numAvailable - 1) false).note e).drain i 0 := by
  have hflag := modifyShard_eq_set (p := { p with numAvailable := p.numAvailable - 1 }) hi
    fun s => { s with available := false }
  simp only [resumeVerdict, demote, havailable, hquorum, Bool.not_true, Bool.false_eq_true,
    if_false, hflag]
  exact ⟨_, rfl⟩

private theorem shard_flag (hi : i < p.shards.length) (n : Nat) (available : Bool) :
    (p.flag i n available).shard i = { p.shard i with available } := by
  simp [shard, flag, List.getD_eq_getElem?_getD, hi]

/-- A verdict is applied, and then the sweep goes on. -/
theorem exists_applies (hi : i < p.shards.length)
    (hattends : Attends due
      (p.attending due (.waits (.sweep (.judging (.deciding i healthy)))) journal) xs q) :
    ∃ ys zs r journal', xs = ys ++ zs ∧ p.Applies i healthy ys r ∧
      Attends due (r.attending due (r.sweepFrom (i + 1)) journal') zs q := by
  have hattends := (attends_decides_iff rfl rfl).mp hattends
  rw [resumeErrand_judging, Verdict.shard] at hattends
  generalize Progress.waits (Errand.sweep (.judging (.deciding i healthy))) = v at hattends
  -- A verdict that is applied in one step leaves the sweep to go on.
  have hgoes {r : Pool} {journal₁ : List Entry} {flipped : Bool} (happlies : p.Applies i healthy [] r)
      (hhere : (p.attending due v journal).resumeVerdict (.deciding i healthy) (.ok ()) =
        (r.attending due v journal₁, .done flipped)) :
      ∃ ys zs r journal', xs = ys ++ zs ∧ p.Applies i healthy ys r ∧
        Attends due (r.attending due (r.sweepFrom (i + 1)) journal') zs q := by
    obtain ⟨journal', hset⟩ := exists_setErrand_attending r due v (r.sweepFrom (i + 1)) journal₁
    rw [hhere] at hattends
    exact ⟨[], xs, r, journal', rfl, happlies, hset ▸ hattends⟩
  by_cases havailable : (p.shard i).available = healthy
  · exact hgoes (.kept havailable) (resumeVerdict_of_eq (p := p.attending due v journal) havailable _)
  cases healthy with
  | true =>
    rw [Bool.not_eq_true] at havailable
    obtain ⟨e, hpromotes⟩ := resumeVerdict_promotes (p := p.attending due v journal) hi havailable
      (.ok ())
    exact hgoes (.promoted havailable) hpromotes
  | false =>
    rw [Bool.not_eq_false] at havailable
    cases hquorum : p.config.quorum.permitsDemotion p.numAvailable p.shards.length with
    | false =>
      obtain ⟨e, hrefuses⟩ := resumeVerdict_refuses (p := p.attending due v journal) havailable
        hquorum (.ok ())
      exact hgoes (.refused havailable hquorum) hrefuses
    | true =>
      obtain ⟨e, hdemotes⟩ := resumeVerdict_demotes (p := p.attending due v journal) hi havailable
        hquorum (.ok ())
      rw [hdemotes] at hattends
      let r : Pool := p.flag i (p.numAvailable - 1) false
      have hlen : i < r.shards.length := by simpa [r, flag] using hi
      have hshard : r.shard i = { p.shard i with available := false } := shard_flag hi _ _
      obtain ⟨ys, zs, later, journal', rfl, hcloses, hattends⟩ :=
        exists_closesAll (w := v) (.event e :: journal) hlen hattends
      rw [hshard] at hcloses
      have happlies := Applies.demoted havailable hquorum hcloses
      have hdrained : r.drained i later = { p with
          numAvailable := p.numAvailable - 1
          shards := p.shards.set i { (p.shard i).drained with available := false }
          now := later } := by
        rw [drained, hshard]
        simp [r, flag, Shard.drained]
      rw [hdrained] at hattends
      exact ⟨ys, zs, _, journal', rfl, happlies, hattends⟩

end Verdict

section Sweep

variable {p q : Pool} {due : Duration} {xs : List Exchange} {i j : Nat} {journal : List Entry}

theorem nextToSweep_eq_some_iff : p.nextToSweep i = some j ↔
    i ≤ j ∧ j < p.shards.length ∧ p.needsCheck (p.shard j) = true ∧
      ∀ k, i ≤ k → k < j → p.needsCheck (p.shard k) = false := by
  have hshard (k : Nat) (hk : i + k < p.shards.length) : p.shards[i + k] = p.shard (i + k) :=
    (shard_eq_getElem hk).symm
  simp only [nextToSweep, Option.map_eq_some_iff, List.findIdx?_eq_some_iff_getElem,
    List.length_drop, List.getElem_drop]
  constructor
  · rintro ⟨k, ⟨hk, hneeds, hbefore⟩, rfl⟩
    have hlt : i + k < p.shards.length := by omega
    refine ⟨Nat.le_add_right i k, hlt, hshard k hlt ▸ hneeds, fun l hil hlt' => ?_⟩
    obtain ⟨m, rfl⟩ := Nat.exists_eq_add_of_le hil
    have hnot := hbefore m (by omega)
    rw [hshard m (by omega)] at hnot
    simpa using hnot
  · rintro ⟨hij, hlt, hneeds, hbefore⟩
    obtain ⟨k, rfl⟩ := Nat.exists_eq_add_of_le hij
    refine ⟨k, ⟨by omega, (hshard k hlt).symm ▸ hneeds, fun m hm => ?_⟩, rfl⟩
    rw [hshard m (by omega), hbefore (i + m) (by omega) (by omega)]
    exact Bool.false_ne_true

theorem nextToSweep_eq_none_iff : p.nextToSweep i = none ↔
    ∀ k, i ≤ k → k < p.shards.length → p.needsCheck (p.shard k) = false := by
  simp only [nextToSweep, Option.map_eq_none_iff, List.findIdx?_eq_none_iff]
  constructor
  · intro hnone k hik hk
    apply hnone
    rw [shard_eq_getElem hk, List.mem_drop_iff_getElem]
    exact ⟨k - i, by omega, by simp [Nat.add_sub_cancel' hik]⟩
  · intro hnone s hs
    obtain ⟨k, hk, rfl⟩ := List.mem_drop_iff_getElem.mp hs
    have hlt : i + k < p.shards.length := by omega
    rw [← shard_eq_getElem hlt]
    exact hnone _ (Nat.le_add_right i k) hlt

theorem sweep_inspect (p : Pool) (i : Nat) :
    Progress.waits (Errand.sweep (p.inspect i)) = checkingAt i (p.check (p.shard i).address) := by
  unfold inspect
  cases p.check (p.shard i).address <;> rfl

/-- What no verdict touches. -/
theorem Applies.fixed {healthy : Bool} (happlies : p.Applies i healthy xs q) :
    q.config = p.config ∧ q.checker = p.checker ∧ q.journal = p.journal ∧
      q.shards.length = p.shards.length := by
  cases happlies with
  | kept | refused => exact ⟨rfl, rfl, rfl, rfl⟩
  | promoted | demoted => exact ⟨rfl, rfl, rfl, List.length_set⟩

/-- A sweep visits one shard after the other. -/
theorem exists_proceeds (hattends : Attends due (p.attending due (p.sweepFrom i) journal) xs q) :
    ∃ vs, p.Proceeds i vs { q with checker := p.checker, journal := p.journal } ∧
      xs = vs.flatMap Inspected.exchanges := by
  induction hleft : p.shards.length - i using Nat.strong_induction_on
    generalizing p i journal xs with
  | h left ih =>
    cases hnext : p.nextToSweep i with
    | none =>
      have hsweep : p.sweepFrom i = .done () := by rw [sweepFrom, hnext]
      rw [hsweep] at hattends
      obtain ⟨rfl, rfl⟩ := (attends_done_iff rfl).mp hattends
      exact ⟨[], .done hnext, rfl⟩
    | some j =>
      have hsweep : p.sweepFrom i = checkingAt j (p.check (p.shard j).address) := by
        rw [← sweep_inspect, sweepFrom, hnext]
      obtain ⟨hij, hj, -⟩ := nextToSweep_eq_some_iff.mp hnext
      rw [hsweep] at hattends
      obtain ⟨check, ys, healthy, later, journal₁, rfl, hchecks, hattends⟩ :=
        exists_checks (Nat.zero_add _) hattends
      obtain ⟨drain, zs, r, journal₂, rfl, happlies, hattends⟩ :=
        exists_applies (p := p.setTime later) hj hattends
      obtain ⟨-, hchecker, hjournal, hlen⟩ := happlies.fixed
      have hlen : r.shards.length = p.shards.length := hlen
      obtain ⟨vs, hproceeds, rfl⟩ := ih (r.shards.length - (j + 1)) (by omega) hattends rfl
      rw [hchecker, hjournal] at hproceeds
      refine ⟨⟨j, check, healthy, drain⟩ :: vs, .visits hnext hchecks happlies hproceeds, ?_⟩
      rw [List.flatMap_cons, Inspected.exchanges, List.append_assoc]

/-- A step of an errand leaves less of it, in no time. -/
theorem left_of_working {e : Errand} (hchecker : p.checker = .working due e) (reply : Reply)
    (hq : q = (p.resumeErrand e reply).1.setErrand due (p.resumeErrand e reply).2) :
    (∃ w, q.checker = .standing due w) ∧ q.now = p.now ∧ q.left < p.left := by
  have hleft := left_resumeErrand p e reply
  have hdoes := Does.resumeErrand p e reply
  have hset := left_setErrand (p.resumeErrand e reply).1 due (p.resumeErrand e reply).2
  obtain ⟨journal, heq⟩ := exists_setErrand_eq (p.resumeErrand e reply).1 due
    (p.resumeErrand e reply).2
  rw [← hq] at hset heq
  rw [hdoes.config, hdoes.length] at hset
  refine ⟨⟨_, congrArg checker heq⟩, (congrArg Pool.now heq).trans hdoes.now, ?_⟩
  rw [hset, left, hchecker, Checker.left]
  omega

/-- On every factory, an errand comes to its end. -/
theorem exists_attends (f : Factory) (past : List Exchange) {w : Progress Errand Unit}
    (hchecker : p.checker = .standing due w) :
    ∃ xs q, Attends due p xs q ∧ f.Makes past p.now xs := by
  induction hn : p.left using Nat.strong_induction_on generalizing p past w with
  | h n ih =>
    cases w with
    | done _ => exact ⟨[], p, .done hchecker, trivial⟩
    | waits e =>
      cases hcall : e.inspection.call? with
      | none =>
        obtain ⟨⟨w, hstands⟩, hnow, hlt⟩ := left_of_working hchecker (.ok ()) rfl
        obtain ⟨xs, q, hattends, hmakes⟩ := ih _ (hn ▸ hlt) past hstands rfl
        rw [hnow] at hmakes
        exact ⟨xs, q, (attends_decides_iff hchecker hcall).mpr hattends, hmakes⟩
      | some call =>
        let x : Exchange := ⟨call, p.now + (f past call).1, (f past call).2⟩
        have htime : p.now ≤ x.time := Nat.le_add_right _ _
        obtain ⟨⟨w, hstands⟩, hnow, hlt⟩ :=
          left_of_working (p := p.setTime x.time) hchecker x.reply rfl
        obtain ⟨xs, q, hattends, hmakes⟩ := ih _ (hn ▸ hlt) (past ++ [x]) hstands rfl
        rw [hnow] at hmakes
        exact ⟨x :: xs, q, (attends_asks_iff hchecker hcall).mpr ⟨_, _, _, rfl, htime, hattends⟩,
          rfl, rfl, hmakes⟩

end Sweep

end Pool

end QuorumPool
