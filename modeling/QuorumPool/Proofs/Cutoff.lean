import QuorumPool.Proofs.Reuse

namespace QuorumPool.Pool

variable {p q : Pool} {i k n : Nat} {c : ConnId} {config : Config}

/-- The action takes the shard out of service. -/
def Withdraws (p : Pool) (a : Action) (i : Nat) : Prop :=
  (p.shard i).available = true ∧ ((p.act a).shard i).available = false

/-- The shard is out of service, and no get of those that have the name `first` or a later one waits
there. -/
structure Sealed (p : Pool) (i : Nat) (first : TaskId) : Prop where
  out : (p.shard i).available = false
  gets : ∀ id g, (id, .get g) ∈ p.tasks → first ≤ id → p.visited g.start g.attempt ≠ i

section Sealed

theorem available_of_visits {start : Nat} {w : Pool × Progress Getting (Except PoolError ConnId)}
    {g : Getting} (hvisits : p.Visits start w) (hw : w.2 = .waits g) :
    (p.shard (p.visited g.start g.attempt)).available = true := by
  cases hvisits with
  | exhausted | lends => cases hw
  | waits _ hi _ =>
    obtain rfl := Progress.waits.inj hw
    exact hi

private theorem available_of_get {g : Getting} (hget : p.get.2 = .waits g) :
    (p.shard (p.visited g.start g.attempt)).available = true := by
  unfold get at hget
  split at hget
  · cases hget
  · exact available_of_visits ((visits p.rotate _ _ _).after .rotate) hget

/-- A get goes on where it waits, or at a shard in service. -/
theorem available_of_resumeGet {g g' : Getting} {reply : Reply}
    (hresume : (p.resumeGet g reply).2 = .waits g') :
    p.visited g'.start g'.attempt = p.visited g.start g.attempt ∨
      (p.shard (p.visited g'.start g'.attempt)).available = true := by
  unfold resumeGet at hresume
  dsimp only at hresume
  split at hresume
  · obtain rfl := Progress.waits.inj hresume
    exact .inl rfl
  · cases hresume
  · rename_i q e heq
    have hpeer : p.Peer (q.passOver (p.visited g.start g.attempt) g.attempt e) :=
      (resumeBorrow_eq_error heq).trans (Twin.passOver ..).peer
    have havailable := available_of_visits (visits _ _ _ _) hresume
    rw [hpeer.available, visited, hpeer.length] at havailable
    exact .inr havailable

theorem Sealed.act {first : TaskId} (hp : p.Sealed i first) (hwf : p.WellFormed) {a : Action}
    (hadmits : p.Admits a) (hout : ((p.act a).shard i).available = false) :
    (p.act a).Sealed i first := by
  refine ⟨hout, fun id g hg hid => ?_⟩
  have hvisited : (p.act a).visited g.start g.attempt = p.visited g.start g.attempt := by
    rw [visited, (fixed_act hadmits hwf).2, visited]
  have hserved (havailable : (p.shard (p.visited g.start g.attempt)).available = true) :
      p.visited g.start g.attempt ≠ i := by
    rintro rfl
    rw [hp.out] at havailable
    cases havailable
  rw [hvisited]
  obtain ⟨-, hold⟩ | ⟨reply, u, rfl, hu, hadvance⟩ | ⟨rfl, request, rfl, hbegin⟩ :=
    mem_tasks_act hwf hg
  · exact hp.gets id g hold hid
  · obtain ⟨g', rfl, hresume⟩ := advance_eq_waits_get hadvance
    obtain hsame | havailable := available_of_resumeGet hresume
    · exact hsame ▸ hp.gets id g' hu hid
    · exact hserved havailable
  · exact hserved (available_of_get (begin_eq_waits_get hbegin).2)

theorem Sealed.after {first : TaskId} (hp : p.Sealed i first) (hwf : p.WellFormed)
    {as : List Action} (hruns : p.Runs as)
    (hout : ∀ bs, bs <+: as → ((p.after bs).shard i).available = false) :
    (p.after as).Sealed i first := by
  induction as generalizing p with
  | nil => exact hp
  | cons a as ih =>
    obtain ⟨hadmits, hruns⟩ := hruns
    have hact := hp.act hwf hadmits (hout [a] (by simp))
    refine ih hact (hwf.act a) hruns fun bs hbs => ?_
    exact hout (a :: bs) (by simpa using hbs)

/-- No connection of a shard that is sealed off is lent to a later get. -/
theorem Sealed.home_ne {first : TaskId} (hp : p.Sealed i first) (hwf : p.WellFormed)
    (hconserved : p.Conserved .free p.held) {a : Action}
    (ha : ∀ id reply, a = .resume id reply → first ≤ id)
    (hanswer : p.answer? a = some (.lent c)) : (p.act a).home c ≠ some i := by
  have hlends := lends?_eq_some_iff.mpr hanswer
  obtain ⟨j, hreaches, hhome⟩ := (lends_act hwf hconserved (isPut_of_lends hlends)).home c hlends
  rw [hhome]
  intro hji
  obtain rfl := Option.some.inj hji
  obtain havailable | ⟨id, reply, g, rfl, hg, hvisited⟩ := hreaches
  · rw [hp.out] at havailable
    cases havailable
  · exact hp.gets id g hg (ha id reply rfl) hvisited

/-- A get is answered a connection of a shard only if the shard is in service at some time from its
start on, and the connection not closed by then. -/
theorem exists_available_of_serves (hwf : p.WellFormed) (hp : p.Conserved .free p.held)
    {as : List Action} (hruns : p.Runs as) (hserves : p.Serves .get as (.lent c))
    (hhome : (p.after as).home c = some i) :
    ∃ bs cs, as = bs ++ cs ∧ cs ≠ [] ∧ ((p.after bs).shard i).available = true ∧
      ¬(p.after bs).At c .closed := by
  have hlent := isLent_of_serves hwf hp hruns hserves
  have hopen : ∀ bs cs, as = bs ++ cs → ¬(p.after bs).At c .closed := by
    rintro bs cs rfl hclosed
    obtain ⟨hbefore, hmore⟩ := runs_append.mp hruns
    have hcalls : 0 < (p.after bs).closeCalls c := by
      rw [hclosed.2.2.2]
      exact Nat.one_pos
    have hlater := invariant_conserved.after hbefore hwf hp
    rw [after_append, (hlater.closed_after (hwf.after bs) hcalls hmore).1] at hlent
    cases hlent
  obtain ⟨bs, b, rfl, hanswer, hname⟩ := hserves.exists_last
  obtain ⟨hbefore, -⟩ := runs_append.mp hruns
  by_contra hnever
  have hout : ∀ ds, ds <+: bs → ((p.after ds).shard i).available = false := by
    rintro ds ⟨es, rfl⟩
    rw [← Bool.not_eq_true]
    exact fun havailable => hnever ⟨ds, es ++ [b], List.append_assoc .., by simp, havailable,
      hopen _ _ (List.append_assoc ..)⟩
  have hsealed : p.Sealed i p.nextTask := by
    refine ⟨hout [] List.nil_prefix, fun id g hg hid => ?_⟩
    exact absurd (hwf.fresh _ hg) (Nat.not_lt.mpr hid)
  have hlater := (hsealed.after hwf hbefore hout).home_ne (hwf.after bs)
    (invariant_conserved.after hbefore hwf hp) (a := b) ?_ hanswer
  · rw [after_append] at hhome
    exact hlater hhome
  · exact fun id reply hb => Nat.le_of_eq (start_eq_waits hwf (hname id reply hb)).symm

end Sealed

section Reinstated

theorem available_of_flips (hflips : p.flips i false = true) : (p.shard i).available = true := by
  simp only [flips, Bool.false_eq_true, if_false, Bool.and_eq_true] at hflips
  exact hflips.1

private theorem modifyShard_reinstate (hi : i < p.shards.length)
    (havailable : (p.shard i).available = true) :
    (p.modifyShard i fun s => { s with available := false }).modifyShard i
      (fun s => { s with available := true }) = p :=
  modifyShard_modifyShard hi (by rw [← havailable])

/-- The second step of a verdict that demotes a shard takes it out of service. -/
theorem withdraws_of_flips (hwf : p.WellFormed) (hi : i < p.shards.length)
    (hidle : (p.shard i).idle = []) (hflips : p.flips i false = true) :
    (p.start (.mark i false)).1.Withdraws (.resume p.nextTask (.ok ())) i := by
  have hstart : (p.start (.mark i false)).1.shards = p.shards := by rw [start_mark hi]
  obtain ⟨-, journal, hout⟩ := exists_run_mark hwf hi (fun _ => hidle) hflips
  refine ⟨by rw [shard, hstart, ← shard, available_of_flips hflips], ?_⟩
  change ((p.after [.start (.mark i false), .resume p.nextTask (.ok ())]).shard i).available = _
  rw [hout]
  exact congrArg Shard.available (shard_modifyShard_self hi)

/-- A shard that has nothing idle is taken out of service and put back, and nothing else changes. -/
theorem exists_run_reinstate (hwf : p.WellFormed) (hi : i < p.shards.length)
    (hidle : (p.shard i).idle = []) (hflips : p.flips i false = true) :
    ∃ as a bs, p.Runs (as ++ a :: bs) ∧ (p.after as).Withdraws a i ∧
      (p.after as).conns = p.conns ∧ ∃ numAvailable nextTask journal,
        p.after (as ++ a :: bs) = { p with numAvailable, nextTask, journal } := by
  have hwithdraws := withdraws_of_flips hwf hi hidle hflips
  have hconns : (p.start (.mark i false)).1.conns = p.conns := conns_start _
  obtain ⟨hdown, journal, hout⟩ := exists_run_mark hwf hi (fun _ => hidle) hflips
  have hwfq := hwf.after [.start (.mark i false), .resume p.nextTask (.ok ())]
  obtain ⟨q, hq⟩ : ∃ q, p.after [.start (.mark i false), .resume p.nextTask (.ok ())] = q :=
    ⟨_, rfl⟩
  rw [hq] at hwfq hout
  have hshard : q.shard i = { p.shard i with available := false } := by
    rw [hout]
    exact shard_modifyShard_self hi
  have hlen : q.shards.length = p.shards.length := by
    rw [hout]
    exact length_shards_modifyShard
  obtain ⟨hup, journal', hback⟩ := exists_run_mark hwfq (hlen ▸ hi) (by simp)
    (show q.flips i true = true by simp [flips, hshard])
  have hrestored : (q.modifyShard i fun s => { s with available := true }).shards = p.shards := by
    have hundone := congrArg shards (modifyShard_reinstate hi (available_of_flips hflips))
    rw [hout]
    exact hundone
  refine ⟨[.start (.mark i false)], .resume p.nextTask (.ok ()),
    [.start (.mark i true), .resume q.nextTask (.ok ())], ⟨hdown.1, hdown.2.1, hq ▸ hup⟩,
    hwithdraws, hconns, q.numAvailable + 1, q.nextTask + 1, journal', ?_⟩
  calc (p.after [.start (.mark i false), .resume p.nextTask (.ok ())]).after
        [.start (.mark i true), .resume q.nextTask (.ok ())]
      = { q with
          shards := (q.modifyShard i fun s => { s with available := true }).shards
          numAvailable := q.numAvailable + 1
          nextTask := q.nextTask + 1
          journal := journal' } := by rw [hq, hback]; rfl
    _ = _ := by rw [hrestored, hout]; rfl

theorem Laden.congr (hp : p.Laden config n k) {numAvailable nextTask : Nat} {journal : List Entry} :
    ({ p with numAvailable, nextTask, journal } : Pool).Laden config n k :=
  ⟨⟨hp.stands.config, hp.stands.length, hp.stands.opened, hp.stands.service, hp.stands.holds,
    hp.stands.tasks⟩, hp.rotation, hp.conns, hp.lent⟩

/-- Any shard may be taken out of service while all are in service, unless the quorum is all. -/
theorem Stands.flips {idle : Nat → List ConnId} {active : Nat → Nat} {tasks : List (TaskId × Task)}
    (hp : p.Stands config n idle active tasks) (haccounted : p.Accounted) (hi : i < n)
    (hquorum : config.quorum.numerator < config.quorum.denominator) : p.flips i false = true := by
  have hnum : p.numAvailable = n := by
    rw [haccounted.flags, ← hp.length]
    exact flagged_eq_length_iff.mpr fun j hj => (hp.service j (hp.length ▸ hj)).1
  simp only [Pool.flips, (hp.service i hi).1, Quorum.permitsDemotion, hnum, hp.length, hp.config]
  simpa using Nat.mul_lt_mul_of_pos_left hquorum (Nat.zero_lt_of_lt hi)

end Reinstated

section Create

variable {addresses : List String} {now : Duration}

/-- Demotions cut old connections off: none that a shard has dialed before it is taken out of
service is lent to a get that starts later. -/
def CutsOff (p : Pool) : Prop :=
  ∀ as a bs cs i c, p.Runs (as ++ a :: bs ++ cs) → (p.after as).Withdraws a i →
    (p.after as).home c = some i → ¬(p.after (as ++ a :: bs)).Serves .get cs (.lent c)

/-- Where no idle connection is kept, a get is lent what was dialed for it. -/
theorem cutsOff_of_maxIdle (hcreate : create config addresses now = .ok p)
    (hmax : config.maxIdle = 0) : p.CutsOff := by
  intro as a bs cs i c hruns _ hhome hserves
  obtain ⟨ds, b, rfl, hanswer, -⟩ := hserves.exists_last
  rw [← List.append_assoc] at hruns
  have hbefore : (p.after as).Runs (a :: bs ++ ds) :=
    (runs_append.mp (List.append_assoc .. ▸ (runs_append.mp hruns).1)).2
  have hextends := (invariant_extends (p.after as)).after hbefore
    ((WellFormed.of_create hcreate).after as) (.refl _)
  rw [← after_append] at hanswer
  have hfresh := length_le_of_lends hcreate hmax hruns (lends?_eq_some_iff.mpr hanswer)
  have hold := hextends.lt_length (lt_length_of_home hhome)
  rw [← after_append, ← List.append_assoc] at hold
  exact absurd hold (Nat.not_lt.mpr hfresh)

/-- Where the quorum is all shards, none is ever taken out of service. -/
theorem available_of_quorum (hcreate : create config addresses now = .ok p)
    (hquorum : config.quorum.numerator = config.quorum.denominator) {as : List Action}
    (hruns : p.Runs as) (hi : i < (p.after as).shards.length) :
    ((p.after as).shard i).available = true := by
  obtain ⟨hflags, hfloor⟩ := accounted_after hcreate hruns
  rw [(fixed_after hruns (.of_create hcreate)).1, (stands_of_create hcreate).config, hquorum]
    at hfloor
  have hlt : (p.after as).shards.length < (p.after as).numAvailable + 1 :=
    Nat.lt_of_mul_lt_mul_right hfloor
  have hle := flagged_le_length (p.after as)
  exact flagged_eq_length_iff.mp (by omega) i hi

theorem cutsOff_of_quorum (hcreate : create config addresses now = .ok p)
    (hquorum : config.quorum.numerator = config.quorum.denominator) : p.CutsOff := by
  intro as a bs cs i c hruns hwithdraws hhome _
  have hwf := WellFormed.of_create hcreate
  obtain ⟨conn, hconn, rfl⟩ := Option.map_eq_some_iff.mp hhome
  have hlt := (hwf.after as).conns conn (List.mem_of_getElem? hconn)
  rw [List.append_cons, List.append_assoc] at hruns
  obtain ⟨hacts, -⟩ := runs_append.mp hruns
  have hlen : (p.after (as ++ [a])).shards.length = (p.after as).shards.length := by
    rw [after_append]
    exact (fixed_after (runs_append.mp hacts).2 (hwf.after as)).2
  have hin := available_of_quorum hcreate hquorum hacts (hlen ▸ hlt)
  rw [after_append] at hin
  exact absurd hin (by simp [after, hwithdraws.2])

/-- A shard that is put back in service lends what was lent when it was taken out, once that comes
back. -/
theorem not_cutsOff (hcreate : create config addresses now = .ok p) (hmax : 0 < config.maxIdle)
    (hquorum : config.quorum.numerator < config.quorum.denominator) : ¬p.CutsOff := by
  have hwf := WellFormed.of_create hcreate
  have hn : 0 < addresses.length := List.length_pos_of_ne_nil (eq_of_create hcreate).2.1
  obtain ⟨as, hruns, -, hladen⟩ :=
    (laden_of_create hcreate).exists_run hwf (Nat.le_refl addresses.length)
  have hstands := hladen.stands
  have hflips := hstands.flips (accounted_after hcreate hruns) hn hquorum
  obtain ⟨bs, a, cs, hmark, hwithdraws, hconns, numAvailable, nextTask, journal, hback⟩ :=
    exists_run_reinstate (hwf.after as) (by rwa [hstands.length])
      (hstands.holds 0 hn).1 hflips
  have hladen' : ((p.after as).after (bs ++ a :: cs)).Laden config addresses.length
      addresses.length := by
    rw [hback]
    exact hladen.congr
  obtain ⟨ds, hmore, -, hserves⟩ := hladen'.exists_serves ((hwf.after as).after _) hn hmax
  intro hcuts
  obtain ⟨t, hconn⟩ := hladen.lent 0 hn
  refine hcuts (as ++ bs) a (cs ++ [.start (.put 0 false)]) ds 0 0 ?_ ?_ ?_ ?_
  · rw [show as ++ bs ++ a :: (cs ++ [.start (.put 0 false)]) ++ ds =
      as ++ ((bs ++ a :: cs) ++ .start (.put 0 false) :: ds) by simp]
    exact runs_append.mpr ⟨hruns, runs_append.mpr ⟨hmark, trivial, hmore⟩⟩
  · rwa [after_append]
  · rw [after_append, home, hconns, hconn, Option.map_some]
  · rw [show as ++ bs ++ a :: (cs ++ [.start (.put 0 false)]) =
      as ++ ((bs ++ a :: cs) ++ [.start (.put 0 false)]) by simp, after_append, after_append]
    exact hserves

/-- A get is lent a connection of a shard only if the shard is in service at some time in the course
of the get and has not closed the connection by then, and a connection that comes back to a shard
out of service is closed. That cuts the old connections off in all runs if and only if no idle
connection is kept or no shard may ever be taken out of service. Else a shard that is put back in
service takes what it had lent before and lends it again. -/
theorem demotion_cuts_off_iff (hcreate : create config addresses now = .ok p) :
    (∀ as bs i c, p.Runs (as ++ bs) → (p.after as).Serves .get bs (.lent c) →
      (p.after (as ++ bs)).home c = some i →
      ∃ ds es, bs = ds ++ es ∧ es ≠ [] ∧ ((p.after (as ++ ds)).shard i).available = true ∧
        ¬(p.after (as ++ ds)).At c .closed) ∧
    (∀ as c i broken, p.Runs as → (p.after as).home c = some i → (p.after as).isLent c = true →
      ((p.after as).shard i).available = false →
      (∃ id, ((p.after as).start (.put c broken)).2 = .waits id) ∧
        ∀ bs, p.Runs (as ++ .start (.put c broken) :: bs) →
          (p.after (as ++ .start (.put c broken) :: bs)).At c .closed) ∧
    (p.CutsOff ↔ config.maxIdle = 0 ∨ config.quorum.numerator = config.quorum.denominator) := by
  have hwf := WellFormed.of_create hcreate
  have hconserved : ∀ {cs}, p.Runs cs → (p.after cs).Conserved .free (p.after cs).held :=
    fun hcs => invariant_conserved.after hcs hwf (conserved_of_create hcreate)
  refine ⟨fun as bs i c hruns hserves hhome => ?_, fun as c i broken hruns hhome hlent hout => ?_,
    fun hcuts => ?_, fun hconfig => ?_⟩
  · obtain ⟨hbefore, hmore⟩ := runs_append.mp hruns
    rw [after_append] at hhome
    obtain ⟨ds, es, hsplit, hes, hin⟩ :=
      exists_available_of_serves (hwf.after as) (hconserved hbefore) hmore hserves hhome
    exact ⟨ds, es, hsplit, hes, by rwa [after_append]⟩
  · obtain ⟨conn, hconn, hborrowed⟩ := (Option.any_eq_true ..).mp hlent
    obtain rfl : conn.shard = i := by simpa [home, hconn] using hhome
    have hrefused : (broken || !((p.after as).shard conn.shard).acceptsIdle) = true := by
      simp [Shard.acceptsIdle, hout]
    obtain ⟨hwaits, hclosed⟩ :=
      (hconserved hruns).closed_of_put (hwf.after as) hconn hborrowed hrefused
    refine ⟨hwaits, fun bs hbs => ?_⟩
    rw [after_append]
    exact hclosed bs (runs_append.mp hbs).2.2
  · by_contra hconfig
    rw [not_or] at hconfig
    exact not_cutsOff hcreate (Nat.pos_of_ne_zero hconfig.1)
      (Nat.lt_of_le_of_ne (eq_of_create hcreate).1.quorum hconfig.2) hcuts
  · exact hconfig.elim (cutsOff_of_maxIdle hcreate) (cutsOff_of_quorum hcreate)

/-- A connection that is lent while its only shard is taken out of service and put back. -/
theorem demotion_cuts_off_iff_one :
    ∃ p, create { quorum := .none } ["a:1"] .zero = .ok p ∧ ¬p.CutsOff ∧
      ∃ as a bs cs, p.Runs (as ++ a :: bs ++ cs) ∧ (p.after as).Withdraws a 0 ∧
        (p.after as).isLent 0 = true ∧ (p.after (as ++ a :: bs)).Serves .get cs (.lent 0) ∧
        ∃ ds es, cs = ds ++ es ∧ es ≠ [] ∧
          ((p.after (as ++ a :: bs ++ ds)).shard 0).available = true ∧
          ¬(p.after (as ++ a :: bs ++ ds)).At 0 .closed := by
  let as : List Action := [.start .get, .resume 0 (.ok ()), .start (.mark 0 false)]
  let bs : List Action := [.start (.mark 0 true), .resume 2 (.ok ()), .start (.put 0 false)]
  have hcreate : create { quorum := .none } ["a:1"] .zero = .ok _ := rfl
  obtain ⟨hloans, -, hcuts⟩ := demotion_cuts_off_iff hcreate
  refine ⟨_, hcreate, fun hall => absurd (hcuts.mp hall) (by decide), as, .resume 1 (.ok ()), bs,
    [.start .get], by decide, ⟨by decide, by decide⟩, by decide, .inl ⟨rfl, by decide⟩, ?_⟩
  exact hloans (as ++ .resume 1 (.ok ()) :: bs) [.start .get] 0 0 (by decide)
    (.inl ⟨rfl, by decide⟩) (by decide)

end Create

end QuorumPool.Pool
